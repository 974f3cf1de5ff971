import Mathlib.Algebra.Module.Submodule.Lattice
import Mathlib.Data.List.Induction
import Mathlib.Data.List.Permutation
import WordStm.Proofs.Drafts
import WordStm.Proofs.Moves

/-!
# Ledgers keep track of sessions

The ledger of a history tracks the session that the history leads to: memory
shows the image of the committed transactions, these are serial, and every open
transaction has a draft.  A new region is tracked by the blank ledger, and each
step is tracked by writing it down, as long as the clock has a next value.
-/

namespace WordStm

namespace Region.Effect

variable {digest : Digest} {machine : Machine digest} {region larger : Region}
  {transaction after : Transaction} {operation : Operation} {result : Except Failure Reply}

/-- An operation may add a segment, and leaves the clock alone. -/
theorem grows (effect : region.Effect machine transaction operation larger after result)
    (valid : region.Valid) :
    larger.Valid ∧ larger.Extends region ∧ larger.coordinator = region.coordinator := by
  have same : region.Steady region := ⟨rfl, rfl, fun _ => rfl, rfl, UInt64.le_refl _⟩
  cases effect with
  | alloc active writable checked created registered =>
      exact ⟨valid.add checked created registered, valid.add_extends created registered, rfl⟩
  | @unlogged _ segment id table _ _ _ checked created registered =>
      have steady := steady_unlogged region segment table id
      exact ⟨steady.valid (valid.add checked created registered),
        steady.extends (valid.add_extends created registered), rfl⟩
  | failed | read | write | free => exact ⟨valid, same.toExtends, rfl⟩

/-- A transaction keeps its number. -/
theorem id_eq (effect : region.Effect machine transaction operation larger after result) :
    after.id = transaction.id := by
  cases effect with
  | failed id => exact id
  | read active located words => exact (readWords_alike words).id
  | write | alloc | unlogged | free => rfl

end Region.Effect

/-- A machine up to a moment, and another one from then on. -/
def Machine.upTo {digest : Digest} (machine : Machine digest) (last : Nat)
    (next : Machine digest) : Machine digest where
  grantsAt
    | [] => machine.grantsAt []
    | moment :: inner =>
        if moment < last then machine.grantsAt (moment :: inner) else next.grantsAt inner

namespace Session

variable {digest : Digest} {machine : Machine digest} {session : Session} {ledger : Ledger}

/-- The ledger of a history tracks the session that it leads to. -/
structure Tracked (digest : Digest) (session : Session) (ledger : Ledger) : Prop where
  valid : session.region.Valid
  shows : session.region.Shows session.region.coordinator.clock ledger.memory
  serial : Record.Serial ledger.commits session.region.coordinator.clock
  drafts : ∀ id transaction, session.find? id = some transaction →
    ∃ draft, ledger.drafts id = some draft ∧
      transaction.Drafted digest session.region ledger.commits draft

/-- Memory is what the ledger says. -/
theorem Tracked.portrays (tracked : Tracked digest session ledger) :
    session.region.Portrays ledger.memory :=
  tracked.shows.portrays tracked.valid

theorem Tracked.sound (tracked : Tracked digest session ledger) :
    ∀ id transaction, session.find? id = some transaction →
      transaction.log.writes.Sound digest := by
  intro id transaction found
  rcases tracked.drafts id transaction found with ⟨_, _, drafted⟩
  exact drafted.sound

/-- A new region is tracked by the blank ledger. -/
theorem tracked_ofRegion {config : RegionConfig} {region : Region}
    (created : Region.create machine config = .ok (.ok region)) :
    Tracked digest (ofRegion region) .blank where
  valid := Region.create_valid created
  shows := Region.create_shows created _
  serial := .nil _
  drafts := by
    intro id transaction found
    cases found

/-- When only one transaction moves on, all others keep their drafts. -/
theorem Tracked.update {region : Region} {after : Transaction} {draft : Draft}
    {later : Ledger} (tracked : Tracked digest session ledger) (valid : region.Valid)
    (extended : region.Extends session.region)
    (shows : region.Shows region.coordinator.clock ledger.memory)
    (commits : later.commits = ledger.commits)
    (others : ∀ other, other ≠ after.id → later.drafts other = ledger.drafts other)
    (own : later.drafts after.id = some draft)
    (drafted : after.Drafted digest region ledger.commits draft) :
    Tracked digest ({ session with region }.update after) later where
  valid := valid
  shows := by
    rw [Ledger.memory, commits]
    exact shows
  serial := by
    rw [commits]
    exact tracked.serial.mono extended.clock
  drafts := by
    intro other transaction found
    rw [commits]
    rw [find?_update] at found
    split at found
    next same =>
      rw [Option.map_eq_some_iff] at found
      rcases found with ⟨_, _, rfl⟩
      rw [same]
      exact ⟨draft, own, drafted⟩
    next differ =>
      rcases tracked.drafts other transaction found with ⟨old, known, oldDrafted⟩
      rw [others other differ]
      exact ⟨old, known, oldDrafted.mono extended fun _ => rfl⟩

/-- When one transaction ends, all others keep their drafts. -/
theorem Tracked.close {region : Region} {id : TransactionId} {later : Ledger}
    (tracked : Tracked digest session ledger) (valid : region.Valid)
    (extended : region.Extends session.region)
    (shows : region.Shows region.coordinator.clock later.memory)
    (serial : Record.Serial later.commits region.coordinator.clock)
    (past : ∀ version ≤ session.region.coordinator.clock,
      Record.upTo later.commits version = Record.upTo ledger.commits version)
    (others : ∀ other, other ≠ id → later.drafts other = ledger.drafts other) :
    Tracked digest ({ session with region }.close id) later where
  valid := valid
  shows := shows
  serial := serial
  drafts := by
    intro other transaction found
    rw [find?_close] at found
    split at found
    next => cases found
    next differ =>
      rcases tracked.drafts other transaction found with ⟨old, known, drafted⟩
      rw [others other differ]
      exact ⟨old, known, drafted.mono extended fun fits => past _ fits⟩

/-- What memory shows it goes on showing while no word changes. -/
theorem Tracked.shows_steady {region : Region} (tracked : Tracked digest session ledger)
    (steady : region.Steady session.region) :
    region.Shows region.coordinator.clock ledger.memory where
  written := by
    intro id segment word cell registered found _
    rw [steady.registered] at registered
    rw [steady.memory] at found
    rw [steady.config]
    exact tracked.shows.written id segment word cell registered found
      (tracked.valid.dated _ _ found)
  blank := by
    intro id absent
    rw [steady.registered] at absent
    exact tracked.shows.blank id absent

/-- A transaction that could not begin leaves nothing behind. -/
theorem Tracked.steady {region : Region} (tracked : Tracked digest session ledger)
    (steady : region.Steady session.region) : Tracked digest { session with region } ledger where
  valid := steady.valid tracked.valid
  shows := tracked.shows_steady steady
  serial := tracked.serial.mono steady.clock
  drafts := by
    intro id transaction found
    rcases tracked.drafts id transaction found with ⟨draft, known, drafted⟩
    exact ⟨draft, known, drafted.mono steady.toExtends fun _ => rfl⟩

/-- A transaction that begins gets an empty draft on committed memory. -/
theorem Tracked.begin {mode : AccessMode} {region : Region} {transaction : Transaction}
    (tracked : Tracked digest session ledger)
    (began : session.region.begin machine mode = .ok (region, .ok transaction)) :
    Tracked digest { region, transactions := transaction :: session.transactions }
      (ledger.enter transaction.id) := by
  rcases Region.begin_eq began with ⟨steady, _, _, begun⟩
  rcases begun transaction rfl with ⟨filter, transactionEq⟩
  have moved := tracked.steady steady
  constructor
  · exact moved.valid
  · exact moved.shows
  · exact moved.serial
  · intro id other found
    rw [find?, List.find?_cons] at found
    split at found
    next same =>
      cases found
      have here : id = transaction.id := (beq_iff_eq.mp same).symm
      subst here
      refine ⟨⟨ledger.memory, []⟩, by rw [Ledger.drafts_enter, if_pos rfl], ?_⟩
      rw [transactionEq]
      apply Transaction.Drafted.mono ?_ steady.toExtends fun _ => rfl
      apply Transaction.drafted_start ?_ tracked.shows
      exact (Record.upTo_eq tracked.serial.bounded).symm
    next differ =>
      have apart : id ≠ transaction.id := fun equal => (beq_eq_false_iff_ne.mp differ) equal.symm
      rcases moved.drafts id other found with ⟨draft, known, drafted⟩
      exact ⟨draft, by rw [Ledger.drafts_enter, if_neg apart, known], drafted⟩

/-- An operation that succeeds is noted. -/
theorem Tracked.perform {id : TransactionId} {operation : Operation} {region : Region}
    {transaction after : Transaction} {result : Except Failure Reply}
    (tracked : Tracked digest session ledger) (found : session.find? id = some transaction)
    (effect : session.region.Effect machine transaction operation region after result) :
    Tracked digest ({ session with region }.update after)
      (ledger.observe (.perform id operation) (.performed result)) := by
  rcases tracked.drafts id transaction found with ⟨draft, known, drafted⟩
  rcases effect.grows tracked.valid with ⟨valid, extended, coordinator⟩
  have name : after.id = id := effect.id_eq.trans (id_of_find? found)
  have shows : region.Shows region.coordinator.clock ledger.memory := by
    rw [coordinator]
    exact tracked.shows.mono extended (UInt64.le_refl _)
  cases result with
  | error failure =>
      rw [← name] at known
      exact tracked.update valid extended shows rfl (fun _ _ => rfl) known
        (drafted.failed tracked.valid effect)
  | ok reply =>
      have commits : (ledger.observe (.perform id operation) (.performed (.ok reply))).commits =
          ledger.commits := rfl
      apply tracked.update valid extended shows commits
      · intro other differ
        rw [Ledger.observe, Ledger.drafts_note, if_neg (name ▸ differ)]
      · rw [name, Ledger.observe, Ledger.drafts_note, if_pos rfl, known, Option.map_some]
      · exact drafted.perform tracked.valid effect

/-- A transaction that ends without a commit is dropped. -/
theorem Tracked.drop {region : Region} {id : TransactionId}
    (tracked : Tracked digest session ledger) (steady : region.Steady session.region) :
    Tracked digest ({ session with region }.close id) (ledger.drop id) :=
  tracked.close (steady.valid tracked.valid) steady.toExtends (tracked.shows_steady steady)
    (tracked.serial.mono steady.clock) (fun _ _ => rfl) fun other differ => by
      rw [Ledger.drafts_drop, if_neg differ]

/-- A commit is settled in the ledger as it is in the region. -/
theorem Tracked.commit {region : Region} {id : TransactionId} {transaction : Transaction}
    {result : Except Failure Version} (tracked : Tracked digest session ledger)
    (room : session.region.coordinator.clock.toNat + 1 < 2 ^ 64)
    (found : session.find? id = some transaction)
    (settled : session.region.Settlement transaction region result) :
    Tracked digest ({ session with region }.close id)
      (ledger.observe (.commit id) (.committed result)) := by
  rcases tracked.drafts id transaction found with ⟨draft, known, drafted⟩
  cases settled with
  | failed clock =>
      apply tracked.drop
      apply Region.steady_retire
      rcases clock with same | ticked
      · rw [same]
        exact UInt64.le_refl _
      · rw [ticked]
        exact UInt64.le_of_lt (Region.clock_lt_succ room)
  | quiet active idle =>
      have current := drafted.current active
      have steady := Region.steady_retire session.region transaction.log.freed.toList
        transaction.snapshot (session.region.tally.ended true) (UInt64.le_refl _)
      have quiet : Record.draws ⟨id, transaction.snapshot, draft.deeds⟩ = false :=
        current.not_draws idle
      have same : Ledger.imageOf (ledger.commits ++ [⟨id, transaction.snapshot, draft.deeds⟩]) =
          ledger.memory := by
        rw [Ledger.imageOf_append, List.flatMap_singleton]
        exact Record.replay_of_not_draws quiet _
      rw [Ledger.observe, Ledger.settle_eq known]
      apply tracked.close (steady.valid tracked.valid) steady.toExtends
      · rw [Ledger.memory, same]
        exact tracked.shows_steady steady
      · apply tracked.serial.quiet quiet current.snapshot
        change (Record.upTo ledger.commits transaction.snapshot).Agrees draft.deeds
        rw [← current.start]
        exact current.agrees
      · intro version _
        exact Record.upTo_append_of_not_draws _ quiet version
      · intro other differ
        exact (Ledger.drafts_drop _ _ _).trans (if_neg differ)
  | published publishes =>
      have current := drafted.current publishes.active
      have drawn : Record.draws ⟨id, session.region.coordinator.clock + 1, draft.deeds⟩ = true := by
        rw [Record.draws, current.draws, publishes.effects]
        rfl
      have next := Region.clock_lt_succ room
      have clock := congrArg Coordinator.clock publishes.clock
      have agrees := current.agrees_now tracked.valid publishes tracked.serial tracked.shows
      have replayed : Ledger.imageOf (ledger.commits ++
          [⟨id, session.region.coordinator.clock + 1, draft.deeds⟩]) =
          ledger.memory.replay draft.deeds := by
        rw [Ledger.imageOf_append, List.flatMap_singleton]
        rfl
      rw [Ledger.observe, Ledger.settle_eq known]
      apply tracked.close (Region.Valid.publish publishes tracked.valid room _ _ _)
        (Region.publish_extends publishes room _ _ _)
      · rw [Ledger.memory, replayed]
        exact tracked.valid.publish_shows publishes current.placed current.reflects
          (fun unknown absent => current.rooted unknown absent _) tracked.shows _ _ _ _
      · rw [clock]
        exact tracked.serial.publish drawn next agrees
      · intro version past
        exact Record.upTo_append_of_lt _ (UInt64.lt_of_le_of_lt past next)
      · intro other differ
        exact (Ledger.drafts_drop _ _ _).trans (if_neg differ)

/-- Writing a step down keeps track of it. -/
theorem Tracked.step {action : Action} {after : Session} {answer : Answer}
    (tracked : Tracked digest session ledger)
    (room : session.region.coordinator.clock.toNat + 1 < 2 ^ 64)
    (move : session.Move machine action after answer) :
    Tracked digest after (ledger.observe action answer) := by
  cases move with
  | began begun => exact tracked.begin begun
  | refused refused => exact tracked.steady (Region.begin_eq refused).1
  | unknown => cases action <;> exact tracked
  | performed found effect => exact tracked.perform found effect
  | committed found settled => exact tracked.commit room found settled
  | dropped asked found =>
      rw [Region.abandon_eq]
      rcases asked with rfl | rfl
      · exact tracked.drop (Region.steady_retire _ _ _ _ (UInt64.le_refl _))
      · exact tracked.drop (Region.steady_retire _ _ _ _ (UInt64.le_refl _))

/-- A commit takes the next value of the clock if its draft says so. -/
theorem Tracked.commit_version {id : TransactionId} {version : Version} {after : Session}
    (tracked : Tracked digest session ledger)
    (move : session.Move machine (.commit id) after (.committed (.ok version))) :
    ∃ draft, ledger.drafts id = some draft ∧
      (draft.deeds.any Deed.draws = true ∧ version = session.region.coordinator.clock + 1 ∧
          after.region.coordinator.clock = version ∨
        draft.deeds.any Deed.draws = false ∧ version ≤ session.region.coordinator.clock ∧
          after.region.coordinator.clock = session.region.coordinator.clock) := by
  cases move with
  | committed found settled =>
      rcases tracked.drafts id _ found with ⟨draft, known, drafted⟩
      refine ⟨draft, known, ?_⟩
      cases settled with
      | quiet active idle =>
          right
          have current := drafted.current active
          exact ⟨current.not_draws idle, current.snapshot, rfl⟩
      | published publishes =>
          left
          have current := drafted.current publishes.active
          refine ⟨?_, rfl, congrArg Coordinator.clock publishes.clock⟩
          rw [current.draws, publishes.effects]
          rfl

/-- Only a commit moves the clock. -/
theorem Move.clock_still {action : Action} {after : Session} {answer : Answer}
    (valid : session.region.Valid) (move : session.Move machine action after answer)
    (other : ∀ result, answer ≠ .committed result) :
    after.region.coordinator.clock = session.region.coordinator.clock := by
  cases move with
  | began begun => rw [(Region.begin_eq begun).2.2.1]
  | refused refused => rw [(Region.begin_eq refused).2.2.1]
  | unknown => rfl
  | performed found effect => rw [update, (effect.grows valid).2.2]
  | committed found settled => exact absurd rfl (other _)
  | dropped asked found =>
      rw [Region.abandon_eq]
      rfl

/-- A step leaves the clock alone or takes its next value. -/
theorem Move.clock_eq {action : Action} {after : Session} {answer : Answer}
    (valid : session.region.Valid) (move : session.Move machine action after answer) :
    after.region.coordinator.clock = session.region.coordinator.clock ∨
      after.region.coordinator.clock = session.region.coordinator.clock + 1 := by
  have still := move.clock_still valid
  cases move with
  | began | refused | unknown | performed | dropped => exact .inl (still (by simp))
  | committed found settled =>
      cases settled with
      | quiet => exact .inl rfl
      | published publishes => exact .inr (congrArg Coordinator.clock publishes.clock)
      | failed clock =>
          rcases clock with rfl | rfl
          · exact .inl rfl
          · exact .inr rfl

/-- A step advances the clock by one at most. -/
theorem Move.clock_le {action : Action} {after : Session} {answer : Answer}
    (valid : session.region.Valid) (move : session.Move machine action after answer) :
    after.region.coordinator.clock.toNat ≤ session.region.coordinator.clock.toNat + 1 := by
  rcases move.clock_eq valid with same | next
  · rw [same]
    exact Nat.le_succ _
  · rw [next, UInt64.toNat_add]
    exact Nat.mod_le _ _

/-- A clock that has not run out never goes back. -/
theorem Move.clock_mono {action : Action} {after : Session} {answer : Answer}
    (valid : session.region.Valid) (room : session.region.coordinator.clock.toNat + 1 < 2 ^ 64)
    (move : session.Move machine action after answer) :
    session.region.coordinator.clock ≤ after.region.coordinator.clock := by
  rcases move.clock_eq valid with same | next
  · rw [same]
    exact UInt64.le_refl _
  · rw [next]
    exact UInt64.le_of_lt (Region.clock_lt_succ room)

/-- A history of a new region leads to a session: the actions are fewer than the clock
has values, and their buffers are no longer than a 64-bit length can say. -/
structure Reached (machine : Machine digest) (config : RegionConfig) (actions : List Action)
    (answers : List Answer) (session : Session) : Prop where
  ran : ∃ region, Region.create machine config = .ok (.ok region) ∧
    (ofRegion region).run machine actions = .ok (session, answers)
  short : actions.length < 2 ^ 64 - 1
  sized : ∀ action ∈ actions, action.Sized

/-- A run depends on what is granted at its moments alone. -/
theorem run_of_moments {other : Machine digest} {actions : List Action} (session : Session)
    (same : ∀ moment < actions.length, other.during moment = machine.during moment) :
    session.run other actions = session.run machine actions := by
  induction actions generalizing session machine other with
  | nil => rfl
  | cons action rest ih =>
      have later : ∀ moment < rest.length,
          (other.since 1).during moment = (machine.since 1).during moment := by
        intro moment inside
        rw [Machine.during_since, Machine.during_since]
        exact same (1 + moment) (by rw [List.length_cons]; omega)
      simp only [run, same 0 (Nat.succ_pos _), ih _ later]

/-- The last step of a run. -/
theorem run_snoc {final : Session} {actions : List Action} {action : Action}
    {answers : List Answer}
    (ran : session.run machine (actions ++ [action]) = .ok (final, answers)) :
    ∃ middle before answer, session.run machine actions = .ok (middle, before) ∧
      middle.step (machine.during actions.length) action = .ok (final, answer) ∧
      answers = before ++ [answer] := by
  simp only [run_append, run, Machine.during_since, Nat.add_zero, bind_eq_ok, pure_eq_ok,
    Prod.exists, Prod.mk.injEq] at ran
  rcases ran with
    ⟨middle, before, first, _, _, ⟨_, answer, stepped, _, _, ⟨rfl, rfl⟩, rfl, rfl⟩, rfl, rfl⟩
  exact ⟨middle, before, answer, first, stepped, rfl⟩

namespace Reached

variable {config : RegionConfig} {actions : List Action} {answers : List Answer}

/-- Before the first step there is a new region. -/
theorem nil (reached : Reached machine config [] answers session) :
    ∃ region, Region.create machine config = .ok (.ok region) ∧ answers = [] ∧
      session = ofRegion region := by
  rcases reached.ran with ⟨region, created, ran⟩
  cases ran
  exact ⟨region, created, rfl, rfl⟩

/-- The last step of a history. -/
theorem snoc {action : Action} {after : Session}
    (reached : Reached machine config (actions ++ [action]) answers after) :
    ∃ session before answer, Reached machine config actions before session ∧
      session.step (machine.during actions.length) action = .ok (after, answer) ∧
      answers = before ++ [answer] := by
  rcases reached.ran with ⟨region, created, ran⟩
  rcases run_snoc ran with ⟨session, before, answer, first, stepped, same⟩
  refine ⟨session, before, answer, ⟨⟨region, created, first⟩, ?_, ?_⟩, stepped, same⟩
  · have short := reached.short
    rw [List.length_append] at short
    omega
  · intro other member
    exact reached.sized other (List.mem_append_left _ member)

/-- A history goes on with one more step. -/
theorem extend {action : Action} {answer : Answer} {after : Session}
    (reached : Reached machine config actions answers session) (sized : action.Sized)
    (room : actions.length + 1 < 2 ^ 64 - 1)
    (stepped : session.step (machine.during actions.length) action = .ok (after, answer)) :
    Reached machine config (actions ++ [action]) (answers ++ [answer]) after where
  ran := by
    rcases reached.ran with ⟨region, created, ran⟩
    refine ⟨region, created, ?_⟩
    simp only [run_append, ran, run, Machine.during_since, Nat.add_zero, stepped, bind,
      Except.bind, pure, Except.pure]
  short := by
    rw [List.length_append]
    exact room
  sized := by
    intro other member
    rcases List.mem_append.mp member with old | new
    · exact reached.sized other old
    · rw [List.mem_singleton.mp new]
      exact sized

/-- What a history leads to depends on what is granted at the start and at its moments. -/
theorem of_moments {other : Machine digest}
    (reached : Reached machine config actions answers session)
    (created : Region.create other config = Region.create machine config)
    (same : ∀ moment < actions.length, other.during moment = machine.during moment) :
    Reached other config actions answers session where
  ran := by
    rcases reached.ran with ⟨region, made, ran⟩
    exact ⟨region, created.trans made, (run_of_moments _ same).trans ran⟩
  short := reached.short
  sized := reached.sized

/-- A history goes on with one more step, whatever machine that finds. -/
theorem extend_upTo {action : Action} {answer : Answer} {after : Session}
    (reached : Reached machine config actions answers session) (sized : action.Sized)
    (room : actions.length + 1 < 2 ^ 64 - 1) {now : Machine digest}
    (stepped : session.step now action = .ok (after, answer)) :
    Reached (machine.upTo actions.length now) config (actions ++ [action]) (answers ++ [answer])
      after := by
  have before : ∀ moment < actions.length,
      (machine.upTo actions.length now).during moment = machine.during moment := by
    intro moment early
    simp only [Machine.upTo, Machine.during, if_pos early]
  have since : (machine.upTo actions.length now).during actions.length = now := by
    simp only [Machine.upTo, Machine.during, if_neg (Nat.lt_irrefl _)]
  refine (reached.of_moments (by rfl) before).extend sized room ?_
  rw [since]
  exact stepped

/-- Actions lead to one session. -/
theorem unique {other : Session} {others : List Answer}
    (reached : Reached machine config actions answers session)
    (again : Reached machine config actions others other) : session = other := by
  rcases reached.ran with ⟨region, created, ran⟩
  rcases again.ran with ⟨same, createdAgain, ranAgain⟩
  rw [created, Except.ok.injEq, Except.ok.injEq] at createdAgain
  rw [createdAgain, ranAgain] at ran
  cases ran
  rfl

/-- The ledger tracks every session that a history leads to. -/
theorem tracked (reached : Reached machine config actions answers session) :
    answers.length = actions.length ∧ Tracked digest session (.of actions answers) ∧
      session.region.coordinator.clock.toNat ≤ actions.length := by
  induction actions using List.reverseRecOn generalizing answers session with
  | nil =>
      rcases reached.nil with ⟨region, created, rfl, rfl⟩
      refine ⟨rfl, tracked_ofRegion created, ?_⟩
      rcases Region.create_ok created with ⟨_, _, _, _, _, _, _, _, _, _, _, coordinator⟩
      rw [ofRegion, coordinator]
      exact Nat.zero_le _
  | append_singleton earlier action ih =>
      rcases reached.snoc with ⟨middle, before, answer, first, stepped, rfl⟩
      rcases ih first with ⟨paired, known, clock⟩
      have short := reached.short
      have sized := reached.sized action (by simp)
      rw [List.length_append, List.length_singleton] at short
      have move := step_moves sized known.sound stepped
      refine ⟨by simp [paired], ?_, ?_⟩
      · rw [Ledger.of_snoc paired]
        exact known.step (by omega) move
      · rw [List.length_append, List.length_singleton]
        exact Nat.le_trans (move.clock_le known.valid) (Nat.succ_le_succ clock)

/-- The answers behind a cut are those of the actions behind it. -/
theorem paired_later {earlier later : List Action} {before beyond : List Answer}
    (paired : before.length = earlier.length)
    (reached : Reached machine config (earlier ++ later) (before ++ beyond) session) :
    beyond.length = later.length := by
  have lengths := reached.tracked.1
  rw [List.length_append, List.length_append, paired] at lengths
  exact Nat.add_left_cancel lengths

/-- What holds of new regions and is kept by every step holds of every session that a
history leads to.  Steps are taken from sessions that their ledger tracks. -/
theorem induction {motive : List Action → List Answer → Session → Prop}
    (start : ∀ region, Region.create machine config = .ok (.ok region) →
      motive [] [] (ofRegion region))
    (step : ∀ {actions answers session action answer after},
      Reached machine config actions answers session → actions.length + 1 < 2 ^ 64 - 1 →
      session.Move (machine.during actions.length) action after answer →
        motive actions answers session → motive (actions ++ [action]) (answers ++ [answer]) after)
    (reached : Reached machine config actions answers session) :
    motive actions answers session := by
  induction actions using List.reverseRecOn generalizing answers session with
  | nil =>
      rcases reached.nil with ⟨region, created, rfl, rfl⟩
      exact start region created
  | append_singleton earlier action ih =>
      rcases reached.snoc with ⟨middle, before, answer, first, stepped, rfl⟩
      have short := reached.short
      rw [List.length_append, List.length_singleton] at short
      have sized := reached.sized action (by simp)
      exact step first short (step_moves sized first.tracked.2.1.sound stepped) (ih first)

/-- The last answer is that of the last step. -/
theorem snoc_answer {action : Action} {answer : Answer} {after : Session}
    (reached : Reached machine config (actions ++ [action]) (answers ++ [answer]) after) :
    ∃ session, Reached machine config actions answers session ∧
      session.step (machine.during actions.length) action = .ok (after, answer) := by
  rcases reached.snoc with ⟨session, before, last, first, stepped, same⟩
  rcases List.append_inj' same rfl with ⟨rfl, lastEq⟩
  cases lastEq
  exact ⟨session, first, stepped⟩

/-- The last step of a history is a move. -/
theorem snoc_move {action : Action} {answer : Answer} {after : Session}
    (reached : Reached machine config (actions ++ [action]) (answers ++ [answer]) after) :
    ∃ session, Reached machine config actions answers session ∧
      session.Move (machine.during actions.length) action after answer := by
  rcases reached.snoc_answer with ⟨session, first, stepped⟩
  have sized := reached.sized action (by simp)
  exact ⟨session, first, step_moves sized first.tracked.2.1.sound stepped⟩

/-- What holds at some moment and is kept by every step holds of every session that a history
leads to from then on. -/
theorem steps_from {motive : List Action → List Answer → Session → Prop}
    {earlier later : List Action} {before beyond : List Answer} {middle : Session}
    (paired : before.length = earlier.length)
    (start : Reached machine config earlier before middle) (now : motive [] [] middle)
    (step : ∀ {later beyond session action answer after}, beyond.length = later.length →
      Reached machine config (earlier ++ later) (before ++ beyond) session → action.Sized →
      session.step (machine.during (earlier ++ later).length) action = .ok (after, answer) →
      motive later beyond session → motive (later ++ [action]) (beyond ++ [answer]) after)
    (reached : Reached machine config (earlier ++ later) (before ++ beyond) session) :
    motive later beyond session := by
  have same := reached.paired_later paired
  induction later using List.reverseRecOn generalizing beyond session with
  | nil =>
      rw [List.length_eq_zero_iff.mp same] at reached ⊢
      rw [List.append_nil, List.append_nil] at reached
      rw [reached.unique start]
      exact now
  | append_singleton later action ih =>
      rcases List.eq_nil_or_concat beyond with rfl | ⟨beyond, answer, rfl⟩
      · simp at same
      · rw [List.concat_eq_append] at reached same ⊢
        rw [← List.append_assoc, ← List.append_assoc] at reached
        have shorter : beyond.length = later.length := by simpa using same
        have sized := reached.sized action (by simp)
        rcases reached.snoc_answer with ⟨session, first, stepped⟩
        exact step shorter first sized stepped (ih first shorter)

/-- What holds at some moment and is kept by every move holds of every session that a history
leads to from then on. -/
theorem induction_from {motive : List Action → List Answer → Session → Prop}
    {earlier later : List Action} {before beyond : List Answer} {middle : Session}
    (paired : before.length = earlier.length)
    (start : Reached machine config earlier before middle) (now : motive [] [] middle)
    (step : ∀ {later beyond session action answer after}, beyond.length = later.length →
      Reached machine config (earlier ++ later) (before ++ beyond) session →
      session.Move (machine.during (earlier ++ later).length) action after answer →
      motive later beyond session → motive (later ++ [action]) (beyond ++ [answer]) after)
    (reached : Reached machine config (earlier ++ later) (before ++ beyond) session) :
    motive later beyond session := by
  apply start.steps_from paired now ?_ reached
  intro later beyond session action answer after shorter first sized stepped known
  exact step shorter first (step_moves sized first.tracked.2.1.sound stepped) known

/-- A history may be cut anywhere. -/
theorem cut {earlier later : List Action} {before beyond : List Answer}
    (paired : before.length = earlier.length)
    (reached : Reached machine config (earlier ++ later) (before ++ beyond) session) :
    ∃ middle, Reached machine config earlier before middle ∧
      middle.run (machine.since earlier.length) later = .ok (session, beyond) := by
  rcases reached.ran with ⟨region, created, ran⟩
  simp only [run_append, bind_eq_ok, pure_eq_ok, Prod.exists, Prod.mk.injEq] at ran
  rcases ran with ⟨middle, first, ran, _, second, rest, rfl, same⟩
  have short := reached.short
  rw [List.length_append] at short
  have front : Reached machine config earlier first middle :=
    ⟨⟨region, created, ran⟩, by omega, fun action member =>
      reached.sized action (List.mem_append_left _ member)⟩
  rcases List.append_inj same (front.tracked.1.trans paired.symm) with ⟨rfl, rfl⟩
  exact ⟨middle, front, rest⟩

end Reached

/-- What is seen of a new region after a sequence of actions, and its answers to them. -/
def seenAfter {α : Type} (view : Session → α) (machine : Machine digest) (config : RegionConfig)
    (actions : List Action) : Option (α × List Answer) :=
  match Region.create machine config with
  | .ok (.ok region) =>
      match (ofRegion region).run machine actions with
      | .ok (session, answers) => some (view session, answers)
      | .error _ => none
  | _ => none

/-- A configuration of three words. -/
def threeWords : RegionConfig where
  size := 24
  align := 8
  filterBits := 64
  filterHashes := 1
  tableCapacity := 2

/-- What was computed is seen of a session that a history leads to. -/
theorem Reached.of_seenAfter {α : Type} {view : Session → α} {seen : α} {config : RegionConfig}
    {actions : List Action} {answers : List Answer}
    (computed : seenAfter view machine config actions = some (seen, answers))
    (short : actions.length < 2 ^ 64 - 1) (sized : ∀ action ∈ actions, action.Sized) :
    ∃ session, Reached machine config actions answers session ∧ view session = seen := by
  rw [seenAfter] at computed
  split at computed
  next region created =>
    split at computed
    next session given ran =>
      cases computed
      exact ⟨session, ⟨⟨region, created, ran⟩, short, sized⟩, rfl⟩
    next => cases computed
  next => cases computed

/-- What was computed before and after a last step is seen of the sessions around it. -/
theorem Reached.of_seenAfter_snoc {α : Type} {view : Session → α} {seen next : α}
    {config : RegionConfig} {actions : List Action} {action : Action} {answers : List Answer}
    {answer : Answer} (computed : seenAfter view machine config actions = some (seen, answers))
    (ended : seenAfter view machine config (actions ++ [action]) =
      some (next, answers ++ [answer]))
    (short : actions.length + 1 < 2 ^ 64 - 1)
    (sized : ∀ other ∈ actions ++ [action], other.Sized) :
    ∃ session after, Reached machine config actions answers session ∧
      session.step (machine.during actions.length) action = .ok (after, answer) ∧
      view session = seen ∧ view after = next := by
  have length : (actions ++ [action]).length < 2 ^ 64 - 1 := by simpa using short
  rcases of_seenAfter ended length sized with ⟨after, whole, last⟩
  rcases whole.snoc_answer with ⟨session, reached, stepped⟩
  rcases of_seenAfter computed reached.short reached.sized with ⟨same, again, first⟩
  rw [again.unique reached] at first
  exact ⟨session, after, reached, stepped, first, last⟩

end Session

end WordStm
