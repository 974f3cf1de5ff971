import WordStm.Proofs.Accounting
import WordStm.Proofs.Traces
import WordStm.Proofs.Tuning

/-!
# Every transaction is counted once

A transaction begins once and ends at most once: it commits, or its commit fails, or it
is given up, or it is ended on another region.  Each step moves the number of at most one
transaction, and the counters of the region follow: those that are open, those that have
committed and those that have ended otherwise make up those that began.

The clock counts as well.  It advances with every commit that has something to publish or
to free, and with every commit that fails because of a word that was read.

In a world of several regions each session counts its own steps only, so a transaction
that is ended on another region is counted where it began.
-/

namespace WordStm

namespace Answer

/-- The transaction that began. -/
def begun? : Answer → Option TransactionId
  | began (.ok id) => some id
  | began (.error _) | performed _ | committed _ | ended | unknown => none

/-- Whether a transaction committed. -/
def isCommitted : Answer → Bool
  | committed (.ok _) => true
  | committed (.error _) | began _ | performed _ | ended | unknown => false

theorem begun?_eq_some_iff {answer : Answer} {id : TransactionId} :
    answer.begun? = some id ↔ answer = .began (.ok id) := by
  constructor
  · intro begun
    unfold begun? at begun
    split at begun
    next =>
      cases begun
      rfl
    all_goals cases begun
  · rintro rfl
    rfl

end Answer

/-- Which transaction committed in one step. -/
def wonBy (action : Action) (answer : Answer) : Option TransactionId :=
  (commitOf action answer).map (·.1)

/-- Which transaction ended in one step without committing. -/
def lostBy : Action → Answer → Option TransactionId
  | .commit id, .committed (.error _) => some id
  | .rollback id, .ended | .endElsewhere id, .ended => some id
  | _, _ => none

/-- The transactions that some kind of step is about in a history, in the order of the steps. -/
def numbersOf (tells : Action → Answer → Option TransactionId) (actions : List Action)
    (answers : List Answer) : List TransactionId :=
  (actions.zip answers).filterMap fun step => tells step.1 step.2

/-- The transactions that began in a history. -/
abbrev begunIn (actions : List Action) (answers : List Answer) : List TransactionId :=
  numbersOf (fun _ answer => answer.begun?) actions answers

theorem begunIn_eq {actions : List Action} {answers : List Answer}
    (paired : answers.length = actions.length) :
    begunIn actions answers = answers.filterMap Answer.begun? := by
  have answered := List.map_snd_zip (Nat.le_of_eq paired)
  rw [← congrArg (List.filterMap Answer.begun?) answered, List.filterMap_map]
  rfl

/-- The transactions that committed in a history. -/
abbrev wonIn (actions : List Action) (answers : List Answer) : List TransactionId :=
  numbersOf wonBy actions answers

/-- The transactions that ended in a history without committing. -/
abbrev lostIn (actions : List Action) (answers : List Answer) : List TransactionId :=
  numbersOf lostBy actions answers

theorem numbersOf_snoc (tells : Action → Answer → Option TransactionId) {actions : List Action}
    {answers : List Answer} (paired : answers.length = actions.length) (action : Action)
    (answer : Answer) :
    numbersOf tells (actions ++ [action]) (answers ++ [answer]) =
      numbersOf tells actions answers ++ (tells action answer).toList := by
  rw [numbersOf, List.zip_append paired.symm, List.filterMap_append]
  cases told : tells action answer <;> simp [numbersOf, told]

/-- The records of a history are of the transactions that committed. -/
theorem ids_committedOf (actions : List Action) (answers : List Answer) :
    (committedOf actions answers).map (·.id) = wonIn actions answers := by
  rw [committedOf, List.map_map, wonIn, numbersOf, List.map_filterMap]
  rfl

theorem length_numbersOf_le (tells : Action → Answer → Option TransactionId)
    (actions : List Action) (answers : List Answer) :
    (numbersOf tells actions answers).length ≤ actions.length := by
  refine Nat.le_trans (List.length_filterMap_le _ _) ?_
  rw [List.length_zip]
  exact Nat.min_le_left _ _

namespace Tally

theorem toNat_succ {count : UInt64} (room : count.toNat + 1 < 2 ^ 64) :
    (count + 1).toNat = count.toNat + 1 := by
  rw [UInt64.toNat_add]
  exact Nat.mod_eq_of_lt room

theorem toNat_pred {count : UInt64} (positive : 0 < count.toNat) :
    (count - 1).toNat + 1 = count.toNat := by
  have one : (1 : UInt64).toNat = 1 := rfl
  have above : (1 : UInt64) ≤ count := UInt64.le_iff_toNat_le.mpr positive
  rw [UInt64.toNat_sub_of_le _ _ above, one]
  exact Nat.sub_add_cancel positive

/-- Counters that have room do not wrap around. -/
structure Roomy (tally : Tally) : Prop where
  active : tally.active.toNat + 1 < 2 ^ 64
  committed : tally.committed.toNat + 1 < 2 ^ 64
  aborted : tally.aborted.toNat + 1 < 2 ^ 64

/-- What a step adds to the counters: a transaction that began becomes active, and one that
committed or was lost is active no more. -/
structure Moves (after before : Tally) (begun won lost : Option TransactionId) : Prop where
  active : after.active.toNat + won.toList.length + lost.toList.length =
    before.active.toNat + begun.toList.length
  committed : after.committed.toNat = before.committed.toNat + won.toList.length
  aborted : after.aborted.toNat = before.aborted.toNat + lost.toList.length

variable {tally : Tally}

theorem moves_refl (tally : Tally) : tally.Moves tally none none none := ⟨rfl, rfl, rfl⟩

theorem moves_began (roomy : tally.Roomy) (id : TransactionId) :
    tally.began.Moves tally (some id) none none :=
  ⟨toNat_succ roomy.active, rfl, rfl⟩

theorem moves_won (roomy : tally.Roomy) (positive : 0 < tally.active.toNat) (id : TransactionId) :
    (tally.ended true).Moves tally none (some id) none :=
  ⟨toNat_pred positive, toNat_succ roomy.committed, rfl⟩

theorem moves_lost (roomy : tally.Roomy) (positive : 0 < tally.active.toNat)
    (id : TransactionId) : (tally.ended false).Moves tally none none (some id) :=
  ⟨toNat_pred positive, rfl, toNat_succ roomy.aborted⟩

end Tally

namespace Session

variable {digest : Digest} {machine now : Machine digest} {config : RegionConfig}
  {session after : Session}
  {actions : List Action} {answers : List Answer} {action : Action} {answer : Answer}

/-- The numbers of the open transactions. -/
def numbers (session : Session) : List TransactionId := session.transactions.map (·.id)

theorem mem_numbers {id : TransactionId} {transaction : Transaction}
    (found : session.find? id = some transaction) : id ∈ session.numbers :=
  List.mem_map.mpr ⟨transaction, List.mem_of_find?_eq_some found, id_of_find? found⟩

/-- A transaction that is closed leaves the others. -/
theorem numbers_close (apart : session.numbers.Nodup) (region : Region) (id : TransactionId) :
    ({ session with region }.close id).numbers = session.numbers.erase id := by
  rw [apart.erase_eq_filter, numbers, numbers, List.filter_map]
  rfl

theorem numbers_perm_close {id : TransactionId} {transaction : Transaction}
    (apart : session.numbers.Nodup) (found : session.find? id = some transaction)
    (region : Region) :
    session.numbers.Perm (({ session with region }.close id).numbers ++ [id]) := by
  rw [numbers_close apart]
  exact (List.perm_cons_erase (mem_numbers found)).trans (List.perm_append_singleton _ _).symm

namespace Move

/-- A step moves the number of one transaction at most: it comes to be open, or it is open
no more and has ended one way or the other. -/
theorem numbers_perm (move : session.Move now action after answer)
    (apart : session.numbers.Nodup) :
    (answer.begun?.toList ++ session.numbers).Perm
      (after.numbers ++ (wonBy action answer).toList ++ (lostBy action answer).toList) := by
  cases move with
  | began | refused => simp [Answer.begun?, wonBy, commitOf, lostBy, numbers]
  | unknown => cases action <;> simp [Answer.begun?, wonBy, commitOf, lostBy]
  | performed found effect =>
      simp only [Answer.begun?, wonBy, commitOf, lostBy, numbers, ids_update]
      simp
  | @committed id transaction region result found settled =>
      cases result with
      | ok version => simpa [Answer.begun?, wonBy, commitOf, lostBy] using
          numbers_perm_close apart found region
      | error failure => simpa [Answer.begun?, wonBy, commitOf, lostBy] using
          numbers_perm_close apart found region
  | dropped asked found =>
      rcases asked with rfl | rfl
      · simpa [Answer.begun?, wonBy, commitOf, lostBy] using numbers_perm_close apart found _
      · simpa [Answer.begun?, wonBy, commitOf, lostBy] using numbers_perm_close apart found _

/-- The counters move as the numbers do. -/
theorem tally_moves (move : session.Move now action after answer)
    (roomy : session.region.tally.Roomy)
    (positive : ∀ id transaction, session.find? id = some transaction →
      0 < session.region.tally.active.toNat) :
    after.region.tally.Moves session.region.tally answer.begun? (wonBy action answer)
      (lostBy action answer) := by
  have counted := move.tally_eq
  rw [counted]
  cases move with
  | began => exact Tally.moves_began roomy _
  | refused => exact Tally.moves_refl _
  | unknown => cases action <;> exact Tally.moves_refl _
  | performed => exact Tally.moves_refl _
  | @committed id _ _ result found =>
      cases result with
      | ok version => exact Tally.moves_won roomy (positive _ _ found) id
      | error failure => exact Tally.moves_lost roomy (positive _ _ found) id
  | dropped asked found =>
      rcases asked with rfl | rfl
      · exact Tally.moves_lost roomy (positive _ _ found) _
      · exact Tally.moves_lost roomy (positive _ _ found) _

end Move

/-- The counters of a region say how many of its transactions are open and how the others
ended. -/
structure Tallied (session : Session) (actions : List Action) (answers : List Answer) : Prop where
  shared : (begunIn actions answers).Perm
    (session.numbers ++ wonIn actions answers ++ lostIn actions answers)
  active : session.region.tally.active.toNat = session.numbers.length
  committed : session.region.tally.committed.toNat = (wonIn actions answers).length
  aborted : session.region.tally.aborted.toNat = (lostIn actions answers).length

namespace Tallied

/-- The counters make up the transactions that began, so none of them wraps around. -/
theorem whole (tallied : session.Tallied actions answers) :
    session.region.tally.committed.toNat + session.region.tally.aborted.toNat +
      session.region.tally.active.toNat = (begunIn actions answers).length := by
  have lengths := tallied.shared.length_eq
  rw [List.length_append, List.length_append] at lengths
  rw [tallied.active, tallied.committed, tallied.aborted]
  omega

/-- Whoever is about to end is counted. -/
theorem positive {id : TransactionId} {transaction : Transaction}
    (tallied : session.Tallied actions answers)
    (found : session.find? id = some transaction) :
    0 < session.region.tally.active.toNat := by
  rw [tallied.active]
  exact List.length_pos_of_mem (mem_numbers found)

theorem step (tallied : session.Tallied actions answers) (apart : session.numbers.Nodup)
    (paired : answers.length = actions.length) (short : actions.length + 1 < 2 ^ 64 - 1)
    (move : session.Move now action after answer) :
    after.Tallied (actions ++ [action]) (answers ++ [answer]) := by
  have moved := move.numbers_perm apart
  have shared : (begunIn (actions ++ [action]) (answers ++ [answer])).Perm
      (after.numbers ++ wonIn (actions ++ [action]) (answers ++ [answer]) ++
        lostIn (actions ++ [action]) (answers ++ [answer])) := by
    rw [List.perm_iff_count]
    intro id
    have here := moved.count_eq id
    have before := tallied.shared.count_eq id
    simp only [begunIn, wonIn, lostIn, numbersOf_snoc _ paired, List.count_append] at here before ⊢
    omega
  have most : (begunIn actions answers).length ≤ actions.length := length_numbersOf_le _ _ _
  have whole := tallied.whole
  have roomy : session.region.tally.Roomy := by constructor <;> omega
  have counted := move.tally_moves roomy fun _ _ found => tallied.positive found
  refine ⟨shared, ?_, ?_, ?_⟩
  · have lengths := moved.length_eq
    simp only [List.length_append] at lengths
    have before := tallied.active
    have now := counted.active
    omega
  · rw [counted.committed, tallied.committed, wonIn, wonIn, numbersOf_snoc _ paired,
      List.length_append]
  · rw [counted.aborted, tallied.aborted, lostIn, lostIn, numbersOf_snoc _ paired,
      List.length_append]

end Tallied

namespace Reached

theorem tallied (reached : Reached machine config actions answers session) :
    session.Tallied actions answers := by
  apply reached.induction (motive := fun actions answers session =>
    session.Tallied actions answers)
  · intro region created
    have fresh := (Region.create_fresh created).2
    exact ⟨List.Perm.nil, by rw [ofRegion, fresh]; rfl, by rw [ofRegion, fresh]; rfl,
      by rw [ofRegion, fresh]; rfl⟩
  · intro actions answers session action answer after first short move tallied
    exact tallied.step first.apart first.tracked.1 short move

/-- A step advances the clock if it commits something that takes a version, or fails to commit
because of a word that was read. -/
theorem clock_step (reached : Reached machine config actions answers session)
    (sized : action.Sized) (stepped : session.step now action = .ok (after, answer)) :
    after.region.coordinator.clock.toNat +
        (Ledger.of actions answers).commits.countP Record.draws =
      session.region.coordinator.clock.toNat +
        ((Ledger.of actions answers).observe action answer).commits.countP Record.draws +
        [answer].countP Answer.isInvalidated := by
  have tracked := reached.tracked.2.1
  have next := Tally.toNat_succ reached.room
  have move := step_moves sized tracked.sound stepped
  have same := move
  cases move with
  | began begun =>
      rw [(Region.begin_eq begun).2.2.1]
      rfl
  | refused refused =>
      rw [(Region.begin_eq refused).2.2.1]
      rfl
  | unknown => cases action <;> rfl
  | @performed id operation transaction moved region result found effect =>
      rw [update, (effect.grows tracked.valid).2.2]
      cases result <;> rfl
  | @committed id transaction region result found settled =>
      cases result with
      | ok version =>
          rcases tracked.commit_version same with ⟨draft, known, draws⟩
          rw [Ledger.observe, Ledger.settle_eq known, List.countP_append, List.countP_singleton,
            List.countP_singleton, Record.draws]
          rcases draws with ⟨draws, taken, clock⟩ | ⟨draws, _, clock⟩
          · rw [clock, taken, next, if_pos draws]
            simp only [Answer.isInvalidated, Bool.false_eq_true, if_false]
            omega
          · rw [clock, if_neg (by rw [draws]; exact Bool.false_ne_true)]
            rfl
      | error failure =>
          have clock := reached.clock_of_failed found stepped
          rw [clock, List.countP_singleton]
          split
          next =>
            rw [next]
            exact Nat.add_right_comm _ _ _
          next => rfl
  | dropped asked found =>
      rw [Region.abandon_eq]
      rcases asked with rfl | rfl <;> rfl

/-- The clock counts the commits that took a version and those that failed their check. -/
theorem clock_counts (reached : Reached machine config actions answers session) :
    session.region.coordinator.clock.toNat =
      (committedOf actions answers).countP Record.draws +
        answers.countP Answer.isInvalidated := by
  rw [← reached.commits_eq]
  induction actions using List.reverseRecOn generalizing answers session with
  | nil =>
      rcases reached.nil with ⟨region, created, rfl, rfl⟩
      rcases Region.create_ok created with ⟨_, _, _, _, _, _, _, _, _, _, _, coordinator⟩
      rw [ofRegion, coordinator]
      rfl
  | append_singleton earlier action ih =>
      rcases reached.snoc with ⟨middle, before, answer, first, stepped, rfl⟩
      have known := ih first
      have advanced := first.clock_step (reached.sized action (by simp)) stepped
      rw [Ledger.of_snoc first.tracked.1, List.countP_append]
      omega

/-- No two transactions that begin have one number. -/
theorem begunIn_nodup (reached : Reached machine config actions answers session) :
    (begunIn actions answers).Nodup := by
  rw [begunIn_eq reached.tracked.1, List.Nodup, List.pairwise_filterMap]
  refine reached.begins_apart.imp ?_
  intro earlier later apart id first other second same
  rw [Answer.begun?_eq_some_iff] at first second
  exact apart id first (same ▸ second)

end Reached

/-- Every transaction of a session is counted once, by how it fares. -/
structure Counts (session : Session) (actions : List Action) (answers : List Answer) : Prop where
  /-- What began is open, or has committed, or has ended otherwise. -/
  shared : (begunIn actions answers).Perm
    (session.numbers ++ wonIn actions answers ++ lostIn actions answers)
  once : (begunIn actions answers).Nodup
  whole : session.region.metrics.tally.committed.toNat +
    session.region.metrics.tally.aborted.toNat + session.region.metrics.tally.active.toNat =
      (begunIn actions answers).length
  active : session.region.metrics.tally.active.toNat = session.transactions.length
  /-- Whatever can end is counted as active until then. -/
  positive : ∀ id transaction, session.find? id = some transaction →
    0 < session.region.metrics.tally.active.toNat
  committed : session.region.metrics.tally.committed.toNat = (committedOf actions answers).length
  aborted : session.region.metrics.tally.aborted.toNat = (lostIn actions answers).length
  clock : session.region.metrics.clock.toNat =
    (committedOf actions answers).countP Record.draws + answers.countP Answer.isInvalidated

/-- Every session that a history leads to counts its transactions. -/
theorem Reached.counts (reached : Reached machine config actions answers session) :
    session.Counts actions answers where
  shared := reached.tallied.shared
  once := reached.begunIn_nodup
  whole := reached.tallied.whole
  active := reached.tallied.active.trans (List.length_map _)
  positive _ _ found := reached.tallied.positive found
  committed := by
    rw [← List.length_map (·.id), ids_committedOf]
    exact reached.tallied.committed
  aborted := reached.tallied.aborted
  clock := reached.clock_counts

end Session

namespace World

/-- One step in a world, with its answer. -/
structure Event where
  /-- The session that the step is taken in. -/
  home : Nat
  action : Action
  answer : Answer

/-- What was done in one session of a world. -/
def actionsOf (home : Nat) (events : List Event) : List Action :=
  (events.filter (·.home == home)).map (·.action)

/-- What was answered in one session of a world. -/
def answersOf (home : Nat) (events : List Event) : List Answer :=
  (events.filter (·.home == home)).map (·.answer)

/-- Any steps, in any sessions and any order, that start with new regions lead to a world.  Each
step may find another machine. -/
inductive Reached (digest : Digest) : List Event → World → Prop
  | start {world : World}
      (fresh : ∀ session ∈ world, ∃ (machine : Machine digest) (config : RegionConfig)
        (region : Region), Region.create machine config = .ok (.ok region) ∧
          session = .ofRegion region) :
      Reached digest [] world
  | step {now : Machine digest} {events : List Event} {world after : World} {event : Event}
      (reached : Reached digest events world) (sized : event.action.Sized)
      (stepped : world.step now event.home event.action = .ok (after, event.answer)) :
      Reached digest (events ++ [event]) after

variable {digest : Digest} {machine now : Machine digest} {world after : World}
  {events : List Event} {home : Nat} {action : Action} {answer : Answer} {session : Session}

/-- A step in a session is a step of that session, and leaves all others alone. -/
theorem step_eq (stepped : world.step now home action = .ok (after, answer)) :
    (∀ other, other ≠ home → after[other]? = world[other]?) ∧
      ∀ session, after[home]? = some session → ∃ before, world[home]? = some before ∧
        before.step now action = .ok (session, answer) := by
  rw [step] at stepped
  split at stepped
  next absent =>
    cases stepped
    refine ⟨fun _ _ => rfl, fun session found => ?_⟩
    rw [absent] at found
    cases found
  next before present =>
    rw [bind_eq_ok] at stepped
    rcases stepped with ⟨⟨moved, reply⟩, taken, same⟩
    cases same
    refine ⟨fun other apart => Array.getElem?_setIfInBounds_ne (Ne.symm apart), ?_⟩
    intro session found
    rw [Array.getElem?_setIfInBounds_self_of_lt (Array.getElem?_eq_some_iff.mp present).1] at found
    cases found
    exact ⟨before, present, taken⟩

theorem actionsOf_snoc (home : Nat) (events : List Event) (event : Event) :
    actionsOf home (events ++ [event]) =
      if event.home = home then actionsOf home events ++ [event.action]
      else actionsOf home events := by
  by_cases here : event.home = home <;> simp [actionsOf, here]

theorem answersOf_snoc (home : Nat) (events : List Event) (event : Event) :
    answersOf home (events ++ [event]) =
      if event.home = home then answersOf home events ++ [event.answer]
      else answersOf home events := by
  by_cases here : event.home = home <;> simp [answersOf, here]

theorem length_actionsOf_le (home : Nat) (events : List Event) :
    (actionsOf home events).length ≤ events.length := by
  rw [actionsOf, List.length_map]
  exact List.length_filter_le _ _

/-- Each session of a world has a history of its own. -/
theorem Reached.history (reached : Reached digest events world)
    (short : events.length < 2 ^ 64 - 1) (found : world[home]? = some session) :
    ∃ (machine : Machine digest) (config : RegionConfig), Session.Reached machine config
      (actionsOf home events) (answersOf home events) session := by
  induction reached generalizing session with
  | start fresh =>
      rcases fresh session (Array.mem_of_getElem? found) with
        ⟨machine, config, region, created, rfl⟩
      exact ⟨machine, config, ⟨region, created, rfl⟩, short, by simp [actionsOf]⟩
  | @step now events world after event reached sized stepped ih =>
      rw [List.length_append, List.length_singleton] at short
      rcases step_eq stepped with ⟨elsewhere, taken⟩
      rw [actionsOf_snoc, answersOf_snoc]
      by_cases here : event.home = home
      · rw [if_pos here, if_pos here]
        subst here
        rcases taken session found with ⟨before, present, stepped⟩
        rcases ih (by omega) present with ⟨machine, config, history⟩
        have few := length_actionsOf_le event.home events
        exact ⟨_, config, history.extend_upTo sized (by omega) stepped⟩
      · rw [if_neg here, if_neg here]
        rw [elsewhere home (Ne.symm here)] at found
        exact ih (by omega) found

/-- To end a transaction on some region is a step of the session that it began in. -/
theorem finish_eq (machine : Machine digest) (world : World) (target home : Nat)
    (id : TransactionId) :
    world.finish machine target home id =
      (world.step machine home (if target = home then .commit id else .endElsewhere id)).map
        fun (after, answer) => (after, answer.isCommitted) := by
  rw [finish, step]
  cases world[home]? with
  | none => rfl
  | some session =>
      by_cases own : target = home
      · simp only [if_pos own]
        cases session.step machine (.commit id) with
        | error fault => rfl
        | ok stepped =>
            rcases stepped with ⟨after, answer⟩
            cases answer with
            | committed result => cases result <;> rfl
            | began | performed | ended | unknown => rfl
      · simp only [if_neg own, Session.step]
        cases session.find? id <;> rfl

/-- Every transaction is counted exactly once.  Whatever steps are taken in whatever sessions,
fewer than the clock has values, each region counts the transactions that began in it, by how
they fare.  To end a transaction on any region is a step of the session that it began in, and
no step touches another session. -/
theorem Reached.counted_once (reached : Reached digest events world)
    (short : events.length < 2 ^ 64 - 1) :
    (∀ home (session : Session), world[home]? = some session →
      session.Counts (actionsOf home events) (answersOf home events)) ∧
    (∀ (machine : Machine digest) target home id, world.finish machine target home id =
      (world.step machine home (if target = home then .commit id else .endElsewhere id)).map
        fun (after, answer) => (after, answer.isCommitted)) ∧
    ∀ (machine : Machine digest) home action after answer,
      world.step machine home action = .ok (after, answer) →
      ∀ other, other ≠ home → after[other]? = world[other]? := by
  refine ⟨?_, fun machine => finish_eq machine world, ?_⟩
  · intro home session found
    rcases reached.history short found with ⟨machine, config, history⟩
    exact history.counts
  · intro machine home action after answer stepped
    exact (step_eq stepped).1

/-- Take some steps one after another, each at a moment of its own. -/
def run (machine : Machine digest) (world : World) :
    List (Nat × Action) → Except Fault (World × List Event)
  | [] => .ok (world, [])
  | (home, action) :: rest => do
      let (world, answer) ← world.step (machine.during 0) home action
      let (world, events) ← run (machine.since 1) world rest
      return (world, ⟨home, action, answer⟩ :: events)

/-- Steps that are taken one after another lead on. -/
theorem Reached.run {steps : List (Nat × Action)} {more : List Event}
    (reached : Reached digest events world) (sized : ∀ step ∈ steps, step.2.Sized)
    (ran : world.run machine steps = .ok (after, more)) :
    Reached digest (events ++ more) after := by
  induction steps generalizing world events more machine with
  | nil =>
      cases ran
      rw [List.append_nil]
      exact reached
  | cons head rest ih =>
      rcases head with ⟨home, action⟩
      simp only [World.run, bind_eq_ok, pure_eq_ok, Prod.exists, Prod.mk.injEq] at ran
      rcases ran with ⟨middle, answer, stepped, final, later, ran, rfl, rfl⟩
      have next : Reached digest (events ++ [⟨home, action, answer⟩]) middle :=
        reached.step (sized _ List.mem_cons_self) stepped
      have rest := ih next (fun step member => sized step (List.mem_cons_of_mem _ member)) ran
      rwa [List.append_assoc] at rest

/-- In the first of two regions transaction 2 commits over what transaction 1 read, so that
its commit fails.  Transaction 3 is doomed, 4 is given up, 5 is ended on the second region
and 6 stays open. -/
def everyWay : List Event :=
  [⟨0, .begin .readWrite, .began (.ok ⟨1⟩)⟩,
    ⟨0, .begin .readWrite, .began (.ok ⟨2⟩)⟩,
    ⟨0, .perform ⟨1⟩ (.read ⟨.first, 0⟩ 8), .performed (.ok (.bytes (List.replicate 8 0)))⟩,
    ⟨0, .perform ⟨1⟩ (.write (List.replicate 8 1) ⟨.first, 8⟩), .performed (.ok .done)⟩,
    ⟨0, .perform ⟨2⟩ (.write (List.replicate 8 2) ⟨.first, 0⟩), .performed (.ok .done)⟩,
    ⟨0, .commit ⟨2⟩, .committed (.ok 1)⟩,
    ⟨0, .commit ⟨1⟩, .committed (.error (.aborted (.validationFailed ⟨.first, 0⟩)))⟩,
    ⟨0, .begin .readWrite, .began (.ok ⟨3⟩)⟩,
    ⟨0, .perform ⟨3⟩ (.free ⟨.first, 0⟩), .performed (.error (.usage .initialSegment))⟩,
    ⟨0, .commit ⟨3⟩, .committed (.error (.usage .initialSegment))⟩,
    ⟨0, .begin .readOnly, .began (.ok ⟨4⟩)⟩, ⟨0, .rollback ⟨4⟩, .ended⟩,
    ⟨1, .begin .readWrite, .began (.ok ⟨1⟩)⟩,
    ⟨0, .begin .readWrite, .began (.ok ⟨5⟩)⟩, ⟨0, .endElsewhere ⟨5⟩, .ended⟩,
    ⟨0, .begin .readWrite, .began (.ok ⟨6⟩)⟩]

/-- Two sessions on regions of one configuration, after some steps. -/
def twoAfter (machine : Machine digest) (config : RegionConfig) (steps : List (Nat × Action)) :
    Option (World × List Event) :=
  match Region.create machine config with
  | .ok (.ok region) =>
      match World.run machine #[.ofRegion region, .ofRegion region] steps with
      | .ok seen => some seen
      | .error _ => none
  | _ => none

theorem counted_once_everyWay : ∃ world, Reached .ofAddress everyWay world ∧
    ∃ session other, world[0]? = some session ∧ world[1]? = some other ∧
      session.region.metrics.tally.committed.toNat = 1 ∧
      session.region.metrics.tally.aborted.toNat = 4 ∧
      session.region.metrics.tally.active.toNat = 1 ∧ session.region.metrics.clock.toNat = 2 ∧
      other.region.metrics.tally.aborted.toNat = 0 := by
  have computed : (twoAfter (.limited 1000) Session.threeWords
      (everyWay.map fun event => (event.home, event.action))).map (fun seen =>
        (seen.2, seen.1.size)) = some (everyWay, 2) := by cbv
  have sized : ∀ step ∈ everyWay.map (fun event => (event.home, event.action)), step.2.Sized := by
    simp [everyWay, Action.Sized, Operation.Sized]
  rcases Option.map_eq_some_iff.mp computed with ⟨⟨world, events⟩, after, seen⟩
  simp only [Prod.mk.injEq] at seen
  rcases seen with ⟨rfl, size⟩
  rw [twoAfter] at after
  split at after
  next region created =>
    split at after
    next ran =>
      cases after
      have fresh : Reached .ofAddress [] #[.ofRegion region, .ofRegion region] := by
        apply Reached.start
        intro session member
        refine ⟨.limited 1000, Session.threeWords, region, created, ?_⟩
        simpa using member
      have reached := fresh.run sized ran
      have zero : 0 < world.size := by omega
      have one : 1 < world.size := by omega
      rcases reached.counted_once (by decide) with ⟨counts, _⟩
      have own := counts 0 _ (Array.getElem?_eq_getElem zero)
      have others := counts 1 _ (Array.getElem?_eq_getElem one)
      have whole := own.whole
      have committed : _ = 1 := own.committed
      have aborted : _ = 4 := own.aborted
      have begun : (begunIn (actionsOf 0 everyWay) (answersOf 0 everyWay)).length = 6 := by decide
      refine ⟨world, reached, world[0], world[1], Array.getElem?_eq_getElem zero,
        Array.getElem?_eq_getElem one, committed, aborted, ?_, own.clock, others.aborted⟩
      rw [List.nil_append, begun] at whole
      omega
    next => cases after
  next => cases after

end World

end WordStm
