import WordStm.Proofs.Words

/-!
# Versions and the clock

Between two steps no word is locked, and the clock is ahead of everything: of the
versions of words, of those at which segments were retired, and of the snapshots
of open transactions.  Neither the clock nor the version of a word goes back.  A
commit that publishes or frees takes a version that the clock never had before,
and gives it to each word that its transaction wrote.  So the version of a word
tells which transaction wrote it last.
-/

namespace WordStm

namespace Region

/-- No word is locked, and no version is ahead of the clock. -/
structure UnlockedDated (region : Region) : Prop where
  unlocked : ∀ place cell, region.memory.cell? place = some cell → cell.locked = false
  dated : ∀ place cell, region.memory.cell? place = some cell →
    cell.version ≤ region.coordinator.clock
  retired : ∀ id segment version, region.table.slot? id = some (.retired segment version) →
    version ≤ region.coordinator.clock

/-- Neither the clock nor the version of a word went back. -/
structure Advances (after before : Region) : Prop where
  clock : before.coordinator.clock ≤ after.coordinator.clock
  versions : ∀ place old, before.memory.cell? place = some old →
    ∃ new, after.memory.cell? place = some new ∧ old.version ≤ new.version

theorem Advances.refl (region : Region) : region.Advances region :=
  ⟨UInt64.le_refl _, fun _ old found => ⟨old, found, UInt64.le_refl _⟩⟩

theorem Advances.trans {first second third : Region} (left : first.Advances second)
    (right : second.Advances third) : first.Advances third where
  clock := UInt64.le_trans right.clock left.clock
  versions := by
    intro place old found
    rcases right.versions place old found with ⟨middle, between, older⟩
    rcases left.versions place middle between with ⟨new, now, newer⟩
    exact ⟨new, now, UInt64.le_trans older newer⟩

/-- The version of a word tells the transaction that wrote it last. -/
structure Stamped (region : Region) (records : List Record) : Prop where
  known : ∀ record ∈ records, ∀ address, region.config.align.toNat ∣ address.offset.toNat →
    record.writesTo region.config.align.toNat address = true →
      ∃ place, region.Names address place
  newest : ∀ address place cell, region.Names address place →
    region.memory.cell? place = some cell → ∀ record ∈ records,
      record.writesTo region.config.align.toNat address = true → record.version ≤ cell.version
  source : ∀ address place cell, region.Names address place →
    region.memory.cell? place = some cell → cell.version = 0 ∨ ∃ record ∈ records,
      record.writesTo region.config.align.toNat address = true ∧ record.version = cell.version

variable {digest : Digest} {machine now : Machine digest} {region before after : Region}
  {version : Version}

/-- What was named before has the address it had. -/
theorem Names.back {address : Address} {place : Place} {segment : Handle}
    (names : after.Names address place) (extended : after.Extends before) (valid : before.Valid)
    (known : before.table.registered? address.segment = some segment) :
    before.Names address place := by
  have same := extended.registered _ _ known
  rw [names.registered, Option.some.injEq] at same
  rw [← same] at known
  refine ⟨known, by rw [names.offset, extended.config], ?_⟩
  rcases names.inside with ⟨size, laidOut, fits⟩
  have inside := ((valid.registered _ _).mp known).2
  cases old : before.memory.layout place.segment with
  | none => exact absurd (Memory.layout_eq_none_iff.mp old) (Nat.not_le_of_lt inside)
  | some layout =>
      have kept := extended.layout _ _ old
      rw [laidOut, Option.some.injEq] at kept
      rw [extended.config] at kept fits
      exact ⟨size, congrArg some kept.symm, fits⟩

/-- In a new region no segment is retired. -/
theorem create_unretired {config : RegionConfig} {id : SegmentId} {segment : Handle}
    (created : create machine config = .ok (.ok region))
    (gone : region.table.slot? id = some (.retired segment version)) : False := by
  rcases create_ok created with ⟨_, _, _, _, table, _, _, slots, registered, _⟩
  rw [SegmentTable.slot?_register registered, SegmentTable.slot?, slots] at gone
  split at gone
  next => cases gone
  next =>
    rcases Array.getElem?_eq_some_iff.mp gone with ⟨_, impossible⟩
    simp at impossible

/-- A new region rests. -/
theorem create_rested {config : RegionConfig} (created : create machine config = .ok (.ok region)) :
    region.UnlockedDated where
  unlocked := fun _ _ found => (create_cells created found).2.2
  dated := (create_valid created).dated
  retired := fun _ _ _ gone => (create_unretired created gone).elim

/-- Before the first commit every word has version 0. -/
theorem create_stamped {config : RegionConfig}
    (created : create machine config = .ok (.ok region)) : region.Stamped [] where
  known := fun _ impossible => by cases impossible
  newest := fun _ _ _ _ _ _ impossible => by cases impossible
  source := fun _ _ _ _ found => .inl (create_cells created found).2.1

theorem UnlockedDated.steady (rested : before.UnlockedDated) (steady : after.Steady before)
    (table : after.table = before.table) : after.UnlockedDated where
  unlocked := by
    rw [steady.memory]
    exact rested.unlocked
  dated := by
    rw [steady.memory]
    intro place cell found
    exact UInt64.le_trans (rested.dated place cell found) steady.clock
  retired := by
    rw [table]
    intro id segment version gone
    exact UInt64.le_trans (rested.retired id segment version gone) steady.clock

/-- Retiring segments at a version that the clock has reached keeps a region at rest. -/
theorem UnlockedDated.retire (rested : region.UnlockedDated) {memory : Memory}
    {coordinator : Coordinator} (ids : List SegmentId) (tally : Tally)
    (clock : region.coordinator.clock ≤ coordinator.clock) (past : version ≤ coordinator.clock)
    (unlocked : ∀ place cell, memory.cell? place = some cell → cell.locked = false)
    (dated : ∀ place cell, memory.cell? place = some cell → cell.version ≤ coordinator.clock) :
    ({ region with coordinator, memory, table := region.table.retireAll ids version, tally } :
      Region).UnlockedDated where
  unlocked := unlocked
  dated := dated
  retired := by
    intro id segment stamp gone
    simp only [SegmentTable.slot?_retireAll] at gone
    have old : ∀ slot, region.table.slot? id = some slot → slot.retire version =
        .retired segment stamp → stamp ≤ coordinator.clock := by
      intro slot known retired
      cases slot with
      | vacant => cases retired
      | live handle =>
          cases retired
          exact past
      | retired handle first =>
          cases retired
          exact UInt64.le_trans (rested.retired _ _ _ known) clock
    split at gone
    next =>
      rcases Option.map_eq_some_iff.mp gone with ⟨slot, known, retired⟩
      exact old slot known retired
    next => exact old _ gone rfl

/-- A segment that is added keeps a region at rest. -/
theorem UnlockedDated.add (rested : before.UnlockedDated) (valid : before.Valid) {size : UInt64}
    {segment : Segment} {id : SegmentId} {table : SegmentTable}
    (checked : Layout.checkSize size before.config.align = .ok (.ok ()))
    (created : Segment.create machine size before.config.align = .ok (.ok segment))
    (registered : before.table.register machine before.memory.segments.size size =
      .ok (id, table)) :
    ({ before with memory := (before.memory.add segment).2, table } : Region).UnlockedDated where
  unlocked := by
    intro place cell found
    simp only [Memory.cell?_add] at found
    split at found
    next => exact ((Segment.create_ok created).2.2 _ cell found).2.2
    next => exact rested.unlocked place cell found
  dated := (valid.add checked created registered).dated
  retired := by
    intro id segment version gone
    rw [SegmentTable.slot?_register registered] at gone
    split at gone
    next => cases gone
    next => exact rested.retired id segment version gone

/-- An operation keeps a region at rest. -/
theorem Effect.rested {transaction moved : Transaction} {operation : Operation}
    {result : Except Failure Reply}
    (effect : before.Effect machine transaction operation after moved result)
    (valid : before.Valid) (rested : before.UnlockedDated) : after.UnlockedDated := by
  cases effect with
  | alloc active writable checked created registered =>
      exact rested.add valid checked created registered
  | @unlogged _ _ id _ _ _ _ checked created registered =>
      have added := rested.add valid checked created registered
      exact added.retire [id] _ (UInt64.le_refl _) (UInt64.le_refl _) added.unlocked added.dated
  | failed | read | write | free => exact rested

/-- A transaction keeps its snapshot. -/
theorem Effect.snapshot_eq {transaction moved : Transaction} {operation : Operation}
    {result : Except Failure Reply}
    (effect : before.Effect machine transaction operation after moved result) :
    moved.snapshot = transaction.snapshot := by
  cases effect with
  | failed id allocated freed writes status refusal doomed snapshot => exact snapshot
  | read active located words => exact (readWords_alike words).snapshot
  | write | alloc | unlogged | free => rfl

/-- An operation leaves every word that was there as it was. -/
theorem Effect.cell?_eq {transaction moved : Transaction} {operation : Operation}
    {result : Except Failure Reply} {place : Place} {cell : Cell}
    (effect : before.Effect machine transaction operation after moved result)
    (found : before.memory.cell? place = some cell) : after.memory.cell? place = some cell := by
  cases effect with
  | alloc | unlogged =>
      rw [Memory.cell?_add, if_neg]
      · exact found
      · intro behind
        have inside := Memory.isSome_cell?_iff.mp (Option.isSome_of_eq_some found)
        rcases inside with ⟨align, size, laidOut, _⟩
        rw [Memory.layout_eq_none_iff.mpr (Nat.le_of_eq behind.symm)] at laidOut
        cases laidOut
  | failed | read | write | free => exact found

section Publishing

variable {transaction : Transaction} {outcome : Coordinator.Outcome}
  (publishes : Coordinator.Publishes region.coordinator region.memory transaction outcome)

include publishes

/-- Nothing is left locked by a commit. -/
theorem UnlockedDated.published (rested : region.UnlockedDated) {place : Place} {cell : Cell}
    (found : outcome.memory.cell? place = some cell) : cell.locked = false := by
  rw [publishes.cells] at found
  split at found
  next =>
    rcases Option.map_eq_some_iff.mp found with ⟨_, _, rfl⟩
    rfl
  next => exact rested.unlocked place cell found

/-- No word is published at a version that is older than its own. -/
theorem UnlockedDated.advances_published (rested : region.UnlockedDated)
    (room : region.coordinator.clock.toNat + 1 < 2 ^ 64) {place : Place} {old : Cell}
    (found : region.memory.cell? place = some old) :
    ∃ new, outcome.memory.cell? place = some new ∧ old.version ≤ new.version := by
  rw [publishes.cells, found]
  split
  next =>
    refine ⟨_, rfl, ?_⟩
    exact UInt64.le_trans (rested.dated place old found) (UInt64.le_of_lt (clock_lt_succ room))
  next => exact ⟨old, rfl, UInt64.le_refl _⟩

end Publishing

/-- A commit keeps a region at rest if the clock does not come round. -/
theorem Settlement.rested {transaction : Transaction} {answer : Except Failure Version}
    (settled : before.Settlement transaction after answer) (rested : before.UnlockedDated)
    (past : transaction.status = .active → transaction.snapshot ≤ before.coordinator.clock)
    (forward : before.coordinator.clock ≤ after.coordinator.clock) : after.UnlockedDated := by
  cases settled with
  | quiet active idle =>
      exact rested.retire _ _ (UInt64.le_refl _) (past active) rested.unlocked rested.dated
  | published publishes =>
      have clock := congrArg Coordinator.clock publishes.clock
      refine rested.retire _ _ forward (UInt64.le_of_eq clock.symm)
        (fun _ _ found => rested.published publishes found) ?_
      intro place cell found
      rcases cell?_published publishes found with old | new
      · exact UInt64.le_trans (rested.dated place cell old) forward
      · rw [new, clock]
        exact UInt64.le_refl _
  | failed =>
      exact rested.retire _ _ forward (UInt64.le_refl _) rested.unlocked
        fun place cell found => UInt64.le_trans (rested.dated place cell found) forward

end Region

/-- The version that a step after a history gives to a word. -/
def stamp? (align : Nat) (actions : List Action) (answers : List Answer) (action : Action)
    (answer : Answer) (address : Address) : Option Version :=
  (commitOf action answer).bind fun commit =>
    if (deedsOf commit.1 actions answers).any (·.writesTo align address) then some commit.2
    else none

theorem stamp?_eq_some {align : Nat} {actions : List Action} {answers : List Answer}
    {action : Action} {answer : Answer} {address : Address} {version : Version} :
    stamp? align actions answers action answer address = some version ↔
      ∃ id, action = .commit id ∧ answer = .committed (.ok version) ∧
        (deedsOf id actions answers).any (·.writesTo align address) = true := by
  constructor
  · intro stamped
    rcases Option.bind_eq_some_iff.mp stamped with ⟨⟨id, told⟩, committed, written⟩
    rcases commitOf_eq_some.mp committed with ⟨rfl, rfl⟩
    split at written
    next writes =>
      cases written
      exact ⟨id, rfl, rfl, writes⟩
    next => cases written
  · rintro ⟨id, rfl, rfl, writes⟩
    simp only [stamp?, commitOf, Option.bind_some, writes, if_true]

namespace Session

variable {digest : Digest} {machine now : Machine digest} {session after : Session}
  {ledger : Ledger} {action : Action} {answer : Answer}

/-- A step keeps a region at rest. -/
theorem Tracked.rested (tracked : Tracked digest session ledger)
    (room : session.region.coordinator.clock.toNat + 1 < 2 ^ 64)
    (move : session.Move now action after answer) (rested : session.region.UnlockedDated) :
    after.region.UnlockedDated := by
  have forward := move.clock_mono tracked.valid room
  cases move with
  | began begun => exact rested.steady (Region.begin_eq begun).1 (Region.begin_eq begun).2.1
  | refused refused => exact rested.steady (Region.begin_eq refused).1 (Region.begin_eq refused).2.1
  | unknown => exact rested
  | performed found effect => exact effect.rested tracked.valid rested
  | committed found settled =>
      rcases tracked.drafts _ _ found with ⟨draft, _, drafted⟩
      exact settled.rested rested (fun active => (drafted.current active).snapshot) forward
  | dropped asked found =>
      rw [Region.abandon_eq]
      have still := UInt64.le_refl session.region.coordinator.clock
      exact rested.retire _ _ still still rested.unlocked rested.dated

/-- A step takes nothing back. -/
theorem Move.advances (move : session.Move now action after answer)
    (valid : session.region.Valid) (rested : session.region.UnlockedDated)
    (room : session.region.coordinator.clock.toNat + 1 < 2 ^ 64) :
    after.region.Advances session.region where
  clock := move.clock_mono valid room
  versions := by
    have same : ∀ region : Region, region.memory = session.region.memory →
        ∀ place old, session.region.memory.cell? place = some old →
          ∃ new, region.memory.cell? place = some new ∧ old.version ≤ new.version := by
      intro region memory place old found
      rw [memory]
      exact ⟨old, found, UInt64.le_refl _⟩
    cases move with
    | began begun => exact same _ (Region.begin_eq begun).1.memory
    | refused refused => exact same _ (Region.begin_eq refused).1.memory
    | unknown => exact same _ rfl
    | performed found effect =>
        exact fun place old here => ⟨old, effect.cell?_eq here, UInt64.le_refl _⟩
    | committed found settled =>
        cases settled with
        | quiet | failed => exact same _ rfl
        | published publishes =>
            exact fun place old here => rested.advances_published publishes room here
    | dropped asked found =>
        rw [Region.abandon_eq]
        exact same _ rfl

/-- Only an active transaction commits. -/
theorem Move.active_of_committed {id : TransactionId} {version : Version}
    (move : session.Move now (.commit id) after (.committed (.ok version))) :
    ∃ transaction, session.find? id = some transaction ∧ transaction.status = .active := by
  cases move with
  | committed found settled =>
      cases settled with
      | quiet active => exact ⟨_, found, active⟩
      | published publishes => exact ⟨_, found, publishes.active⟩

namespace Reached

variable {config : RegionConfig} {actions : List Action} {answers : List Answer}

theorem rested (reached : Reached machine config actions answers session) :
    session.region.UnlockedDated := by
  apply reached.induction (motive := fun _ _ session => session.region.UnlockedDated)
  · intro region created
    exact Region.create_rested created
  · intro actions answers session action answer after first short move rested
    exact first.tracked.2.1.rested first.room move rested

/-- The snapshot of every open transaction, active or not, is in the past. -/
theorem snapshots (reached : Reached machine config actions answers session) :
    ∀ id transaction, session.find? id = some transaction →
      transaction.snapshot ≤ session.region.coordinator.clock := by
  apply reached.transactions
    (motive := fun region _ transaction => transaction.snapshot ≤ region.coordinator.clock)
  · intro actions answers session now mode region transaction _ begun
    rcases Region.begin_eq begun with ⟨_, _, coordinator, start⟩
    rcases start transaction rfl with ⟨filter, rfl⟩
    rw [coordinator]
    exact UInt64.le_refl _
  · intro now before after records draft transaction moved operation reply valid drafted effect past
    rw [effect.snapshot_eq, (effect.grows valid).2.2]
    exact past
  · intro actions answers session now after deeds transaction moved operation failure first effect
      past
    rw [effect.snapshot_eq, (effect.grows first.tracked.2.1.valid).2.2]
    exact past
  · intro before after deeds transaction valid extended past
    exact UInt64.le_trans past extended.clock

/-- A commit gives its version to the words that its transaction wrote, and to no other. -/
theorem word_published {id : TransactionId} {transaction : Transaction} {address : Address}
    {place : Place} {cell : Cell} {outcome : Coordinator.Outcome}
    (reached : Reached machine config actions answers session)
    (opened : session.find? id = some transaction)
    (publishes : Coordinator.Publishes session.region.coordinator session.region.memory transaction
      outcome)
    (named : session.region.Names address place) (found : outcome.memory.cell? place = some cell) :
    if (deedsOf id actions answers).any
        (·.writesTo session.region.config.align.toNat address) = true
    then cell.version = session.region.coordinator.clock + 1
    else session.region.memory.cell? place = some cell := by
  rcases reached.tracked with ⟨_, tracked, _⟩
  rcases tracked.drafts id transaction opened with ⟨draft, _, drafted⟩
  have current := drafted.current publishes.active
  have logged := reached.logged id transaction opened publishes.active
  rw [← logged.written address named.aligned]
  rw [publishes.cells, named.find?_place tracked.valid current.placed] at found
  cases written : WriteEntry.lookup transaction.log.writes.entries.toList address with
  | none =>
      rw [written] at found
      exact found
  | some entry =>
      rw [written] at found
      rcases Option.map_eq_some_iff.mp found with ⟨_, _, rfl⟩
      rfl

/-- A step makes a word, gives it the version of a commit, or leaves it as it was. -/
theorem word_step {address : Address} {place : Place} {cell : Cell}
    (reached : Reached machine config actions answers session)
    (move : session.Move now action after answer)
    (names : after.region.Names address place)
    (found : after.region.memory.cell? place = some cell) :
    (session.region.table.registered? address.segment = none ∧ cell.version = 0) ∨
    (session.region.Names address place ∧
      match stamp? session.region.config.align.toNat actions answers action answer address with
      | some version => version = session.region.coordinator.clock + 1 ∧ cell.version = version
      | none => session.region.memory.cell? place = some cell) := by
  have tracked := reached.tracked.2.1
  have extended := move.extends_region tracked.valid reached.room
  cases known : session.region.table.registered? address.segment with
  | none => exact .inl ⟨rfl, (extended.fresh _ _ _ _ known names.registered found).2⟩
  | some segment =>
      have named := names.back extended tracked.valid known
      refine .inr ⟨named, ?_⟩
      cases move with
      | began begun => exact (Region.begin_eq begun).1.memory ▸ found
      | refused refused => exact (Region.begin_eq refused).1.memory ▸ found
      | @unknown action => cases action <;> exact found
      | performed opened effect =>
          rcases named.cell tracked.valid with ⟨old, here⟩
          have kept := effect.cell?_eq here
          rw [← kept.symm.trans found]
          exact here
      | @committed id transaction region result opened settled =>
          cases settled with
          | failed => exact found
          | quiet active idle =>
              have quiet : (deedsOf id actions answers).any
                  (·.writesTo session.region.config.align.toNat address) = false := by
                rcases tracked.drafts id transaction opened with ⟨draft, present, drafted⟩
                have idles := (drafted.current active).not_draws idle
                rw [reached.draft_deeds id draft present] at idles
                rw [Bool.eq_false_iff] at idles ⊢
                exact fun writes => idles (Deed.any_draws_of_writesTo writes)
              simp only [stamp?, commitOf, Option.bind_some, quiet]
              exact found
          | published publishes =>
              have word := reached.word_published opened publishes named found
              simp only [stamp?, commitOf, Option.bind_some]
              split at word
              next wrote =>
                rw [if_pos wrote]
                exact ⟨rfl, word⟩
              next kept =>
                rw [if_neg kept]
                exact word
      | dropped asked opened =>
          rw [Region.abandon_eq] at found
          rcases asked with rfl | rfl <;> exact found

/-- What a transaction that was open wrote are words that exist. -/
theorem names_of_writesTo {id : TransactionId} {transaction : Transaction} {address : Address}
    (reached : Reached machine config actions answers session)
    (found : session.find? id = some transaction) (active : transaction.status = .active)
    (aligned : session.region.config.align.toNat ∣ address.offset.toNat)
    (writes : (deedsOf id actions answers).any
      (·.writesTo session.region.config.align.toNat address) = true) :
    ∃ place, session.region.Names address place := by
  rcases reached.tracked with ⟨_, tracked, _⟩
  rcases tracked.drafts id transaction found with ⟨draft, _, drafted⟩
  rw [← (reached.logged id transaction found active).written address aligned] at writes
  rcases Option.isSome_iff_exists.mp writes with ⟨entry, looked⟩
  rcases WriteEntry.of_lookup looked with ⟨member, rfl⟩
  exact ⟨entry.place, .of_placed ((drafted.current active).placed entry member) tracked.valid⟩

/-- The records after a step are those before it, and that of the transaction that it
commits. -/
theorem mem_commits_step {record : Record}
    (reached : Reached machine config actions answers session)
    (move : session.Move now action after answer) :
    record ∈ ((Ledger.of actions answers).observe action answer).commits ↔
      record ∈ (Ledger.of actions answers).commits ∨
      (action = .commit record.id ∧ answer = .committed (.ok record.version) ∧
        record.deeds = deedsOf record.id actions answers) := by
  constructor
  · intro member
    rcases Ledger.commits_observe (Ledger.of actions answers) action answer with
      same | ⟨id, version, draft, rfl, rfl, known, added⟩
    · exact .inl (same ▸ member)
    · rcases List.mem_append.mp (added ▸ member) with old | new
      · exact .inl old
      · rw [List.mem_singleton.mp new]
        exact .inr ⟨rfl, rfl, reached.draft_deeds id draft known⟩
  · rintro (old | ⟨rfl, rfl, deeds⟩)
    · exact Ledger.mem_commits_observe old _ _
    · rcases reached.tracked.2.1.commit_version move with ⟨draft, known, _⟩
      rw [← reached.draft_deeds _ draft known] at deeds
      rw [Ledger.observe, Ledger.settle_eq known, ← deeds]
      exact List.mem_append_right _ List.mem_cons_self

/-- The version of a word goes on telling who wrote it last. -/
theorem stamped_step (reached : Reached machine config actions answers session)
    (move : session.Move now action after answer)
    (stamped : session.region.Stamped (Ledger.of actions answers).commits) :
    after.region.Stamped ((Ledger.of actions answers).observe action answer).commits := by
  rcases reached.tracked with ⟨_, tracked, _⟩
  have extended := move.extends_region tracked.valid reached.room
  have known : ∀ record ∈ ((Ledger.of actions answers).observe action answer).commits,
      ∀ address, session.region.config.align.toNat ∣ address.offset.toNat →
        record.writesTo session.region.config.align.toNat address = true →
          ∃ place, session.region.Names address place := by
    intro record member address aligned writes
    rcases (reached.mem_commits_step move).mp member with old | ⟨rfl, rfl, deeds⟩
    · exact stamped.known record old address aligned writes
    · rcases move.active_of_committed with ⟨transaction, found, active⟩
      rw [Record.writesTo, deeds] at writes
      exact reached.names_of_writesTo found active aligned writes
  constructor
  · rw [extended.config]
    intro record member address aligned writes
    rcases known record member address aligned writes with ⟨place, named⟩
    exact ⟨place, named.mono extended⟩
  · intro address place cell names found record member writes
    have aligned := names.aligned
    rw [extended.config] at writes aligned
    rcases known record member address aligned writes with ⟨_, there⟩
    rcases reached.word_step move names found with ⟨absent, _⟩ | ⟨named, word⟩
    · have registered := there.registered
      rw [absent] at registered
      cases registered
    · rcases (reached.mem_commits_step move).mp member with old | ⟨rfl, rfl, deeds⟩
      · split at word
        next version _ =>
          rw [word.2, word.1]
          exact UInt64.le_trans (tracked.serial.bounded record old)
            (UInt64.le_of_lt (Region.clock_lt_succ reached.room))
        next => exact stamped.newest address place cell named word record old writes
      · rw [Record.writesTo, deeds] at writes
        rw [stamp?_eq_some.mpr ⟨record.id, rfl, rfl, writes⟩] at word
        rw [word.2]
        exact UInt64.le_refl _
  · intro address place cell names found
    rcases reached.word_step move names found with ⟨_, oldest⟩ | ⟨named, word⟩
    · exact .inl oldest
    · rw [extended.config]
      split at word
      next version stamp =>
        rcases stamp?_eq_some.mp stamp with ⟨id, rfl, rfl, writes⟩
        right
        refine ⟨⟨id, version, deedsOf id actions answers⟩, ?_, writes, word.2.symm⟩
        exact (reached.mem_commits_step move).mpr (.inr ⟨rfl, rfl, rfl⟩)
      next =>
        rcases stamped.source address place cell named word with oldest |
          ⟨record, old, writes, same⟩
        · exact .inl oldest
        · exact .inr ⟨record, Ledger.mem_commits_observe old _ _, writes, same⟩

/-- The version of a word tells which of the transactions that committed wrote it last. -/
theorem stamped (reached : Reached machine config actions answers session) :
    session.region.Stamped (Ledger.of actions answers).commits := by
  apply reached.induction (motive := fun actions answers session =>
    session.region.Stamped (Ledger.of actions answers).commits)
  · intro region created
    exact Region.create_stamped created
  · intro actions answers session action answer after first short move stamped
    rw [Ledger.of_snoc first.tracked.1]
    exact first.stamped_step move stamped

/-- Nothing is taken back in a history. -/
theorem advances {earlier later : List Action} {before : List Answer} {past : Session}
    (start : Reached machine config earlier before past)
    (reached : Reached machine config (earlier ++ later) answers session) :
    session.region.Advances past.region := by
  induction later using List.reverseRecOn generalizing answers session with
  | nil =>
      rw [List.append_nil] at reached
      rw [reached.unique start]
      exact .refl _
  | append_singleton later action ih =>
      rw [← List.append_assoc] at reached
      rcases reached.snoc with ⟨_, told, answer, _, _, rfl⟩
      rcases reached.snoc_move with ⟨middle, first, move⟩
      exact (move.advances first.tracked.2.1.valid first.rested first.room).trans (ih first)

/-- The configuration does not change. -/
theorem config_eq (reached : Reached machine config actions answers session) :
    session.region.config = config := by
  apply reached.induction (motive := fun _ _ session => session.region.config = config)
  · intro region created
    rcases Region.create_ok created with ⟨_, _, _, _, _, _, _, _, _, same, _⟩
    exact same
  · intro actions answers session action answer after first short move same
    exact (move.extends_region first.tracked.2.1.valid first.room).config.trans same

/-- A commit that takes a version takes the next value of the clock, and gives it to every
word that its transaction wrote. -/
theorem drawn {id : TransactionId} {version : Version}
    (reached : Reached machine config actions answers session)
    (move : session.Move now (.commit id) after (.committed (.ok version)))
    (draws : (deedsOf id actions answers).any Deed.draws = true) :
    version = session.region.coordinator.clock + 1 ∧
      ∀ address, config.align.toNat ∣ address.offset.toNat →
        (deedsOf id actions answers).any (·.writesTo config.align.toNat address) = true →
          ∃ place cell, after.region.Names address place ∧
            after.region.memory.cell? place = some cell ∧ cell.version = version := by
  have tracked := reached.tracked.2.1
  have extended := move.extends_region tracked.valid reached.room
  constructor
  · rcases tracked.commit_version move with ⟨draft, known, ⟨_, next, _⟩ | ⟨quiet, _⟩⟩
    · exact next
    · rw [reached.draft_deeds id draft known, draws] at quiet
      cases quiet
  · rw [← reached.config_eq]
    intro address aligned writes
    rcases move.active_of_committed with ⟨transaction, found, active⟩
    rcases reached.names_of_writesTo found active aligned writes with ⟨place, named⟩
    have names := named.mono extended
    rcases names.cell (tracked.step reached.room move).valid with ⟨cell, here⟩
    refine ⟨place, cell, names, here, ?_⟩
    rcases reached.word_step move names here with ⟨absent, _⟩ | ⟨_, word⟩
    · have registered := named.registered
      rw [absent] at registered
      cases registered
    · rw [stamp?_eq_some.mpr ⟨id, rfl, rfl, writes⟩] at word
      exact word.2

/-- Between two steps no word is locked, and no word, retired segment or open transaction
is ahead of the clock.  Neither the clock nor the version of a word went back since any
moment before.  A transaction that wrote or freed and now commits gets a version that is
greater than all that the clock showed before and than all that others got, and leaves it
on each word that it wrote. -/
theorem clock_governs (reached : Reached machine config actions answers session) :
    session.region.UnlockedDated ∧
    (∀ id transaction, session.find? id = some transaction →
      transaction.snapshot ≤ session.region.coordinator.clock) ∧
    (∀ earlier later before past, actions = earlier ++ later →
      Reached machine config earlier before past → session.region.Advances past.region) ∧
    ∀ id version after,
      Reached machine config (actions ++ [.commit id]) (answers ++ [.committed (.ok version)])
        after →
      (deedsOf id actions answers).any Deed.draws = true →
        (∀ earlier later before past, actions = earlier ++ later →
          Reached machine config earlier before past →
            past.region.coordinator.clock < version) ∧
        (∀ record ∈ committedOf actions answers, record.draws = true →
          record.version < version) ∧
        ∀ address, config.align.toNat ∣ address.offset.toNat →
          (deedsOf id actions answers).any (·.writesTo config.align.toNat address) = true →
            ∃ place cell, after.region.Names address place ∧
              after.region.memory.cell? place = some cell ∧ cell.version = version := by
  refine ⟨reached.rested, reached.snapshots, ?_, ?_⟩
  · rintro earlier later before past rfl start
    exact start.advances reached
  · intro id version after committed draws
    rcases committed.snoc_move with ⟨same, first, move⟩
    cases first.unique reached
    rcases first.drawn move draws with ⟨rfl, stamps⟩
    have next := Region.clock_lt_succ first.room
    refine ⟨?_, ?_, stamps⟩
    · rintro earlier later before past rfl start
      exact UInt64.lt_of_le_of_lt (start.advances first).clock next
    · intro record member _
      rw [← first.commits_eq] at member
      exact UInt64.lt_of_le_of_lt (first.tracked.2.1.serial.bounded record member) next

end Reached

/-- Transaction 1 publishes word 0, so that transaction 2, which read it before, fails to
commit.  Transaction 3 overwrites the word and frees the segment of transaction 1. -/
def overwriting : List Action :=
  [.begin .readWrite, .perform ⟨1⟩ (.alloc 8),
    .perform ⟨1⟩ (.write (List.replicate 8 1) ⟨.first, 0⟩), .begin .readWrite,
    .perform ⟨2⟩ (.read ⟨.first, 0⟩ 8), .perform ⟨2⟩ (.write (List.replicate 8 2) ⟨.first, 8⟩),
    .commit ⟨1⟩, .begin .readWrite, .perform ⟨3⟩ (.write (List.replicate 8 3) ⟨.first, 0⟩),
    .perform ⟨3⟩ (.free ⟨⟨2⟩, 0⟩), .commit ⟨2⟩]

def overwritingAnswers : List Answer :=
  [.began (.ok ⟨1⟩), .performed (.ok (.address ⟨⟨2⟩, 0⟩)), .performed (.ok .done),
    .began (.ok ⟨2⟩), .performed (.ok (.bytes (List.replicate 8 0))), .performed (.ok .done),
    .committed (.ok 1), .began (.ok ⟨3⟩), .performed (.ok .done), .performed (.ok .done),
    .committed (.error (.aborted (.validationFailed ⟨.first, 0⟩)))]

theorem clock_governs_overwriting : ∃ session after,
    Reached (.limited 1000) threeWords overwriting overwritingAnswers session ∧
    Reached (.limited 1000) threeWords (overwriting ++ [.commit ⟨3⟩])
      (overwritingAnswers ++ [.committed (.ok 3)]) after ∧
    session.region.UnlockedDated ∧
    (∃ transaction, session.find? ⟨3⟩ = some transaction ∧ transaction.snapshot = 1 ∧
      transaction.snapshot ≤ session.region.coordinator.clock) ∧
    (∀ earlier later before past, overwriting = earlier ++ later →
      Reached (.limited 1000) threeWords earlier before past →
        session.region.Advances past.region ∧ past.region.coordinator.clock < 3) ∧
    (∀ record ∈ committedOf overwriting overwritingAnswers, record.draws = true →
      record.version < 3) ∧
    ∃ place cell, after.region.Names ⟨.first, 0⟩ place ∧
      after.region.memory.cell? place = some cell ∧ cell.version = 3 := by
  have computed : seenAfter (fun session => (session.find? ⟨3⟩).map (·.snapshot)) (.limited 1000)
      threeWords overwriting = some (some 1, overwritingAnswers) := by cbv
  have ended : seenAfter (fun session => (session.find? ⟨3⟩).map (·.snapshot)) (.limited 1000)
      threeWords (overwriting ++ [.commit ⟨3⟩]) =
      some (none, overwritingAnswers ++ [.committed (.ok 3)]) := by cbv
  have sized : ∀ action ∈ overwriting ++ [.commit ⟨3⟩], action.Sized := by
    simp [overwriting, Action.Sized, Operation.Sized]
  rcases Reached.of_seenAfter computed (by decide)
      (fun action member => sized action (List.mem_append_left _ member)) with
    ⟨session, reached, seen⟩
  rcases Reached.of_seenAfter ended (by decide) sized with ⟨after, committed, _⟩
  rcases Option.map_eq_some_iff.mp seen with ⟨transaction, found, snapshot⟩
  rcases reached.clock_governs with ⟨rested, snapshots, advances, drawn⟩
  rcases drawn ⟨3⟩ 3 after committed (by decide) with ⟨fresh, apart, stamps⟩
  refine ⟨session, after, reached, committed, rested,
    ⟨transaction, found, snapshot, snapshots _ _ found⟩, ?_, apart, ?_⟩
  · intro earlier later before past split start
    exact ⟨advances earlier later before past split start,
      fresh earlier later before past split start⟩
  · exact stamps ⟨.first, 0⟩ (by decide) (by decide)

end Session

end WordStm
