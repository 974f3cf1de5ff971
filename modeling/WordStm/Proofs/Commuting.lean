import Mathlib.Logic.Equiv.Basic
import WordStm.Proofs.Conflicts
import WordStm.Proofs.Lives

/-!
# Commits that trade places

Two transactions may commit in either order if neither wrote a word that the other
read or wrote.  Whichever comes second finds the clock ahead of its snapshot and
checks what it read, even if it could have skipped that by coming first; but it finds
the words as they were.  The order shows in the names of versions only, and of those
just the two that are drawn change places.  A segment that both retire goes by
whoever comes first, and so by the same version in either order.
-/

namespace WordStm

/-- Nobody of the others read or wrote a word that was written here. -/
def Deed.Apart (align : Nat) (deeds others : List Deed) : Prop :=
  ∀ address, align ∣ address.offset.toNat → deeds.any (·.writesTo align address) = true →
    others.any (·.writesTo align address) = false ∧ ∀ deed ∈ others, address ∉ deed.wordsRead align

namespace Slot

theorem restamp_retire (stamp : Version → Version) (slot : Slot) (version : Version) :
    (slot.retire version).restamp stamp = (slot.restamp stamp).retire (stamp version) := by
  cases slot <;> rfl

/-- A slot stays if its version does. -/
theorem restamp_of_fixed {stamp : Version → Version} {slot : Slot}
    (fixed : ∀ segment version, slot = .retired segment version → stamp version = version) :
    slot.restamp stamp = slot := by
  cases slot with
  | vacant | live => rfl
  | retired segment version => rw [restamp, fixed segment version rfl]

end Slot

namespace Transaction

variable {first second : Transaction}

/-- The segments that a transaction retires as it ends, by what its commit answered. -/
def retires (transaction : Transaction) : Except Failure Version → List SegmentId
  | .ok _ => transaction.log.freed.toList
  | .error _ => transaction.log.allocated.toList

@[simp] theorem retires_map (transaction : Transaction) (stamp : Version → Version)
    (result : Except Failure Version) :
    transaction.retires (result.map stamp) = transaction.retires result := by
  cases result <;> rfl

/-- What a transaction leaves of a word as it ends, unless a word that it read was stale. -/
def leaves (transaction : Transaction) (stale? : Option Address) (version : Version)
    (place : Place) (cell : Cell) : Cell :=
  match transaction.log.writes.entries.toList.find? (·.place == place) with
  | some entry => if stale?.isNone then cell.put entry.value version else cell
  | none => cell

theorem leaves_of_ne {stale? : Option Address} {version : Version} {place : Place} {cell : Cell}
    (apart : ∀ entry ∈ first.log.writes.entries.toList, entry.place ≠ place) :
    first.leaves stale? version place cell = cell := by
  have absent : first.log.writes.entries.toList.find? (·.place == place) = none :=
    List.find?_eq_none.mpr fun entry member same => apart entry member (beq_iff_eq.mp same)
  rw [leaves, absent]

/-- A commit that fails leaves every word as it was. -/
theorem leaves_some (transaction : Transaction) (address : Address) (version : Version)
    (place : Place) : transaction.leaves (some address) version place = fun cell => cell := by
  funext cell
  rw [leaves]
  split <;> rfl

theorem restamp_leaves (transaction : Transaction) (stamp : Version → Version)
    (stale? : Option Address) (version : Version) (place : Place) (cell : Cell) :
    (transaction.leaves stale? version place cell).restamp stamp =
      transaction.leaves stale? (stamp version) place (cell.restamp stamp) := by
  rw [leaves, leaves]
  cases transaction.log.writes.entries.toList.find? (·.place == place) with
  | none => rfl
  | some entry => cases stale? <;> rfl

/-- The places of the words that the first wrote are not in the log of the second. -/
structure Spares (first second : Transaction) : Prop where
  reads : ∀ entry ∈ first.log.writes.entries.toList, ∀ read ∈ second.log.reads.toList,
    entry.place ≠ read.place
  writes : ∀ entry ∈ first.log.writes.entries.toList,
    ∀ other ∈ second.log.writes.entries.toList, entry.place ≠ other.place

/-- Two transactions that wrote different words may publish them in either order. -/
theorem Spares.leaves_comm (spares : first.Spares second) (stale? other? : Option Address)
    (version other : Version) (place : Place) (cell : Cell) :
    second.leaves other? other place (first.leaves stale? version place cell) =
      first.leaves stale? version place (second.leaves other? other place cell) := by
  -- one of the two at least has nothing for this word
  by_cases written : ∃ entry ∈ first.log.writes.entries.toList, entry.place = place
  · rcases written with ⟨entry, member, rfl⟩
    have apart : ∀ other ∈ second.log.writes.entries.toList, other.place ≠ entry.place :=
      fun other also => (spares.writes entry member other also).symm
    rw [leaves_of_ne apart, leaves_of_ne apart]
  · have apart : ∀ entry ∈ first.log.writes.entries.toList, entry.place ≠ place :=
      fun entry member same => written ⟨entry, member, same⟩
    rw [leaves_of_ne apart, leaves_of_ne apart]

/-- What two transactions did tells whose words are in whose log. -/
theorem apart_iff_spares {digest : Digest} {region : Region} {deeds others : List Deed}
    (valid : region.Valid) (kept : first.LogValid digest region)
    (also : second.LogValid digest region)
    (active : first.status = .active) (alsoActive : second.status = .active)
    (writable : second.mode.isReadOnly = false) (logged : first.Logged region deeds)
    (alsoLogged : second.Logged region others) :
    Deed.Apart region.config.align.toNat deeds others ↔ first.Spares second := by
  have names : ∀ entry ∈ first.log.writes.entries.toList,
      region.Names entry.address entry.place :=
    fun entry member => .of_placed (kept.placed active entry member) valid
  have otherNames : ∀ entry ∈ second.log.writes.entries.toList,
      region.Names entry.address entry.place :=
    fun entry member => .of_placed (also.placed alsoActive entry member) valid
  have written : ∀ {entries : List WriteEntry} {entry : WriteEntry}, entry ∈ entries →
      (WriteEntry.lookup entries entry.address).isSome = true :=
    fun member => List.find?_isSome.mpr ⟨_, member, beq_self_eq_true _⟩
  constructor
  · intro apart
    have told : ∀ entry ∈ first.log.writes.entries.toList,
        others.any (·.writesTo region.config.align.toNat entry.address) = false ∧
          ∀ deed ∈ others, entry.address ∉ deed.wordsRead region.config.align.toNat := by
      intro entry member
      have aligned := (names entry member).aligned
      exact apart _ aligned ((logged.written _ aligned).symm.trans (written member))
    constructor
    · intro entry member read readMember same
      have also := alsoLogged.named read readMember
      have address := ((names entry member).eq_iff valid also).mpr same
      have known : read.address ∈ second.log.reads.toList.map (·.address) :=
        List.mem_map_of_mem readMember
      rw [alsoLogged.read writable, ← address] at known
      rcases List.mem_flatMap.mp known with ⟨deed, made, reads⟩
      exact (told entry member).2 deed made reads
    · intro entry member other otherMember same
      have address := ((names entry member).eq_iff valid (otherNames other otherMember)).mpr same
      have wrote := (told entry member).1
      rw [← alsoLogged.written _ (names entry member).aligned, address,
        written otherMember] at wrote
      cases wrote
  · intro spares address aligned wrote
    rw [← logged.written address aligned] at wrote
    rcases Option.isSome_iff_exists.mp wrote with ⟨entry, looked⟩
    rcases WriteEntry.of_lookup looked with ⟨member, rfl⟩
    constructor
    · rw [← alsoLogged.written _ aligned, Bool.eq_false_iff]
      intro also
      rcases Option.isSome_iff_exists.mp also with ⟨other, found⟩
      rcases WriteEntry.of_lookup found with ⟨otherMember, address⟩
      exact spares.writes entry member other otherMember
        (((names entry member).eq_iff valid (otherNames other otherMember)).mp address.symm)
    · intro deed made reads
      have known : entry.address ∈ second.log.reads.toList.map (·.address) := by
        rw [alsoLogged.read writable]
        exact List.mem_flatMap.mpr ⟨deed, made, reads⟩
      rcases List.mem_map.mp known with ⟨read, readMember, address⟩
      exact spares.reads entry member read readMember
        (((names entry member).eq_iff valid (alsoLogged.named read readMember)).mp address.symm)

end Transaction

namespace Region

variable {digest : Digest} {config : RegionConfig} {region after : Region}
  {first second transaction : Transaction} {lives : List Life} {deeds others : List Deed}

/-- The first word that a transaction read and that has changed since, if its commit has
anything to publish or to free. -/
def stale? (region : Region) (transaction : Transaction) : Option Address :=
  if transaction.log.isReadOnly then none
  else (transaction.log.reads.toList.find?
    (·.isStale region.memory transaction.snapshot)).map (·.address)

/-- The version at which a transaction comes to its end. -/
def due (region : Region) (transaction : Transaction) : Version :=
  if transaction.log.isReadOnly then transaction.snapshot else region.coordinator.clock + 1

/-- What a commit comes to, by the word that is in its way and the version that is due. -/
structure Concludes (region : Region) (transaction : Transaction) (stale? : Option Address)
    (version : Version) (after : Region) (result : Except Failure Version) : Prop where
  answered : result = stale?.elim (.ok version) fun address =>
    .error (.aborted (.validationFailed address))
  config : after.config = region.config
  coordinator : after.coordinator = if transaction.log.isReadOnly then region.coordinator
    else { region.coordinator with clock := region.coordinator.clock + 1 }
  layout : after.memory.layout = region.memory.layout
  cells : ∀ place, after.memory.cell? place =
    (region.memory.cell? place).map (transaction.leaves stale? version place)
  table : after.table = region.table.retireAll (transaction.retires result) version
  tally : after.tally = region.tally.ended result.isOk

/-- Without locks every commit concludes.  It does not matter whether what was read is checked
if the clock still stands at the snapshot. -/
theorem commit_concludes (laid : region.LaidOutUnlocked) (rested : region.UnlockedDated)
    (kept : transaction.LogValid digest region) (active : transaction.status = .active) :
    ∃ after ended result, region.commit digest transaction = .ok (after, ended, result) ∧
      region.Concludes transaction (region.stale? transaction) (region.due transaction) after
        result := by
  cases effects : transaction.log.isReadOnly with
  | true =>
      rcases region.commit_idle digest active (.inr effects) with ⟨ended, committed⟩
      have entries := (TransactionLog.isReadOnly_iff.mp effects).1
      refine ⟨_, ended, _, committed, ?_⟩
      rw [stale?, due, if_pos effects, if_pos effects]
      refine ⟨rfl, rfl, by rw [if_pos effects], rfl, ?_, rfl, rfl⟩
      intro place
      have same : transaction.leaves none transaction.snapshot place = id := by
        funext cell
        exact Transaction.leaves_of_ne (by simp [entries])
      rw [same, Option.map_id_fun, id_eq]
  | false =>
      have writable : transaction.mode.isReadOnly = false := by
        rw [Bool.eq_false_iff]
        intro readOnly
        rw [TransactionLog.isReadOnly_iff.mpr (kept.quiet active readOnly)] at effects
        cases effects
      have grounded := kept.grounded laid active
      rcases commit_total laid kept with ⟨after, ended, result, committed⟩
      -- a check that is skipped would have passed, as no word is ahead of the clock
      rcases commit_busy active writable effects kept.sound grounded committed with
        ⟨answered, granted, refused⟩
      rw [rested.ruling_eq grounded (by simp [needsValidation])] at answered granted refused
      refine ⟨after, ended, result, committed, ?_⟩
      rw [stale?, due, effects, if_neg Bool.false_ne_true, if_neg Bool.false_ne_true]
      cases looked : transaction.log.reads.toList.find?
          (·.isStale region.memory transaction.snapshot) with
      | some entry =>
          rw [looked] at answered refused
          rw [refused (by simp), answered]
          refine ⟨rfl, rfl, ?_, rfl, ?_, rfl, rfl⟩
          · rw [effects]
            rfl
          · intro place
            rw [Option.map_some, Transaction.leaves_some, Option.map_id']
      | none =>
          rw [looked] at answered granted
          rcases granted rfl with ⟨outcome, publishes, rfl⟩
          rw [answered]
          refine ⟨rfl, rfl, ?_, publishes.layout, ?_, rfl, rfl⟩
          · rw [effects]
            rfl
          · intro place
            simp only [publishes.cells, Option.map_none]
            unfold Transaction.leaves
            cases transaction.log.writes.entries.toList.find? (·.place == place) with
            | some entry => rfl
            | none => simp

namespace Concludes

variable {between left right : Region} {stale? also? : Option Address} {version other : Version}
  {result earlier later : Except Failure Version}

/-- The clock does not go back. -/
theorem forward (concludes : region.Concludes transaction stale? version after result)
    (room : region.coordinator.clock.toNat + 1 < 2 ^ 64) :
    region.coordinator.clock ≤ after.coordinator.clock := by
  rw [concludes.coordinator]
  split
  next => exact UInt64.le_refl _
  next => exact UInt64.le_of_lt (clock_lt_succ room)

/-- A commit is not in the way of one whose transaction read none of its words. -/
theorem stale?_eq (concludes : region.Concludes first stale? version after result)
    (spares : first.Spares second) : after.stale? second = region.stale? second := by
  rw [Region.stale?, Region.stale?]
  congr 2
  apply List.find?_congr
  intro read member
  have same : first.leaves stale? version read.place = id := by
    funext cell
    exact Transaction.leaves_of_ne fun entry wrote => spares.reads entry wrote read member
  rw [ReadEntry.isStale, ReadEntry.isStale, concludes.cells, same, Option.map_id_fun, id_eq]

/-- Nobody retires a segment without drawing a version. -/
theorem draws_of_retires {before : Region} {id : SegmentId}
    (concludes : region.Concludes transaction (before.stale? transaction) version after result)
    (retires : id ∈ transaction.retires result) : transaction.log.isReadOnly = false := by
  rw [Bool.eq_false_iff]
  intro idle
  rw [concludes.answered, Region.stale?, if_pos idle] at retires
  simp [Transaction.retires, (TransactionLog.isReadOnly_iff.mp idle).2] at retires

end Concludes

/-- Commit two transactions, one after the other. -/
def commitBoth (digest : Digest) (region : Region) (first second : Transaction) :
    Except Fault (Region × Except Failure Version × Except Failure Version) := do
  let (between, _, earlier) ← region.commit digest first
  let (after, _, later) ← between.commit digest second
  return (after, earlier, later)

/-- Commits of two transactions conclude one after the other. -/
theorem commitBoth_concludes (laid : region.LaidOutUnlocked) (rested : region.UnlockedDated)
    (kept : first.LogValid digest region) (also : second.LogValid digest region)
    (active : first.status = .active) (alsoActive : second.status = .active)
    (past : first.snapshot ≤ region.coordinator.clock)
    (room : region.coordinator.clock.toNat + 1 < 2 ^ 64) (spares : first.Spares second) :
    ∃ between after earlier later,
      region.commitBoth digest first second = .ok (after, earlier, later) ∧
      region.Concludes first (region.stale? first) (region.due first) between earlier ∧
      between.Concludes second (region.stale? second) (between.due second) after later := by
  rcases commit_concludes laid rested kept active with
    ⟨between, ended, earlier, committed, one⟩
  have settled := commit_settles committed
  have restedBetween := settled.rested rested (fun _ => past) (one.forward room)
  rcases commit_concludes (settled.laid laid) restedBetween (also.keep settled.keeps)
    alsoActive with ⟨after, closed, later, again, two⟩
  rw [one.stale?_eq spares] at two
  refine ⟨between, after, earlier, later, ?_, one, two⟩
  simp only [commitBoth, committed, again, bind, Except.bind, pure, Except.pure]

/-- The region on the right is like that on the left but for the names of versions.  What was
retired twice goes by one name. -/
structure Exchanged (stamp : Version → Version) (twice : SegmentId → Prop) (left right : Region) :
    Prop where
  config : right.config = left.config
  coordinator : right.coordinator = left.coordinator
  layout : right.memory.layout = left.memory.layout
  cells : ∀ place, right.memory.cell? place = (left.memory.cell? place).map (·.restamp stamp)
  slots : ∀ id, ¬twice id →
    right.table.slot? id = (left.table.slot? id).map (·.restamp stamp)
  kept : ∀ id, twice id → right.table.slot? id = left.table.slot? id
  live : right.table.liveIds = left.table.liveIds
  metrics : right.metrics = left.metrics

namespace Concludes

variable {stamp : Version → Version} {between aside left right : Region}
  {stale? also? : Option Address} {version other : Version}
  {earlier later earlierAgain laterAgain : Except Failure Version}

/-- What is in the way of a commit decides its answer but for the name of the version. -/
theorem result_map (concludes : region.Concludes transaction stale? version after earlier)
    (again : aside.Concludes transaction stale? (stamp version) right earlierAgain) :
    earlierAgain = earlier.map stamp := by
  rw [concludes.answered, again.answered]
  cases stale? <;> rfl

section Exchange

-- both commit, first the first and then the other way round
variable (one : region.Concludes first stale? version between earlier)
  (two : between.Concludes second also? other left later)
  (twoAgain : region.Concludes second also? (stamp other) aside (later.map stamp))
  (oneAgain : aside.Concludes first stale? (stamp version) right (earlier.map stamp))
  (rested : region.UnlockedDated)
  (fixed : ∀ version, version ≤ region.coordinator.clock → stamp version = version)

include one two twoAgain oneAgain

theorem coordinator_exchanged : right.coordinator = left.coordinator := by
  rw [oneAgain.coordinator, twoAgain.coordinator, two.coordinator, one.coordinator]
  cases first.log.isReadOnly <;> cases second.log.isReadOnly <;> rfl

theorem tally_exchanged : right.tally = left.tally := by
  rw [oneAgain.tally, twoAgain.tally, two.tally, one.tally]
  cases earlier <;> cases later <;> rfl

theorem liveIds_exchanged : right.table.liveIds = left.table.liveIds := by
  ext id
  simp only [SegmentTable.liveIds, Set.mem_ofPred_eq, oneAgain.table, twoAgain.table, two.table,
    one.table, SegmentTable.isLive_retireAll, Transaction.retires_map]
  exact and_right_comm

/-- Two versions of one table count alike what is live. -/
theorem metrics_exchanged (counted : region.table.Counted) : right.metrics = left.metrics := by
  have leftCounted : left.table.Counted := by
    rw [two.table, one.table]
    exact (counted.retireAll _ _).retireAll _ _
  have rightCounted : right.table.Counted := by
    rw [oneAgain.table, twoAgain.table]
    exact (counted.retireAll _ _).retireAll _ _
  have live : right.table.live = left.table.live := by
    rw [leftCounted, rightCounted, liveIds_exchanged one two twoAgain oneAgain]
  rw [metrics, metrics, live, coordinator_exchanged one two twoAgain oneAgain,
    tally_exchanged one two twoAgain oneAgain]

include rested fixed

theorem cells_exchanged (spares : first.Spares second) (place : Place) :
    right.memory.cell? place = (left.memory.cell? place).map (·.restamp stamp) := by
  rw [oneAgain.cells, twoAgain.cells, two.cells, one.cells]
  cases found : region.memory.cell? place with
  | none => rfl
  | some cell =>
      have same : cell.restamp stamp = cell := by
        rw [Cell.restamp, fixed _ (rested.dated _ _ found)]
      simp only [Option.map_some, Transaction.restamp_leaves, same, spares.leaves_comm]

/-- The slot of a segment that both retire is as whoever came first left it. -/
theorem slots_exchanged (id : SegmentId) :
    (¬(id ∈ first.retires earlier ∧ id ∈ second.retires later) →
      right.table.slot? id = (left.table.slot? id).map (·.restamp stamp)) ∧
    (id ∈ first.retires earlier → id ∈ second.retires later → stamp other = version →
      right.table.slot? id = left.table.slot? id) := by
  rw [oneAgain.table, twoAgain.table, two.table, one.table, SegmentTable.slot?_retireAll,
    SegmentTable.slot?_retireAll, SegmentTable.slot?_retireAll, SegmentTable.slot?_retireAll,
    Transaction.retires_map, Transaction.retires_map]
  cases found : region.table.slot? id with
  | none => simp
  | some slot =>
      have same : slot.restamp stamp = slot := Slot.restamp_of_fixed fun segment version gone =>
        fixed _ (rested.retired id segment version (gone ▸ found))
      constructor
      · intro once
        by_cases here : id ∈ first.retires earlier
        · have elsewhere : id ∉ second.retires later := fun also => once ⟨here, also⟩
          simp [here, elsewhere, Slot.restamp_retire, same]
        · by_cases there : id ∈ second.retires later
          · simp [here, there, Slot.restamp_retire, same]
          · simp [here, there, same]
      · intro here there drawn
        simp [here, there, drawn]

theorem exchanged (counted : region.table.Counted) (spares : first.Spares second)
    (drawn : ∀ id, id ∈ first.retires earlier → id ∈ second.retires later →
      stamp other = version) :
    left.Exchanged stamp (fun id => id ∈ first.retires earlier ∧ id ∈ second.retires later)
      right where
  config := by rw [oneAgain.config, twoAgain.config, two.config, one.config]
  coordinator := coordinator_exchanged one two twoAgain oneAgain
  layout := by rw [oneAgain.layout, twoAgain.layout, two.layout, one.layout]
  cells := cells_exchanged one two twoAgain oneAgain rested fixed spares
  slots := fun id => (slots_exchanged one two twoAgain oneAgain rested fixed id).1
  kept := fun id twice => (slots_exchanged one two twoAgain oneAgain rested fixed id).2 twice.1
    twice.2 (drawn id twice.1 twice.2)
  live := liveIds_exchanged one two twoAgain oneAgain
  metrics := metrics_exchanged one two twoAgain oneAgain counted

end Exchange

end Concludes

/-- The versions that two commits draw change places, if both draw one. -/
def exchange (region : Region) (first second : Transaction) : Version → Version :=
  if first.log.isReadOnly || second.log.isReadOnly then id
  else Equiv.swap (region.coordinator.clock + 1) (region.coordinator.clock + 2)

theorem exchange_comm (region : Region) (first second : Transaction) :
    region.exchange second first = region.exchange first second := by
  rw [exchange, exchange, Bool.or_comm]

theorem exchange_exchange (region : Region) (first second : Transaction) (version : Version) :
    region.exchange first second (region.exchange first second version) = version := by
  rw [exchange]
  split
  next => rfl
  next => exact Equiv.swap_apply_self _ _ _

/-- A version of the past keeps its name. -/
theorem exchange_of_le {version : Version}
    (room : region.coordinator.clock.toNat ≤ 2 ^ 64 - 3)
    (past : version ≤ region.coordinator.clock) :
    region.exchange first second version = version := by
  have next : region.coordinator.clock < region.coordinator.clock + 1 := clock_lt_succ (by omega)
  have last : region.coordinator.clock < region.coordinator.clock + 2 := by
    have two : (2 : UInt64).toNat = 2 := rfl
    rw [UInt64.lt_iff_toNat_lt, UInt64.toNat_add, two, Nat.mod_eq_of_lt (by omega)]
    omega
  rw [exchange]
  split
  next => rfl
  next =>
    exact Equiv.swap_apply_of_ne_of_ne (UInt64.ne_of_lt (UInt64.lt_of_le_of_lt past next))
      (UInt64.ne_of_lt (UInt64.lt_of_le_of_lt past last))

/-- Whoever comes first draws what the other would have drawn. -/
theorem Concludes.due_eq {between : Region} {stale? : Option Address} {version : Version}
    {result : Except Failure Version}
    (concludes : region.Concludes first stale? version between result) (second : Transaction) :
    region.due second = region.exchange first second (between.due second) := by
  rw [due, due, exchange, concludes.coordinator]
  cases second.log.isReadOnly with
  | true => simp
  | false =>
      cases first.log.isReadOnly with
      | true => simp
      | false =>
          have next : region.coordinator.clock + 1 + 1 = region.coordinator.clock + 2 :=
            UInt64.add_assoc _ 1 1
          simp [next]

/-- What two running transactions did tells whose words are in whose log. -/
theorem ReachedForward.apart_iff_spares (risen : ReachedForward digest config region lives)
    (firstRuns : ⟨.running first, deeds⟩ ∈ lives) (secondRuns : ⟨.running second, others⟩ ∈ lives)
    (firstActive : first.status = .active) (secondActive : second.status = .active)
    (writable : second.mode.isReadOnly = false) :
    Deed.Apart region.config.align.toNat deeds others ↔ first.Spares second := by
  have tended := risen.reachedWith.tended
  have timely := risen.timely
  exact Transaction.apart_iff_spares (tended.laid.valid_of_dated timely.rested.dated)
    (tended.kept _ _ firstRuns) (tended.kept _ _ secondRuns) firstActive secondActive writable
    (timely.logged _ _ firstRuns firstActive) (timely.logged _ _ secondRuns secondActive)

/-- Two transactions neither of which wrote a word that the other read or wrote may commit in
either order.  Both get the same answers, and the words, the clock, the metrics and what is
live are the same at the end, but the two versions change places.  Whether each commits is
decided by the words before both. -/
theorem ReachedForward.commits_commute (risen : ReachedForward digest config region lives)
    (room : region.coordinator.clock.toNat ≤ 2 ^ 64 - 3)
    (firstRuns : ⟨.running first, deeds⟩ ∈ lives) (secondRuns : ⟨.running second, others⟩ ∈ lives)
    (firstActive : first.status = .active) (secondActive : second.status = .active)
    (firstWrites : first.mode.isReadOnly = false) (secondWrites : second.mode.isReadOnly = false)
    (apart : Deed.Apart region.config.align.toNat deeds others)
    (also : Deed.Apart region.config.align.toNat others deeds) :
    ∃ left right earlier later,
      region.commitBoth digest first second = .ok (left, earlier, later) ∧
      region.commitBoth digest second first =
        .ok (right, later.map (region.exchange first second),
          earlier.map (region.exchange first second)) ∧
      left.Exchanged (region.exchange first second)
        (fun id => id ∈ first.retires earlier ∧ id ∈ second.retires later) right ∧
      ∃ between, region.Concludes first (region.stale? first) (region.due first) between earlier ∧
        between.Concludes second (region.stale? second) (between.due second) left later := by
  have tended := risen.reachedWith.tended
  have timely := risen.timely
  have laid := tended.laid
  have rested := timely.rested
  have kept := tended.kept _ _ firstRuns
  have alsoKept := tended.kept _ _ secondRuns
  have roomy : region.coordinator.clock.toNat + 1 < 2 ^ 64 := by omega
  have spares := (risen.apart_iff_spares firstRuns secondRuns firstActive secondActive
    secondWrites).mp apart
  have alsoSpares := (risen.apart_iff_spares secondRuns firstRuns secondActive firstActive
    firstWrites).mp also
  rcases commitBoth_concludes laid rested kept alsoKept firstActive secondActive
    (timely.past _ _ firstRuns) roomy spares with
    ⟨between, left, earlier, later, committed, one, two⟩
  rcases commitBoth_concludes laid rested alsoKept kept secondActive firstActive
    (timely.past _ _ secondRuns) roomy alsoSpares with
    ⟨aside, right, laterAgain, earlierAgain, again, twoAgain, oneAgain⟩
  -- the other order draws the same versions, but hands them out the other way round
  have secondDue := one.due_eq second
  have firstDue : aside.due first = region.exchange first second (region.due first) := by
    rw [twoAgain.due_eq first, exchange_comm, exchange_exchange]
  rw [secondDue] at twoAgain
  rw [firstDue] at oneAgain
  have answered := one.result_map oneAgain
  have alsoAnswered := two.result_map twoAgain
  subst answered alsoAnswered
  refine ⟨left, right, earlier, later, committed, again, ?_, between, one, two⟩
  apply Concludes.exchanged one two twoAgain oneAgain rested (fun _ => exchange_of_le room)
    risen.reachedWith.accounts.counted spares
  intro id here there
  have draws := one.draws_of_retires here
  have alsoDraws := two.draws_of_retires there
  rw [← secondDue, due, due, draws, alsoDraws]
  rfl

/-- Transaction 3 reads a word that transaction 4 then publishes, so that it cannot commit any
more.  Before that it allocated segment 3, which transaction 2 frees. -/
def freedByBoth : List Action :=
  [.begin .readWrite, .perform ⟨1⟩ (.alloc 8), .commit ⟨1⟩, .begin .readWrite,
    .begin .readWrite, .perform ⟨3⟩ (.read ⟨.first, 16⟩ 8), .perform ⟨3⟩ (.alloc 8),
    .perform ⟨3⟩ (.write (List.replicate 8 3) ⟨.first, 8⟩),
    .perform ⟨2⟩ (.write (List.replicate 8 2) ⟨.first, 0⟩), .perform ⟨2⟩ (.free ⟨⟨2⟩, 0⟩),
    .perform ⟨2⟩ (.free ⟨⟨3⟩, 0⟩), .begin .readWrite,
    .perform ⟨4⟩ (.write (List.replicate 8 4) ⟨.first, 16⟩), .commit ⟨4⟩]

def freedByBothAnswers : List Answer :=
  [.began (.ok ⟨1⟩), .performed (.ok (.address ⟨⟨2⟩, 0⟩)), .committed (.ok 0), .began (.ok ⟨2⟩),
    .began (.ok ⟨3⟩), .performed (.ok (.bytes (List.replicate 8 0))),
    .performed (.ok (.address ⟨⟨3⟩, 0⟩)), .performed (.ok .done), .performed (.ok .done),
    .performed (.ok .done), .performed (.ok .done), .began (.ok ⟨4⟩), .performed (.ok .done),
    .committed (.ok 1)]

/-- In either order transaction 2 commits, and transaction 3 fails for the same word.  Segment 3
goes by the first version that is drawn, whoever draws it. -/
theorem commits_commute_freedByBoth : ∃ region lives first second deeds others left right,
    ReachedForward .ofAddress Session.threeWords region lives ∧
    ⟨.running first, deeds⟩ ∈ lives ∧ ⟨.running second, others⟩ ∈ lives ∧
    region.commitBoth .ofAddress first second =
      .ok (left, .ok 2, .error (.aborted (.validationFailed ⟨.first, 16⟩))) ∧
    region.commitBoth .ofAddress second first =
      .ok (right, .error (.aborted (.validationFailed ⟨.first, 16⟩)), .ok 3) ∧
    left.Exchanged (Equiv.swap 2 3) (fun id => id ∈ [⟨2⟩, ⟨3⟩] ∧ id ∈ [⟨3⟩]) right := by
  let places (log : TransactionLog) := (log.reads.toList.map (·.place),
    log.writes.entries.toList.map (·.place))
  have computed : Session.seenAfter (fun session => do
        let first ← session.find? ⟨2⟩
        let second ← session.find? ⟨3⟩
        return ((first.status, first.mode.isReadOnly, first.log.isReadOnly, places first.log,
            first.log.freed.toList),
          (second.status, second.mode.isReadOnly, second.log.isReadOnly, places second.log,
            second.log.allocated.toList),
          session.region.coordinator.clock,
          (session.region.commitBoth .ofAddress first second).map (·.2)))
      (.limited 1000) Session.threeWords freedByBoth =
      some (some ((.active, false, false, ([], [⟨0, 0⟩]), [⟨2⟩, ⟨3⟩]),
        (.active, false, false, ([⟨0, 2⟩], [⟨0, 1⟩]), [⟨3⟩]), 1,
        .ok (.ok 2, .error (.aborted (.validationFailed ⟨.first, 16⟩)))),
        freedByBothAnswers) := by cbv
  have sized : ∀ action ∈ freedByBoth, action.Sized := by
    simp [freedByBoth, Action.Sized, Operation.Sized]
  rcases Session.Reached.of_seenAfter computed (by decide) sized with ⟨session, reached, seen⟩
  simp only [bind, Option.bind_eq_some_iff] at seen
  rcases seen with ⟨first, found, second, alsoFound, seen⟩
  simp only [pure, Option.some.injEq, Prod.mk.injEq, places] at seen
  rcases seen with ⟨⟨active, writable, effects, ⟨unread, wrote⟩, freed⟩,
    ⟨alsoActive, alsoWritable, alsoEffects, ⟨read, alsoWrote⟩, allocated⟩, clock, committed⟩
  rcases reached.reachedForward with ⟨lives, risen, listed⟩
  rcases listed.running found with ⟨deeds, running⟩
  rcases listed.running alsoFound with ⟨others, alsoRunning⟩
  rcases List.map_eq_singleton_iff.mp wrote with ⟨entry, entries, place⟩
  rcases List.map_eq_singleton_iff.mp alsoWrote with ⟨other, alsoEntries, alsoPlace⟩
  rcases List.map_eq_singleton_iff.mp read with ⟨seen, reads, seenPlace⟩
  rw [List.map_eq_nil_iff] at unread
  have spares : first.Spares second := by
    constructor
    · simp [entries, reads, place, seenPlace]
    · simp [entries, alsoEntries, place, alsoPlace]
  have alsoSpares : second.Spares first := by
    constructor
    · simp [unread]
    · simp [entries, alsoEntries, place, alsoPlace]
  rcases risen.commits_commute (by rw [clock]; decide) running alsoRunning active alsoActive
    writable alsoWritable
    ((risen.apart_iff_spares running alsoRunning active alsoActive alsoWritable).mpr spares)
    ((risen.apart_iff_spares alsoRunning running alsoActive active writable).mpr alsoSpares) with
    ⟨left, right, earlier, later, ran, again, exchanged, _⟩
  have stamp : session.region.exchange first second = Equiv.swap 2 3 := by
    rw [exchange, effects, alsoEffects, clock]
    rfl
  simp only [ran, Except.map, Except.ok.injEq, Prod.mk.injEq] at committed
  rcases committed with ⟨rfl, rfl⟩
  simp only [stamp, Transaction.retires, freed, allocated] at again exchanged
  exact ⟨session.region, lives, first, second, deeds, others, left, right, risen, running,
    alsoRunning, ran, again, exchanged⟩

end Region

end WordStm
