import WordStm.Proofs.Commit
import WordStm.Proofs.Operation

/-!
# What decides a commit

A commit that has something to publish or to free is decided by the state before
it.  It fails at the first word to be written that is locked.  Otherwise it takes
the next value of the clock, and if it has to check what was read it fails at the
first word that is locked or newer than the snapshot.  The locks that it takes
itself are never in its way, although the check comes after them.
-/

namespace WordStm

/-- What a commit comes to. -/
inductive Ruling where
  /-- A word to be written was locked. -/
  | contended (address : Address)
  /-- A word that was read was locked, or newer than the snapshot. -/
  | invalid (address : Address)
  | granted
  deriving DecidableEq

namespace Ruling

def result (clock : Version) : Ruling → Except Failure Version
  | contended address => .error (.aborted (.lockContention address))
  | invalid address => .error (.aborted (.validationFailed address))
  | granted => .ok (clock + 1)

/-- Whether the clock was advanced on the way. -/
def ticks : Ruling → Bool
  | contended _ => false
  | invalid _ | granted => true

end Ruling

/-- Whether a word that was read no longer stands. -/
def ReadEntry.isStale (memory : Memory) (snapshot : Version) (entry : ReadEntry) : Bool :=
  (memory.cell? entry.place).any fun cell => (cell.obstacle? entry.address snapshot).isSome

/-- What a commit comes to, by the state before it. -/
def Coordinator.ruling (rule : ValidationRule) (coordinator : Coordinator) (memory : Memory)
    (transaction : Transaction) : Ruling :=
  match (coordinator.lockOrder.sequence transaction.log.writes).find? (memory.isHeld ·.place) with
  | some entry => .contended entry.address
  | none =>
      if rule transaction.snapshot (coordinator.clock + 1) then
        match transaction.log.reads.toList.find? (·.isStale memory transaction.snapshot) with
        | some entry => .invalid entry.address
        | none => .granted
      else .granted

/-- Where no word is locked no lock is met. -/
theorem LockOrder.find?_isHeld {memory : Memory}
    (unlocked : ∀ place cell, memory.cell? place = some cell → cell.locked = false)
    (order : LockOrder) (writes : WriteSet) :
    (order.sequence writes).find? (memory.isHeld ·.place) = none := by
  rw [List.find?_eq_none]
  intro entry _ held
  rw [Memory.isHeld] at held
  cases found : memory.cell? entry.place with
  | none => simp [found] at held
  | some cell => simp [found, unlocked _ _ found] at held

/-- A commit that meets no lock is ruled by what was read. -/
theorem Coordinator.ruling_of_clear {rule : ValidationRule} {coordinator : Coordinator}
    {memory : Memory} {transaction : Transaction}
    (clear : (coordinator.lockOrder.sequence transaction.log.writes).find?
      (memory.isHeld ·.place) = none) :
    coordinator.ruling rule memory transaction =
      if rule transaction.snapshot (coordinator.clock + 1) then
        match transaction.log.reads.toList.find? (·.isStale memory transaction.snapshot) with
        | some entry => .invalid entry.address
        | none => .granted
      else .granted := by
  rw [ruling, clear]

/-- Every word in the log of a transaction exists, and goes by one address. -/
structure Transaction.Grounded (memory : Memory) (transaction : Transaction) : Prop where
  reads : ∀ entry ∈ transaction.log.reads.toList, ∃ cell, memory.cell? entry.place = some cell
  writes : ∀ entry ∈ transaction.log.writes.entries.toList,
    ∃ cell, memory.cell? entry.place = some cell
  apart : transaction.log.writes.entries.toList.Pairwise (·.place ≠ ·.place)
  same : ∀ read ∈ transaction.log.reads.toList, ∀ entry ∈ transaction.log.writes.entries.toList,
    read.address = entry.address ↔ read.place = entry.place

namespace ReadEntry

variable {digest : Digest} {memory : Memory} {writes : WriteSet}

/-- The locks of the write set do not make a word that was read stale, and hide no other. -/
theorem conflict?_hold {entry : ReadEntry} {cell : Cell}
    (free : WriteEntry.Free memory writes.entries.toList) (sound : writes.Sound digest)
    (found : memory.cell? entry.place = some cell)
    (same : ∀ other ∈ writes.entries.toList,
      entry.address = other.address ↔ entry.place = other.place)
    (snapshot : Version) :
    ∃ after conflict, entry.conflict? digest (WriteEntry.hold memory writes.entries.toList)
        snapshot writes = .ok (after, conflict) ∧ after.Alike writes ∧
      conflict.map (·.address) =
        if entry.isStale memory snapshot then some entry.address else none := by
  have ownIff := sound.contains_iff entry.address
  have alike := WriteSet.contains_alike digest writes entry.address
  rcases answered : writes.contains digest entry.address with ⟨own, asked⟩
  rw [answered] at ownIff alike
  rw [isStale, found, Option.any_some, Cell.obstacle?]
  by_cases mine : ∃ other ∈ writes.entries.toList, other.place = entry.place
  · rcases mine with ⟨other, member, place⟩
    have held := WriteEntry.cell?_hold_of_mem memory member
    rw [place, found, Option.map_some] at held
    have unlocked : cell.locked = false := by
      rcases Memory.isLocked_eq_ok_iff.mp (free.unlocked other member) with ⟨present, here, clear⟩
      rw [place, found, Option.some.injEq] at here
      rw [here]
      exact clear
    have known : own = true := ownIff.mpr ⟨other, member, ((same other member).mpr place.symm).symm⟩
    rw [conflict?, Memory.version_of_cell? held, Memory.isLocked_of_cell? held, answered, known,
      unlocked]
    by_cases newer : cell.version > snapshot
    · refine ⟨writes, some (.versionTooNew entry.address cell.version), ?_, .refl _, ?_⟩
      · simp only [bind, Except.bind, newer, if_true]
        rfl
      · simp [newer, Conflict.address]
    · refine ⟨asked, none, ?_, alike, ?_⟩
      · simp only [bind, Except.bind, newer, if_false, if_true]
        rfl
      · simp [newer]
  · have elsewhere := WriteEntry.cell?_hold_of_ne memory entry.place fun other member place =>
      mine ⟨other, member, place⟩
    rw [found] at elsewhere
    have foreign : own = false := by
      rw [Bool.eq_false_iff, ne_eq, ownIff]
      rintro ⟨other, member, address⟩
      exact mine ⟨other, member, ((same other member).mp address.symm).symm⟩
    rw [conflict?, Memory.version_of_cell? elsewhere, Memory.isLocked_of_cell? elsewhere, answered,
      foreign]
    by_cases newer : cell.version > snapshot
    · refine ⟨writes, some (.versionTooNew entry.address cell.version), ?_, .refl _, ?_⟩
      · simp only [bind, Except.bind, newer, if_true]
        rfl
      · cases cell.locked <;> simp [newer, Conflict.address]
    · cases cell.locked with
      | true =>
          refine ⟨asked, some (.lockedByOther entry.address), ?_, alike, rfl⟩
          simp only [bind, Except.bind, newer, if_false, if_true, Bool.false_eq_true]
          rfl
      | false =>
          refine ⟨writes, none, ?_, .refl _, ?_⟩
          · simp only [bind, Except.bind, newer, if_false, Bool.false_eq_true]
            rfl
          · simp [newer]

/-- A check under the locks of the write set finds the first word that was stale without
them. -/
theorem firstConflict?_hold {locks : List WriteEntry} {reads : List ReadEntry}
    (free : WriteEntry.Free memory locks) (sound : writes.Sound digest)
    (locked : writes.entries.toList = locks)
    (present : ∀ entry ∈ reads, ∃ cell, memory.cell? entry.place = some cell)
    (same : ∀ entry ∈ reads, ∀ other ∈ locks,
      entry.address = other.address ↔ entry.place = other.place)
    (snapshot : Version) :
    ∃ after conflict, firstConflict? digest (WriteEntry.hold memory locks) snapshot reads writes =
        .ok (after, conflict) ∧ after.Alike writes ∧
      conflict.map (·.address) = (reads.find? (·.isStale memory snapshot)).map (·.address) := by
  induction reads generalizing writes with
  | nil => exact ⟨writes, none, rfl, .refl _, rfl⟩
  | cons entry rest ih =>
      subst locked
      rcases present entry List.mem_cons_self with ⟨cell, found⟩
      rcases conflict?_hold free sound found (same entry List.mem_cons_self) snapshot with
        ⟨middle, conflict, one, alike, stale⟩
      rw [firstConflict?, one, List.find?_cons]
      cases here : entry.isStale memory snapshot with
      | true =>
          rw [here, if_pos rfl] at stale
          rcases Option.map_eq_some_iff.mp stale with ⟨reason, rfl, address⟩
          exact ⟨middle, some reason, rfl, alike, by rw [Option.map_some, Option.map_some, address]⟩
      | false =>
          rw [here, if_neg Bool.false_ne_true, Option.map_eq_none_iff] at stale
          subst stale
          rcases ih (alike.sound sound) (congrArg Array.toList alike.entries)
              (fun other member => present other (List.mem_cons_of_mem _ member))
              (fun other member => same other (List.mem_cons_of_mem _ member)) with
            ⟨after, conflict, checked, afterAlike, first⟩
          exact ⟨after, conflict, checked, afterAlike.trans alike, first⟩

end ReadEntry

namespace Coordinator

variable {digest : Digest} {coordinator : Coordinator} {memory : Memory}
  {transaction : Transaction}

/-- A commit comes to what was ruled. -/
structure Follows (coordinator : Coordinator) (memory : Memory) (transaction : Transaction)
    (ruling : Ruling) (outcome : Outcome) : Prop where
  result : outcome.result = ruling.result coordinator.clock
  clock : outcome.coordinator =
    if ruling.ticks then { coordinator with clock := coordinator.clock + 1 } else coordinator
  restored : ruling ≠ .granted → outcome.memory = memory
  published : ruling = .granted →
    WriteEntry.publishAll (WriteEntry.hold memory transaction.log.writes.entries.toList)
      (coordinator.clock + 1) transaction.log.writes.entries.toList = .ok outcome.memory

/-- Locks none of which is held are free. -/
theorem free_of_find? {entries : List WriteEntry}
    (present : ∀ entry ∈ entries, ∃ cell, memory.cell? entry.place = some cell)
    (apart : entries.Pairwise (·.place ≠ ·.place))
    (clear : entries.find? (memory.isHeld ·.place) = none) : WriteEntry.Free memory entries where
  unlocked := by
    intro entry member
    rcases present entry member with ⟨cell, found⟩
    have unheld := List.find?_eq_none.mp clear entry member
    rw [Memory.isHeld_of_cell? found, Bool.not_eq_true] at unheld
    exact Memory.isLocked_eq_ok_iff.mpr ⟨cell, found, unheld⟩
  apart := apart

section Sequence

variable (present : ∀ entry ∈ transaction.log.writes.entries.toList,
    ∃ cell, memory.cell? entry.place = some cell)
  (apart : transaction.log.writes.entries.toList.Pairwise (·.place ≠ ·.place))

include present apart

/-- The locks of distinct words are taken up to the first that is held. -/
theorem lockAll_sequence (order : LockOrder) :
    WriteEntry.lockAll memory [] (order.sequence transaction.log.writes) =
      .ok (match (order.sequence transaction.log.writes).find? (memory.isHeld ·.place) with
        | some entry => (memory, some entry)
        | none => (WriteEntry.hold memory transaction.log.writes.entries.toList, none)) := by
  have same := order.sequence_perm transaction.log.writes
  have nothing : WriteEntry.Free memory [] := ⟨by simp, List.Pairwise.nil⟩
  have locked := WriteEntry.lockAll_eq nothing
    (fun entry member => present entry (same.mem_iff.mp member))
    ((same.pairwise_iff fun differ equal => differ equal.symm).mpr apart)
    (fun _ _ _ impossible => by cases impossible)
  rw [WriteEntry.hold_nil, List.append_nil,
    WriteEntry.hold_perm memory ((List.reverse_perm _).trans same)] at locked
  exact locked

theorem free_of_clear {order : LockOrder}
    (clear : (order.sequence transaction.log.writes).find? (memory.isHeld ·.place) = none) :
    WriteEntry.Free memory (order.sequence transaction.log.writes) := by
  have same := order.sequence_perm transaction.log.writes
  exact free_of_find? (fun entry member => present entry (same.mem_iff.mp member))
    ((same.pairwise_iff fun differ equal => differ equal.symm).mpr apart) clear

/-- Releasing the locks restores memory. -/
theorem unlockAll_sequence {order : LockOrder}
    (clear : (order.sequence transaction.log.writes).find? (memory.isHeld ·.place) = none) :
    WriteEntry.unlockAll (WriteEntry.hold memory transaction.log.writes.entries.toList)
      (order.sequence transaction.log.writes) = .ok memory := by
  rw [← WriteEntry.hold_perm memory (order.sequence_perm transaction.log.writes)]
  exact WriteEntry.unlockAll_hold (free_of_clear present apart clear)

end Sequence

/-- A commit with something to publish or to free comes to what the state before it rules. -/
theorem commitWritesBy_follows (coordinator : Coordinator) (rule : ValidationRule)
    (sound : transaction.log.writes.Sound digest) (grounded : transaction.Grounded memory) :
    ∃ outcome, coordinator.commitWritesBy rule digest memory transaction = .ok outcome ∧
      Follows coordinator memory transaction (coordinator.ruling rule memory transaction)
        outcome := by
  have locked := lockAll_sequence grounded.writes grounded.apart coordinator.lockOrder
  rw [commitWritesBy, locked]
  cases clear : (coordinator.lockOrder.sequence transaction.log.writes).find?
      (memory.isHeld ·.place) with
  | some entry =>
      rw [ruling, clear]
      exact ⟨_, rfl, rfl, rfl, fun _ => rfl, fun impossible => by cases impossible⟩
  | none =>
      have free := (free_of_clear grounded.writes grounded.apart clear).of_perm
        (coordinator.lockOrder.sequence_perm _)
      have released := unlockAll_sequence grounded.writes grounded.apart clear
      have heldPresent : ∀ entry ∈ transaction.log.writes.entries.toList, ∃ cell,
          (WriteEntry.hold memory transaction.log.writes.entries.toList).cell? entry.place =
            some cell := by
        intro entry member
        rcases grounded.writes entry member with ⟨cell, found⟩
        exact ⟨_, by rw [WriteEntry.cell?_hold_of_mem memory member, found]; rfl⟩
      rcases WriteEntry.publishAll_total heldPresent (coordinator.clock + 1) with
        ⟨after, published⟩
      rw [ruling_of_clear clear]
      simp only [bind, Except.bind, tick]
      by_cases checks : rule transaction.snapshot (coordinator.clock + 1) = true
      · rcases ReadEntry.firstConflict?_hold free sound rfl grounded.reads grounded.same
          transaction.snapshot with ⟨writes, conflict, checked, alike, first⟩
        simp only [if_pos checks, checked]
        cases stale : transaction.log.reads.toList.find?
            (·.isStale memory transaction.snapshot) with
        | some entry =>
            rw [stale, Option.map_some] at first
            rcases Option.map_eq_some_iff.mp first with ⟨reason, rfl, address⟩
            simp only [released, address]
            exact ⟨_, rfl, rfl, rfl, fun _ => rfl, fun impossible => by cases impossible⟩
        | none =>
            rw [stale, Option.map_none, Option.map_eq_none_iff] at first
            subst first
            simp only [alike.entries, published]
            exact ⟨_, rfl, rfl, rfl, fun impossible => absurd rfl impossible, fun _ => published⟩
      · simp only [if_neg checks, pure, Except.pure, published]
        exact ⟨_, rfl, rfl, rfl, fun impossible => absurd rfl impossible, fun _ => published⟩

end Coordinator

namespace Region

variable (digest : Digest) (region : Region) {transaction : Transaction}

/-- With nothing to publish a commit retires what was freed, at the snapshot. -/
theorem commit_idle (active : transaction.status = .active)
    (idle : transaction.mode.isReadOnly = true ∨ transaction.log.isReadOnly = true) :
    ∃ ended, region.commit digest transaction = .ok ({ region with
      table := region.table.retireAll transaction.log.freed.toList transaction.snapshot
      tally := region.tally.ended true }, ended, .ok transaction.snapshot) := by
  rw [commit, Coordinator.commit, Coordinator.commitBy,
    Transaction.ensureActive_eq_ok.mpr active]
  simp only [Bool.or_eq_true, idle, if_true]
  exact ⟨_, rfl⟩

/-- With nothing to publish or to free a commit succeeds at the snapshot. -/
theorem commit_quiet (active : transaction.status = .active)
    (idle : transaction.mode.isReadOnly = true ∨ transaction.log.isReadOnly = true) :
    ∃ after ended, region.commit digest transaction =
        .ok (after, ended, .ok transaction.snapshot) ∧
      after.coordinator = region.coordinator := by
  rcases region.commit_idle digest active idle with ⟨ended, committed⟩
  exact ⟨_, ended, committed, rfl⟩

/-- With something to publish or to free a commit comes to what the state before it rules. -/
theorem commit_ruled (active : transaction.status = .active)
    (writable : transaction.mode.isReadOnly = false)
    (effects : transaction.log.isReadOnly = false)
    (sound : transaction.log.writes.Sound digest)
    (grounded : transaction.Grounded region.memory) :
    ∃ after ended, region.commit digest transaction = .ok (after, ended,
        (region.coordinator.ruling needsValidation region.memory transaction).result
          region.coordinator.clock) ∧
      after.coordinator =
        if (region.coordinator.ruling needsValidation region.memory transaction).ticks
        then { region.coordinator with clock := region.coordinator.clock + 1 }
        else region.coordinator := by
  rcases region.coordinator.commitWritesBy_follows needsValidation sound grounded with
    ⟨outcome, committed, follows⟩
  have settled : region.coordinator.commit digest region.memory transaction = .ok outcome := by
    rw [Coordinator.commit, Coordinator.commitBy, Transaction.ensureActive_eq_ok.mpr active]
    simp only [writable, effects, Bool.or_self, Bool.false_eq_true, if_false, committed]
  rw [commit, settled, ← follows.result, ← follows.clock]
  cases result : outcome.result with
  | ok version => exact ⟨_, _, by simp only [bind, Except.bind, result]; rfl, rfl⟩
  | error failure => exact ⟨_, _, by simp only [bind, Except.bind, result]; rfl, rfl⟩

/-- A transaction that is doomed does not commit. -/
theorem commit_doomed {reason : AbortReason} (doomed : transaction.status = .aborted reason) :
    region.commit digest transaction = .ok ((region.finishAborted transaction).1,
      (region.finishAborted transaction).2, .error reason.doomedFailure) := by
  simp only [commit, Coordinator.commit, Coordinator.commitBy, Transaction.ensureActive, doomed,
    bind, Except.bind, pure, Except.pure]

end Region

end WordStm
