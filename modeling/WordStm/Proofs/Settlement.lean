import Mathlib.Algebra.Group.Nat.Defs
import WordStm.Proofs.Commit
import WordStm.Proofs.Validity

/-!
# How a transaction ends

A commit settles in one of three ways: quietly at the snapshot, by publishing at
the next value of the clock, or not at all.  The first two retire the segments
that the transaction freed, the last those that it allocated.  Only publishing
changes memory, and only words of the write set, which then carry a version that
no snapshot taken before can see.
-/

namespace WordStm.Region

/-- What can become of a commit. -/
inductive Settlement (region : Region) (transaction : Transaction) :
    Region → Except Failure Version → Prop where
  | quiet (active : transaction.status = .active)
      (idle : transaction.mode.isReadOnly = true ∨ transaction.log.isReadOnly = true) :
      Settlement region transaction
        { region with
          table := region.table.retireAll transaction.log.freed.toList transaction.snapshot
          tally := region.tally.ended true }
        (.ok transaction.snapshot)
  | published {outcome : Coordinator.Outcome}
      (publishes : Coordinator.Publishes region.coordinator region.memory transaction outcome) :
      Settlement region transaction
        { region with
          coordinator := outcome.coordinator
          memory := outcome.memory
          table := region.table.retireAll transaction.log.freed.toList
            (region.coordinator.clock + 1)
          tally := region.tally.ended true }
        (.ok (region.coordinator.clock + 1))
  | failed {failure : Failure} {coordinator : Coordinator}
      (clock : coordinator = region.coordinator ∨
        coordinator = { region.coordinator with clock := region.coordinator.clock + 1 }) :
      Settlement region transaction
        { region with
          coordinator
          table := region.table.retireAll transaction.log.allocated.toList coordinator.clock
          tally := region.tally.ended false }
        (.error failure)

variable {digest : Digest} {region after : Region} {transaction ended : Transaction}

/-- Every commit settles. -/
theorem commit_settles {result : Except Failure Version}
    (committed : region.commit digest transaction = .ok (after, ended, result)) :
    Settlement region transaction after result := by
  simp only [commit, bind_eq_ok] at committed
  rcases committed with ⟨outcome, settled, committed⟩
  cases Coordinator.commit_verdict settled with
  | quiet active idle same =>
      subst same
      cases committed
      exact .quiet active idle
  | published publishes =>
      simp only [publishes.result, publishes.freed, pure_eq_ok, Prod.mk.injEq] at committed
      rcases committed with ⟨rfl, _, rfl⟩
      exact .published publishes
  | failed failure result clock memory allocated =>
      simp only [result, memory, finishAborted, allocated, pure_eq_ok, Prod.mk.injEq] at committed
      rcases committed with ⟨rfl, _, rfl⟩
      exact .failed clock

/-- A transaction that is given up retires what it allocated. -/
theorem abandon_eq (region : Region) (transaction : Transaction) (reason : AbortReason) :
    (region.abandon transaction reason).1 =
      { region with
        table := region.table.retireAll transaction.log.allocated.toList region.coordinator.clock
        tally := region.tally.ended false } := by
  unfold abandon finishAborted Transaction.markAborted
  split <;> rfl

/-- A clock that has not run out moves forward. -/
theorem clock_lt_succ {clock : Version} (room : clock.toNat + 1 < 2 ^ 64) : clock < clock + 1 := by
  rw [UInt64.lt_iff_toNat_lt, UInt64.toNat_add]
  have one : (1 : UInt64).toNat = 1 := rfl
  rw [one, Nat.mod_eq_of_lt room]
  exact Nat.lt_succ_self _

/-- Retiring segments and advancing the clock leave memory alone. -/
theorem steady_retire (region : Region) (ids : List SegmentId) (version : Version)
    {coordinator : Coordinator} (tally : Tally)
    (clock : region.coordinator.clock ≤ coordinator.clock) :
    ({ region with coordinator, table := region.table.retireAll ids version, tally } :
      Region).Steady region where
  config := rfl
  memory := rfl
  registered := by simp
  slots := SegmentTable.size_retireAll _ _ _
  clock := clock

/-- A segment that could not be logged is retired at once. -/
theorem steady_unlogged (region : Region) (segment : Segment) (table : SegmentTable)
    (id : SegmentId) :
    ({ region with
      memory := (region.memory.add segment).2
      table := (table.retire id region.coordinator.clock).2 } : Region).Steady
    { region with memory := (region.memory.add segment).2, table } :=
  steady_retire { region with memory := (region.memory.add segment).2, table } [id]
    region.coordinator.clock region.tally (UInt64.le_refl _)

section Publishing

variable {outcome : Coordinator.Outcome}
  (publishes : Coordinator.Publishes region.coordinator region.memory transaction outcome)

include publishes

/-- A word after a commit is an old one, or has the version of the commit. -/
theorem cell?_published {place : Place} {cell : Cell}
    (found : outcome.memory.cell? place = some cell) :
    region.memory.cell? place = some cell ∨ cell.version = region.coordinator.clock + 1 := by
  rw [publishes.cells] at found
  split at found
  next =>
    rw [Option.map_eq_some_iff] at found
    rcases found with ⟨_, _, rfl⟩
    exact .inr rfl
  next => exact .inl found

theorem Valid.publish (valid : region.Valid)
    (room : region.coordinator.clock.toNat + 1 < 2 ^ 64)
    (ids : List SegmentId) (version : Version) (tally : Tally) :
    ({ region with
        coordinator := outcome.coordinator
        memory := outcome.memory
        table := region.table.retireAll ids version
        tally } : Region).Valid := by
  constructor
  · exact valid.align_pos
  · intro segment align size laidOut
    rw [publishes.layout] at laidOut
    exact valid.layout segment align size laidOut
  · intro place cell found
    rw [publishes.clock]
    rcases cell?_published publishes found with old | new
    · have fits := valid.dated place cell old
      exact UInt64.le_trans fits (UInt64.le_of_lt (clock_lt_succ room))
    · rw [new]
      exact UInt64.le_refl _
  · intro id segment
    simp only [SegmentTable.registered?_retireAll, Memory.size_eq_of_layout publishes.layout]
    exact valid.registered id segment
  · simp only [SegmentTable.size_retireAll, Memory.size_eq_of_layout publishes.layout]
    exact valid.slots

/-- What is published is out of sight of all snapshots taken before. -/
theorem publish_extends (room : region.coordinator.clock.toNat + 1 < 2 ^ 64)
    (ids : List SegmentId) (version : Version) (tally : Tally) :
    ({ region with
        coordinator := outcome.coordinator
        memory := outcome.memory
        table := region.table.retireAll ids version
        tally } : Region).Extends region := by
  constructor
  · rfl
  · rw [publishes.clock]
    exact UInt64.le_of_lt (clock_lt_succ room)
  · intro id segment found
    simpa using found
  · intro segment layout laidOut
    rw [publishes.layout]
    exact laidOut
  · intro id segment word cell _ found past
    rcases cell?_published publishes found with old | new
    · exact old
    · rw [new] at past
      exact absurd (clock_lt_succ room) (UInt64.not_lt.mpr past)
  · intro id segment word cell absent found
    simp only [SegmentTable.registered?_retireAll] at found
    rw [absent] at found
    cases found

end Publishing

end WordStm.Region
