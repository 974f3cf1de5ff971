import WordStm.Proofs.Survival

/-!
# What is left of a transaction that does not commit

Until it ends, a transaction changes nothing that others can see, but for the segments
that it allocates.  If it ends without a commit these are retired, and those that it
meant to free stay.  Memory is as it was before; only a commit that failed because of
a word that was read has used up a version.  An allocation that there is no room to log
fails, and leaves a segment that is retired at once.
-/

namespace WordStm

/-- Nothing was read, written, allocated or freed. -/
structure TransactionLog.Blank (log : TransactionLog) : Prop where
  reads : log.reads = #[]
  writes : log.writes.entries = #[]
  filter : ∀ word ∈ log.writes.filter.words, word = 0
  allocated : log.allocated = #[]
  freed : log.freed = #[]

/-- Whether a commit failed because of a word that was read. -/
def Answer.isInvalidated : Answer → Bool
  | .committed (.error (.aborted (.validationFailed _))) => true
  | _ => false

theorem Answer.isInvalidated_of_blameless {failure : Failure}
    (blameless : failure.abortReason? = none) :
    (Answer.committed (.error failure)).isInvalidated = false := by
  cases failure with
  | aborted => cases blameless
  | invalidLayout | outOfMemory | usage | invalidConfig => rfl

/-- A transaction ends without a commit. -/
inductive Session.Aborts (id : TransactionId) : Action → Answer → Prop where
  | failed (failure : Failure) : Aborts id (.commit id) (.committed (.error failure))
  | rolledBack : Aborts id (.rollback id) .ended
  | elsewhere : Aborts id (.endElsewhere id) .ended

namespace Region

/-- One segment of zeros is new, and so is its slot; nothing else has changed. -/
structure Gains (after before : Region) (id : SegmentId) (segment : Handle) (size : UInt64)
    (slot : Slot) : Prop where
  unused : before.table.slot? id = none
  slots : ∀ other, after.table.slot? other =
    if other = id then some slot else before.table.slot? other
  layout : ∀ other, after.memory.layout other =
    if other = segment then some (before.config.align.toNat, size.toNat)
    else before.memory.layout other
  cells : ∀ place, place.segment ≠ segment →
    after.memory.cell? place = before.memory.cell? place
  blank : ∀ word cell, after.memory.cell? ⟨segment, word⟩ = some cell →
    cell = ⟨List.replicate before.config.align.toNat 0, 0, false⟩
  coordinator : after.coordinator = before.coordinator

/-- What an operation makes of a region: one that allocates adds a segment, and any other
nothing.  An allocation that failed changes nothing either, unless all that it lacked was the
room to log the segment, which is then retired as of the clock. -/
def Changes (after before : Region) : Operation → Except Failure Reply → Prop
  | .alloc size, .ok (.address base) => ∃ id segment, base = .base id ∧
      after.Gains before id segment size (.live segment)
  | .alloc size, .error failure => after = before ∨ failure.isOutOfMemory = true ∧
      ∃ id segment, after.Gains before id segment size
        (.retired segment before.coordinator.clock)
  | _, _ => after = before

/-- The segments that were allocated are retired, and nothing else has changed but for the
clock, if it ticks. -/
structure Undoes (after before : Region) (deeds : List Deed) (ticks : Bool) : Prop where
  memory : after.memory = before.memory
  clock : after.coordinator.clock =
    if ticks then before.coordinator.clock + 1 else before.coordinator.clock
  slots : ∀ id, after.table.slot? id =
    if deeds.any (·.allocates id) then
      (before.table.slot? id).map (·.retire after.coordinator.clock)
    else before.table.slot? id
  retired : ∀ id, deeds.any (·.allocates id) = true →
    ∃ segment version, after.table.slot? id = some (.retired segment version)

variable {digest : Digest} {machine now : Machine digest} {region after before : Region}
  {transaction moved : Transaction} {operation : Operation} {result : Except Failure Reply}

/-- A segment that is made and registered is gained, whatever becomes of its slot. -/
theorem gains_of_register {size : UInt64} {segment : Segment} {id : SegmentId} {slot : Slot}
    {table registered : SegmentTable}
    (created : Segment.create machine size region.config.align = .ok (.ok segment))
    (register : region.table.register machine region.memory.segments.size size =
      .ok (id, registered))
    (slots : ∀ other, table.slot? other = if other = id then some slot else
      region.table.slot? other) :
    Gains { region with memory := (region.memory.add segment).2, table } region id
      region.memory.segments.size size slot := by
  rcases Segment.create_ok created with ⟨align, sized, zeros⟩
  constructor
  · rw [SegmentTable.slot?, (SegmentTable.register_ok register).1]
    exact Array.getElem?_eq_none (Nat.le_refl _)
  · exact slots
  · intro other
    rw [Memory.layout_add, align, sized]
  · intro place apart
    rw [Memory.cell?_add, if_neg apart]
  · intro word cell found
    rw [Memory.cell?_add, if_pos rfl] at found
    rcases zeros word cell found with ⟨bytes, version, unlocked⟩
    cases cell
    cases bytes
    cases version
    cases unlocked
    rfl
  · rfl

/-- An operation changes a region only if it allocates. -/
theorem Effect.changes (effect : region.Effect machine transaction operation after moved result) :
    after.Changes region operation result := by
  cases effect with
  | failed =>
      cases operation with
      | alloc => exact .inl rfl
      | read | write | free => rfl
  | read | write | free => rfl
  | alloc active writable checked created registered =>
      exact ⟨_, _, rfl, gains_of_register created registered
        (SegmentTable.slot?_register registered)⟩
  | unlogged active writable checked created registered full =>
      have memory := TransactionLog.isOutOfMemory_of_recordAlloc full
      exact .inr ⟨memory, _, _, gains_of_register created registered
        (SegmentTable.slot?_retire_register registered _)⟩

/-- Retiring what was allocated undoes what a transaction did. -/
theorem undoes_of_retireAll {deeds : List Deed} {ticks : Bool} {ids : List SegmentId}
    (memory : after.memory = before.memory)
    (clock : after.coordinator.clock =
      if ticks then before.coordinator.clock + 1 else before.coordinator.clock)
    (table : after.table = before.table.retireAll ids after.coordinator.clock)
    (listed : ∀ id, id ∈ ids ↔ deeds.any (·.allocates id) = true)
    (known : ∀ id, deeds.any (·.allocates id) = true →
      ∃ segment, before.table.registered? id = some segment) :
    after.Undoes before deeds ticks where
  memory := memory
  clock := clock
  slots := by
    intro id
    simp only [table, SegmentTable.slot?_retireAll, listed]
  retired := by
    intro id allocates
    rcases known id allocates with ⟨segment, registered⟩
    rw [table, SegmentTable.slot?_retireAll, if_pos ((listed id).mpr allocates)]
    rcases SegmentTable.slot?_of_registered registered with live | ⟨version, gone⟩
    · exact ⟨segment, _, by rw [live]; rfl⟩
    · exact ⟨segment, version, by rw [gone]; rfl⟩

end Region

namespace Session.Reached

variable {digest : Digest} {machine now : Machine digest} {session after : Session}
  {config : RegionConfig}
  {actions : List Action} {answers : List Answer} {action : Action} {answer : Answer}
  {id : TransactionId} {transaction : Transaction}

/-- A commit that fails advances the clock if it looked at what was read, and only then. -/
theorem clock_of_failed {failure : Failure}
    (reached : Reached machine config actions answers session)
    (found : session.find? id = some transaction)
    (failed : session.step now (.commit id) = .ok (after, .committed (.error failure))) :
    after.region.coordinator.clock =
      if (Answer.committed (.error failure)).isInvalidated
      then session.region.coordinator.clock + 1 else session.region.coordinator.clock := by
  rcases reached.standing id transaction found with active | ⟨cause, doomed, orderly⟩
  · rcases reached.published_since id transaction found with ⟨_, _, _, _, _, _, _, _, marks⟩
    rcases reached.commit_decided found active marks with ⟨_, stepped, clock⟩
    rw [stepped, Except.ok.injEq, Prod.mk.injEq, Answer.committed.injEq] at failed
    rcases failed with ⟨rfl, result⟩
    split at result
    next draws =>
      rw [if_pos draws] at clock
      split at result
      next =>
        cases result
        exact clock
      next => cases result
    next => cases result
  · simp only [step, found, Region.commit_doomed digest session.region doomed, bind, Except.bind,
      pure, Except.pure, Except.ok.injEq, Prod.mk.injEq, Answer.committed.injEq,
      Except.error.injEq] at failed
    rcases failed with ⟨rfl, rfl⟩
    rcases Failure.doomedFailure_of_isOrderly orderly with same | blameless
    · rw [same]
      rfl
    · rw [Answer.isInvalidated_of_blameless blameless]
      rfl

/-- Ending a transaction without a commit undoes what it did. -/
theorem undone (reached : Reached machine config actions answers session)
    (found : session.find? id = some transaction) (aborts : Aborts id action answer)
    (stepped : session.step now action = .ok (after, answer)) :
    after.region.Undoes session.region (deedsOf id actions answers) answer.isInvalidated := by
  have tracked := reached.tracked.2.1
  rcases tracked.drafts id transaction found with ⟨draft, known, drafted⟩
  have listed : ∀ segment, segment ∈ transaction.log.allocated.toList ↔
      (deedsOf id actions answers).any (·.allocates segment) = true := by
    intro segment
    rw [Array.mem_toList_iff, drafted.allocated, Draft.allocates,
      reached.draft_deeds id draft known]
  have given := reached.allocated_registered id transaction found
  cases aborts with
  | failed failure =>
      have sized : Action.Sized (.commit id) := trivial
      have clock := reached.clock_of_failed found stepped
      have move := step_moves sized tracked.sound stepped
      cases move with
      | committed also settled =>
          rw [found, Option.some.injEq] at also
          subst also
          cases settled with
          | failed => exact Region.undoes_of_retireAll rfl clock rfl listed given
  | rolledBack =>
      simp only [step, found, pure, Except.pure, Except.ok.injEq, Prod.mk.injEq, and_true]
        at stepped
      subst stepped
      rw [close, Region.rollback, Region.abandon_eq]
      exact Region.undoes_of_retireAll rfl rfl rfl listed given
  | elsewhere =>
      simp only [step, found, pure, Except.pure, Except.ok.injEq, Prod.mk.injEq, and_true]
        at stepped
      subst stepped
      rw [close, Region.endElsewhere, Region.abandon_eq]
      exact Region.undoes_of_retireAll rfl rfl rfl listed given

end Session.Reached

namespace Session

end Session

namespace Session

end Session

end WordStm
