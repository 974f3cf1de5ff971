import WordStm.Proofs.Versions

/-!
# Transactions that are open

A transaction that is open is active, or was doomed by a failure of its own.  As each
step runs by itself, such a failure is never one that needs the commit of somebody
else to be under way.
-/

namespace WordStm

/-- Reasons that arise only while another commit is under way. -/
def AbortReason.isRace : AbortReason → Bool
  | .wordLocked _ | .versionChanged _ | .lockContention _ => true
  | _ => false

namespace Failure

/-- Failures that are reported when each step runs by itself. -/
def isOrderly : Failure → Bool
  | aborted (.rejected _) => false
  | aborted reason => !reason.isRace
  | _ => true

theorem isOrderly_of_blameless {failure : Failure} (blameless : failure.abortReason? = none) :
    failure.isOrderly = true := by
  cases failure with
  | aborted reason => cases blameless
  | invalidLayout | outOfMemory | usage | invalidConfig => rfl

theorem isOrderly_of_isOutOfMemory {failure : Failure} (memory : failure.isOutOfMemory = true) :
    failure.isOrderly = true := by
  cases failure with
  | outOfMemory => rfl
  | aborted | invalidLayout | usage | invalidConfig => cases memory

/-- Nobody is to blame for a lack of memory. -/
theorem abortReason?_of_isOutOfMemory {failure : Failure} (memory : failure.isOutOfMemory = true) :
    failure.abortReason? = none := by
  cases failure with
  | outOfMemory => rfl
  | aborted | invalidLayout | usage | invalidConfig => cases memory

/-- What a doomed transaction reports blames nobody, or says only that it is doomed. -/
theorem doomedFailure_of_isOrderly {failure : Failure} (orderly : failure.isOrderly = true) :
    (AbortReason.ofFailure failure).doomedFailure = .aborted .alreadyDoomed ∨
      (AbortReason.ofFailure failure).doomedFailure.abortReason? = none := by
  cases failure with
  | aborted reason =>
      cases reason with
      | rejected => cases orderly
      | _ => exact .inl rfl
  | outOfMemory => exact .inl rfl
  | invalidLayout | usage | invalidConfig => exact .inr rfl

theorem isRace_ofFailure {failure : Failure} (orderly : failure.isOrderly = true) :
    (AbortReason.ofFailure failure).isRace = false := by
  cases failure with
  | aborted reason =>
      cases reason with
      | rejected => rfl
      | _ => simpa [isOrderly, AbortReason.ofFailure] using orderly
  | outOfMemory | invalidLayout | usage | invalidConfig => rfl

theorem isRace_of_isOrderly {reason : AbortReason}
    (orderly : (aborted reason).isOrderly = true) : reason.isRace = false := by
  cases reason with
  | rejected => rfl
  | _ => simpa [isOrderly] using orderly

end Failure

/-- The failure that a step answered. -/
def Answer.failure? : Answer → Option Failure
  | .began (.error failure) | .performed (.error failure) | .committed (.error failure) =>
      some failure
  | _ => none

/-- The transaction that an action is of. -/
def Action.owner? : Action → Option TransactionId
  | .begin _ => none
  | .perform id _ | .commit id | .rollback id | .endElsewhere id => some id

/-- An open transaction is active, or doomed by an orderly failure of its own. -/
def Transaction.Standing (transaction : Transaction) : Prop :=
  transaction.status = .active ∨
    ∃ failure, transaction.status = .aborted (.ofFailure failure) ∧ failure.isOrderly = true

/-- A transaction does not begin only if its filter cannot be made. -/
theorem Transaction.start_refused {digest : Digest} {machine : Machine digest}
    {id : TransactionId} {mode : AccessMode} {snapshot : Version} {bits : UInt64}
    {hashes : UInt32} {failure : Failure}
    (refused : start machine id mode snapshot bits hashes = .ok (.error failure)) :
    ∃ size count, AddressFilter.create machine size count = .ok (.error failure) := by
  cases mode with
  | readOnly | readWrite =>
      simp only [start, bind_eq_ok, pure_eq_ok] at refused
      rcases refused with ⟨made, created, refused⟩
      cases made with
      | error denied =>
          cases refused
          exact ⟨_, _, created⟩
      | ok filter => cases refused

/-- A filter is not made for lack of memory only. -/
theorem AddressFilter.create_refused {digest : Digest} {machine : Machine digest} {bits : UInt64}
    {hashes : UInt32} {failure : Failure}
    (refused : create machine bits hashes = .ok (.error failure)) :
    failure.isOutOfMemory = true := by
  rw [create] at refused
  split at refused
  next =>
    rcases bind_eq_error.mp (Except.ok.inj refused) with denied | ⟨_, _, impossible⟩
    · exact Machine.isOutOfMemory_of_request denied
    · cases impossible
  next => cases refused

namespace Region

variable {digest : Digest} {machine : Machine digest} {region after : Region}
  {transaction moved : Transaction} {failure : Failure}

/-- A transaction does not begin for lack of memory only. -/
theorem begin_refused {mode : AccessMode}
    (refused : region.begin machine mode = .ok (after, .error failure)) :
    failure.isOutOfMemory = true := by
  simp only [begin, Coordinator.start, bind_eq_ok, pure_eq_ok, Prod.exists, Prod.mk.injEq]
    at refused
  rcases refused with ⟨_, _, ⟨started, starting, rfl, rfl⟩, refused⟩
  cases started with
  | ok transaction => cases refused
  | error other =>
      cases refused
      rcases Transaction.start_refused starting with ⟨bits, hashes, denied⟩
      exact AddressFilter.create_refused denied

/-- A region no word of which is locked refuses in an orderly way. -/
theorem Refusal.isOrderly (refusal : region.Refusal transaction failure)
    (unlocked : ∀ place cell, region.memory.cell? place = some cell → cell.locked = false)
    (standing : transaction.Standing) : failure.isOrderly = true := by
  cases refusal with
  | inactive ended =>
      rcases standing with active | ⟨cause, doomed, orderly⟩
      · rw [Transaction.ensureActive_eq_ok.mpr active] at ended
        cases ended
      · simp only [Transaction.ensureActive, doomed, Except.error.injEq] at ended
        rcases Failure.doomedFailure_of_isOrderly orderly with same | blameless
        · rw [← ended, same]
          rfl
        · rw [← ended]
          exact Failure.isOrderly_of_blameless blameless
  | unfit blameless => exact Failure.isOrderly_of_blameless blameless
  | retired => rfl
  | obstructed found obstacle =>
      rw [Cell.obstacle?, unlocked _ _ found] at obstacle
      simp only [Bool.false_eq_true, if_false] at obstacle
      split at obstacle
      next =>
        cases obstacle
        rfl
      next => cases obstacle

/-- An operation fails in an orderly way, and leaves its transaction standing. -/
theorem Effect.standing {operation : Operation}
    (effect : region.Effect machine transaction operation after moved (.error failure))
    (unlocked : ∀ place cell, region.memory.cell? place = some cell → cell.locked = false)
    (standing : transaction.Standing) : failure.isOrderly = true ∧ moved.Standing := by
  cases effect with
  | failed id allocated freed writes status refusal doomed =>
      have orderly : failure.isOrderly = true := by
        rcases refusal with refusal | memory
        · exact refusal.isOrderly unlocked standing
        · exact Failure.isOrderly_of_isOutOfMemory memory
      refine ⟨orderly, ?_⟩
      rcases doomed with same | ⟨doomed, _⟩
      · rw [Transaction.Standing, same]
        exact standing
      · exact .inr ⟨failure, doomed, orderly⟩
  | unlogged _ _ _ _ _ full =>
      have memory := TransactionLog.isOutOfMemory_of_recordAlloc full
      exact ⟨Failure.isOrderly_of_isOutOfMemory memory, standing⟩

/-- An operation that succeeds leaves its transaction active. -/
theorem Effect.active {operation : Operation} {reply : Reply}
    (effect : region.Effect machine transaction operation after moved (.ok reply)) :
    moved.status = .active := by
  cases effect with
  | read active located words => exact (readWords_alike words).status.trans active
  | write active | alloc active | free active => exact active

end Region

namespace Session.Move

variable {digest : Digest} {now : Machine digest} {session after : Session} {action : Action}
  {answer : Answer} {id : TransactionId} {transaction : Transaction}

/-- A transaction that is open after an action of its own was so before. -/
theorem open_of_open (move : session.Move now action after answer)
    (own : action.owner? = some id) (found : after.find? id = some transaction) :
    ∃ old, session.find? id = some old := by
  rcases move.of_find? found with
    ⟨_, rfl, _⟩ | ⟨_, _, old, _, _, present, _⟩ | ⟨present, _⟩
  · cases own
  · exact ⟨old, present⟩
  · exact ⟨transaction, present⟩

/-- A transaction that is open after an action of its own has not moved the clock. -/
theorem clock_of_open (move : session.Move now action after answer)
    (own : action.owner? = some id) (valid : session.region.Valid)
    (found : after.find? id = some transaction) :
    after.region.coordinator.clock = session.region.coordinator.clock := by
  have still := move.clock_still valid
  cases move with
  | began | refused => cases own
  | unknown | performed | dropped => exact still (by simp)
  | committed known settled =>
      cases own
      rw [find?_close, if_pos rfl] at found
      cases found

end Session.Move

namespace Session.Reached

variable {digest : Digest} {machine now : Machine digest} {session after middle : Session}
  {config : RegionConfig} {actions earlier later : List Action}
  {answers before beyond : List Answer} {action : Action} {answer : Answer} {id : TransactionId}
  {transaction : Transaction}

theorem standing (reached : Reached machine config actions answers session) :
    ∀ id transaction, session.find? id = some transaction → transaction.Standing := by
  apply reached.transactions (motive := fun _ _ transaction => transaction.Standing)
  · intro actions answers session now mode region transaction _ begun
    rcases (Region.begin_eq begun).2.2.2 transaction rfl with ⟨filter, rfl⟩
    exact .inl rfl
  · intro now before after records draft transaction moved operation reply _ drafted effect _
    exact .inl effect.active
  · intro actions answers session now after deeds transaction moved operation failure first effect
    exact fun standing => (effect.standing first.rested.unlocked standing).2
  · intro before after deeds transaction _ _ standing
    exact standing

end Session.Reached

end WordStm
