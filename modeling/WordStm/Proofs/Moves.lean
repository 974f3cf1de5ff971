import WordStm.Session
import WordStm.Proofs.Operation
import WordStm.Proofs.Settlement

/-!
# Moves of a session

One step of a session is one of six moves: a transaction begins or cannot begin,
an open transaction performs an operation, tries to commit or is dropped, or the
transaction is not open and nothing happens.
-/

namespace WordStm

/-- The buffers of an action are no longer than a 64-bit length can say. -/
def Action.Sized : Action → Prop
  | .perform _ operation => operation.Sized
  | .begin _ | .commit _ | .rollback _ | .endElsewhere _ => True

/-- A transaction starts with an empty log. -/
theorem Transaction.start_ok {digest : Digest} {machine : Machine digest} {id : TransactionId}
    {mode : AccessMode} {snapshot : Version} {bits : UInt64} {hashes : UInt32}
    {transaction : Transaction}
    (started : start machine id mode snapshot bits hashes = .ok (.ok transaction)) :
    ∃ filter,
      transaction = { id, mode, snapshot, status := .active, log := .empty filter } := by
  cases mode with
  | readOnly | readWrite =>
      simp only [start, bind_eq_ok, pure_eq_ok] at started
      rcases started with ⟨made, _, started⟩
      cases made with
      | error failure => cases started
      | ok filter =>
          cases started
          exact ⟨filter, rfl⟩

/-- A transaction that begins takes the next number and the current clock. -/
theorem Region.begin_eq {digest : Digest} {machine : Machine digest} {region after : Region}
    {mode : AccessMode} {result : Except Failure Transaction}
    (began : region.begin machine mode = .ok (after, result)) :
    after.Steady region ∧ after.table = region.table ∧
      after.coordinator = { region.coordinator with nextId := region.coordinator.nextId + 1 } ∧
      ∀ transaction, result = .ok transaction → ∃ filter, transaction = {
        id := ⟨region.coordinator.nextId⟩, mode, snapshot := region.coordinator.clock
        status := .active, log := .empty filter } := by
  simp only [begin, Coordinator.start, Coordinator.takeId, bind_eq_ok, pure_eq_ok, Prod.exists,
    Prod.mk.injEq] at began
  rcases began with ⟨_, made, ⟨started, making, rfl, rfl⟩, began⟩
  cases started with
  | ok transaction =>
      cases began
      refine ⟨⟨rfl, rfl, fun _ => rfl, rfl, UInt64.le_refl _⟩, rfl, rfl, ?_⟩
      intro other same
      cases same
      exact Transaction.start_ok making
  | error failure =>
      cases began
      refine ⟨⟨rfl, rfl, fun _ => rfl, rfl, UInt64.le_refl _⟩, rfl, rfl, ?_⟩
      intro transaction impossible
      cases impossible

namespace Session

variable {digest : Digest} {machine : Machine digest} {session : Session}

theorem id_of_find? {id : TransactionId} {transaction : Transaction}
    (found : session.find? id = some transaction) : transaction.id = id := by
  simpa using List.find?_some found

/-- Replacing a transaction touches no other. -/
theorem find?_update (session : Session) (transaction : Transaction) (id : TransactionId) :
    (session.update transaction).find? id =
      if id = transaction.id then (session.find? id).map fun _ => transaction
      else session.find? id := by
  unfold find? update
  induction session.transactions with
  | nil => simp
  | cons head rest ih =>
      simp only [List.map_cons, List.find?_cons, ih]
      by_cases replaced : head.id = transaction.id
      · by_cases wanted : id = transaction.id
        · simp [replaced, wanted]
        · have apart : (transaction.id == id) = false :=
            beq_eq_false_iff_ne.mpr fun equal => wanted equal.symm
          simp [replaced, wanted, apart]
      · by_cases here : head.id = id
        · have apart : id ≠ transaction.id := by rwa [← here]
          simp [here, apart]
        · have apart : (head.id == id) = false := beq_eq_false_iff_ne.mpr here
          simp [replaced, apart]

/-- A closed transaction is gone, and no other. -/
theorem find?_close (session : Session) (closed id : TransactionId) :
    (session.close closed).find? id = if id = closed then none else session.find? id := by
  unfold find? close
  rw [List.find?_filter]
  split
  next same =>
    rw [List.find?_eq_none]
    intro transaction _
    simp [same]
  next differ =>
    congr 1
    funext transaction
    by_cases here : transaction.id = id
    · simp [here, differ]
    · simp [here]

/-- What one step can do. -/
inductive Move (machine : Machine digest) (session : Session) :
    Action → Session → Answer → Prop where
  | began {mode : AccessMode} {region : Region} {transaction : Transaction}
      (begun : session.region.begin machine mode = .ok (region, .ok transaction)) :
      Move machine session (.begin mode)
        { region, transactions := transaction :: session.transactions }
        (.began (.ok transaction.id))
  | refused {mode : AccessMode} {region : Region} {failure : Failure}
      (refused : session.region.begin machine mode = .ok (region, .error failure)) :
      Move machine session (.begin mode) { session with region } (.began (.error failure))
  | unknown {action : Action} : Move machine session action session .unknown
  | performed {id : TransactionId} {operation : Operation} {transaction after : Transaction}
      {region : Region} {result : Except Failure Reply}
      (found : session.find? id = some transaction)
      (effect : session.region.Effect machine transaction operation region after result) :
      Move machine session (.perform id operation) ({ session with region }.update after)
        (.performed result)
  | committed {id : TransactionId} {transaction : Transaction} {region : Region}
      {result : Except Failure Version} (found : session.find? id = some transaction)
      (settled : session.region.Settlement transaction region result) :
      Move machine session (.commit id) ({ session with region }.close id) (.committed result)
  | dropped {action : Action} {id : TransactionId} {transaction : Transaction}
      {reason : AbortReason} (asked : action = .rollback id ∨ action = .endElsewhere id)
      (found : session.find? id = some transaction) :
      Move machine session action
        ({ session with region := (session.region.abandon transaction reason).1 }.close id) .ended

/-- Every step is a move. -/
theorem step_moves {action : Action} {after : Session} {answer : Answer} (sized : action.Sized)
    (sound : ∀ id transaction, session.find? id = some transaction →
      transaction.log.writes.Sound digest)
    (stepped : session.step machine action = .ok (after, answer)) :
    session.Move machine action after answer := by
  cases action with
  | begin mode =>
      simp only [step, bind_eq_ok, Prod.exists] at stepped
      rcases stepped with ⟨region, result, begun, stepped⟩
      cases result with
      | ok transaction =>
          cases stepped
          exact .began begun
      | error failure =>
          cases stepped
          exact .refused begun
  | perform id operation =>
      simp only [step] at stepped
      split at stepped
      next =>
        cases stepped
        exact .unknown
      next transaction found =>
        simp only [bind_eq_ok, pure_eq_ok, Prod.exists, Prod.mk.injEq] at stepped
        rcases stepped with ⟨region, moved, result, performed, rfl, rfl⟩
        exact .performed found (Region.perform_effect sized (sound id _ found) performed)
  | commit id =>
      simp only [step] at stepped
      split at stepped
      next =>
        cases stepped
        exact .unknown
      next transaction found =>
        simp only [bind_eq_ok, pure_eq_ok, Prod.exists, Prod.mk.injEq] at stepped
        rcases stepped with ⟨region, ended, result, committed, rfl, rfl⟩
        exact .committed found (Region.commit_settles committed)
  | rollback id =>
      simp only [step] at stepped
      split at stepped
      next =>
        cases stepped
        exact .unknown
      next transaction found =>
        cases stepped
        exact .dropped (.inl rfl) found
  | endElsewhere id =>
      simp only [step] at stepped
      split at stepped
      next =>
        cases stepped
        exact .unknown
      next transaction found =>
        cases stepped
        exact .dropped (.inr rfl) found

end Session

end WordStm
