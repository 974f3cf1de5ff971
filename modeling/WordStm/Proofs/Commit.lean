import WordStm.Proofs.Locking
import WordStm.Proofs.WriteSet

/-!
# What a commit does

A commit has three outcomes.  A transaction with nothing to publish commits at
its snapshot and changes nothing.  Any other commits at the next value of the
clock, and then every word that it read has a version that its snapshot covers,
unless nothing can have changed since; or it fails, and memory is as before.
-/

namespace WordStm

namespace ReadEntry

/-- A word that was read stands only if its version is within the snapshot. -/
theorem conflict?_eq_none {digest : Digest} {memory : Memory} {snapshot : Version}
    {entry : ReadEntry} {writes after : WriteSet}
    (checked : entry.conflict? digest memory snapshot writes = .ok (after, none)) :
    after.Alike writes ∧ ∃ version, memory.version entry.place = .ok version ∧
      version ≤ snapshot := by
  simp only [conflict?, bind_eq_ok] at checked
  obtain ⟨version, looked, checked⟩ := checked
  split at checked
  next => simp [pure_eq_ok] at checked
  next fits =>
    refine ⟨?_, version, looked, UInt64.not_lt.mp fits⟩
    simp only [bind_eq_ok] at checked
    obtain ⟨locked, _, checked⟩ := checked
    cases locked with
    | false =>
        simp only [Bool.false_eq_true, if_false, pure_eq_ok, Prod.mk.injEq, and_true] at checked
        subst checked
        exact WriteSet.Alike.refl writes
    | true =>
        simp only [if_true] at checked
        split at checked
        next =>
          simp only [pure_eq_ok, Prod.mk.injEq, and_true] at checked
          subst checked
          exact WriteSet.contains_alike _ _ _
        next => simp [pure_eq_ok] at checked

/-- Without a conflict, every word that was read stands. -/
theorem firstConflict?_eq_none {digest : Digest} {memory : Memory} {snapshot : Version}
    {reads : List ReadEntry} {writes after : WriteSet}
    (checked : firstConflict? digest memory snapshot reads writes = .ok (after, none)) :
    after.Alike writes ∧ ∀ entry ∈ reads, ∃ version,
      memory.version entry.place = .ok version ∧ version ≤ snapshot := by
  induction reads generalizing writes with
  | nil =>
      cases checked
      exact ⟨WriteSet.Alike.refl _, by simp⟩
  | cons entry rest ih =>
      simp only [firstConflict?, bind_eq_ok] at checked
      obtain ⟨⟨middle, conflict⟩, one, checked⟩ := checked
      cases conflict with
      | some conflict => simp [pure_eq_ok] at checked
      | none =>
          obtain ⟨middleAlike, stands⟩ := conflict?_eq_none one
          obtain ⟨afterAlike, restStand⟩ := ih checked
          refine ⟨afterAlike.trans middleAlike, ?_⟩
          intro other member
          rcases List.mem_cons.mp member with first | later
          · rw [first]
            exact stands
          · exact restStand other later

end ReadEntry

/-- Both lock orders take every lock once. -/
theorem LockOrder.sequence_perm (order : LockOrder) (writes : WriteSet) :
    (order.sequence writes).Perm writes.entries.toList := by
  cases order with
  | writeSet => exact List.reverse_perm _
  | address => exact List.mergeSort_perm _ _

/-- Only a log with a word to publish or a segment to retire has effects. -/
theorem TransactionLog.isReadOnly_iff {log : TransactionLog} :
    log.isReadOnly = true ↔ log.writes.entries = #[] ∧ log.freed = #[] := by
  simp [isReadOnly, WriteSet.isEmpty]

namespace Coordinator

/-- A commit that publishes the write set of a transaction. -/
structure Publishes (coordinator : Coordinator) (memory : Memory) (transaction : Transaction)
    (outcome : Outcome) : Prop where
  active : transaction.status = .active
  writable : transaction.mode.isReadOnly = false
  effects : transaction.log.isReadOnly = false
  result : outcome.result = .ok (coordinator.clock + 1)
  clock : outcome.coordinator = { coordinator with clock := coordinator.clock + 1 }
  free : WriteEntry.Free memory transaction.log.writes.entries.toList
  /-- Unless the clock stood still since the snapshot, the reads were checked. -/
  valid : coordinator.clock = transaction.snapshot ∨
    ∀ entry ∈ transaction.log.reads.toList, ∃ version,
      memory.version entry.place = .ok version ∧ version ≤ transaction.snapshot
  cells : ∀ place, outcome.memory.cell? place =
    match transaction.log.writes.entries.toList.find? (·.place == place) with
    | some entry => (memory.cell? place).map (·.put entry.value (coordinator.clock + 1))
    | none => memory.cell? place
  layout : outcome.memory.layout = memory.layout
  freed : outcome.transaction.log.freed = transaction.log.freed

/-- What can become of a commit. -/
inductive Verdict (coordinator : Coordinator) (memory : Memory) (transaction : Transaction)
    (outcome : Outcome) : Prop where
  /-- There was nothing to publish. -/
  | quiet (active : transaction.status = .active)
      (idle : transaction.mode.isReadOnly = true ∨ transaction.log.isReadOnly = true)
      (same : outcome = {
        coordinator, memory
        transaction := transaction.markCommitted transaction.snapshot
        result := .ok transaction.snapshot })
  | published (publishes : Publishes coordinator memory transaction outcome)
  /-- The clock may have advanced, but memory is as before. -/
  | failed (failure : Failure) (result : outcome.result = .error failure)
      (clock : outcome.coordinator = coordinator ∨
        outcome.coordinator = { coordinator with clock := coordinator.clock + 1 })
      (memory : outcome.memory = memory)
      (allocated : outcome.transaction.log.allocated = transaction.log.allocated)

/-- The reads stand if they were checked, and need no check if the clock stood still. -/
theorem valid_of_checked {digest : Digest} {memory : Memory} {snapshot clock : Version}
    {reads : List ReadEntry} {writes after : WriteSet}
    (checked : (if needsValidation snapshot (clock + 1) = true then
        ReadEntry.firstConflict? digest memory snapshot reads writes
      else pure (writes, none)) = .ok (after, none)) :
    after.Alike writes ∧ (clock = snapshot ∨ ∀ entry ∈ reads, ∃ version,
      memory.version entry.place = .ok version ∧ version ≤ snapshot) := by
  split at checked
  next =>
    obtain ⟨alike, stand⟩ := ReadEntry.firstConflict?_eq_none checked
    exact ⟨alike, .inr stand⟩
  next skipped =>
    simp only [pure_eq_ok, Prod.mk.injEq, and_true] at checked
    subst checked
    refine ⟨WriteSet.Alike.refl writes, .inl ?_⟩
    simpa [needsValidation] using skipped

/-- Publishing words that were locked leaves them as if they never had been. -/
theorem cells_published {memory after : Memory} {version : Version} {entries : List WriteEntry}
    (free : WriteEntry.Free memory entries)
    (published : WriteEntry.publishAll (WriteEntry.hold memory entries) version entries = .ok after)
    (place : Place) :
    after.cell? place =
      match entries.find? (·.place == place) with
      | some entry => (memory.cell? place).map (·.put entry.value version)
      | none => memory.cell? place := by
  rw [WriteEntry.publishAll_eq_ok free.apart published]
  cases found : entries.find? (·.place == place) with
  | none =>
      apply WriteEntry.cell?_hold_of_ne
      intro entry member
      simpa using List.find?_eq_none.mp found entry member
  | some entry =>
      have here : entry.place = place := by simpa using List.find?_some found
      have member := List.mem_of_find?_eq_some found
      simp only [← here, WriteEntry.cell?_hold_of_mem memory member, Option.map_map]
      rfl

/-- With something to publish or to free, a commit is not quiet. -/
theorem commitWritesBy_verdict {digest : Digest} {coordinator : Coordinator} {memory : Memory}
    {transaction : Transaction} {outcome : Outcome} (active : transaction.status = .active)
    (writable : transaction.mode.isReadOnly = false)
    (effects : transaction.log.isReadOnly = false)
    (committed : coordinator.commitWritesBy needsValidation digest memory transaction =
      .ok outcome) :
    Verdict coordinator memory transaction outcome := by
  have order := coordinator.lockOrder.sequence_perm transaction.log.writes
  simp only [commitWritesBy, bind_eq_ok] at committed
  obtain ⟨⟨held, blocked⟩, locked, committed⟩ := committed
  cases blocked with
  | some blocked =>
      have restored := WriteEntry.lockAll_eq_some ⟨by simp, List.Pairwise.nil⟩ locked
      simp only [pure_eq_ok] at committed
      subst committed
      exact .failed _ rfl (.inl rfl) restored rfl
  | none =>
      obtain ⟨sequenceFree, heldEq⟩ := WriteEntry.lockAll_eq_none locked
      subst heldEq
      have free := sequenceFree.of_perm order
      simp only [ite_bind_eq_ok] at committed
      obtain ⟨⟨writes, conflict⟩, checked, committed⟩ := committed
      cases conflict with
      | some conflict =>
          simp only [bind_eq_ok, pure_eq_ok] at committed
          obtain ⟨released, unlocked, same⟩ := committed
          subst same
          rw [WriteEntry.unlockAll_hold sequenceFree] at unlocked
          cases unlocked
          exact .failed _ rfl (.inr rfl) rfl rfl
      | none =>
          obtain ⟨alike, valid⟩ := valid_of_checked checked
          simp only [bind_eq_ok, pure_eq_ok] at committed
          obtain ⟨after, published, same⟩ := committed
          subst same
          rw [WriteEntry.hold_perm memory order, alike.entries] at published
          exact .published {
            active
            writable
            effects
            result := rfl
            clock := rfl
            free
            valid := valid.imp_right fun stand entry member => by
              obtain ⟨version, looked, fits⟩ := stand entry member
              exact ⟨version, (WriteEntry.version_hold memory _ _).mp looked, fits⟩
            cells := cells_published free published
            layout := (WriteEntry.layout_publishAll published).trans (by simp)
            freed := rfl }

/-- A commit publishes, or it changes nothing but the clock. -/
theorem commit_verdict {digest : Digest} {coordinator : Coordinator} {memory : Memory}
    {transaction : Transaction} {outcome : Outcome}
    (committed : coordinator.commit digest memory transaction = .ok outcome) :
    Verdict coordinator memory transaction outcome := by
  rw [commit, commitBy] at committed
  cases status : transaction.status with
  | active =>
      simp only [Transaction.ensureActive, status] at committed
      split at committed
      next idle =>
        cases committed
        rw [Bool.or_eq_true] at idle
        exact .quiet status idle rfl
      next busy =>
        simp only [Bool.or_eq_true, not_or, Bool.not_eq_true] at busy
        exact commitWritesBy_verdict status busy.1 busy.2 committed
  | validating | committed | aborted =>
      simp only [Transaction.ensureActive, status, Except.ok.injEq] at committed
      subst committed
      exact .failed _ rfl (.inl rfl) rfl rfl

end Coordinator

end WordStm
