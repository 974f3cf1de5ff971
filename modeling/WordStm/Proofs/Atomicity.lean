import WordStm.Proofs.Decision
import WordStm.Proofs.Moves

/-!
# A commit publishes everything or nothing

A transaction fills its log by reading and writing words, and the log may be
filled by hand as well.  Either way its write set answers exactly.  Nothing else is
asked of a log here than that the words in it exist: memory may be in any state, and
any words may be locked.

A commit then comes to an end.  If it fails, memory is as it was before, with the
locks of others held and none of its own; if it succeeds, the words of the write
set and no others have changed.  This holds even if a word is in the write set
under two addresses: the second attempt to lock it fails.

If different addresses are of different words, the words before the commit tell
what it comes to.  The locks that it takes itself are never in its way, and a lock
of somebody else on a word that it only read never escapes it.
-/

namespace WordStm

/-- A transaction that a coordinator began and that was used since, in whatever states
memory was in at the time. -/
inductive Transaction.Used (digest : Digest) : Transaction → Prop
  | began {machine : Machine digest} {coordinator after : Coordinator} {mode : AccessMode}
      {transaction : Transaction}
      (started : coordinator.start machine mode = .ok (after, .ok transaction)) :
      Used digest transaction
  | read {machine : Machine digest} {transaction after : Transaction} {memory : Memory}
      {address : Address} {place : Place} {buffer : Bytes} {result : Except Failure Bytes}
      (used : Used digest transaction)
      (read : transaction.readWord machine memory address place buffer = .ok (after, result)) :
      Used digest after
  | wrote {transaction : Transaction} (used : Used digest transaction) (machine : Machine digest)
      (address : Address) (place : Place) (value : Bytes) :
      Used digest (transaction.writeWord machine address place value).1
  /-- A word can be remembered as read without being read. -/
  | noted {machine : Machine digest} {transaction : Transaction} {address : Address}
      {place : Place} {log : TransactionLog} (used : Used digest transaction)
      (noted : transaction.log.recordRead machine address place = .ok log) :
      Used digest { transaction with log }
  | recorded {transaction : Transaction} (used : Used digest transaction)
      (machine : Machine digest) (address : Address) (place : Place) (value : Bytes) :
      Used digest (transaction.withWrites
        (transaction.log.writes.record machine address place value).1)
  | looked {transaction : Transaction} (used : Used digest transaction) (address : Address) :
      Used digest (transaction.withWrites (transaction.log.writes.get digest address).2)
  | unread {transaction : Transaction} (used : Used digest transaction) :
      Used digest { transaction with log := { transaction.log with reads := #[] } }
  | unwritten {transaction : Transaction} (used : Used digest transaction) :
      Used digest (transaction.withWrites transaction.log.writes.clear)
  /-- What a log lists besides words does not matter, nor do earlier states. -/
  | listed {transaction : Transaction} (used : Used digest transaction) (status : Status)
      (allocated freed : Array SegmentId) :
      Used digest { transaction with status, log := { transaction.log with allocated, freed } }

namespace Transaction

variable {digest : Digest} {transaction : Transaction}

/-- However a log was filled, its write set answers exactly. -/
theorem Used.sound (used : transaction.Used digest) : transaction.log.writes.Sound digest := by
  induction used with
  | began started =>
      simp only [Coordinator.start, bind_eq_ok, pure_eq_ok, Prod.mk.injEq] at started
      rcases started with ⟨_, begun, _, rfl⟩
      rcases start_ok begun with ⟨filter, rfl⟩
      exact WriteSet.sound_empty digest filter
  | read _ read ih => exact (readWord_alike read).writes.sound ih
  | wrote _ machine address place value ih =>
      rw [writeWord]
      split
      next => exact ih
      next => exact ih.record machine address place value
  | noted _ noted ih =>
      rw [TransactionLog.eq_of_recordRead noted]
      exact ih
  | recorded _ machine address place value ih => exact ih.record machine address place value
  | @looked transaction _ address ih =>
      exact (WriteSet.get_alike digest transaction.log.writes address).sound ih
  | unread _ ih => exact ih
  | unwritten => exact WriteSet.sound_empty digest _
  | listed _ _ _ _ ih => exact ih

end Transaction

namespace TransactionLog

/-- The words in a log, each with the address that it goes by. -/
def words (log : TransactionLog) : List (Address × Place) :=
  (log.reads.toList.map fun entry => (entry.address, entry.place)) ++
    log.writes.entries.toList.map fun entry => (entry.address, entry.place)

/-- Every word in a log exists. -/
def InRange (memory : Memory) (log : TransactionLog) : Prop :=
  ∀ word ∈ log.words, ∃ cell, memory.cell? word.2 = some cell

/-- The words in a log go by equal addresses exactly if they are the same. -/
def Coherent (log : TransactionLog) : Prop :=
  ∀ first ∈ log.words, ∀ second ∈ log.words, first.1 = second.1 ↔ first.2 = second.2

variable {log : TransactionLog} {memory : Memory}

instance : Decidable (log.InRange memory) :=
  decidable_of_iff (∀ word ∈ log.words, (memory.cell? word.2).isSome = true) <| by
    simp only [InRange, Option.isSome_iff_exists]

instance : Decidable log.Coherent :=
  inferInstanceAs (Decidable (∀ first ∈ log.words, ∀ second ∈ log.words,
    first.1 = second.1 ↔ first.2 = second.2))

theorem mem_words_of_read {entry : ReadEntry} (member : entry ∈ log.reads.toList) :
    (entry.address, entry.place) ∈ log.words :=
  List.mem_append_left _ (List.mem_map_of_mem member)

theorem mem_words_of_write {entry : WriteEntry} (member : entry ∈ log.writes.entries.toList) :
    (entry.address, entry.place) ∈ log.words :=
  List.mem_append_right _ (List.mem_map_of_mem member)

theorem InRange.read (inRange : log.InRange memory) {entry : ReadEntry}
    (member : entry ∈ log.reads.toList) : ∃ cell, memory.cell? entry.place = some cell :=
  inRange _ (mem_words_of_read member)

theorem InRange.write (inRange : log.InRange memory) {entry : WriteEntry}
    (member : entry ∈ log.writes.entries.toList) : ∃ cell, memory.cell? entry.place = some cell :=
  inRange _ (mem_words_of_write member)

end TransactionLog

/-- A log of words that exist and go by one address each is grounded. -/
theorem Transaction.Used.grounded {digest : Digest} {memory : Memory} {transaction : Transaction}
    (used : transaction.Used digest) (inRange : transaction.log.InRange memory)
    (coherent : transaction.log.Coherent) : transaction.Grounded memory where
  reads _ member := inRange.read member
  writes _ member := inRange.write member
  apart := used.sound.distinct.imp_of_mem fun first second differ same =>
    differ ((coherent _ (TransactionLog.mem_words_of_write first) _
      (TransactionLog.mem_words_of_write second)).mpr same)
  same _ read _ write := coherent _ (TransactionLog.mem_words_of_read read) _
    (TransactionLog.mem_words_of_write write)

/-- Whether a word is locked, or newer than a snapshot. -/
def Memory.isUnsettled (memory : Memory) (snapshot : Version) (place : Place) : Bool :=
  (memory.cell? place).any fun cell => cell.locked || decide (snapshot < cell.version)

/-- A word that is locked is not settled. -/
theorem Memory.isUnsettled_of_isHeld {memory : Memory} {place : Place}
    (held : memory.isHeld place = true) (snapshot : Version) :
    memory.isUnsettled snapshot place = true := by
  rw [isHeld, Option.any_eq_true] at held
  rcases held with ⟨cell, found, locked⟩
  rw [isUnsettled, found, Option.any_some, locked, Bool.true_or]

namespace ReadEntry

variable {memory : Memory} {writes : WriteSet}

/-- A word that was read no longer stands exactly if it is not settled. -/
theorem isStale_eq (memory : Memory) (snapshot : Version) (entry : ReadEntry) :
    entry.isStale memory snapshot = memory.isUnsettled snapshot entry.place := by
  rw [isStale, Memory.isUnsettled]
  congr 1
  funext cell
  rw [Cell.obstacle?]
  cases cell.locked with
  | true => rfl
  | false =>
      by_cases newer : snapshot < cell.version
      · simp [newer]
      · simp [newer]

/-- A word that exists can be checked. -/
theorem conflict?_total {entry : ReadEntry} (digest : Digest)
    (present : ∃ cell, memory.cell? entry.place = some cell) (snapshot : Version) :
    ∃ after conflict, entry.conflict? digest memory snapshot writes = .ok (after, conflict) ∧
      after.Alike writes := by
  rcases present with ⟨cell, found⟩
  have alike := WriteSet.contains_alike digest writes entry.address
  rw [conflict?, Memory.version_of_cell? found, Memory.isLocked_of_cell? found]
  simp only [bind, Except.bind]
  split
  next => exact ⟨_, _, rfl, .refl _⟩
  next =>
    split
    next =>
      split
      next => exact ⟨_, _, rfl, alike⟩
      next => exact ⟨_, _, rfl, alike⟩
    next => exact ⟨_, _, rfl, .refl _⟩

/-- Words that exist can be checked. -/
theorem firstConflict?_total {reads : List ReadEntry} (digest : Digest) (writes : WriteSet)
    (present : ∀ entry ∈ reads, ∃ cell, memory.cell? entry.place = some cell)
    (snapshot : Version) :
    ∃ after conflict, firstConflict? digest memory snapshot reads writes =
      .ok (after, conflict) ∧ after.Alike writes := by
  induction reads generalizing writes with
  | nil => exact ⟨_, _, rfl, .refl _⟩
  | cons entry rest ih =>
      rcases conflict?_total digest (present entry List.mem_cons_self) snapshot with
        ⟨middle, conflict, one, alike⟩
      rw [firstConflict?, one]
      cases conflict with
      | some conflict => exact ⟨_, _, rfl, alike⟩
      | none =>
          rcases ih middle (fun other member => present other (List.mem_cons_of_mem _ member)) with
            ⟨after, conflict, checked, afterAlike⟩
          exact ⟨after, conflict, checked, afterAlike.trans alike⟩

end ReadEntry

/-- A value as long as its word replaces all of it. -/
theorem Cell.bytes_put (cell : Cell) {value : Bytes} (whole : value.length = cell.bytes.length)
    (version : Version) : (cell.put value version).bytes = value := by
  simp [put, ← whole]

/-- Among entries of different words each is found by its word. -/
theorem WriteEntry.find?_of_mem {entries : List WriteEntry} {entry : WriteEntry}
    (apart : entries.Pairwise (·.place ≠ ·.place)) (member : entry ∈ entries) :
    entries.find? (·.place == entry.place) = some entry := by
  induction apart with
  | nil => cases member
  | @cons head rest apart _ ih =>
      rcases List.mem_cons.mp member with rfl | later
      · exact List.find?_cons_of_pos (by simp)
      · rw [List.find?_cons_of_neg (by simpa using apart entry later)]
        exact ih later

namespace Coordinator

variable {digest : Digest} {memory : Memory} {transaction : Transaction}

/-- A commit of words that exist comes to an end, whoever holds their locks and however often
one of them is written. -/
theorem commitWritesBy_total (coordinator : Coordinator) (rule : ValidationRule)
    (digest : Digest) (inRange : transaction.log.InRange memory) :
    ∃ outcome, coordinator.commitWritesBy rule digest memory transaction = .ok outcome := by
  have order := coordinator.lockOrder.sequence_perm transaction.log.writes
  have present : ∀ entry ∈ coordinator.lockOrder.sequence transaction.log.writes,
      ∃ cell, memory.cell? entry.place = some cell :=
    fun entry member => inRange.write (order.mem_iff.mp member)
  have nothing : WriteEntry.Free memory [] := ⟨by simp, List.Pairwise.nil⟩
  rcases WriteEntry.lockAll_total nothing present with ⟨held, blocked, locked⟩
  rw [WriteEntry.hold_nil] at locked
  rw [commitWritesBy, locked]
  cases blocked with
  | some entry => exact ⟨_, rfl⟩
  | none =>
      rcases WriteEntry.lockAll_eq_none locked with ⟨free, rfl⟩
      have publishes : ∀ writes : WriteSet, writes.Alike transaction.log.writes → ∃ after,
          WriteEntry.publishAll (WriteEntry.hold memory (coordinator.lockOrder.sequence
            transaction.log.writes)) (coordinator.clock + 1) writes.entries.toList = .ok after :=
        fun writes alike => WriteEntry.publishAll_total (fun entry member =>
          WriteEntry.present_hold (inRange.write (alike.entries ▸ member)) _) _
      simp only [bind, Except.bind, tick]
      by_cases checks : rule transaction.snapshot (coordinator.clock + 1) = true
      · rcases ReadEntry.firstConflict?_total digest transaction.log.writes
            (fun entry member => WriteEntry.present_hold (inRange.read member)
              (coordinator.lockOrder.sequence transaction.log.writes))
            transaction.snapshot with ⟨writes, conflict, checked, alike⟩
        simp only [if_pos checks, checked]
        cases conflict with
        | some conflict =>
            simp only [WriteEntry.unlockAll_hold free]
            exact ⟨_, rfl⟩
        | none =>
            rcases publishes writes alike with ⟨after, published⟩
            simp only [published]
            exact ⟨_, rfl⟩
      · rcases publishes _ (.refl _) with ⟨after, published⟩
        simp only [if_neg checks, pure, Except.pure, published]
        exact ⟨_, rfl⟩

/-- What a failed commit makes of a coordinator: the clock has advanced if the reads were
checked. -/
def charged (coordinator : Coordinator) : Failure → Coordinator
  | .aborted (.validationFailed _) => { coordinator with clock := coordinator.clock + 1 }
  | _ => coordinator

/-- How a commit that takes locks ends. -/
inductive Ends (coordinator : Coordinator) (outcome : Outcome) : Prop where
  | contended (address : Address) (clock : outcome.coordinator = coordinator)
      (status : outcome.transaction.status = .aborted (.lockContention address))
      (result : outcome.result = .error (.aborted (.lockContention address)))
  | invalid (address : Address) (clock : outcome.coordinator = coordinator.tick.2)
      (status : outcome.transaction.status = .aborted (.validationFailed address))
      (result : outcome.result = .error (.aborted (.validationFailed address)))
  | published (version : Version) (clock : outcome.coordinator = coordinator.tick.2)
      (status : outcome.transaction.status = .committed version)
      (result : outcome.result = .ok version)

/-- It passes through validating and never stops there. -/
theorem ends_of_commitWritesBy {coordinator : Coordinator} {rule : ValidationRule}
    {outcome : Outcome}
    (committed : coordinator.commitWritesBy rule digest memory transaction = .ok outcome) :
    coordinator.Ends outcome := by
  simp only [commitWritesBy, bind_eq_ok] at committed
  rcases committed with ⟨⟨held, blocked⟩, _, committed⟩
  cases blocked with
  | some blocked =>
      cases committed
      exact .contended blocked.address rfl rfl rfl
  | none =>
      simp only [ite_bind_eq_ok] at committed
      rcases committed with ⟨⟨writes, conflict⟩, _, committed⟩
      cases conflict with
      | some conflict =>
          simp only [bind_eq_ok] at committed
          rcases committed with ⟨released, _, same⟩
          cases same
          exact .invalid conflict.address rfl rfl rfl
      | none =>
          simp only [bind_eq_ok] at committed
          rcases committed with ⟨after, _, same⟩
          cases same
          exact .published coordinator.tick.1 rfl rfl rfl

/-- A commit that takes locks has advanced the clock exactly if it came to check the reads. -/
theorem coordinator_of_commitWritesBy {coordinator : Coordinator} {rule : ValidationRule}
    {outcome : Outcome}
    (committed : coordinator.commitWritesBy rule digest memory transaction = .ok outcome) :
    outcome.coordinator = match outcome.result with
      | .ok _ => coordinator.tick.2
      | .error failure => coordinator.charged failure := by
  cases ends_of_commitWritesBy committed with
  | contended address clock _ result =>
      rw [clock, result]
      rfl
  | invalid address clock _ result =>
      rw [clock, result]
      rfl
  | published version clock _ result => rw [clock, result]

/-- With nothing to publish or to free a commit succeeds at the snapshot and touches nothing. -/
theorem commit_of_idle (coordinator : Coordinator) (active : transaction.status = .active)
    (idle : transaction.log.isReadOnly = true) :
    coordinator.commit digest memory transaction = .ok {
      coordinator, memory
      transaction := transaction.markCommitted transaction.snapshot
      result := .ok transaction.snapshot } := by
  rw [commit, commitBy, Transaction.ensureActive_eq_ok.mpr active]
  simp only [idle, Bool.or_true, if_true]

/-- With something to publish or to free a commit takes locks. -/
theorem commit_of_effects (coordinator : Coordinator) (active : transaction.status = .active)
    (writable : transaction.mode.isReadOnly = false)
    (effects : transaction.log.isReadOnly = false) :
    coordinator.commit digest memory transaction =
      coordinator.commitWritesBy needsValidation digest memory transaction := by
  rw [commit, commitBy, Transaction.ensureActive_eq_ok.mpr active]
  simp only [writable, effects, Bool.or_self, Bool.false_eq_true, if_false]

/-- A commit changed nothing but perhaps the clock, or it published its whole write set and
changed nothing else. -/
structure Atomic (coordinator : Coordinator) (memory : Memory) (transaction : Transaction)
    (outcome : Outcome) : Prop where
  /-- The words are as before in bytes, version and lock, those locked elsewhere too. -/
  undone : ∀ failure, outcome.result = .error failure →
    outcome.memory = memory ∧ outcome.coordinator = coordinator.charged failure
  written : ∀ version, outcome.result = .ok version →
    ∀ entry ∈ transaction.log.writes.entries.toList, ∃ before after,
      memory.cell? entry.place = some before ∧ outcome.memory.cell? entry.place = some after ∧
        after.version = version ∧ after.locked = false ∧
        (entry.value.length = before.bytes.length → after.bytes = entry.value)
  untouched : ∀ version, outcome.result = .ok version → ∀ place,
    (∀ entry ∈ transaction.log.writes.entries.toList, entry.place ≠ place) →
      outcome.memory.cell? place = memory.cell? place
  layout : outcome.memory.layout = memory.layout

/-- A commit that published its write set published all of it, and nothing else. -/
theorem Publishes.atomic {coordinator : Coordinator} {outcome : Outcome}
    (publishes : coordinator.Publishes memory transaction outcome)
    (inRange : transaction.log.InRange memory) :
    coordinator.Atomic memory transaction outcome where
  undone failure failed := by
    rw [publishes.result] at failed
    cases failed
  written version succeeded entry member := by
    rw [publishes.result, Except.ok.injEq] at succeeded
    rcases inRange.write member with ⟨before, found⟩
    -- no other entry is of this word, since all locks were taken
    have own := WriteEntry.find?_of_mem publishes.free.apart member
    refine ⟨before, before.put entry.value (coordinator.clock + 1), found, ?_, succeeded, rfl, ?_⟩
    · rw [publishes.cells, own, found]
      rfl
    · exact fun whole => before.bytes_put whole _
  untouched version _ place elsewhere := by
    have absent : transaction.log.writes.entries.toList.find? (·.place == place) = none := by
      rw [List.find?_eq_none]
      intro entry member
      simpa using elsewhere entry member
    rw [publishes.cells, absent]
  layout := publishes.layout

/-- A commit is all or nothing.  Whatever words others have locked, and even if a word is in
the write set twice, it fails and leaves every word as it was, or it succeeds and changes
the words of its write set only. -/
theorem commit_atomic (coordinator : Coordinator) (digest : Digest)
    (active : transaction.status = .active) (writable : transaction.mode.isReadOnly = false)
    (inRange : transaction.log.InRange memory) :
    ∃ outcome, coordinator.commit digest memory transaction = .ok outcome ∧
      coordinator.Atomic memory transaction outcome := by
  cases effects : transaction.log.isReadOnly with
  | true =>
      rw [commit_of_idle coordinator active effects]
      have empty : transaction.log.writes.entries.toList = [] := by
        rw [(TransactionLog.isReadOnly_iff.mp effects).1]
      refine ⟨_, rfl, ?_, ?_, ?_, rfl⟩
      · intro failure failed
        cases failed
      · intro version _ entry member
        rw [empty] at member
        cases member
      · exact fun _ _ _ _ => rfl
  | false =>
      rcases coordinator.commitWritesBy_total needsValidation digest inRange with
        ⟨outcome, committed⟩
      have settled := (commit_of_effects coordinator active writable effects).trans committed
      refine ⟨outcome, settled, ?_⟩
      cases commit_verdict settled with
      | quiet _ idle _ =>
          rcases idle with readOnly | none
          · rw [writable] at readOnly
            cases readOnly
          · rw [effects] at none
            cases none
      | published publishes => exact publishes.atomic inRange
      | failed failure result _ restored _ =>
          refine ⟨?_, ?_, ?_, ?_⟩
          · intro other failed
            have charged := coordinator_of_commitWritesBy committed
            rw [failed] at charged
            exact ⟨restored, charged⟩
          · intro version succeeded
            rw [result] at succeeded
            cases succeeded
          · intro version succeeded
            rw [result] at succeeded
            cases succeeded
          · rw [restored]

/-- A machine that grants every request, and on which all addresses collide in a filter. -/
def colliding : Machine fun _ => 0 := .unlimited _

/-- One segment of three words. -/
def threeZeros : Memory := ⟨#[{
  align := 8
  data := Array.replicate 24 0
  locks := Array.replicate 3 false
  versions := Array.replicate 3 0
  align_pos := by decide
  locks_size := by simp
  versions_size := by simp }]⟩

/-- A coordinator that takes the lock of the latest entry first. -/
def latestFirst : Coordinator :=
  { standard with lockOrder := .writeSet, filterBits := 64, filterHashes := 1 }

/-- The first transaction of that coordinator. -/
def firstBegun : Transaction where
  id := ⟨1⟩
  mode := .readWrite
  snapshot := 0
  status := .active
  log := .empty ⟨#[0], 1, by decide⟩

theorem start_latestFirst : latestFirst.start colliding .readWrite =
    .ok ({ latestFirst with nextId := 2 }, .ok firstBegun) := by rfl

/-- While somebody else holds the lock of another word, a transaction that wrote a word under two
addresses meets its own lock and lets go of it, and one that wrote it under one publishes it. -/
theorem commit_atomic_aliased : ∃ once twice failed published,
    once.Used (fun _ => 0) ∧ twice.Used (fun _ => 0) ∧
    latestFirst.commit (fun _ => 0) (threeZeros.setLock ⟨0, 0⟩ true) twice = .ok failed ∧
    failed.result = .error (.aborted (.lockContention ⟨⟨1⟩, 8⟩)) ∧
    failed.memory = threeZeros.setLock ⟨0, 0⟩ true ∧
    latestFirst.commit (fun _ => 0) (threeZeros.setLock ⟨0, 0⟩ true) once = .ok published ∧
    published.result = .ok 1 ∧
    published.memory.cell? ⟨0, 1⟩ = some ⟨List.replicate 8 1, 1, false⟩ ∧
    published.memory.cell? ⟨0, 0⟩ = some ⟨List.replicate 8 0, 0, true⟩ := by
  let first : WriteEntry := ⟨⟨⟨1⟩, 8⟩, ⟨0, 1⟩, List.replicate 8 1⟩
  let second : WriteEntry := ⟨⟨⟨9⟩, 8⟩, ⟨0, 1⟩, List.replicate 8 2⟩
  let one : WriteSet := ⟨#[first], ⟨#[1], 1, by decide⟩, 0⟩
  let two : WriteSet := ⟨#[first, second], ⟨#[1], 1, by decide⟩, 1⟩
  let once := firstBegun.withWrites one
  let twice := firstBegun.withWrites two
  have recorded : firstBegun.log.writes.record colliding first.address first.place first.value =
      (one, .ok ()) := by cbv
  have again : one.record colliding second.address second.place second.value = (two, .ok ()) := by
    cbv
  have onceUsed : once.Used (fun _ => 0) := by
    have used := (Transaction.Used.began start_latestFirst).recorded colliding first.address
      first.place first.value
    rw [recorded] at used
    exact used
  have twiceUsed : twice.Used (fun _ => 0) := by
    have used := onceUsed.recorded colliding second.address second.place second.value
    rw [show once.log.writes = one from rfl, again] at used
    exact used
  have inRange : once.log.InRange (threeZeros.setLock ⟨0, 0⟩ true) ∧
      twice.log.InRange (threeZeros.setLock ⟨0, 0⟩ true) := by decide
  have results : (latestFirst.commit (fun _ => 0) (threeZeros.setLock ⟨0, 0⟩ true) twice).map
        (·.result) = .ok (.error (.aborted (.lockContention ⟨⟨1⟩, 8⟩))) ∧
      (latestFirst.commit (fun _ => 0) (threeZeros.setLock ⟨0, 0⟩ true) once).map
        (·.result) = .ok (.ok 1) := by
    constructor <;> cbv
  rcases latestFirst.commit_atomic (fun _ => 0) rfl rfl inRange.2 with ⟨failed, met, undone⟩
  rcases latestFirst.commit_atomic (fun _ => 0) rfl rfl inRange.1 with ⟨published, passed, atomic⟩
  rw [met, passed, Except.map, Except.map, Except.ok.injEq, Except.ok.injEq] at results
  rcases results with ⟨refused, granted⟩
  refine ⟨once, twice, failed, published, onceUsed, twiceUsed, met, refused,
    (undone.undone _ refused).1, passed, granted, ?_, ?_⟩
  · have own : first ∈ once.log.writes.entries.toList := List.mem_singleton_self first
    rcases atomic.written 1 granted _ own with
      ⟨before, ⟨bytes, version, locked⟩, was, found, rfl, rfl, whole⟩
    have blank : before = ⟨List.replicate 8 0, 0, false⟩ := by
      have known : (threeZeros.setLock ⟨0, 0⟩ true).cell? ⟨0, 1⟩ =
          some ⟨List.replicate 8 0, 0, false⟩ := by decide
      exact Option.some.inj (was.symm.trans known)
    have value := whole (by rw [blank]; rfl)
    cases value
    exact found
  · rw [atomic.untouched 1 granted ⟨0, 0⟩ (by decide)]
    decide

/-- What a commit comes to, told from the words before it. -/
structure Foretold (coordinator : Coordinator) (memory : Memory) (transaction : Transaction)
    (outcome : Outcome) : Prop where
  idle : transaction.log.isReadOnly = true → outcome = {
    coordinator, memory
    transaction := transaction.markCommitted transaction.snapshot
    result := .ok transaction.snapshot }
  contended : transaction.log.isReadOnly = false →
    ((∃ address, outcome.result = .error (.aborted (.lockContention address))) ↔
      ∃ entry ∈ transaction.log.writes.entries.toList, memory.isHeld entry.place = true)
  /-- The address is that of the first word, in the order of reading, that does not stand. -/
  invalid : transaction.log.isReadOnly = false → ∀ address,
    outcome.result = .error (.aborted (.validationFailed address)) ↔
      (∀ entry ∈ transaction.log.writes.entries.toList, memory.isHeld entry.place = false) ∧
        coordinator.clock ≠ transaction.snapshot ∧
        ∃ read, transaction.log.reads.toList.find?
          (memory.isUnsettled transaction.snapshot ·.place) = some read ∧ read.address = address
  granted : transaction.log.isReadOnly = false →
    (∀ entry ∈ transaction.log.writes.entries.toList, memory.isHeld entry.place = false) →
      (coordinator.clock = transaction.snapshot ∨ ∀ read ∈ transaction.log.reads.toList,
        memory.isUnsettled transaction.snapshot read.place = false) →
        ∃ version, outcome.result = .ok version ∧ version.toNat = coordinator.clock.toNat + 1
  /-- A lock that somebody else holds on a word that was only read does not escape a check. -/
  detected : transaction.log.isReadOnly = false →
    (∀ entry ∈ transaction.log.writes.entries.toList, memory.isHeld entry.place = false) →
      coordinator.clock ≠ transaction.snapshot → ∀ read ∈ transaction.log.reads.toList,
        memory.isHeld read.place = true →
          ∃ address, outcome.result = .error (.aborted (.validationFailed address))

variable {coordinator : Coordinator} {outcome : Outcome}

namespace Foretold

/-- A commit that met a lock is foretold if the word was locked before. -/
theorem of_contended {entry : WriteEntry} (busy : transaction.log.isReadOnly = false)
    (member : entry ∈ transaction.log.writes.entries.toList)
    (held : memory.isHeld entry.place = true)
    (result : outcome.result = .error (.aborted (.lockContention entry.address))) :
    coordinator.Foretold memory transaction outcome := by
  have locked : ¬∀ other ∈ transaction.log.writes.entries.toList,
      memory.isHeld other.place = false := by
    intro free
    rw [free entry member] at held
    cases held
  constructor
  case idle =>
    intro idle
    rw [busy] at idle
    cases idle
  case contended => exact fun _ => ⟨fun _ => ⟨entry, member, held⟩, fun _ => ⟨_, result⟩⟩
  case invalid =>
    intro _ address
    constructor
    · intro failed
      rw [result] at failed
      cases failed
    · exact fun found => absurd found.1 locked
  case granted => exact fun _ free => absurd free locked
  case detected => exact fun _ free => absurd free locked

/-- A commit that met a word that no longer stands is foretold if that was the first. -/
theorem of_invalid {read : ReadEntry} (busy : transaction.log.isReadOnly = false)
    (free : ∀ entry ∈ transaction.log.writes.entries.toList, memory.isHeld entry.place = false)
    (moved : coordinator.clock ≠ transaction.snapshot)
    (found : transaction.log.reads.toList.find?
      (memory.isUnsettled transaction.snapshot ·.place) = some read)
    (result : outcome.result = .error (.aborted (.validationFailed read.address))) :
    coordinator.Foretold memory transaction outcome := by
  constructor
  case idle =>
    intro idle
    rw [busy] at idle
    cases idle
  case contended =>
    intro _
    constructor
    · rintro ⟨address, failed⟩
      rw [result] at failed
      cases failed
    · rintro ⟨entry, member, held⟩
      rw [free entry member] at held
      cases held
  case invalid =>
    intro _ address
    rw [result]
    constructor
    · intro failed
      cases failed
      exact ⟨free, moved, read, found, rfl⟩
    · rintro ⟨_, _, other, first, rfl⟩
      rw [found] at first
      cases first
      rfl
  case granted =>
    intro _ _ settled
    have unsettled := List.find?_some found
    rw [(settled.resolve_left moved) read (List.mem_of_find?_eq_some found)] at unsettled
    cases unsettled
  case detected => exact fun _ _ _ _ _ _ => ⟨read.address, result⟩

/-- A commit that succeeded is foretold if nothing was in its way. -/
theorem of_granted (busy : transaction.log.isReadOnly = false)
    (room : coordinator.clock.toNat + 1 < 2 ^ 64)
    (free : ∀ entry ∈ transaction.log.writes.entries.toList, memory.isHeld entry.place = false)
    (settled : coordinator.clock ≠ transaction.snapshot → transaction.log.reads.toList.find?
      (memory.isUnsettled transaction.snapshot ·.place) = none)
    (result : outcome.result = .ok (coordinator.clock + 1)) :
    coordinator.Foretold memory transaction outcome := by
  constructor
  case idle =>
    intro idle
    rw [busy] at idle
    cases idle
  case contended =>
    intro _
    constructor
    · rintro ⟨address, failed⟩
      rw [result] at failed
      cases failed
    · rintro ⟨entry, member, held⟩
      rw [free entry member] at held
      cases held
  case invalid =>
    intro _ address
    constructor
    · intro failed
      rw [result] at failed
      cases failed
    · rintro ⟨_, moved, read, found, _⟩
      rw [settled moved] at found
      cases found
  case granted =>
    intro _ _ _
    refine ⟨coordinator.clock + 1, result, ?_⟩
    rw [UInt64.toNat_add]
    exact Nat.mod_eq_of_lt room
  case detected =>
    intro _ _ moved read member held
    have stands := List.find?_eq_none.mp (settled moved) read member
    exact absurd (Memory.isUnsettled_of_isHeld held _) stands

end Foretold

/-- A commit that takes locks is foretold by what the state before it rules. -/
theorem Follows.foretold (busy : transaction.log.isReadOnly = false)
    (room : coordinator.clock.toNat + 1 < 2 ^ 64)
    (follows : coordinator.Follows memory transaction
      (coordinator.ruling needsValidation memory transaction) outcome) :
    coordinator.Foretold memory transaction outcome := by
  have order := coordinator.lockOrder.sequence_perm transaction.log.writes
  have result := follows.result
  cases clear : (coordinator.lockOrder.sequence transaction.log.writes).find?
      (memory.isHeld ·.place) with
  | some entry =>
      have held := List.find?_some clear
      rw [ruling, clear] at result
      exact .of_contended busy (order.mem_iff.mp (List.mem_of_find?_eq_some clear)) held result
  | none =>
      have free : ∀ entry ∈ transaction.log.writes.entries.toList,
          memory.isHeld entry.place = false := by
        intro entry member
        simpa using List.find?_eq_none.mp clear entry (order.mem_iff.mpr member)
      have checks : needsValidation transaction.snapshot (coordinator.clock + 1) = true ↔
          coordinator.clock ≠ transaction.snapshot := by
        simp [needsValidation]
      rw [ruling_of_clear clear] at result
      simp only [checks, ReadEntry.isStale_eq] at result
      by_cases still : coordinator.clock = transaction.snapshot
      · rw [if_neg (not_not_intro still)] at result
        exact .of_granted busy room free (fun moved => absurd still moved) result
      · rw [if_pos still] at result
        cases first : transaction.log.reads.toList.find?
            (memory.isUnsettled transaction.snapshot ·.place) with
        | some read =>
            rw [first] at result
            exact .of_invalid busy free still first result
        | none =>
            rw [first] at result
            exact .of_granted busy room free (fun _ => first) result

/-- A commit is decided by the words before it.  It fails if a word of its write set is locked
by then, or else if the clock has left the snapshot and a word that was read is locked or
newer.  Its own locks are never in its way. -/
theorem commit_foretold (coordinator : Coordinator) (used : transaction.Used digest)
    (active : transaction.status = .active) (writable : transaction.mode.isReadOnly = false)
    (inRange : transaction.log.InRange memory) (coherent : transaction.log.Coherent)
    (room : coordinator.clock.toNat + 1 < 2 ^ 64) :
    ∃ outcome, coordinator.commit digest memory transaction = .ok outcome ∧
      coordinator.Foretold memory transaction outcome := by
  cases effects : transaction.log.isReadOnly with
  | true =>
      refine ⟨_, commit_of_idle coordinator active effects, fun _ => rfl, ?_, ?_, ?_, ?_⟩
      all_goals
        intro busy
        rw [effects] at busy
        cases busy
  | false =>
      rcases coordinator.commitWritesBy_follows needsValidation used.sound
        (used.grounded inRange coherent) with ⟨outcome, committed, follows⟩
      exact ⟨outcome, (commit_of_effects coordinator active writable effects).trans committed,
        follows.foretold effects room⟩

/-- A transaction that read two words and wrote a third meets a lock that was taken on the
second since, while the clock went on.  Its own lock is not in its way. -/
theorem commit_foretold_overtaken : ∃ transaction outcome, transaction.Used (fun _ => 0) ∧
    { latestFirst with clock := 4 }.commit (fun _ => 0) (threeZeros.setLock ⟨0, 1⟩ true)
      transaction = .ok outcome ∧
    outcome.result = .error (.aborted (.validationFailed ⟨⟨1⟩, 8⟩)) := by
  let first : ReadEntry := ⟨⟨⟨1⟩, 0⟩, ⟨0, 0⟩⟩
  let second : ReadEntry := ⟨⟨⟨1⟩, 8⟩, ⟨0, 1⟩⟩
  let once : Transaction := { firstBegun with log.reads := #[first] }
  let twice : Transaction := { firstBegun with log.reads := #[first, second] }
  let third : WriteEntry := ⟨⟨⟨1⟩, 16⟩, ⟨0, 2⟩, List.replicate 8 1⟩
  let wrote : Transaction := twice.withWrites ⟨#[third], ⟨#[1], 1, by decide⟩, 0⟩
  have readFirst : firstBegun.readWord colliding threeZeros first.address first.place
      (List.replicate 8 0) = .ok (once, .ok (List.replicate 8 0)) := by cbv
  have readSecond : once.readWord colliding threeZeros second.address second.place
      (List.replicate 8 0) = .ok (twice, .ok (List.replicate 8 0)) := by cbv
  have written : twice.writeWord colliding third.address third.place third.value =
      (wrote, .ok ()) := by cbv
  have used : wrote.Used (fun _ => 0) := by
    have begun : firstBegun.Used (fun _ => 0) := .began start_latestFirst
    have used := ((begun.read readFirst).read readSecond).wrote colliding third.address third.place
      third.value
    rw [written] at used
    exact used
  have inRange : wrote.log.InRange (threeZeros.setLock ⟨0, 1⟩ true) := by decide
  have coherent : wrote.log.Coherent := by decide
  have room : ({ latestFirst with clock := 4 } : Coordinator).clock.toNat + 1 < 2 ^ 64 := by decide
  rcases Coordinator.commit_foretold _ used rfl rfl inRange coherent room with
    ⟨outcome, committed, foretold⟩
  refine ⟨wrote, outcome, used, committed, (foretold.invalid rfl _).mpr ⟨?_, by decide, ?_⟩⟩
  · decide
  · exact ⟨second, rfl, rfl⟩

end Coordinator

end WordStm
