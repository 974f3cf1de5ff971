import WordStm.Proofs.Access

/-!
# What an operation does

An operation on an active transaction succeeds with one of four effects, one for
each kind, or it fails.  A failure changes the transaction only, and dooms it,
but for an allocation for which there is no memory.  That one spares the
transaction, and leaves no more than a retired segment, if there was no room to
log what it had registered.  An operation on any other transaction fails and
changes nothing.

An operation fails for a conflict only if a segment was retired after the
snapshot, or a word of it cannot be read.
-/

namespace WordStm

/-- An access consists of `count` words of a live segment. -/
structure Region.Located (region : Region) (address : Address) (length : Nat) (segment : Handle)
    (word count : Nat) : Prop where
  live : region.table.slot? address.segment = some (.live segment)
  offset : address.offset.toNat = word * region.config.align.toNat
  whole : length = count * region.config.align.toNat
  positive : 0 < count
  inside : ∃ align size, region.memory.layout segment = some (align, size) ∧
    address.offset.toNat + length ≤ size

/-- A buffer is no longer than a 64-bit length can say. -/
def Operation.Sized : Operation → Prop
  | .write value _ => value.length < 2 ^ 64
  | .read .. | .alloc _ | .free _ => True

namespace Operation

/-- Whether a failure leaves the transaction as it was: there is no memory for an allocation. -/
def spares : Operation → Failure → Bool
  | alloc _, failure => failure.isOutOfMemory
  | read .., _ | write .., _ | free _, _ => false

/-- Only for lack of memory is a transaction spared. -/
theorem spares_of_enough (operation : Operation) {failure : Failure}
    (enough : failure.isOutOfMemory = false) : operation.spares failure = false := by
  cases operation with
  | alloc => exact enough
  | read | write | free => rfl

end Operation

/-- What a failed operation leaves of the values to write: all as it was, unless the room ran
out on a write, which has recorded fewer words by then than it was asked to. -/
structure Region.Leaves (digest : Digest) (region : Region) (operation : Operation)
    (before after : WriteSet) : Prop where
  sound : after.Sound digest
  entries : after.entries = before.entries ∨ ∃ value target segment word count fewer,
    operation = .write value target ∧
    region.Located target value.length segment word count ∧ fewer < count ∧
    after.entries.toList = WriteEntry.assignWords region.config.align.toNat target.segment segment
      word value before.entries.toList fewer

theorem Region.Leaves.of_alike {digest : Digest} {region : Region} {operation : Operation}
    {before after : WriteSet} (sound : before.Sound digest) (alike : after.Alike before) :
    region.Leaves digest operation before after :=
  ⟨alike.sound sound, .inl alike.entries⟩

/-- Why an operation of a transaction can fail, apart from a lack of memory. -/
inductive Region.Refusal (region : Region) (transaction : Transaction) : Failure → Prop where
  | inactive {failure : Failure} (ended : transaction.ensureActive = .error failure) :
      Refusal region transaction failure
  /-- A rule was broken, so that no other transaction is to blame. -/
  | unfit {failure : Failure} (blameless : failure.abortReason? = none)
      (memory : failure.isOutOfMemory = false) : Refusal region transaction failure
  | retired {id : SegmentId} {segment : Handle} {version : Version}
      (slot : region.table.slot? id = some (.retired segment version))
      (later : transaction.snapshot < version) :
      Refusal region transaction (.aborted (.segmentRetired id version transaction.snapshot))
  | obstructed {place : Place} {cell : Cell} {address : Address} {reason : AbortReason}
      (found : region.memory.cell? place = some cell)
      (obstacle : cell.obstacle? address transaction.snapshot = some reason) :
      Refusal region transaction (.aborted reason)

/-- What can become of an operation. -/
inductive Region.Effect {digest : Digest} (machine : Machine digest) (region : Region)
    (transaction : Transaction) :
    Operation → Region → Transaction → Except Failure Reply → Prop where
  | failed {operation : Operation} {after : Transaction} {failure : Failure}
      (id : after.id = transaction.id)
      (allocated : after.log.allocated = transaction.log.allocated)
      (freed : after.log.freed = transaction.log.freed)
      (writes : region.Leaves digest operation transaction.log.writes after.log.writes)
      (status : after = transaction ∨ after.isActive = false)
      (refusal : region.Refusal transaction failure ∨ failure.isOutOfMemory = true)
      (doomed : after.status = transaction.status ∨
        after.status = .aborted (.ofFailure failure) ∧ operation.spares failure = false)
      (snapshot : after.snapshot = transaction.snapshot) :
      Effect machine region transaction operation region after (.error failure)
  | read {source : Address} {length : UInt64} {after : Transaction} {bytes : Bytes}
      {segment : Handle} {word count : Nat} (active : transaction.status = .active)
      (located : region.Located source length.toNat segment word count)
      (words : region.readWords machine transaction source ⟨segment, word⟩ [] count =
        .ok (after, .ok bytes)) :
      Effect machine region transaction (.read source length) region after (.ok (.bytes bytes))
  | write {value : Bytes} {target : Address} {segment : Handle} {word count : Nat}
      {writes : WriteSet} (active : transaction.status = .active)
      (writable : transaction.mode.isReadOnly = false)
      (located : region.Located target value.length segment word count)
      (sound : writes.Sound digest)
      (entries : writes.entries.toList =
        WriteEntry.assignWords region.config.align.toNat target.segment segment word value
          transaction.log.writes.entries.toList count) :
      Effect machine region transaction (.write value target) region
        (transaction.withWrites writes) (.ok .done)
  | alloc {size : UInt64} {segment : Segment} {id : SegmentId} {table : SegmentTable}
      (active : transaction.status = .active)
      (writable : transaction.mode.isReadOnly = false)
      (checked : Layout.checkSize size region.config.align = .ok (.ok ()))
      (created : Segment.create machine size region.config.align = .ok (.ok segment))
      (registered : region.table.register machine region.memory.segments.size size =
        .ok (id, table)) :
      Effect machine region transaction (.alloc size)
        { region with memory := (region.memory.add segment).2, table }
        { transaction with log := transaction.log.withAlloc id } (.ok (.address (.base id)))
  /-- There is a segment, but no room to log it. -/
  | unlogged {size : UInt64} {segment : Segment} {id : SegmentId} {table : SegmentTable}
      {failure : Failure} (active : transaction.status = .active)
      (writable : transaction.mode.isReadOnly = false)
      (checked : Layout.checkSize size region.config.align = .ok (.ok ()))
      (created : Segment.create machine size region.config.align = .ok (.ok segment))
      (registered : region.table.register machine region.memory.segments.size size =
        .ok (id, table))
      (full : transaction.log.recordAlloc machine id = .error failure) :
      Effect machine region transaction (.alloc size)
        { region with
          memory := (region.memory.add segment).2
          table := (table.retire id region.coordinator.clock).2 }
        transaction (.error failure)
  | free {target : Address} {segment : Handle} (active : transaction.status = .active)
      (writable : transaction.mode.isReadOnly = false)
      (live : region.table.slot? target.segment = some (.live segment)) :
      Effect machine region transaction (.free target) region
        { transaction with log := transaction.log.withFree target.segment } (.ok .done)

namespace Transaction

variable {transaction : Transaction}

theorem ensureActive_eq_ok : transaction.ensureActive = .ok () ↔ transaction.status = .active := by
  rw [ensureActive]
  cases transaction.status <;> simp

theorem ensureWritable_eq_ok {operation : String} :
    transaction.ensureWritable operation = .ok () ↔ transaction.mode.isReadOnly = false := by
  rw [ensureWritable]
  cases transaction.mode.isReadOnly <;> simp

/-- Only a transaction that is active is doomed. -/
theorem status_doom (transaction : Transaction) (failure : Failure) :
    (transaction.doom failure).status =
      if transaction.status = .active then .aborted (.ofFailure failure)
      else transaction.status := by
  unfold doom markAborted
  cases status : transaction.status <;> simp [isActive, status, Status.isAborted]

@[simp] theorem id_doom (transaction : Transaction) (failure : Failure) :
    (transaction.doom failure).id = transaction.id := by
  unfold doom markAborted
  split
  · split <;> rfl
  · rfl

@[simp] theorem snapshot_doom (transaction : Transaction) (failure : Failure) :
    (transaction.doom failure).snapshot = transaction.snapshot := by
  unfold doom markAborted
  split
  · split <;> rfl
  · rfl

@[simp] theorem log_doom (transaction : Transaction) (failure : Failure) :
    (transaction.doom failure).log = transaction.log := by
  unfold doom markAborted
  split
  · split <;> rfl
  · rfl

/-- Nothing that was doomed is active. -/
@[simp] theorem isActive_doom (transaction : Transaction) (failure : Failure) :
    (transaction.doom failure).isActive = false := by
  unfold doom markAborted
  cases status : transaction.status <;> simp [isActive, status, Status.isAborted]

end Transaction

/-- A request for memory that is refused is reported as such. -/
theorem Machine.isOutOfMemory_of_request {digest : Digest} {machine : Machine digest}
    {request : Request} {reported : UInt64} {failure : Failure}
    (refused : machine.request request reported = .error failure) :
    failure.isOutOfMemory = true := by
  rw [Machine.request] at refused
  split at refused
  next => cases refused
  next =>
    cases refused
    rfl

/-- A segment is not made for lack of memory only. -/
theorem Segment.create_refused {digest : Digest} {machine : Machine digest} {size align : UInt64}
    {failure : Failure}
    (refused : create machine size align = .ok (.error failure)) :
    failure.isOutOfMemory = true := by
  rw [create] at refused
  split at refused
  next => cases refused
  next =>
    simp only [Except.ok.injEq, bind_eq_error] at refused
    rcases refused with bytes | ⟨_, _, locks | ⟨_, _, versions | ⟨_, _, impossible⟩⟩⟩
    · exact Machine.isOutOfMemory_of_request bytes
    · exact Machine.isOutOfMemory_of_request locks
    · exact Machine.isOutOfMemory_of_request versions
    · cases impossible

/-- A segment is not registered for lack of memory, or of ids, only. -/
theorem SegmentTable.register_refused {digest : Digest} {machine : Machine digest}
    {table : SegmentTable} {segment : Handle} {size : UInt64} {failure : Failure}
    (refused : table.register machine segment size = .error failure) :
    failure.isOutOfMemory = true := by
  rw [register] at refused
  split at refused
  next =>
    cases refused
    rfl
  next =>
    rcases bind_eq_error.mp refused with full | ⟨_, _, impossible⟩
    · rw [grow] at full
      split at full
      next =>
        rcases bind_eq_error.mp full with denied | ⟨_, _, impossible⟩
        · exact Machine.isOutOfMemory_of_request denied
        · cases impossible
      next => cases full
    · cases impossible

namespace TransactionLog

variable {digest : Digest} {machine : Machine digest} {log after : TransactionLog} {id : SegmentId}
  {failure : Failure}

theorem eq_of_recordAlloc (recorded : log.recordAlloc machine id = .ok after) :
    after = log.withAlloc id := by
  simp only [recordAlloc, bind_eq_ok, pure_eq_ok] at recorded
  rcases recorded with ⟨_, _, same⟩
  exact same.symm

theorem isOutOfMemory_of_recordAlloc (refused : log.recordAlloc machine id = .error failure) :
    failure.isOutOfMemory = true := by
  rcases bind_eq_error.mp refused with full | ⟨_, _, impossible⟩
  · exact Machine.isOutOfMemory_of_request full
  · cases impossible

theorem eq_of_recordFree (recorded : log.recordFree machine id = .ok after) :
    after = log.withFree id := by
  rw [recordFree] at recorded
  split at recorded
  next =>
    rcases bind_eq_ok.mp recorded with ⟨_, _, same⟩
    exact (Except.ok.inj same).symm
  next => exact (Except.ok.inj recorded).symm

theorem isOutOfMemory_of_recordFree (refused : log.recordFree machine id = .error failure) :
    failure.isOutOfMemory = true := by
  rw [recordFree] at refused
  split at refused
  next =>
    rcases bind_eq_error.mp refused with full | ⟨_, _, impossible⟩
    · exact Machine.isOutOfMemory_of_request full
    · cases impossible
  next => cases refused

end TransactionLog

namespace Region

variable {digest : Digest} {machine : Machine digest} {region : Region} {transaction : Transaction}

/-- What the alignment check says in natural numbers. -/
theorem isAligned_eq_true {align length : UInt64} {address : Address} :
    isAligned align address length = .ok true ↔
      length.toNat ≠ 0 ∧ align.toNat ∣ length.toNat ∧ align.toNat ∣ address.offset.toNat := by
  by_cases empty : length = 0
  · simp [isAligned, empty]
  have nonempty : length.toNat ≠ 0 := fun zero => empty (UInt64.toNat_inj.mp zero)
  by_cases none : align = 0
  · simp [isAligned, empty, none, nonempty]
  · rw [isAligned, if_neg empty, if_neg none]
    simp only [Except.ok.injEq, Bool.and_eq_true, beq_iff_eq, ← UInt64.toNat_inj,
      UInt64.toNat_mod, UInt64.toNat_zero, Nat.dvd_iff_mod_eq_zero, ne_eq, nonempty,
      not_false_eq_true, true_and]

/-- A transaction that may not write is refused for that. -/
theorem Refusal.of_ensureWritable {operation : String} {failure : Failure}
    (readOnly : transaction.ensureWritable operation = .error failure) :
    region.Refusal transaction failure := by
  rw [Transaction.ensureWritable] at readOnly
  split at readOnly
  next =>
    cases readOnly
    exact .unfit rfl rfl
  next => cases readOnly

/-- A segment that is not found is gone since the snapshot, or a rule was broken. -/
theorem Refusal.of_resolve {address : Address} {failure : Failure}
    (missed : region.table.resolve address transaction.snapshot = .error failure) :
    region.Refusal transaction failure := by
  rcases SegmentTable.resolve_eq_error missed with ⟨_, _, slot, later, rfl⟩ | ⟨_, rfl⟩
  · exact .retired slot later
  · exact .unfit rfl rfl

/-- An access that is not located is refused. -/
theorem Refusal.of_locate {address : Address} {length : UInt64} {failure : Failure}
    (missed : region.locate transaction.snapshot address length = .ok (.error failure)) :
    region.Refusal transaction failure := by
  simp only [locate, bind_eq_ok] at missed
  rcases missed with ⟨aligned, _, missed⟩
  cases aligned with
  | false =>
      simp only [Bool.false_eq_true, if_false, pure_eq_ok, Except.error.injEq] at missed
      subst missed
      exact .unfit rfl rfl
  | true =>
      simp only [if_true] at missed
      split at missed
      next other resolved =>
        simp only [pure_eq_ok, Except.error.injEq] at missed
        subst missed
        exact .of_resolve resolved
      next handle resolved =>
        simp only [bind_eq_ok] at missed
        rcases missed with ⟨segment, got, missed⟩
        split at missed
        next => simp [pure_eq_ok] at missed
        next =>
          simp only [pure_eq_ok, Except.error.injEq] at missed
          subst missed
          exact .unfit rfl rfl

/-- An access that is located consists of whole words of a live segment. -/
theorem locate_ok {snapshot : Version} {address : Address} {length : UInt64} {place : Place}
    (located : region.locate snapshot address length = .ok (.ok place)) :
    region.Located address length.toNat place.segment place.word
      (length.toNat / region.config.align.toNat) := by
  simp only [locate, bind_eq_ok] at located
  rcases located with ⟨aligned, checked, located⟩
  cases aligned with
  | false => simp [pure_eq_ok] at located
  | true =>
      rcases isAligned_eq_true.mp checked with ⟨nonempty, lengthWhole, offsetWhole⟩
      have someBytes := Nat.pos_of_ne_zero nonempty
      simp only [if_true] at located
      split at located
      next => simp [pure_eq_ok] at located
      next handle resolved =>
        simp only [bind_eq_ok] at located
        rcases located with ⟨segment, got, located⟩
        split at located
        next fits =>
          simp only [pure_eq_ok, Except.ok.injEq] at located
          subst located
          constructor
          · exact SegmentTable.resolve_eq_ok_iff.mp resolved
          · exact (Nat.div_mul_cancel offsetWhole).symm
          · exact (Nat.div_mul_cancel lengthWhole).symm
          · apply Nat.div_pos (Nat.le_of_dvd someBytes lengthWhole)
            exact Nat.pos_of_dvd_of_pos lengthWhole someBytes
          · exact ⟨segment.align, segment.size, Memory.layout_of_get got, fits⟩
        next => simp [pure_eq_ok] at located

/-- An access starts at the address of its first word. -/
theorem Located.address_eq {address : Address} {length : Nat} {segment : Handle} {word count : Nat}
    (located : region.Located address length segment word count) :
    address = .ofWord region.config.align.toNat address.segment word := by
  rw [Address.ofWord, ← located.offset, UInt64.ofNat_toNat]

/-- Whole words of a live segment are located. -/
theorem Located.locate_eq {address : Address} {length : UInt64} {segment : Handle}
    {word count : Nat} (located : region.Located address length.toNat segment word count)
    (positive : 0 < region.config.align.toNat) (snapshot : Version) :
    region.locate snapshot address length = .ok (.ok ⟨segment, word⟩) := by
  rcases located.inside with ⟨align, size, laidOut, inside⟩
  have aligned : isAligned region.config.align address length = .ok true := by
    rw [isAligned_eq_true, located.whole, located.offset]
    exact ⟨Nat.ne_of_gt (Nat.mul_pos located.positive positive), Nat.dvd_mul_left _ _,
      Nat.dvd_mul_left _ _⟩
  rcases Option.map_eq_some_iff.mp laidOut with ⟨found, got, layout⟩
  cases layout
  simp only [locate, aligned, bind, Except.bind, if_true,
    SegmentTable.resolve_eq_ok_iff.mpr located.live, Memory.get, got, inside, pure, Except.pure]
  rw [located.offset, Nat.mul_div_cancel _ positive]

/-- A read of an active transaction that is located comes to the reads of its words. -/
theorem Located.perform_read {source : Address} {length : UInt64} {segment : Handle}
    {word count : Nat} (located : region.Located source length.toNat segment word count)
    (positive : 0 < region.config.align.toNat) (active : transaction.status = .active)
    (machine : Machine digest) :
    region.perform machine transaction (.read source length) = (do
      let (moved, result) ← region.readWords machine transaction source ⟨segment, word⟩ [] count
      return (region, moved.doomOn result, result.map .bytes)) := by
  have words : length.toNat / region.config.align.toNat = count := by
    rw [located.whole, Nat.mul_div_cancel _ positive]
  simp only [perform, read, tryRead, Transaction.ensureActive_eq_ok.mpr active,
    located.locate_eq positive, words, bind, Except.bind]
  cases region.readWords machine transaction source ⟨segment, word⟩ [] count <;> rfl

/-- A read returns the words that it located, or the transaction is left as it was
but for the words read. -/
theorem tryRead_ok {source : Address} {length : UInt64} {after : Transaction}
    {result : Except Failure Bytes} (sound : transaction.log.writes.Sound digest)
    (read : region.tryRead machine transaction source length = .ok (after, result)) :
    after.Alike transaction ∧
      (∀ failure, result = .error failure →
        region.Refusal transaction failure ∨ failure.isOutOfMemory = true) ∧
      ∀ bytes, result = .ok bytes → transaction.status = .active ∧ ∃ segment word count,
        region.Located source length.toNat segment word count ∧
          region.readWords machine transaction source ⟨segment, word⟩ [] count =
            .ok (after, .ok bytes) := by
  rw [tryRead] at read
  split at read
  next failure inactive =>
    cases read
    refine ⟨.refl _, ?_, by simp⟩
    rintro _ ⟨rfl⟩
    exact .inl (.inactive inactive)
  next accepted =>
    have active := Transaction.ensureActive_eq_ok.mp accepted
    simp only [bind_eq_ok] at read
    rcases read with ⟨place, located, read⟩
    cases place with
    | error failure =>
        cases read
        refine ⟨.refl _, ?_, by simp⟩
        rintro _ ⟨rfl⟩
        exact .inl (.of_locate located)
    | ok place =>
        refine ⟨readWords_alike read, ?_, ?_⟩
        · rintro failure rfl
          rw [(locate_ok located).address_eq] at read
          have verdict := readWords_verdict sound read
          split at verdict
          next hindered =>
            cases verdict
            rcases of_hitch? hindered with ⟨_, _, cell, _, rfl, found, obstacle⟩ | ⟨_, rfl⟩
            · exact .inl (.obstructed found obstacle)
            · exact .inr rfl
          next =>
            rcases verdict with ⟨_, impossible⟩
            cases impossible
        · rintro bytes rfl
          exact ⟨active, _, _, _, locate_ok located, read⟩

/-- A write assigns the words that it located; or it runs out of room, having assigned some of
them; or it changes nothing. -/
theorem tryWrite_ok {value : Bytes} {target : Address} {after : Transaction}
    {result : Except Failure Unit} (short : value.length < 2 ^ 64)
    (sound : transaction.log.writes.Sound digest)
    (written : region.tryWrite machine transaction value target = .ok (after, result)) :
    ((∃ failure, result = .error failure ∧ region.Refusal transaction failure) ∧
        after = transaction) ∨
      (transaction.status = .active ∧ transaction.mode.isReadOnly = false ∧
        ∃ segment word count writes,
          region.Located target value.length segment word count ∧
          after = transaction.withWrites writes ∧ writes.Sound digest ∧
          ((∃ failure, result = .error failure ∧ failure.isOutOfMemory = true ∧
              ∃ fewer < count, writes.entries.toList =
                WriteEntry.assignWords region.config.align.toNat target.segment segment word value
                  transaction.log.writes.entries.toList fewer) ∨
            result = .ok () ∧ writes.entries.toList =
              WriteEntry.assignWords region.config.align.toNat target.segment segment word value
                transaction.log.writes.entries.toList count)) := by
  rw [tryWrite] at written
  split at written
  next ended =>
    simp only [pure_eq_ok, Prod.mk.injEq] at written
    exact .inl ⟨⟨_, written.2.symm, .inactive ended⟩, written.1.symm⟩
  next readOnly =>
    simp only [pure_eq_ok, Prod.mk.injEq] at written
    exact .inl ⟨⟨_, written.2.symm, .of_ensureWritable readOnly⟩, written.1.symm⟩
  next accepted allowed =>
    simp only [bind_eq_ok] at written
    rcases written with ⟨place, located, written⟩
    cases place with
    | error failure =>
        simp only [pure_eq_ok, Prod.mk.injEq] at written
        exact .inl ⟨⟨_, written.2.symm, .of_locate located⟩, written.1.symm⟩
    | ok place =>
        have active := Transaction.ensureActive_eq_ok.mp accepted
        have writable := Transaction.ensureWritable_eq_ok.mp allowed
        have whole := locate_ok located
        rw [UInt64.toNat_ofNat_of_lt' short] at whole
        rw [whole.address_eq, pure_eq_ok] at written
        rcases writeWords_eq sound writable machine region target.segment place.segment place.word
          (value.length / region.config.align.toNat) value with ⟨writes, kept, entries, recorded⟩
        rw [recorded, Prod.mk.injEq] at written
        rcases written with ⟨rfl, rfl⟩
        refine .inr ⟨active, writable, _, _, _, writes, whole, rfl, kept, ?_⟩
        rw [entries]
        cases enough : (WriteEntry.recordWords machine region.config.align.toNat target.segment
            place.segment place.word value transaction.log.writes.entries.toList
            (value.length / region.config.align.toNat)).2 with
        | ok => exact .inr ⟨rfl, WriteEntry.recordWords_ok enough⟩
        | error failure =>
            rcases WriteEntry.recordWords_error enough with ⟨rfl, fewer, less, assigned, _⟩
            exact .inl ⟨_, rfl, rfl, fewer, less, assigned⟩

/-- A segment that is added was made and registered. -/
theorem addSegment_ok {size : UInt64} {larger : Region} {id : SegmentId}
    (added : region.addSegment machine size = .ok (.ok (larger, id))) :
    ∃ segment table, Segment.create machine size region.config.align = .ok (.ok segment) ∧
      region.table.register machine region.memory.segments.size size = .ok (id, table) ∧
      larger = { region with memory := (region.memory.add segment).2, table } := by
  simp only [addSegment, bind_eq_ok] at added
  rcases added with ⟨made, created, added⟩
  cases made with
  | error failure => cases added
  | ok segment =>
      simp only at added
      split at added
      next => cases added
      next registered =>
        cases added
        exact ⟨segment, _, created, registered, rfl⟩

/-- No segment is added only if there is no memory for it or its slot, or no id. -/
theorem addSegment_refused {size : UInt64} {failure : Failure}
    (refused : region.addSegment machine size = .ok (.error failure)) :
    failure.isOutOfMemory = true := by
  simp only [addSegment, bind_eq_ok] at refused
  rcases refused with ⟨made, created, refused⟩
  cases made with
  | error denied =>
      cases refused
      exact Segment.create_refused created
  | ok segment =>
      simp only at refused
      split at refused
      next full =>
        cases refused
        exact SegmentTable.register_refused full
      next => cases refused

/-- An allocation adds a segment, or changes nothing; or it adds a segment that cannot be logged
and is retired again. -/
theorem tryAlloc_ok {size : UInt64} {larger : Region} {after : Transaction}
    {result : Except Failure Address}
    (allocated : region.tryAlloc machine transaction size = .ok (larger, after, result)) :
    ((∃ failure, result = .error failure ∧
        (region.Refusal transaction failure ∨ failure.isOutOfMemory = true)) ∧
        larger = region ∧ after = transaction) ∨
      (transaction.status = .active ∧ transaction.mode.isReadOnly = false ∧
        Layout.checkSize size region.config.align = .ok (.ok ()) ∧
        ∃ segment id table, Segment.create machine size region.config.align = .ok (.ok segment) ∧
          region.table.register machine region.memory.segments.size size = .ok (id, table) ∧
          ((larger = { region with memory := (region.memory.add segment).2, table } ∧
              after = { transaction with log := transaction.log.withAlloc id } ∧
              result = .ok (.base id)) ∨
            ∃ failure, transaction.log.recordAlloc machine id = .error failure ∧
              larger = { region with
                memory := (region.memory.add segment).2
                table := (table.retire id region.coordinator.clock).2 } ∧
              after = transaction ∧ result = .error failure)) := by
  rw [tryAlloc] at allocated
  split at allocated
  next ended =>
    cases allocated
    exact .inl ⟨⟨_, rfl, .inl (.inactive ended)⟩, rfl, rfl⟩
  next readOnly =>
    cases allocated
    exact .inl ⟨⟨_, rfl, .inl (.of_ensureWritable readOnly)⟩, rfl, rfl⟩
  next accepted allowed =>
    simp only [bind_eq_ok] at allocated
    rcases allocated with ⟨fits, checked, allocated⟩
    cases fits with
    | error error =>
        cases allocated
        exact .inl ⟨⟨_, rfl, .inl (.unfit rfl rfl)⟩, rfl, rfl⟩
    | ok =>
        simp only [bind_eq_ok] at allocated
        rcases allocated with ⟨made, added, allocated⟩
        cases made with
        | error failure =>
            cases allocated
            exact .inl ⟨⟨_, rfl, .inr (addSegment_refused added)⟩, rfl, rfl⟩
        | ok entry =>
            rcases entry with ⟨grown, id⟩
            rcases addSegment_ok added with ⟨segment, table, created, registered, rfl⟩
            refine .inr ⟨Transaction.ensureActive_eq_ok.mp accepted,
              Transaction.ensureWritable_eq_ok.mp allowed, checked, segment, id, table, created,
              registered, ?_⟩
            simp only at allocated
            split at allocated
            next failure full =>
              cases allocated
              exact .inr ⟨failure, full, rfl, rfl, rfl⟩
            next log logged =>
              cases allocated
              rw [TransactionLog.eq_of_recordAlloc logged]
              exact .inl ⟨rfl, rfl, rfl⟩

/-- A free is scheduled for a live segment, or changes nothing. -/
theorem tryFree_ok {target : Address} {after : Transaction} {result : Except Failure Unit}
    (freed : region.tryFree machine transaction target = (after, result)) :
    ((∃ failure, result = .error failure ∧
        (region.Refusal transaction failure ∨ failure.isOutOfMemory = true)) ∧
        after = transaction) ∨
      (transaction.status = .active ∧ transaction.mode.isReadOnly = false ∧
        (∃ segment, region.table.slot? target.segment = some (.live segment)) ∧
        after = { transaction with log := transaction.log.withFree target.segment } ∧
        result = .ok ()) := by
  rw [tryFree] at freed
  split at freed
  next ended =>
    cases freed
    exact .inl ⟨⟨_, rfl, .inl (.inactive ended)⟩, rfl⟩
  next readOnly =>
    cases freed
    exact .inl ⟨⟨_, rfl, .inl (.of_ensureWritable readOnly)⟩, rfl⟩
  next accepted allowed =>
    split at freed
    next =>
      cases freed
      exact .inl ⟨⟨_, rfl, .inl (.unfit rfl rfl)⟩, rfl⟩
    next =>
      split at freed
      next =>
        cases freed
        exact .inl ⟨⟨_, rfl, .inl (.unfit rfl rfl)⟩, rfl⟩
      next =>
        split at freed
        next missed =>
          cases freed
          exact .inl ⟨⟨_, rfl, .inl (.of_resolve missed)⟩, rfl⟩
        next segment resolved =>
          rw [SegmentTable.get, SegmentTable.resolve_eq_ok_iff] at resolved
          split at freed
          next full =>
            cases freed
            exact .inl ⟨⟨_, rfl, .inr (TransactionLog.isOutOfMemory_of_recordFree full)⟩, rfl⟩
          next log logged =>
            cases freed
            rw [TransactionLog.eq_of_recordFree logged]
            exact .inr ⟨Transaction.ensureActive_eq_ok.mp accepted,
              Transaction.ensureWritable_eq_ok.mp allowed, ⟨segment, resolved⟩, rfl, rfl⟩

/-- A failure for which the transaction is doomed. -/
theorem Effect.doomed {operation : Operation} {after : Transaction} {failure : Failure}
    (id : after.id = transaction.id) (snapshot : after.snapshot = transaction.snapshot)
    (status : after.status = transaction.status)
    (allocated : after.log.allocated = transaction.log.allocated)
    (freed : after.log.freed = transaction.log.freed)
    (writes : region.Leaves digest operation transaction.log.writes after.log.writes)
    (refusal : region.Refusal transaction failure ∨ failure.isOutOfMemory = true)
    (hit : operation.spares failure = false) :
    Effect machine region transaction operation region (after.doom failure) (.error failure) := by
  apply Effect.failed
  · simpa using id
  · simpa using allocated
  · simpa using freed
  · simpa using writes
  · exact .inr (by simp)
  · exact refusal
  · rw [Transaction.status_doom, status]
    split
    next => exact .inr ⟨rfl, hit⟩
    next => exact .inl rfl
  · simpa using snapshot

/-- A failure that changed nothing but the words read, and for which the transaction is
doomed. -/
theorem Effect.doomed_alike {operation : Operation} {after : Transaction} {failure : Failure}
    (sound : transaction.log.writes.Sound digest) (alike : after.Alike transaction)
    (refusal : region.Refusal transaction failure ∨ failure.isOutOfMemory = true)
    (hit : operation.spares failure = false) :
    Effect machine region transaction operation region (after.doom failure) (.error failure) :=
  .doomed alike.id alike.snapshot alike.status alike.allocated alike.freed
    (.of_alike sound alike.writes) refusal hit

/-- Every operation has one of the effects. -/
theorem perform_effect {operation : Operation} {larger : Region} {after : Transaction}
    {result : Except Failure Reply} (sized : operation.Sized)
    (sound : transaction.log.writes.Sound digest)
    (performed : region.perform machine transaction operation = .ok (larger, after, result)) :
    Effect machine region transaction operation larger after result := by
  cases operation with
  | read source length =>
      simp only [perform, read, bind_eq_ok, pure_eq_ok, Prod.exists, Prod.mk.injEq] at performed
      rcases performed with ⟨_, _, ⟨middle, answer, tried, rfl, rfl⟩, rfl, rfl, rfl⟩
      rcases tryRead_ok sound tried with ⟨alike, refused, succeeded⟩
      cases answer with
      | error failure => exact .doomed_alike sound alike (refused failure rfl) rfl
      | ok bytes =>
          rcases succeeded bytes rfl with ⟨active, segment, word, count, located, words⟩
          exact .read active located words
  | write value target =>
      simp only [perform, write, bind_eq_ok, pure_eq_ok, Prod.exists, Prod.mk.injEq] at performed
      rcases performed with ⟨_, _, ⟨middle, answer, tried, rfl, rfl⟩, rfl, rfl, rfl⟩
      rcases tryWrite_ok sized sound tried with ⟨⟨failure, rfl, refusal⟩, rfl⟩ |
        ⟨active, writable, segment, word, count, writes, located, rfl, kept,
          ⟨failure, rfl, memory, fewer, less, entries⟩ | ⟨rfl, entries⟩⟩
      · exact .doomed_alike sound (.refl _) (.inl refusal) rfl
      · refine .doomed rfl rfl rfl rfl rfl ⟨kept, .inr ?_⟩ (.inr memory) rfl
        exact ⟨value, target, segment, word, count, fewer, rfl, located, less, entries⟩
      · exact .write active writable located kept entries
  | alloc size =>
      simp only [perform, alloc, bind_eq_ok, Prod.exists] at performed
      rcases performed with ⟨region', middle, answer, ⟨_, _, _, tried, allocated⟩, performed⟩
      rcases tryAlloc_ok tried with ⟨⟨failure, rfl, refusal⟩, rfl, rfl⟩ |
        ⟨active, writable, checked, segment, id, table, created, registered,
          ⟨rfl, rfl, rfl⟩ | ⟨failure, full, rfl, rfl, rfl⟩⟩
      · simp only at allocated
        split at allocated
        next =>
          cases allocated
          cases performed
          exact .failed rfl rfl rfl (.of_alike sound (.refl _)) (.inl rfl) refusal (.inl rfl) rfl
        next enough =>
          cases allocated
          cases performed
          exact .doomed_alike sound (.refl _) refusal (Bool.eq_false_iff.mpr enough)
      · cases allocated
        cases performed
        exact .alloc active writable checked created registered
      · have memory := TransactionLog.isOutOfMemory_of_recordAlloc full
        simp only [memory, if_true, pure_eq_ok, Prod.mk.injEq] at allocated
        rcases allocated with ⟨rfl, rfl, rfl⟩
        cases performed
        exact .unlogged active writable checked created registered full
  | free target =>
      simp only [perform, free, pure_eq_ok, Prod.mk.injEq] at performed
      rcases performed with ⟨rfl, rfl, rfl⟩
      cases tried : region.tryFree machine transaction target with
      | mk middle answer =>
          rcases tryFree_ok tried with ⟨⟨failure, rfl, refusal⟩, rfl⟩ |
            ⟨active, writable, ⟨segment, live⟩, rfl, rfl⟩
          · exact .doomed_alike sound (.refl _) refusal rfl
          · exact .free active writable live

end Region

end WordStm
