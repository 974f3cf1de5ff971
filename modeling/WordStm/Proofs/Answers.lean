import WordStm.Proofs.Keeping

/-!
# What operations answer

What an operation answers is decided by the region, the snapshot of its
transaction, its status, what it wrote and how long its log is, and by the
requests for memory that are granted meanwhile; the filter, which only saves scans,
has no say in it.  An answer that is no lack of memory is the one that a machine
gives which grants everything.
-/

namespace WordStm

/-- The result is not a lack of memory. -/
def Spared {α : Type} (result : Except Failure α) : Prop :=
  ∀ failure, result = .error failure → failure.isOutOfMemory = false

namespace Spared

variable {α β : Type} {result : Except Failure α} {first second : α → Except Failure β}

/-- What comes after is spared as well. -/
theorem bind_congr (spared : Spared (result >>= first))
    (rest : ∀ value, result = .ok value → Spared (first value) → first value = second value) :
    result >>= first = result >>= second := by
  cases result with
  | error failure => rfl
  | ok value => exact rest value rfl spared

/-- What only a lack of memory can make fail has not failed. -/
theorem ok_of_bind (spared : Spared (result >>= first))
    (short : ∀ failure, result = .error failure → failure.isOutOfMemory = true) :
    ∃ value, result = .ok value ∧ Spared (first value) := by
  cases result with
  | error failure =>
      have memory := short failure rfl
      rw [spared failure rfl] at memory
      cases memory
  | ok value => exact ⟨value, rfl, spared⟩

end Spared

/-- What goes wrong first does not depend on what may go wrong, unless it is itself something that
only may go wrong. -/
theorem findSome?_eq_or {α β : Type} {f g : α → Option β} {bad : β → Prop}
    (alike : ∀ value, f value = g value ∨ ∃ fault, f value = some fault ∧ bad fault)
    (values : List α) :
    values.findSome? f = values.findSome? g ∨
      ∃ fault, values.findSome? f = some fault ∧ bad fault := by
  induction values with
  | nil => exact .inl rfl
  | cons first rest ih =>
      rw [List.findSome?_cons, List.findSome?_cons]
      rcases alike first with same | ⟨fault, found, spoiled⟩
      · rw [same]
        cases g first with
        | some fault => exact .inl rfl
        | none => exact ih
      · rw [found]
        exact .inr ⟨fault, rfl, spoiled⟩

/-- Whether a segment is made is always decided. -/
theorem Segment.create_total {align : UInt64} (nonzero : align ≠ 0) (machine : Machine digest)
    (size : UInt64) : ∃ result, create machine size align = .ok result := by
  rw [create, dif_neg nonzero]
  exact ⟨_, rfl⟩

namespace Region

variable {digest : Digest} {machine : Machine digest} {region after : Region}
  {transaction moved : Transaction}
  {operation : Operation} {result : Except Failure Reply} {id : SegmentId} {segment : Handle}

/-- The first word of an access, or why there is none. -/
def placeOf (region : Region) (snapshot : Version) (address : Address) (length : UInt64) :
    Except Failure Place :=
  if isAligned region.config.align address length = .ok true then do
    let segment ← region.table.resolve address snapshot
    let size := ((region.memory.layout segment).map (·.2)).getD 0
    if address.offset.toNat + length.toNat ≤ size then
      return ⟨segment, address.offset.toNat / region.config.align.toNat⟩
    else .error (.usage (.outOfBounds address length (UInt64.ofNat size)))
  else .error (.usage (.misaligned address length region.config.align))

/-- What a transaction has for some words of a segment in a row: the values that it wrote, or
else the bytes in memory. -/
def contents (region : Region) (transaction : Transaction) (id : SegmentId) (segment : Handle)
    (word count : Nat) : Bytes :=
  (List.range' word count).flatMap fun position =>
    (WriteEntry.value? transaction.log.writes.entries.toList
        (.ofWord region.config.align.toNat id position)).getD
      (((region.memory.cell? ⟨segment, position⟩).map (·.bytes)).getD [])

/-- Whether a segment of some bytes can be made and registered. -/
def roomFor (machine : Machine digest) (region : Region) (size : UInt64) : Except Failure Unit :=
  match region.addSegment machine size with
  | .ok (.error failure) => .error failure
  | _ => .ok ()

/-- What an operation answers. -/
def answer (machine : Machine digest) (region : Region) (transaction : Transaction) :
    Operation → Except Failure Reply
  | .read source length => do
      transaction.ensureActive
      let place ← region.placeOf transaction.snapshot source length
      let count := length.toNat / region.config.align.toNat
      match region.hitch? machine transaction source.segment place.segment place.word count with
      | some failure => .error failure
      | none =>
          return .bytes (region.contents transaction source.segment place.segment place.word count)
  | .write value target => do
      transaction.ensureActive
      transaction.ensureWritable "write"
      let place ← region.placeOf transaction.snapshot target (UInt64.ofNat value.length)
      let align := region.config.align.toNat
      (WriteEntry.recordWords machine align target.segment place.segment place.word value
        transaction.log.writes.entries.toList (value.length / align)).2
      return .done
  | .alloc size => do
      transaction.ensureActive
      transaction.ensureWritable "alloc"
      match Layout.checkSize size region.config.align with
      | .ok (.error error) => .error error.toFailure
      | _ =>
          region.roomFor machine size
          machine.makeRoom SegmentId.bytes transaction.log.allocated.size
          return .address (.base ⟨UInt32.ofNat region.table.slots.size⟩)
  | .free target => (region.tryFree machine transaction target).2.map fun _ => .done

theorem LaidOutUnlocked.align_ne_zero (laid : region.LaidOutUnlocked) :
    region.config.align ≠ 0 := by
  intro zero
  exact absurd laid.align_pos (by simp [zero])

/-- Locating an access always has an outcome. -/
theorem LaidOutUnlocked.locate_eq (laid : region.LaidOutUnlocked) (snapshot : Version)
    (address : Address) (length : UInt64) :
    region.locate snapshot address length = .ok (region.placeOf snapshot address length) := by
  have nonzero := laid.align_ne_zero
  rw [locate, placeOf]
  cases aligned : isAligned region.config.align address length with
  | error fault =>
      rw [isAligned, if_neg nonzero] at aligned
      split at aligned <;> cases aligned
  | ok whole =>
      cases whole with
      | false => rfl
      | true =>
          simp only [bind, Except.bind, if_true]
          cases resolved : region.table.resolve address snapshot with
          | error failure => rfl
          | ok segment =>
              have registered := SegmentTable.registered?_of_live
                (SegmentTable.resolve_eq_ok_iff.mp resolved)
              have inside : segment < region.memory.segments.size :=
                ((laid.valid.registered _ _).mp registered).2
              simp only [Memory.get, Memory.layout, Array.getElem?_eq_getElem inside,
                Option.map_some, Option.getD_some]
              split <;> rfl

/-- An access that has a place is located. -/
theorem LaidOutUnlocked.located (laid : region.LaidOutUnlocked) {snapshot : Version}
    {address : Address} {length : UInt64} {place : Place}
    (placed : region.placeOf snapshot address length = .ok place) :
    region.Located address length.toNat place.segment place.word
      (length.toNat / region.config.align.toNat) := by
  have located : region.locate snapshot address length = .ok (.ok place) := by
    rw [laid.locate_eq, placed]
  exact locate_ok located

/-- The words of an access that is located are there. -/
theorem LaidOutUnlocked.present (laid : region.LaidOutUnlocked) {address : Address}
    {length word count : Nat} (located : region.Located address length segment word count) :
    ∀ position, word ≤ position → position < word + count →
      ∃ cell, region.memory.cell? ⟨segment, position⟩ = some cell :=
  fun _ _ below => (Names.of_located located.late laid.valid below).cell laid.valid

/-- A cell is as long as a word. -/
theorem LaidOutUnlocked.length_eq (laid : region.LaidOutUnlocked) {place : Place} {cell : Cell}
    (found : region.memory.cell? place = some cell) :
    cell.bytes.length = region.config.align.toNat := by
  have here : region.memory.cell? ⟨place.segment, place.word⟩ = some cell := found
  rcases laid.valid.word_inside here with ⟨_, _, _, _, length⟩
  exact length

/-- Words that are read in a row are what the transaction has for them. -/
theorem readWords_contents {word count : Nat} {done : List Bytes} {bytes : Bytes}
    (sound : transaction.log.writes.Sound digest)
    (quiet : transaction.mode.isReadOnly = true → transaction.log.writes.entries = #[])
    (sized : ∀ place cell, region.memory.cell? place = some cell →
      cell.bytes.length = region.config.align.toNat)
    (read : region.readWords machine transaction (.ofWord region.config.align.toNat id word)
      ⟨segment, word⟩ done count = .ok (moved, .ok bytes)) :
    bytes = done.reverse.flatten ++ region.contents transaction id segment word count := by
  induction count generalizing transaction word done with
  | zero =>
      cases read
      simp [contents]
  | succ count ih =>
      rcases readWords_succ_ok read with ⟨middle, value, one, rest⟩
      have alike := Transaction.readWord_alike one
      rcases (Transaction.readWord_ok sound quiet one).1 with ⟨cell, found, _, valueEq⟩
      have whole : cell.bytes.take region.config.align.toNat = cell.bytes :=
        List.take_of_length_le (Nat.le_of_eq (sized _ cell found))
      have behind := ih (alike.writes.sound sound)
        (by rw [alike.mode, alike.writes.entries]; exact quiet) rest
      rw [behind, contents, contents, List.range'_succ, List.flatMap_cons, found,
        alike.writes.entries, valueEq]
      simp [whole, sized _ cell found]

/-- Whether a segment is added is always decided. -/
theorem addSegment_total (nonzero : region.config.align ≠ 0) (size : UInt64) :
    ∃ made, region.addSegment machine size = .ok made := by
  rcases Segment.create_total nonzero machine size with ⟨segment, created⟩
  simp only [addSegment, created, bind, Except.bind]
  cases segment with
  | error failure => exact ⟨_, rfl⟩
  | ok segment =>
      simp only [Memory.add]
      cases region.table.register machine region.memory.segments.size size <;> exact ⟨_, rfl⟩

/-- Whether an allocation succeeds is always decided. -/
theorem LaidOutUnlocked.tryAlloc_total (laid : region.LaidOutUnlocked) (machine : Machine digest)
    (transaction : Transaction) (size : UInt64) : ∃ larger middle answer,
      region.tryAlloc machine transaction size = .ok (larger, middle, answer) := by
  rw [tryAlloc]
  split
  next => exact ⟨_, _, _, rfl⟩
  next => exact ⟨_, _, _, rfl⟩
  next =>
    rcases Layout.checkSize_of_pos size laid.align_ne_zero with ⟨fits, checked⟩
    have added : ∃ made, region.addSegment machine size = .ok made :=
      addSegment_total laid.align_ne_zero size
    rcases added with ⟨made, added⟩
    simp only [checked, added, bind, Except.bind]
    cases fits with
    | error error => exact ⟨_, _, _, rfl⟩
    | ok =>
        cases made with
        | error failure => exact ⟨_, _, _, rfl⟩
        | ok entry =>
            simp only
            split <;> exact ⟨_, _, _, rfl⟩

/-- An operation has an answer. -/
theorem LaidOutUnlocked.perform_total (laid : region.LaidOutUnlocked)
    (kept : transaction.LogValid digest region) (machine : Machine digest) (operation : Operation) :
    ∃ after moved result,
      region.perform machine transaction operation = .ok (after, moved, result) := by
  cases operation with
  | read source length =>
      simp only [perform, read, tryRead]
      cases accepted : transaction.ensureActive with
      | error failure => exact ⟨_, _, _, rfl⟩
      | ok =>
          have active := Transaction.ensureActive_eq_ok.mp accepted
          simp only [laid.locate_eq, bind, Except.bind]
          cases placed : region.placeOf transaction.snapshot source length with
          | error failure => exact ⟨_, _, _, rfl⟩
          | ok place =>
              rcases readWords_total [] kept.sound (laid.present (laid.located placed))
                (kept.whole active) machine source with ⟨after, result, words⟩
              simp only [words]
              exact ⟨_, _, _, rfl⟩
  | write value target =>
      simp only [perform, write, tryWrite]
      split
      next => exact ⟨_, _, _, rfl⟩
      next => exact ⟨_, _, _, rfl⟩
      next =>
        simp only [laid.locate_eq, bind, Except.bind]
        cases region.placeOf transaction.snapshot target (UInt64.ofNat value.length) <;>
          exact ⟨_, _, _, rfl⟩
  | alloc size =>
      rcases laid.tryAlloc_total machine transaction size with ⟨larger, middle, answer, tried⟩
      simp only [perform, alloc, tried, bind, Except.bind]
      cases answer with
      | error failure =>
          cases memory : failure.isOutOfMemory with
          | true =>
              simp only [memory, if_true]
              exact ⟨_, _, _, rfl⟩
          | false =>
              simp only [memory, Bool.false_eq_true, if_false]
              exact ⟨_, _, _, rfl⟩
      | ok address => exact ⟨_, _, _, rfl⟩
  | free target => exact ⟨_, _, _, rfl⟩

/-- A read answers what there is to read. -/
theorem LaidOutUnlocked.tryRead_answer (laid : region.LaidOutUnlocked)
    (kept : transaction.LogValid digest region)
    {source : Address} {length : UInt64} {answer : Except Failure Bytes}
    (read : region.tryRead machine transaction source length = .ok (moved, answer)) :
    answer.map .bytes = region.answer machine transaction (.read source length) := by
  simp only [tryRead] at read
  rw [Region.answer]
  cases accepted : transaction.ensureActive with
  | error failure =>
      rw [accepted] at read
      cases read
      rfl
  | ok =>
      have active := Transaction.ensureActive_eq_ok.mp accepted
      simp only [accepted, laid.locate_eq, bind, Except.bind] at read ⊢
      cases placed : region.placeOf transaction.snapshot source length with
      | error failure =>
          rw [placed] at read
          cases read
          rfl
      | ok place =>
          simp only [placed] at read ⊢
          rw [(laid.located placed).address_eq] at read
          have verdict := readWords_verdict kept.sound read
          cases hitch : region.hitch? machine transaction source.segment place.segment
              place.word (length.toNat / region.config.align.toNat) with
          | some failure =>
              rw [hitch] at verdict
              rw [verdict]
              rfl
          | none =>
              rw [hitch] at verdict
              rcases verdict with ⟨bytes, rfl⟩
              rw [readWords_contents kept.sound (fun readOnly => (kept.quiet active readOnly).1)
                (fun _ _ found => laid.length_eq found) read]
              rfl

/-- A write answers whether it could be buffered. -/
theorem LaidOutUnlocked.tryWrite_answer (laid : region.LaidOutUnlocked)
    (kept : transaction.LogValid digest region)
    {value : Bytes} {target : Address} {answer : Except Failure Unit}
    (written : region.tryWrite machine transaction value target = .ok (moved, answer)) :
    (answer.map fun _ => Reply.done) =
      region.answer machine transaction (.write value target) := by
  simp only [tryWrite] at written
  rw [Region.answer]
  cases accepted : transaction.ensureActive with
  | error failure =>
      rw [accepted] at written
      cases written
      rfl
  | ok =>
      cases allowed : transaction.ensureWritable "write" with
      | error failure =>
          rw [accepted, allowed] at written
          cases written
          rfl
      | ok =>
          have writable := Transaction.ensureWritable_eq_ok.mp allowed
          simp only [accepted, allowed, laid.locate_eq, bind, Except.bind] at written ⊢
          cases placed : region.placeOf transaction.snapshot target (UInt64.ofNat value.length) with
          | error failure =>
              rw [placed] at written
              cases written
              rfl
          | ok place =>
              simp only [placed] at written ⊢
              rcases writeWords_eq kept.sound writable machine region target.segment place.segment
                place.word (value.length / region.config.align.toNat) value with
                ⟨writes, _, _, recorded⟩
              rw [(laid.located placed).address_eq, recorded] at written
              cases written
              cases (WriteEntry.recordWords machine region.config.align.toNat target.segment
                place.segment place.word value transaction.log.writes.entries.toList
                (value.length / region.config.align.toNat)).2 <;> rfl

/-- What stands in the way of a segment is a lack of memory, or of ids. -/
theorem isOutOfMemory_of_roomFor {size : UInt64} {failure : Failure}
    (short : region.roomFor machine size = .error failure) : failure.isOutOfMemory = true := by
  rw [roomFor] at short
  split at short
  next refused =>
    cases short
    exact addSegment_refused refused
  next => cases short

/-- Memory runs out only on an allocation that nothing else stands in the way of. -/
theorem LaidOutUnlocked.entitled_of_starved (laid : region.LaidOutUnlocked) {size : UInt64}
    {failure : Failure}
    (sober : ∀ cause, transaction.ensureActive = .error cause → cause.isOutOfMemory = false)
    (short : region.answer machine transaction (.alloc size) = .error failure)
    (memory : failure.isOutOfMemory = true) :
    transaction.status = .active ∧ transaction.mode.isReadOnly = false ∧
      Layout.checkSize size region.config.align = .ok (.ok ()) := by
  rw [answer] at short
  cases accepted : transaction.ensureActive with
  | error cause =>
      rw [accepted] at short
      cases short
      rw [sober failure accepted] at memory
      cases memory
  | ok =>
      cases allowed : transaction.ensureWritable "alloc" with
      | error cause =>
          rw [accepted, allowed] at short
          cases short
          rw [Transaction.ensureWritable] at allowed
          split at allowed <;> cases allowed
          cases memory
      | ok =>
          rcases Layout.checkSize_of_pos size laid.align_ne_zero with ⟨fits, checked⟩
          cases fits with
          | error error =>
              rw [accepted, allowed, checked] at short
              cases short
              cases memory
          | ok =>
              exact ⟨Transaction.ensureActive_eq_ok.mp accepted,
                Transaction.ensureWritable_eq_ok.mp allowed, checked⟩

/-- What an active transaction gets for a segment of a size that fits. -/
theorem perform_alloc_eq {size : UInt64} {made : Except Failure (Region × SegmentId)}
    (active : transaction.status = .active) (writable : transaction.mode.isReadOnly = false)
    (checked : Layout.checkSize size region.config.align = .ok (.ok ()))
    (added : region.addSegment machine size = .ok made) :
    region.perform machine transaction (.alloc size) = .ok (
      match made with
      | .error failure => (region, transaction, .error failure)
      | .ok (larger, id) =>
          match machine.makeRoom SegmentId.bytes transaction.log.allocated.size with
          | .error failure =>
              ({ larger with table := (larger.table.retire id larger.coordinator.clock).2 },
                transaction, .error failure)
          | .ok () =>
              (larger, { transaction with log := transaction.log.withAlloc id },
                .ok (.address (.base id)))) := by
  have allowed : transaction.ensureWritable "alloc" = .ok () :=
    Transaction.ensureWritable_eq_ok.mpr writable
  simp only [perform, alloc, tryAlloc, Transaction.ensureActive_eq_ok.mpr active, allowed, checked,
    added, bind, Except.bind]
  cases made with
  | error failure =>
      have memory : failure.isOutOfMemory = true := by
        have short : region.roomFor machine size = .error failure := by
          rw [roomFor, added]
        exact isOutOfMemory_of_roomFor short
      simp only [memory, pure, Except.pure, if_true]
      rfl
  | ok entry =>
      simp only [TransactionLog.recordAlloc, bind, Except.bind]
      cases room : machine.makeRoom SegmentId.bytes transaction.log.allocated.size with
      | error failure =>
          have memory : failure.isOutOfMemory = true := by
            rw [Machine.eq_of_makeRoom room]
            rfl
          simp only [memory, pure, Except.pure, if_true]
          rfl
      | ok => rfl

/-- An allocation answers the next id, unless memory runs out. -/
theorem LaidOutUnlocked.tryAlloc_answer (laid : region.LaidOutUnlocked) {size : UInt64}
    {answer : Except Failure Address}
    (allocated : region.tryAlloc machine transaction size = .ok (after, moved, answer)) :
    answer.map .address = region.answer machine transaction (.alloc size) := by
  simp only [tryAlloc] at allocated
  rw [Region.answer]
  cases accepted : transaction.ensureActive with
  | error failure =>
      rw [accepted] at allocated
      cases allocated
      rfl
  | ok =>
      cases allowed : transaction.ensureWritable "alloc" with
      | error failure =>
          rw [accepted, allowed] at allocated
          cases allocated
          rfl
      | ok =>
          rcases Layout.checkSize_of_pos size laid.align_ne_zero with ⟨fits, checked⟩
          simp only [accepted, allowed, checked, bind, Except.bind] at allocated ⊢
          cases fits with
          | error error =>
              cases allocated
              rfl
          | ok =>
              cases added : region.addSegment machine size with
              | error fault =>
                  rw [added] at allocated
                  cases allocated
              | ok result =>
                  rw [added] at allocated
                  rw [roomFor, added]
                  cases result with
                  | error failure =>
                      cases allocated
                      rfl
                  | ok entry =>
                      have named : entry.2 = ⟨UInt32.ofNat region.table.slots.size⟩ := by
                        rcases addSegment_ok added with ⟨_, _, _, registered, _⟩
                        rw [← (SegmentTable.register_ok registered).1]
                        exact congrArg SegmentId.mk UInt32.ofNat_toNat.symm
                      simp only [TransactionLog.recordAlloc, bind, Except.bind] at allocated ⊢
                      cases room : machine.makeRoom SegmentId.bytes
                          transaction.log.allocated.size with
                      | error failure =>
                          rw [room] at allocated
                          cases allocated
                          rfl
                      | ok =>
                          rw [room] at allocated
                          cases allocated
                          rw [named]
                          rfl

/-- Every operation answers what is to be answered. -/
theorem LaidOutUnlocked.perform_answer (laid : region.LaidOutUnlocked)
    (kept : transaction.LogValid digest region)
    (performed : region.perform machine transaction operation = .ok (after, moved, result)) :
    result = region.answer machine transaction operation := by
  cases operation with
  | read source length =>
      simp only [perform, read, bind_eq_ok, pure_eq_ok, Prod.exists, Prod.mk.injEq] at performed
      rcases performed with ⟨_, _, ⟨middle, answer, tried, rfl, rfl⟩, _, _, rfl⟩
      exact laid.tryRead_answer kept tried
  | write value target =>
      simp only [perform, write, bind_eq_ok, pure_eq_ok, Prod.exists, Prod.mk.injEq] at performed
      rcases performed with ⟨_, _, ⟨middle, answer, tried, rfl, rfl⟩, _, _, rfl⟩
      exact laid.tryWrite_answer kept tried
  | alloc size =>
      simp only [perform, alloc, bind_eq_ok, pure_eq_ok, Prod.exists, Prod.mk.injEq] at performed
      rcases performed with ⟨_, _, answer, ⟨_, _, last, tried, allocated⟩, _, _, rfl⟩
      have same : answer = last := by
        cases last with
        | error failure =>
            simp only at allocated
            split at allocated
            next => exact (Prod.mk.inj (Prod.mk.inj (Except.ok.inj allocated)).2).2.symm
            next => exact (Prod.mk.inj (Prod.mk.inj (Except.ok.inj allocated)).2).2.symm
        | ok address => exact (Prod.mk.inj (Prod.mk.inj (Except.ok.inj allocated)).2).2.symm
      rw [same]
      exact laid.tryAlloc_answer tried
  | free target =>
      simp only [perform, free, pure_eq_ok, Prod.mk.injEq] at performed
      exact performed.2.2.symm

section Unlimited

/-- With memory enough, a segment can be added as long as there are ids. -/
theorem LaidOutUnlocked.roomFor_unlimited (laid : region.LaidOutUnlocked) (size : UInt64) :
    region.roomFor (.unlimited digest) size =
      if region.table.slots.size > maxSegmentId.toNat then .error (.outOfMemory size)
      else .ok () := by
  have created : ∃ segment,
      Segment.create (.unlimited digest) size region.config.align = .ok (.ok segment) := by
    rw [Segment.create, dif_neg laid.align_ne_zero]
    exact ⟨_, rfl⟩
  rcases created with ⟨segment, created⟩
  have grown : ∃ roomy, region.table.grow (.unlimited digest) = .ok roomy := by
    rw [SegmentTable.grow]
    split <;> exact ⟨_, rfl⟩
  rcases grown with ⟨roomy, grown⟩
  by_cases full : region.table.slots.size > maxSegmentId.toNat
  · simp only [roomFor, addSegment, created, Memory.add, SegmentTable.register, if_pos full, bind,
      Except.bind]
    rfl
  · simp only [roomFor, addSegment, created, Memory.add, SegmentTable.register, if_neg full, grown,
      bind, Except.bind]
    rfl

/-- Where a segment can be added there are ids. -/
theorem LaidOutUnlocked.ids_of_roomFor (laid : region.LaidOutUnlocked) {size : UInt64}
    (room : region.roomFor machine size = .ok ()) :
    ¬region.table.slots.size > maxSegmentId.toNat := by
  intro full
  rcases Segment.create_total laid.align_ne_zero machine size with ⟨made, created⟩
  rw [roomFor, addSegment, created] at room
  cases made with
  | error failure => cases room
  | ok segment =>
      simp only [bind, Except.bind, SegmentTable.register, if_pos full] at room
      cases room

/-- What a transaction meets first when it reads is an obstacle, if memory does not run out. -/
theorem hitch?_unlimited (machine : Machine digest) (region : Region) (transaction : Transaction)
    (id : SegmentId) (segment : Handle) (word count : Nat) :
    region.hitch? machine transaction id segment word count =
        region.hitch? (.unlimited digest) transaction id segment word count ∨
      ∃ failure, region.hitch? machine transaction id segment word count = some failure ∧
        failure.isOutOfMemory = true := by
  apply findSome?_eq_or
  intro index
  rw [Transaction.hitch?, Transaction.hitch?]
  split
  next => exact .inl rfl
  next =>
    have enough : transaction.roomToRead (.unlimited digest) index = .ok () := by
      rw [Transaction.roomToRead]
      split <;> rfl
    rw [enough]
    cases short : transaction.roomToRead machine index with
    | error failure =>
        rw [(Transaction.eq_of_roomToRead short).2]
        exact .inr ⟨_, rfl, rfl⟩
    | ok => exact .inl rfl

/-- With memory enough, every value can be recorded. -/
theorem recordWords_unlimited (digest : Digest) (align : Nat) (id : SegmentId) (segment : Handle)
    (word count : Nat) (value : Bytes) (entries : List WriteEntry) :
    (WriteEntry.recordWords (.unlimited digest) align id segment word value entries count).2 =
      .ok () := by
  induction count generalizing word value entries with
  | zero => rfl
  | succ count ih =>
      rw [WriteEntry.recordWords]
      have enough : (if (WriteEntry.lookup entries (.ofWord align id word)).isSome then .ok ()
          else (Machine.unlimited digest).makeRoom WriteEntry.bytes entries.length) =
          (.ok () : Except Failure Unit) := by
        split <;> rfl
      rw [enough]
      exact ih _ _ _

/-- A free that is no lack of memory is the one that there is with memory enough. -/
theorem tryFree_of_spared {target : Address}
    (spared : Spared (region.tryFree machine transaction target).2) :
    (region.tryFree machine transaction target).2 =
      (region.tryFree (.unlimited digest) transaction target).2 := by
  have granted : transaction.log.recordFree (.unlimited digest) target.segment =
      .ok (transaction.log.withFree target.segment) := by
    rw [TransactionLog.recordFree]
    split <;> rfl
  rw [tryFree] at spared ⊢
  rw [tryFree, granted]
  cases recorded : transaction.log.recordFree machine target.segment with
  | ok log =>
      rw [TransactionLog.eq_of_recordFree recorded]
  | error failure =>
      have memory := TransactionLog.isOutOfMemory_of_recordFree recorded
      rw [recorded] at spared
      split
      next => rfl
      next => rfl
      next accepted allowed =>
        simp only [accepted, allowed] at spared
        split
        next => rfl
        next other =>
          rw [if_neg other] at spared
          split
          next => rfl
          next base =>
            rw [if_neg base] at spared
            split
            next => rfl
            next found =>
              rw [found] at spared
              rw [spared failure rfl] at memory
              cases memory

/-- An answer that is no lack of memory is the one that there is with memory enough. -/
theorem LaidOutUnlocked.answer_of_spared (laid : region.LaidOutUnlocked)
    (spared : Spared (region.answer machine transaction operation)) :
    region.answer machine transaction operation =
      region.answer (.unlimited digest) transaction operation := by
  cases operation with
  | read source length =>
      apply spared.bind_congr
      intro _ _ spared
      apply spared.bind_congr
      intro place _ spared
      rcases hitch?_unlimited machine region transaction source.segment place.segment place.word
        (length.toNat / region.config.align.toNat) with same | ⟨failure, short, memory⟩
      · simp only [same]
      · simp only [short] at spared
        rw [spared failure rfl] at memory
        cases memory
  | write value target =>
      apply spared.bind_congr
      intro _ _ spared
      apply spared.bind_congr
      intro _ _ spared
      apply spared.bind_congr
      intro place _ spared
      have short : ∀ failure, (WriteEntry.recordWords machine region.config.align.toNat
          target.segment place.segment place.word value transaction.log.writes.entries.toList
          (value.length / region.config.align.toNat)).2 = .error failure →
            failure.isOutOfMemory = true := by
        intro failure refused
        rw [(WriteEntry.recordWords_error refused).1]
        rfl
      rcases spared.ok_of_bind short with ⟨_, recorded, _⟩
      simp only [recorded, recordWords_unlimited]
  | alloc size =>
      apply spared.bind_congr
      intro _ _ spared
      apply spared.bind_congr
      intro _ _ spared
      split
      next => rfl
      next unchecked =>
        have spared : Spared (region.roomFor machine size >>= fun _ =>
            machine.makeRoom SegmentId.bytes transaction.log.allocated.size >>= fun _ =>
              pure (Reply.address (.base ⟨UInt32.ofNat region.table.slots.size⟩))) := by
          split at spared
          next checked => exact absurd checked (unchecked _)
          next => exact spared
        rcases spared.ok_of_bind fun _ => isOutOfMemory_of_roomFor with ⟨_, room, spared⟩
        rcases spared.ok_of_bind fun failure refused => by
            rw [Machine.eq_of_makeRoom refused]
            rfl with ⟨_, logged, _⟩
        rw [room, logged, laid.roomFor_unlimited, if_neg (laid.ids_of_roomFor room)]
        rfl
  | free target =>
      have spared : Spared (region.tryFree machine transaction target).2 := by
        intro failure failed
        apply spared failure
        rw [answer, failed]
        rfl
      rw [answer, answer, tryFree_of_spared spared]

end Unlimited

/-- A transaction whose operation fails is doomed for it, unless there was no memory for an
allocation. -/
theorem status_of_failed {failure : Failure} (sound : transaction.log.writes.Sound digest)
    (sized : operation.Sized) (hit : operation.spares failure = false)
    (performed : region.perform machine transaction operation =
      .ok (after, moved, .error failure)) :
    moved.status = (transaction.doom failure).status := by
  have same : ∀ {middle : Transaction}, middle.status = transaction.status →
      (middle.doom failure).status = (transaction.doom failure).status := by
    intro middle status
    rw [Transaction.status_doom, Transaction.status_doom, status]
  cases operation with
  | read source length =>
      simp only [perform, read, bind_eq_ok, pure_eq_ok, Prod.exists, Prod.mk.injEq] at performed
      rcases performed with ⟨_, _, ⟨middle, answer, tried, rfl, rfl⟩, _, rfl, failed⟩
      cases answer with
      | error other =>
          cases failed
          exact same (tryRead_ok sound tried).1.status
      | ok bytes => cases failed
  | write value target =>
      simp only [perform, write, bind_eq_ok, pure_eq_ok, Prod.exists, Prod.mk.injEq] at performed
      rcases performed with ⟨_, _, ⟨middle, answer, tried, rfl, rfl⟩, _, rfl, failed⟩
      cases answer with
      | error other =>
          cases failed
          rcases tryWrite_ok sized sound tried with ⟨_, unchanged⟩ |
            ⟨_, _, _, _, _, _, _, rfl, _⟩
          · exact same (congrArg Transaction.status unchanged)
          · exact same rfl
      | ok => cases failed
  | alloc size =>
      simp only [perform, alloc, bind_eq_ok, pure_eq_ok, Prod.exists, Prod.mk.injEq] at performed
      rcases performed with ⟨_, _, answer, ⟨_, middle, last, tried, allocated⟩, _, rfl, failed⟩
      cases last with
      | error other =>
          have unchanged : middle = transaction := by
            rcases tryAlloc_ok tried with ⟨_, _, unchanged⟩ |
              ⟨_, _, _, _, _, _, _, _, ⟨_, _, impossible⟩ | ⟨_, _, _, unchanged, _⟩⟩
            · exact unchanged
            · cases impossible
            · exact unchanged
          simp only at allocated
          split at allocated
          next memory =>
            cases allocated
            cases failed
            exact absurd (memory.symm.trans hit) (by simp)
          next =>
            cases allocated
            cases failed
            exact same (congrArg Transaction.status unchanged)
      | ok address =>
          cases allocated
          cases failed
  | free target =>
      simp only [perform, free, pure_eq_ok, Prod.mk.injEq] at performed
      rcases performed with ⟨_, rfl, failed⟩
      cases tried : region.tryFree machine transaction target with
      | mk middle answer =>
          rw [tried] at failed
          cases answer with
          | error other =>
              cases failed
              rcases tryFree_ok tried with ⟨_, unchanged⟩ | ⟨_, _, _, _, impossible⟩
              · exact same (congrArg Transaction.status unchanged)
              · cases impossible
          | ok => cases failed

end Region

end WordStm
