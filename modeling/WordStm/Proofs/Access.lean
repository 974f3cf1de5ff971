import Mathlib.Algebra.Group.Nat.Defs
import WordStm.Region.Operation
import WordStm.Proofs.Image
import WordStm.Proofs.Table
import WordStm.Proofs.Cells
import WordStm.Proofs.WriteSet

/-!
# Reads and writes of words

An access that succeeds was located: it starts at a word of a live segment and
consists of words of it.  A read then returns, for each word, the value that the
transaction has for it, or else the bytes in memory.  Only a word that is locked
or later than the snapshot is an obstacle to it, whether the transaction has a
value for the word or not.  A transaction that may write logs what it reads, so its
read can also fail for want of room, and whichever stands in the way first is why.
A write assigns, word by word, as long as there is room for new entries.
-/

namespace WordStm

/-- The address of a word. -/
def Address.ofWord (align : Nat) (segment : SegmentId) (word : Nat) : Address :=
  ⟨segment, UInt64.ofNat (word * align)⟩

/-- The next word is one word length further. -/
theorem Address.offsetBy_ofWord (align : UInt64) (segment : SegmentId) (word : Nat) :
    (ofWord align.toNat segment word).offsetBy align = ofWord align.toNat segment (word + 1) := by
  simp [ofWord, offsetBy, Nat.add_mul, UInt64.ofNat_add]

/-- Words of a segment that can be addressed have different addresses. -/
theorem Address.ofWord_inj {align word other : Nat} {segment second : SegmentId}
    (positive : 0 < align) (inside : word * align < 2 ^ 64) (within : other * align < 2 ^ 64) :
    ofWord align segment word = ofWord align second other ↔ segment = second ∧ word = other := by
  constructor
  · intro same
    simp only [ofWord, mk.injEq] at same
    refine ⟨same.1, ?_⟩
    have offsets := congrArg UInt64.toNat same.2
    rw [UInt64.toNat_ofNat_of_lt' inside, UInt64.toNat_ofNat_of_lt' within] at offsets
    exact Nat.eq_of_mul_eq_mul_right positive offsets
  · rintro ⟨rfl, rfl⟩
    rfl

theorem TransactionLog.eq_of_recordRead {digest : Digest} {machine : Machine digest}
    {log after : TransactionLog} {address : Address} {place : Place}
    (recorded : log.recordRead machine address place = .ok after) :
    after = { log with reads := log.reads.push ⟨address, place⟩ } := by
  simp only [recordRead, bind_eq_ok, pure_eq_ok] at recorded
  rcases recorded with ⟨_, _, same⟩
  exact same.symm

/-- Want of room is reported as the bytes of one entry. -/
theorem Machine.eq_of_makeRoom {digest : Digest} {machine : Machine digest} {bytes entries : Nat}
    {failure : Failure} (refused : machine.makeRoom bytes entries = .error failure) :
    failure = .outOfMemory (UInt64.ofNat bytes) := by
  rw [makeRoom, request] at refused
  split at refused
  next => cases refused
  next =>
    cases refused
    rfl

/-- Room is wanting for a request that was not granted. -/
theorem Machine.not_grants_of_makeRoom {digest : Digest} {machine : Machine digest}
    {bytes entries : Nat} {failure : Failure}
    (refused : machine.makeRoom bytes entries = .error failure) :
    machine.grants (.entry bytes entries) = false := by
  rw [makeRoom, request] at refused
  split at refused
  next => cases refused
  next denied => exact Bool.eq_false_iff.mpr denied

namespace WriteEntry

/-- The value that some entries give an address. -/
def value? (entries : List WriteEntry) (address : Address) : Option Bytes :=
  (lookup entries address).map (·.value)

theorem value?_assign (address : Address) (place : Place) (value : Bytes)
    (entries : List WriteEntry) (other : Address) :
    value? (assign address place value entries) other =
      if other = address then some value else value? entries other := by
  rw [value?, lookup_assign]
  split <;> rfl

/-- Assign a value of `count` words from a word of a segment on. -/
def assignWords (align : Nat) (id : SegmentId) (segment : Handle) (word : Nat) (value : Bytes)
    (entries : List WriteEntry) : (count : Nat) → List WriteEntry
  | 0 => entries
  | count + 1 =>
      assignWords align id segment (word + 1) (value.drop align)
        (assign (.ofWord align id word) ⟨segment, word⟩ (value.take align) entries) count

/-- Assign a value of `count` words from a word of a segment on, as far as there is room:
an address that has no entry needs room for one more. -/
def recordWords {digest : Digest} (machine : Machine digest) (align : Nat) (id : SegmentId)
    (segment : Handle) (word : Nat) (value : Bytes) (entries : List WriteEntry) :
    (count : Nat) → List WriteEntry × Except Failure Unit
  | 0 => (entries, .ok ())
  | count + 1 =>
      match if (lookup entries (.ofWord align id word)).isSome then .ok ()
        else machine.makeRoom WriteEntry.bytes entries.length with
      | .error failure => (entries, .error failure)
      | .ok () =>
          recordWords machine align id segment (word + 1) (value.drop align)
            (assign (.ofWord align id word) ⟨segment, word⟩ (value.take align) entries) count

/-- With room enough, recording assigns. -/
theorem recordWords_ok {digest : Digest} {machine : Machine digest} {align : Nat} {id : SegmentId}
    {segment : Handle} {word count : Nat} {value : Bytes} {entries : List WriteEntry}
    (enough : (recordWords machine align id segment word value entries count).2 = .ok ()) :
    (recordWords machine align id segment word value entries count).1 =
      assignWords align id segment word value entries count := by
  induction count generalizing word value entries with
  | zero => rfl
  | succ count ih =>
      rw [recordWords] at enough ⊢
      split at enough
      next => cases enough
      next => exact ih enough

/-- Without room enough, recording assigns fewer words, up to the first entry that there is no
room for, and reports that entry. -/
theorem recordWords_error {digest : Digest} {machine : Machine digest} {align : Nat}
    {id : SegmentId} {segment : Handle} {word count : Nat} {value : Bytes}
    {entries : List WriteEntry} {failure : Failure}
    (short : (recordWords machine align id segment word value entries count).2 = .error failure) :
    failure = .outOfMemory (UInt64.ofNat WriteEntry.bytes) ∧ ∃ fewer < count,
      (recordWords machine align id segment word value entries count).1 =
        assignWords align id segment word value entries fewer ∧
      machine.makeRoom WriteEntry.bytes
        (assignWords align id segment word value entries fewer).length = .error failure := by
  induction count generalizing word value entries with
  | zero => cases short
  | succ count ih =>
      rw [recordWords] at short ⊢
      split at short
      next refused =>
        cases short
        split at refused
        next => cases refused
        next => exact ⟨Machine.eq_of_makeRoom refused, 0, Nat.succ_pos _, rfl, refused⟩
      next =>
        rcases ih short with ⟨told, fewer, less, entriesEq, full⟩
        exact ⟨told, fewer + 1, Nat.succ_lt_succ less, entriesEq, full⟩

/-- After a word was assigned there is an entry. -/
theorem assignWords_ne_nil {align : Nat} {id : SegmentId} {segment : Handle} {word count : Nat}
    {value : Bytes} {entries : List WriteEntry} (nonempty : entries ≠ [] ∨ 0 < count) :
    assignWords align id segment word value entries count ≠ [] := by
  induction count generalizing word value entries with
  | zero => exact nonempty.resolve_right (Nat.lt_irrefl 0)
  | succ count ih => exact ih (.inl (assign_ne_nil _ _ _ _))

end WriteEntry

/-- Why a word cannot be read as of a snapshot. -/
def Cell.obstacle? (cell : Cell) (address : Address) (snapshot : Version) : Option AbortReason :=
  if cell.locked then some (.wordLocked address)
  else if cell.version > snapshot then some (.versionTooNew address cell.version snapshot)
  else none

/-- A word can be read if it is not locked, and no later than the snapshot. -/
theorem Cell.obstacle?_eq_none_iff {cell : Cell} {address : Address} {snapshot : Version} :
    cell.obstacle? address snapshot = none ↔ cell.locked = false ∧ cell.version ≤ snapshot := by
  rw [obstacle?]
  cases cell.locked with
  | true => simp
  | false => simp [UInt64.not_lt]

namespace Transaction

/-- Two transactions differ in the words that they read at most, and in the count
of false positives. -/
structure Alike (after before : Transaction) : Prop where
  id : after.id = before.id
  mode : after.mode = before.mode
  snapshot : after.snapshot = before.snapshot
  status : after.status = before.status
  writes : after.log.writes.Alike before.log.writes
  allocated : after.log.allocated = before.log.allocated
  freed : after.log.freed = before.log.freed

theorem Alike.refl (transaction : Transaction) : transaction.Alike transaction :=
  ⟨rfl, rfl, rfl, rfl, .refl _, rfl, rfl⟩

theorem Alike.trans {first second third : Transaction} (left : first.Alike second)
    (right : second.Alike third) : first.Alike third where
  id := left.id.trans right.id
  mode := left.mode.trans right.mode
  snapshot := left.snapshot.trans right.snapshot
  status := left.status.trans right.status
  writes := left.writes.trans right.writes
  allocated := left.allocated.trans right.allocated
  freed := left.freed.trans right.freed

/-- What was copied of a word counts unless there is an obstacle. -/
theorem standing_eq {memory : Memory} {place : Place} {cell : Cell}
    (found : memory.cell? place = some cell) (address : Address) (snapshot : Version)
    (copied : Bytes) :
    (do
      if ← memory.isLocked place then return .error (.wordLocked address)
      let after ← memory.version place
      if after ≠ cell.version then return .error (.versionChanged address)
      if after > snapshot then return .error (.versionTooNew address after snapshot)
      return .ok copied : Except Fault (Except AbortReason Bytes)) =
    .ok (match cell.obstacle? address snapshot with
      | some reason => .error reason
      | none => .ok copied) := by
  rw [Memory.isLocked_of_cell? found, Memory.version_of_cell? found, Cell.obstacle?]
  cases cell.locked with
  | true => rfl
  | false =>
      by_cases newer : cell.version > snapshot
      · simp [newer, bind, Except.bind, pure, Except.pure]
      · simp [newer, bind, Except.bind, pure, Except.pure]

/-- A sample of a word that exists has the bytes that stand in for it or those in memory,
unless there is an obstacle. -/
theorem sample_of_cell? {memory : Memory} {place : Place} {cell : Cell} {buffer : Bytes}
    {buffered : Option Bytes} (found : memory.cell? place = some cell)
    (whole : ∀ value ∈ buffered, value.length = buffer.length) (address : Address)
    (snapshot : Version) :
    sample memory address place snapshot buffered buffer =
      .ok (match cell.obstacle? address snapshot with
        | some reason => .error reason
        | none => .ok (buffered.getD
            (cell.bytes.take buffer.length ++ buffer.drop cell.bytes.length))) := by
  cases buffered with
  | none =>
      rw [Option.getD_none, ← standing_eq found, sample, Memory.load_of_cell? found,
        Memory.version_of_cell? found]
      rfl
  | some value =>
      rw [Option.getD_some, ← standing_eq found, sample, Memory.version_of_cell? found]
      exact if_pos (whole value rfl)

/-- A sample is of a word that exists, and what stands in for it is as long as the buffer. -/
theorem cell?_of_sample {memory : Memory} {address : Address} {place : Place}
    {snapshot : Version} {buffered : Option Bytes} {buffer : Bytes}
    {sampled : Except AbortReason Bytes}
    (succeeded : sample memory address place snapshot buffered buffer = .ok sampled) :
    ∃ cell, memory.cell? place = some cell ∧ ∀ value ∈ buffered, value.length = buffer.length := by
  rw [sample, bind_eq_ok] at succeeded
  rcases succeeded with ⟨_, looked, succeeded⟩
  rcases Memory.version_eq_ok_iff.mp looked with ⟨cell, found, _⟩
  refine ⟨cell, found, ?_⟩
  rintro value rfl
  simp only at succeeded
  split at succeeded
  next whole => exact whole
  next => cases succeeded

/-- A sampled word is there, and is what stands in for it or what is in memory. -/
theorem sample_ok {memory : Memory} {address : Address} {place : Place} {snapshot : Version}
    {buffered : Option Bytes} {buffer : Bytes} {sampled : Except AbortReason Bytes}
    (succeeded : sample memory address place snapshot buffered buffer = .ok sampled) :
    ∃ cell, memory.cell? place = some cell ∧
      sampled = match cell.obstacle? address snapshot with
        | some reason => .error reason
        | none => .ok (buffered.getD
            (cell.bytes.take buffer.length ++ buffer.drop cell.bytes.length)) := by
  rcases cell?_of_sample succeeded with ⟨cell, found, whole⟩
  rw [sample_of_cell? found whole, Except.ok.injEq] at succeeded
  exact ⟨cell, found, succeeded.symm⟩

variable {digest : Digest} {machine : Machine digest} {memory : Memory}
  {transaction after : Transaction} {address : Address} {place : Place} {buffer : Bytes}

/-- Reading a word leaves the transaction as it was, but for the word read. -/
theorem readWord_alike {result : Except Failure Bytes}
    (read : transaction.readWord machine memory address place buffer = .ok (after, result)) :
    after.Alike transaction := by
  have alike := WriteSet.get_alike digest transaction.log.writes address
  rw [readWord] at read
  split at read
  next =>
    simp only [bind_eq_ok, pure_eq_ok, Prod.mk.injEq] at read
    rcases read with ⟨_, _, rfl, _⟩
    exact .refl _
  next =>
    simp only [bind_eq_ok] at read
    rcases read with ⟨sampled, _, read⟩
    split at read
    next =>
      cases read
      exact ⟨rfl, rfl, rfl, rfl, alike, rfl, rfl⟩
    next =>
      split at read
      next =>
        cases read
        exact ⟨rfl, rfl, rfl, rfl, alike, rfl, rfl⟩
      next recorded =>
        cases read
        rw [TransactionLog.eq_of_recordRead recorded]
        exact ⟨rfl, rfl, rfl, rfl, alike, rfl, rfl⟩

/-- The room that a transaction needs to read one more word, when it has read some more than
it has logged.  A transaction that only reads needs none. -/
def roomToRead (machine : Machine digest) (transaction : Transaction) (more : Nat) :
    Except Failure Unit :=
  if transaction.mode.isReadOnly then .ok ()
  else machine.makeRoom ReadEntry.bytes (transaction.log.reads.size + more)

/-- Why a transaction cannot read a word, when it has read some more than it has logged: there is
an obstacle, or no room to log the word. -/
def hitch? (machine : Machine digest) (transaction : Transaction) (memory : Memory)
    (address : Address) (place : Place) (more : Nat) : Option Failure :=
  match (memory.cell? place).bind (·.obstacle? address transaction.snapshot) with
  | some reason => some (.aborted reason)
  | none =>
      match transaction.roomToRead machine more with
      | .error failure => some failure
      | .ok () => none

theorem hitch?_eq_none_iff {more : Nat} :
    transaction.hitch? machine memory address place more = none ↔
      (memory.cell? place).bind (·.obstacle? address transaction.snapshot) = none ∧
        transaction.roomToRead machine more = .ok () := by
  rw [hitch?]
  split
  next blocked => simp [blocked]
  next clear => split <;> simp [*]

/-- Want of room is reported as the bytes of an entry. -/
theorem eq_of_roomToRead {more : Nat} {failure : Failure}
    (refused : transaction.roomToRead machine more = .error failure) :
    transaction.mode.isReadOnly = false ∧
      failure = .outOfMemory (UInt64.ofNat ReadEntry.bytes) := by
  rw [roomToRead] at refused
  split at refused
  next => cases refused
  next readWrite => exact ⟨Bool.eq_false_iff.mpr readWrite, Machine.eq_of_makeRoom refused⟩

/-- A word is read unless there is an obstacle, or no room to log it.  It then has the
transaction's own value, or else that in memory, and is remembered unless the transaction only
reads. -/
theorem readWord_verdict {result : Except Failure Bytes}
    (sound : transaction.log.writes.Sound digest)
    (read : transaction.readWord machine memory address place buffer = .ok (after, result)) :
    ∃ cell, memory.cell? place = some cell ∧
      match transaction.hitch? machine memory address place 0 with
      | some failure => result = .error failure ∧ after.log.reads = transaction.log.reads
      | none =>
          result = .ok ((if transaction.mode.isReadOnly then none
              else WriteEntry.value? transaction.log.writes.entries.toList address).getD
            (cell.bytes.take buffer.length ++ buffer.drop cell.bytes.length)) ∧
          after.log.reads = if transaction.mode.isReadOnly then transaction.log.reads
            else transaction.log.reads.push ⟨address, place⟩ := by
  rw [readWord] at read
  split at read
  next readOnly =>
    simp only [bind_eq_ok, pure_eq_ok, Prod.mk.injEq] at read
    rcases read with ⟨sampled, succeeded, rfl, rfl⟩
    rcases sample_ok succeeded with ⟨cell, found, rfl⟩
    refine ⟨cell, found, ?_⟩
    rw [hitch?, found, Option.bind_some, roomToRead, if_pos readOnly]
    cases cell.obstacle? address transaction.snapshot with
    | some reason => exact ⟨rfl, rfl⟩
    | none =>
        rw [if_pos readOnly, if_pos readOnly]
        exact ⟨rfl, rfl⟩
  next readWrite =>
    have got := sound.get_eq address
    simp only [bind_eq_ok] at read
    rcases read with ⟨sampled, succeeded, read⟩
    rcases sample_ok succeeded with ⟨cell, found, sampledEq⟩
    refine ⟨cell, found, ?_⟩
    rw [got, WriteSet.entry?_eq_lookup] at sampledEq
    have same : (transaction.withWrites (transaction.log.writes.get digest address).2).snapshot =
      transaction.snapshot := rfl
    rw [same] at sampledEq
    rw [hitch?, found, Option.bind_some, roomToRead, if_neg readWrite, if_neg readWrite,
      if_neg readWrite]
    cases obstacle : cell.obstacle? address transaction.snapshot with
    | some reason =>
        rw [obstacle] at sampledEq
        subst sampledEq
        cases read
        exact ⟨rfl, rfl⟩
    | none =>
        rw [obstacle] at sampledEq
        subst sampledEq
        simp only [TransactionLog.recordRead, withWrites, Nat.add_zero] at read ⊢
        cases room : machine.makeRoom ReadEntry.bytes transaction.log.reads.size with
        | error failure =>
            rw [room] at read
            cases read
            exact ⟨rfl, rfl⟩
        | ok =>
            rw [room] at read
            cases read
            exact ⟨rfl, rfl⟩

/-- A word that is read is within the snapshot. -/
theorem readWord_ok {bytes : Bytes} (sound : transaction.log.writes.Sound digest)
    (quiet : transaction.mode.isReadOnly = true → transaction.log.writes.entries = #[])
    (read : transaction.readWord machine memory address place buffer = .ok (after, .ok bytes)) :
    (∃ cell, memory.cell? place = some cell ∧ cell.version ≤ transaction.snapshot ∧
      bytes = (WriteEntry.value? transaction.log.writes.entries.toList address).getD
        (cell.bytes.take buffer.length ++ buffer.drop cell.bytes.length)) ∧
    after.log.reads = if transaction.mode.isReadOnly then transaction.log.reads
      else transaction.log.reads.push ⟨address, place⟩ := by
  rcases readWord_verdict sound read with ⟨cell, found, verdict⟩
  split at verdict
  next => cases verdict.1
  next unhindered =>
    rcases verdict with ⟨bytesEq, reads⟩
    have clear := (hitch?_eq_none_iff.mp unhindered).1
    rw [found, Option.bind_some] at clear
    refine ⟨⟨cell, found, (Cell.obstacle?_eq_none_iff.mp clear).2, ?_⟩, reads⟩
    rw [Except.ok.inj bytesEq]
    split
    next readOnly =>
      rw [quiet readOnly]
      rfl
    next => rfl

/-- After a word was read, there is one less to read in advance. -/
theorem hitch?_of_readWord {bytes : Bytes} (sound : transaction.log.writes.Sound digest)
    (read : transaction.readWord machine memory address place buffer = .ok (after, .ok bytes))
    (other : Address) (elsewhere : Place) (more : Nat) :
    after.hitch? machine memory other elsewhere more =
      transaction.hitch? machine memory other elsewhere (more + 1) := by
  have alike := readWord_alike read
  have reads : after.log.reads = if transaction.mode.isReadOnly then transaction.log.reads
      else transaction.log.reads.push ⟨address, place⟩ := by
    rcases readWord_verdict sound read with ⟨_, _, verdict⟩
    split at verdict
    next => cases verdict.1
    next => exact verdict.2
  rw [hitch?, hitch?, roomToRead, roomToRead, alike.mode, alike.snapshot, reads]
  cases transaction.mode.isReadOnly with
  | true => rfl
  | false =>
      simp only [Bool.false_eq_true, if_false, Array.size_push, Nat.add_assoc, Nat.add_comm 1]

/-- A word that exists can be tried. -/
theorem readWord_total {cell : Cell} (sound : transaction.log.writes.Sound digest)
    (found : memory.cell? place = some cell)
    (whole : ∀ entry ∈ transaction.log.writes.entries.toList, entry.value.length = buffer.length)
    (machine : Machine digest) (address : Address) :
    ∃ after result, transaction.readWord machine memory address place buffer =
      .ok (after, result) := by
  rw [readWord]
  split
  next =>
    rw [sample_of_cell? found (by simp)]
    exact ⟨_, _, rfl⟩
  next readWrite =>
    have own : ∀ value ∈ (transaction.log.writes.get digest address).1.map (·.value),
        value.length = buffer.length := by
      intro value member
      rw [sound.get_eq, WriteSet.entry?_eq_lookup] at member
      rcases Option.map_eq_some_iff.mp member with ⟨found, looked, rfl⟩
      exact whole found (WriteEntry.of_lookup looked).1
    simp only [sample_of_cell? found own, bind, Except.bind]
    split
    next => exact ⟨_, _, rfl⟩
    next => split <;> exact ⟨_, _, rfl⟩

end Transaction

namespace Region

variable {digest : Digest} {machine : Machine digest} {region : Region}
  {transaction after : Transaction} {id : SegmentId} {segment : Handle}

/-- Reading words leaves the transaction as it was, but for the words read. -/
theorem readWords_alike {address : Address} {place : Place} {done : List Bytes} {count : Nat}
    {result : Except Failure Bytes}
    (read : region.readWords machine transaction address place done count = .ok (after, result)) :
    after.Alike transaction := by
  induction count generalizing transaction address place done with
  | zero =>
      cases read
      exact .refl _
  | succ count ih =>
      simp only [readWords, bind_eq_ok, Prod.exists] at read
      rcases read with ⟨middle, word, one, rest⟩
      have alike := Transaction.readWord_alike one
      cases word with
      | error failure =>
          simp only [pure_eq_ok, Prod.mk.injEq] at rest
          rw [← rest.1]
          exact alike
      | ok word => exact (ih rest).trans alike

/-- To read words in a row is to read the first of them and then the others. -/
theorem readWords_succ_ok {word count : Nat} {done : List Bytes} {bytes : Bytes}
    (read : region.readWords machine transaction (.ofWord region.config.align.toNat id word)
      ⟨segment, word⟩ done (count + 1) = .ok (after, .ok bytes)) :
    ∃ middle value,
      transaction.readWord machine region.memory (.ofWord region.config.align.toNat id word)
        ⟨segment, word⟩ (List.replicate region.config.align.toNat 0) = .ok (middle, .ok value) ∧
      region.readWords machine middle (.ofWord region.config.align.toNat id (word + 1))
        ⟨segment, word + 1⟩ (value :: done) count = .ok (after, .ok bytes) := by
  simp only [readWords, bind_eq_ok, Prod.exists] at read
  rcases read with ⟨middle, first, one, rest⟩
  cases first with
  | error failure => simp [pure_eq_ok] at rest
  | ok value =>
      rw [Address.offsetBy_ofWord] at rest
      exact ⟨middle, value, one, rest⟩

/-- Words that are read in a row make up a slice of every image that shows what
the transaction has for each of them. -/
theorem readWords_ok {image : Image} {word count : Nat} {done : List Bytes} {bytes : Bytes}
    (sound : transaction.log.writes.Sound digest)
    (quiet : transaction.mode.isReadOnly = true → transaction.log.writes.entries = #[])
    (sized : ∀ word cell, region.memory.cell? ⟨segment, word⟩ = some cell →
      cell.bytes.length = region.config.align.toNat)
    (shown : ∀ word cell, region.memory.cell? ⟨segment, word⟩ = some cell →
      cell.version ≤ transaction.snapshot →
        (WriteEntry.value? transaction.log.writes.entries.toList
          (.ofWord region.config.align.toNat id word)).getD cell.bytes =
        image.slice id (word * region.config.align.toNat) region.config.align.toNat)
    (read : region.readWords machine transaction (.ofWord region.config.align.toNat id word)
      ⟨segment, word⟩ done count = .ok (after, .ok bytes)) :
    bytes = done.reverse.flatten ++
      image.slice id (word * region.config.align.toNat) (count * region.config.align.toNat) := by
  induction count generalizing transaction word done with
  | zero =>
      cases read
      simp
  | succ count ih =>
      rcases readWords_succ_ok read with ⟨middle, value, one, rest⟩
      have alike := Transaction.readWord_alike one
      rcases (Transaction.readWord_ok sound quiet one).1 with ⟨cell, found, fits, valueEq⟩
      have whole : cell.bytes.take region.config.align.toNat = cell.bytes :=
        List.take_of_length_le (Nat.le_of_eq (sized word cell found))
      have valueShown : value =
          image.slice id (word * region.config.align.toNat) region.config.align.toNat := by
        rw [← shown word cell found fits, valueEq]
        simp [whole, sized word cell found]
      have restEq := ih (alike.writes.sound sound)
        (by rw [alike.mode, alike.writes.entries]; exact quiet)
        (by rw [alike.snapshot, alike.writes.entries]; exact shown) rest
      have cut : (count + 1) * region.config.align.toNat =
          region.config.align.toNat + count * region.config.align.toNat := by
        rw [Nat.add_mul, Nat.one_mul, Nat.add_comm]
      rw [restEq, cut, Image.slice_add, ← valueShown, Nat.add_mul, Nat.one_mul]
      simp

/-- Why a transaction cannot read some words of a segment in a row: what hinders it at the first
of them that it cannot read. -/
def hitch? (machine : Machine digest) (region : Region) (transaction : Transaction)
    (id : SegmentId) (segment : Handle) (word count : Nat) : Option Failure :=
  (List.range count).findSome? fun index =>
    transaction.hitch? machine region.memory (.ofWord region.config.align.toNat id (word + index))
      ⟨segment, word + index⟩ index

/-- Words in a row are read unless there is a hitch. -/
theorem readWords_verdict {word count : Nat} {done : List Bytes} {result : Except Failure Bytes}
    (sound : transaction.log.writes.Sound digest)
    (read : region.readWords machine transaction (.ofWord region.config.align.toNat id word)
      ⟨segment, word⟩ done count = .ok (after, result)) :
    match region.hitch? machine transaction id segment word count with
    | some failure => result = .error failure
    | none => ∃ bytes, result = .ok bytes := by
  induction count generalizing transaction word done with
  | zero =>
      cases read
      exact ⟨_, rfl⟩
  | succ count ih =>
      simp only [readWords, bind_eq_ok, Prod.exists] at read
      rcases read with ⟨middle, first, one, rest⟩
      have alike := Transaction.readWord_alike one
      rcases Transaction.readWord_verdict sound one with ⟨cell, found, verdict⟩
      rw [hitch?, List.range_succ_eq_map, List.findSome?_cons, List.findSome?_map, Nat.add_zero]
      cases hitch : transaction.hitch? machine region.memory
          (.ofWord region.config.align.toNat id word) ⟨segment, word⟩ 0 with
      | some failure =>
          rw [hitch] at verdict
          rcases verdict with ⟨rfl, _⟩
          simp only [pure_eq_ok, Prod.mk.injEq] at rest
          exact rest.2.symm
      | none =>
          rw [hitch] at verdict
          rcases verdict with ⟨rfl, _⟩
          simp only [Address.offsetBy_ofWord] at rest
          have behind := ih (alike.writes.sound sound) rest
          simp only [hitch?, Transaction.hitch?_of_readWord sound one, Nat.add_assoc,
            Nat.add_comm 1] at behind
          exact behind

/-- A hitch is an obstacle to a word that exists, or want of room. -/
theorem of_hitch? {word count : Nat} {failure : Failure}
    (hindered : region.hitch? machine transaction id segment word count = some failure) :
    (∃ reason place cell address, failure = .aborted reason ∧
      region.memory.cell? place = some cell ∧
        cell.obstacle? address transaction.snapshot = some reason) ∨
    transaction.mode.isReadOnly = false ∧
      failure = .outOfMemory (UInt64.ofNat ReadEntry.bytes) := by
  rcases List.exists_of_findSome?_eq_some hindered with ⟨index, _, hitch⟩
  rw [Transaction.hitch?] at hitch
  split at hitch
  next blocked =>
    left
    rcases Option.bind_eq_some_iff.mp blocked with ⟨cell, present, obstacle⟩
    exact ⟨_, _, cell, _, (Option.some.inj hitch).symm, present, obstacle⟩
  next =>
    split at hitch
    next refused =>
      right
      rw [← Option.some.inj hitch]
      exact Transaction.eq_of_roomToRead refused
    next => cases hitch

/-- Words that exist can be tried. -/
theorem readWords_total {word count : Nat} (done : List Bytes)
    (sound : transaction.log.writes.Sound digest)
    (present : ∀ position, word ≤ position → position < word + count →
      ∃ cell, region.memory.cell? ⟨segment, position⟩ = some cell)
    (whole : ∀ entry ∈ transaction.log.writes.entries.toList,
      entry.value.length = region.config.align.toNat) (machine : Machine digest)
    (address : Address) :
    ∃ after result, region.readWords machine transaction address ⟨segment, word⟩ done count =
      .ok (after, result) := by
  induction count generalizing transaction word done address with
  | zero => exact ⟨_, _, rfl⟩
  | succ count ih =>
      rcases present word (Nat.le_refl _) (by omega) with ⟨cell, found⟩
      have sizes : ∀ entry ∈ transaction.log.writes.entries.toList,
          entry.value.length = (List.replicate region.config.align.toNat (0 : UInt8)).length := by
        rw [List.length_replicate]
        exact whole
      rcases Transaction.readWord_total sound found sizes machine address with
        ⟨middle, first, one⟩
      have alike := Transaction.readWord_alike one
      simp only [readWords, one, bind, Except.bind]
      cases first with
      | error failure => exact ⟨_, _, rfl⟩
      | ok value =>
          apply ih _ (alike.writes.sound sound)
          · intro position above below
            exact present position (by omega) (by omega)
          · rw [alike.writes.entries]
            exact whole

/-- Words that are read in a row are remembered in their order, unless the transaction
only reads. -/
theorem readWords_recorded {word count : Nat} {done : List Bytes} {bytes : Bytes}
    (sound : transaction.log.writes.Sound digest)
    (quiet : transaction.mode.isReadOnly = true → transaction.log.writes.entries = #[])
    (read : region.readWords machine transaction (.ofWord region.config.align.toNat id word)
      ⟨segment, word⟩ done count = .ok (after, .ok bytes)) :
    after.log.reads.toList = transaction.log.reads.toList ++
      if transaction.mode.isReadOnly then [] else (List.range' word count).map fun position =>
        ⟨.ofWord region.config.align.toNat id position, ⟨segment, position⟩⟩ := by
  induction count generalizing transaction word done with
  | zero =>
      cases read
      simp
  | succ count ih =>
      rcases readWords_succ_ok read with ⟨middle, value, one, rest⟩
      have alike := Transaction.readWord_alike one
      have reads := (Transaction.readWord_ok sound quiet one).2
      have behind := ih (alike.writes.sound sound)
        (by rw [alike.mode, alike.writes.entries]; exact quiet) rest
      rw [behind, reads, alike.mode, List.range'_succ]
      cases transaction.mode.isReadOnly with
      | true => rfl
      | false => simp

/-- Words that are read in a row are among those remembered, unless the transaction only
reads. -/
theorem readWords_reads {word count : Nat} {done : List Bytes} {bytes : Bytes}
    (sound : transaction.log.writes.Sound digest)
    (quiet : transaction.mode.isReadOnly = true → transaction.log.writes.entries = #[])
    (read : region.readWords machine transaction (.ofWord region.config.align.toNat id word)
      ⟨segment, word⟩ done count = .ok (after, .ok bytes)) :
    (∀ entry ∈ transaction.log.reads.toList, entry ∈ after.log.reads.toList) ∧
      (transaction.mode.isReadOnly = false → ∀ position, word ≤ position →
        position < word + count →
          ∃ entry ∈ after.log.reads.toList, entry.place = ⟨segment, position⟩) := by
  rw [readWords_recorded sound quiet read]
  constructor
  · intro entry member
    exact List.mem_append_left _ member
  · intro readWrite position above below
    refine ⟨⟨.ofWord region.config.align.toNat id position, ⟨segment, position⟩⟩, ?_, rfl⟩
    rw [readWrite]
    apply List.mem_append_right
    exact List.mem_map_of_mem (List.mem_range'_1.mpr ⟨above, below⟩)

/-- Writing words records them, as far as there is room, once the transaction may write. -/
theorem writeWords_eq (sound : transaction.log.writes.Sound digest)
    (writable : transaction.mode.isReadOnly = false) (machine : Machine digest) (region : Region)
    (id : SegmentId) (segment : Handle) (word count : Nat) (value : Bytes) :
    ∃ writes, writes.Sound digest ∧
      writes.entries.toList = (WriteEntry.recordWords machine region.config.align.toNat id segment
        word value transaction.log.writes.entries.toList count).1 ∧
      region.writeWords machine transaction (.ofWord region.config.align.toNat id word)
          ⟨segment, word⟩ value count =
        (transaction.withWrites writes, (WriteEntry.recordWords machine region.config.align.toNat
          id segment word value transaction.log.writes.entries.toList count).2) := by
  induction count generalizing transaction word value with
  | zero => exact ⟨transaction.log.writes, sound, rfl, rfl⟩
  | succ count ih =>
      have kept := sound.record machine (.ofWord region.config.align.toNat id word)
        ⟨segment, word⟩ (value.take region.config.align.toNat)
      have answered := sound.record_snd machine (.ofWord region.config.align.toNat id word)
        ⟨segment, word⟩ (value.take region.config.align.toNat)
      rw [WriteSet.entry?_eq_lookup, ← Array.length_toList] at answered
      simp only [writeWords, WriteEntry.recordWords, ← answered, Transaction.writeWord,
        Transaction.ensureWritable, writable, Bool.false_eq_true, if_false]
      cases recorded : transaction.log.writes.record machine
          (.ofWord region.config.align.toNat id word) ⟨segment, word⟩
          (value.take region.config.align.toNat) with
      | mk writes result =>
          rw [recorded] at kept
          cases result with
          | error failure =>
              refine ⟨writes, kept, ?_, rfl⟩
              rw [(WriteSet.alike_of_record recorded).entries]
          | ok =>
              have assigned := sound.entries_record recorded
              simp only [Address.offsetBy_ofWord]
              have middleSound : (transaction.withWrites writes).log.writes.Sound digest := kept
              rcases ih middleSound writable (word + 1) (value.drop region.config.align.toNat) with
                ⟨final, finalSound, entries, written⟩
              refine ⟨final, finalSound, ?_, ?_⟩
              · rw [entries, ← assigned]
                rfl
              · rw [written, ← assigned]
                rfl

end Region

end WordStm
