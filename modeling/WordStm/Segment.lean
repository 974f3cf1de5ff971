import WordStm.Machine

/-!
# Segments

A segment is one run of bytes, cut into words of equal length; bytes after the
last whole word belong to no word.  Each word has a version, the version of the
commit that wrote it last, and a lock bit, which a commit holds from the moment
it takes the word until it publishes a value or gives up.

`Segment.cell?` reads a segment as an array of independent cells.  Each
operation is described by what it does to the cells.
-/

namespace WordStm

/-- What a segment holds for one word. -/
structure Cell where
  bytes : Bytes
  version : Version
  locked : Bool
  deriving DecidableEq

/-- A cell with a new value and version, and its lock clear.  A value replaces as
many bytes as it has, up to the length of the cell. -/
def Cell.put (cell : Cell) (value : Bytes) (version : Version) : Cell where
  bytes := value.take cell.bytes.length ++ cell.bytes.drop value.length
  version := version
  locked := false

/-- Replace the bytes from `start` on by the given ones, as far as there are any. -/
def overwrite (data : Array UInt8) (start : Nat) : Bytes → Array UInt8
  | [] => data
  | byte :: rest => overwrite (data.setIfInBounds start byte) (start + 1) rest

@[simp] theorem size_overwrite (data : Array UInt8) (start : Nat) (bytes : Bytes) :
    (overwrite data start bytes).size = data.size := by
  induction bytes generalizing data start with
  | nil => rfl
  | cons byte rest ih => simp [overwrite, ih]

/-- Bytes outside the replaced run stay as they were. -/
theorem getElem?_overwrite (data : Array UInt8) (start : Nat) (bytes : Bytes) (index : Nat) :
    (overwrite data start bytes)[index]? =
      if start ≤ index ∧ index < start + bytes.length ∧ index < data.size then
        bytes[index - start]?
      else data[index]? := by
  induction bytes generalizing data start with
  | nil =>
      have outside : ¬(start ≤ index ∧ index < start + 0 ∧ index < data.size) := by omega
      simp only [List.length_nil, if_neg outside, overwrite]
  | cons byte rest ih =>
      simp only [overwrite, ih, Array.size_setIfInBounds, Array.getElem?_setIfInBounds,
        List.length_cons]
      by_cases here : index = start
      · subst here
        rw [if_neg (by omega)]
        by_cases inside : index < data.size <;> simp [inside]
      · by_cases later : start + 1 ≤ index ∧ index < start + 1 + rest.length ∧ index < data.size
        · have position : index - start = (index - (start + 1)) + 1 := by omega
          rw [if_pos later, if_pos (by omega), position, List.getElem?_cons_succ]
        · rw [if_neg later, if_neg (by omega), if_neg (by omega)]

structure Segment where
  /-- Bytes of a word. -/
  align : Nat
  data : Array UInt8
  locks : Array Bool
  versions : Array Version
  align_pos : 0 < align
  locks_size : locks.size = data.size / align
  versions_size : versions.size = data.size / align

namespace Segment

/-- The count of `width`-byte items in bytes, or the greatest count there is. -/
def saturatedBytes (count width : Nat) : UInt64 :=
  UInt64.ofNat (min (count * width) (UInt64.size - 1))

/-- A segment of zero bytes, every word unlocked and at version 0.  The bytes,
the locks and the versions are requested in this order, and the first refusal
is reported. -/
def create {digest : Digest} (machine : Machine digest) (size align : UInt64) :
    Except Fault (Except Failure Segment) :=
  if nonzero : align = 0 then .error .divisionByZero
  else .ok do
    let words := size.toNat / align.toNat
    machine.request (.data size.toNat) size
    machine.request (.locks words) (saturatedBytes words 1)
    machine.request (.versions words) (saturatedBytes words 8)
    return {
      align := align.toNat
      data := Array.replicate size.toNat 0
      locks := Array.replicate words false
      versions := Array.replicate words 0
      align_pos := by
        have positive : align.toNat ≠ 0 := fun zero => nonzero (UInt64.toNat_inj.mp zero)
        omega
      locks_size := by simp [words]
      versions_size := by simp [words] }

/-- Bytes of the segment, those of no word included. -/
def size (segment : Segment) : Nat := segment.data.size

def wordCount (segment : Segment) : Nat := segment.versions.size

/-- The bytes of a word. -/
def bytes (segment : Segment) (word : Nat) : Bytes :=
  (segment.data.extract (word * segment.align) (word * segment.align + segment.align)).toList

/-- A word as a cell, if the segment has that word. -/
def cell? (segment : Segment) (word : Nat) : Option Cell :=
  match segment.versions[word]?, segment.locks[word]? with
  | some version, some locked => some ⟨segment.bytes word, version, locked⟩
  | _, _ => none

/-- All cells, in word order. -/
def cells (segment : Segment) : List Cell :=
  (List.range segment.wordCount).filterMap segment.cell?

/-- The version of a word. -/
def version (segment : Segment) (word : Nat) : Except Fault Version :=
  match segment.versions[word]? with
  | some version => .ok version
  | none => .error .outOfRange

def isLocked (segment : Segment) (word : Nat) : Except Fault Bool :=
  match segment.locks[word]? with
  | some locked => .ok locked
  | none => .error .outOfRange

/-- Set the lock bit of a word to `locked`. -/
def setLock (segment : Segment) (word : Nat) (locked : Bool) : Segment :=
  { segment with
    locks := segment.locks.setIfInBounds word locked
    locks_size := by simp [segment.locks_size] }

/-- Take a word's lock unless it is held, and say whether it was taken. -/
def tryLock (segment : Segment) (word : Nat) : Except Fault (Bool × Segment) := do
  if ← segment.isLocked word then return (false, segment)
  else return (true, segment.setLock word true)

/-- Clear a word's lock, held or not. -/
def unlock (segment : Segment) (word : Nat) : Except Fault Segment := do
  let _ ← segment.isLocked word
  return segment.setLock word false

/-- Copy a word to the front of a buffer.  A buffer shorter than the word takes
the first bytes only, and the rest of a longer one stays as it was. -/
def load (segment : Segment) (word : Nat) (buffer : Bytes) : Except Fault Bytes := do
  let _ ← segment.version word
  return (segment.bytes word).take buffer.length ++ buffer.drop segment.align

/-- Give a word a value and a version, with its lock clear.  Of a long value only
the first bytes count; a short one replaces only as many. -/
def put (segment : Segment) (word : Nat) (value : Bytes) (version : Version) : Segment :=
  { segment with
    data := overwrite segment.data (word * segment.align) (value.take segment.align)
    versions := segment.versions.setIfInBounds word version
    locks := segment.locks.setIfInBounds word false
    locks_size := by simp [segment.locks_size]
    versions_size := by simp [segment.versions_size] }

/-- Write a value back to a word, stamp the version and release the lock. -/
def publish (segment : Segment) (word : Nat) (value : Bytes) (version : Version) :
    Except Fault Segment := do
  let _ ← segment.version word
  return segment.put word value version

/-- Words and locks are equally many. -/
theorem size_locks (segment : Segment) : segment.locks.size = segment.wordCount := by
  rw [segment.locks_size, wordCount, segment.versions_size]

/-- The bytes of a word all lie in the segment. -/
theorem word_fits (segment : Segment) {word : Nat} (inRange : word < segment.wordCount) :
    word * segment.align + segment.align ≤ segment.size := by
  rw [wordCount, segment.versions_size] at inRange
  calc word * segment.align + segment.align = (word + 1) * segment.align := by
        rw [Nat.add_mul, Nat.one_mul]
    _ ≤ segment.size / segment.align * segment.align := Nat.mul_le_mul_right _ inRange
    _ ≤ segment.size := Nat.div_mul_le_self _ _

/-- A word is as long as the alignment says. -/
@[simp] theorem length_bytes (segment : Segment) {word : Nat} (inRange : word < segment.wordCount) :
    (segment.bytes word).length = segment.align := by
  have fits := segment.word_fits inRange
  simp only [size] at fits
  simp only [bytes, Array.length_toList, Array.size_extract]
  omega

/-- There is a cell for every word. -/
theorem cell?_of_lt (segment : Segment) {word : Nat} (inRange : word < segment.wordCount) :
    ∃ version locked, segment.versions[word]? = some version ∧
      segment.locks[word]? = some locked ∧
      segment.cell? word = some ⟨segment.bytes word, version, locked⟩ := by
  have versionRange : word < segment.versions.size := inRange
  have lockRange : word < segment.locks.size := by rw [size_locks]; exact inRange
  have foundVersion := Array.getElem?_eq_getElem versionRange
  have foundLock := Array.getElem?_eq_getElem lockRange
  exact ⟨_, _, foundVersion, foundLock, by simp [cell?, foundVersion, foundLock]⟩

theorem cell?_eq_none_iff (segment : Segment) {word : Nat} :
    segment.cell? word = none ↔ segment.wordCount ≤ word := by
  constructor
  · intro absent
    refine Nat.le_of_not_lt fun inRange => ?_
    obtain ⟨_, _, _, _, found⟩ := segment.cell?_of_lt inRange
    rw [found] at absent
    cases absent
  · intro outside
    have absent : segment.versions[word]? = none := by simpa [wordCount] using outside
    simp [cell?, absent]

/-- What a cell says about the arrays behind it. -/
theorem of_cell? {segment : Segment} {word : Nat} {cell : Cell}
    (found : segment.cell? word = some cell) :
    word < segment.wordCount ∧ segment.versions[word]? = some cell.version ∧
      segment.locks[word]? = some cell.locked ∧ segment.bytes word = cell.bytes := by
  have inRange : word < segment.wordCount := by
    refine Nat.lt_of_not_le fun outside => ?_
    rw [segment.cell?_eq_none_iff.mpr outside] at found
    cases found
  obtain ⟨version, locked, foundVersion, foundLock, present⟩ := segment.cell?_of_lt inRange
  rw [present] at found
  cases found
  exact ⟨inRange, foundVersion, foundLock, rfl⟩

/-- A cell is as long as the alignment says. -/
theorem length_of_cell? {segment : Segment} {word : Nat} {cell : Cell}
    (found : segment.cell? word = some cell) : cell.bytes.length = segment.align := by
  obtain ⟨inRange, _, _, foundBytes⟩ := of_cell? found
  rw [← foundBytes, segment.length_bytes inRange]

theorem version_of_cell? {segment : Segment} {word : Nat} {cell : Cell}
    (found : segment.cell? word = some cell) : segment.version word = .ok cell.version := by
  simp [version, (of_cell? found).2.1]

theorem isLocked_of_cell? {segment : Segment} {word : Nat} {cell : Cell}
    (found : segment.cell? word = some cell) : segment.isLocked word = .ok cell.locked := by
  simp [isLocked, (of_cell? found).2.2.1]

/-- A lock is taken exactly if the cell was not locked. -/
theorem tryLock_of_cell? {segment : Segment} {word : Nat} {cell : Cell}
    (found : segment.cell? word = some cell) :
    segment.tryLock word =
      .ok (if cell.locked then (false, segment) else (true, segment.setLock word true)) := by
  rw [tryLock, isLocked_of_cell? found]
  cases cell.locked <;> rfl

theorem unlock_of_cell? {segment : Segment} {word : Nat} {cell : Cell}
    (found : segment.cell? word = some cell) :
    segment.unlock word = .ok (segment.setLock word false) := by
  rw [unlock, isLocked_of_cell? found]
  rfl

theorem load_of_cell? {segment : Segment} {word : Nat} {cell : Cell}
    (found : segment.cell? word = some cell) (buffer : Bytes) :
    segment.load word buffer =
      .ok (cell.bytes.take buffer.length ++ buffer.drop cell.bytes.length) := by
  rw [load, version_of_cell? found, (of_cell? found).2.2.2, length_of_cell? found]
  rfl

theorem publish_of_cell? {segment : Segment} {word : Nat} {cell : Cell}
    (found : segment.cell? word = some cell) (value : Bytes) (version : Version) :
    segment.publish word value version = .ok (segment.put word value version) := by
  rw [publish, version_of_cell? found]
  rfl

/-- Setting a lock bit changes that bit of that cell only. -/
theorem cell?_setLock (segment : Segment) (word : Nat) (locked : Bool) (other : Nat) :
    (segment.setLock word locked).cell? other =
      if other = word then (segment.cell? word).map fun cell => { cell with locked }
      else segment.cell? other := by
  by_cases inRange : other < segment.wordCount
  · obtain ⟨version, before, foundVersion, foundLock, present⟩ := segment.cell?_of_lt inRange
    have lockRange : other < segment.locks.size := by rw [size_locks]; exact inRange
    by_cases same : other = word
    · subst same
      rw [if_pos rfl, present]
      simp [cell?, setLock, bytes, foundVersion, lockRange]
    · have apart : word ≠ other := fun equal => same equal.symm
      rw [if_neg same, present]
      simp [cell?, setLock, bytes, foundVersion, foundLock, apart]
  · have outside : segment.wordCount ≤ other := Nat.le_of_not_lt inRange
    have absent : segment.cell? other = none := segment.cell?_eq_none_iff.mpr outside
    have stillAbsent : (segment.setLock word locked).cell? other = none :=
      (segment.setLock word locked).cell?_eq_none_iff.mpr outside
    rw [stillAbsent]
    by_cases same : other = word
    · subst same
      simp [absent]
    · rw [if_neg same, absent]

/-- The bytes of a word, one by one. -/
theorem getElem?_bytes (segment : Segment) (word index : Nat) :
    (segment.bytes word)[index]? =
      if index < segment.align then segment.data[word * segment.align + index]? else none := by
  rw [bytes, Array.getElem?_toList, Array.getElem?_extract]
  by_cases short : index < segment.align
  · rw [if_pos short]
    by_cases inside : word * segment.align + index < segment.data.size
    · rw [if_pos (by omega)]
    · rw [if_neg (by omega), Array.getElem?_eq_none (by omega)]
  · rw [if_neg short, if_neg (by omega)]

/-- Words of a segment do not overlap. -/
theorem apart_of_ne {align word other index : Nat} (differ : other ≠ word)
    (short : index < align) :
    ¬(word * align ≤ other * align + index ∧ other * align + index < word * align + align) := by
  rintro ⟨above, below⟩
  rcases Nat.lt_or_gt_of_ne differ with less | greater
  · have := Nat.mul_le_mul_right align (Nat.succ_le_of_lt less)
    rw [Nat.succ_mul] at this
    omega
  · have := Nat.mul_le_mul_right align (Nat.succ_le_of_lt greater)
    rw [Nat.succ_mul] at this
    omega

/-- A value replaces the first bytes of its own word, and no other byte. -/
theorem bytes_put (segment : Segment) {word : Nat} (inRange : word < segment.wordCount)
    (value : Bytes) (version : Version) (other : Nat) :
    (segment.put word value version).bytes other =
      if other = word then value.take segment.align ++ (segment.bytes word).drop value.length
      else segment.bytes other := by
  have fits := segment.word_fits inRange
  simp only [size] at fits
  apply List.ext_getElem?
  intro index
  rw [getElem?_bytes]
  simp only [put, getElem?_overwrite, List.length_take]
  by_cases short : index < segment.align
  · rw [if_pos short]
    by_cases same : other = word
    · subst same
      rw [if_pos rfl, List.getElem?_append, List.length_take, List.getElem?_drop, getElem?_bytes]
      by_cases replaced : index < min segment.align value.length
      · rw [if_pos (by omega), if_pos replaced]
        congr 1
        omega
      · rw [if_neg (by omega), if_neg replaced]
        have position : value.length + (index - min segment.align value.length) = index := by
          omega
        rw [position, if_pos short]
    · have apart := apart_of_ne same short
      rw [if_neg same, if_neg (by omega), getElem?_bytes, if_pos short]
  · rw [if_neg short]
    by_cases same : other = word
    · subst same
      rw [if_pos rfl]
      refine (List.getElem?_eq_none ?_).symm
      rw [List.length_append, List.length_take, List.length_drop, segment.length_bytes inRange]
      omega
    · rw [if_neg same, getElem?_bytes, if_neg short]

/-- A value, a version and a clear lock go to their own cell, and to no other. -/
theorem cell?_put (segment : Segment) {word : Nat} {cell : Cell}
    (found : segment.cell? word = some cell) (value : Bytes) (version : Version) (other : Nat) :
    (segment.put word value version).cell? other =
      if other = word then some (cell.put value version) else segment.cell? other := by
  obtain ⟨inRange, _, _, foundBytes⟩ := of_cell? found
  have replaced := segment.bytes_put inRange value version other
  by_cases same : other = word
  · subst same
    have versionRange : other < segment.versions.size := inRange
    have lockRange : other < segment.locks.size := by rw [size_locks]; exact inRange
    rw [if_pos rfl] at replaced ⊢
    rw [cell?, replaced, foundBytes, Cell.put, length_of_cell? found]
    simp [put, versionRange, lockRange]
  · have apart : word ≠ other := fun equal => same equal.symm
    rw [if_neg same] at replaced ⊢
    rw [cell?, cell?, replaced]
    simp [put, apart]

end Segment

end WordStm
