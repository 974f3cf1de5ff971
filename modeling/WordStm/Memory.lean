import WordStm.Segment

/-!
# Memory

Memory holds every segment that was ever made, in the order of making.  Nothing
is ever taken out of it: a segment that has been freed can no longer be looked
up by its address, but a transaction that found it before still has its place
here.
-/

namespace WordStm

/-- The position of a segment in memory. -/
abbrev Handle := Nat

/-- A word of a segment. -/
structure Place where
  segment : Handle
  word : Nat
  deriving DecidableEq

/-- In one segment places differ by their words. -/
theorem Place.eq_iff_word {place other : Place} (same : place.segment = other.segment) :
    other = place ↔ other.word = place.word := by
  cases place
  cases other
  cases same
  simp

structure Memory where
  segments : Array Segment

namespace Memory

def empty : Memory := ⟨#[]⟩

/-- Add a segment behind all others. -/
def add (memory : Memory) (segment : Segment) : Handle × Memory :=
  (memory.segments.size, ⟨memory.segments.push segment⟩)

def segment? (memory : Memory) (handle : Handle) : Option Segment := memory.segments[handle]?

/-- A word as a cell, if it exists. -/
def cell? (memory : Memory) (place : Place) : Option Cell :=
  memory.segments[place.segment]?.bind fun segment => segment.cell? place.word

/-- The segment that a handle selects. -/
def get (memory : Memory) (handle : Handle) : Except Fault Segment :=
  match memory.segments[handle]? with
  | some segment => .ok segment
  | none => .error .outOfRange

/-- Replace a segment that exists. -/
def set (memory : Memory) (handle : Handle) (segment : Segment) : Memory :=
  ⟨memory.segments.setIfInBounds handle segment⟩

/-- Set the lock bit of a word to `locked`. -/
def setLock (memory : Memory) (place : Place) (locked : Bool) : Memory :=
  ⟨memory.segments.modify place.segment (·.setLock place.word locked)⟩

/-- Give a word a value and a version, with its lock clear. -/
def put (memory : Memory) (place : Place) (value : Bytes) (version : Version) : Memory :=
  ⟨memory.segments.modify place.segment (·.put place.word value version)⟩

def version (memory : Memory) (place : Place) : Except Fault Version := do
  (← memory.get place.segment).version place.word

def isLocked (memory : Memory) (place : Place) : Except Fault Bool := do
  (← memory.get place.segment).isLocked place.word

/-- Copy a word to the front of a buffer. -/
def load (memory : Memory) (place : Place) (buffer : Bytes) : Except Fault Bytes := do
  (← memory.get place.segment).load place.word buffer

/-- Take a word's lock unless it is held, and say whether it was taken. -/
def tryLock (memory : Memory) (place : Place) : Except Fault (Bool × Memory) := do
  if ← memory.isLocked place then return (false, memory)
  else return (true, memory.setLock place true)

/-- Clear a word's lock, held or not. -/
def unlock (memory : Memory) (place : Place) : Except Fault Memory := do
  let _ ← memory.isLocked place
  return memory.setLock place false

/-- Write a value back to a word, stamp the version and release the lock. -/
def publish (memory : Memory) (place : Place) (value : Bytes) (version : Version) :
    Except Fault Memory := do
  let _ ← memory.version place
  return memory.put place value version

/-- The segment behind a cell. -/
theorem of_cell? {memory : Memory} {place : Place} {cell : Cell}
    (found : memory.cell? place = some cell) :
    ∃ segment, memory.segments[place.segment]? = some segment ∧
      memory.get place.segment = .ok segment ∧ segment.cell? place.word = some cell := by
  obtain ⟨segment, present, foundCell⟩ := Option.bind_eq_some_iff.mp found
  exact ⟨segment, present, by simp [get, present], foundCell⟩

theorem version_of_cell? {memory : Memory} {place : Place} {cell : Cell}
    (found : memory.cell? place = some cell) : memory.version place = .ok cell.version := by
  obtain ⟨_, _, got, foundCell⟩ := of_cell? found
  rw [version, got]
  exact Segment.version_of_cell? foundCell

theorem isLocked_of_cell? {memory : Memory} {place : Place} {cell : Cell}
    (found : memory.cell? place = some cell) : memory.isLocked place = .ok cell.locked := by
  obtain ⟨_, _, got, foundCell⟩ := of_cell? found
  rw [isLocked, got]
  exact Segment.isLocked_of_cell? foundCell

theorem load_of_cell? {memory : Memory} {place : Place} {cell : Cell}
    (found : memory.cell? place = some cell) (buffer : Bytes) :
    memory.load place buffer =
      .ok (cell.bytes.take buffer.length ++ buffer.drop cell.bytes.length) := by
  obtain ⟨_, _, got, foundCell⟩ := of_cell? found
  rw [load, got]
  exact Segment.load_of_cell? foundCell buffer

/-- A lock is taken exactly if the cell was not locked. -/
theorem tryLock_of_cell? {memory : Memory} {place : Place} {cell : Cell}
    (found : memory.cell? place = some cell) :
    memory.tryLock place =
      .ok (if cell.locked then (false, memory) else (true, memory.setLock place true)) := by
  rw [tryLock, isLocked_of_cell? found]
  cases cell.locked <;> rfl

theorem unlock_of_cell? {memory : Memory} {place : Place} {cell : Cell}
    (found : memory.cell? place = some cell) :
    memory.unlock place = .ok (memory.setLock place false) := by
  rw [unlock, isLocked_of_cell? found]
  rfl

theorem publish_of_cell? {memory : Memory} {place : Place} {cell : Cell}
    (found : memory.cell? place = some cell) (value : Bytes) (version : Version) :
    memory.publish place value version = .ok (memory.put place value version) := by
  rw [publish, version_of_cell? found]
  rfl

/-- Another segment is out of the way of all places that exist. -/
theorem cell?_add (memory : Memory) (segment : Segment) (place : Place) :
    (memory.add segment).2.cell? place =
      if place.segment = memory.segments.size then segment.cell? place.word
      else memory.cell? place := by
  simp only [cell?, add, Array.getElem?_push]
  split <;> rfl

/-- Setting a lock bit changes that bit of that cell only. -/
theorem cell?_setLock (memory : Memory) (place : Place) (locked : Bool) (other : Place) :
    (memory.setLock place locked).cell? other =
      if other = place then (memory.cell? place).map fun cell => { cell with locked }
      else memory.cell? other := by
  simp only [cell?, setLock, Array.getElem?_modify]
  by_cases sameSegment : place.segment = other.segment
  · rw [if_pos sameSegment, sameSegment]
    simp only [Place.eq_iff_word sameSegment]
    cases present : memory.segments[other.segment]? with
    | none => simp
    | some segment => simp only [Option.map_some, Option.bind_some, Segment.cell?_setLock]
  · have apart : other ≠ place := fun equal => sameSegment (by rw [equal])
    rw [if_neg sameSegment, if_neg apart]

/-- A value, a version and a clear lock go to their own cell, and to no other. -/
theorem cell?_put {memory : Memory} {place : Place} {cell : Cell}
    (found : memory.cell? place = some cell) (value : Bytes) (version : Version)
    (other : Place) :
    (memory.put place value version).cell? other =
      if other = place then some (cell.put value version) else memory.cell? other := by
  obtain ⟨segment, present, _, foundCell⟩ := of_cell? found
  simp only [cell?, put, Array.getElem?_modify]
  by_cases sameSegment : place.segment = other.segment
  · rw [if_pos sameSegment, ← sameSegment, present]
    simp only [Option.map_some, Option.bind_some, Segment.cell?_put segment foundCell,
      Place.eq_iff_word sameSegment]
  · have apart : other ≠ place := fun equal => sameSegment (by rw [equal])
    rw [if_neg sameSegment, if_neg apart]

end Memory

end WordStm
