import WordStm.Memory
import WordStm.Proofs.Outcome

/-!
# Cells and layout of memory

The layout of memory is the word length and the size of each segment; it says
which cells exist, and no lock and no value changes it.  Lock bits can be set in
any order, and releasing a lock that was taken while it was free leaves memory
exactly as it was.
-/

namespace WordStm

namespace Segment

theorem setLock_setLock (segment : Segment) (word : Nat) (first second : Bool) :
    (segment.setLock word first).setLock word second = segment.setLock word second := by
  simp [setLock]

theorem setLock_comm (segment : Segment) (word other : Nat) (locked : Bool) :
    (segment.setLock word locked).setLock other locked =
      (segment.setLock other locked).setLock word locked := by
  by_cases same : word = other
  · rw [same]
  · simp only [setLock, mk.injEq, true_and, and_true]
    exact Array.setIfInBounds_comm locked locked same

/-- Clearing a clear lock does nothing. -/
theorem setLock_of_isLocked {segment : Segment} {word : Nat}
    (free : segment.isLocked word = .ok false) : segment.setLock word false = segment := by
  have clear : segment.locks[word]? = some false := by
    rw [isLocked] at free
    split at free
    next locked found =>
      cases free
      exact found
    next => cases free
  have same : segment.locks.setIfInBounds word false = segment.locks := by
    apply Array.ext_getElem?
    intro index
    rw [Array.getElem?_setIfInBounds]
    split
    next here =>
      rw [← here, clear, if_pos (Array.getElem?_eq_some_iff.mp clear).1]
    next => rfl
  simp [setLock, same]

end Segment

namespace Memory

/-- The word length and the number of bytes of a segment. -/
def layout (memory : Memory) (handle : Handle) : Option (Nat × Nat) :=
  memory.segments[handle]?.map fun segment => (segment.align, segment.size)

/-- A segment that is there has a layout. -/
theorem layout_of_get {memory : Memory} {handle : Handle} {segment : Segment}
    (got : memory.get handle = .ok segment) :
    memory.layout handle = some (segment.align, segment.size) := by
  rw [get] at got
  split at got
  next present =>
    cases got
    rw [layout, present]
    rfl
  next => cases got

@[simp] theorem layout_setLock (memory : Memory) (place : Place) (locked : Bool) :
    (memory.setLock place locked).layout = memory.layout := by
  funext handle
  simp only [layout, setLock, Array.getElem?_modify]
  split
  · cases memory.segments[handle]? <;> rfl
  · rfl

@[simp] theorem layout_put (memory : Memory) (place : Place) (value : Bytes)
    (version : Version) : (memory.put place value version).layout = memory.layout := by
  funext handle
  simp only [layout, put, Array.getElem?_modify]
  split
  · cases memory.segments[handle]? with
    | none => rfl
    | some segment => simp [Segment.put, Segment.size]
  · rfl

theorem layout_add (memory : Memory) (segment : Segment) (handle : Handle) :
    (memory.add segment).2.layout handle =
      if handle = memory.segments.size then some (segment.align, segment.size)
      else memory.layout handle := by
  simp only [layout, add, Array.getElem?_push]
  split <;> rfl

theorem layout_eq_none_iff {memory : Memory} {handle : Handle} :
    memory.layout handle = none ↔ memory.segments.size ≤ handle := by
  rw [layout, Option.map_eq_none_iff, Array.getElem?_eq_none_iff]

/-- Memories of one layout have equally many segments. -/
theorem size_eq_of_layout {memory other : Memory} (same : memory.layout = other.layout) :
    memory.segments.size = other.segments.size := by
  apply Nat.le_antisymm
  · rw [← layout_eq_none_iff, same]
    exact layout_eq_none_iff.mpr (Nat.le_refl _)
  · rw [← layout_eq_none_iff, ← same]
    exact layout_eq_none_iff.mpr (Nat.le_refl _)

/-- The layout says which cells exist. -/
theorem isSome_cell?_iff {memory : Memory} {place : Place} :
    (memory.cell? place).isSome ↔
      ∃ align size, memory.layout place.segment = some (align, size) ∧
        place.word < size / align := by
  rw [cell?, layout]
  cases memory.segments[place.segment]? with
  | none => simp
  | some segment =>
      have words : segment.wordCount = segment.size / segment.align := segment.versions_size
      simp only [Option.bind_some, Option.map_some, Option.some.injEq, Prod.mk.injEq]
      constructor
      · intro filled
        refine ⟨_, _, ⟨rfl, rfl⟩, ?_⟩
        rw [← words]
        apply Nat.lt_of_not_le
        intro outside
        rw [segment.cell?_eq_none_iff.mpr outside] at filled
        cases filled
      · rintro ⟨_, _, ⟨rfl, rfl⟩, inside⟩
        rw [← words] at inside
        obtain ⟨_, _, _, _, found⟩ := segment.cell?_of_lt inside
        rw [found]
        rfl

/-- A cell is as long as the words of its segment. -/
theorem length_of_cell? {memory : Memory} {place : Place} {cell : Cell} {align size : Nat}
    (found : memory.cell? place = some cell)
    (laidOut : memory.layout place.segment = some (align, size)) :
    cell.bytes.length = align := by
  obtain ⟨segment, present, _, foundCell⟩ := of_cell? found
  rw [layout, present, Option.map_some, Option.some.injEq, Prod.mk.injEq] at laidOut
  rw [Segment.length_of_cell? foundCell, laidOut.1]

/-- A word that a segment has is a cell of memory. -/
theorem exists_cell_of_get {memory : Memory} {place : Place} {segment : Segment}
    (got : memory.get place.segment = .ok segment) (inside : place.word < segment.wordCount) :
    ∃ cell, memory.cell? place = some cell := by
  rw [get] at got
  split at got
  next present =>
    cases got
    obtain ⟨_, _, _, _, found⟩ := segment.cell?_of_lt inside
    exact ⟨_, by rw [cell?, present, Option.bind_some, found]⟩
  next => cases got

/-- A version is read exactly where there is a cell. -/
theorem version_eq_ok_iff {memory : Memory} {place : Place} {version : Version} :
    memory.version place = .ok version ↔
      ∃ cell, memory.cell? place = some cell ∧ cell.version = version := by
  constructor
  · intro succeeded
    have filled : ∃ cell, memory.cell? place = some cell := by
      rw [Memory.version, bind_eq_ok] at succeeded
      rcases succeeded with ⟨segment, got, succeeded⟩
      rw [Segment.version] at succeeded
      split at succeeded
      next found => exact exists_cell_of_get got (Array.getElem?_eq_some_iff.mp found).1
      next => cases succeeded
    rcases filled with ⟨cell, found⟩
    rw [version_of_cell? found] at succeeded
    cases succeeded
    exact ⟨cell, found, rfl⟩
  · rintro ⟨cell, found, rfl⟩
    exact version_of_cell? found

theorem isLocked_eq_ok_iff {memory : Memory} {place : Place} {locked : Bool} :
    memory.isLocked place = .ok locked ↔
      ∃ cell, memory.cell? place = some cell ∧ cell.locked = locked := by
  constructor
  · intro succeeded
    have filled : ∃ cell, memory.cell? place = some cell := by
      rw [isLocked, bind_eq_ok] at succeeded
      rcases succeeded with ⟨segment, got, succeeded⟩
      rw [Segment.isLocked] at succeeded
      split at succeeded
      next found =>
        have inside := (Array.getElem?_eq_some_iff.mp found).1
        rw [segment.size_locks] at inside
        exact exists_cell_of_get got inside
      next => cases succeeded
    rcases filled with ⟨cell, found⟩
    rw [isLocked_of_cell? found] at succeeded
    cases succeeded
    exact ⟨cell, found, rfl⟩
  · rintro ⟨cell, found, rfl⟩
    exact isLocked_of_cell? found

/-- Whether a word is there and locked. -/
def isHeld (memory : Memory) (place : Place) : Bool := (memory.cell? place).any (·.locked)

theorem isHeld_of_cell? {memory : Memory} {place : Place} {cell : Cell}
    (found : memory.cell? place = some cell) : memory.isHeld place = cell.locked := by
  rw [isHeld, found]
  rfl

theorem setLock_setLock (memory : Memory) (place : Place) (first second : Bool) :
    (memory.setLock place first).setLock place second = memory.setLock place second := by
  refine congrArg Memory.mk (Array.ext_getElem? fun index => ?_)
  simp only [setLock, Array.getElem?_modify]
  split
  · cases memory.segments[index]? with
    | none => rfl
    | some segment => exact congrArg some (segment.setLock_setLock _ _ _)
  · rfl

theorem setLock_comm (memory : Memory) (place other : Place) (locked : Bool) :
    (memory.setLock place locked).setLock other locked =
      (memory.setLock other locked).setLock place locked := by
  refine congrArg Memory.mk (Array.ext_getElem? fun index => ?_)
  simp only [setLock, Array.getElem?_modify]
  cases memory.segments[index]? with
  | none => simp
  | some segment =>
      by_cases left : place.segment = index
      · by_cases right : other.segment = index
        · simp only [left, right, if_true, Option.map_some]
          exact congrArg some (segment.setLock_comm _ _ _)
        · simp [left, right]
      · simp [left]

/-- Releasing a lock that was taken while it was free restores memory. -/
theorem setLock_released {memory : Memory} {place : Place}
    (free : memory.isLocked place = .ok false) :
    (memory.setLock place true).setLock place false = memory := by
  rw [setLock_setLock]
  refine congrArg Memory.mk (Array.ext_getElem? fun index => ?_)
  simp only [Array.getElem?_modify]
  split
  next here =>
    rw [isLocked, bind_eq_ok] at free
    obtain ⟨segment, got, free⟩ := free
    rw [get, here] at got
    cases present : memory.segments[index]? with
    | none => rfl
    | some found =>
        simp only [present, Except.ok.injEq] at got
        subst got
        exact congrArg some (Segment.setLock_of_isLocked free)
  next => rfl

end Memory

end WordStm
