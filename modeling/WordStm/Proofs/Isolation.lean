import WordStm.Proofs.Allotment

/-!
# The words of a segment are isolated

The bytes of all words lie in one array, one word after another, and their versions and
locks in two more.  Whatever is called, a segment is seen as so many independent cells:
a call changes the cell of its own word, and neither another cell nor a byte behind the
last word.
-/

namespace WordStm

namespace Segment

/-- A call that may change a segment. -/
inductive Call where
  | tryLock (word : Nat)
  | unlock (word : Nat)
  | publish (word : Nat) (value : Bytes) (version : Version)
  deriving DecidableEq

/-- What a call answers. -/
inductive Reply where
  | taken (taken : Bool)
  | done
  deriving DecidableEq

/-- Carry out a call. -/
def call (segment : Segment) : Call → Except Fault (Segment × Reply)
  | .tryLock word => do
      let (taken, segment) ← segment.tryLock word
      return (segment, .taken taken)
  | .unlock word => return (← segment.unlock word, .done)
  | .publish word value version => return (← segment.publish word value version, .done)

/-- Carry out calls one after another, and collect the answers. -/
def calls (segment : Segment) : List Call → Except Fault (Segment × List Reply)
  | [] => .ok (segment, [])
  | first :: rest => do
      let (segment, reply) ← segment.call first
      let (segment, replies) ← segment.calls rest
      return (segment, reply :: replies)

namespace Call

/-- The word that a call is about. -/
def word : Call → Nat
  | tryLock word | unlock word | publish word _ _ => word

/-- What a call makes of the cell of its word. -/
def change (cell : Cell) : Call → Cell
  | tryLock _ => { cell with locked := true }
  | unlock _ => { cell with locked := false }
  | publish _ value version => cell.put value version

/-- What a call makes of independent cells. -/
def apply (cells : List Cell) (call : Call) : List Cell :=
  cells.modify call.word call.change

/-- What a call answers by independent cells: a lock is taken unless it is held. -/
def answer (cells : List Cell) : Call → Reply
  | tryLock word => .taken (cells[word]?.any fun cell => !cell.locked)
  | unlock _ | publish .. => .done

/-- What calls answer by independent cells. -/
def answers (cells : List Cell) : List Call → List Reply
  | [] => []
  | first :: rest => first.answer cells :: answers (first.apply cells) rest

/-- Cells change one by one. -/
theorem getElem?_apply (cells : List Cell) (call : Call) (word : Nat) :
    (call.apply cells)[word]? =
      if word = call.word then cells[word]?.map call.change else cells[word]? := by
  rw [apply, List.getElem?_modify]
  by_cases same : word = call.word
  · simp [same]
  · simp [same, Ne.symm same]

end Call

variable {segment later : Segment}

/-- There is a cell for every word, and no other. -/
theorem getElem?_cells (segment : Segment) (word : Nat) :
    segment.cells[word]? = segment.cell? word := by
  let cellOf (word : Nat) : Cell :=
    ⟨segment.bytes word, segment.versions[word]?.getD 0, segment.locks[word]?.getD false⟩
  have every : ∀ word < segment.wordCount, segment.cell? word = some (cellOf word) := by
    intro word inRange
    rcases segment.cell?_of_lt inRange with ⟨version, locked, foundVersion, foundLock, found⟩
    simp [found, cellOf, foundVersion, foundLock]
  have mapped : segment.cells = (List.range segment.wordCount).map cellOf := by
    rw [cells, ← List.filterMap_eq_map']
    exact List.filterMap_congr fun word member => every word (List.mem_range.mp member)
  rw [mapped, List.getElem?_map]
  rcases Nat.lt_or_ge word segment.wordCount with inRange | outside
  · rw [List.getElem?_range inRange, Option.map_some, every word inRange]
  · rw [List.getElem?_eq_none (by simpa using outside), Option.map_none,
      segment.cell?_eq_none_iff.mpr outside]

theorem length_cells (segment : Segment) : segment.cells.length = segment.wordCount := by
  have both : ∀ word, segment.cells.length ≤ word ↔ segment.wordCount ≤ word := by
    intro word
    rw [← List.getElem?_eq_none_iff, getElem?_cells, cell?_eq_none_iff]
  exact Nat.le_antisymm ((both _).mpr (Nat.le_refl _)) ((both _).mp (Nat.le_refl _))

/-- What can be read of a segment is what some cells say. -/
structure Presents (segment : Segment) (cells : List Cell) : Prop where
  words : segment.wordCount = cells.length
  bytes : ∀ (word : Nat) (cell : Cell), cells[word]? = some cell →
    cell.bytes.length = segment.align
  version : ∀ (word : Nat) (cell : Cell), cells[word]? = some cell →
    segment.version word = .ok cell.version
  isLocked : ∀ (word : Nat) (cell : Cell), cells[word]? = some cell →
    segment.isLocked word = .ok cell.locked
  load : ∀ (word : Nat) (cell : Cell), cells[word]? = some cell → ∀ buffer : Bytes,
    segment.load word buffer =
      .ok (cell.bytes.take buffer.length ++ buffer.drop segment.align)

theorem presents (segment : Segment) : segment.Presents segment.cells where
  words := segment.length_cells.symm
  bytes := by
    intro word cell found
    rw [getElem?_cells] at found
    exact length_of_cell? found
  version := by
    intro word cell found
    rw [getElem?_cells] at found
    exact version_of_cell? found
  isLocked := by
    intro word cell found
    rw [getElem?_cells] at found
    exact isLocked_of_cell? found
  load := by
    intro word cell found buffer
    rw [getElem?_cells] at found
    rw [load_of_cell? found, length_of_cell? found]

/-- A segment comes out of a call as its cells would, and bytes behind them do not change. -/
structure Follows (segment later : Segment) (cells : List Cell) : Prop where
  cells : later.cells = cells
  size : later.size = segment.size
  align : later.align = segment.align
  trailing : ∀ index, segment.wordCount * segment.align ≤ index →
    later.data[index]? = segment.data[index]?

theorem follows_setLock (call : Call) {locked : Bool}
    (change : ∀ cell : Cell, call.change cell = { cell with locked }) :
    segment.Follows (segment.setLock call.word locked) (call.apply segment.cells) where
  cells := by
    apply List.ext_getElem?
    intro other
    rw [getElem?_cells, cell?_setLock, Call.getElem?_apply, getElem?_cells]
    split
    next same => simp only [same, funext change]
    next => rfl
  size := rfl
  align := rfl
  trailing _ _ := rfl

theorem follows_put {word : Nat} (inRange : word < segment.wordCount) (value : Bytes)
    (version : Version) : segment.Follows (segment.put word value version)
      ((Call.publish word value version).apply segment.cells) where
  cells := by
    rcases segment.cell?_of_lt inRange with ⟨_, _, _, _, found⟩
    apply List.ext_getElem?
    intro other
    rw [getElem?_cells, cell?_put segment found, Call.getElem?_apply, getElem?_cells]
    by_cases same : other = word
    · subst same
      simp [Call.word, Call.change, found]
    · simp [Call.word, same]
  size := size_overwrite _ _ _
  align := rfl
  trailing := by
    intro index behind
    have fits : word * segment.align + segment.align ≤ segment.wordCount * segment.align := by
      rw [← Nat.succ_mul]
      exact Nat.mul_le_mul_right _ inRange
    have short : (value.take segment.align).length ≤ segment.align := List.length_take_le _ _
    rw [put, getElem?_overwrite, if_neg (by omega)]

/-- A call changes the cells as it would change independent ones, and no byte behind them. -/
theorem follows_call {call : Call} (inRange : call.word < segment.wordCount) :
    ∃ later, segment.call call = .ok (later, call.answer segment.cells) ∧
      segment.Follows later (call.apply segment.cells) := by
  rcases segment.cell?_of_lt inRange with ⟨version, locked, _, _, found⟩
  cases call with
  | tryLock word =>
      rw [Call.word] at found
      rw [Segment.call, tryLock_of_cell? found, Call.answer, getElem?_cells, found]
      cases locked with
      | false =>
          exact ⟨_, rfl, follows_setLock (.tryLock word) fun _ => rfl⟩
      | true =>
          -- independent cells have the held lock set once more, which changes nothing
          refine ⟨segment, rfl, ?_, rfl, rfl, fun _ _ => rfl⟩
          apply List.ext_getElem?
          intro other
          rw [Call.getElem?_apply]
          split
          next same =>
            rw [same, getElem?_cells, Call.word, found]
            rfl
          next => rfl
  | unlock word =>
      rw [Call.word] at found
      rw [Segment.call, unlock_of_cell? found]
      exact ⟨_, rfl, follows_setLock (.unlock word) fun _ => rfl⟩
  | publish word value version =>
      rw [Call.word] at found
      rw [Segment.call, publish_of_cell? found]
      exact ⟨_, rfl, follows_put inRange value version⟩

/-- So does any sequence of calls. -/
theorem follows_calls {calls : List Call}
    (inRange : ∀ call ∈ calls, call.word < segment.wordCount) :
    ∃ later, segment.calls calls = .ok (later, Call.answers segment.cells calls) ∧
      segment.Follows later (calls.foldl Call.apply segment.cells) := by
  induction calls generalizing segment with
  | nil => exact ⟨segment, rfl, rfl, rfl, rfl, fun _ _ => rfl⟩
  | cons first rest ih =>
      rcases follows_call (inRange first List.mem_cons_self) with ⟨middle, called, followed⟩
      have count : middle.wordCount = segment.wordCount := by
        rw [← length_cells, ← length_cells, followed.cells, Call.apply, List.length_modify]
      have stillInRange : ∀ call ∈ rest, call.word < middle.wordCount := by
        intro call member
        rw [count]
        exact inRange call (List.mem_cons_of_mem _ member)
      rcases ih stillInRange with ⟨later, ran, follows⟩
      rw [followed.cells] at ran follows
      refine ⟨later, ?_, follows.cells, follows.size.trans followed.size,
        follows.align.trans followed.align, ?_⟩
      · simp only [Segment.calls, called, ran, bind, Except.bind]
        rfl
      · intro index behind
        rw [← followed.trailing index behind]
        apply follows.trailing
        rwa [count, followed.align]

/-- The cells of a new segment. -/
theorem cells_of_create {digest : Digest} {machine : Machine digest} {size align : UInt64}
    (created : create machine size align = .ok (.ok segment)) :
    segment.cells = List.replicate (size.toNat / align.toNat)
      ⟨List.replicate align.toNat 0, 0, false⟩ := by
  rcases create_ok created with ⟨aligned, sized, zero⟩
  rw [List.eq_replicate_iff]
  constructor
  · rw [length_cells, wordCount, segment.versions_size, aligned]
    exact congrArg (· / align.toNat) sized
  · intro cell member
    rcases List.mem_iff_getElem?.mp member with ⟨word, found⟩
    rw [getElem?_cells] at found
    rcases zero word cell found with ⟨bytes, version, locked⟩
    cases cell
    cases bytes
    cases version
    cases locked
    rfl

/-- A segment that is made is an array of independent cells of zero bytes, whatever its size,
and remains one whatever is called.  Bytes behind its last word do not change. -/
theorem words_isolated {digest : Digest} {machine : Machine digest} {size align : UInt64}
    {segment : Segment}
    (created : create machine size align = .ok (.ok segment)) {calls : List Call}
    (inRange : ∀ call ∈ calls, call.word < size.toNat / align.toNat) :
    segment.cells = List.replicate (size.toNat / align.toNat)
      ⟨List.replicate align.toNat 0, 0, false⟩ ∧
    ∃ later, segment.calls calls = .ok (later, Call.answers segment.cells calls) ∧
      later.Presents (calls.foldl Call.apply segment.cells) ∧
      later.size = size.toNat ∧ later.align = align.toNat ∧
      ∀ index, size.toNat / align.toNat * align.toNat ≤ index →
        later.data[index]? = segment.data[index]? := by
  have cells := cells_of_create created
  rcases create_ok created with ⟨aligned, sized, _⟩
  have count : segment.wordCount = size.toNat / align.toNat := by
    rw [← length_cells, cells, List.length_replicate]
  rw [← count] at inRange
  rcases follows_calls inRange with ⟨later, ran, follows⟩
  refine ⟨cells, later, ran, ?_, follows.size.trans sized, follows.align.trans aligned, ?_⟩
  · rw [← follows.cells]
    exact later.presents
  · intro index behind
    apply follows.trailing
    rwa [count, aligned]

/-- Of two words of four bytes, one is given a value that is too short, the other one that is
too long. -/
def ragged : List Call :=
  [.tryLock 1, .publish 1 [1, 2] 5, .tryLock 1, .tryLock 1, .unlock 1, .tryLock 0,
    .publish 0 [1, 2, 3, 4, 5, 6] 7, .tryLock 1]

/-- Eleven bytes make two words, and the last three bytes belong to neither. -/
theorem words_isolated_ragged :
    ∃ segment later, create (.limited 1000) 11 4 = .ok (.ok segment) ∧
      segment.calls ragged = .ok (later, [.taken true, .done, .taken true, .taken false, .done,
        .taken true, .done, .taken true]) ∧
      later.Presents [⟨[1, 2, 3, 4], 7, false⟩, ⟨[1, 2, 0, 0], 5, true⟩] ∧
      ∀ index, 8 ≤ index → later.data[index]? = segment.data[index]? := by
  have granted : Granted (.limited 1000) 11 4 := ⟨by decide, by decide, by decide⟩
  have inRange : ∀ call ∈ ragged, call.word < (11 : UInt64).toNat / (4 : UInt64).toNat := by
    decide
  rcases (granted_iff (by decide)).mpr granted with ⟨segment, created⟩
  rcases words_isolated created inRange with ⟨cells, later, ran, presents, _, _, trailing⟩
  rw [cells] at ran presents
  exact ⟨segment, later, created, ran, presents, trailing⟩

end Segment

end WordStm
