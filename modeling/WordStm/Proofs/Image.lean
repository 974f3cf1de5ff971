import WordStm.Address

/-!
# Images

An image gives every byte of every segment a value.  It is what memory comes to
once words, versions and locks are left out, and it has no bounds: bytes that no
segment has are there as well, and are zero until somebody says otherwise.
-/

namespace WordStm

/-- A value for each offset into each segment. -/
abbrev Image := SegmentId → Nat → UInt8

namespace Image

/-- The image of a region that nobody has written to. -/
def zero : Image := fun _ _ => 0

/-- `length` bytes of a segment from an offset on. -/
def slice (image : Image) (segment : SegmentId) (start length : Nat) : Bytes :=
  (List.range length).map fun index => image segment (start + index)

/-- Put a value over the bytes of a segment from an offset on. -/
def overlay (image : Image) (segment : SegmentId) (start : Nat) (value : Bytes) : Image :=
  fun other offset =>
    if other = segment ∧ start ≤ offset then value.getD (offset - start) (image other offset)
    else image other offset

variable {image other : Image} {segment target : SegmentId} {start length : Nat}

@[simp] theorem length_slice (image : Image) (segment : SegmentId) (start length : Nat) :
    (image.slice segment start length).length = length := by
  simp [slice]

/-- Two slices are equal if the images agree between their ends. -/
theorem slice_eq_iff :
    image.slice segment start length = other.slice segment start length ↔
      ∀ offset, start ≤ offset → offset < start + length →
        image segment offset = other segment offset := by
  simp only [slice, List.map_inj_left, List.mem_range]
  constructor
  · intro same offset above below
    have here := same (offset - start) (by omega)
    rwa [Nat.add_sub_cancel' above] at here
  · intro same index inside
    exact same (start + index) (by omega) (by omega)

/-- A slice may be cut anywhere. -/
theorem slice_add (image : Image) (segment : SegmentId) (start near far : Nat) :
    image.slice segment start (near + far) =
      image.slice segment start near ++ image.slice segment (start + near) far := by
  simp [slice, List.range_add, Nat.add_assoc]

@[simp] theorem slice_empty (image : Image) (segment : SegmentId) (start : Nat) :
    image.slice segment start 0 = [] := rfl

/-- Where an image is zero its slices are. -/
theorem slice_of_zero (blank : ∀ offset, image segment offset = 0) (start length : Nat) :
    image.slice segment start length = List.replicate length 0 := by
  simp [slice, blank, List.map_const']

/-- The bytes that were put are read back. -/
theorem slice_overlay_self (image : Image) (segment : SegmentId) (start : Nat) (value : Bytes) :
    (image.overlay segment start value).slice segment start value.length = value := by
  apply List.ext_getElem
  · simp
  · intro index _ inside
    simp [slice, overlay, inside]

/-- Bytes before and after a value stay as they were. -/
theorem slice_overlay_of_apart (image : Image) (value : Bytes) {first : Nat}
    (apart : segment ≠ target ∨ start + length ≤ first ∨ first + value.length ≤ start) :
    (image.overlay target first value).slice segment start length =
      image.slice segment start length := by
  rw [slice_eq_iff]
  intro offset above below
  rw [overlay]
  split
  next inside =>
    have outside : value.length ≤ offset - first := by
      rcases apart with differ | before | behind
      · exact absurd inside.1 differ
      · omega
      · omega
    rw [List.getD_eq_getElem?_getD, List.getElem?_eq_none outside, Option.getD_none]
  next => rfl

@[simp] theorem overlay_nil (image : Image) (segment : SegmentId) (start : Nat) :
    image.overlay segment start [] = image := by
  funext other offset
  simp [overlay]

/-- A value may be put in two parts. -/
theorem overlay_append (image : Image) (segment : SegmentId) (start : Nat)
    (near far : Bytes) :
    image.overlay segment start (near ++ far) =
      (image.overlay segment start near).overlay segment (start + near.length) far := by
  funext other offset
  simp only [overlay, List.getD_eq_getElem?_getD, List.getElem?_append]
  by_cases here : other = segment
  · by_cases early : offset < start + near.length
    · have behind : ¬start + near.length ≤ offset := by omega
      simp only [here, behind, and_false, if_false, true_and]
      split
      next above => rw [if_pos (by omega)]
      next => rfl
    · have inNear : ¬offset - start < near.length := by omega
      have above : start ≤ offset := by omega
      have past : start + near.length ≤ offset := by omega
      simp [here, above, past, inNear, Nat.sub_sub]
  · simp [here]

/-- What is put over two images that agree at a byte agrees there. -/
theorem overlay_congr {offset : Nat} (same : image segment offset = other segment offset)
    (target : SegmentId) (first : Nat) (value : Bytes) :
    image.overlay target first value segment offset =
      other.overlay target first value segment offset := by
  rw [overlay, overlay, same]

/-- Only the segment that is written changes. -/
theorem overlay_of_ne (image : Image) (differ : segment ≠ target) (first : Nat) (value : Bytes) :
    image.overlay target first value segment = image segment := by
  funext offset
  simp [overlay, differ]

end Image

end WordStm
