import Mathlib.Data.Nat.Bitwise
import WordStm.AddressFilter

/-!
# Filters never deny what they were given

Setting a bit clears none, so an address that a filter affirms stays affirmed
however much is inserted later.  An insertion sets every position that its
address selects, and each of them lies in one of the words of the filter.
-/

namespace WordStm.AddressFilter

/-- A shift by less than the width of a word does not lose the bit. -/
theorem toNat_bit (position : Nat) : (bit position).toNat = 2 ^ (position % 64) := by
  have short : position % 64 < 64 := Nat.mod_lt _ (by decide)
  have inside : 2 ^ (position % 64) < 2 ^ 64 := Nat.pow_lt_pow_right (by decide) short
  have shift : (UInt64.ofNat (position % 64)).toNat = position % 64 := by
    rw [UInt64.toNat_ofNat']
    omega
  have one : (1 : UInt64).toNat = 1 := rfl
  rw [bit, UInt64.toNat_shiftLeft, shift, one, Nat.mod_eq_of_lt short, Nat.shiftLeft_eq,
    Nat.one_mul, Nat.mod_eq_of_lt inside]

/-- A bit is tested within its word; beyond the words none is set. -/
theorem testBit_eq (words : Array UInt64) (position : Nat) : testBit words position =
    (words[position / 64]?.getD 0).toNat.testBit (position % 64) := by
  cases found : words[position / 64]? with
  | none => simp [testBit, found]
  | some word =>
      have masked : ((word &&& bit position) != 0) = ((word &&& bit position).toNat != 0) := by
        rw [Bool.eq_iff_iff, bne_iff_ne, bne_iff_ne, ne_eq, ← UInt64.toNat_inj]
        rfl
      simp only [testBit, found, Option.getD_some]
      rw [masked, UInt64.toNat_and, toNat_bit, Nat.and_two_pow]
      cases word.toNat.testBit (position % 64) with
      | false => simp
      | true => simp

/-- Setting a bit sets it and no other, if there is a word for it. -/
theorem testBit_setBit (words : Array UInt64) (position other : Nat) :
    testBit (setBit words position) other =
      (testBit words other || decide (other = position ∧ position / 64 < words.size)) := by
  rw [testBit_eq, testBit_eq, setBit, Array.getElem?_modify]
  split
  next same =>
    rw [same]
    cases found : words[other / 64]? with
    | none =>
        have outside := Array.getElem?_eq_none_iff.mp found
        simp [Nat.not_lt_of_le outside]
    | some word =>
        rcases Array.getElem?_eq_some_iff.mp found with ⟨inside, _⟩
        have place : (position % 64 = other % 64) = (other = position) := by
          rw [eq_iff_iff]
          omega
        simp only [Option.map_some, Option.getD_some, inside, and_true]
        rw [UInt64.toNat_or, toNat_bit, Nat.testBit_or, Nat.testBit_two_pow]
        simp only [place]
  next apart =>
    have differ : other ≠ position := by
      rintro rfl
      exact apart rfl
    simp [differ]

theorem mark_eq_foldr (bits : Nat) (digest : UInt64) (words : Array UInt64) (count : Nat) :
    mark bits digest words count = ((List.range count).map (position bits digest)).foldr
      (fun position words => setBit words position) words := by
  induction count generalizing words with
  | zero => rfl
  | succ index ih => simp [mark, ih, List.range_succ]

theorem marked_eq_all (bits : Nat) (digest : UInt64) (words : Array UInt64) (count : Nat) :
    marked bits digest words count =
      ((List.range count).map (position bits digest)).all (testBit words) := by
  induction count with
  | zero => rfl
  | succ index ih => simp [marked, ih, List.range_succ, Bool.and_comm]

theorem size_foldr (words : Array UInt64) (positions : List Nat) :
    (positions.foldr (fun position words => setBit words position) words).size = words.size := by
  induction positions with
  | nil => rfl
  | cons position rest same => rw [List.foldr_cons, size_setBit, same]

/-- Setting several bits sets them and no others, as far as there are words for them. -/
theorem testBit_foldr (words : Array UInt64) (positions : List Nat) (other : Nat) :
    testBit (positions.foldr (fun position words => setBit words position) words) other =
      (testBit words other || decide (other ∈ positions ∧ other / 64 < words.size)) := by
  induction positions with
  | nil => simp
  | cons position rest ih =>
      rw [List.foldr_cons, testBit_setBit, size_foldr, ih]
      by_cases same : other = position
      · subst same
        by_cases inside : other / 64 < words.size
        · simp [inside]
        · simp [inside]
      · simp [same]

/-- Setting bits clears none. -/
theorem testBit_mark_of (bits : Nat) (digest : UInt64) {words : Array UInt64} {position : Nat}
    (count : Nat) (already : testBit words position = true) :
    testBit (mark bits digest words count) position = true := by
  rw [mark_eq_foldr, testBit_foldr, already, Bool.true_or]

/-- More set bits affirm at least as much. -/
theorem marked_of_subset (bits : Nat) (digest : UInt64) {words larger : Array UInt64}
    (subset : ∀ position, testBit words position = true → testBit larger position = true)
    (count : Nat) (already : marked bits digest words count = true) :
    marked bits digest larger count = true := by
  rw [marked_eq_all, List.all_eq_true] at already ⊢
  intro position selected
  exact subset position (already position selected)

/-- Marking sets every position that the digest selects. -/
theorem marked_mark {bits : Nat} (digest : UInt64) {words : Array UInt64}
    (size : bits = words.size * 64) (nonempty : bits ≠ 0) (count : Nat) :
    marked bits digest (mark bits digest words count) count = true := by
  subst size
  rw [marked_eq_all, mark_eq_foldr, List.all_eq_true]
  intro position selected
  rcases List.mem_map.mp selected with ⟨index, _, rfl⟩
  rw [testBit_foldr, decide_eq_true ⟨selected, position_div_lt nonempty digest index⟩,
    Bool.or_true]

/-- An address is affirmed once it has been inserted. -/
theorem mayContain_insert_self (digest : Digest) (filter : AddressFilter) (address : Address) :
    (filter.insert digest address).mayContain digest address = true := by
  rw [mayContain, bitCount_insert]
  exact marked_mark _ rfl (Nat.ne_of_gt filter.bitCount_pos) _

/-- Inserting one address denies no other. -/
theorem mayContain_insert_of {digest : Digest} {filter : AddressFilter} {other : Address}
    (already : filter.mayContain digest other = true) (address : Address) :
    (filter.insert digest address).mayContain digest other = true := by
  rw [mayContain, bitCount_insert]
  apply marked_of_subset _ _ _ _ already
  intro position set
  exact testBit_mark_of _ _ _ set

end WordStm.AddressFilter
