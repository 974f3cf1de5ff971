import Mathlib.Algebra.Order.BigOperators.Group.Finset
import WordStm.Proofs.Sizing

/-!
# A filter is a set of bits

The bits of a filter are those that the addresses inserted since the last clear select,
however often and in whatever order they came.  So a filter affirms an address exactly if
its bits are among them, never denies one that was inserted, and denies all when there was
none.  No progression of positions is cut short by the width of a word.
-/

namespace WordStm.AddressFilter

/-- A call that changes a filter. -/
inductive Call where
  | insert (address : Address)
  | clear
  deriving DecidableEq

namespace Call

/-- What was inserted since the last clear, given what was before a call. -/
def tells (told : List Address) : Call → List Address
  | insert address => told ++ [address]
  | clear => []

/-- What was inserted since the last clear, in order and with repetitions. -/
def told (calls : List Call) : List Address := calls.foldl tells []

theorem told_snoc (calls : List Call) (call : Call) :
    told (calls ++ [call]) = call.tells (told calls) := by
  simp [told]

end Call

/-- Carry out a call. -/
def call (digest : Digest) (filter : AddressFilter) : Call → AddressFilter
  | .insert address => filter.insert digest address
  | .clear => filter.clear

/-- Carry out calls one after another. -/
def calls (digest : Digest) (filter : AddressFilter) (calls : List Call) : AddressFilter :=
  calls.foldl (call digest) filter

/-- The positions that any of some addresses selects. -/
def selected (digest : Digest) (filter : AddressFilter) (addresses : List Address) : Finset Nat :=
  addresses.toFinset.biUnion fun address => (filter.positions digest address).toFinset

theorem testBit_replicate (size position : Nat) :
    testBit (Array.replicate size 0) position = false := by
  rw [testBit_eq, Array.getElem?_replicate]
  split
  next => simp
  next => simp

/-- Words are the same if they have the same bits. -/
theorem words_ext {left right : Array UInt64} (size : left.size = right.size)
    (same : ∀ position, testBit left position = testBit right position) : left = right := by
  apply Array.ext size
  intro word inLeft inRight
  rw [← UInt64.toNat_inj]
  apply Nat.eq_of_testBit_eq
  intro index
  rcases Nat.lt_or_ge index 64 with short | long
  · have here : (64 * word + index) / 64 = word := by omega
    have there : (64 * word + index) % 64 = index := by omega
    have both := same (64 * word + index)
    rw [testBit_eq, testBit_eq, here, there] at both
    simpa [inLeft, inRight] using both
  · have clear : ∀ number : UInt64, number.toNat.testBit index = false := by
      intro number
      apply Nat.testBit_lt_two_pow
      exact Nat.lt_of_lt_of_le number.toNat_lt (Nat.pow_le_pow_right (by decide) long)
    rw [clear, clear]

theorem onesOf_eq (word : UInt64) :
    onesOf word = (List.range 64).countP fun index => word.toNat.testBit index := by
  unfold onesOf
  split
  next empty =>
    subst empty
    rfl
  next => rfl

/-- Counting the ones of the words counts the positions that are set. -/
theorem countOnes_eq (filter : AddressFilter) :
    filter.countOnes = (List.range filter.bitCount).countP (testBit filter.words) := by
  rcases filter with ⟨⟨words⟩, hashes, positive⟩
  simp only [countOnes, bitCount, List.foldl_toArray', List.size_toArray]
  clear positive
  -- words come in at the end, so that those before them keep their positions
  induction words using List.reverseRecOn with
  | nil => rfl
  | append_singleton words word ih =>
      rw [List.foldl_append, List.foldl_cons, List.foldl_nil, ih, List.length_append,
        List.length_singleton, Nat.add_mul, Nat.one_mul, List.range_add, List.countP_append,
        List.countP_map, onesOf_eq]
      congr 1
      · apply List.countP_congr
        intro position below
        have here : position / 64 < words.length := by
          have below := List.mem_range.mp below
          omega
        simp [testBit_eq, List.getElem?_append_left here]
      · apply List.countP_congr
        intro index below
        have below := List.mem_range.mp below
        have here : (words.length * 64 + index) / 64 = words.length := by omega
        have there : (words.length * 64 + index) % 64 = index := by omega
        simp [testBit_eq, here, there]

/-- The start and the steps of a progression stay within a word, however far it goes. -/
theorem progression_lt (digest : UInt64) (index : UInt32) :
    (start digest).toNat + index.toNat * (stride digest).toNat < 2 ^ 64 := by
  have mask : (0xffffffff : UInt64).toNat = 2 ^ 32 - 1 := rfl
  have one : (1 : UInt64).toNat < 2 ^ 32 := by decide
  have low : (start digest).toNat ≤ 2 ^ 32 - 1 := by
    rw [start, UInt64.toNat_and, mask]
    exact Nat.and_le_right
  have high : (stride digest).toNat < 2 ^ 32 := by
    have half : (digest >>> 32).toNat < 2 ^ 32 := by
      have shift : (32 : UInt64).toNat % 64 = 32 := rfl
      have bounded := digest.toNat_lt
      rw [UInt64.toNat_shiftRight, shift, Nat.shiftRight_eq_div_pow]
      omega
    rw [stride, UInt64.toNat_or]
    exact Nat.or_lt_two_pow half one
  have product : index.toNat * (stride digest).toNat ≤ (2 ^ 32 - 1) * (2 ^ 32 - 1) :=
    Nat.mul_le_mul (Nat.le_pred_of_lt index.toNat_lt) (Nat.le_pred_of_lt high)
  omega

/-- So a position is what the progression is without any bound on numbers. -/
theorem position_eq (bits : Nat) (digest : UInt64) (index : UInt32) :
    position bits digest index.toNat =
      ((start digest).toNat + index.toNat * (stride digest).toNat) % bits := by
  have bounded := progression_lt digest index
  have product := Nat.lt_of_le_of_lt (Nat.le_add_left _ _) bounded
  have place : (UInt64.ofNat index.toNat).toNat = index.toNat := by
    have short := index.toNat_lt
    rw [UInt64.toNat_ofNat']
    omega
  rw [position, UInt64.toNat_add, UInt64.toNat_mul, place, Nat.mod_eq_of_lt product,
    Nat.mod_eq_of_lt bounded]

variable {digest : Digest} {filter later : AddressFilter} {addresses : List Address}

theorem mem_selected {position : Nat} : position ∈ filter.selected digest addresses ↔
    ∃ address ∈ addresses, position ∈ filter.positions digest address := by
  simp [selected]

theorem selected_snoc (address : Address) : filter.selected digest (addresses ++ [address]) =
    filter.selected digest addresses ∪ (filter.positions digest address).toFinset := by
  ext position
  rw [Finset.mem_union, List.mem_toFinset, mem_selected, mem_selected]
  simp only [List.mem_append, List.mem_singleton, or_and_right, exists_or, exists_eq_left]

theorem positions_subset {address : Address} (inserted : address ∈ addresses) {position : Nat}
    (probed : position ∈ filter.positions digest address) :
    position ∈ filter.selected digest addresses :=
  mem_selected.mpr ⟨address, inserted, probed⟩

/-- A filter selects only bits that it has. -/
theorem selected_subset (digest : Digest) (filter : AddressFilter) (addresses : List Address) :
    filter.selected digest addresses ⊆ Finset.range filter.bitCount := by
  intro position chosen
  rcases mem_selected.mp chosen with ⟨address, _, probed⟩
  have inside := (filter.takes digest address).inside position probed
  rw [bitCount, Finset.mem_range]
  omega

/-- There are at most so many positions for each address. -/
theorem card_selected_le (digest : Digest) (filter : AddressFilter) (addresses : List Address) :
    (filter.selected digest addresses).card ≤
      filter.hashes.toNat * addresses.toFinset.card := by
  rw [Nat.mul_comm]
  apply Finset.card_biUnion_le_card_mul
  intro address _
  calc (filter.positions digest address).toFinset.card
      ≤ (filter.positions digest address).length := List.toFinset_card_le _
    _ = filter.hashes.toNat := by simp [positions]

/-- A filter shows some addresses: its bits are those that they select. -/
structure Shows (digest : Digest) (addresses : List Address) (filter : AddressFilter) :
    Prop where
  probed : 0 < filter.hashes.toNat
  bits : ∀ position, testBit filter.words position =
    decide (position ∈ filter.selected digest addresses)

/-- A filter of the same size selects the same positions. -/
theorem selected_congr (size : later.words.size = filter.words.size)
    (hashes : later.hashes = filter.hashes) :
    later.selected digest addresses = filter.selected digest addresses := by
  simp only [selected, positions, bitCount, size, hashes]

namespace Shows

/-- A new filter shows nothing. -/
theorem empty {machine : Machine digest} {bits : UInt64} {hashes : UInt32}
    (created : create machine bits hashes = .ok (.ok filter)) : Shows digest [] filter where
  probed := by
    have one : (1 : UInt32).toNat = 1 := rfl
    rw [(fits_of_create created).hashes, UInt32.toNat_max, one]
    omega
  bits := by
    intro position
    rw [create] at created
    split at created
    next =>
      simp only [Except.ok.injEq, bind_eq_ok, pure_eq_ok] at created
      rcases created with ⟨_, _, rfl⟩
      rw [testBit_replicate]
      simp [selected]
    next => cases created

/-- A call to a filter that shows what was told before it leaves one that shows what is told
after it. -/
theorem call (shows : Shows digest addresses filter) (call : Call) :
    (filter.call digest call).words.size = filter.words.size ∧
      (filter.call digest call).hashes = filter.hashes ∧
      Shows digest (call.tells addresses) (filter.call digest call) := by
  cases call with
  | insert address =>
      have taken := filter.takes digest address
      have size : (filter.insert digest address).words.size = filter.words.size := by
        simp [insert]
      refine ⟨size, rfl, shows.probed, ?_⟩
      intro position
      have inside : position ∈ filter.positions digest address ∧
          position / 64 < filter.words.size ↔ position ∈ filter.positions digest address :=
        and_iff_left_of_imp (taken.inside position)
      rw [AddressFilter.call, selected_congr size rfl, taken.inserted, testBit_foldr, shows.bits,
        Call.tells, selected_snoc, ← Bool.decide_or]
      simp only [inside, Finset.mem_union, List.mem_toFinset]
  | clear =>
      have size : filter.clear.words.size = filter.words.size := by simp [clear]
      refine ⟨size, rfl, shows.probed, ?_⟩
      intro position
      rw [AddressFilter.call, clear, testBit_replicate]
      simp [Call.tells, selected]

/-- So does any sequence of calls. -/
theorem calls (shows : Shows digest [] filter) (calls : List Call) :
    (filter.calls digest calls).words.size = filter.words.size ∧
      (filter.calls digest calls).hashes = filter.hashes ∧
      Shows digest (Call.told calls) (filter.calls digest calls) := by
  induction calls using List.reverseRecOn with
  | nil => exact ⟨rfl, rfl, shows⟩
  | append_singleton earlier call ih =>
      rcases ih with ⟨size, hashes, held⟩
      rcases held.call call with ⟨same, alike, holds⟩
      rw [AddressFilter.calls, List.foldl_concat, ← AddressFilter.calls, Call.told_snoc]
      exact ⟨same.trans size, alike.trans hashes, holds⟩

/-- Two filters of one size that show the same addresses are the same. -/
theorem unique {others : List Address} (shows : Shows digest addresses filter)
    (also : Shows digest others later) (size : later.words.size = filter.words.size)
    (hashes : later.hashes = filter.hashes)
    (same : ∀ address, address ∈ others ↔ address ∈ addresses) : later = filter := by
  have words : later.words = filter.words := by
    apply words_ext size
    intro position
    rw [shows.bits, also.bits, selected_congr size hashes, decide_eq_decide]
    simp only [mem_selected, same]
  cases later
  cases filter
  cases words
  cases hashes
  rfl

theorem mayContain_eq (shows : Shows digest addresses filter) (address : Address) :
    filter.mayContain digest address = decide (∀ position ∈ filter.positions digest address,
      position ∈ filter.selected digest addresses) := by
  rw [(filter.takes digest address).asked]
  rw [Bool.eq_iff_iff, List.all_eq_true, decide_eq_true_iff]
  simp only [shows.bits, decide_eq_true_eq]

/-- There are as many ones as the addresses select positions, each counted once. -/
theorem countOnes_eq_card (shows : Shows digest addresses filter) :
    filter.countOnes = (filter.selected digest addresses).card := by
  have all : filter.selected digest addresses =
      (Finset.range filter.bitCount).filter fun position =>
        testBit filter.words position = true := by
    ext position
    rw [Finset.mem_filter, shows.bits, decide_eq_true_iff]
    exact ⟨fun chosen => ⟨selected_subset digest filter _ chosen, chosen⟩, fun both => both.2⟩
  rw [all, countOnes_eq, List.countP_eq_length_filter]
  simp only [Finset.card, Finset.filter_val, Finset.range_val, Multiset.range]
  simp

end Shows

/-- A filter remembers addresses. -/
structure Remembers (digest : Digest) (addresses : List Address) (filter : AddressFilter) :
    Prop where
  bits : ∀ position, testBit filter.words position = true ↔
    position ∈ filter.selected digest addresses
  asked : ∀ address, filter.mayContain digest address = decide
    (∀ position ∈ filter.positions digest address, position ∈ filter.selected digest addresses)
  affirmed : ∀ address ∈ addresses, filter.mayContain digest address = true
  denied : addresses = [] → ∀ address, filter.mayContain digest address = false
  ones : filter.countOnes = (filter.selected digest addresses).card
  few : filter.countOnes ≤
    min filter.bitCount (filter.hashes.toNat * addresses.toFinset.card)

theorem Shows.remembers (shows : Shows digest addresses filter) :
    filter.Remembers digest addresses := by
  refine ⟨?_, shows.mayContain_eq, ?_, ?_, shows.countOnes_eq_card, ?_⟩
  · intro position
    rw [shows.bits, decide_eq_true_iff]
  · intro address inserted
    rw [shows.mayContain_eq, decide_eq_true fun position => positions_subset inserted]
  · rintro rfl address
    have first : position filter.bitCount (digest address) 0 ∈
        filter.positions digest address :=
      List.mem_map.mpr ⟨0, List.mem_range.mpr shows.probed, rfl⟩
    rw [shows.mayContain_eq, decide_eq_false]
    intro all
    simpa [selected] using all _ first
  · rw [shows.countOnes_eq_card]
    apply le_min
    · rw [← Finset.card_range filter.bitCount]
      exact Finset.card_le_card (selected_subset digest filter addresses)
    · exact card_selected_le digest filter addresses

/-- A filter remembers just the set of the addresses that were inserted since it was last
cleared, and no progression of positions leaves the range of numbers. -/
theorem insertions_remembered (digest : Digest) :
    (∀ (digest : UInt64) (index : UInt32),
      (start digest).toNat + index.toNat * (stride digest).toNat ≤ 2 ^ 64 - 1 ∧
      ∀ bits, position bits digest index.toNat =
        ((start digest).toNat + index.toNat * (stride digest).toNat) % bits) ∧
    ∀ (machine : Machine digest) bits hashes filter,
      create machine bits hashes = .ok (.ok filter) → ∀ calls,
        (filter.calls digest calls).words.size = filter.words.size ∧
        (filter.calls digest calls).hashes = filter.hashes ∧
        (filter.calls digest calls).Remembers digest (Call.told calls) ∧
        ∀ others, (∀ address, address ∈ Call.told others ↔ address ∈ Call.told calls) →
          filter.calls digest others = filter.calls digest calls := by
  constructor
  · intro digest index
    exact ⟨Nat.le_pred_of_lt (progression_lt digest index), fun bits => position_eq bits _ _⟩
  · intro machine bits hashes filter created calls
    have start := Shows.empty created
    rcases start.calls calls with ⟨size, alike, shows⟩
    refine ⟨size, alike, shows.remembers, ?_⟩
    intro others same
    rcases start.calls others with ⟨sizeToo, alikeToo, showsToo⟩
    exact shows.unique showsToo (sizeToo.trans size.symm) (alikeToo.trans alike.symm) same

/-- Addresses are inserted in one order with a repetition after a clear, and in another order
without either. -/
theorem insertions_remembered_reordered :
    ∃ filter, create (.limited 1000) 64 3 = .ok (.ok filter) ∧
      filter.calls .ofAddress [.insert ⟨.first, 16⟩, .insert ⟨.first, 8⟩] =
        filter.calls .ofAddress [.insert ⟨.first, 0⟩, .clear, .insert ⟨.first, 8⟩,
          .insert ⟨.first, 16⟩, .insert ⟨.first, 8⟩] ∧
      (filter.calls .ofAddress [.insert ⟨.first, 0⟩, .clear, .insert ⟨.first, 8⟩,
        .insert ⟨.first, 16⟩, .insert ⟨.first, 8⟩]).mayContain .ofAddress ⟨.first, 16⟩ = true := by
  have created : create (.limited 1000) 64 3 = .ok (.ok ⟨#[0], 3, by decide⟩) := rfl
  rcases insertions_remembered .ofAddress with ⟨_, remembered⟩
  rcases remembered (.limited 1000) 64 3 _ created [.insert ⟨.first, 0⟩, .clear,
    .insert ⟨.first, 8⟩, .insert ⟨.first, 16⟩, .insert ⟨.first, 8⟩] with
    ⟨_, _, remembers, forgets⟩
  refine ⟨_, created, forgets _ ?_, ?_⟩
  · intro address
    simp [Call.told, Call.tells, or_comm]
  · exact remembers.affirmed _ (by decide)

end WordStm.AddressFilter
