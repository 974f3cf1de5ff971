import WordStm.Machine

/-!
# Address filters

A filter remembers a set of addresses approximately.  It never denies an address
that was inserted, but it may affirm one that was not.  Each address selects a
fixed number of bit positions by double hashing: the two halves of its digest
are the start and the step of an arithmetic progression, reduced modulo the
number of bits.
-/

namespace WordStm

structure AddressFilter where
  /-- The bits, in words of 64. -/
  words : Array UInt64
  /-- How many positions each address selects. -/
  hashes : UInt32
  words_pos : 0 < words.size
  deriving DecidableEq

namespace AddressFilter

/-- How many words hold `bits` bits, one at least. -/
def wordsFor (bits : UInt64) : Nat := (max bits.toNat 1 + 63) / 64

theorem wordsFor_pos (bits : UInt64) : 0 < wordsFor bits := by
  rw [wordsFor]
  omega

/-- An empty filter of at least `bits` bits, rounded up to whole words.  The sum that
is rounded has to fit in 64 bits. -/
def create {digest : Digest} (machine : Machine digest) (bits : UInt64) (hashes : UInt32) :
    Except Fault (Except Failure AddressFilter) :=
  if max bits.toNat 1 + 63 < UInt64.size then
    .ok do
      machine.request (.filter (wordsFor bits)) (UInt64.ofNat (wordsFor bits * 8))
      return {
        words := Array.replicate (wordsFor bits) 0
        hashes := max hashes 1
        words_pos := by simp [wordsFor_pos] }
  else .error .overflow

/-- How many bits the filter has. -/
def bitCount (filter : AddressFilter) : Nat := filter.words.size * 64

/-- The start of the progression that a digest selects. -/
def start (digest : UInt64) : UInt64 := digest &&& 0xffffffff

/-- The step of the progression that a digest selects, always odd. -/
def stride (digest : UInt64) : UInt64 := (digest >>> 32) ||| 1

/-- The position among `bits` that a digest selects in its `index`-th place. -/
def position (bits : Nat) (digest : UInt64) (index : Nat) : Nat :=
  (start digest + UInt64.ofNat index * stride digest).toNat % bits

/-- The bit at a position within its word. -/
def bit (position : Nat) : UInt64 := 1 <<< UInt64.ofNat (position % 64)

def setBit (words : Array UInt64) (position : Nat) : Array UInt64 :=
  words.modify (position / 64) (· ||| bit position)

def testBit (words : Array UInt64) (position : Nat) : Bool :=
  match words[position / 64]? with
  | some word => (word &&& bit position) != 0
  | none => false

/-- The positions that an address selects. -/
def positions (digest : Digest) (filter : AddressFilter) (address : Address) : List Nat :=
  (List.range filter.hashes.toNat).map (position filter.bitCount (digest address))

/-- Set the first `count` of the positions that a digest selects. -/
def mark (bits : Nat) (digest : UInt64) (words : Array UInt64) : (count : Nat) → Array UInt64
  | 0 => words
  | index + 1 => mark bits digest (setBit words (position bits digest index)) index

/-- Whether the first `count` of the positions that a digest selects are all set. -/
def marked (bits : Nat) (digest : UInt64) (words : Array UInt64) : (count : Nat) → Bool
  | 0 => true
  | index + 1 =>
      testBit words (position bits digest index) && marked bits digest words index

@[simp] theorem size_setBit (words : Array UInt64) (position : Nat) :
    (setBit words position).size = words.size := by
  simp [setBit]

@[simp] theorem size_mark (bits : Nat) (digest : UInt64) (words : Array UInt64) (count : Nat) :
    (mark bits digest words count).size = words.size := by
  induction count generalizing words with
  | zero => rfl
  | succ index ih => simp [mark, ih]

/-- Remember an address. -/
def insert (digest : Digest) (filter : AddressFilter) (address : Address) : AddressFilter where
  words := mark filter.bitCount (digest address) filter.words filter.hashes.toNat
  hashes := filter.hashes
  words_pos := by simp [filter.words_pos]

/-- Whether an address may have been inserted; `false` is certain. -/
def mayContain (digest : Digest) (filter : AddressFilter) (address : Address) : Bool :=
  marked filter.bitCount (digest address) filter.words filter.hashes.toNat

/-- Forget everything. -/
def clear (filter : AddressFilter) : AddressFilter where
  words := Array.replicate filter.words.size 0
  hashes := filter.hashes
  words_pos := by simp [filter.words_pos]

/-- How many bits of a word are set. -/
def onesOf (word : UInt64) : Nat :=
  if word = 0 then 0 else (List.range 64).countP fun index => word.toNat.testBit index

/-- How many bits are set. -/
def countOnes (filter : AddressFilter) : Nat :=
  filter.words.foldl (fun total word => total + onesOf word) 0

@[simp] theorem bitCount_clear (filter : AddressFilter) :
    filter.clear.bitCount = filter.bitCount := by
  simp [clear, bitCount]

/-- Inserting leaves the number of bits alone. -/
@[simp] theorem bitCount_insert (digest : Digest) (filter : AddressFilter) (address : Address) :
    (filter.insert digest address).bitCount = filter.bitCount := by
  simp [insert, bitCount]

/-- There are bits to reduce a position to. -/
theorem bitCount_pos (filter : AddressFilter) : 0 < filter.bitCount :=
  Nat.mul_pos filter.words_pos (by decide)

/-- A position reduced to the bits of some words lies in one of them. -/
theorem position_div_lt {size : Nat} (nonempty : size * 64 ≠ 0) (digest : UInt64) (index : Nat) :
    position (size * 64) digest index / 64 < size := by
  have below := Nat.mod_lt (start digest + UInt64.ofNat index * stride digest).toNat
    (Nat.pos_of_ne_zero nonempty)
  simp only [position]
  omega

end AddressFilter

end WordStm
