/-!
# Addresses

A region is a family of segments.  An address names one byte of it by a segment
and an offset; it is a plain value, and whether it names anything is decided by
the table that looks it up.

An address whose parts are small enough packs into one 64-bit handle, the
segment in the high bits, so that handles sort as addresses do.
-/

namespace WordStm

/-- A value of the version clock. -/
abbrev Version := UInt64

/-- The bytes of a word, or of a run of words. -/
abbrev Bytes := List UInt8

/-- How many low bits of a handle hold the offset. -/
def offsetBits : Nat := 40

/-- How many high bits of a handle hold the segment. -/
def segmentIdBits : Nat := 64 - offsetBits

/-- The largest segment that a packed address can span. -/
def maxSegmentSize : UInt64 := 0x10000000000

/-- The largest segment id that a table hands out. -/
def maxSegmentId : UInt32 := 0xffffff

/-- The offsets that a handle can hold. -/
def offsetMask : UInt64 := 0xffffffffff

/-- The number of a segment within its region. -/
structure SegmentId where
  raw : UInt32
  deriving DecidableEq

namespace SegmentId

/-- The id that never names a segment. -/
def sentinel : SegmentId := ⟨0⟩

/-- The id of the segment that a region is created with. -/
def first : SegmentId := ⟨1⟩

/-- The slot of a segment table that this id selects. -/
def index (id : SegmentId) : Nat := id.raw.toNat

def isSentinel (id : SegmentId) : Bool := id.raw == 0

/-- How messages write a segment. -/
def text (id : SegmentId) : String := "seg" ++ id.raw.toNat.repr

end SegmentId

/-- The byte at an offset into a segment. -/
structure Address where
  segment : SegmentId
  offset : UInt64
  deriving DecidableEq

namespace Address

/-- The address that names nothing. -/
def null : Address := ⟨.sentinel, 0⟩

/-- The first byte of a segment. -/
def base (segment : SegmentId) : Address := ⟨segment, 0⟩

def isBase (address : Address) : Bool := address.offset == 0

/-- Every address into the sentinel segment is null, whatever its offset. -/
def isNull (address : Address) : Bool := address.segment.isSentinel

/-- The address some bytes further into the same segment.  Bounds are checked
where an address is used, so the sum is taken modulo 2^64. -/
def offsetBy (address : Address) (bytes : UInt64) : Address :=
  { address with offset := address.offset + bytes }

/-- Pack an address into a handle, if its offset fits.  The segment id is
shifted as a 64-bit word, so of an id of 2^24 or more only the low bits stay. -/
def toBits? (address : Address) : Option UInt64 :=
  if address.offset > offsetMask then none
  else some ((address.segment.raw.toUInt64 <<< 40) ||| address.offset)

/-- Unpack a handle. -/
def ofBits (bits : UInt64) : Address :=
  ⟨⟨(bits >>> 40).toUInt32⟩, bits &&& offsetMask⟩

/-- Addresses are ordered by segment, then by offset. -/
instance : LE Address where
  le left right := left.segment.raw < right.segment.raw ∨
    (left.segment = right.segment ∧ left.offset ≤ right.offset)

instance : LT Address where
  lt left right := left.segment.raw < right.segment.raw ∨
    (left.segment = right.segment ∧ left.offset < right.offset)

instance (left right : Address) : Decidable (left ≤ right) :=
  inferInstanceAs (Decidable (_ ∨ _))

instance (left right : Address) : Decidable (left < right) :=
  inferInstanceAs (Decidable (_ ∨ _))

/-- The three-way form of the order. -/
instance : Ord Address where
  compare left right := if left < right then .lt else if left = right then .eq else .gt

/-- How messages write an address: the segment, then the offset in base 16. -/
def text (address : Address) : String :=
  address.segment.text ++ "+0x" ++ String.ofList (Nat.toDigits 16 address.offset.toNat)

@[simp] theorem offsetBy_segment (address : Address) (bytes : UInt64) :
    (address.offsetBy bytes).segment = address.segment := rfl

@[simp] theorem offsetBy_zero (address : Address) : address.offsetBy 0 = address := by
  simp [offsetBy]

@[simp] theorem isBase_base (segment : SegmentId) : (base segment).isBase = true := rfl

end Address

end WordStm
