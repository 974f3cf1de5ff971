import WordStm.Address

/-!
# Address digests

The filter of a write set spreads addresses by a 64-bit digest.  The digest used
here is XXH3 (64 bits, seed 0, default secret) of the twelve bytes of an address:
the segment id, then the offset, both with the least byte first.  XXH3 treats
every key of nine to sixteen bytes alike, by its first and its last eight bytes.
-/

namespace WordStm

/-- How addresses are spread over the bits of a filter. -/
abbrev Digest := Address → UInt64

namespace Digest

/-- The two words of the default secret that mask the first eight bytes of a key. -/
def lowMask : UInt64 := 0x1f67b3b7a4a44072 ^^^ 0x78e5c0cc4ee679cb

/-- The two words of the default secret that mask the last eight bytes of a key. -/
def highMask : UInt64 := 0x2172ffcc7dd05a82 ^^^ 0x8e2443f7744608b8

/-- Exchange the least byte with the greatest, and so on inwards. -/
def reverseBytes (word : UInt64) : UInt64 :=
  let byte (index : UInt64) : UInt64 := (word >>> (8 * index)) &&& 0xff
  (byte 0 <<< 56) ||| (byte 1 <<< 48) ||| (byte 2 <<< 40) ||| (byte 3 <<< 32) |||
    (byte 4 <<< 24) ||| (byte 5 <<< 16) ||| (byte 6 <<< 8) ||| byte 7

/-- The 128-bit product of two words, its halves combined by exclusive or. -/
def foldedProduct (left right : UInt64) : UInt64 :=
  let product := left.toNat * right.toNat
  UInt64.ofNat product ^^^ UInt64.ofNat (product >>> 64)

/-- The final mixing step. -/
def avalanche (word : UInt64) : UInt64 :=
  let mixed := (word ^^^ (word >>> 37)) * 0x165667919e3779f9
  mixed ^^^ (mixed >>> 32)

/-- The digest of a key of `length` bytes, nine to sixteen, given as its first
and its last eight bytes. -/
def ofEnds (length first last : UInt64) : UInt64 :=
  let low := first ^^^ lowMask
  let high := last ^^^ highMask
  avalanche (length + reverseBytes low + high + foldedProduct low high)

/-- The digest of an address. -/
def ofAddress : Digest := fun address =>
  ofEnds 12 (address.segment.raw.toUInt64 ||| (address.offset <<< 32)) address.offset

end Digest

end WordStm
