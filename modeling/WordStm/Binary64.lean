/-!
# 64-bit binary floating point

A number is kept as its 64 bits: a sign, eleven bits of exponent and 52 bits of
fraction.  All arithmetic on it is exact arithmetic on natural numbers, rounded
once to the nearest number there is, a tie to the one whose last bit is zero.
-/

namespace WordStm

structure Binary64 where
  bits : UInt64
  deriving DecidableEq

namespace Binary64

/-- The quotient of two natural numbers rounded to the nearest, a tie to the even one. -/
def roundedQuotient (numerator denominator : Nat) : Nat :=
  let quotient := numerator / denominator
  let twice := 2 * (numerator % denominator)
  if twice > denominator ∨ (twice = denominator ∧ quotient % 2 = 1) then quotient + 1
  else quotient

/-- A ratio multiplied by a power of two, as a numerator and a denominator. -/
def scaled (numerator denominator : Nat) (exponent : Int) : Nat × Nat :=
  (numerator <<< exponent.toNat, denominator <<< (-exponent).toNat)

/-- The greatest `e` such that `2 ^ e` is at most the ratio, if that is positive. -/
def binaryExponent (numerator denominator : Nat) : Int :=
  let guess : Int := (numerator.log2 : Int) - denominator.log2
  let (above, below) := scaled numerator denominator (-guess)
  if above ≥ below then guess else guess - 1

/-- The bit in front of the fraction, which the bits of a number leave out. -/
def leadingBit : Nat := 1 <<< 52

/-- The bits of positive infinity.  The bits of every finite number are below. -/
def infinityBits : Nat := 2047 * leadingBit

/-- A power of ten. -/
def tenTo (exponent : Nat) : Nat := Nat.pow 10 exponent

/-- The number nearest to a ratio.  The exponent is chosen so that 53 bits of
the ratio stay, fewer only next to zero; a carry out of the rounded fraction
lands in the exponent by itself. -/
def ofRatio (numerator denominator : Nat) : Binary64 :=
  if numerator = 0 then ⟨0⟩
  else
    let exponent := max (binaryExponent numerator denominator - 52) (-1074)
    let (above, below) := scaled numerator denominator (-exponent)
    let word := (exponent + 1074).toNat * leadingBit + roundedQuotient above below
    ⟨UInt64.ofNat (min word infinityBits)⟩

/-- How many decimal digits a natural number has. -/
def digitCount (number : Nat) : Nat := (Nat.toDigits 10 number).length

/-- The number nearest to `digits * 10 ^ exponent`.  Far outside the range of
the format the power is not computed. -/
def ofDecimal (digits : Nat) (exponent : Int) : Binary64 :=
  let size : Int := digitCount digits + exponent
  if digits = 0 ∨ size < -330 then ⟨0⟩
  else if size > 310 then ⟨UInt64.ofNat infinityBits⟩
  else ofRatio (digits * tenTo exponent.toNat) (tenTo (-exponent).toNat)

/-- The same number with its sign bit set. -/
def negative (number : Binary64) : Binary64 := ⟨number.bits ||| 0x8000000000000000⟩

def isNegative (number : Binary64) : Bool := number.bits >= 0x8000000000000000

def infinity : Binary64 := ⟨UInt64.ofNat infinityBits⟩

def nan : Binary64 := ⟨0x7ff8000000000000⟩

/-- The bits but for the sign. -/
def magnitudeBits (number : Binary64) : Nat := (number.bits &&& 0x7fffffffffffffff).toNat

def isFinite (number : Binary64) : Bool := decide (number.magnitudeBits < infinityBits)

/-- A finite number is, up to its sign, `significand * 2 ^ exponent`. -/
def significand (number : Binary64) : Nat :=
  let fraction := number.magnitudeBits % leadingBit
  if number.magnitudeBits / leadingBit = 0 then fraction else leadingBit + fraction

def exponent (number : Binary64) : Int :=
  max (number.magnitudeBits / leadingBit : Nat) 1 - 1075

/-- The number nearest to a natural number. -/
def ofNat (number : Nat) : Binary64 := ofRatio number 1

/-- The number nearest to the quotient of two finite numbers, signs left aside. -/
def quotient (left right : Binary64) : Binary64 :=
  let (above, below) := scaled left.significand right.significand (left.exponent - right.exponent)
  ofRatio above below

end Binary64

end WordStm
