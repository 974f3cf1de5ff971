import WordStm.Binary64

/-!
# Shortest decimal text

A finite number is written with the fewest decimal digits that read back as the
same number, and of those with the digits nearest to it.  The text is always
positional.  A decimal reads back exactly if it lies between the midpoints to
the two neighbouring numbers; the midpoints themselves count if the significand
is even.
-/

namespace WordStm.Binary64

/-- The decimal `digits * 10 ^ exponent`. -/
structure Decimal where
  digits : Nat
  exponent : Int
  deriving DecidableEq

/-- The reals that round to one number, with the number among them, in quarters
of a unit of the last place: `value / scale` lies between `low / scale` and
`high / scale`. -/
structure RoundingInterval where
  low : Nat
  value : Nat
  high : Nat
  scale : Nat
  /-- Whether the two ends belong to it. -/
  closed : Bool

namespace RoundingInterval

/-- The interval of a positive finite number.  Just above a power of two the
neighbour below is only half as far away as the one above. -/
def ofNumber (number : Binary64) : RoundingInterval :=
  let significand := number.significand
  let below := if significand = leadingBit ∧ number.exponent > -1074 then 1 else 2
  let raise (count : Nat) := count <<< number.exponent.toNat
  { low := raise (4 * significand - below)
    value := raise (4 * significand)
    high := raise (4 * significand + 2)
    scale := 4 <<< (-number.exponent).toNat
    closed := significand % 2 = 0 }

/-- Whether a decimal lies in the interval. -/
def contains (interval : RoundingInterval) (decimal : Decimal) : Bool :=
  let point := decimal.digits * tenTo decimal.exponent.toNat * interval.scale
  let unit := tenTo (-decimal.exponent).toNat
  if interval.closed then
    decide (interval.low * unit ≤ point) && decide (point ≤ interval.high * unit)
  else decide (interval.low * unit < point) && decide (point < interval.high * unit)

/-- The least `e` such that the value is below `10 ^ e`. -/
def magnitude (interval : RoundingInterval) : Int :=
  (digitCount (interval.value * tenTo 400 / interval.scale) : Int) - 400

/-- The decimal of the interval nearest to its value, among the multiples of
`10 ^ exponent`; of two equally near the greater one. -/
def nearest? (interval : RoundingInterval) (exponent : Int) : Option Decimal :=
  let point := interval.value * tenTo (-exponent).toNat
  let unit := tenTo exponent.toNat * interval.scale
  let below : Decimal := ⟨point / unit, exponent⟩
  let above : Decimal := ⟨point / unit + 1, exponent⟩
  match interval.contains below, interval.contains above with
  | true, true => some (if 2 * (point % unit) < unit then below else above)
  | true, false => some below
  | false, true => some above
  | false, false => none

/-- The first decimal found when `count` more digits are tried one by one.
Seventeen digits always suffice. -/
def search (interval : RoundingInterval) (exponent : Int) : (count : Nat) → Option Decimal
  | 0 => none
  | count + 1 =>
      match interval.nearest? exponent with
      | some decimal => some decimal
      | none => interval.search (exponent - 1) count

end RoundingInterval

/-- The same decimal without a zero at its end. -/
def Decimal.trimmed (decimal : Decimal) : Decimal :=
  if decimal.digits % 10 = 0 then ⟨decimal.digits / 10, decimal.exponent + 1⟩ else decimal

/-- The shortest decimal that reads back as a positive finite number.  A power
of ten just above the number is found as ten units of its last place, and
trimmed; no other decimal found ends in a zero, since a coarser one would have
been found before. -/
def shortest (number : Binary64) : Decimal :=
  let interval := RoundingInterval.ofNumber number
  ((interval.search (interval.magnitude - 1) 17).getD ⟨0, 0⟩).trimmed

/-- A decimal in positional notation, with one place after the point at least. -/
def Decimal.text (decimal : Decimal) : String :=
  let digits := Nat.toDigits 10 decimal.digits
  let point : Int := digits.length + decimal.exponent
  let whole := digits.take point.toNat ++ List.replicate decimal.exponent.toNat '0'
  let places := List.replicate (-point).toNat '0' ++ digits.drop point.toNat
  String.ofList (if whole.isEmpty then ['0'] else whole) ++ "." ++
    String.ofList (if places.isEmpty then ['0'] else places)

/-- The text of a number.  Zero keeps its sign; what is no number has none. -/
def text (number : Binary64) : String :=
  let sign := if number.isNegative then "-" else ""
  if number.isFinite then
    sign ++ (if number.magnitudeBits = 0 then "0.0" else number.shortest.text)
  else if number.magnitudeBits = infinityBits then sign ++ "inf"
  else "NaN"

end WordStm.Binary64
