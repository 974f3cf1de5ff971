import WordStm.Failure

/-!
# Layout rules

Words are a power of two bytes long, and a segment holds a positive whole
number of them, no more than an address can span.
-/

namespace WordStm

/-- A size or an alignment that no segment can have. -/
inductive LayoutError where
  | alignmentNotPowerOfTwo (align : UInt64)
  | sizeNotMultiple (size align : UInt64)
  | sizeTooLarge (size : UInt64)
  deriving DecidableEq

namespace LayoutError

def message : LayoutError → String
  | alignmentNotPowerOfTwo align => "alignment " ++ align.toNat.repr ++ " is not a power of two"
  | sizeNotMultiple size align =>
      "size " ++ size.toNat.repr ++ " is not a positive multiple of alignment " ++
        align.toNat.repr
  | sizeTooLarge size =>
      "size " ++ size.toNat.repr ++ " exceeds the maximum segment size " ++
        maxSegmentSize.toNat.repr

def toFailure (error : LayoutError) : Failure := .invalidLayout error.message

end LayoutError

namespace Layout

/-- One bit of the word is set: clearing the lowest set bit leaves nothing. -/
def isPowerOfTwo (align : UInt64) : Bool := align != 0 && (align &&& (align - 1)) == 0

def checkAlignment (align : UInt64) : Except LayoutError Unit :=
  if isPowerOfTwo align then .ok () else .error (.alignmentNotPowerOfTwo align)

/-- Check a size against an alignment that need not have been checked itself.
An empty size is refused before it is divided by anything. -/
def checkSize (size align : UInt64) : Except Fault (Except LayoutError Unit) :=
  if size = 0 then .ok (.error (.sizeNotMultiple size align))
  else if align = 0 then .error .divisionByZero
  else if size % align ≠ 0 then .ok (.error (.sizeNotMultiple size align))
  else if size > maxSegmentSize then .ok (.error (.sizeTooLarge size))
  else .ok (.ok ())

/-- With a positive alignment the check always has an answer. -/
theorem checkSize_of_pos (size : UInt64) {align : UInt64} (positive : align ≠ 0) :
    ∃ answer, checkSize size align = .ok answer := by
  simp only [checkSize, if_neg positive]
  split
  · exact ⟨_, rfl⟩
  · split
    · exact ⟨_, rfl⟩
    · split <;> exact ⟨_, rfl⟩

end Layout

end WordStm
