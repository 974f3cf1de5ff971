import WordStm.Address

/-!
# Why an operation fails

A `Failure` belongs to one of three families.  Memory may run out; a
transaction may lose a conflict, for one of the `AbortReason`s, and is then
worth another try; or the caller may have broken a rule of use or of layout.

A `Fault` is none of these: it is the point at which the program itself stops,
because an index, a divisor or a length was wrong.  No fault has an answer, so
it is kept apart from the failures that have one.

Each failure has one fixed text, `Failure.message`.
-/

namespace WordStm

/-- The program stops. -/
inductive Fault where
  | divisionByZero
  /-- A number came out too great to be told. -/
  | overflow
  | outOfRange
  | lengthMismatch
  deriving DecidableEq

/-- A rule of use that the caller broke. -/
inductive UsageError where
  /-- Writes, allocations and frees need a read-write transaction. -/
  | readOnlyTransaction (operation : String)
  /-- The segment was never handed out. -/
  | unknownSegment (address : Address)
  /-- The segment was freed before this transaction began. -/
  | segmentFreed (segment : SegmentId)
  | outOfBounds (address : Address) (length segmentSize : UInt64)
  | misaligned (address : Address) (length align : UInt64)
  /-- The segment that a region is created with lives as long as the region. -/
  | initialSegment
  | notSegmentBase (address : Address)
  | transactionFinished
  | foreignRegion
  deriving DecidableEq

mutual

/-- Why a transaction can no longer commit. -/
inductive AbortReason where
  /-- The word was locked while it was being read. -/
  | wordLocked (address : Address)
  /-- The word changed while it was being read. -/
  | versionChanged (address : Address)
  /-- The word was committed after the snapshot was taken. -/
  | versionTooNew (address : Address) (version snapshot : Version)
  /-- A word to be written was locked by another transaction. -/
  | lockContention (address : Address)
  /-- A word that was read had changed by the time of the commit. -/
  | validationFailed (address : Address)
  /-- The segment was freed after the snapshot was taken. -/
  | segmentRetired (segment : SegmentId) (version snapshot : Version)
  /-- An earlier operation had already failed. -/
  | alreadyDoomed
  /-- The owner gave the transaction up. -/
  | rolledBack
  | resourceExhausted
  /-- An operation broke a rule. -/
  | rejected (cause : Failure)

/-- Why an operation failed. -/
inductive Failure where
  | invalidLayout (detail : String)
  | outOfMemory (requested : UInt64)
  | aborted (reason : AbortReason)
  | usage (error : UsageError)
  | invalidConfig (detail : String)

end

deriving instance DecidableEq for AbortReason, Failure

namespace UsageError

/-- The name of an error in structural text. -/
def name : UsageError → String
  | readOnlyTransaction _ => "ReadOnlyTransaction"
  | unknownSegment _ => "UnknownSegment"
  | segmentFreed _ => "SegmentFreed"
  | outOfBounds .. => "OutOfBounds"
  | misaligned .. => "Misaligned"
  | initialSegment => "InitialSegment"
  | notSegmentBase _ => "NotSegmentBase"
  | transactionFinished => "TransactionFinished"
  | foreignRegion => "ForeignRegion"

def message : UsageError → String
  | readOnlyTransaction operation => operation ++ " is not allowed in a read-only transaction"
  | unknownSegment address =>
      "address " ++ address.text ++ " does not belong to any segment of this region"
  | segmentFreed segment => "segment " ++ segment.text ++ " has been freed"
  | outOfBounds address length segmentSize =>
      "access of " ++ length.toNat.repr ++ " bytes at " ++ address.text ++
        " exceeds segment size " ++ segmentSize.toNat.repr
  | misaligned address length align =>
      "access of " ++ length.toNat.repr ++ " bytes at " ++ address.text ++
        " is not aligned to " ++ align.toNat.repr
  | initialSegment => "the initial segment cannot be freed"
  | notSegmentBase address => address.text ++ " is not the base address of a segment"
  | transactionFinished => "transaction has already finished"
  | foreignRegion => "transaction belongs to a different region"

end UsageError

mutual

/-- The text of an abort reason. -/
def AbortReason.message : AbortReason → String
  | .wordLocked address =>
      "word at " ++ address.text ++ " is locked by a committing transaction"
  | .versionChanged address => "word at " ++ address.text ++ " changed while being read"
  | .versionTooNew address version snapshot =>
      "word at " ++ address.text ++ " has version " ++ version.toNat.repr ++
        ", newer than snapshot " ++ snapshot.toNat.repr
  | .lockContention address => "could not lock word at " ++ address.text ++ " for commit"
  | .validationFailed address =>
      "read of " ++ address.text ++ " is no longer valid at commit"
  | .segmentRetired segment version snapshot =>
      "segment " ++ segment.text ++ " was freed at version " ++ version.toNat.repr ++
        ", after snapshot " ++ snapshot.toNat.repr
  | .alreadyDoomed => "transaction was already doomed by an earlier failure"
  | .rolledBack => "transaction rolled back by its owner"
  | .resourceExhausted => "transaction log could not grow"
  | .rejected cause => "operation rejected: " ++ cause.message

/-- The text of a failure. -/
def Failure.message : Failure → String
  | .invalidLayout detail => "invalid layout: " ++ detail
  | .outOfMemory requested =>
      "out of memory: could not allocate " ++ requested.toNat.repr ++ " bytes"
  | .aborted reason => "transaction aborted: " ++ reason.message
  | .usage error => "usage violation: " ++ error.message
  | .invalidConfig detail => "invalid configuration: " ++ detail

end

namespace AbortReason

/-- The name of a reason in status lines and in structural text. -/
def name : AbortReason → String
  | wordLocked _ => "WordLocked"
  | versionChanged _ => "VersionChanged"
  | versionTooNew .. => "VersionTooNew"
  | lockContention _ => "LockContention"
  | validationFailed _ => "ValidationFailed"
  | segmentRetired .. => "SegmentRetired"
  | alreadyDoomed => "AlreadyDoomed"
  | rolledBack => "RolledBack"
  | resourceExhausted => "ResourceExhausted"
  | rejected _ => "Rejected"

/-- The reason for which a failed operation dooms its transaction. -/
def ofFailure : Failure → AbortReason
  | .aborted reason => reason
  | .outOfMemory _ => resourceExhausted
  | other => rejected other

/-- What later operations of a doomed transaction report.  A broken rule is
reported again, so that nobody takes it for a conflict and tries once more. -/
def doomedFailure : AbortReason → Failure
  | rejected cause => cause
  | _ => .aborted alreadyDoomed

end AbortReason

namespace Failure

/-- Another attempt may succeed: exactly the conflicts. -/
def isRetryable : Failure → Bool
  | aborted _ => true
  | _ => false

def isOutOfMemory : Failure → Bool
  | outOfMemory _ => true
  | _ => false

/-- The caller has to be mended. -/
def isUsage : Failure → Bool
  | usage _ | invalidLayout _ => true
  | _ => false

/-- The abort reason of a conflict. -/
def abortReason? : Failure → Option AbortReason
  | aborted reason => some reason
  | _ => none

end Failure

end WordStm
