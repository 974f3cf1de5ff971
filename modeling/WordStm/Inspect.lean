import WordStm.Region.Basic
import WordStm.Text.Quoted

/-!
# Structural text

For a reader who looks for mistakes, values are shown by their structure: a
record by its name and its fields in braces, a tagged value by its tag and its
parts in parentheses, a tag without parts by itself.
-/

namespace WordStm.Inspect

/-- A record: a name and its fields. -/
def record (name : String) (fields : List (String × String)) : String :=
  name ++ " \x7b " ++
    String.intercalate ", " (fields.map fun (field, value) => field ++ ": " ++ value) ++ " \x7d"

/-- A tagged value: a tag and its parts. -/
def tagged (tag : String) (parts : List String) : String :=
  tag ++ "(" ++ String.intercalate ", " parts ++ ")"

def number (value : UInt64) : String := value.toNat.repr

def segmentId (id : SegmentId) : String := tagged "SegmentId" [id.raw.toNat.repr]

def address (value : Address) : String :=
  record "Address" [("segment", segmentId value.segment), ("offset", number value.offset)]

def usageError (error : UsageError) : String :=
  match error with
  | .readOnlyTransaction operation => record error.name [("operation", Text.quoted operation)]
  | .unknownSegment place | .notSegmentBase place => tagged error.name [address place]
  | .segmentFreed segment => tagged error.name [segmentId segment]
  | .outOfBounds place length segmentSize =>
      record error.name
        [("address", address place), ("len", number length), ("segment_size", number segmentSize)]
  | .misaligned place length align =>
      record error.name
        [("address", address place), ("len", number length), ("align", number align)]
  | .initialSegment | .transactionFinished | .foreignRegion => error.name

mutual

def abortReason (reason : AbortReason) : String :=
  match reason with
  | .wordLocked place | .versionChanged place | .lockContention place
  | .validationFailed place => record reason.name [("address", address place)]
  | .versionTooNew place version snapshot =>
      record reason.name
        [("address", address place), ("version", number version), ("rv", number snapshot)]
  | .segmentRetired segment version snapshot =>
      record reason.name
        [("segment", segmentId segment), ("version", number version), ("rv", number snapshot)]
  | .alreadyDoomed | .rolledBack | .resourceExhausted => reason.name
  | .rejected cause => tagged reason.name [failure cause]

def failure (value : Failure) : String :=
  match value with
  | .invalidLayout detail => tagged "InvalidLayout" [Text.quoted detail]
  | .outOfMemory requested => record "OutOfMemory" [("requested", number requested)]
  | .aborted reason => tagged "Aborted" [abortReason reason]
  | .usage error => tagged "Usage" [usageError error]
  | .invalidConfig detail => tagged "Config" [Text.quoted detail]

end

def status : Status → String
  | .active => "Active"
  | .validating => "Validating"
  | .committed version => record "Committed" [("wv", number version)]
  | .aborted reason => record "Aborted" [("reason", abortReason reason)]

def segment (value : Segment) : String :=
  record "Segment"
    [("size", value.size.repr), ("align", value.align.repr), ("word_count", value.wordCount.repr)]

def segmentTable (table : SegmentTable) : String :=
  record "SegmentTable"
    [("live_segments", table.live.repr), ("ids_assigned", table.idsAssigned.repr)]

def coordinator (value : Coordinator) : String :=
  record "TransactionManager"
    [("clock", number value.clock), ("lock_order", value.lockOrder.name)]

def transaction (value : Transaction) : String :=
  record "Transaction"
    [("id", tagged "TxId" [number value.id.raw]), ("kind", value.mode.name),
      ("rv", number value.snapshot), ("status", status value.status),
      ("writes", value.log.writes.size.repr), ("reads", value.log.reads.size.repr)]

def region (value : Region) : String :=
  record "Region"
    [("size", number value.config.size), ("align", number value.config.align),
      ("start", address value.start), ("table", segmentTable value.table),
      ("manager", coordinator value.coordinator)]

end WordStm.Inspect
