import WordStm.Commit
import WordStm.Metrics
import WordStm.SegmentTable

/-!
# Regions

A region is memory that transactions share: its segments, the table that finds
them by id, the coordinator with the clock, and a tally.  It is created with one
segment, which has id 1 and is never freed.
-/

namespace WordStm

structure Region where
  config : RegionConfig
  memory : Memory
  table : SegmentTable
  coordinator : Coordinator
  tally : Tally

namespace Region

variable {digest : Digest}

/-- Create a region. -/
def create (machine : Machine digest) (config : RegionConfig) :
    Except Fault (Except Failure Region) :=
  match config.check with
  | .error fault => .error fault
  | .ok (.error error) => .ok (.error error.toFailure)
  | .ok (.ok ()) =>
      match SegmentTable.withCapacity machine config.tableCapacity with
      | .error fault => .error fault
      | .ok (.error failure) => .ok (.error failure)
      | .ok (.ok table) =>
          match Segment.create machine config.size config.align with
          | .error fault => .error fault
          | .ok (.error failure) => .ok (.error failure)
          | .ok (.ok segment) => .ok do
              let (handle, memory) := Memory.empty.add segment
              let (_, table) ← table.register machine handle config.size
              return { config, memory, table, coordinator := .ofConfig config, tally := {} }

/-- The first byte of the segment that the region was created with. -/
def start (_region : Region) : Address := .base .first

/-- A snapshot of the counters. -/
def metrics (region : Region) : Metrics where
  tally := region.tally
  liveSegments := UInt64.ofNat region.table.live
  clock := region.coordinator.clock

/-- Begin a transaction.  Only one that begins is counted. -/
def begin (machine : Machine digest) (region : Region) (mode : AccessMode) :
    Except Fault (Region × Except Failure Transaction) := do
  match ← region.coordinator.start machine mode with
  | (coordinator, .ok transaction) =>
      return ({ region with coordinator, tally := region.tally.began }, .ok transaction)
  | (coordinator, .error failure) => return ({ region with coordinator }, .error failure)

/-- End a transaction that did not commit: whatever it allocated and is still
live is retired, and its log is dropped. -/
def finishAborted (region : Region) (transaction : Transaction) : Region × Transaction :=
  let table := region.table.retireAll transaction.log.allocated.toList region.coordinator.clock
  ({ region with table, tally := region.tally.ended false },
    { transaction with log := transaction.log.clean })

/-- Commit a transaction.  On success the segments that it freed are retired at
its version; on failure those that it allocated are. -/
def commit (digest : Digest) (region : Region) (transaction : Transaction) :
    Except Fault (Region × Transaction × Except Failure Version) := do
  let outcome ← region.coordinator.commit digest region.memory transaction
  let region := { region with coordinator := outcome.coordinator, memory := outcome.memory }
  let transaction := outcome.transaction
  match outcome.result with
  | .ok version =>
      let table := region.table.retireAll transaction.log.freed.toList version
      return ({ region with table, tally := region.tally.ended true },
        { transaction with log := transaction.log.clean }, .ok version)
  | .error failure =>
      let (region, transaction) := region.finishAborted transaction
      return (region, transaction, .error failure)

/-- End a transaction without committing it, for the given reason. -/
def abandon (region : Region) (transaction : Transaction) (reason : AbortReason) :
    Region × Transaction :=
  region.finishAborted (transaction.markAborted reason)

/-- End a transaction because its owner gave it up, in so many words or by
letting go of it. -/
def rollback (region : Region) (transaction : Transaction) : Region × Transaction :=
  region.abandon transaction .rolledBack

/-- End a transaction that was handed to another region.  It does not commit. -/
def endElsewhere (region : Region) (transaction : Transaction) : Region × Transaction :=
  region.abandon transaction (.rejected (.usage .foreignRegion))

end Region

end WordStm
