import WordStm.AddressFilter
import WordStm.Memory

/-!
# Transaction logs

A transaction keeps what it did in a log: the words it read, the values it means
to write, and the segments it allocated and freed.

The write set holds at most one entry an address, in the order in which the
addresses were first written; a later write replaces the value in place.  A
filter in front of it saves most scans, and can only be wrong in one direction:
a scan that it could not save is counted as a false positive.  What a lookup
answers is therefore the same with every filter, `WriteSet.entry?`.

A log that is full has to grow before it takes one more entry, and stays as it is
if there is no memory for that.
-/

namespace WordStm

/-- A word that a transaction read. -/
structure ReadEntry where
  address : Address
  place : Place
  deriving DecidableEq

/-- Bytes of an entry. -/
def ReadEntry.bytes : Nat := 32

/-- A value that a transaction means to write. -/
structure WriteEntry where
  address : Address
  place : Place
  value : Bytes
  deriving DecidableEq

/-- Bytes of an entry. -/
def WriteEntry.bytes : Nat := 64

/-- Bytes of an id in a log. -/
def SegmentId.bytes : Nat := 4

structure WriteSet where
  /-- The entries, in first-write order. -/
  entries : Array WriteEntry
  filter : AddressFilter
  /-- How often the filter affirmed an address that has no entry. -/
  falsePositives : Nat

namespace WriteSet

variable {digest : Digest}

def empty (filter : AddressFilter) : WriteSet := ⟨#[], filter, 0⟩

/-- The entry of an address, found by scanning. -/
def entry? (writes : WriteSet) (address : Address) : Option WriteEntry :=
  writes.entries.find? (·.address == address)

/-- Where the entry of an address is.  The set changes only in its count of
false positives. -/
def position (digest : Digest) (writes : WriteSet) (address : Address) : Option Nat × WriteSet :=
  if writes.filter.mayContain digest address then
    match writes.entries.findIdx? (·.address == address) with
    | some index => (some index, writes)
    | none => (none, { writes with falsePositives := writes.falsePositives + 1 })
  else (none, writes)

/-- Buffer a value.  An address that already has an entry keeps its position and
its place; any other needs room for one more. -/
def record (machine : Machine digest) (writes : WriteSet) (address : Address) (place : Place)
    (value : Bytes) : WriteSet × Except Failure Unit :=
  match writes.position digest address with
  | (some index, writes) =>
      ({ writes with entries := writes.entries.modify index ({ · with value := value }) }, .ok ())
  | (none, writes) =>
      match machine.makeRoom WriteEntry.bytes writes.entries.size with
      | .error failure => (writes, .error failure)
      | .ok () =>
          ({ writes with
              entries := writes.entries.push ⟨address, place, value⟩
              filter := writes.filter.insert digest address }, .ok ())

/-- The entry of an address. -/
def get (digest : Digest) (writes : WriteSet) (address : Address) : Option WriteEntry × WriteSet :=
  let (index, writes) := writes.position digest address
  (index.bind (writes.entries[·]?), writes)

/-- Whether an address has an entry. -/
def contains (digest : Digest) (writes : WriteSet) (address : Address) : Bool × WriteSet :=
  let (index, writes) := writes.position digest address
  (index.isSome, writes)

/-- The entries, the address written first most recently in front. -/
def recentFirst (writes : WriteSet) : List WriteEntry := writes.entries.toList.reverse

def size (writes : WriteSet) : Nat := writes.entries.size

def isEmpty (writes : WriteSet) : Bool := writes.entries.isEmpty

/-- Drop every entry and start the count again. -/
def clear (writes : WriteSet) : WriteSet := ⟨#[], writes.filter.clear, 0⟩

/-- Looking for an address changes the count of false positives at most. -/
theorem position_entries (digest : Digest) (writes : WriteSet) (address : Address) :
    (writes.position digest address).2.entries = writes.entries ∧
      (writes.position digest address).2.filter = writes.filter := by
  unfold position
  split
  · split <;> exact ⟨rfl, rfl⟩
  · exact ⟨rfl, rfl⟩

end WriteSet

structure TransactionLog where
  /-- The words read, in order and with repetitions. -/
  reads : Array ReadEntry
  writes : WriteSet
  /-- The segments allocated, in order. -/
  allocated : Array SegmentId
  /-- The segments to retire at commit, in order and without repetitions. -/
  freed : Array SegmentId

namespace TransactionLog

variable {digest : Digest}

def empty (filter : AddressFilter) : TransactionLog := ⟨#[], .empty filter, #[], #[]⟩

/-- Add a segment that was allocated. -/
def withAlloc (log : TransactionLog) (id : SegmentId) : TransactionLog :=
  { log with allocated := log.allocated.push id }

/-- Add a segment to retire at commit, unless it is there already. -/
def withFree (log : TransactionLog) (id : SegmentId) : TransactionLog :=
  if log.freed.contains id then log else { log with freed := log.freed.push id }

def recordRead (machine : Machine digest) (log : TransactionLog) (address : Address)
    (place : Place) : Except Failure TransactionLog := do
  machine.makeRoom ReadEntry.bytes log.reads.size
  return { log with reads := log.reads.push ⟨address, place⟩ }

def recordAlloc (machine : Machine digest) (log : TransactionLog) (id : SegmentId) :
    Except Failure TransactionLog := do
  machine.makeRoom SegmentId.bytes log.allocated.size
  return log.withAlloc id

/-- Freeing a segment again needs no room. -/
def recordFree (machine : Machine digest) (log : TransactionLog) (id : SegmentId) :
    Except Failure TransactionLog := do
  if !log.freed.contains id then machine.makeRoom SegmentId.bytes log.freed.size
  return log.withFree id

/-- Drop everything. -/
def clean (log : TransactionLog) : TransactionLog := ⟨#[], log.writes.clear, #[], #[]⟩

/-- Neither a word to publish nor a segment to retire. -/
def isReadOnly (log : TransactionLog) : Bool := log.writes.isEmpty && log.freed.isEmpty

end TransactionLog

end WordStm
