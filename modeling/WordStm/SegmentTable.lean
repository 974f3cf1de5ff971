import WordStm.Memory

/-!
# Segment tables

A table maps segment ids to segments.  Ids count upwards and are never given
out twice: retiring a segment leaves its slot behind, with the version at which
it was retired.  A lookup can therefore tell a segment that was freed after the
reader's snapshot, a conflict, from one that was gone before, a mistake of the
caller.
-/

namespace WordStm

/-- What a table knows about one id. -/
inductive Slot where
  /-- Nothing was ever registered here. -/
  | vacant
  | live (segment : Handle)
  /-- The segment is no longer found, as of a version. -/
  | retired (segment : Handle) (version : Version)
  deriving DecidableEq

def Slot.isLive : Slot → Bool
  | live _ => true
  | _ => false

/-- The segment that was registered in a slot, retired or not. -/
def Slot.segment? : Slot → Option Handle
  | vacant => none
  | live segment => some segment
  | retired segment _ => some segment

structure SegmentTable where
  /-- Slot `i` belongs to segment id `i`; the first is the sentinel's. -/
  slots : Array Slot
  /-- How many slots are live. -/
  live : Nat
  /-- For how many slots there is room. -/
  capacity : Nat

namespace SegmentTable

variable {digest : Digest}

/-- Bytes of a slot. -/
def slotBytes : UInt64 := 16

/-- A table with no segment and room for `capacity` slots, two at least.  Without
memory for them their bytes are reported, if that many can be told. -/
def withCapacity (machine : Machine digest) (capacity : UInt64) :
    Except Fault (Except Failure SegmentTable) :=
  let room := max capacity 2
  if machine.grants (.slots room.toNat) then
    .ok (.ok { slots := #[.vacant], live := 0, capacity := room.toNat })
  else if room.toNat * slotBytes.toNat < UInt64.size then
    .ok (.error (.outOfMemory (room * slotBytes)))
  else .error .overflow

/-- Make room for one more slot: a full table doubles its room. -/
def grow (machine : Machine digest) (table : SegmentTable) : Except Failure SegmentTable :=
  if table.slots.size = table.capacity then do
    let additional := max table.capacity 1
    machine.request (.slots (table.slots.size + additional)) (UInt64.ofNat additional * slotBytes)
    return { table with capacity := table.capacity + additional }
  else .ok table

/-- Register a segment of `size` bytes under the next id. -/
def register (machine : Machine digest) (table : SegmentTable) (segment : Handle) (size : UInt64) :
    Except Failure (SegmentId × SegmentTable) :=
  if table.slots.size > maxSegmentId.toNat then .error (.outOfMemory size)
  else do
    let roomy ← table.grow machine
    return (⟨UInt32.ofNat table.slots.size⟩,
      { roomy with slots := roomy.slots.push (.live segment), live := roomy.live + 1 })

/-- Find the segment of an address for a reader of the given snapshot. -/
def resolve (table : SegmentTable) (address : Address) (snapshot : Version) :
    Except Failure Handle :=
  match table.slots[address.segment.index]? with
  | some (.live segment) => .ok segment
  | some (.retired _ version) =>
      if version > snapshot then
        .error (.aborted (.segmentRetired address.segment version snapshot))
      else .error (.usage (.segmentFreed address.segment))
  | some .vacant | none => .error (.usage (.unknownSegment address))

/-- Find a segment by its id. -/
def get (table : SegmentTable) (id : SegmentId) (snapshot : Version) : Except Failure Handle :=
  table.resolve (.base id) snapshot

/-- Retire a live segment as of a version.  Any other slot stays as it is. -/
def retire (table : SegmentTable) (id : SegmentId) (version : Version) :
    Option Handle × SegmentTable :=
  match table.slots[id.index]? with
  | some (.live segment) =>
      (some segment,
        { table with
          slots := table.slots.setIfInBounds id.index (.retired segment version)
          live := table.live - 1 })
  | _ => (none, table)

/-- Retire several segments as of one version. -/
def retireAll (table : SegmentTable) (ids : List SegmentId) (version : Version) : SegmentTable :=
  ids.foldl (fun table id => (table.retire id version).2) table

/-- How many ids were given out. -/
def idsAssigned (table : SegmentTable) : Nat := table.slots.size - 1

/-- Whether an id names a segment that has not been retired. -/
def isLive (table : SegmentTable) (id : SegmentId) : Bool :=
  match table.slots[id.index]? with
  | some slot => slot.isLive
  | none => false

/-- The segment that was registered under an id, retired or not. -/
def registered? (table : SegmentTable) (id : SegmentId) : Option Handle :=
  table.slots[id.index]?.bind Slot.segment?

/-- A live segment is found by a reader of any snapshot. -/
theorem resolve_live {table : SegmentTable} {address : Address} {segment : Handle}
    (live : table.slots[address.segment.index]? = some (.live segment)) (snapshot : Version) :
    table.resolve address snapshot = .ok segment := by
  simp [resolve, live]

/-- Retiring touches one slot only. -/
theorem slots_retire_of_ne (table : SegmentTable) {id other : SegmentId} (version : Version)
    (differ : id.index ≠ other.index) :
    (table.retire id version).2.slots[other.index]? = table.slots[other.index]? := by
  unfold retire
  split
  · simp [differ]
  · rfl

end SegmentTable

end WordStm
