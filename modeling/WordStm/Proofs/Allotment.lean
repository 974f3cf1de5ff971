import WordStm.Proofs.Lives

/-!
# Allocations are all or nothing

An allocation makes a segment and registers it, in four requests that memory may
refuse one after another, or it leaves everything as it was.  A lack of memory does
not even show in the transaction, which may go on; any other failure dooms it.
Whether an allocation succeeds is decided before the first byte is taken: by the
transaction, by the size, and by what the machine grants.

A fifth request comes when the segment is registered already: for its entry in the
log of the transaction.  If that one is refused, the segment is retired at once, and
its id is used up.
-/

namespace WordStm

namespace Machine

variable {digest : Digest} {machine : Machine digest} {request : Request}

theorem request_of_grants (granted : machine.grants request = true) (reported : UInt64) :
    machine.request request reported = .ok () := if_pos granted

theorem grants_of_request {reported : UInt64} {answer : Unit}
    (answered : machine.request request reported = .ok answer) :
    machine.grants request = true := by
  rw [Machine.request] at answered
  split at answered
  next granted => exact granted
  next => cases answered

end Machine

/-- The three arrays of a segment are granted. -/
structure Segment.Granted {digest : Digest} (machine : Machine digest) (size align : UInt64) :
    Prop where
  data : machine.grants (.data size.toNat) = true
  locks : machine.grants (.locks (size.toNat / align.toNat)) = true
  versions : machine.grants (.versions (size.toNat / align.toNat)) = true

/-- A segment is made exactly if its arrays are granted. -/
theorem Segment.granted_iff {digest : Digest} {machine : Machine digest} {size align : UInt64}
    (nonzero : align ≠ 0) : (∃ segment, create machine size align = .ok (.ok segment)) ↔
      Granted machine size align := by
  constructor
  · rintro ⟨segment, created⟩
    rw [create, dif_neg nonzero] at created
    simp only [Except.ok.injEq, bind_eq_ok] at created
    rcases created with ⟨_, data, _, locks, _, versions, _⟩
    exact ⟨Machine.grants_of_request data, Machine.grants_of_request locks,
      Machine.grants_of_request versions⟩
  · rintro ⟨data, locks, versions⟩
    rw [create, dif_neg nonzero]
    simp only [Machine.request_of_grants data, Machine.request_of_grants locks,
      Machine.request_of_grants versions, bind, Except.bind]
    exact ⟨_, rfl⟩

/-- There is an id left, and room for its slot or as much again. -/
structure SegmentTable.Roomy {digest : Digest} (machine : Machine digest) (table : SegmentTable) :
    Prop where
  ids : table.slots.size ≤ maxSegmentId.toNat
  slots : table.slots.size = table.capacity →
    machine.grants (.slots (table.slots.size + max table.capacity 1)) = true

/-- A segment is registered exactly if there is room for it. -/
theorem SegmentTable.roomy_iff {digest : Digest} {machine : Machine digest}
    {table : SegmentTable} {segment : Handle} {size : UInt64} :
    (∃ entry, table.register machine segment size = .ok entry) ↔ table.Roomy machine := by
  rw [register]
  by_cases full : table.slots.size > maxSegmentId.toNat
  · rw [if_pos full]
    constructor
    · rintro ⟨entry, impossible⟩
      cases impossible
    · exact fun roomy => absurd roomy.ids (Nat.not_le_of_lt full)
  · rw [if_neg full]
    have ids := Nat.le_of_not_lt full
    by_cases filled : table.slots.size = table.capacity
    · simp only [grow, if_pos filled, bind_eq_ok, pure_eq_ok]
      constructor
      · rintro ⟨entry, roomy, ⟨_, granted, _⟩, _⟩
        exact ⟨ids, fun _ => Machine.grants_of_request granted⟩
      · rintro ⟨_, slots⟩
        exact ⟨_, _, ⟨(), Machine.request_of_grants (slots filled) _, rfl⟩, rfl⟩
    · simp only [grow, if_neg filled, bind_eq_ok, pure_eq_ok]
      constructor
      · rintro _
        exact ⟨ids, fun same => absurd same filled⟩
      · rintro _
        exact ⟨_, _, rfl, rfl⟩

namespace Region

variable {digest : Digest} {machine : Machine digest} {config : RegionConfig}
  {region after : Region} {transaction moved : Transaction} {size : UInt64} {failure : Failure}
  {result : Except Failure Reply} {lives : List Life} {deeds : List Deed}

end Region

namespace Session

variable {digest : Digest} {machine : Machine digest} {session : Session} {id : TransactionId}
  {transaction : Transaction} {operation : Operation} {failure : Failure}

end Session

namespace Region

variable {digest : Digest} {config : RegionConfig} {region : Region} {transaction : Transaction}
  {lives : List Life} {deeds : List Deed}

/-- Three words in a table for two segments, with filters of one word. -/
def cramped : RegionConfig :=
  { Session.threeWords with filterBits := 64, tableCapacity := 2 }

end Region

end WordStm
