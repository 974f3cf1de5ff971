import WordStm.Proofs.Sizing

/-!
# What is reported for want of memory

When a request for memory is refused, its bytes are reported, or the greatest number there
is if they are more than that.  Segments do so whatever their size, and so do filters but
for the last 63 sizes, whose words cannot be counted.  A table multiplies its slots without
a look at the bound: from 2^60 slots on there is nothing that it could report.
-/

namespace WordStm

namespace Machine

/-- The first of some requests that is refused. -/
def refused? (machine : Machine digest) (requests : List Request) : Option Request :=
  requests.find? fun request => !machine.grants request

/-- Something is made if every request for it is granted; if not, the bytes of the first that is
refused are reported, or the greatest number there is. -/
structure Reports {α : Type} (machine : Machine digest) (requests : List Request)
    (outcome : Except Failure α) : Prop where
  made : machine.refused? requests = none → ∃ result, outcome = .ok result
  refused : ∀ request, machine.refused? requests = some request → ∃ requested,
    outcome = .error (.outOfMemory requested) ∧ requested.toNat = min request.bytes (2 ^ 64 - 1)

namespace Reports

variable {α : Type} {digest : Digest} {machine : Machine digest} {next : Request}
  {requests : List Request} {requested : UInt64}

theorem done (result : α) : machine.Reports [] (.ok result : Except Failure α) where
  made _ := ⟨result, rfl⟩
  refused := by
    intro request impossible
    cases impossible

/-- A request comes before others, and is told as it is. -/
theorem request {rest : Unit → Except Failure α}
    (told : requested.toNat = min next.bytes (2 ^ 64 - 1))
    (reports : machine.Reports requests (rest ())) :
    machine.Reports (next :: requests) (machine.request next requested >>= rest) := by
  cases granted : machine.grants next with
  | true =>
      have passed : machine.refused? (next :: requests) = machine.refused? requests := by
        simp [refused?, granted]
      rw [Machine.request, if_pos granted]
      exact ⟨passed ▸ reports.made, passed ▸ reports.refused⟩
  | false =>
      have denied : machine.refused? (next :: requests) = some next := by
        simp [refused?, granted]
      rw [Machine.request, if_neg (by simp [granted])]
      constructor
      · rw [denied]
        intro impossible
        cases impossible
      · intro first found
        rw [denied, Option.some.injEq] at found
        subst found
        exact ⟨requested, rfl, told⟩

end Reports

end Machine

namespace Segment

/-- What is requested for a segment, in the order in which it is. -/
def requests (size align : Nat) : List Request :=
  [.data size, .locks (size / align), .versions (size / align)]

theorem toNat_saturatedBytes (count width : Nat) :
    (saturatedBytes count width).toNat = min (count * width) (2 ^ 64 - 1) := by
  have size : UInt64.size = 2 ^ 64 := rfl
  rw [saturatedBytes, UInt64.toNat_ofNat', size]
  omega

/-- Products of a segment stop at the bound. -/
theorem reports (machine : Machine digest) (size : UInt64) {align : UInt64} (nonzero : align ≠ 0) :
    ∃ outcome, create machine size align = .ok outcome ∧
      machine.Reports (requests size.toNat align.toNat) outcome := by
  have bounded := size.toNat_lt
  rw [create, dif_neg nonzero]
  refine ⟨_, rfl, ?_⟩
  apply Machine.Reports.request
  · rw [Request.bytes]
    omega
  apply Machine.Reports.request
  · rw [toNat_saturatedBytes, Nat.mul_one, Request.bytes]
  apply Machine.Reports.request
  · rw [toNat_saturatedBytes, Request.bytes]
  exact .done _

end Segment

namespace AddressFilter

/-- The words of a filter are all that is requested for it. -/
def requests (bits : Nat) : List Request := [.filter ((max bits 1 + 63) / 64)]

/-- The bytes of the words that there are never come near the bound. -/
theorem reports (machine : Machine digest) {bits : UInt64} (hashes : UInt32)
    (room : bits.toNat ≤ 2 ^ 64 - 64) :
    ∃ outcome, create machine bits hashes = .ok outcome ∧
      machine.Reports (requests bits.toNat) outcome := by
  have size : UInt64.size = 2 ^ 64 := rfl
  have few : wordsFor bits < 2 ^ 58 := by
    rw [wordsFor]
    omega
  rw [create, if_pos ((room_iff bits).mpr room)]
  refine ⟨_, rfl, ?_⟩
  apply Machine.Reports.request
  · rw [UInt64.toNat_ofNat_of_lt' (by omega), Request.bytes, ← wordsFor]
    omega
  exact .done _

end AddressFilter

namespace SegmentTable

/-- The slots of a table are all that is requested for it. -/
def requests (capacity : Nat) : List Request := [.slots (max capacity 2)]

theorem toNat_room (capacity : UInt64) : (max capacity 2).toNat = max capacity.toNat 2 := by
  rw [UInt64.toNat_max]
  rfl

/-- A table stops short of a report exactly if that many slots are refused that their bytes
cannot be told. -/
theorem withCapacity_eq_overflow_iff (machine : Machine digest) (capacity : UInt64) :
    withCapacity machine capacity = .error .overflow ↔
      machine.grants (.slots (max capacity.toNat 2)) = false ∧ 2 ^ 60 ≤ max capacity.toNat 2 := by
  have slot : slotBytes.toNat = 16 := rfl
  have size : UInt64.size = 2 ^ 64 := rfl
  simp only [withCapacity, toNat_room, slot, size]
  cases machine.grants (.slots (max capacity.toNat 2)) with
  | true => simp
  | false =>
      simp only [Bool.false_eq_true, if_false, true_and]
      split
      next few =>
        simp only [reduceCtorEq, false_iff]
        omega
      next many =>
        simp only [true_iff]
        omega

/-- As long as the bytes of its slots can be told, a table reports them. -/
theorem reports (machine : Machine digest) (capacity : UInt64)
    (enough : machine.grants (.slots (max capacity.toNat 2)) = true ∨
      max capacity.toNat 2 < 2 ^ 60) :
    ∃ outcome, withCapacity machine capacity = .ok outcome ∧
      machine.Reports (requests capacity.toNat) outcome := by
  have slot : slotBytes.toNat = 16 := rfl
  have size : UInt64.size = 2 ^ 64 := rfl
  have product : max capacity.toNat 2 < 2 ^ 60 →
      (max capacity 2 * slotBytes).toNat = max capacity.toNat 2 * 16 := by
    intro few
    rw [UInt64.toNat_mul, toNat_room, slot, Nat.mod_eq_of_lt (by omega)]
  cases granted : machine.grants (.slots (max capacity.toNat 2)) with
  | true =>
      have passed : machine.refused? (requests capacity.toNat) = none := by
        simp [Machine.refused?, requests, granted]
      refine ⟨.ok ⟨#[.vacant], 0, max capacity.toNat 2⟩, ?_, ?_⟩
      · simp only [withCapacity, toNat_room, granted, if_true]
      · refine ⟨fun _ => ⟨_, rfl⟩, ?_⟩
        rw [passed]
        intro request impossible
        cases impossible
  | false =>
      have few := enough.resolve_left (by simp [granted])
      have denied : machine.refused? (requests capacity.toNat) =
          some (.slots (max capacity.toNat 2)) := by
        simp [Machine.refused?, requests, granted]
      refine ⟨.error (.outOfMemory (max capacity 2 * slotBytes)), ?_, ?_⟩
      · simp only [withCapacity, toNat_room, granted, slot, size, Bool.false_eq_true, if_false]
        rw [if_pos (by omega)]
      · constructor
        · rw [denied]
          intro impossible
          cases impossible
        · intro request found
          rw [denied, Option.some.injEq] at found
          subst found
          refine ⟨_, rfl, ?_⟩
          rw [product few, Request.bytes]
          omega

end SegmentTable

/-- Want of memory is reported truly, to the bound of numbers and not beyond: for every segment,
for every filter whose words can be counted, and for tables of less than 2^60 slots.  From there
on there is no report, and for the last 63 sizes of a filter no request either. -/
theorem refusals_reported (machine : Machine digest) :
    (∀ size align : UInt64, align ≠ 0 → ∃ outcome,
      Segment.create machine size align = .ok outcome ∧
      machine.Reports (Segment.requests size.toNat align.toNat) outcome) ∧
    (∀ bits hashes,
      (bits.toNat ≤ 2 ^ 64 - 64 → ∃ outcome,
        AddressFilter.create machine bits hashes = .ok outcome ∧
        machine.Reports (AddressFilter.requests bits.toNat) outcome) ∧
      (2 ^ 64 - 64 < bits.toNat →
        AddressFilter.create machine bits hashes = .error .overflow)) ∧
    ∀ capacity,
      (machine.grants (.slots (max capacity.toNat 2)) = true ∨ max capacity.toNat 2 < 2 ^ 60 →
        ∃ outcome, SegmentTable.withCapacity machine capacity = .ok outcome ∧
          machine.Reports (SegmentTable.requests capacity.toNat) outcome) ∧
      (SegmentTable.withCapacity machine capacity = .error .overflow ↔
        machine.grants (.slots (max capacity.toNat 2)) = false ∧
          2 ^ 60 ≤ max capacity.toNat 2) := by
  refine ⟨?_, ?_, ?_⟩
  · intro size align nonzero
    exact Segment.reports machine size nonzero
  · intro bits hashes
    refine ⟨AddressFilter.reports machine hashes, ?_⟩
    intro beyond
    have full := mt (AddressFilter.room_iff bits).mp (Nat.not_le_of_lt beyond)
    rw [AddressFilter.create, if_neg full]
  · intro capacity
    exact ⟨SegmentTable.reports machine capacity,
      SegmentTable.withCapacity_eq_overflow_iff machine capacity⟩

/-- The greatest segment of single bytes, whose versions take more bytes than any number tells;
the greatest filter whose words can be counted; and the greatest table whose bytes can be
told. -/
theorem refusals_reported_greatest :
    Segment.create (.limited (2 ^ 64)) 0xffffffffffffffff 1 =
      .ok (.error (.outOfMemory 0xffffffffffffffff)) ∧
    AddressFilter.create (.limited 4194304) 0xffffffffffffffc0 3 =
      .ok (.error (.outOfMemory 0x1ffffffffffffff8)) ∧
    SegmentTable.withCapacity (.limited 4194304) 0x0fffffffffffffff =
      .ok (.error (.outOfMemory 0xfffffffffffffff0)) := by
  rcases refusals_reported (.limited (2 ^ 64)) with ⟨segments, _⟩
  rcases refusals_reported (.limited 4194304) with ⟨_, filters, tables⟩
  refine ⟨?_, ?_, ?_⟩
  · rcases segments 0xffffffffffffffff 1 (by decide) with ⟨outcome, created, reports⟩
    rcases reports.refused (.versions (2 ^ 64 - 1)) (by decide) with ⟨requested, rfl, told⟩
    have greatest : requested = 0xffffffffffffffff := UInt64.toNat_inj.mp told
    rw [created, greatest]
  · rcases (filters 0xffffffffffffffc0 3).1 (by decide) with ⟨outcome, created, reports⟩
    rcases reports.refused (.filter (2 ^ 58 - 1)) (by decide) with ⟨requested, rfl, told⟩
    have whole : requested = 0x1ffffffffffffff8 := UInt64.toNat_inj.mp told
    rw [created, whole]
  · rcases (tables 0x0fffffffffffffff).1 (.inr (by decide)) with ⟨outcome, created, reports⟩
    rcases reports.refused (.slots (2 ^ 60 - 1)) (by decide) with ⟨requested, rfl, told⟩
    have whole : requested = 0xfffffffffffffff0 := UInt64.toNat_inj.mp told
    rw [created, whole]

namespace Region

/-- Three words, and a table with room for 2^60 slots. -/
def crowded : RegionConfig :=
  { Session.threeWords with tableCapacity := 0x1000000000000000 }

/-- The bytes of 2^60 slots are 2^64, and nothing is reported for them, although a segment would
report the greatest number for as many.  Nor has a region that is to have such a table an answer,
and its configuration passes. -/
theorem crowded_overflows :
    SegmentTable.withCapacity (.limited 4194304) 0x1000000000000000 = .error .overflow ∧
    Segment.saturatedBytes (2 ^ 60) 16 = 0xffffffffffffffff ∧
    crowded.check = .ok (.ok ()) ∧
    create (.limited 4194304) crowded = .error .overflow :=
  ⟨rfl, by decide, rfl, rfl⟩

end Region

end WordStm
