import WordStm.Proofs.Outcome
import WordStm.SegmentTable

/-!
# Slots over time

A slot is filled once, behind all others, and may be retired once after that.
Which segment was registered under an id never changes.
-/

namespace WordStm

/-- Ids select different slots. -/
theorem SegmentId.index_inj {left right : SegmentId} (same : left.index = right.index) :
    left = right := by
  cases left
  cases right
  exact congrArg SegmentId.mk (UInt32.toNat_inj.mp same)

namespace Slot

/-- The slot after it was retired; only a live one changes. -/
def retire (slot : Slot) (version : Version) : Slot :=
  match slot with
  | live segment => retired segment version
  | other => other

@[simp] theorem segment?_retire (slot : Slot) (version : Version) :
    (slot.retire version).segment? = slot.segment? := by
  cases slot <;> rfl

/-- The first retirement counts. -/
@[simp] theorem retire_retire (slot : Slot) (first second : Version) :
    (slot.retire first).retire second = slot.retire first := by
  cases slot <;> rfl

end Slot

namespace SegmentTable

/-- What a table knows about an id. -/
def slot? (table : SegmentTable) (id : SegmentId) : Option Slot := table.slots[id.index]?

/-- A table that is made has the sentinel's slot only. -/
theorem eq_of_withCapacity {digest : Digest} {machine : Machine digest} {capacity : UInt64}
    {table : SegmentTable} (made : withCapacity machine capacity = .ok (.ok table)) :
    table = ⟨#[.vacant], 0, (max capacity 2).toNat⟩ := by
  rw [withCapacity] at made
  split at made
  next =>
    cases made
    rfl
  next => split at made <;> cases made

theorem registered?_eq (table : SegmentTable) (id : SegmentId) :
    table.registered? id = (table.slot? id).bind Slot.segment? := rfl

theorem isLive_iff {table : SegmentTable} {id : SegmentId} :
    table.isLive id = true ↔ ∃ segment, table.slot? id = some (.live segment) := by
  rw [isLive, ← slot?]
  cases table.slot? id with
  | none => simp
  | some slot => cases slot <;> simp [Slot.isLive]

theorem registered?_of_live {table : SegmentTable} {id : SegmentId} {segment : Handle}
    (live : table.slot? id = some (.live segment)) : table.registered? id = some segment := by
  rw [registered?_eq, live]
  rfl

/-- A registered segment is live or retired. -/
theorem slot?_of_registered {table : SegmentTable} {id : SegmentId} {segment : Handle}
    (registered : table.registered? id = some segment) :
    table.slot? id = some (.live segment) ∨
      ∃ version, table.slot? id = some (.retired segment version) := by
  rw [registered?_eq, Option.bind_eq_some_iff] at registered
  rcases registered with ⟨slot, found, filled⟩
  cases slot with
  | vacant => cases filled
  | live =>
      cases filled
      exact .inl found
  | retired _ version =>
      cases filled
      exact .inr ⟨version, found⟩

/-- A lookup succeeds exactly on live ids. -/
theorem resolve_eq_ok_iff {table : SegmentTable} {address : Address} {snapshot : Version}
    {segment : Handle} :
    table.resolve address snapshot = .ok segment ↔
      table.slot? address.segment = some (.live segment) := by
  constructor
  · intro found
    rw [resolve, ← slot?] at found
    split at found
    next live =>
      cases found
      exact live
    next => split at found <;> cases found
    next => cases found
    next => cases found
  · intro live
    exact resolve_live live snapshot

/-- A lookup fails because the segment was retired after the snapshot, or because a rule
was broken. -/
theorem resolve_eq_error {table : SegmentTable} {address : Address} {snapshot : Version}
    {failure : Failure} (missed : table.resolve address snapshot = .error failure) :
    (∃ segment version, table.slot? address.segment = some (.retired segment version) ∧
        snapshot < version ∧
        failure = .aborted (.segmentRetired address.segment version snapshot)) ∨
      ∃ error, failure = .usage error := by
  rw [resolve, ← slot?] at missed
  split at missed
  next => cases missed
  next segment version retired =>
    split at missed
    next later =>
      cases missed
      exact .inl ⟨segment, version, retired, later, rfl⟩
    next =>
      cases missed
      exact .inr ⟨_, rfl⟩
  next =>
    cases missed
    exact .inr ⟨_, rfl⟩
  next =>
    cases missed
    exact .inr ⟨_, rfl⟩

theorem slot?_retire (table : SegmentTable) (id : SegmentId) (version : Version)
    (other : SegmentId) :
    (table.retire id version).2.slot? other =
      if other = id then (table.slot? other).map (·.retire version) else table.slot? other := by
  by_cases same : other = id
  · subst same
    rw [if_pos rfl, retire, ← slot?]
    cases found : table.slot? other with
    | none => exact found
    | some slot =>
        cases slot with
        | live segment =>
            have inside : other.index < table.slots.size := (Array.getElem?_eq_some_iff.mp found).1
            simp [slot?, inside, Slot.retire]
        | vacant | retired => exact found
  · have apart : id.index ≠ other.index := fun equal => same (SegmentId.index_inj equal.symm)
    rw [if_neg same]
    exact slots_retire_of_ne table version apart

theorem size_retire (table : SegmentTable) (id : SegmentId) (version : Version) :
    (table.retire id version).2.slots.size = table.slots.size := by
  rw [retire]
  split <;> simp

theorem size_retireAll (table : SegmentTable) (ids : List SegmentId) (version : Version) :
    (table.retireAll ids version).slots.size = table.slots.size := by
  induction ids generalizing table with
  | nil => rfl
  | cons id rest ih => exact (ih (table.retire id version).2).trans (size_retire table id version)

/-- The named slots are retired, if they are live, and no other. -/
theorem slot?_retireAll (table : SegmentTable) (ids : List SegmentId) (version : Version)
    (other : SegmentId) :
    (table.retireAll ids version).slot? other =
      if other ∈ ids then (table.slot? other).map (·.retire version) else table.slot? other := by
  induction ids generalizing table with
  | nil => rfl
  | cons id rest ih =>
      have step := ih (table.retire id version).2
      rw [retireAll, List.foldl_cons, ← retireAll, step, slot?_retire]
      by_cases here : other = id
      · subst here
        rw [if_pos rfl, if_pos List.mem_cons_self, Option.map_map]
        have once : (Slot.retire · version) ∘ (Slot.retire · version) =
            (Slot.retire · version) := by
          funext slot
          exact slot.retire_retire version version
        rw [once, ite_self]
      · rw [if_neg here]
        simp only [List.mem_cons, here, false_or]

/-- What becomes of a slot, given whether it is named. -/
theorem slot?_retireAll_of_known {table : SegmentTable} {ids : List SegmentId} {id : SegmentId}
    {slot : Slot} {named : Bool} (known : table.slot? id = some slot)
    (listed : id ∈ ids ↔ named = true) (version : Version) :
    (table.retireAll ids version).slot? id =
      some (if named then slot.retire version else slot) := by
  rw [slot?_retireAll, known]
  cases named <;> simp [listed]

@[simp] theorem registered?_retireAll (table : SegmentTable) (ids : List SegmentId)
    (version : Version) (other : SegmentId) :
    (table.retireAll ids version).registered? other = table.registered? other := by
  rw [registered?_eq, registered?_eq, slot?_retireAll]
  split
  · cases table.slot? other with
    | none => rfl
    | some slot => exact slot.segment?_retire version
  · rfl

@[simp] theorem registered?_retire (table : SegmentTable) (id : SegmentId) (version : Version)
    (other : SegmentId) :
    (table.retire id version).2.registered? other = table.registered? other :=
  registered?_retireAll table [id] version other

/-- Retiring leaves alive what was alive and is not named. -/
theorem isLive_retireAll (table : SegmentTable) (ids : List SegmentId) (version : Version)
    (other : SegmentId) :
    (table.retireAll ids version).isLive other = true ↔
      table.isLive other = true ∧ other ∉ ids := by
  rw [isLive_iff, isLive_iff, slot?_retireAll]
  by_cases named : other ∈ ids
  · rw [if_pos named]
    cases table.slot? other with
    | none => simp
    | some slot => cases slot <;> simp [Slot.retire, named]
  · simp [named]

theorem grow_slots {digest : Digest} {machine : Machine digest} {table roomy : SegmentTable}
    (grown : table.grow machine = .ok roomy) :
    roomy.slots = table.slots ∧ roomy.live = table.live := by
  unfold grow at grown
  split at grown
  · simp only [bind_eq_ok, pure_eq_ok] at grown
    obtain ⟨_, _, same⟩ := grown
    subst same
    exact ⟨rfl, rfl⟩
  · cases grown
    exact ⟨rfl, rfl⟩

/-- A registered segment takes the next id, which is no more than 24 bits long. -/
theorem register_ok {digest : Digest} {machine : Machine digest} {table larger : SegmentTable}
    {segment : Handle} {size : UInt64} {id : SegmentId}
    (registered : table.register machine segment size = .ok (id, larger)) :
    id.index = table.slots.size ∧ table.slots.size ≤ maxSegmentId.toNat ∧
      larger.slots = table.slots.push (.live segment) ∧ larger.live = table.live + 1 := by
  unfold register at registered
  split at registered
  next => cases registered
  next room =>
    simp only [bind_eq_ok, pure_eq_ok, Prod.mk.injEq] at registered
    obtain ⟨roomy, grown, idEq, tableEq⟩ := registered
    subst idEq tableEq
    obtain ⟨sameSlots, sameLive⟩ := grow_slots grown
    have small : table.slots.size ≤ maxSegmentId.toNat := Nat.le_of_not_lt room
    have limit : maxSegmentId.toNat = 16777215 := rfl
    refine ⟨?_, small, by rw [sameSlots], by rw [sameLive]⟩
    rw [SegmentId.index, UInt32.toNat_ofNat']
    omega

section Registering

variable {digest : Digest} {machine : Machine digest} {table larger : SegmentTable}
  {segment : Handle} {size : UInt64} {id : SegmentId}
  (registered : table.register machine segment size = .ok (id, larger))

include registered

/-- A new segment is in the slot of its id; the other slots are as before. -/
theorem slot?_register (other : SegmentId) :
    larger.slot? other = if other = id then some (.live segment) else table.slot? other := by
  obtain ⟨next, _, slots, _⟩ := register_ok registered
  rw [slot?, slots, Array.getElem?_push, ← next]
  by_cases same : other = id
  · rw [if_pos (by rw [same]), if_pos same]
  · rw [if_neg fun equal => same (SegmentId.index_inj equal), if_neg same, slot?]

theorem registered?_register (other : SegmentId) :
    larger.registered? other = if other = id then some segment else table.registered? other := by
  rw [registered?_eq, slot?_register registered]
  split <;> rfl

/-- An id that has a slot is not given out again. -/
theorem ne_of_register {other : SegmentId} {slot : Slot} (known : table.slot? other = some slot) :
    other ≠ id := by
  rintro rfl
  rw [slot?, (register_ok registered).1, Array.getElem?_size] at known
  cases known

/-- A segment that is retired as soon as it is registered leaves the other slots as before. -/
theorem slot?_retire_register (version : Version) (other : SegmentId) :
    (larger.retire id version).2.slot? other =
      if other = id then some (.retired segment version) else table.slot? other := by
  rw [slot?_retire, slot?_register registered]
  split <;> rfl

end Registering

end SegmentTable

end WordStm
