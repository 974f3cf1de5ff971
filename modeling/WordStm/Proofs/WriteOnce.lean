import Mathlib.Order.Bounds.Basic
import WordStm.Proofs.Accounting
import WordStm.Proofs.Allotment
import WordStm.Proofs.Provision

/-!
# A table is written once, slot by slot

Seen from outside, a segment table is a list that only grows: the n-th registration that
succeeds adds the slot of id n.  The slot is live until the first retirement of its id,
and from then on it keeps the version of that retirement.  Nothing that is asked of a
table, and nothing that fails, changes it.

The room for slots starts with what was asked for, or with two, and is doubled when it is
used up.
-/

namespace WordStm

namespace SegmentTable

/-- What can be asked of a table.  Every registration meets a machine of its own, so memory
may run out at any time and be there again later. -/
inductive Call where
  | register {digest : Digest} (machine : Machine digest) (segment : Handle) (size : UInt64)
  | get (id : SegmentId) (snapshot : Version)
  | resolve (address : Address) (snapshot : Version)
  | retire (id : SegmentId) (version : Version)

/-- What a call answers. -/
inductive Reply where
  | registered (id : SegmentId)
  | refused (failure : Failure)
  | found (result : Except Failure Handle)
  | retired (segment : Option Handle)

/-- Calls that were made one after another, and the answers. -/
abbrev History := List (Call × Reply)

/-- Carry out a call. -/
def call (table : SegmentTable) : Call → SegmentTable × Reply
  | .register machine segment size =>
      match table.register machine segment size with
      | .ok (id, larger) => (larger, .registered id)
      | .error failure => (table, .refused failure)
  | .get id snapshot => (table, .found (table.get id snapshot))
  | .resolve address snapshot => (table, .found (table.resolve address snapshot))
  | .retire id version => ((table.retire id version).2, .retired (table.retire id version).1)

/-- Carry out calls one after another. -/
def calls (table : SegmentTable) : List Call → SegmentTable × History
  | [] => (table, [])
  | first :: rest =>
      let (middle, reply) := table.call first
      let (after, replies) := middle.calls rest
      (after, (first, reply) :: replies)

namespace History

/-- The segment that a call registered, and the id that it was given. -/
def registration? : Call × Reply → Option (SegmentId × Handle)
  | (.register _ segment _, .registered id) => some (id, segment)
  | _ => none

/-- The version as of which a call retired an id. -/
def retirement? (id : SegmentId) : Call × Reply → Option Version
  | (.retire other version, .retired (some _)) => if other = id then some version else none
  | _ => none

/-- The registrations that succeeded, in order. -/
def registrations (past : History) : List (SegmentId × Handle) := past.filterMap registration?

/-- The versions of the retirements of an id that succeeded, in order. -/
def retirements (past : History) (id : SegmentId) : List Version :=
  past.filterMap (retirement? id)

theorem registrations_snoc (past : History) (event : Call × Reply) :
    registrations (past ++ [event]) = past.registrations ++ (registration? event).toList := by
  rw [registrations, List.filterMap_append, ← registrations]
  cases known : registration? event <;> simp [known]

theorem retirements_snoc (past : History) (event : Call × Reply) (id : SegmentId) :
    retirements (past ++ [event]) id = past.retirements id ++ (retirement? id event).toList := by
  rw [retirements, List.filterMap_append, ← retirements]
  cases known : retirement? id event <;> simp [known]

end History

open History

/-- The room is the least that comes of doubling and is enough. -/
theorem roomAfter_isLeast {start : Nat} (roomy : 0 < start) (slots : Nat) :
    IsLeast {room | ∃ k, room = start * 2 ^ k ∧ slots ≤ room} (roomAfter start slots) := by
  induction slots with
  | zero =>
      refine ⟨⟨0, (Nat.mul_one start).symm, Nat.zero_le _⟩, ?_⟩
      rintro _ ⟨k, rfl, _⟩
      exact Nat.le_mul_of_pos_right start (Nat.two_pow_pos k)
  | succ slots ih =>
      rcases ih with ⟨⟨k, room, enough⟩, least⟩
      rw [roomAfter_succ]
      split
      next full =>
        have positive : 0 < roomAfter start slots := by
          rw [room]
          exact Nat.mul_pos roomy (Nat.two_pow_pos k)
        have doubled : roomAfter start slots + max (roomAfter start slots) 1 =
            start * 2 ^ (k + 1) := by
          rw [Nat.max_eq_left positive, Nat.pow_succ, ← Nat.mul_assoc, ← room]
          omega
        rw [doubled]
        refine ⟨⟨k + 1, rfl, by omega⟩, ?_⟩
        rintro _ ⟨other, rfl, holds⟩
        -- as much room as before is not enough, so it has been doubled once more
        have longer : k < other := by
          by_contra short
          have less := Nat.mul_le_mul_left start
            (Nat.pow_le_pow_right Nat.two_pos (Nat.le_of_not_lt short))
          omega
        exact Nat.mul_le_mul_left start (Nat.pow_le_pow_right Nat.two_pos longer)
      next =>
        refine ⟨⟨k, room, by omega⟩, ?_⟩
        rintro _ ⟨other, rfl, holds⟩
        exact least ⟨other, rfl, by omega⟩

/-- The slot of a registration: the first retirement counts. -/
def slotOf (retirements : SegmentId → List Version) (entry : SegmentId × Handle) : Slot :=
  match retirements entry.1 with
  | [] => .live entry.2
  | version :: _ => .retired entry.2 version

/-- A table has come to be what its registrations and retirements say.  Calls keep this one
after another; all that a table answers follows from it. -/
structure Recorded (start : Nat) (registrations : List (SegmentId × Handle))
    (retirements : SegmentId → List Version) (table : SegmentTable) : Prop where
  size : table.slots.size = registrations.length + 1
  numbered : ∀ n entry, registrations[n]? = some entry → entry.1.index = n + 1
  sentinel : table.slot? .sentinel = some .vacant
  filled : ∀ entry ∈ registrations, table.slot? entry.1 = some (slotOf retirements entry)
  /-- Only what was registered is retired, and once. -/
  known : ∀ id, retirements id ≠ [] → ∃ segment, (id, segment) ∈ registrations
  once : ∀ id, (retirements id).length ≤ 1
  counted : table.Counted
  capacity : table.capacity = roomAfter start table.slots.size

/-- A new table is empty. -/
theorem recorded_of_withCapacity {digest : Digest} {machine : Machine digest} {capacity : UInt64}
    {table : SegmentTable} (made : withCapacity machine capacity = .ok (.ok table)) :
    Recorded (max capacity 2).toNat [] (fun _ => []) table := by
  rw [eq_of_withCapacity made]
  constructor
  case size => rfl
  case numbered => rintro n entry ⟨⟩
  case sentinel => rfl
  case filled => rintro entry ⟨⟩
  case known => exact fun id impossible => absurd rfl impossible
  case once => exact fun id => Nat.zero_le 1
  case counted =>
    have none : liveIds { slots := #[.vacant], live := 0, capacity := (max capacity 2).toNat } =
        ∅ := by
      apply Set.eq_empty_of_forall_notMem
      intro id live
      rcases isLive_iff.mp live with ⟨segment, found⟩
      rcases Array.getElem?_eq_some_iff.mp found with ⟨inside, vacant⟩
      simp at vacant
    rw [Counted, none, Set.ncard_empty]
  case capacity => exact (roomAfter_one (room_pos capacity)).symm

namespace Recorded

variable {start : Nat} {registrations : List (SegmentId × Handle)}
  {retirements : SegmentId → List Version} {table larger : SegmentTable} {digest : Digest}
  {machine : Machine digest} {id : SegmentId} {segment : Handle} {size : UInt64}

/-- Every registration has a slot. -/
theorem index_lt (recorded : Recorded start registrations retirements table)
    {entry : SegmentId × Handle} (member : entry ∈ registrations) :
    entry.1.index < table.slots.size := by
  rcases List.getElem?_of_mem member with ⟨n, found⟩
  have index := recorded.numbered n entry found
  have inside := (List.getElem?_eq_some_iff.mp found).1
  have size := recorded.size
  omega

/-- Every slot is that of the sentinel or of a registration. -/
theorem mem_of_index_lt (recorded : Recorded start registrations retirements table)
    (inside : id.index < table.slots.size) :
    id = .sentinel ∨ ∃ segment, (id, segment) ∈ registrations := by
  rw [recorded.size] at inside
  cases index : id.index with
  | zero => exact .inl (SegmentId.index_inj index)
  | succ n =>
      have known : n < registrations.length := by omega
      have same := recorded.numbered n _ (List.getElem?_eq_getElem known)
      refine .inr ⟨registrations[n].2, ?_⟩
      rw [← SegmentId.index_inj (same.trans index.symm)]
      exact List.getElem_mem known

/-- What is live was registered and has not been retired. -/
theorem of_live (recorded : Recorded start registrations retirements table)
    (live : table.slot? id = some (.live segment)) :
    (id, segment) ∈ registrations ∧ retirements id = [] := by
  rcases recorded.mem_of_index_lt (Array.getElem?_eq_some_iff.mp live).1 with
    rfl | ⟨registered, member⟩
  · rw [recorded.sentinel] at live
    cases live
  · have filled := recorded.filled _ member
    rw [live, Option.some.injEq, slotOf] at filled
    split at filled
    next none =>
      cases filled
      exact ⟨member, none⟩
    next => cases filled

/-- What has no slot was neither registered nor retired. -/
theorem retirements_of_beyond (recorded : Recorded start registrations retirements table)
    (beyond : table.slots.size ≤ id.index) : retirements id = [] := by
  by_contra retired
  rcases recorded.known id retired with ⟨segment, member⟩
  exact absurd (recorded.index_lt member) (Nat.not_lt_of_le beyond)

/-- A registration adds a slot behind all others. -/
theorem register (recorded : Recorded start registrations retirements table)
    (registered : table.register machine segment size = .ok (id, larger)) :
    Recorded start (registrations ++ [(id, segment)]) retirements larger := by
  rcases register_ok registered with ⟨next, _, slots, _⟩
  have slot := slot?_register registered
  have old : ∀ entry ∈ registrations, entry.1 ≠ id := by
    rintro entry member rfl
    have inside := recorded.index_lt member
    omega
  constructor
  case size =>
    rw [slots, Array.size_push, recorded.size, List.length_append, List.length_singleton]
  case numbered =>
    intro n entry found
    rw [List.getElem?_append] at found
    split at found
    next => exact recorded.numbered n entry found
    next late =>
      rw [List.getElem?_singleton, Option.ite_none_right_eq_some] at found
      rcases found with ⟨last, same⟩
      have size := recorded.size
      rw [← Option.some.inj same]
      change id.index = n + 1
      omega
  case sentinel =>
    have inside := (Array.getElem?_eq_some_iff.mp recorded.sentinel).1
    rw [slot, if_neg, recorded.sentinel]
    rintro rfl
    omega
  case filled =>
    intro entry member
    rw [slot]
    rcases List.mem_append.mp member with before | now
    · rw [if_neg (old entry before)]
      exact recorded.filled entry before
    · -- the id is new, so nobody can have retired it
      have fresh := recorded.retirements_of_beyond next.ge
      rw [List.mem_singleton.mp now, if_pos rfl, slotOf, fresh]
  case known =>
    intro other retired
    rcases recorded.known other retired with ⟨segment, member⟩
    exact ⟨segment, List.mem_append_left _ member⟩
  case once => exact recorded.once
  case counted => exact recorded.counted.register registered
  case capacity =>
    rw [capacity_register registered, recorded.capacity, slots, Array.size_push]
    rfl

/-- A retirement writes the slot of its id and no other. -/
theorem retire (recorded : Recorded start registrations retirements table)
    (live : table.slot? id = some (.live segment)) (version : Version) :
    Recorded start registrations (Function.update retirements id [version])
      (table.retire id version).2 := by
  rcases recorded.of_live live with ⟨member, fresh⟩
  have slot := table.slot?_retire id version
  constructor
  case size => rw [size_retire, recorded.size]
  case numbered => exact recorded.numbered
  case sentinel =>
    rw [slot, recorded.sentinel]
    exact ite_self _
  case filled =>
    intro entry registered
    rw [slot, recorded.filled entry registered]
    by_cases same : entry.1 = id
    · simp [same, slotOf, fresh, Slot.retire]
    · simp [same, slotOf]
  case known =>
    intro other retired
    by_cases same : other = id
    · exact ⟨segment, same ▸ member⟩
    · rw [Function.update_of_ne same] at retired
      exact recorded.known other retired
  case once =>
    intro other
    by_cases same : other = id
    · simp [same]
    · rw [Function.update_of_ne same]
      exact recorded.once other
  case counted => exact recorded.counted.retire id version
  case capacity =>
    rw [size_retire, ← recorded.capacity]
    exact capacity_retireAll table [id] version

end Recorded

/-- A retirement finds a live segment, or it finds none and changes nothing. -/
theorem retire_cases (table : SegmentTable) (id : SegmentId) (version : Version) :
    (∃ segment, table.slot? id = some (.live segment) ∧
        (table.retire id version).1 = some segment) ∨
      (table.isLive id = false ∧ table.retire id version = (none, table)) := by
  cases live : table.isLive id with
  | true =>
      rcases isLive_iff.mp live with ⟨segment, found⟩
      refine .inl ⟨segment, found, ?_⟩
      rw [slot?] at found
      simp only [SegmentTable.retire, found]
  | false =>
      refine .inr ⟨rfl, ?_⟩
      rw [SegmentTable.retire]
      split
      next segment found =>
        rw [isLive_iff.mpr ⟨segment, found⟩] at live
        cases live
      next => rfl

variable {start : Nat} {past : History} {table : SegmentTable}

theorem Recorded.snoc {event : Call × Reply}
    (recorded : Recorded start (past.registrations ++ (registration? event).toList)
      (fun id => past.retirements id ++ (retirement? id event).toList) table) :
    Recorded start (registrations (past ++ [event])) (retirements (past ++ [event])) table := by
  rw [registrations_snoc, funext (retirements_snoc past event)]
  exact recorded

/-- A call that neither registers nor retires anything adds nothing. -/
theorem Recorded.idle {event : Call × Reply}
    (recorded : Recorded start past.registrations past.retirements table)
    (registers : registration? event = none) (retires : ∀ id, retirement? id event = none) :
    Recorded start (registrations (past ++ [event])) (retirements (past ++ [event])) table := by
  apply Recorded.snoc
  simp only [registers, retires, Option.toList_none, List.append_nil]
  exact recorded

/-- A call makes of a table what it adds to the history. -/
theorem Recorded.call (recorded : Recorded start past.registrations past.retirements table)
    (call : Call) :
    Recorded start (registrations (past ++ [(call, (table.call call).2)]))
      (retirements (past ++ [(call, (table.call call).2)])) (table.call call).1 := by
  cases call with
  | get | resolve => exact recorded.idle rfl fun _ => rfl
  | register machine segment size =>
      rw [SegmentTable.call]
      cases answer : table.register machine segment size with
      | error failure => exact recorded.idle rfl fun _ => rfl
      | ok entry =>
          apply Recorded.snoc
          simp only [registration?, retirement?, Option.toList_some, Option.toList_none,
            List.append_nil]
          exact recorded.register answer
  | retire id version =>
      rw [SegmentTable.call]
      rcases table.retire_cases id version with ⟨segment, live, found⟩ | ⟨_, same⟩
      · have added : (fun other => past.retirements other ++
            (retirement? other (.retire id version, .retired (some segment))).toList) =
              Function.update past.retirements id [version] := by
          funext other
          by_cases same : other = id
          · simp [retirement?, same, (recorded.of_live live).2]
          · simp [retirement?, same, Ne.symm same]
        apply Recorded.snoc
        rw [found, added]
        simp only [registration?, Option.toList_none, List.append_nil]
        exact recorded.retire live version
      · rw [same]
        exact recorded.idle rfl fun _ => rfl

/-- So do calls one after another. -/
theorem Recorded.calls (recorded : Recorded start past.registrations past.retirements table)
    (rest : List Call) :
    Recorded start (registrations (past ++ (table.calls rest).2))
      (retirements (past ++ (table.calls rest).2)) (table.calls rest).1 := by
  induction rest generalizing past table with
  | nil =>
      rw [SegmentTable.calls, List.append_nil]
      exact recorded
  | cons first rest ih =>
      have later := ih (recorded.call first)
      rw [List.append_assoc, List.singleton_append] at later
      exact later

/-- What a history leaves live: an id that was given to a segment and not retired. -/
def History.Leaves (past : History) (id : SegmentId) (segment : Handle) : Prop :=
  (id, segment) ∈ past.registrations ∧ past.retirements id = []

/-- What a history never gave to a segment: the sentinel, and ids too large. -/
def History.Skips (past : History) (id : SegmentId) : Prop :=
  id = .sentinel ∨ past.registrations.length < id.index

/-- What a table is after some calls: a list that only grows, each slot of it written once. -/
structure Refines (start : Nat) (past : History) (table : SegmentTable) : Prop where
  /-- The n-th registration that succeeds is given id n. -/
  numbered : ∀ n id segment, past.registrations[n]? = some (id, segment) → id.index = n + 1
  assigned : table.idsAssigned = past.registrations.length
  /-- Behind the slot of the sentinel there is one for each registration, live or retired as of
  the first retirement. -/
  slots : table.slots.toList = .vacant :: past.registrations.map (slotOf past.retirements)
  once : ∀ id, (past.retirements id).length ≤ 1
  forever : ∀ id segment version, table.slot? id = some (.retired segment version) →
    ∀ later, (table.calls later).1.slot? id = some (.retired segment version)
  /-- A registration succeeds exactly if there are an id and room left.  If it fails nothing
  has changed. -/
  registers : ∀ {digest : Digest} (machine : Machine digest) segment size, table.Roomy machine →
    ∃ id after, table.call (.register machine segment size) = (after, .registered id)
  refuses : ∀ {digest : Digest} (machine : Machine digest) segment size, ¬table.Roomy machine →
    ∃ failure, table.call (.register machine segment size) = (table, .refused failure)
  retires : ∀ id segment version, past.Leaves id segment →
    (table.call (.retire id version)).2 = .retired (some segment)
  ignores : ∀ id version, past.retirements id ≠ [] ∨ past.Skips id →
    table.call (.retire id version) = (table, .retired none)
  /-- The counter agrees with the slots. -/
  live : table.live = table.liveIds.ncard
  /-- A live id leads a reader of any snapshot to the segment that was registered under it. -/
  found : ∀ id segment, past.Leaves id segment → ∀ offset snapshot,
    table.call (.resolve ⟨id, offset⟩ snapshot) = (table, .found (.ok segment)) ∧
      table.call (.get id snapshot) = (table, .found (.ok segment))
  gone : ∀ id version, version ∈ past.retirements id → ∀ offset snapshot,
    table.call (.resolve ⟨id, offset⟩ snapshot) = (table, .found (.error (
      if version > snapshot then .aborted (.segmentRetired id version snapshot)
      else .usage (.segmentFreed id))))
  unknown : ∀ id, past.Skips id → ∀ offset snapshot,
    table.call (.resolve ⟨id, offset⟩ snapshot) =
      (table, .found (.error (.usage (.unknownSegment ⟨id, offset⟩))))
  /-- The room has been doubled as often as necessary and no more. -/
  capacity : IsLeast {room | ∃ k, room = start * 2 ^ k ∧ table.slots.size ≤ room} table.capacity

/-- A slot that was retired is not written again. -/
theorem slot?_call_of_retired {id : SegmentId} {segment : Handle} {version : Version}
    (retired : table.slot? id = some (.retired segment version)) (call : Call) :
    (table.call call).1.slot? id = some (.retired segment version) := by
  cases call with
  | get | resolve => exact retired
  | register machine other size =>
      rw [SegmentTable.call]
      cases answer : table.register machine other size with
      | error failure => exact retired
      | ok entry =>
          have inside := (Array.getElem?_eq_some_iff.mp retired).1
          have next := (register_ok answer).1
          change entry.2.slot? id = _
          rw [slot?_register answer, if_neg, retired]
          rintro rfl
          omega
  | retire other later =>
      change (table.retire other later).2.slot? id = _
      rw [slot?_retire, retired]
      exact ite_self _

theorem slot?_calls_of_retired {id : SegmentId} {segment : Handle} {version : Version}
    (retired : table.slot? id = some (.retired segment version)) (rest : List Call) :
    (table.calls rest).1.slot? id = some (.retired segment version) := by
  induction rest generalizing table with
  | nil => exact retired
  | cons first rest ih => exact ih (slot?_call_of_retired retired first)

namespace Recorded

/-- The slots of a table, one after another. -/
theorem slots_eq {registrations : List (SegmentId × Handle)}
    {retirements : SegmentId → List Version}
    (recorded : Recorded start registrations retirements table) :
    table.slots.toList = .vacant :: registrations.map (slotOf retirements) := by
  apply List.ext_getElem?
  intro n
  rw [Array.getElem?_toList]
  cases n with
  | zero => exact recorded.sentinel
  | succ n =>
      rw [List.getElem?_cons_succ, List.getElem?_map]
      cases found : registrations[n]? with
      | none =>
          have beyond := List.getElem?_eq_none_iff.mp found
          have size := recorded.size
          exact Array.getElem?_eq_none_iff.mpr (by omega)
      | some entry =>
          rw [← recorded.numbered n entry found]
          exact recorded.filled entry (List.mem_of_getElem? found)

theorem slot?_of_leaves (recorded : Recorded start past.registrations past.retirements table)
    {id : SegmentId} {segment : Handle} (leaves : past.Leaves id segment) :
    table.slot? id = some (.live segment) := by
  have filled := recorded.filled _ leaves.1
  rw [slotOf, leaves.2] at filled
  exact filled

theorem slot?_of_retired (recorded : Recorded start past.registrations past.retirements table)
    {id : SegmentId} {version : Version} (retired : version ∈ past.retirements id) :
    ∃ segment, table.slot? id = some (.retired segment version) := by
  rcases recorded.known id (List.ne_nil_of_mem retired) with ⟨segment, member⟩
  have filled := recorded.filled _ member
  have once := recorded.once id
  rw [slotOf] at filled
  match stamps : past.retirements id with
  | [] =>
      rw [stamps] at retired
      cases retired
  | [first] =>
      rw [stamps, List.mem_singleton] at retired
      rw [stamps] at filled
      exact ⟨segment, retired ▸ filled⟩
  | _ :: _ :: _ =>
      rw [stamps] at once
      simp at once

theorem slot?_of_skips (recorded : Recorded start past.registrations past.retirements table)
    {id : SegmentId} (skips : past.Skips id) :
    table.slot? id = some .vacant ∨ table.slot? id = none := by
  rcases skips with rfl | beyond
  · exact .inl recorded.sentinel
  · have size := recorded.size
    exact .inr (Array.getElem?_eq_none_iff.mpr (by omega))

/-- What is not left live is not live. -/
theorem isLive_eq_false (recorded : Recorded start past.registrations past.retirements table)
    {id : SegmentId} (dead : past.retirements id ≠ [] ∨ past.Skips id) :
    table.isLive id = false := by
  rw [Bool.eq_false_iff]
  intro live
  rcases isLive_iff.mp live with ⟨segment, found⟩
  rcases dead with retired | skips
  · exact retired (recorded.of_live found).2
  · rcases recorded.slot?_of_skips skips with vacant | none
    · rw [vacant] at found
      cases found
    · rw [none] at found
      cases found

/-- A table that has come to be what its history says answers as that history says. -/
theorem refines (recorded : Recorded start past.registrations past.retirements table)
    (roomy : 0 < start) : Refines start past table where
  numbered n id segment entry := recorded.numbered n (id, segment) entry
  assigned := by
    rw [idsAssigned, recorded.size, Nat.add_sub_cancel]
  slots := recorded.slots_eq
  once := recorded.once
  forever _ _ _ retired later := slot?_calls_of_retired retired later
  registers machine segment size enough := by
    rcases roomy_iff.mpr enough with ⟨⟨id, after⟩, registered⟩
    refine ⟨id, after, ?_⟩
    rw [SegmentTable.call, registered]
  refuses machine segment size cramped := by
    cases answer : table.register machine segment size with
    | ok entry => exact absurd (roomy_iff.mp ⟨entry, answer⟩) cramped
    | error failure =>
        refine ⟨failure, ?_⟩
        rw [SegmentTable.call, answer]
  retires id segment version leaves := by
    have live := recorded.slot?_of_leaves leaves
    rw [slot?] at live
    simp only [SegmentTable.call, SegmentTable.retire, live]
  ignores id version dead := by
    have not := recorded.isLive_eq_false dead
    rcases table.retire_cases id version with ⟨segment, live, _⟩ | ⟨_, same⟩
    · rw [isLive_iff.mpr ⟨segment, live⟩] at not
      cases not
    · rw [SegmentTable.call, same]
  live := recorded.counted
  found id segment leaves offset snapshot := by
    have live := recorded.slot?_of_leaves leaves
    constructor
    · rw [SegmentTable.call, resolve_eq_ok_iff.mpr live]
    · rw [SegmentTable.call, get, resolve_eq_ok_iff.mpr live]
  gone id version retired offset snapshot := by
    rcases recorded.slot?_of_retired retired with ⟨segment, stamped⟩
    rw [slot?] at stamped
    simp only [SegmentTable.call, resolve, stamped]
    split
    next => rfl
    next => rfl
  unknown id skips offset snapshot := by
    rcases recorded.slot?_of_skips skips with vacant | none
    · rw [slot?] at vacant
      simp only [SegmentTable.call, resolve, vacant]
    · rw [slot?] at none
      simp only [SegmentTable.call, resolve, none]
  capacity := by
    rw [recorded.capacity]
    exact roomAfter_isLeast roomy _

end Recorded

/-- Whatever is called, in whatever order, and wherever memory runs out, a table remains an
append-only list of slots that are written once. -/
theorem calls_refine {digest : Digest} {machine : Machine digest} {capacity : UInt64}
    {table : SegmentTable} (made : withCapacity machine capacity = .ok (.ok table))
    (calls : List Call) :
    Refines (max capacity 2).toNat (table.calls calls).2 (table.calls calls).1 := by
  have empty : Recorded (max capacity 2).toNat (registrations []) (retirements []) table :=
    recorded_of_withCapacity made
  exact (empty.calls calls).refines (room_pos capacity)

/-- With memory for four slots there is no room for a fourth segment.  A segment that was
retired twice keeps the first version, and one that was not is found by everybody. -/
theorem calls_refine_cramped : ∃ table after past,
    withCapacity (.limited 64) 0 = .ok (.ok table) ∧
    table.calls [
      .register (.limited 64) 10 8, .register (.limited 64) 11 8, .retire ⟨1⟩ 5,
      .register (.limited 64) 12 8, .register (.limited 64) 13 8, .retire ⟨1⟩ 6] =
        (after, past) ∧
    past.registrations = [(⟨1⟩, 10), (⟨2⟩, 11), (⟨3⟩, 12)] ∧ past.retirements ⟨1⟩ = [5] ∧
    after.live = 2 ∧ after.capacity = 4 ∧
    (∀ later, (after.calls later).1.slot? ⟨1⟩ = some (.retired 10 5)) ∧
    ∀ offset snapshot, after.call (.resolve ⟨⟨2⟩, offset⟩ snapshot) =
      (after, .found (.ok 11)) := by
  let table : SegmentTable := { slots := #[.vacant], live := 0, capacity := 2 }
  let after : SegmentTable :=
    { slots := #[.vacant, .retired 10 5, .live 11, .live 12], live := 2, capacity := 4 }
  let past : History := [
    (.register (.limited 64) 10 8, .registered ⟨1⟩),
    (.register (.limited 64) 11 8, .registered ⟨2⟩),
    (.retire ⟨1⟩ 5, .retired (some 10)),
    (.register (.limited 64) 12 8, .registered ⟨3⟩),
    (.register (.limited 64) 13 8, .refused (.outOfMemory 64)),
    (.retire ⟨1⟩ 6, .retired none)]
  have made : withCapacity (.limited 64) 0 = .ok (.ok table) := rfl
  have ran : table.calls (past.map (·.1)) = (after, past) := by cbv
  have refines := calls_refine made (past.map (·.1))
  rw [ran] at refines
  refine ⟨table, after, past, made, ran, rfl, rfl, rfl, rfl, ?_, ?_⟩
  · exact refines.forever ⟨1⟩ 10 5 rfl
  · intro offset snapshot
    exact (refines.found ⟨2⟩ 11 ⟨by decide, rfl⟩ offset snapshot).1

end SegmentTable

end WordStm
