import WordStm.Proofs.Conflicts
import WordStm.Proofs.Lockstep

/-!
# When memory runs out

Which requests for memory are granted is up to the machine.  What is requested is decided
by the configuration and by how many segments there have been, so memory runs out on
both of two twin sessions of one configuration or on neither.
-/

namespace WordStm

namespace SegmentTable

variable {digest another : Digest} {machine : Machine digest} {other : Machine another}
  {table larger : SegmentTable}

/-- The room of a table that had room for `start` slots, when it has come to have `slots`. -/
def roomAfter (start : Nat) : (slots : Nat) → Nat
  | 0 => start
  | slots + 1 =>
      let room := roomAfter start slots
      if slots = room then room + max room 1 else room

theorem roomAfter_succ (start slots : Nat) :
    roomAfter start (slots + 1) =
      if slots = roomAfter start slots
      then roomAfter start slots + max (roomAfter start slots) 1 else roomAfter start slots := rfl

theorem roomAfter_one {start : Nat} (roomy : 0 < start) : roomAfter start 1 = start :=
  if_neg (Nat.ne_of_lt roomy)

/-- A table that is full doubles its room before it takes one more slot. -/
theorem capacity_register {segment : Handle} {size : UInt64} {id : SegmentId}
    (registered : table.register machine segment size = .ok (id, larger)) :
    larger.capacity =
      if table.slots.size = table.capacity then table.capacity + max table.capacity 1
      else table.capacity := by
  unfold register at registered
  split at registered
  next => cases registered
  next =>
    simp only [bind_eq_ok, pure_eq_ok, Prod.mk.injEq] at registered
    rcases registered with ⟨roomy, grown, _, rfl⟩
    unfold grow at grown
    split at grown
    next full =>
      simp only [bind_eq_ok, pure_eq_ok] at grown
      rcases grown with ⟨_, _, rfl⟩
      exact (if_pos full).symm
    next roomy' =>
      cases grown
      exact (if_neg roomy').symm

@[simp] theorem capacity_retire (table : SegmentTable) (id : SegmentId) (version : Version) :
    (table.retire id version).2.capacity = table.capacity := by
  rw [retire]
  split <;> rfl

@[simp] theorem capacity_retireAll (table : SegmentTable) (ids : List SegmentId)
    (version : Version) : (table.retireAll ids version).capacity = table.capacity := by
  induction ids generalizing table with
  | nil => rfl
  | cons id rest ih =>
      exact (ih (table.retire id version).2).trans (table.capacity_retire id version)

/-- Whether a table grows depends on how many slots it has, and on its room. -/
theorem grow_alike {right : SegmentTable} (alike : machine.Alike other)
    (sizes : right.slots.size = table.slots.size) (capacity : right.capacity = table.capacity) :
    (right.grow other).map (fun _ => ()) = (table.grow machine).map fun _ => () := by
  simp only [grow, sizes, capacity, alike.request]
  split
  next =>
    simp only [bind, Except.bind]
    cases machine.request _ _ <;> rfl
  next => rfl

/-- Whether a segment is registered depends on how many there are, and on the room. -/
theorem register_alike {right : SegmentTable} (alike : machine.Alike other)
    (sizes : right.slots.size = table.slots.size) (capacity : right.capacity = table.capacity)
    (segment second : Handle) (size : UInt64) :
    (right.register other second size).map (fun _ => ()) =
      (table.register machine segment size).map fun _ => () := by
  have grown := grow_alike alike sizes capacity
  rw [register, register, sizes]
  split
  next => rfl
  next =>
    simp only [bind, Except.bind]
    generalize right.grow other = wider at grown
    generalize table.grow machine = wide at grown
    cases wider <;> cases wide <;> cases grown <;> rfl

end SegmentTable

/-- There is room in a new table. -/
theorem SegmentTable.room_pos (capacity : UInt64) : 0 < (max capacity 2).toNat := by
  have two : (2 : UInt64).toNat = 2 := rfl
  rw [UInt64.toNat_max, two]
  omega

theorem Segment.create_alike {digest another : Digest} {machine : Machine digest}
    {other : Machine another} (alike : machine.Alike other) (size align : UInt64) :
    create other size align = create machine size align := by
  simp only [create, alike.request]

theorem AddressFilter.create_alike {digest another : Digest} {machine : Machine digest}
    {other : Machine another} (alike : machine.Alike other) (bits : UInt64) (hashes : UInt32) :
    create other bits hashes = create machine bits hashes := by
  simp only [create, alike.request]

namespace Region

variable {digest another : Digest} {machine : Machine digest} {other : Machine another}
  {left right region after before : Region} {transaction moved : Transaction}
  {config : RegionConfig}

/-- The tuning of a region is that of its configuration, and its table has grown with the
segments. -/
structure Provided (config : RegionConfig) (region : Region) : Prop where
  capacity : region.table.capacity =
    SegmentTable.roomAfter (max config.tableCapacity 2).toNat region.table.slots.size
  bits : region.coordinator.filterBits = config.filterBits
  hashes : region.coordinator.filterHashes = config.filterHashes

theorem create_provided (created : create machine config = .ok (.ok region)) :
    region.Provided config := by
  rcases create_eq created with ⟨_, _, _, _, _, _, _, registered, rfl⟩
  refine ⟨?_, rfl, rfl⟩
  rw [(SegmentTable.register_ok registered).2.2.1, SegmentTable.capacity_register registered,
    Array.size_push, List.size_toArray, List.length_singleton, SegmentTable.roomAfter_succ,
    SegmentTable.roomAfter_one]
  exact SegmentTable.room_pos config.tableCapacity

/-- Regions that differ in nothing but memory, versions and tallies are provided alike. -/
theorem Provided.of_same (provided : before.Provided config)
    (capacity : after.table.capacity = before.table.capacity)
    (slots : after.table.slots.size = before.table.slots.size)
    (bits : after.coordinator.filterBits = before.coordinator.filterBits)
    (hashes : after.coordinator.filterHashes = before.coordinator.filterHashes) :
    after.Provided config := by
  refine ⟨?_, bits.trans provided.bits, hashes.trans provided.hashes⟩
  rw [capacity, slots]
  exact provided.capacity

theorem Unmoved.provided (moved : after.Unmoved before) (provided : before.Provided config) :
    after.Provided config := by
  apply provided.of_same
  · rw [moved.table]
  · rw [moved.table]
  · rw [moved.coordinator]
  · rw [moved.coordinator]

theorem Effect.provided {operation : Operation} {result : Except Failure Reply}
    (effect : before.Effect machine transaction operation after moved result)
    (provided : before.Provided config) : after.Provided config := by
  cases effect with
  | alloc active writable checked created registered =>
      refine ⟨?_, provided.bits, provided.hashes⟩
      rw [SegmentTable.capacity_register registered, provided.capacity,
        (SegmentTable.register_ok registered).2.2.1, Array.size_push, SegmentTable.roomAfter]
  | unlogged active writable checked created registered =>
      refine ⟨?_, provided.bits, provided.hashes⟩
      simp only [SegmentTable.capacity_retire, SegmentTable.size_retire]
      rw [SegmentTable.capacity_register registered, provided.capacity,
        (SegmentTable.register_ok registered).2.2.1, Array.size_push, SegmentTable.roomAfter]
  | failed | read | write | free => exact provided

theorem Settlement.provided {result : Except Failure Version}
    (settled : before.Settlement transaction after result)
    (provided : before.Provided config) : after.Provided config := by
  cases settled with
  | quiet =>
      exact provided.of_same (SegmentTable.capacity_retireAll _ _ _)
        (SegmentTable.size_retireAll _ _ _) rfl rfl
  | @published outcome publishes =>
      apply provided.of_same (SegmentTable.capacity_retireAll _ _ _)
        (SegmentTable.size_retireAll _ _ _)
      · change outcome.coordinator.filterBits = _
        rw [publishes.clock]
      · change outcome.coordinator.filterHashes = _
        rw [publishes.clock]
  | failed clock =>
      rcases clock with rfl | rfl <;>
        exact provided.of_same (SegmentTable.capacity_retireAll _ _ _)
          (SegmentTable.size_retireAll _ _ _) rfl rfl

/-- On regions of one configuration that have as many segments, the same requests for memory
are made. -/
theorem Provided.served (provided : left.Provided config) (also : right.Provided config)
    (alike : machine.Alike other) (align : right.config.align = left.config.align)
    (sizes : right.table.slots.size = left.table.slots.size) :
    ServedAlike machine other left right where
  logs := alike
  segments := by
    intro size
    have capacity : right.table.capacity = left.table.capacity := by
      rw [provided.capacity, also.capacity, sizes]
    have registered := SegmentTable.register_alike alike sizes capacity
      left.memory.segments.size right.memory.segments.size size
    rw [roomFor, roomFor, addSegment, addSegment, align, Segment.create_alike alike]
    simp only [Memory.add]
    generalize right.table.register other _ size = second at registered
    generalize left.table.register machine _ size = first at registered
    cases Segment.create machine size left.config.align with
    | error fault => rfl
    | ok made =>
        cases made with
        | error failure => rfl
        | ok segment => cases first <;> cases second <;> cases registered <;> rfl
  filters := by
    intro mode
    cases mode with
    | readOnly => exact AddressFilter.create_alike alike _ _
    | readWrite =>
        rw [filterFor, filterFor, also.bits, also.hashes, provided.bits, provided.hashes]
        exact AddressFilter.create_alike alike _ _

end Region

namespace Session

variable {digest : Digest} {machine now next : Machine digest} {stamp : Version → Version}
  {name : TransactionId → TransactionId} {stays : TransactionId → Prop}
  {left right session after : Session} {action : Action} {answer : Answer}
  {config : RegionConfig} {actions : List Action} {answers : List Answer}

theorem Move.provided (move : session.Move now action after answer)
    (provided : session.region.Provided config) : after.region.Provided config := by
  cases move with
  | began begun => exact (Region.begin_unmoved begun).provided provided
  | refused refused => exact (Region.begin_unmoved refused).provided provided
  | unknown => exact provided
  | performed found effect => exact effect.provided provided
  | committed found settled => exact settled.provided provided
  | dropped asked found =>
      rw [Region.abandon_eq]
      exact provided.of_same (SegmentTable.capacity_retireAll _ _ _)
        (SegmentTable.size_retireAll _ _ _) rfl rfl

theorem Reached.provided (reached : Reached machine config actions answers session) :
    session.region.Provided config := by
  apply reached.induction (motive := fun _ _ session => session.region.Provided config)
  · intro region created
    exact Region.create_provided created
  · intro actions answers session action answer after _ _ move provided
    exact move.provided provided

/-- A step of what both have keeps them twins, if they are of one configuration and the same
requests are granted. -/
theorem Twin.step_alike (twin : left.Twin digest name stays stamp right)
    (numbered : left.Numbered name stays) (kept : left.LogsValid digest)
    (also : right.LogsValid digest)
    (tells : left.region.Tells stamp) (provided : left.region.Provided config)
    (alsoProvided : right.region.Provided config) (alike : now.Alike next) (sized : action.Sized)
    (own : ∀ id, action.owner? = some id → stays id)
    (ruled : ∀ id first second, stays id → left.find? id = some first →
      right.find? (name id) = some second → first.Twin digest stamp second →
      first.status = .active →
      right.region.coordinator.ruling needsValidation right.region.memory second =
        left.region.coordinator.ruling needsValidation left.region.memory first)
    (stepped : left.step now action = .ok (after, answer)) :
    ∃ final reply, right.step next (action.rename name) = .ok (final, reply) ∧
      after.Twin digest name stays stamp final ∧ Answer.Agrees name stamp answer reply := by
  have served : left.region.ServedAlike now next right.region :=
    provided.served alsoProvided alike twin.region.align twin.region.size
  have sizable : ∀ mode, action.rename name = .begin mode →
      ∃ made, right.region.filterFor next mode = .ok made := by
    intro mode begins
    cases action with
    | begin =>
        cases begins
        rw [served.filters]
        rw [Session.step, Region.begin_eq_map] at stepped
        cases made : left.region.filterFor now mode with
        | error fault =>
            rw [made] at stepped
            cases stepped
        | ok filter => exact ⟨filter, rfl⟩
    | perform | commit | rollback | endElsewhere => cases begins
  rcases also.step_total next (action.rename name) sizable with ⟨final, reply, again⟩
  exact ⟨final, reply, again,
    twin.step numbered kept tells sized own ruled stepped again (.inl served)⟩

end Session

end WordStm
