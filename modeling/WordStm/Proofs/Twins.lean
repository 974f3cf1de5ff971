import WordStm.Proofs.Answers

/-!
# Twin regions

Two regions are twins if they are alike but for their tunings, and for the names
that they give to versions.  What an operation answers on one of them it answers
on the other, with the other names, as long as no comparison of the version of a
word with a snapshot depends on them, and the same requests for memory are granted
on both.
-/

namespace WordStm

/-- The failure does not repeat an earlier one. -/
def Failure.isPlain : Failure → Bool
  | aborted (.rejected _) => false
  | invalidLayout _ | outOfMemory _ | aborted _ | usage _ | invalidConfig _ => true

namespace AbortReason

/-- Name versions otherwise. -/
def restamp (stamp : Version → Version) : AbortReason → AbortReason
  | versionTooNew address version snapshot =>
      versionTooNew address (stamp version) (stamp snapshot)
  | segmentRetired segment version snapshot =>
      segmentRetired segment (stamp version) (stamp snapshot)
  | other => other

@[simp] theorem restamp_id (reason : AbortReason) : reason.restamp id = reason := by
  cases reason <;> rfl

end AbortReason

/-- A failure that names versions otherwise. -/
def Failure.restamp (stamp : Version → Version) : Failure → Failure
  | aborted reason => aborted (reason.restamp stamp)
  | other => other

/-- A cell whose version has another name. -/
def Cell.restamp (stamp : Version → Version) (cell : Cell) : Cell :=
  { cell with version := stamp cell.version }

@[simp] theorem Cell.restamp_id (cell : Cell) : cell.restamp id = cell := rfl

namespace Slot

/-- A slot whose version has another name. -/
def restamp (stamp : Version → Version) : Slot → Slot
  | retired segment version => retired segment (stamp version)
  | other => other

@[simp] theorem restamp_id (slot : Slot) : slot.restamp id = slot := by
  cases slot <;> rfl

@[simp] theorem segment?_restamp (stamp : Version → Version) (slot : Slot) :
    (slot.restamp stamp).segment? = slot.segment? := by
  cases slot <;> rfl

@[simp] theorem isLive_restamp (stamp : Version → Version) (slot : Slot) :
    (slot.restamp stamp).isLive = slot.isLive := by
  cases slot <;> rfl

end Slot

variable {stamp : Version → Version}

/-- Two failures are the same if no version has another name, and a lack of memory is one
anyway. -/
structure Failure.Echoes (stamp : Version → Version) (left right : Failure) : Prop where
  same : stamp = id → right = left
  memory : right.isOutOfMemory = left.isOutOfMemory
  plain : left.isPlain = true
  plainly : right.isPlain = true

namespace Failure.Echoes

variable {left right : Failure}

theorem refl (stamp : Version → Version) {failure : Failure} (plain : failure.isPlain = true) :
    failure.Echoes stamp failure := ⟨fun _ => rfl, rfl, plain, plain⟩

/-- What a doomed transaction reports is plain if what doomed it was, and is no lack of memory. -/
theorem plain_doomed {failure : Failure} (plain : failure.isPlain = true) :
    (AbortReason.ofFailure failure).doomedFailure.isPlain = true ∧
      (AbortReason.ofFailure failure).doomedFailure.isOutOfMemory = false := by
  cases failure with
  | aborted reason => cases reason <;> first | exact ⟨rfl, rfl⟩ | cases plain
  | invalidLayout | outOfMemory | usage | invalidConfig => exact ⟨rfl, rfl⟩

theorem doomed (echoes : left.Echoes stamp right) :
    (AbortReason.ofFailure left).doomedFailure.Echoes stamp
      (AbortReason.ofFailure right).doomedFailure where
  same := fun unchanged => by rw [echoes.same unchanged]
  memory := (plain_doomed echoes.plainly).2.trans (plain_doomed echoes.plain).2.symm
  plain := (plain_doomed echoes.plain).1
  plainly := (plain_doomed echoes.plainly).1

/-- A plain failure is echoed by itself under other names for versions. -/
theorem restamp (stamp : Version → Version) {failure : Failure} (plain : failure.isPlain = true) :
    failure.Echoes stamp (failure.restamp stamp) := by
  cases failure with
  | aborted reason =>
      refine ⟨?_, rfl, plain, ?_⟩
      · rintro rfl
        exact congrArg Failure.aborted reason.restamp_id
      · cases reason <;> first | rfl | cases plain
  | invalidLayout | outOfMemory | usage | invalidConfig => exact .refl stamp plain

end Failure.Echoes

/-- Two results are the same, or two failures that echo. -/
inductive Agree (stamp : Version → Version) {α : Type} :
    Except Failure α → Except Failure α → Prop where
  | ok (value : α) : Agree stamp (.ok value) (.ok value)
  | error {left right : Failure} (echoes : left.Echoes stamp right) :
      Agree stamp (.error left) (.error right)

namespace Agree

variable {α β : Type} {left right : Except Failure α}

/-- If no version has another name results that agree are the same. -/
theorem eq (agree : Agree stamp left right) (unchanged : stamp = id) : right = left := by
  cases agree with
  | ok value => rfl
  | error echoes => rw [echoes.same unchanged]

/-- Computations that go on alike agree. -/
theorem bind (agree : Agree stamp left right) {first second : α → Except Failure β}
    (rest : ∀ value, left = .ok value → right = .ok value →
      Agree stamp (first value) (second value)) :
    Agree stamp (left >>= first) (right >>= second) := by
  cases agree with
  | ok value => exact rest value rfl rfl
  | error echoes => exact .error echoes

theorem map (agree : Agree stamp left right) (f : α → β) :
    Agree stamp (left.map f) (right.map f) := by
  cases agree with
  | ok value => exact .ok _
  | error echoes => exact .error echoes

/-- A result agrees with itself. -/
theorem refl (result : Except Failure α)
    (plain : ∀ failure, result = .error failure → failure.isPlain = true) :
    Agree stamp result result := by
  cases result with
  | ok value => exact .ok value
  | error failure => exact .error (.refl stamp (plain failure rfl))

/-- A result that only a lack of memory can spoil agrees with itself. -/
theorem of_outOfMemory (result : Except Failure α)
    (short : ∀ failure, result = .error failure → failure.isOutOfMemory = true) :
    Agree stamp result result := by
  apply Agree.refl
  intro failure failed
  have memory := short failure failed
  cases failure with
  | aborted => cases memory
  | invalidLayout | outOfMemory | usage | invalidConfig => rfl

end Agree

/-- Both transactions are active, or both are doomed and for failures that echo. -/
inductive Status.Echoes (stamp : Version → Version) : Status → Status → Prop where
  | active : Echoes stamp .active .active
  | doomed {left right : Failure} (echoes : left.Echoes stamp right) :
      Echoes stamp (.aborted (.ofFailure left)) (.aborted (.ofFailure right))

namespace Status.Echoes

variable {left right : Status}

theorem active_iff (echoes : left.Echoes stamp right) : right = .active ↔ left = .active := by
  cases echoes <;> simp

theorem eq (echoes : left.Echoes stamp right) (unchanged : stamp = id) : right = left := by
  cases echoes with
  | active => rfl
  | doomed echoes => rw [echoes.same unchanged]

end Status.Echoes

/-- The region on the right is like that on the left, with other names for versions. -/
structure Region.Twin (stamp : Version → Version) (left right : Region) : Prop where
  align : right.config.align = left.config.align
  layout : right.memory.layout = left.memory.layout
  cells : ∀ place, right.memory.cell? place = (left.memory.cell? place).map (·.restamp stamp)
  slots : right.table.slots = left.table.slots.map (·.restamp stamp)
  live : right.table.live = left.table.live
  clock : right.coordinator.clock = stamp left.coordinator.clock

/-- The names of versions preserve whether a word is newer than a snapshot, and go with the
clock. -/
structure Region.Tells (stamp : Version → Version) (region : Region) : Prop where
  words : ∀ place cell, region.memory.cell? place = some cell → ∀ snapshot,
    stamp snapshot < stamp cell.version ↔ snapshot < cell.version
  next : stamp (region.coordinator.clock + 1) = stamp region.coordinator.clock + 1
  zero : stamp 0 = 0

/-- The transaction on the right is like that on the left, as far as it still matters. -/
structure Transaction.Twin (digest : Digest) (stamp : Version → Version)
    (left right : Transaction) : Prop where
  mode : left.status = .active → right.mode = left.mode
  snapshot : right.snapshot = stamp left.snapshot
  status : left.status.Echoes stamp right.status
  sound : right.log.writes.Sound digest
  allocated : right.log.allocated = left.log.allocated
  reads : left.status = .active → right.log.reads.toList = left.log.reads.toList
  writes : left.status = .active → right.log.writes.entries.toList = left.log.writes.entries.toList
  freed : left.status = .active → right.log.freed = left.log.freed

/-- Two machines grant the same requests. -/
def Machine.Alike {digest another : Digest} (machine : Machine digest) (other : Machine another) :
    Prop := ∀ request, other.grants request = machine.grants request

namespace Machine.Alike

variable {digest another : Digest} {machine : Machine digest} {other : Machine another}

theorem refl (machine : Machine digest) : machine.Alike machine := fun _ => rfl

theorem request (alike : machine.Alike other) (asked : Request) (reported : UInt64) :
    other.request asked reported = machine.request asked reported := by
  rw [Machine.request, Machine.request, alike]

theorem makeRoom (alike : machine.Alike other) (bytes entries : Nat) :
    other.makeRoom bytes entries = machine.makeRoom bytes entries := alike.request _ _

/-- There is room for the same words. -/
theorem recordWords (alike : machine.Alike other) (align : Nat) (id : SegmentId)
    (segment : Handle) (word count : Nat) (value : Bytes) (entries : List WriteEntry) :
    WriteEntry.recordWords other align id segment word value entries count =
      WriteEntry.recordWords machine align id segment word value entries count := by
  induction count generalizing word value entries with
  | zero => rfl
  | succ count ih => simp only [WriteEntry.recordWords, alike.makeRoom, ih]

end Machine.Alike

/-- What operations on two regions request is granted on both or on neither. -/
structure Region.GrantedAlike {digest another : Digest} (machine : Machine digest)
    (other : Machine another) (left right : Region) : Prop where
  logs : machine.Alike other
  segments : ∀ size, right.roomFor other size = left.roomFor machine size

namespace Region

variable {left right : Region}

namespace Twin

theorem slot? (twin : left.Twin stamp right) (id : SegmentId) :
    right.table.slot? id = (left.table.slot? id).map (·.restamp stamp) := by
  rw [SegmentTable.slot?, twin.slots, Array.getElem?_map]
  rfl

theorem registered? (twin : left.Twin stamp right) (id : SegmentId) :
    right.table.registered? id = left.table.registered? id := by
  rw [SegmentTable.registered?_eq, twin.slot?, SegmentTable.registered?_eq]
  cases left.table.slot? id with
  | none => rfl
  | some slot => exact slot.segment?_restamp stamp

theorem size (twin : left.Twin stamp right) :
    right.table.slots.size = left.table.slots.size := by
  rw [twin.slots, Array.size_map]

theorem isLive (twin : left.Twin stamp right) (id : SegmentId) :
    right.table.isLive id = left.table.isLive id := by
  have slots := twin.slot? id
  rw [SegmentTable.slot?, SegmentTable.slot?] at slots
  rw [SegmentTable.isLive, slots, SegmentTable.isLive]
  cases left.table.slots[id.index]? with
  | none => rfl
  | some slot => exact slot.isLive_restamp stamp

theorem keeps (twin : left.Twin stamp right) : right.Keeps left where
  align := twin.align
  registered := by
    intro id segment found
    rw [twin.registered?]
    exact found
  layout := by
    intro segment layout found
    rw [twin.layout]
    exact found

theorem laid (twin : left.Twin stamp right) (laid : left.LaidOutUnlocked) :
    right.LaidOutUnlocked := by
  apply laid.of_same twin.align twin.layout twin.registered? twin.size
  intro place cell found
  rw [twin.cells, Option.map_eq_some_iff] at found
  rcases found with ⟨old, present, rfl⟩
  exact laid.unlocked place old present

/-- A region is its own twin. -/
theorem refl (region : Region) : region.Twin id region where
  align := rfl
  layout := rfl
  cells := by simp
  slots := by simp
  live := rfl
  clock := rfl

end Twin

variable {digest another : Digest} {machine : Machine digest} {other : Machine another}
  {first second : Transaction}

/-- What hinders a read is plain. -/
theorem isPlain_of_hitch? {transaction : Transaction} {segment : SegmentId} {handle : Handle}
    {word count : Nat} {failure : Failure}
    (hindered : left.hitch? machine transaction segment handle word count = some failure) :
    failure.isPlain = true := by
  rcases of_hitch? hindered with ⟨reason, _, cell, address, rfl, _, obstacle⟩ | ⟨_, rfl⟩
  · rw [Cell.obstacle?] at obstacle
    split at obstacle
    next =>
      cases obstacle
      rfl
    next =>
      split at obstacle
      next =>
        cases obstacle
        rfl
      next => cases obstacle
  · rfl

/-- What stands in the way of a read does not depend on the names of versions. -/
theorem Twin.obstacle? (twin : left.Twin stamp right) (tells : left.Tells stamp)
    (snapshot : Version) (address : Address) (place : Place) :
    (right.memory.cell? place).bind (·.obstacle? address (stamp snapshot)) =
      ((left.memory.cell? place).bind (·.obstacle? address snapshot)).map (·.restamp stamp) := by
  rw [twin.cells]
  cases found : left.memory.cell? place with
  | none => rfl
  | some cell =>
      have newer := tells.words _ cell found snapshot
      simp only [Option.map_some, Option.bind_some, Cell.obstacle?, Cell.restamp]
      cases cell.locked with
      | true => rfl
      | false =>
          by_cases late : snapshot < cell.version
          · simp [late, newer.mpr late, AbortReason.restamp]
          · have still : ¬stamp snapshot < stamp cell.version := fun now => late (newer.mp now)
            simp [late, still]

/-- A lookup comes out alike; of a retired segment only the failure may be another. -/
theorem Twin.resolve (twin : left.Twin stamp right) (address : Address) (snapshot : Version) :
    Agree stamp (left.table.resolve address snapshot)
      (right.table.resolve address (stamp snapshot)) := by
  have slot := twin.slot? address.segment
  rw [SegmentTable.slot?, SegmentTable.slot?] at slot
  rw [SegmentTable.resolve, SegmentTable.resolve, slot]
  cases left.table.slots[address.segment.index]? with
  | none => exact .error (.refl _ rfl)
  | some slot =>
      cases slot with
      | vacant => exact .error (.refl _ rfl)
      | live handle => exact .ok handle
      | retired handle version =>
          simp only [Option.map_some, Slot.restamp]
          split
          next later =>
            split
            next => exact .error ⟨fun unchanged => by rw [unchanged]; rfl, rfl, rfl, rfl⟩
            next past =>
              refine .error ⟨fun unchanged => ?_, rfl, rfl, rfl⟩
              rw [unchanged] at past
              exact absurd later past
          next past =>
            split
            next later =>
              refine .error ⟨fun unchanged => ?_, rfl, rfl, rfl⟩
              rw [unchanged] at later
              exact absurd later past
            next => exact .error (.refl _ rfl)

theorem Twin.placeOf (twin : left.Twin stamp right) (snapshot : Version) (address : Address)
    (length : UInt64) :
    Agree stamp (left.placeOf snapshot address length)
      (right.placeOf (stamp snapshot) address length) := by
  rw [Region.placeOf, Region.placeOf, twin.align]
  split
  next =>
    apply (twin.resolve address snapshot).bind
    intro segment _ _
    rw [twin.layout]
    apply Agree.refl
    intro failure failed
    simp only at failed
    split at failed
    next => cases failed
    next =>
      cases failed
      rfl
  next => exact .error (.refl _ rfl)

end Region

namespace Transaction.Twin

variable {digest another : Digest} {machine : Machine digest} {other : Machine another}
  {left right : Region} {first second : Transaction}

theorem active_iff (same : first.Twin another stamp second) :
    second.status = .active ↔ first.status = .active := same.status.active_iff

theorem ensureActive (same : first.Twin another stamp second) :
    Agree stamp first.ensureActive second.ensureActive := by
  have status := same.status
  rw [Transaction.ensureActive, Transaction.ensureActive]
  generalize first.status = before at status
  generalize second.status = after at status
  cases status with
  | active => exact .ok ()
  | doomed echoes => exact .error echoes.doomed

/-- What a doomed twin reports is no lack of memory. -/
theorem sober (same : first.Twin another stamp second) :
    ∀ cause, first.ensureActive = .error cause → cause.isOutOfMemory = false := by
  intro cause ended
  have status := same.status
  rw [Transaction.ensureActive] at ended
  generalize first.status = before at status ended
  generalize second.status = after at status
  cases status with
  | active => cases ended
  | doomed echoes =>
      cases ended
      exact (Failure.Echoes.plain_doomed echoes.plain).2

theorem ensureWritable (same : first.Twin another stamp second)
    (active : first.status = .active) (operation : String) :
    Agree stamp (first.ensureWritable operation) (second.ensureWritable operation) := by
  rw [Transaction.ensureWritable, Transaction.ensureWritable, same.mode active]
  apply Agree.refl
  intro failure refused
  split at refused
  next =>
    cases refused
    rfl
  next => cases refused

/-- Twins have the same for all words. -/
theorem contents (same : first.Twin another stamp second) (twin : left.Twin stamp right)
    (active : first.status = .active) (segment : SegmentId) (handle : Handle) (word count : Nat) :
    right.contents second segment handle word count =
      left.contents first segment handle word count := by
  rw [Region.contents, Region.contents]
  congr 1
  funext position
  rw [same.writes active, twin.align, twin.cells]
  cases left.memory.cell? ⟨handle, position⟩ <;> rfl

/-- What hinders a read hinders that of a twin as well. -/
theorem hitch? (same : first.Twin another stamp second) (twin : left.Twin stamp right)
    (tells : left.Tells stamp) (alike : machine.Alike other) (active : first.status = .active)
    (segment : SegmentId) (handle : Handle) (word count : Nat) :
    right.hitch? other second segment handle word count =
      (left.hitch? machine first segment handle word count).map (·.restamp stamp) := by
  rw [Region.hitch?, Region.hitch?, List.map_findSome?]
  congr 1
  funext index
  rw [Function.comp_apply, Transaction.hitch?, Transaction.hitch?, same.snapshot,
    twin.obstacle? tells, twin.align]
  cases (left.memory.cell? ⟨handle, word + index⟩).bind
      (·.obstacle? (.ofWord left.config.align.toNat segment (word + index)) first.snapshot) with
  | some reason => rfl
  | none =>
      have room : second.roomToRead other index = first.roomToRead machine index := by
        rw [roomToRead, roomToRead, same.mode active, alike.makeRoom, ← Array.length_toList,
          same.reads active, Array.length_toList]
      rw [Option.map_none, room]
      cases short : first.roomToRead machine index with
      | ok => rfl
      | error failure =>
          rw [(eq_of_roomToRead short).2]
          rfl

theorem tryFree (same : first.Twin another stamp second) (twin : left.Twin stamp right)
    (alike : machine.Alike other) (target : Address) :
    Agree stamp (left.tryFree machine first target).2 (right.tryFree other second target).2 := by
  have accepted := same.ensureActive
  rw [Region.tryFree, Region.tryFree]
  cases started : first.ensureActive with
  | error failure =>
      rw [started] at accepted
      generalize second.ensureActive = other at accepted
      cases accepted with
      | error echoes => exact .error echoes
  | ok =>
      have active := Transaction.ensureActive_eq_ok.mp started
      rw [Transaction.ensureActive_eq_ok.mpr (same.active_iff.mpr active)]
      have allowed := same.ensureWritable active "free"
      generalize first.ensureWritable "free" = firstWritable at allowed
      generalize second.ensureWritable "free" = secondWritable at allowed
      cases allowed with
      | error echoes => exact .error echoes
      | ok =>
          simp only
          split
          next => exact .error (.refl _ rfl)
          next =>
            split
            next => exact .error (.refl _ rfl)
            next =>
              have looked := twin.resolve (.base target.segment) first.snapshot
              rw [SegmentTable.get, SegmentTable.get, same.snapshot]
              generalize left.table.resolve (.base target.segment) first.snapshot = leftLooked
                at looked
              generalize right.table.resolve (.base target.segment) (stamp first.snapshot) =
                rightLooked at looked
              cases looked with
              | error echoes => exact .error echoes
              | ok =>
                  simp only [TransactionLog.recordFree, same.freed active, alike.makeRoom]
                  cases first.log.freed.contains target.segment with
                  | true => exact .ok ()
                  | false =>
                      cases short : machine.makeRoom SegmentId.bytes first.log.freed.size with
                      | ok => exact .ok ()
                      | error failure =>
                          rw [Machine.eq_of_makeRoom short]
                          exact .error (.refl _ rfl)

/-- What an operation answers on a region it answers on its twin. -/
theorem answer (same : first.Twin another stamp second) (twin : left.Twin stamp right)
    (tells : left.Tells stamp) (granted : Region.GrantedAlike machine other left right)
    (operation : Operation) :
    Agree stamp (left.answer machine first operation) (right.answer other second operation) := by
  cases operation with
  | read source length =>
      rw [Region.answer, Region.answer, twin.align, same.snapshot]
      apply same.ensureActive.bind
      intro _ accepted _
      have active := Transaction.ensureActive_eq_ok.mp accepted
      apply (twin.placeOf first.snapshot source length).bind
      intro place _ _
      dsimp only
      rw [same.hitch? twin tells granted.logs active, same.contents twin active]
      cases hitch : left.hitch? machine first source.segment place.segment place.word
          (length.toNat / left.config.align.toNat) with
      | none => exact .ok _
      | some failure => exact .error (.restamp stamp (Region.isPlain_of_hitch? hitch))
  | write value target =>
      rw [Region.answer, Region.answer, same.snapshot, twin.align]
      apply same.ensureActive.bind
      intro _ accepted _
      have active := Transaction.ensureActive_eq_ok.mp accepted
      apply (same.ensureWritable active "write").bind
      intro _ _ _
      apply (twin.placeOf first.snapshot target (UInt64.ofNat value.length)).bind
      intro place _ _
      dsimp only
      rw [same.writes active, granted.logs.recordWords]
      refine (Agree.of_outOfMemory _ ?_).bind fun _ _ _ => .ok _
      intro failure short
      rw [(WriteEntry.recordWords_error short).1]
      rfl
  | alloc size =>
      rw [Region.answer, Region.answer, twin.align, twin.size, same.allocated, granted.segments,
        granted.logs.makeRoom]
      apply same.ensureActive.bind
      intro _ accepted _
      apply (same.ensureWritable (Transaction.ensureActive_eq_ok.mp accepted) "alloc").bind
      intro _ _ _
      split
      next => exact .error (.refl _ rfl)
      next =>
        refine (Agree.of_outOfMemory _ fun _ => Region.isOutOfMemory_of_roomFor).bind
          fun _ _ _ => ?_
        refine (Agree.of_outOfMemory _ ?_).bind fun _ _ _ => .ok _
        intro failure short
        rw [Machine.eq_of_makeRoom short]
        rfl
  | free target => exact (same.tryFree twin granted.logs target).map _

end Transaction.Twin

end WordStm
