import WordStm.Proofs.Twins

/-!
# Steps of twins

What one of two twin regions goes through the other goes through as well: after an
operation or the end of a transaction they are twins again.  For an operation, either
the same requests for memory have to be granted on both, or memory must not run out on
either.
-/

namespace WordStm

variable {stamp : Version → Version}

/-- A segment that can be made is the same on every machine. -/
theorem Segment.create_unique {digest another : Digest} {machine : Machine digest}
    {other : Machine another} {size align : UInt64}
    {segment second : Segment} (created : create machine size align = .ok (.ok segment))
    (again : create other size align = .ok (.ok second)) : second = segment := by
  rw [create] at created again
  split at created
  next => cases created
  next nonzero =>
    rw [dif_neg nonzero] at again
    simp only [Except.ok.injEq, bind_eq_ok] at created again
    rcases created with ⟨_, _, _, _, _, _, same⟩
    rcases again with ⟨_, _, _, _, _, _, alike⟩
    cases same
    cases alike
    rfl

namespace SegmentTable

variable {left right : SegmentTable}

/-- Retiring goes with the names of versions. -/
theorem retire_restamp (slots : right.slots = left.slots.map (·.restamp stamp))
    (live : right.live = left.live) (segment : SegmentId) (version : Version) :
    (right.retire segment (stamp version)).2.slots =
        (left.retire segment version).2.slots.map (·.restamp stamp) ∧
      (right.retire segment (stamp version)).2.live = (left.retire segment version).2.live := by
  rw [retire, retire, slots, Array.getElem?_map]
  cases left.slots[segment.index]? with
  | none => exact ⟨slots, live⟩
  | some slot =>
      cases slot with
      | vacant | retired => exact ⟨slots, live⟩
      | live handle =>
          refine ⟨?_, by simp [Slot.restamp, live]⟩
          simp [Slot.restamp, Array.map_setIfInBounds]

theorem retireAll_restamp (slots : right.slots = left.slots.map (·.restamp stamp))
    (live : right.live = left.live) (segments : List SegmentId) (version : Version) :
    (right.retireAll segments (stamp version)).slots =
        (left.retireAll segments version).slots.map (·.restamp stamp) ∧
      (right.retireAll segments (stamp version)).live = (left.retireAll segments version).live := by
  induction segments generalizing left right with
  | nil => exact ⟨slots, live⟩
  | cons segment rest ih =>
      rcases retire_restamp slots live segment version with ⟨slotsThen, liveThen⟩
      exact ih slotsThen liveThen

end SegmentTable

namespace Region.Twin

variable {left right : Region}

/-- Twins locate an access alike. -/
theorem located_unique (twin : left.Twin stamp right) (laid : left.LaidOutUnlocked)
    {address : Address} {length word count position number : Nat} {segment handle : Handle}
    (located : left.Located address length segment word count)
    (also : right.Located address length handle position number) :
    handle = segment ∧ position = word ∧ number = count := by
  have live := twin.slot? address.segment
  rw [located.live, also.live] at live
  have offset := also.offset
  have whole := also.whole
  rw [located.offset, twin.align] at offset
  rw [located.whole, twin.align] at whole
  refine ⟨?_, (Nat.eq_of_mul_eq_mul_right laid.align_pos offset).symm,
    (Nat.eq_of_mul_eq_mul_right laid.align_pos whole).symm⟩
  cases live
  rfl

/-- Twins stay twins when both move on alike and retire the same segments. -/
theorem settle (twin : left.Twin stamp right) {memory second : Memory}
    {now also version named : Version} {segments others : List SegmentId}
    (layout : second.layout = memory.layout)
    (cells : ∀ place, second.cell? place = (memory.cell? place).map (·.restamp stamp))
    (clock : also = stamp now) (listed : others = segments) (names : named = stamp version)
    (tally counted : Tally) :
    ({ left with
        coordinator := { left.coordinator with clock := now }
        memory, tally
        table := left.table.retireAll segments version } : Region).Twin stamp
      { right with
        coordinator := { right.coordinator with clock := also }
        memory := second
        tally := counted
        table := right.table.retireAll others named } := by
  subst listed
  subst names
  rcases SegmentTable.retireAll_restamp twin.slots twin.live others version with ⟨slots, live⟩
  exact ⟨twin.align, layout, cells, slots, live, clock⟩

/-- Twins stay twins when they retire a segment as of now. -/
theorem retire (twin : left.Twin stamp right) (id : SegmentId) :
    ({ left with table := (left.table.retire id left.coordinator.clock).2 } : Region).Twin stamp
      { right with table := (right.table.retire id right.coordinator.clock).2 } :=
  twin.settle twin.layout twin.cells twin.clock (rfl : [id] = [id]) twin.clock left.tally
    right.tally

/-- Twins give a new segment the same id, and are twins again. -/
theorem add {digest another : Digest} {machine : Machine digest} {other : Machine another}
    {size : UInt64} {segment second : Segment}
    {given also : SegmentId} {table grown : SegmentTable} (twin : left.Twin stamp right)
    (tells : left.Tells stamp)
    (created : Segment.create machine size left.config.align = .ok (.ok segment))
    (registered : left.table.register machine left.memory.segments.size size =
      .ok (given, table))
    (again : Segment.create other size right.config.align = .ok (.ok second))
    (entered : right.table.register other right.memory.segments.size size = .ok (also, grown)) :
    also = given ∧
      ({ left with memory := (left.memory.add segment).2, table } : Region).Twin stamp
        { right with memory := (right.memory.add second).2, table := grown } := by
  rw [twin.align] at again
  rw [Segment.create_unique created again]
  have sizes := Memory.size_eq_of_layout twin.layout
  rcases SegmentTable.register_ok registered with ⟨next, _, slots, live⟩
  rcases SegmentTable.register_ok entered with ⟨alsoNext, _, alsoSlots, alsoLive⟩
  refine ⟨SegmentId.index_inj (by rw [alsoNext, next, twin.size]), ?_⟩
  constructor
  · exact twin.align
  · funext handle
    simp only [Memory.layout_add, sizes, twin.layout]
  · intro place
    simp only [Memory.cell?_add, sizes, twin.cells]
    split
    next =>
      cases found : segment.cell? place.word with
      | none => rfl
      | some cell =>
          have fresh := ((Segment.create_ok created).2.2 _ cell found).2.1
          have same : cell.restamp stamp = cell := by
            cases cell
            cases fresh
            simp [Cell.restamp, tells.zero]
          rw [Option.map_some, same]
    next => rfl
  · simp only [slots, alsoSlots, twin.slots, Array.map_push, sizes]
    rfl
  · simp only [live, alsoLive, twin.live]
  · exact twin.clock

end Region.Twin

namespace Transaction.Twin

variable {digest another : Digest} {machine : Machine digest} {other : Machine another}
  {left right after final : Region}
  {first second moved settled : Transaction} {operation : Operation}
  {result reply : Except Failure Reply}

/-- A twin keeps to what the other keeps to. -/
theorem kept (same : first.Twin another stamp second) (twin : left.Twin stamp right)
    (kept : first.LogValid digest left) : second.LogValid another right where
  sound := same.sound
  quiet := by
    intro active readOnly
    have started := same.active_iff.mp active
    rw [same.mode started] at readOnly
    rcases kept.quiet started readOnly with ⟨entries, freed⟩
    refine ⟨?_, by rw [same.freed started, freed]⟩
    rw [← Array.toList_inj, same.writes started, entries]
  named := by
    intro active entry member
    have started := same.active_iff.mp active
    rw [same.reads started] at member
    exact (kept.named started entry member).keep twin.keeps
  placed := by
    intro active entry member
    have started := same.active_iff.mp active
    rw [same.writes started] at member
    exact (kept.placed started entry member).keep twin.keeps

section Answering

variable (same : first.Twin another stamp second) (twin : left.Twin stamp right)
  (tells : left.Tells stamp) (laid : left.LaidOutUnlocked) (kept : first.LogValid digest left)
  (performed : left.perform machine first operation = .ok (after, moved, result))
  (again : right.perform other second operation = .ok (final, settled, reply))

include same twin tells laid kept performed again

/-- The answers agree if the same requests for memory are granted. -/
theorem agree_of_granted (granted : Region.GrantedAlike machine other left right) :
    Agree stamp result reply := by
  rw [laid.perform_answer kept performed,
    (twin.laid laid).perform_answer (same.kept twin kept) again]
  exact same.answer twin tells granted operation

/-- The answers agree if memory does not run out. -/
theorem agree_of_spared (spared : Spared result) (alsoSpared : Spared reply) :
    Agree stamp result reply := by
  have alsoLaid := twin.laid laid
  rw [laid.perform_answer kept performed] at spared ⊢
  rw [alsoLaid.perform_answer (same.kept twin kept) again] at alsoSpared ⊢
  rw [laid.answer_of_spared spared, alsoLaid.answer_of_spared alsoSpared]
  have granted : Region.GrantedAlike (.unlimited digest) (.unlimited another) left right := by
    refine ⟨fun _ => rfl, fun size => ?_⟩
    rw [laid.roomFor_unlimited, alsoLaid.roomFor_unlimited, twin.size]
  exact same.answer twin tells granted operation

end Answering

/-- Failures that echo doom twins alike. -/
theorem doomed {failure echo : Failure} (same : first.Twin another stamp second)
    (echoes : failure.Echoes stamp echo) :
    (first.doom failure).status.Echoes stamp (second.doom echo).status := by
  have status := same.status
  rw [Transaction.status_doom, Transaction.status_doom]
  generalize first.status = before at status
  generalize second.status = also at status
  cases status with
  | active => exact .doomed echoes
  | doomed earlier => exact .doomed earlier

/-- Twins that fail are doomed twins. -/
theorem of_failed {failure echo : Failure} (same : first.Twin another stamp second)
    (twin : left.Twin stamp right) (echoes : failure.Echoes stamp echo)
    (hit : operation.spares failure = false)
    (effect : left.Effect machine first operation after moved (.error failure))
    (again : right.Effect other second operation final settled (.error echo))
    (status : moved.status = (first.doom failure).status)
    (alsoStatus : settled.status = (second.doom echo).status) :
    after.Twin stamp final ∧ moved.Twin another stamp settled := by
  have ended : moved.status ≠ .active := by
    intro active
    have ended := Transaction.isActive_doom first failure
    rw [Transaction.isActive, ← status, active] at ended
    cases ended
  cases effect with
  | unlogged _ _ _ _ _ full =>
      rw [Operation.spares, TransactionLog.isOutOfMemory_of_recordAlloc full] at hit
      cases hit
  | failed _ allocated _ _ _ _ _ snapshot =>
      cases again with
      | unlogged _ _ _ _ _ full =>
          rw [Operation.spares, ← echoes.memory,
            TransactionLog.isOutOfMemory_of_recordAlloc full] at hit
          cases hit
      | failed _ alsoAllocated _ writes _ _ _ alsoSnapshot =>
          refine ⟨twin, ?_⟩
          constructor
          · exact fun active => absurd active ended
          · rw [alsoSnapshot, snapshot, same.snapshot]
          · rw [status, alsoStatus]
            exact same.doomed echoes
          · exact writes.sound
          · rw [alsoAllocated, allocated, same.allocated]
          · exact fun active => absurd active ended
          · exact fun active => absurd active ended
          · exact fun active => absurd active ended

/-- Twins that memory runs out on when they allocate stay twins. -/
theorem of_spared {size : UInt64} {failure echo : Failure} (same : first.Twin another stamp second)
    (twin : left.Twin stamp right) (tells : left.Tells stamp) (laid : left.LaidOutUnlocked)
    (kept : first.LogValid digest left) (granted : Region.GrantedAlike machine other left right)
    (performed : left.perform machine first (.alloc size) = .ok (after, moved, .error failure))
    (again : right.perform other second (.alloc size) = .ok (final, settled, .error echo))
    (memory : failure.isOutOfMemory = true) :
    after.Twin stamp final ∧ moved.Twin another stamp settled := by
  rcases laid.entitled_of_starved same.sober (laid.perform_answer kept performed).symm memory with
    ⟨active, writable, checked⟩
  have alsoChecked := checked
  rw [← twin.align] at alsoChecked
  have alsoWritable := (congrArg AccessMode.isReadOnly (same.mode active)).trans writable
  rcases Region.addSegment_total laid.align_ne_zero size with ⟨made, added⟩
  rcases Region.addSegment_total (twin.laid laid).align_ne_zero size with ⟨also, alsoAdded⟩
  rw [Region.perform_alloc_eq active writable checked added, Except.ok.injEq] at performed
  rw [Region.perform_alloc_eq (same.active_iff.mpr active) alsoWritable alsoChecked alsoAdded,
    Except.ok.injEq] at again
  have room := granted.segments size
  rw [Region.roomFor, Region.roomFor, added, alsoAdded] at room
  cases made with
  | error short =>
      cases also with
      | error alsoShort =>
          cases performed
          cases again
          exact ⟨twin, same⟩
      | ok => cases room
  | ok entry =>
      cases also with
      | error alsoShort => cases room
      | ok other =>
          rcases Region.addSegment_ok added with ⟨_, _, created, registered, larger⟩
          rcases Region.addSegment_ok alsoAdded with ⟨_, _, alsoCreated, alsoRegistered, alsoLarger⟩
          rcases twin.add tells created registered alsoCreated alsoRegistered with ⟨named, twins⟩
          rw [← larger, ← alsoLarger] at twins
          simp only [same.allocated, granted.logs.makeRoom, named] at again
          cases logged : machine.makeRoom SegmentId.bytes first.log.allocated.size with
          | error full =>
              simp only [logged] at performed again
              cases performed
              cases again
              exact ⟨twins.retire _, same⟩
          | ok =>
              simp only [logged] at performed
              cases performed

/-- Twins that read the same words stay twins. -/
theorem of_read {segment handle : Handle} {word position count number : Nat} {source : Address}
    {length : UInt64} {bytes value : Bytes} (same : first.Twin another stamp second)
    (twin : left.Twin stamp right) (laid : left.LaidOutUnlocked) (kept : first.LogValid digest left)
    (active : first.status = .active)
    (located : left.Located source length.toNat segment word count)
    (also : right.Located source length.toNat handle position number)
    (words : left.readWords machine first source ⟨segment, word⟩ [] count =
      .ok (moved, .ok bytes))
    (again : right.readWords other second source ⟨handle, position⟩ [] number =
      .ok (settled, .ok value)) : moved.Twin another stamp settled := by
  rcases twin.located_unique laid located also with ⟨rfl, rfl, rfl⟩
  have alike := Region.readWords_alike words
  have alsoAlike := Region.readWords_alike again
  have keptToo := same.kept twin kept
  have started := same.active_iff.mpr active
  rw [located.address_eq] at words
  rw [also.address_eq] at again
  have recorded := Region.readWords_recorded kept.sound
    (fun readOnly => (kept.quiet active readOnly).1) words
  have alsoRecorded := Region.readWords_recorded same.sound
    (fun readOnly => (keptToo.quiet started readOnly).1) again
  constructor
  · intro _
    rw [alsoAlike.mode, alike.mode, same.mode active]
  · rw [alsoAlike.snapshot, alike.snapshot, same.snapshot]
  · rw [alsoAlike.status, alike.status]
    exact same.status
  · exact alsoAlike.writes.sound same.sound
  · rw [alsoAlike.allocated, alike.allocated, same.allocated]
  · intro _
    rw [alsoRecorded, recorded, same.reads active, same.mode active, twin.align]
  · intro _
    rw [alsoAlike.writes.entries, alike.writes.entries, same.writes active]
  · intro _
    rw [alsoAlike.freed, alike.freed, same.freed active]

/-- Twins that succeed in the same stay twins. -/
theorem of_performed {told : Reply} (same : first.Twin another stamp second)
    (twin : left.Twin stamp right) (tells : left.Tells stamp) (laid : left.LaidOutUnlocked)
    (kept : first.LogValid digest left)
    (effect : left.Effect machine first operation after moved (.ok told))
    (again : right.Effect other second operation final settled (.ok told)) :
    after.Twin stamp final ∧ moved.Twin another stamp settled := by
  cases effect with
  | read active located words =>
      cases again with
      | read _ also words' =>
          exact ⟨twin, same.of_read twin laid kept active located also words words'⟩
  | @write value target segment word count writes active writable located sound entries =>
      cases again with
      | @write _ _ _ _ _ others _ _ also alsoSound alsoEntries =>
          rcases twin.located_unique laid located also with ⟨rfl, rfl, rfl⟩
          refine ⟨twin, same.mode, same.snapshot, same.status, alsoSound, same.allocated,
            same.reads, ?_, same.freed⟩
          intro _
          change others.entries.toList = writes.entries.toList
          rw [entries, alsoEntries, twin.align, same.writes active]
  | alloc active writable checked created registered =>
      generalize replied : Except.ok (Reply.address (.base _)) = told at again
      cases again with
      | alloc _ _ _ alsoCreated entered =>
          rcases twin.add tells created registered alsoCreated entered with ⟨rfl, twins⟩
          refine ⟨twins, same.mode, same.snapshot, same.status, same.sound, ?_, same.reads,
            same.writes, same.freed⟩
          exact congrArg (Array.push · _) same.allocated
      | failed | unlogged => cases replied
  | free active writable live =>
      cases again with
      | free =>
          refine ⟨twin, same.mode, same.snapshot, same.status, by simpa using same.sound,
            by simpa using same.allocated, by simpa using same.reads, by simpa using same.writes,
            ?_⟩
          intro _
          simp only [TransactionLog.withFree, same.freed active]
          split
          next => exact same.freed active
          next => rfl

/-- An operation leaves twins twins if they agree on its answer and are not spared. -/
theorem of_agree (same : first.Twin another stamp second) (twin : left.Twin stamp right)
    (tells : left.Tells stamp) (laid : left.LaidOutUnlocked) (kept : first.LogValid digest left)
    (sized : operation.Sized)
    (performed : left.perform machine first operation = .ok (after, moved, result))
    (again : right.perform other second operation = .ok (final, settled, reply))
    (agree : Agree stamp result reply)
    (hit : ∀ failure, result = .error failure → operation.spares failure = false) :
    after.Twin stamp final ∧ moved.Twin another stamp settled := by
  have effect := Region.perform_effect sized kept.sound performed
  have alsoEffect := Region.perform_effect sized same.sound again
  cases agree with
  | ok told => exact same.of_performed twin tells laid kept effect alsoEffect
  | @error failure echo echoes =>
      have doomed := hit failure rfl
      have alsoDoomed : operation.spares echo = false := by
        cases operation with
        | alloc => exact echoes.memory.trans doomed
        | read | write | free => rfl
      exact same.of_failed twin echoes doomed effect alsoEffect
        (Region.status_of_failed kept.sound sized doomed performed)
        (Region.status_of_failed same.sound sized alsoDoomed again)

/-- An operation leaves twins twins, and answers them alike, if the same requests for memory
are granted. -/
theorem perform_granted (same : first.Twin another stamp second) (twin : left.Twin stamp right)
    (tells : left.Tells stamp) (laid : left.LaidOutUnlocked) (kept : first.LogValid digest left)
    (sized : operation.Sized) (granted : Region.GrantedAlike machine other left right)
    (performed : left.perform machine first operation = .ok (after, moved, result))
    (again : right.perform other second operation = .ok (final, settled, reply)) :
    after.Twin stamp final ∧ moved.Twin another stamp settled ∧ Agree stamp result reply := by
  have agree := same.agree_of_granted twin tells laid kept performed again granted
  by_cases hit : ∀ failure, result = .error failure → operation.spares failure = false
  · rcases same.of_agree twin tells laid kept sized performed again agree hit with ⟨twins, sames⟩
    exact ⟨twins, sames, agree⟩
  · simp only [not_forall, Bool.not_eq_false] at hit
    rcases hit with ⟨failure, rfl, spares⟩
    cases operation with
    | read | write | free => cases spares
    | alloc size =>
        cases agree with
        | error echoes =>
            rcases same.of_spared twin tells laid kept granted performed again spares with
              ⟨twins, sames⟩
            exact ⟨twins, sames, .error echoes⟩

/-- An operation leaves twins twins, and answers them alike, unless memory runs out. -/
theorem perform_spared (same : first.Twin another stamp second) (twin : left.Twin stamp right)
    (tells : left.Tells stamp) (laid : left.LaidOutUnlocked) (kept : first.LogValid digest left)
    (sized : operation.Sized)
    (performed : left.perform machine first operation = .ok (after, moved, result))
    (again : right.perform other second operation = .ok (final, settled, reply))
    (spared : Spared result) (alsoSpared : Spared reply) :
    after.Twin stamp final ∧ moved.Twin another stamp settled ∧ Agree stamp result reply := by
  have agree := same.agree_of_spared twin tells laid kept performed again spared alsoSpared
  rcases same.of_agree twin tells laid kept sized performed again agree
    (fun failure failed => operation.spares_of_enough (spared failure failed)) with ⟨twins, sames⟩
  exact ⟨twins, sames, agree⟩

end Transaction.Twin

namespace Region

variable {digest another : Digest} {machine : Machine digest} {other : Machine another}
  {left right region after : Region}
  {first second transaction ended : Transaction} {result : Except Failure Version}

/-- With something to publish or to free, what a commit leaves is what the state before it
rules. -/
theorem commit_busy (active : transaction.status = .active)
    (writable : transaction.mode.isReadOnly = false)
    (effects : transaction.log.isReadOnly = false)
    (sound : transaction.log.writes.Sound digest)
    (grounded : transaction.Grounded region.memory)
    (committed : region.commit digest transaction = .ok (after, ended, result)) :
    let ruling := region.coordinator.ruling needsValidation region.memory transaction
    let coordinator :=
      if ruling.ticks then { region.coordinator with clock := region.coordinator.clock + 1 }
      else region.coordinator
    result = ruling.result region.coordinator.clock ∧
      (ruling = .granted → ∃ outcome : Coordinator.Outcome,
        Coordinator.Publishes region.coordinator region.memory transaction outcome ∧
        after = { region with
          coordinator
          memory := outcome.memory
          table := region.table.retireAll transaction.log.freed.toList
            (region.coordinator.clock + 1)
          tally := region.tally.ended true }) ∧
      (ruling ≠ .granted → after = { region with
        coordinator
        table := region.table.retireAll transaction.log.allocated.toList coordinator.clock
        tally := region.tally.ended false }) := by
  intro ruling coordinator
  have settled := commit_settles committed
  rcases region.commit_ruled digest active writable effects sound grounded with
    ⟨last, closed, ruled, clock⟩
  rw [committed, Except.ok.injEq, Prod.mk.injEq, Prod.mk.injEq] at ruled
  rcases ruled with ⟨rfl, _, answered⟩
  change result = ruling.result region.coordinator.clock at answered
  change after.coordinator = coordinator at clock
  refine ⟨answered, ?_, ?_⟩
  · intro granted
    cases settled with
    | quiet _ idle =>
        rw [writable, effects] at idle
        simp at idle
    | @published outcome publishes => exact ⟨outcome, publishes, by rw [← clock]⟩
    | failed =>
        rw [granted] at answered
        cases answered
  · intro refused
    cases settled with
    | quiet _ idle =>
        rw [writable, effects] at idle
        simp at idle
    | published publishes =>
        cases decided : ruling with
        | granted => exact absurd decided refused
        | contended | invalid =>
            rw [decided] at answered
            cases answered
    | failed => rw [← clock]

end Region

namespace Transaction.Twin

variable {digest another : Digest} {machine : Machine digest} {other : Machine another}
  {left right after final : Region}
  {first second ended closed : Transaction} {result reply : Except Failure Version}

theorem isReadOnly_log (same : first.Twin another stamp second) (active : first.status = .active) :
    second.log.isReadOnly = first.log.isReadOnly := by
  have entries : second.log.writes.entries = first.log.writes.entries := by
    rw [← Array.toList_inj, same.writes active]
  rw [TransactionLog.isReadOnly, TransactionLog.isReadOnly, WriteSet.isEmpty, WriteSet.isEmpty,
    entries, same.freed active]

/-- The log of a twin is grounded like that of the other. -/
theorem grounded (same : first.Twin another stamp second) (twin : left.Twin stamp right)
    (laid : left.LaidOutUnlocked) (kept : first.LogValid digest left)
    (active : first.status = .active) :
    second.Grounded right.memory :=
  (same.kept twin kept).grounded (twin.laid laid) (same.active_iff.mpr active)

/-- Twins that commit quietly stay twins. -/
theorem commit_quiet (same : first.Twin another stamp second) (twin : left.Twin stamp right)
    (active : first.status = .active)
    (idle : first.mode.isReadOnly = true ∨ first.log.isReadOnly = true)
    (committed : left.commit digest first = .ok (after, ended, result)) :
    ∃ final closed, right.commit another second = .ok (final, closed, .ok (stamp first.snapshot)) ∧
      after.Twin stamp final ∧ result = .ok first.snapshot := by
  have started := same.active_iff.mpr active
  have alsoIdle : second.mode.isReadOnly = true ∨ second.log.isReadOnly = true := by
    rw [same.mode active, same.isReadOnly_log active]
    exact idle
  rcases left.commit_idle digest active idle with ⟨_, quietly⟩
  rcases right.commit_idle another started alsoIdle with ⟨closed, also⟩
  rw [committed, Except.ok.injEq, Prod.mk.injEq, Prod.mk.injEq] at quietly
  rcases quietly with ⟨rfl, _, rfl⟩
  rw [same.snapshot] at also
  exact ⟨_, closed, also, twin.settle twin.layout twin.cells twin.clock
    (congrArg Array.toList (same.freed active)) rfl _ _, rfl⟩

/-- Twins whose commits are ruled alike stay twins. -/
theorem commit_busy (same : first.Twin another stamp second) (twin : left.Twin stamp right)
    (tells : left.Tells stamp) (laid : left.LaidOutUnlocked) (kept : first.LogValid digest left)
    (active : first.status = .active) (writable : first.mode.isReadOnly = false)
    (effects : first.log.isReadOnly = false)
    (ruled : right.coordinator.ruling needsValidation right.memory second =
      left.coordinator.ruling needsValidation left.memory first)
    (clear : ∀ address, left.coordinator.ruling needsValidation left.memory first ≠
      .contended address)
    (committed : left.commit digest first = .ok (after, ended, result))
    (again : right.commit another second = .ok (final, closed, reply)) :
    after.Twin stamp final ∧ Agree stamp (result.map stamp) reply := by
  have started := same.active_iff.mpr active
  have alsoWritable := (congrArg AccessMode.isReadOnly (same.mode active)).trans writable
  have alsoEffects := (same.isReadOnly_log active).trans effects
  rcases Region.commit_busy active writable effects kept.sound (kept.grounded laid active)
    committed with ⟨answered, granted, refused⟩
  rcases Region.commit_busy started alsoWritable alsoEffects same.sound
    (same.grounded twin laid kept active) again with ⟨replied, alsoGranted, alsoRefused⟩
  rw [ruled] at replied alsoGranted alsoRefused
  cases decided : left.coordinator.ruling needsValidation left.memory first with
  | contended address => exact absurd decided (clear address)
  | invalid address =>
      rw [decided] at answered replied
      simp only [decided, Ruling.ticks, if_true] at refused alsoRefused
      rw [refused (by simp), alsoRefused (by simp), answered, replied]
      refine ⟨?_, .error (.refl _ rfl)⟩
      have clock : right.coordinator.clock + 1 = stamp (left.coordinator.clock + 1) := by
        rw [twin.clock, tells.next]
      exact twin.settle twin.layout twin.cells clock
        (congrArg Array.toList same.allocated) clock _ _
  | granted =>
      rw [decided] at answered replied
      simp only [decided, Ruling.ticks, if_true] at granted alsoGranted
      rcases granted trivial with ⟨outcome, publishes, rfl⟩
      rcases alsoGranted trivial with ⟨others, alsoPublishes, rfl⟩
      have clock : right.coordinator.clock + 1 = stamp (left.coordinator.clock + 1) := by
        rw [twin.clock, tells.next]
      rw [answered, replied]
      constructor
      · refine twin.settle ?_ ?_ clock (congrArg Array.toList (same.freed active)) clock _ _
        · rw [alsoPublishes.layout, publishes.layout, twin.layout]
        · intro place
          rw [alsoPublishes.cells, publishes.cells, same.writes active, clock, twin.cells]
          cases first.log.writes.entries.toList.find? (·.place == place) with
          | none => rfl
          | some entry => cases left.memory.cell? place <;> rfl
      · simp only [Ruling.result, Except.map, clock]
        exact .ok _

/-- A commit leaves twins twins, and answers them alike, if it is ruled alike. -/
theorem commit (same : first.Twin another stamp second) (twin : left.Twin stamp right)
    (tells : left.Tells stamp) (laid : left.LaidOutUnlocked) (kept : first.LogValid digest left)
    (ruled : first.status = .active →
      right.coordinator.ruling needsValidation right.memory second =
        left.coordinator.ruling needsValidation left.memory first)
    (clear : first.status = .active → ∀ address,
      left.coordinator.ruling needsValidation left.memory first ≠ .contended address)
    (committed : left.commit digest first = .ok (after, ended, result)) :
    ∃ final closed reply, right.commit another second = .ok (final, closed, reply) ∧
      after.Twin stamp final ∧ Agree stamp (result.map stamp) reply := by
  have status := same.status
  generalize started : first.status = before at status
  generalize alsoStarted : second.status = also at status
  cases status with
  | doomed echoes =>
      rw [left.commit_doomed digest started, Except.ok.injEq, Prod.mk.injEq,
        Prod.mk.injEq] at committed
      rcases committed with ⟨rfl, _, rfl⟩
      refine ⟨_, _, _, right.commit_doomed another alsoStarted, ?_, .error echoes.doomed⟩
      exact twin.settle twin.layout twin.cells twin.clock
        (congrArg Array.toList same.allocated) twin.clock _ _
  | active =>
      by_cases idle : first.mode.isReadOnly = true ∨ first.log.isReadOnly = true
      · rcases same.commit_quiet twin started idle committed with
          ⟨final, closed, again, twins, rfl⟩
        exact ⟨final, closed, _, again, twins, .ok _⟩
      · rw [not_or, Bool.not_eq_true, Bool.not_eq_true] at idle
        have alsoWritable := (congrArg AccessMode.isReadOnly (same.mode started)).trans idle.1
        have alsoEffects := (same.isReadOnly_log started).trans idle.2
        rcases right.commit_ruled another alsoStarted alsoWritable alsoEffects same.sound
          (same.grounded twin laid kept started) with ⟨final, closed, again, _⟩
        exact ⟨final, closed, _, again, same.commit_busy twin tells laid kept started idle.1 idle.2
          (ruled started) (clear started) committed again⟩

end Transaction.Twin

end WordStm
