import WordStm.Proofs.Words

/-!
# What holds at every value of the clock

Most of what a region keeps to has nothing to do with its clock: how its segments
are laid out, that they are registered in their order, that no word is locked
between two steps, and that the log of an active transaction is about words that
exist.  These hold after every run of a session, however long it is and even if
the clock comes round.
-/

namespace WordStm

namespace Region

/-- The region when its clock shows the last value, so that no word is newer. -/
def late (region : Region) : Region :=
  { region with coordinator := { region.coordinator with clock := 0xffffffffffffffff } }

theorem le_last (version : Version) : version ≤ 0xffffffffffffffff := by
  have last : (0xffffffffffffffff : Version).toNat = 18446744073709551615 := rfl
  have below := version.toNat_lt
  rw [UInt64.le_iff_toNat_le, last]
  omega

/-- Segments are laid out and registered as they should, no word is locked, and ids fit into
24 bits. -/
structure LaidOutUnlocked (region : Region) : Prop where
  valid : region.late.Valid
  unlocked : ∀ place cell, region.memory.cell? place = some cell → cell.locked = false
  few : region.table.slots.size ≤ maxSegmentId.toNat + 1

/-- What was there stays, whatever became of the values of words. -/
structure Keeps (after before : Region) : Prop where
  align : after.config.align = before.config.align
  registered : ∀ id segment, before.table.registered? id = some segment →
    after.table.registered? id = some segment
  layout : ∀ segment layout, before.memory.layout segment = some layout →
    after.memory.layout segment = some layout

variable {digest : Digest} {machine now : Machine digest} {region before after : Region}
  {address other : Address}
  {place second : Place} {transaction moved : Transaction} {operation : Operation}
  {result : Except Failure Reply}

theorem Keeps.refl (region : Region) : region.Keeps region :=
  ⟨rfl, fun _ _ found => found, fun _ _ found => found⟩

theorem Extends.keeps (extended : after.Extends before) : after.Keeps before :=
  ⟨congrArg RegionConfig.align extended.config, extended.registered, extended.layout⟩

namespace Names

theorem late (names : region.Names address place) : region.late.Names address place :=
  ⟨names.registered, names.offset, names.inside⟩

theorem of_late (names : region.late.Names address place) : region.Names address place :=
  ⟨names.registered, names.offset, names.inside⟩

theorem keep (names : before.Names address place) (kept : after.Keeps before) :
    after.Names address place where
  registered := kept.registered _ _ names.registered
  offset := by
    rw [kept.align]
    exact names.offset
  inside := by
    rcases names.inside with ⟨size, laidOut, fits⟩
    rw [kept.align]
    exact ⟨size, kept.layout _ _ laidOut, fits⟩

end Names

theorem Located.late {length word count : Nat} {segment : Handle}
    (located : region.Located address length segment word count) :
    region.late.Located address length segment word count :=
  ⟨located.live, located.offset, located.whole, located.positive, located.inside⟩

end Region

theorem WriteEntry.Placed.keep {before after : Region} {entry : WriteEntry}
    (placed : Placed before entry) (kept : after.Keeps before) : Placed after entry := by
  rcases placed with ⟨segment, word, size, registered, place, address, laidOut, inside, whole⟩
  rw [← kept.align] at address laidOut inside whole
  exact ⟨segment, word, size, kept.registered _ _ registered, place, address,
    kept.layout _ _ laidOut, inside, whole⟩

theorem WriteEntry.Placed.late {region : Region} {entry : WriteEntry}
    (placed : Placed region entry) : Placed region.late entry := placed

namespace Region

variable {digest : Digest} {machine now : Machine digest} {region before after : Region}
  {transaction moved : Transaction} {operation : Operation} {result : Except Failure Reply}

theorem LaidOutUnlocked.align_pos (laid : region.LaidOutUnlocked) :
    0 < region.config.align.toNat := laid.valid.align_pos

/-- Words that an access consists of are placed, as many of them as are assigned. -/
theorem Located.placed_assignWords {target : Address} {value : Bytes}
    {segment : Handle} {word count fewer : Nat} {entries : List WriteEntry}
    (located : region.Located target value.length segment word count)
    (laid : region.LaidOutUnlocked) (placed : ∀ entry ∈ entries, WriteEntry.Placed region entry)
    (most : fewer ≤ count) :
    ∀ entry ∈ WriteEntry.assignWords region.config.align.toNat target.segment segment word value
      entries fewer, WriteEntry.Placed region entry := by
  rcases located.inside with ⟨align, size, laidOut, inside⟩
  rcases laid.valid.layout _ _ _ laidOut with ⟨rfl, _, _⟩
  rw [located.offset, located.whole, ← Nat.add_mul] at inside
  apply WriteEntry.Placed.assignWords placed (SegmentTable.registered?_of_live located.live) laidOut
  · exact (Nat.mul_le_mul_right _ (Nat.add_le_add_left most _)).trans inside
  · rw [located.whole]
    exact Nat.mul_le_mul_right _ most

/-- Neither values and versions of words nor which segments are live matter to the layout. -/
theorem LaidOutUnlocked.of_same (laid : before.LaidOutUnlocked)
    (align : after.config.align = before.config.align)
    (layout : after.memory.layout = before.memory.layout)
    (registered : ∀ id, after.table.registered? id = before.table.registered? id)
    (slots : after.table.slots.size = before.table.slots.size)
    (unlocked : ∀ place cell, after.memory.cell? place = some cell → cell.locked = false) :
    after.LaidOutUnlocked where
  valid := by
    have valid := laid.valid
    constructor
    · simpa only [late, align] using valid.align_pos
    · simpa only [late, align, layout] using valid.layout
    · exact fun _ cell _ => le_last cell.version
    · simpa only [late, registered, Memory.size_eq_of_layout layout] using valid.registered
    · simpa only [late, slots, Memory.size_eq_of_layout layout] using valid.slots
  unlocked := unlocked
  few := by
    rw [slots]
    exact laid.few

/-- A new region is laid out. -/
theorem create_laid {config : RegionConfig} (created : create machine config = .ok (.ok region)) :
    region.LaidOutUnlocked where
  valid := by
    have valid := create_valid created
    exact ⟨valid.align_pos, valid.layout, fun _ cell _ => le_last cell.version, valid.registered,
      valid.slots⟩
  unlocked := fun _ _ found => (create_cells created found).2.2
  few := by
    rcases create_ok created with ⟨_, _, _, _, table, _, _, slots, registered, _⟩
    rcases SegmentTable.register_ok registered with ⟨_, room, larger, _⟩
    rw [larger, Array.size_push]
    exact Nat.succ_le_succ room

/-- Every slot belongs to an id. -/
theorem LaidOutUnlocked.slot?_ofNat (laid : region.LaidOutUnlocked) {index : Nat}
    (inside : index < region.table.slots.size) :
    region.table.slot? ⟨UInt32.ofNat index⟩ = region.table.slots[index]? := by
  have most : maxSegmentId.toNat = 16777215 := rfl
  have few := laid.few
  rw [SegmentTable.slot?, SegmentId.index, UInt32.toNat_ofNat', Nat.mod_eq_of_lt (by omega)]

/-- A new region has one segment that is live, and has counted nothing. -/
theorem create_fresh {config : RegionConfig} (created : create machine config = .ok (.ok region)) :
    region.table.live = 1 ∧ region.tally = {} := by
  rcases create_eq created with ⟨_, _, _, _, _, _, _, registered, rfl⟩
  exact ⟨(SegmentTable.register_ok registered).2.2.2, rfl⟩

/-- Where only the clock moves and segments are retired, a region stays laid out. -/
theorem LaidOutUnlocked.of_steady (laid : before.LaidOutUnlocked) (steady : after.Steady before) :
    after.LaidOutUnlocked := by
  refine laid.of_same (congrArg RegionConfig.align steady.config) (by rw [steady.memory])
    steady.registered steady.slots ?_
  rw [steady.memory]
  exact laid.unlocked

theorem Keeps.trans {middle : Region} (later : after.Keeps middle) (earlier : middle.Keeps before) :
    after.Keeps before where
  align := later.align.trans earlier.align
  registered := fun id segment found => later.registered _ _ (earlier.registered id segment found)
  layout := fun segment layout found => later.layout _ _ (earlier.layout segment layout found)

section Adding

variable {size : UInt64} {segment : Segment} {id : SegmentId} {table : SegmentTable}
  (laid : before.LaidOutUnlocked)
  (created : Segment.create machine size before.config.align = .ok (.ok segment))
  (registered : before.table.register machine before.memory.segments.size size = .ok (id, table))

include laid created registered

/-- A segment that is added leaves a region laid out. -/
theorem LaidOutUnlocked.add (checked : Layout.checkSize size before.config.align = .ok (.ok ())) :
    ({ before with memory := (before.memory.add segment).2, table } : Region).LaidOutUnlocked where
  valid := laid.valid.add checked created registered
  unlocked := by
    intro place cell found
    simp only [Memory.cell?_add] at found
    split at found
    next => exact ((Segment.create_ok created).2.2 _ cell found).2.2
    next => exact laid.unlocked place cell found
  few := by
    rcases SegmentTable.register_ok registered with ⟨_, room, larger, _⟩
    rw [larger, Array.size_push]
    exact Nat.succ_le_succ room

theorem LaidOutUnlocked.add_keeps :
    ({ before with memory := (before.memory.add segment).2, table } : Region).Keeps before := by
  have extended := (laid.valid.add_extends created registered).keeps
  exact ⟨extended.align, extended.registered, extended.layout⟩

end Adding

/-- An operation leaves a region laid out. -/
theorem Effect.laid (effect : before.Effect machine transaction operation after moved result)
    (laid : before.LaidOutUnlocked) : after.LaidOutUnlocked := by
  cases effect with
  | alloc active writable checked created registered => exact laid.add created registered checked
  | unlogged active writable checked created registered =>
      exact (laid.add created registered checked).of_steady (steady_unlogged _ _ _ _)
  | failed | read | write | free => exact laid

theorem Effect.keeps (effect : before.Effect machine transaction operation after moved result)
    (laid : before.LaidOutUnlocked) : after.Keeps before := by
  cases effect with
  | alloc active writable checked created registered => exact laid.add_keeps created registered
  | unlogged active writable checked created registered =>
      exact (steady_unlogged _ _ _ _).toExtends.keeps.trans (laid.add_keeps created registered)
  | failed | read | write | free => exact .refl _

/-- A commit leaves a region laid out. -/
theorem Settlement.laid {answer : Except Failure Version}
    (settled : before.Settlement transaction after answer) (laid : before.LaidOutUnlocked) :
    after.LaidOutUnlocked := by
  cases settled with
  | quiet =>
      exact laid.of_same rfl rfl (fun _ => by simp) (SegmentTable.size_retireAll _ _ _)
        laid.unlocked
  | published publishes =>
      refine laid.of_same rfl publishes.layout (fun _ => by simp)
        (SegmentTable.size_retireAll _ _ _) ?_
      intro place cell found
      simp only [publishes.cells] at found
      split at found
      next =>
        rcases Option.map_eq_some_iff.mp found with ⟨_, _, rfl⟩
        rfl
      next => exact laid.unlocked place cell found
  | failed =>
      exact laid.of_same rfl rfl (fun _ => by simp) (SegmentTable.size_retireAll _ _ _)
        laid.unlocked

theorem Settlement.keeps {answer : Except Failure Version}
    (settled : before.Settlement transaction after answer) : after.Keeps before := by
  cases settled with
  | quiet | failed => exact ⟨rfl, fun _ _ found => by simpa using found, fun _ _ found => found⟩
  | published publishes =>
      refine ⟨rfl, fun _ _ found => by simpa using found, ?_⟩
      intro segment layout found
      rw [publishes.layout]
      exact found

/-- A region that is laid out is valid if no word is ahead of its clock. -/
theorem LaidOutUnlocked.valid_of_dated (laid : region.LaidOutUnlocked)
    (dated : ∀ place cell, region.memory.cell? place = some cell →
      cell.version ≤ region.coordinator.clock) : region.Valid where
  align_pos := laid.align_pos
  layout := laid.valid.layout
  dated := dated
  registered := laid.valid.registered
  slots := laid.valid.slots

end Region

theorem Transaction.Logged.keep {before after : Region} {deeds : List Deed}
    {transaction : Transaction} (logged : transaction.Logged before deeds)
    (kept : after.Keeps before) : transaction.Logged after deeds where
  written := by
    rw [kept.align]
    exact logged.written
  read := by
    rw [kept.align]
    exact logged.read
  named := fun entry member => (logged.named entry member).keep kept

/-- What a transaction keeps to.  Once it is doomed its log matters no more. -/
structure Transaction.LogValid (digest : Digest) (region : Region) (transaction : Transaction) :
    Prop where
  sound : transaction.log.writes.Sound digest
  quiet : transaction.status = .active → transaction.mode.isReadOnly = true →
    transaction.log.writes.entries = #[] ∧ transaction.log.freed = #[]
  named : transaction.status = .active →
    ∀ entry ∈ transaction.log.reads.toList, region.Names entry.address entry.place
  placed : transaction.status = .active →
    ∀ entry ∈ transaction.log.writes.entries.toList, WriteEntry.Placed region entry

namespace Transaction.LogValid

variable {digest : Digest} {machine now : Machine digest} {region before after : Region}
  {transaction moved : Transaction} {operation : Operation} {result : Except Failure Reply}

theorem keep (kept : transaction.LogValid digest before) (keeps : after.Keeps before) :
    transaction.LogValid digest after where
  sound := kept.sound
  quiet := kept.quiet
  named := fun active entry member => (kept.named active entry member).keep keeps
  placed := fun active entry member => (kept.placed active entry member).keep keeps

/-- A transaction that begins keeps to everything. -/
theorem begin {mode : AccessMode}
    (begun : before.begin machine mode = .ok (after, .ok transaction)) :
    transaction.LogValid digest after := by
  rcases (Region.begin_eq begun).2.2.2 transaction rfl with ⟨filter, rfl⟩
  constructor
  · exact WriteSet.sound_empty digest filter
  · exact fun _ _ => ⟨rfl, rfl⟩
  · intro _ entry impossible
    cases impossible
  · intro _ entry impossible
    cases impossible

/-- The words that a transaction means to write exist. -/
theorem names (kept : transaction.LogValid digest region) (laid : region.LaidOutUnlocked)
    (active : transaction.status = .active) :
    ∀ entry ∈ transaction.log.writes.entries.toList,
      region.late.Names entry.address entry.place :=
  fun entry member => .of_placed (kept.placed active entry member).late laid.valid

/-- The log of an active transaction is grounded. -/
theorem grounded (kept : transaction.LogValid digest region) (laid : region.LaidOutUnlocked)
    (active : transaction.status = .active) : transaction.Grounded region.memory where
  reads := fun entry member => (kept.named active entry member).late.cell laid.valid
  writes := fun entry member => (kept.names laid active entry member).cell laid.valid
  apart := by
    apply kept.sound.distinct.imp_of_mem
    intro left right leftMember rightMember differ same
    have also := kept.names laid active right rightMember
    exact differ (((kept.names laid active left leftMember).eq_iff laid.valid also).mpr same)
  same := fun read readMember entry member =>
    (kept.named active read readMember).late.eq_iff laid.valid
      (kept.names laid active entry member)

/-- The words of a buffered value are as long as any. -/
theorem whole (kept : transaction.LogValid digest region) (active : transaction.status = .active) :
    ∀ entry ∈ transaction.log.writes.entries.toList,
      entry.value.length = region.config.align.toNat := by
  intro entry member
  rcases kept.placed active entry member with ⟨_, _, _, _, _, _, _, _, whole⟩
  exact whole

/-- A read keeps to everything. -/
theorem read {source : Address} {length : UInt64} {segment : Handle} {word count : Nat}
    {bytes : Bytes} (kept : transaction.LogValid digest region) (laid : region.LaidOutUnlocked)
    (active : transaction.status = .active)
    (located : region.Located source length.toNat segment word count)
    (words : region.readWords machine transaction source ⟨segment, word⟩ [] count =
      .ok (moved, .ok bytes)) : moved.LogValid digest region := by
  have alike := Region.readWords_alike words
  have rooted := words
  rw [located.address_eq] at rooted
  have recorded := Region.readWords_recorded kept.sound
    (fun readOnly => (kept.quiet active readOnly).1) rooted
  constructor
  · exact alike.writes.sound kept.sound
  · intro _
    rw [alike.mode, alike.writes.entries, alike.freed]
    exact kept.quiet active
  · intro _ entry member
    rw [recorded] at member
    rcases List.mem_append.mp member with old | new
    · exact kept.named active entry old
    · split at new
      next => cases new
      next =>
        rcases List.mem_map.mp new with ⟨position, within, rfl⟩
        exact (Region.Names.of_located located.late laid.valid
          (List.mem_range'_1.mp within).2).of_late
  · intro _
    rw [alike.writes.entries]
    exact kept.placed active

/-- An operation keeps to everything. -/
theorem perform (kept : transaction.LogValid digest before) (laid : before.LaidOutUnlocked)
    (effect : before.Effect machine transaction operation after moved result) :
    moved.LogValid digest after := by
  have keeps := effect.keeps laid
  cases effect with
  | failed id allocated freed writes status =>
      rcases status with rfl | inactive
      · exact kept
      · have ended : moved.status ≠ .active := by
          intro active
          simp [Transaction.isActive, active] at inactive
        exact ⟨writes.sound, fun active => absurd active ended,
          fun active => absurd active ended, fun active => absurd active ended⟩
  | unlogged => exact kept.keep keeps
  | read active located words => exact kept.read laid active located words
  | @write value target segment word count writes active writable located sound entries =>
      constructor
      · exact sound
      · intro _ readOnly
        exact absurd (writable.symm.trans readOnly) Bool.false_ne_true
      · exact kept.named
      · intro _
        change ∀ entry ∈ writes.entries.toList, _
        rw [entries]
        exact located.placed_assignWords laid (kept.placed active) (Nat.le_refl count)
  | alloc active writable checked created registered =>
      have known := kept.keep keeps
      refine ⟨known.sound, ?_, known.named, known.placed⟩
      intro _ readOnly
      exact absurd (writable.symm.trans readOnly) Bool.false_ne_true
  | free active writable live =>
      refine ⟨by simpa using kept.sound, ?_, ?_, ?_⟩
      · intro _ readOnly
        exact absurd (writable.symm.trans readOnly) Bool.false_ne_true
      · simpa using kept.named
      · simpa using kept.placed

end Transaction.LogValid

namespace Session

/-- What a session keeps to. -/
structure LogsValid (digest : Digest) (session : Session) : Prop where
  laid : session.region.LaidOutUnlocked
  transactions : ∀ id transaction, session.find? id = some transaction →
    transaction.LogValid digest session.region

variable {digest : Digest} {machine now : Machine digest} {config : RegionConfig}
  {session after : Session}
  {actions : List Action} {answers : List Answer} {action : Action} {answer : Answer}

theorem LogsValid.sound (kept : session.LogsValid digest) :
    ∀ id transaction, session.find? id = some transaction →
      transaction.log.writes.Sound digest :=
  fun id transaction found => (kept.transactions id transaction found).sound

namespace Move

/-- A step leaves the region laid out, and what was there stays. -/
theorem laid_keeps (move : session.Move now action after answer)
    (laid : session.region.LaidOutUnlocked) :
    after.region.LaidOutUnlocked ∧ after.region.Keeps session.region := by
  have steady : ∀ region : Region, region.Steady session.region →
      region.LaidOutUnlocked ∧ region.Keeps session.region :=
    fun region steady => ⟨laid.of_steady steady, steady.toExtends.keeps⟩
  cases move with
  | began begun => exact steady _ (Region.begin_eq begun).1
  | refused refused => exact steady _ (Region.begin_eq refused).1
  | unknown => exact ⟨laid, .refl _⟩
  | performed found effect => exact ⟨effect.laid laid, effect.keeps laid⟩
  | committed found settled => exact ⟨settled.laid laid, settled.keeps⟩
  | dropped asked found =>
      rw [Region.abandon_eq]
      exact steady _ (Region.steady_retire _ _ _ _ (UInt64.le_refl _))

/-- Every step keeps to everything. -/
theorem kept (move : session.Move now action after answer) (kept : session.LogsValid digest) :
    after.LogsValid digest where
  laid := (move.laid_keeps kept.laid).1
  transactions := by
    intro id transaction found
    rcases move.of_find? found with
      ⟨mode, _, _, begun⟩ | ⟨operation, result, old, _, _, present, effect⟩ | ⟨present, _⟩
    · exact .begin begun
    · exact (kept.transactions id old present).perform kept.laid effect
    · exact (kept.transactions id transaction present).keep (move.laid_keeps kept.laid).2

end Move

/-- A new region keeps to everything. -/
theorem kept_ofRegion {region : Region}
    (created : Region.create machine config = .ok (.ok region)) :
    (ofRegion region).LogsValid digest where
  laid := Region.create_laid created
  transactions := by
    intro id transaction found
    cases found

/-- Every session that a history leads to keeps to everything. -/
theorem Reached.kept (reached : Reached machine config actions answers session) :
    session.LogsValid digest := by
  apply reached.induction (motive := fun _ _ session => session.LogsValid digest)
  · intro region created
    exact kept_ofRegion created
  · intro actions answers session action answer after first short move kept
    exact move.kept kept

end Session

end WordStm
