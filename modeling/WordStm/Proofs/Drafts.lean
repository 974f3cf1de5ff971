import WordStm.Proofs.Buffering
import WordStm.Proofs.Serial

/-!
# What a draft says about a transaction

The draft of an open transaction knows which segments it freed and allocated.
While the transaction is active, the draft starts from the memory as of the
snapshot, every read of it agrees with that, and its write set reflects its
writes.  Each operation that succeeds adds one deed and keeps all of this; steps
of other transactions do not touch it.
-/

namespace WordStm

namespace TransactionLog

variable (log : TransactionLog) (id other : SegmentId)

theorem mem_withAlloc :
    other ∈ (log.withAlloc id).allocated ↔ other ∈ log.allocated ∨ id = other := by
  rw [withAlloc, Array.mem_push, eq_comm]

theorem mem_withFree :
    other ∈ (log.withFree id).freed ↔ other ∈ log.freed ∨ id = other := by
  rw [withFree]
  split
  next known =>
    constructor
    · exact .inl
    · rintro (old | rfl)
      · exact old
      · simpa using known
  next => rw [Array.mem_push, eq_comm]

@[simp] theorem allocated_withFree : (log.withFree id).allocated = log.allocated := by
  rw [withFree]
  split <;> rfl

@[simp] theorem writes_withFree : (log.withFree id).writes = log.writes := by
  rw [withFree]
  split <;> rfl

@[simp] theorem reads_withFree : (log.withFree id).reads = log.reads := by
  rw [withFree]
  split <;> rfl

/-- With a segment to retire, a log is not read-only. -/
@[simp] theorem isReadOnly_withFree : (log.withFree id).isReadOnly = false := by
  have member := (log.mem_withFree id id).mpr (.inr rfl)
  have filled : (log.withFree id).freed.isEmpty = false := by
    cases empty : (log.withFree id).freed.isEmpty with
    | false => rfl
    | true =>
        simp [Array.isEmpty_iff.mp empty] at member
  rw [isReadOnly, filled, Bool.and_false]

end TransactionLog

namespace Transaction

/-- A transaction that is active has done what its draft says. -/
structure Current (region : Region) (records : List Record) (draft : Draft)
    (transaction : Transaction) : Prop where
  snapshot : transaction.snapshot ≤ region.coordinator.clock
  start : draft.start = Record.upTo records transaction.snapshot
  shows : region.Shows transaction.snapshot draft.start
  agrees : draft.start.Agrees draft.deeds
  placed : ∀ entry ∈ transaction.log.writes.entries.toList, WriteEntry.Placed region entry
  reflects : WriteEntry.Reflects region.config.align.toNat transaction.log.writes.entries.toList
    draft.deeds
  /-- Only segments that were given out are written. -/
  rooted : ∀ id, region.table.registered? id = none →
    ∀ image : Image, image.replay draft.deeds id = image id
  /-- Every byte that was read is in a word that is checked at the commit. -/
  covered : transaction.mode.isReadOnly = false → ∀ deed ∈ draft.deeds, ∀ id offset,
    deed.ReadsAt id offset → ∃ segment, region.table.registered? id = some segment ∧
      ∃ entry ∈ transaction.log.reads.toList,
        entry.place = ⟨segment, offset / region.config.align.toNat⟩
  quiet : transaction.mode.isReadOnly = true →
    transaction.log.writes.entries = #[] ∧ transaction.log.freed = #[]
  draws : draft.deeds.any Deed.draws = !transaction.log.isReadOnly

/-- A transaction that is open has a draft. -/
structure Drafted (digest : Digest) (region : Region) (records : List Record) (draft : Draft)
    (transaction : Transaction) : Prop where
  sound : transaction.log.writes.Sound digest
  freed : ∀ id, id ∈ transaction.log.freed ↔ draft.frees id = true
  allocated : ∀ id, id ∈ transaction.log.allocated ↔ draft.allocates id = true
  /-- Only segments that were given out are freed. -/
  known : ∀ id, draft.frees id = true → ∃ segment, region.table.registered? id = some segment
  current : transaction.status = .active → transaction.Current region records draft

variable {digest : Digest} {machine : Machine digest} {before after : Region}
  {records later : List Record} {draft : Draft} {transaction : Transaction}

/-- Whatever happens to the region leaves a draft true, if the past stays as it is. -/
theorem Current.mono (current : transaction.Current before records draft)
    (extended : after.Extends before)
    (past : transaction.snapshot ≤ before.coordinator.clock →
      Record.upTo later transaction.snapshot = Record.upTo records transaction.snapshot) :
    transaction.Current after later draft where
  snapshot := UInt64.le_trans current.snapshot extended.clock
  start := by rw [past current.snapshot, current.start]
  shows := current.shows.mono extended current.snapshot
  agrees := current.agrees
  placed := fun entry member => (current.placed entry member).mono extended
  reflects := by
    rw [extended.config]
    exact current.reflects
  rooted := by
    intro id absent
    apply current.rooted id
    cases known : before.table.registered? id with
    | none => rfl
    | some segment =>
        rw [extended.registered id segment known] at absent
        cases absent
  covered := by
    intro readWrite deed member id offset reads
    rcases current.covered readWrite deed member id offset reads with ⟨segment, known, remembered⟩
    rw [extended.config]
    exact ⟨segment, extended.registered id segment known, remembered⟩
  quiet := current.quiet
  draws := current.draws

/-- A transaction whose commit publishes nothing did nothing that takes a version. -/
theorem Current.not_draws {region : Region} (current : transaction.Current region records draft)
    (idle : transaction.mode.isReadOnly = true ∨ transaction.log.isReadOnly = true) :
    draft.deeds.any Deed.draws = false := by
  rw [current.draws, Bool.not_eq_false']
  rcases idle with readOnly | nothing
  · exact TransactionLog.isReadOnly_iff.mpr (current.quiet readOnly)
  · exact nothing

theorem Drafted.mono (drafted : transaction.Drafted digest before records draft)
    (extended : after.Extends before)
    (past : transaction.snapshot ≤ before.coordinator.clock →
      Record.upTo later transaction.snapshot = Record.upTo records transaction.snapshot) :
    transaction.Drafted digest after later draft where
  sound := drafted.sound
  freed := drafted.freed
  allocated := drafted.allocated
  known := by
    intro id frees
    rcases drafted.known id frees with ⟨segment, registered⟩
    exact ⟨segment, extended.registered id segment registered⟩
  current := fun active => (drafted.current active).mono extended past

/-- A transaction that begins has seen nothing and done nothing. -/
theorem drafted_start {region : Region} {image : Image} {id : TransactionId} {mode : AccessMode}
    {filter : AddressFilter} (start : image = Record.upTo records region.coordinator.clock)
    (shows : region.Shows region.coordinator.clock image) :
    Drafted digest region records ⟨image, []⟩
      { id, mode, snapshot := region.coordinator.clock, status := .active,
        log := .empty filter } where
  sound := WriteSet.sound_empty digest filter
  freed := by simp [TransactionLog.empty]
  allocated := by simp [TransactionLog.empty]
  known := by simp
  current := fun _ => {
    snapshot := UInt64.le_refl _
    start
    shows
    agrees := trivial
    placed := by simp [TransactionLog.empty, WriteSet.empty]
    reflects := WriteEntry.reflects_nil _
    rooted := fun _ _ _ => rfl
    covered := by simp
    quiet := fun _ => ⟨rfl, rfl⟩
    draws := rfl }

section Operations

variable {region : Region} {ended : Transaction}

/-- A read returns what its transaction sees. -/
theorem Current.read_eq (current : transaction.Current region records draft) (valid : region.Valid)
    (sound : transaction.log.writes.Sound digest) {source : Address} {length : UInt64}
    {segment : Handle} {word count : Nat} {bytes : Bytes}
    (located : region.Located source length.toNat segment word count)
    (words : region.readWords machine transaction source ⟨segment, word⟩ [] count =
      .ok (ended, .ok bytes)) :
    bytes = draft.image.slice source.segment source.offset.toNat length.toNat := by
  have registered := SegmentTable.registered?_of_live located.live
  rw [located.address_eq] at words
  rw [located.offset, located.whole]
  apply Region.readWords_ok sound (fun readOnly => (current.quiet readOnly).1) ?_ ?_ words
  · intro position cell found
    rcases valid.word_inside found with ⟨_, _, _, _, length⟩
    exact length
  · intro position cell found fits
    rcases valid.word_inside found with ⟨_, _, inside, spanned, _⟩
    rw [Draft.image, current.reflects _ _ _ (Nat.le_trans inside spanned),
      current.shows.written _ _ _ _ registered found fits]

/-- A deed that is no write is added to a draft. -/
theorem Current.add (current : transaction.Current region records draft) {deed : Deed}
    (idle : ∀ value target, deed.operation ≠ .write value target)
    (holds : deed.Holds draft.image) (snapshot : ended.snapshot = transaction.snapshot)
    (mode : ended.mode = transaction.mode)
    (entries : ended.log.writes.entries = transaction.log.writes.entries)
    (reads : ∀ entry ∈ transaction.log.reads.toList, entry ∈ ended.log.reads.toList)
    (covers : transaction.mode.isReadOnly = false → ∀ id offset, deed.ReadsAt id offset →
      ∃ segment, region.table.registered? id = some segment ∧
        ∃ entry ∈ ended.log.reads.toList,
          entry.place = ⟨segment, offset / region.config.align.toNat⟩)
    (quiet : transaction.mode.isReadOnly = true → ended.log.freed = #[])
    (draws : (!ended.log.isReadOnly) = (!transaction.log.isReadOnly || deed.draws)) :
    ended.Current region records (draft.add deed) where
  snapshot := by
    rw [snapshot]
    exact current.snapshot
  start := by
    rw [snapshot]
    exact current.start
  shows := by
    rw [snapshot]
    exact current.shows
  agrees := Image.agrees_append.mpr ⟨current.agrees, holds, trivial⟩
  placed := by
    rw [entries]
    exact current.placed
  reflects := by
    rw [entries]
    exact current.reflects.of_apply_eq fun image => Deed.apply_of_not_write image idle
  rooted := by
    intro id absent image
    rw [Draft.add, Image.replay_append, Image.replay_cons, Image.replay_nil,
      Deed.apply_of_not_write _ idle]
    exact current.rooted id absent image
  covered := by
    intro readWrite other member id offset readsAt
    rw [mode] at readWrite
    rcases List.mem_append.mp member with old | new
    · rcases current.covered readWrite other old id offset readsAt with
        ⟨segment, known, entry, remembered, place⟩
      exact ⟨segment, known, entry, reads entry remembered, place⟩
    · rw [List.mem_singleton.mp new] at readsAt
      exact covers readWrite id offset readsAt
  quiet := by
    intro readOnly
    rw [mode] at readOnly
    rw [entries]
    exact ⟨(current.quiet readOnly).1, quiet readOnly⟩
  draws := by
    rw [draws, Draft.add, List.any_append, current.draws]
    simp

/-- A write is added to a draft. -/
theorem Current.write (current : transaction.Current region records draft) (valid : region.Valid)
    {value : Bytes} {target : Address} {segment : Handle} {word count : Nat} {writes : WriteSet}
    (writable : transaction.mode.isReadOnly = false)
    (located : region.Located target value.length segment word count)
    (entries : writes.entries.toList =
      WriteEntry.assignWords region.config.align.toNat target.segment segment word value
        transaction.log.writes.entries.toList count) :
    (transaction.withWrites writes).Current region records
      (draft.add ⟨.write value target, .done⟩) := by
  have registered := SegmentTable.registered?_of_live located.live
  rcases located.inside with ⟨align, size, laidOut, inside⟩
  rcases valid.layout segment align size laidOut with ⟨rfl, _, fits⟩
  rw [located.offset, located.whole, ← Nat.add_mul] at inside
  exact {
    snapshot := current.snapshot
    start := current.start
    shows := current.shows
    agrees := Image.agrees_append.mpr ⟨current.agrees, trivial, trivial⟩
    placed := by
      change ∀ entry ∈ writes.entries.toList, WriteEntry.Placed region entry
      rw [entries]
      exact WriteEntry.Placed.assignWords current.placed registered laidOut inside
        (Nat.le_of_eq located.whole.symm)
    reflects := by
      change WriteEntry.Reflects _ writes.entries.toList _
      rw [entries]
      exact current.reflects.assignWords valid.align_pos located.offset located.whole
        (Nat.le_trans inside fits)
    rooted := by
      intro id absent image
      have differ : id ≠ target.segment := by
        rintro rfl
        rw [registered] at absent
        cases absent
      rw [Draft.add, Image.replay_append, Image.replay_cons, Image.replay_nil, Deed.apply_write,
        Image.overlay_of_ne _ differ]
      exact current.rooted id absent image
    covered := by
      intro readWrite other member id offset readsAt
      rcases List.mem_append.mp member with old | new
      · exact current.covered readWrite other old id offset readsAt
      · rw [List.mem_singleton.mp new] at readsAt
        exact readsAt.elim
    quiet := by
      intro readOnly
      exact absurd (writable.symm.trans readOnly) Bool.false_ne_true
    draws := by
      have filled : writes.entries.isEmpty = false := by
        have assigned : writes.entries.toList ≠ [] := by
          rw [entries]
          exact WriteEntry.assignWords_ne_nil (.inr located.positive)
        simpa using assigned
      simp [Draft.add, Deed.draws, Transaction.withWrites, TransactionLog.isReadOnly,
        WriteSet.isEmpty, filled] }

/-- A read is added to a draft. -/
theorem Current.read (current : transaction.Current region records draft) (valid : region.Valid)
    (sound : transaction.log.writes.Sound digest) {source : Address} {length : UInt64}
    {segment : Handle} {word count : Nat} {bytes : Bytes}
    (located : region.Located source length.toNat segment word count)
    (words : region.readWords machine transaction source ⟨segment, word⟩ [] count =
      .ok (ended, .ok bytes)) :
    ended.Current region records (draft.add ⟨.read source length, .bytes bytes⟩) := by
  have alike := Region.readWords_alike words
  have silent := fun readOnly => (current.quiet readOnly).1
  have rooted := words
  rw [located.address_eq] at rooted
  rcases Region.readWords_reads sound silent rooted with ⟨kept, remembered⟩
  apply current.add
  · intro value target impossible
    cases impossible
  · exact congrArg Reply.bytes (current.read_eq valid sound located words)
  · exact alike.snapshot
  · exact alike.mode
  · exact alike.writes.entries
  · exact kept
  · rintro readWrite id offset ⟨rfl, above, below⟩
    refine ⟨segment, SegmentTable.registered?_of_live located.live, ?_⟩
    rw [located.offset] at above
    rw [located.offset, located.whole, ← Nat.add_mul] at below
    apply remembered readWrite
    · exact (Nat.le_div_iff_mul_le valid.align_pos).mpr above
    · exact (Nat.div_lt_iff_lt_mul valid.align_pos).mpr below
  · intro readOnly
    rw [alike.freed]
    exact (current.quiet readOnly).2
  · simp [TransactionLog.isReadOnly, WriteSet.isEmpty, alike.writes.entries, alike.freed,
      Deed.draws]

/-- An operation that succeeds is added to the draft. -/
theorem Drafted.perform {operation : Operation} {reply : Reply}
    (drafted : transaction.Drafted digest before records draft) (valid : before.Valid)
    (effect : before.Effect machine transaction operation after ended (.ok reply)) :
    ended.Drafted digest after records (draft.add ⟨operation, reply⟩) := by
  cases effect with
  | read active located words =>
      have alike := Region.readWords_alike words
      exact {
        sound := alike.writes.sound drafted.sound
        freed := by simp [Deed.frees, alike.freed, drafted.freed]
        allocated := by simp [Deed.allocates, alike.allocated, drafted.allocated]
        known := by simpa [Deed.frees] using drafted.known
        current := fun _ => (drafted.current active).read valid drafted.sound located words }
  | write active writable located sound entries =>
      exact {
        sound
        freed := by simp [Deed.frees, withWrites, drafted.freed]
        allocated := by simp [Deed.allocates, withWrites, drafted.allocated]
        known := by simpa [Deed.frees] using drafted.known
        current := fun _ => (drafted.current active).write valid writable located entries }
  | alloc active writable checked created registered =>
      have extended := valid.add_extends created registered
      have current := (drafted.current active).mono extended (fun _ => rfl)
      exact {
        sound := drafted.sound
        freed := by simp [Deed.frees, TransactionLog.withAlloc, drafted.freed]
        allocated := by
          intro other
          rw [TransactionLog.mem_withAlloc, drafted.allocated]
          simp [Deed.allocates, Address.base]
        known := by simpa [Deed.frees] using (drafted.mono extended fun _ => rfl).known
        current := fun _ => current.add (by simp) trivial rfl rfl rfl (fun _ member => member)
          (fun _ _ _ reads => reads.elim) (fun readOnly => (current.quiet readOnly).2)
          (by simp [Deed.draws, TransactionLog.isReadOnly, TransactionLog.withAlloc]) }
  | free active writable live =>
      have current := drafted.current active
      exact {
        sound := by simpa using drafted.sound
        freed := by
          intro other
          rw [TransactionLog.mem_withFree, drafted.freed]
          simp [Deed.frees]
        allocated := by simp [Deed.allocates, drafted.allocated]
        known := by
          intro other frees
          rw [Draft.frees_add, Bool.or_eq_true] at frees
          rcases frees with old | new
          · exact drafted.known other old
          · rw [← beq_iff_eq.mp new]
            exact ⟨_, SegmentTable.registered?_of_live live⟩
        current := fun _ => current.add (by simp) trivial rfl rfl (by simp) (by simp)
          (fun _ _ _ reads => reads.elim)
          (fun readOnly => absurd (writable.symm.trans readOnly) Bool.false_ne_true)
          (by simp [Deed.draws]) }

/-- An operation that fails leaves the draft as it is. -/
theorem Drafted.failed {operation : Operation} {failure : Failure}
    (drafted : transaction.Drafted digest before records draft) (valid : before.Valid)
    (effect : before.Effect machine transaction operation after ended (.error failure)) :
    ended.Drafted digest after records draft := by
  cases effect with
  | failed id allocated freed writes status =>
      exact {
        sound := writes.sound
        freed := by simpa [freed] using drafted.freed
        allocated := by simpa [allocated] using drafted.allocated
        known := drafted.known
        current := by
          intro active
          rcases status with rfl | inactive
          · exact drafted.current active
          · simp [isActive, active] at inactive }
  | unlogged active writable checked created registered =>
      have extended := valid.add_extends created registered
      exact drafted.mono ((Region.steady_unlogged _ _ _ _).extends extended) fun _ => rfl

/-- At a commit that publishes, what was read agrees with the newest memory: either
nothing was committed since the snapshot, or the words were checked. -/
theorem Current.agrees_now (current : transaction.Current region records draft)
    (valid : region.Valid) {outcome : Coordinator.Outcome}
    (publishes : Coordinator.Publishes region.coordinator region.memory transaction outcome)
    (serial : Record.Serial records region.coordinator.clock)
    (shows : region.Shows region.coordinator.clock (Ledger.imageOf records)) :
    (Ledger.imageOf records).Agrees draft.deeds := by
  rcases publishes.valid with still | checked
  · have start := current.start
    rw [← still, Record.upTo_eq serial.bounded] at start
    rw [← start]
    exact current.agrees
  · apply current.agrees.congr
    intro deed member id offset reads
    rcases current.covered publishes.writable deed member id offset reads with
      ⟨segment, registered, entry, remembered, place⟩
    rcases checked entry remembered with ⟨version, looked, fits⟩
    rw [place] at looked
    rcases Memory.version_eq_ok_iff.mp looked with ⟨cell, found, rfl⟩
    have old := current.shows.written _ _ _ _ registered found fits
    have now := shows.written _ _ _ _ registered found (valid.dated _ _ found)
    apply Image.slice_eq_iff.mp (old.symm.trans now)
    · exact Nat.div_mul_le_self _ _
    · exact Nat.lt_div_mul_add valid.align_pos

end Operations

end Transaction

end WordStm
