import WordStm.Proofs.Lives
import WordStm.Proofs.Lookup

/-!
# Accesses stay inside their segments

An access is checked once, against the bytes of its segment, and from then on goes
by words: those that a read or a write touches one after another, and those that a
commit finds in the log much later.  The check is exact, and it is enough.  No word
lies outside its segment, no offset comes round, and nothing that a transaction does
is ever in want of a result.  A write that passed can still run out of room in its log,
between two words.
-/

namespace WordStm

/-- Assigning words one after another assigns each piece of the value to the word at its
distance. -/
theorem WriteEntry.assignWords_eq_foldl {align : Nat} {id : SegmentId} {segment : Handle}
    {word count : Nat} {value : Bytes} {entries : List WriteEntry} :
    assignWords align id segment word value entries count =
      (List.range count).foldl (fun entries index =>
        assign (.ofWord align id (word + index)) ⟨segment, word + index⟩
          ((value.drop (index * align)).take align) entries) entries := by
  induction count generalizing word value entries with
  | zero => rfl
  | succ count ih =>
      rw [assignWords, ih, List.range_succ_eq_map, List.foldl_cons, List.foldl_map]
      simp only [List.drop_drop, Nat.zero_mul, List.drop_zero, Nat.add_zero]
      congr 1
      funext entries index
      rw [Nat.succ_mul, Nat.add_comm align, Nat.add_assoc, Nat.add_comm 1 index]

namespace Region

variable {digest : Digest} {machine : Machine digest} {config : RegionConfig}
  {region after : Region}
  {transaction moved : Transaction} {snapshot : Version} {address : Address} {length : UInt64}
  {lives : List Life} {deeds : List Deed}

/-- The length and the offset are whole words, and there is one at least. -/
def Whole (region : Region) (address : Address) (length : UInt64) : Prop :=
  0 < length.toNat ∧ region.config.align.toNat ∣ length.toNat ∧
    region.config.align.toNat ∣ address.offset.toNat

/-- The segment is live, and the access ends within it. -/
def Within (region : Region) (address : Address) (length : UInt64) : Prop :=
  ∃ segment align size, region.table.slot? address.segment = some (.live segment) ∧
    region.memory.layout segment = some (align, size) ∧
    address.offset.toNat + length.toNat ≤ size

/-- What an access comes to before it touches a word.  Each check comes after those that the
cases above it are about. -/
inductive Checked (region : Region) (snapshot : Version) (address : Address) (length : UInt64) :
    Except Failure Place → Prop
  | ragged (ragged : ¬region.Whole address length) :
      Checked region snapshot address length
        (.error (.usage (.misaligned address length region.config.align)))
  | unknown (whole : region.Whole address length)
      (absent : region.table.registered? address.segment = none) :
      Checked region snapshot address length (.error (.usage (.unknownSegment address)))
  | freed {segment : Handle} {version : Version} (whole : region.Whole address length)
      (gone : region.table.slot? address.segment = some (.retired segment version))
      (past : version ≤ snapshot) :
      Checked region snapshot address length (.error (.usage (.segmentFreed address.segment)))
  | retired {segment : Handle} {version : Version} (whole : region.Whole address length)
      (gone : region.table.slot? address.segment = some (.retired segment version))
      (later : snapshot < version) :
      Checked region snapshot address length
        (.error (.aborted (.segmentRetired address.segment version snapshot)))
  | outside {segment : Handle} {align size : Nat} (whole : region.Whole address length)
      (live : region.table.slot? address.segment = some (.live segment))
      (laidOut : region.memory.layout segment = some (align, size))
      (outside : size < address.offset.toNat + length.toNat) :
      Checked region snapshot address length
        (.error (.usage (.outOfBounds address length (UInt64.ofNat size))))
  | passed {segment : Handle} {align size : Nat} (whole : region.Whole address length)
      (live : region.table.slot? address.segment = some (.live segment))
      (laidOut : region.memory.layout segment = some (align, size))
      (inside : address.offset.toNat + length.toNat ≤ size) :
      Checked region snapshot address length
        (.ok ⟨segment, address.offset.toNat / region.config.align.toNat⟩)

theorem isAligned_eq_true_iff : isAligned region.config.align address length = .ok true ↔
    region.Whole address length := by
  rw [isAligned_eq_true, Whole, Nat.pos_iff_ne_zero]

/-- Every access comes to something. -/
theorem LaidOutUnlocked.checked (laid : region.LaidOutUnlocked) (snapshot : Version)
    (address : Address)
    (length : UInt64) : ∃ outcome, region.locate snapshot address length = .ok outcome ∧
      region.Checked snapshot address length outcome := by
  -- the cases come in the order of the checks, and each assumes that those before it passed
  refine ⟨_, laid.locate_eq snapshot address length, ?_⟩
  rw [placeOf]
  by_cases whole : region.Whole address length
  · rw [if_pos (isAligned_eq_true_iff.mpr whole)]
    cases known : region.table.registered? address.segment with
    | none =>
        rw [SegmentTable.resolve_unknown known]
        exact .unknown whole known
    | some segment =>
        rcases SegmentTable.slot?_of_registered known with live | ⟨version, gone⟩
        · rw [SegmentTable.resolve_eq_ok_iff.mpr live]
          cases laidOut : region.memory.layout segment with
          | none =>
              have present := ((laid.valid.registered _ _).mp known).2
              exact absurd (Memory.layout_eq_none_iff.mp laidOut) (Nat.not_le_of_lt present)
          | some extent =>
              rcases extent with ⟨align, size⟩
              simp only [bind, Except.bind, laidOut, Option.map_some, Option.getD_some]
              split
              next inside => exact .passed whole live laidOut inside
              next outside => exact .outside whole live laidOut (Nat.lt_of_not_le outside)
        · by_cases later : snapshot < version
          · rw [SegmentTable.resolve_raced gone later]
            exact .retired whole gone later
          · rw [SegmentTable.resolve_dangling gone (UInt64.not_lt.mp later)]
            exact .freed whole gone (UInt64.not_lt.mp later)
  · rw [if_neg fun aligned => whole (isAligned_eq_true_iff.mp aligned)]
    exact .ragged whole

/-- An access passes exactly if it consists of whole words that lie within a live segment. -/
theorem LaidOutUnlocked.passes_iff (laid : region.LaidOutUnlocked) (snapshot : Version)
    (address : Address)
    (length : UInt64) : (∃ place, region.locate snapshot address length = .ok (.ok place)) ↔
      region.Whole address length ∧ region.Within address length := by
  rcases laid.checked snapshot address length with ⟨outcome, located, checked⟩
  rw [located]
  cases checked with
  | ragged ragged => simp [ragged]
  | unknown whole absent =>
      have missing : ¬region.Within address length := by
        rintro ⟨_, _, _, live, _⟩
        rw [SegmentTable.registered?_of_live live] at absent
        cases absent
      simp [missing]
  | freed whole gone | retired whole gone =>
      have missing : ¬region.Within address length := by
        rintro ⟨_, _, _, live, _⟩
        rw [live] at gone
        cases gone
      simp [missing]
  | outside whole live laidOut outside =>
      have missing : ¬region.Within address length := by
        rintro ⟨_, _, _, also, extent, inside⟩
        rw [live] at also
        cases also
        rw [laidOut] at extent
        cases extent
        exact absurd inside (Nat.not_le_of_lt outside)
      simp [missing]
  | passed whole live laidOut inside =>
      exact iff_of_true ⟨_, rfl⟩ ⟨whole, _, _, _, live, laidOut, inside⟩

/-- The address of the word at a distance from the first of an access. -/
def wordAt (region : Region) (address : Address) (index : Nat) : Address :=
  address.offsetBy (UInt64.ofNat (index * region.config.align.toNat))

/-- The part of a value that is for the word at a distance from the first. -/
def chunkAt (region : Region) (value : Bytes) (index : Nat) : Bytes :=
  (value.drop (index * region.config.align.toNat)).take region.config.align.toNat

/-- An access touches a word of its segment, at a distance from its first. -/
structure Touches (region : Region) (address : Address) (place : Place) (index : Nat) : Prop where
  /-- The word has the address that its place gives, and all of it is in the segment. -/
  names : region.Names (region.wordAt address index) ⟨place.segment, place.word + index⟩
  /-- The offset does not come round. -/
  straight : (region.wordAt address index).offset.toNat =
    address.offset.toNat + index * region.config.align.toNat
  held : ∃ segment, region.memory.get place.segment = .ok segment ∧
    segment.align = region.config.align.toNat ∧ place.word + index < segment.wordCount

/-- The words of an access lie one after another. -/
theorem Located.wordAt_eq {count word : Nat} {segment : Handle} {length : Nat}
    (located : region.Located address length segment word count) (index : Nat) :
    region.wordAt address index =
      .ofWord region.config.align.toNat address.segment (word + index) := by
  rw [wordAt, Address.offsetBy, Address.ofWord, Nat.add_mul, UInt64.ofNat_add, ← located.offset,
    UInt64.ofNat_toNat]

/-- An access that is located touches words of its segment. -/
theorem LaidOutUnlocked.touches {length word count index : Nat} {segment : Handle}
    (laid : region.LaidOutUnlocked)
    (located : region.Located address length segment word count) (below : index < count) :
    region.Touches address ⟨segment, word⟩ index := by
  have names : region.Names (.ofWord region.config.align.toNat address.segment (word + index))
      ⟨segment, word + index⟩ :=
    (Names.of_located located.late laid.valid (Nat.add_lt_add_left below word)).of_late
  rw [← located.wordAt_eq] at names
  refine ⟨names, ?_, ?_⟩
  · rw [names.offset, located.offset, Nat.add_mul]
  · rcases names.late.cell laid.valid with ⟨cell, found⟩
    rcases Memory.of_cell? found with ⟨held, present, got, foundCell⟩
    have extent : region.memory.layout segment = some (held.align, held.size) :=
      Memory.layout_of_get got
    refine ⟨held, got, (laid.valid.layout _ _ _ extent).1, ?_⟩
    apply Nat.lt_of_not_le
    intro outside
    rw [held.cell?_eq_none_iff.mpr outside] at foundCell
    cases foundCell

/-- An access that passed consists of pieces as long as a word. -/
theorem Located.length_chunkAt {count word index : Nat} {segment : Handle} {value : Bytes}
    (located : region.Located address value.length segment word count) (below : index < count) :
    (region.chunkAt value index).length = region.config.align.toNat := by
  have room : (index + 1) * region.config.align.toNat ≤ value.length := by
    rw [located.whole]
    exact Nat.mul_le_mul_right _ below
  rw [Nat.succ_mul] at room
  rw [chunkAt, List.length_take, List.length_drop]
  omega

/-- A read that succeeds remembers the words that it touched, unless the transaction only
reads. -/
theorem LaidOutUnlocked.reads_recorded {place : Place} {bytes : Bytes}
    (laid : region.LaidOutUnlocked)
    (kept : transaction.LogValid digest region) (active : transaction.status = .active)
    (located : region.locate transaction.snapshot address length = .ok (.ok place))
    (performed : region.perform machine transaction (.read address length) =
      .ok (after, moved, .ok (.bytes bytes))) :
    moved.log.reads.toList = transaction.log.reads.toList ++
      if transaction.mode.isReadOnly then [] else
        (List.range (length.toNat / region.config.align.toNat)).map fun index =>
          ⟨region.wordAt address index, ⟨place.segment, place.word + index⟩⟩ := by
  have whole := locate_ok located
  rw [whole.perform_read laid.align_pos active machine] at performed
  simp only [bind_eq_ok, pure_eq_ok, Prod.exists, Prod.mk.injEq] at performed
  rcases performed with ⟨last, result, words, _, same, answered⟩
  cases result with
  | error failure => cases answered
  | ok value =>
      rw [whole.address_eq] at words
      have recorded := readWords_recorded kept.sound
        (fun readOnly => (kept.quiet active readOnly).1) words
      have unmoved : last = moved := same
      rw [← unmoved, recorded, List.range'_eq_map_range, List.map_map]
      simp only [whole.wordAt_eq]
      rfl

/-- The entries after the first `count` words of a value were assigned. -/
def buffered (region : Region) (entries : List WriteEntry) (address : Address) (place : Place)
    (value : Bytes) (count : Nat) : List WriteEntry :=
  (List.range count).foldl (fun entries index =>
    WriteEntry.assign (region.wordAt address index) ⟨place.segment, place.word + index⟩
      (region.chunkAt value index) entries) entries

/-- What a write of `count` words buffers. -/
inductive Buffers (machine : Machine digest) (region : Region) (transaction : Transaction)
    (address : Address) (place : Place) (value : Bytes) (count : Nat) :
    Transaction → Except Failure Reply → Prop
  | all {moved : Transaction}
      (entries : moved.log.writes.entries.toList =
        region.buffered transaction.log.writes.entries.toList address place value count) :
      Buffers machine region transaction address place value count moved (.ok .done)
  /-- There is no room for one more entry. -/
  | some {moved : Transaction} {fewer : Nat} (less : fewer < count)
      (entries : moved.log.writes.entries.toList =
        region.buffered transaction.log.writes.entries.toList address place value fewer)
      (full : machine.grants (.entry WriteEntry.bytes moved.log.writes.entries.size) = false) :
      Buffers machine region transaction address place value count moved
        (.error (.outOfMemory (UInt64.ofNat WriteEntry.bytes)))

/-- A write of words that can be located buffers them one by one, as far as there is room. -/
theorem writes_recorded {value : Bytes} {place : Place}
    (kept : transaction.LogValid digest region) (active : transaction.status = .active)
    (writable : transaction.mode.isReadOnly = false) (sized : value.length = length.toNat)
    (located : region.locate transaction.snapshot address length = .ok (.ok place)) :
    ∃ moved result, region.perform machine transaction (.write value address) =
        .ok (region, moved, result) ∧
      region.Buffers machine transaction address place value
        (length.toNat / region.config.align.toNat) moved result := by
  have whole := locate_ok located
  have inRow : ∀ count, WriteEntry.assignWords region.config.align.toNat address.segment
      place.segment place.word value transaction.log.writes.entries.toList count =
        region.buffered transaction.log.writes.entries.toList address place value count := by
    intro count
    rw [WriteEntry.assignWords_eq_foldl, buffered]
    simp only [whole.wordAt_eq]
    rfl
  rcases writeWords_eq kept.sound writable machine region address.segment place.segment place.word
    (length.toNat / region.config.align.toNat) value with ⟨writes, _, entries, words⟩
  rw [← whole.address_eq] at words
  simp only [perform, write, tryWrite, Transaction.ensureActive_eq_ok.mpr active,
    Transaction.ensureWritable_eq_ok.mpr writable, sized, UInt64.ofNat_toNat, located, words, bind,
    Except.bind, pure, Except.pure]
  refine ⟨_, _, rfl, ?_⟩
  cases recorded : (WriteEntry.recordWords machine region.config.align.toNat address.segment
      place.segment place.word value transaction.log.writes.entries.toList
      (length.toNat / region.config.align.toNat)).2 with
  | ok =>
      rw [WriteEntry.recordWords_ok recorded, inRow] at entries
      exact .all entries
  | error failure =>
      rcases WriteEntry.recordWords_error recorded with ⟨rfl, fewer, less, assigned, full⟩
      have denied := Machine.not_grants_of_makeRoom full
      rw [← assigned, ← entries, Array.length_toList] at denied
      rw [assigned, inRow] at entries
      refine .some less ?_ ?_
      · rw [Transaction.doomOn, Transaction.log_doom]
        exact entries
      · rw [Transaction.doomOn, Transaction.log_doom]
        exact denied

/-- What holds of the accesses of an active transaction at an address. -/
structure AccessExact (machine : Machine digest) (region : Region) (transaction : Transaction)
    (address : Address) (length : UInt64) : Prop where
  checked : ∃ outcome, region.locate transaction.snapshot address length = .ok outcome ∧
    region.Checked transaction.snapshot address length outcome
  passes : (∃ place, region.locate transaction.snapshot address length = .ok (.ok place)) ↔
    region.Whole address length ∧ region.Within address length
  /-- A read that does not pass fails for that reason, and so does a write. -/
  refused : ∀ failure, region.locate transaction.snapshot address length = .ok (.error failure) →
    region.perform machine transaction (.read address length) =
        .ok (region, transaction.doom failure, .error failure) ∧
      (transaction.mode.isReadOnly = false → ∀ value, value.length = length.toNat →
        region.perform machine transaction (.write value address) =
          .ok (region, transaction.doom failure, .error failure))
  touched : ∀ place, region.locate transaction.snapshot address length = .ok (.ok place) →
    length.toNat = length.toNat / region.config.align.toNat * region.config.align.toNat ∧
      ∀ index < length.toNat / region.config.align.toNat,
        region.Touches address place index ∧
          ∀ value, value.length = length.toNat →
            (region.chunkAt value index).length = region.config.align.toNat
  /-- These are the words that a read remembers. -/
  read : ∀ place, region.locate transaction.snapshot address length = .ok (.ok place) →
    ∀ after moved bytes, region.perform machine transaction (.read address length) =
      .ok (after, moved, .ok (.bytes bytes)) →
      moved.log.reads.toList = transaction.log.reads.toList ++
        if transaction.mode.isReadOnly then [] else
          (List.range (length.toNat / region.config.align.toNat)).map fun index =>
            ⟨region.wordAt address index, ⟨place.segment, place.word + index⟩⟩
  /-- These are the words that a write buffers. -/
  written : ∀ place, region.locate transaction.snapshot address length = .ok (.ok place) →
    transaction.mode.isReadOnly = false → ∀ value, value.length = length.toNat →
      ∃ moved result, region.perform machine transaction (.write value address) =
          .ok (region, moved, result) ∧
        region.Buffers machine transaction address place value
          (length.toNat / region.config.align.toNat) moved result

theorem LaidOutUnlocked.accessExact (laid : region.LaidOutUnlocked)
    (kept : transaction.LogValid digest region) (active : transaction.status = .active)
    (machine : Machine digest) (address : Address) (length : UInt64) :
    region.AccessExact machine transaction address length where
  checked := laid.checked _ address length
  passes := laid.passes_iff _ address length
  refused := by
    intro failure missed
    have accepted := Transaction.ensureActive_eq_ok.mpr active
    constructor
    · simp only [perform, Region.read, tryRead, accepted, missed, bind, Except.bind, pure,
        Except.pure, Transaction.doomOn, Except.map]
    · intro writable value sized
      have long : UInt64.ofNat value.length = length := by
        rw [sized, UInt64.ofNat_toNat]
      simp only [perform, write, tryWrite, accepted, long, missed,
        Transaction.ensureWritable_eq_ok.mpr writable, bind, Except.bind, pure, Except.pure,
        Transaction.doomOn, Except.map]
  touched := by
    intro place located
    have whole := locate_ok located
    refine ⟨whole.whole, fun index below => ⟨laid.touches whole below, ?_⟩⟩
    intro value sized
    rw [← sized] at whole below
    exact whole.length_chunkAt below
  read := fun place located after moved bytes performed =>
    laid.reads_recorded kept active located performed
  written := fun place located writable value sized =>
    writes_recorded kept active writable sized located

/-- Accesses are checked exactly, in one order, and stay within their segments.  Whatever a
transaction asks for has a result, and so has its commit: every word in its log exists. -/
theorem ReachedWith.access_exact (lived : ReachedWith digest config region lives)
    (running : ⟨.running transaction, deeds⟩ ∈ lives) (active : transaction.status = .active)
    (machine : Machine digest) :
    (∀ address length, region.AccessExact machine transaction address length) ∧
    (∀ entry ∈ transaction.log.reads.toList, region.Names entry.address entry.place ∧
      ∃ cell, region.memory.cell? entry.place = some cell) ∧
    (∀ entry ∈ transaction.log.writes.entries.toList, region.Names entry.address entry.place ∧
      ∃ cell, region.memory.cell? entry.place = some cell ∧
        entry.value.length = cell.bytes.length) ∧
    (∀ operation, ∃ after moved result,
      region.perform machine transaction operation = .ok (after, moved, result)) ∧
    ∃ after ended result, region.commit digest transaction = .ok (after, ended, result) := by
  have laid := lived.tended.laid
  have kept := lived.tended.kept _ _ running
  have grounded := kept.grounded laid active
  refine ⟨laid.accessExact kept active machine, ?_, ?_, laid.perform_total kept machine,
    commit_total laid kept⟩
  · exact fun entry member => ⟨kept.named active entry member, grounded.reads entry member⟩
  · intro entry member
    rcases grounded.writes entry member with ⟨cell, found⟩
    refine ⟨(kept.names laid active entry member).of_late, cell, found, ?_⟩
    rw [kept.whole active entry member, laid.length_eq found]

/-- Transaction 1 wrote the last two of three words. -/
def wroteTail : List Action :=
  [.begin .readWrite, .perform ⟨1⟩ (.write (List.replicate 16 1) ⟨.first, 8⟩)]

/-- An access that would end where offsets come round again is out of bounds, and one that ends
with its segment is not. -/
theorem access_exact_last : ∃ region lives transaction deeds,
    ReachedWith .ofAddress Session.threeWords region lives ∧ ⟨.running transaction, deeds⟩ ∈ lives ∧
    region.perform (.limited 1000) transaction (.read ⟨.first, 0xfffffffffffffff8⟩ 8) =
      .ok (region, transaction.doom
        (.usage (.outOfBounds ⟨.first, 0xfffffffffffffff8⟩ 8 24)),
        .error (.usage (.outOfBounds ⟨.first, 0xfffffffffffffff8⟩ 8 24))) ∧
    region.Whole ⟨.first, 8⟩ 16 ∧ region.Within ⟨.first, 8⟩ 16 ∧
    region.Touches ⟨.first, 8⟩ ⟨0, 1⟩ 1 ∧
    ∃ after ended result, region.commit .ofAddress transaction =
      .ok (after, ended, result) := by
  let view (region : Region) (transaction : Transaction) :=
    (transaction.status, region.config.align,
      region.locate transaction.snapshot ⟨.first, 0xfffffffffffffff8⟩ 8,
      region.locate transaction.snapshot ⟨.first, 8⟩ 16)
  have computed : Session.seenAfter
      (fun session => (session.find? ⟨1⟩).map (view session.region))
      (.limited 1000) Session.threeWords wroteTail =
        some (some (.active, 8,
            .ok (.error (.usage (.outOfBounds ⟨.first, 0xfffffffffffffff8⟩ 8 24))),
            .ok (.ok ⟨0, 1⟩)),
          [.began (.ok ⟨1⟩), .performed (.ok .done)]) := by cbv
  have sized : ∀ action ∈ wroteTail, action.Sized := by
    simp [wroteTail, Action.Sized, Operation.Sized]
  rcases ReachedWith.of_seenAfter computed (by decide) sized with
    ⟨region, lives, transaction, deeds, lived, running, seen⟩
  simp only [view, Prod.mk.injEq] at seen
  rcases seen with ⟨active, align, beyond, last⟩
  rcases lived.access_exact running active (.limited 1000) with ⟨exact, _, _, _, committed⟩
  have outside := exact ⟨.first, 0xfffffffffffffff8⟩ 8
  have inside := exact ⟨.first, 8⟩ 16
  rcases inside.passes.mp ⟨_, last⟩ with ⟨whole, within⟩
  have second : 1 < (16 : UInt64).toNat / region.config.align.toNat := by
    rw [align]
    decide
  exact ⟨region, lives, transaction, deeds, lived, running, (outside.refused _ beyond).1, whole,
    within, ((inside.touched _ last).2 1 second).1, committed⟩

end Region

end WordStm
