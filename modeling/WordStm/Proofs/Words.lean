import WordStm.Proofs.Decision
import WordStm.Proofs.Transactions

/-!
# Words that were read and written

What a transaction did tells which words it read and wrote.  While it is active
its log has just these: an entry for every word that it wrote, and, unless it only
reads, the words that it read in their order.
-/

namespace WordStm

namespace Deed

/-- Whether a deed wrote to the word at an address. -/
def writesTo (align : Nat) (deed : Deed) (address : Address) : Bool :=
  match deed.operation with
  | .write value target =>
      target.segment == address.segment &&
        decide (target.offset.toNat < address.offset.toNat + align) &&
        decide (address.offset.toNat < target.offset.toNat + value.length)
  | .read .. | .alloc _ | .free _ => false

/-- The words that a deed read, in their order. -/
def wordsRead (align : Nat) (deed : Deed) : List Address :=
  match deed.operation with
  | .read source length =>
      (List.range' (source.offset.toNat / align) (length.toNat / align)).map
        (.ofWord align source.segment)
  | .write .. | .alloc _ | .free _ => []

theorem wordsRead_read {align word count : Nat} {source : Address} {length : UInt64}
    (positive : 0 < align) (offset : source.offset.toNat = word * align)
    (whole : length.toNat = count * align) (reply : Reply) :
    wordsRead align ⟨.read source length, reply⟩ =
      (List.range' word count).map (.ofWord align source.segment) := by
  simp only [wordsRead, offset, whole, Nat.mul_div_cancel _ positive]

/-- A write takes a version. -/
theorem draws_of_writesTo {align : Nat} {deed : Deed} {address : Address}
    (writes : deed.writesTo align address = true) : deed.draws = true := by
  rcases deed with ⟨operation, reply⟩
  cases operation with
  | write | free => rfl
  | read | alloc => cases writes

theorem any_draws_of_writesTo {align : Nat} {deeds : List Deed} {address : Address}
    (writes : deeds.any (·.writesTo align address) = true) : deeds.any draws = true := by
  rcases List.any_eq_true.mp writes with ⟨deed, member, writesDeed⟩
  exact List.any_eq_true.mpr ⟨deed, member, draws_of_writesTo writesDeed⟩

/-- A write of whole words is to each of them. -/
theorem writesTo_write {align word count : Nat} {value : Bytes} {target address : Address}
    {reply : Reply} (positive : 0 < align) (offset : target.offset.toNat = word * align)
    (whole : value.length = count * align) (aligned : align ∣ address.offset.toNat) :
    writesTo align ⟨.write value target, reply⟩ address = true ↔
      address.segment = target.segment ∧
        ∃ position, word ≤ position ∧ position < word + count ∧
          address.offset.toNat = position * align := by
  rcases aligned with ⟨position, at_⟩
  rw [Nat.mul_comm] at at_
  simp only [writesTo, offset, whole, at_, Bool.and_eq_true, beq_iff_eq, decide_eq_true_eq,
    ← Nat.succ_mul, ← Nat.add_mul, Nat.mul_lt_mul_right positive,
    Nat.mul_left_inj (Nat.ne_of_gt positive)]
  constructor
  · rintro ⟨⟨same, above⟩, below⟩
    exact ⟨same.symm, position, Nat.le_of_lt_succ above, below, rfl⟩
  · rintro ⟨same, _, above, below, rfl⟩
    exact ⟨⟨same.symm, Nat.lt_succ_of_le above⟩, below⟩

end Deed

/-- Whether a transaction wrote to the word at an address. -/
def Record.writesTo (align : Nat) (record : Record) (address : Address) : Bool :=
  record.deeds.any (·.writesTo align address)

/-- A transaction that wrote took a version of its own. -/
theorem Record.draws_of_writesTo {align : Nat} {record : Record} {address : Address}
    (writes : record.writesTo align address = true) : record.draws = true :=
  Deed.any_draws_of_writesTo writes

/-- The address of a word by its offset. -/
theorem Address.eq_ofWord_iff {align word : Nat} {address : Address} {id : SegmentId}
    (small : word * align < 2 ^ 64) :
    address = .ofWord align id word ↔
      address.segment = id ∧ address.offset.toNat = word * align := by
  constructor
  · rintro rfl
    exact ⟨rfl, UInt64.toNat_ofNat_of_lt' small⟩
  · rintro ⟨rfl, offset⟩
    rw [ofWord, ← offset, UInt64.ofNat_toNat]

/-- What has an entry after words in a row were assigned. -/
theorem WriteEntry.isSome_lookup_assignWords {align : Nat} {id : SegmentId} {segment : Handle}
    {word count : Nat} {value : Bytes} {entries : List WriteEntry} {address : Address}
    (small : (word + count) * align < 2 ^ 64) :
    (lookup (assignWords align id segment word value entries count) address).isSome = true ↔
      (lookup entries address).isSome = true ∨ (address.segment = id ∧
        ∃ position, word ≤ position ∧ position < word + count ∧
          address.offset.toNat = position * align) := by
  induction count generalizing word value entries with
  | zero =>
      constructor
      · exact .inl
      · rintro (found | ⟨_, position, above, below, _⟩)
        · exact found
        · omega
  | succ count ih =>
      have first : word * align < 2 ^ 64 :=
        Nat.lt_of_le_of_lt (Nat.mul_le_mul_right align (Nat.le_add_right _ _)) small
      rw [Nat.add_succ, ← Nat.succ_add] at small
      rw [assignWords, ih small, lookup_assign]
      constructor
      · rintro (here | ⟨same, position, above, below, at_⟩)
        · split at here
          next named =>
            rcases (Address.eq_ofWord_iff first).mp named with ⟨same, at_⟩
            exact .inr ⟨same, word, Nat.le_refl _, by omega, at_⟩
          next => exact .inl here
        · exact .inr ⟨same, position, by omega, by omega, at_⟩
      · rintro (found | ⟨same, position, above, below, at_⟩)
        · left
          split
          next => rfl
          next => exact found
        · rcases Nat.eq_or_lt_of_le above with rfl | later
          · left
            rw [if_pos ((Address.eq_ofWord_iff first).mpr ⟨same, at_⟩)]
            rfl
          · exact .inr ⟨same, position, later, by omega, at_⟩

/-- An address is that of a word that exists. -/
structure Region.Names (region : Region) (address : Address) (place : Place) : Prop where
  registered : region.table.registered? address.segment = some place.segment
  offset : address.offset.toNat = place.word * region.config.align.toNat
  inside : ∃ size, region.memory.layout place.segment = some (region.config.align.toNat, size) ∧
    (place.word + 1) * region.config.align.toNat ≤ size

namespace Region.Names

variable {region before after : Region} {address other : Address} {place second : Place}

theorem mono (names : before.Names address place) (extended : after.Extends before) :
    after.Names address place where
  registered := extended.registered _ _ names.registered
  offset := by
    rw [extended.config]
    exact names.offset
  inside := by
    rcases names.inside with ⟨size, laidOut, fits⟩
    rw [extended.config]
    exact ⟨size, extended.layout _ _ laidOut, fits⟩

theorem aligned (names : region.Names address place) :
    region.config.align.toNat ∣ address.offset.toNat := by
  rw [names.offset]
  exact Nat.dvd_mul_left _ _

theorem address_eq (names : region.Names address place) :
    address = .ofWord region.config.align.toNat address.segment place.word := by
  rw [Address.ofWord, ← names.offset, UInt64.ofNat_toNat]

/-- A word that is named has a cell. -/
theorem cell (names : region.Names address place) (valid : region.Valid) :
    ∃ cell, region.memory.cell? place = some cell := by
  rcases names.inside with ⟨size, laidOut, fits⟩
  apply Option.isSome_iff_exists.mp
  apply Memory.isSome_cell?_iff.mpr
  refine ⟨_, size, laidOut, ?_⟩
  exact (Nat.le_div_iff_mul_le valid.align_pos).mpr fits

/-- Different words have different addresses. -/
theorem eq_iff (names : region.Names address place) (valid : region.Valid)
    (also : region.Names other second) : address = other ↔ place = second := by
  constructor
  · rintro rfl
    have segments := Option.some.inj (names.registered.symm.trans also.registered)
    have words := Nat.eq_of_mul_eq_mul_right valid.align_pos (names.offset.symm.trans also.offset)
    cases place
    cases second
    simp_all
  · rintro rfl
    have left := ((valid.registered _ _).mp names.registered).1
    have right := ((valid.registered _ _).mp also.registered).1
    rw [names.address_eq, also.address_eq, SegmentId.index_inj (left.trans right.symm)]

/-- An access is to words that are named. -/
theorem of_located {length word count position : Nat} {segment : Handle}
    (located : region.Located address length segment word count) (valid : region.Valid)
    (below : position < word + count) :
    region.Names (.ofWord region.config.align.toNat address.segment position)
      ⟨segment, position⟩ := by
  rcases located.inside with ⟨align, size, laidOut, inside⟩
  rcases valid.layout segment align size laidOut with ⟨rfl, _, fits⟩
  rw [located.offset, located.whole, ← Nat.add_mul] at inside
  have limit : maxSegmentSize.toNat = 2 ^ 40 := rfl
  have ends : (position + 1) * region.config.align.toNat ≤ size :=
    Nat.le_trans (Nat.mul_le_mul_right _ below) inside
  have small : position * region.config.align.toNat < 2 ^ 64 := by
    rw [Nat.succ_mul] at ends
    omega
  exact ⟨SegmentTable.registered?_of_live located.live, UInt64.toNat_ofNat_of_lt' small, size,
    laidOut, ends⟩

/-- A write entry is of a word that is named. -/
theorem of_placed {entry : WriteEntry} (placed : WriteEntry.Placed region entry)
    (valid : region.Valid) : region.Names entry.address entry.place := by
  rcases placed with ⟨segment, word, size, registered, place, address, laidOut, inside, _⟩
  rw [place]
  have fits := (valid.layout _ _ _ laidOut).2.2
  have limit : maxSegmentSize.toNat = 2 ^ 40 := rfl
  have small : word * region.config.align.toNat < 2 ^ 64 := by
    rw [Nat.succ_mul] at inside
    omega
  exact ⟨registered, ((Address.eq_ofWord_iff small).mp address).2, size, laidOut, inside⟩

/-- Among placed entries, those of a word are those of its address. -/
theorem find?_place {entries : List WriteEntry} (names : region.Names address place)
    (valid : region.Valid) (placed : ∀ entry ∈ entries, WriteEntry.Placed region entry) :
    entries.find? (·.place == place) = WriteEntry.lookup entries address := by
  rcases names.inside with ⟨size, laidOut, inside⟩
  rw [names.address_eq]
  exact WriteEntry.find?_place valid placed names.registered laidOut
    (Nat.le_trans (Nat.mul_le_mul_right _ (Nat.le_succ _)) inside)

end Region.Names

namespace Transaction

/-- The log of a transaction has the words that it wrote and read. -/
structure Logged (region : Region) (deeds : List Deed) (transaction : Transaction) : Prop where
  written : ∀ address, region.config.align.toNat ∣ address.offset.toNat →
    (WriteEntry.lookup transaction.log.writes.entries.toList address).isSome =
      deeds.any (·.writesTo region.config.align.toNat address)
  read : transaction.mode.isReadOnly = false → transaction.log.reads.toList.map (·.address) =
    deeds.flatMap (·.wordsRead region.config.align.toNat)
  named : ∀ entry ∈ transaction.log.reads.toList, region.Names entry.address entry.place

variable {digest : Digest} {machine : Machine digest} {region before after : Region}
  {deeds : List Deed} {transaction moved : Transaction}

theorem Logged.mono (logged : transaction.Logged before deeds) (extended : after.Extends before) :
    transaction.Logged after deeds where
  written := by
    rw [extended.config]
    exact logged.written
  read := by
    rw [extended.config]
    exact logged.read
  named := fun entry member => (logged.named entry member).mono extended

/-- What neither reads nor writes a word is not in the log. -/
theorem Logged.idle (logged : transaction.Logged region deeds) {deed : Deed}
    (quiet : ∀ align address, deed.writesTo align address = false)
    (unread : ∀ align, deed.wordsRead align = [])
    (mode : moved.mode = transaction.mode) (writes : moved.log.writes = transaction.log.writes)
    (reads : moved.log.reads = transaction.log.reads) :
    moved.Logged region (deeds ++ [deed]) where
  written := by
    intro address aligned
    rw [writes, logged.written address aligned]
    simp [quiet]
  read := by
    rw [mode, reads, List.flatMap_append, List.flatMap_singleton, unread, List.append_nil]
    exact logged.read
  named := by
    rw [reads]
    exact logged.named

/-- A read logs the words that it read. -/
theorem Logged.reads (logged : transaction.Logged region deeds) (valid : region.Valid)
    (sound : transaction.log.writes.Sound digest)
    (quiet : transaction.mode.isReadOnly = true → transaction.log.writes.entries = #[])
    {source : Address} {length : UInt64} {segment : Handle} {word count : Nat} {bytes : Bytes}
    {reply : Reply} (located : region.Located source length.toNat segment word count)
    (words : region.readWords machine transaction source ⟨segment, word⟩ [] count =
      .ok (moved, .ok bytes)) :
    moved.Logged region (deeds ++ [⟨.read source length, reply⟩]) := by
  have rooted := words
  rw [located.address_eq] at rooted
  have alike := Region.readWords_alike words
  have recorded := Region.readWords_recorded sound quiet rooted
  constructor
  · intro address aligned
    rw [alike.writes.entries, logged.written address aligned]
    simp [Deed.writesTo]
  · intro readWrite
    rw [alike.mode] at readWrite
    rw [recorded, List.map_append, logged.read readWrite, readWrite, List.flatMap_append,
      List.flatMap_singleton,
      Deed.wordsRead_read valid.align_pos located.offset located.whole reply,
      if_neg Bool.false_ne_true, List.map_map]
    rfl
  · intro entry member
    rw [recorded] at member
    rcases List.mem_append.mp member with old | new
    · exact logged.named entry old
    · split at new
      next => cases new
      next =>
        rcases List.mem_map.mp new with ⟨position, within, rfl⟩
        exact .of_located located valid (List.mem_range'_1.mp within).2

/-- A write logs the words that it wrote. -/
theorem Logged.writes (logged : transaction.Logged region deeds) (valid : region.Valid)
    {value : Bytes} {target : Address} {segment : Handle} {word count : Nat} {writes : WriteSet}
    {reply : Reply} (located : region.Located target value.length segment word count)
    (entries : writes.entries.toList =
      WriteEntry.assignWords region.config.align.toNat target.segment segment word value
        transaction.log.writes.entries.toList count) :
    (transaction.withWrites writes).Logged region (deeds ++ [⟨.write value target, reply⟩]) where
  written := by
    intro address aligned
    rcases located.inside with ⟨align, size, laidOut, inside⟩
    rcases valid.layout segment align size laidOut with ⟨rfl, _, fits⟩
    rw [located.offset, located.whole, ← Nat.add_mul] at inside
    have limit : maxSegmentSize.toNat = 2 ^ 40 := rfl
    change (WriteEntry.lookup writes.entries.toList address).isSome = _
    rw [entries, Bool.eq_iff_iff, WriteEntry.isSome_lookup_assignWords (by omega), List.any_append,
      Bool.or_eq_true, ← logged.written address aligned, List.any_cons, List.any_nil,
      Bool.or_false, Deed.writesTo_write valid.align_pos located.offset located.whole aligned]
  read := by
    intro readWrite
    rw [List.flatMap_append, List.flatMap_singleton, Deed.wordsRead, List.append_nil]
    exact logged.read readWrite
  named := logged.named

/-- A transaction that begins has read and written nothing. -/
theorem Logged.begin {mode : AccessMode}
    (begun : before.begin machine mode = .ok (after, .ok transaction)) :
    transaction.Logged after [] := by
  rcases (Region.begin_eq begun).2.2.2 transaction rfl with ⟨filter, rfl⟩
  exact ⟨fun _ _ => rfl, fun _ => rfl, by simp [TransactionLog.empty]⟩

/-- What succeeds is logged if it read or wrote words. -/
theorem Logged.succeeded {operation : Operation} {reply : Reply}
    (logged : transaction.status = .active → transaction.Logged before deeds)
    (valid : before.Valid) (sound : transaction.log.writes.Sound digest)
    (quiet : transaction.status = .active → transaction.mode.isReadOnly = true →
      transaction.log.writes.entries = #[])
    (effect : before.Effect machine transaction operation after moved (.ok reply)) :
    moved.Logged after (deeds ++ [⟨operation, reply⟩]) := by
  cases effect with
  | read active located words =>
      exact (logged active).reads valid sound (quiet active) located words
  | write active writable located sound entries =>
      exact (logged active).writes valid located entries
  | alloc active writable checked created registered =>
      apply ((logged active).mono (valid.add_extends created registered)).idle
      · exact fun _ _ => rfl
      · exact fun _ => rfl
      · rfl
      · rfl
      · rfl
  | free active writable live =>
      apply (logged active).idle
      · exact fun _ _ => rfl
      · exact fun _ => rfl
      · rfl
      · simp
      · simp

/-- What fails is not logged, or matters no more. -/
theorem Logged.failed {operation : Operation} {failure : Failure}
    (logged : transaction.status = .active → transaction.Logged before deeds)
    (valid : before.Valid)
    (effect : before.Effect machine transaction operation after moved (.error failure))
    (active : moved.status = .active) : moved.Logged after deeds := by
  cases effect with
  | failed id allocated freed writes status =>
      rcases status with rfl | inactive
      · exact logged active
      · simp [Transaction.isActive, active] at inactive
  | unlogged _ _ _ created registered =>
      have extended := valid.add_extends created registered
      exact (logged active).mono ((Region.steady_unlogged _ _ _ _).extends extended)

/-- The log of an active transaction is known word by word, so nothing but the state before
its commit decides it. -/
theorem Logged.grounded (logged : transaction.Logged region deeds) (valid : region.Valid)
    (sound : transaction.log.writes.Sound digest)
    (placed : ∀ entry ∈ transaction.log.writes.entries.toList, WriteEntry.Placed region entry) :
    transaction.Grounded region.memory where
  reads := fun entry member => (logged.named entry member).cell valid
  writes := fun entry member => (Region.Names.of_placed (placed entry member) valid).cell valid
  apart := by
    apply sound.distinct.imp_of_mem
    intro left right leftMember rightMember differ same
    have leftNames := Region.Names.of_placed (placed left leftMember) valid
    have rightNames := Region.Names.of_placed (placed right rightMember) valid
    exact differ ((leftNames.eq_iff valid rightNames).mpr same)
  same := fun read readMember entry member =>
    (logged.named read readMember).eq_iff valid (.of_placed (placed entry member) valid)

end Transaction

namespace Session.Reached

variable {digest : Digest} {machine : Machine digest} {session : Session} {config : RegionConfig}
  {actions : List Action} {answers : List Answer}

/-- The log of every active transaction has the words that the transaction wrote and read. -/
theorem logged (reached : Reached machine config actions answers session) :
    ∀ id transaction, session.find? id = some transaction → transaction.status = .active →
      transaction.Logged session.region (deedsOf id actions answers) := by
  apply reached.transactions
    (motive := fun region deeds transaction =>
      transaction.status = .active → transaction.Logged region deeds)
  · intro actions answers session now mode region transaction _ begun _
    exact .begin begun
  · intro now before after records draft transaction moved operation reply valid drafted effect
      logged _
    exact .succeeded logged valid drafted.sound
      (fun active readOnly => ((drafted.current active).quiet readOnly).1) effect
  · intro actions answers session now after deeds transaction moved operation failure first effect
      logged
    exact .failed logged first.tracked.2.1.valid effect
  · intro before after deeds transaction valid extended logged active
    exact (logged active).mono extended

end Session.Reached

end WordStm
