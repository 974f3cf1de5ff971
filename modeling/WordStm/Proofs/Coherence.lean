import WordStm.Proofs.Sizing
import WordStm.Proofs.Traces

/-!
# Logs and the segments they speak of

An entry of a log keeps an address, a segment and a word.  Commits rely on these being
the same word, although a later write to the address replaces the value only and the
segment may have been retired meanwhile.  They are the same in the log of every
transaction that has not ended, whatever it and the others did, and even after an
operation of it failed half way.
-/

namespace WordStm

namespace TransactionLog

variable {log : TransactionLog} {id : SegmentId}

/-- Freeing a segment again adds nothing. -/
theorem nodup_withFree (once : log.freed.toList.Nodup) :
    (log.withFree id).freed.toList.Nodup := by
  rw [withFree]
  split
  next => exact once
  next unknown =>
    rw [Array.contains_iff_mem, ← Array.mem_toList_iff] at unknown
    rw [Array.toList_push, ← List.concat_eq_append]
    exact once.concat unknown

/-- An id that was not allocated before is new to the log. -/
theorem nodup_withAlloc (once : log.allocated.toList.Nodup) (fresh : id ∉ log.allocated) :
    (log.withAlloc id).allocated.toList.Nodup := by
  rw [← Array.mem_toList_iff] at fresh
  rw [withAlloc, Array.toList_push, ← List.concat_eq_append]
  exact once.concat fresh

end TransactionLog

namespace Transaction

variable {digest : Digest} {machine : Machine digest} {memory : Memory}
  {transaction after : Transaction}
  {address : Address} {place : Place} {buffer : Bytes} {result : Except Failure Bytes}

@[simp] theorem mode_doom (transaction : Transaction) (failure : Failure) :
    (transaction.doom failure).mode = transaction.mode := by
  unfold doom markAborted
  split
  · split <;> rfl
  · rfl

@[simp] theorem mode_doomOn {α : Type} (transaction : Transaction) (result : Except Failure α) :
    (transaction.doomOn result).mode = transaction.mode := by
  cases result <;> simp [doomOn]

@[simp] theorem log_doomOn {α : Type} (transaction : Transaction) (result : Except Failure α) :
    (transaction.doomOn result).log = transaction.log := by
  cases result <;> simp [doomOn]

/-- A transaction that only reads keeps no account of the words it reads. -/
theorem eq_of_readWord (readOnly : transaction.mode.isReadOnly = true)
    (read : transaction.readWord machine memory address place buffer = .ok (after, result)) :
    after = transaction := by
  rw [readWord, if_pos readOnly] at read
  simp only [bind_eq_ok, pure_eq_ok, Prod.mk.injEq] at read
  rcases read with ⟨_, _, same, _⟩
  exact same.symm

/-- At most the word that was asked for is remembered, whether it could be read or not. -/
theorem reads_of_readWord
    (read : transaction.readWord machine memory address place buffer = .ok (after, result)) :
    after.log.reads = transaction.log.reads ∨
      after.log.reads = transaction.log.reads.push ⟨address, place⟩ := by
  cases readOnly : transaction.mode.isReadOnly with
  | true =>
      rw [eq_of_readWord readOnly read]
      exact .inl rfl
  | false =>
      rw [readWord, if_neg (by simp [readOnly])] at read
      simp only [bind_eq_ok] at read
      rcases read with ⟨sampled, _, read⟩
      cases sampled with
      | error reason =>
          cases read
          exact .inl rfl
      | ok word =>
          simp only at read
          split at read
          next =>
            cases read
            exact .inl rfl
          next recorded =>
            cases read
            rw [TransactionLog.eq_of_recordRead recorded]
            exact .inr rfl

end Transaction

namespace Region

variable {digest : Digest} {machine : Machine digest} {region before after : Region}
  {transaction moved : Transaction}
  {operation : Operation} {result : Except Failure Reply} {id : SegmentId} {segment : Handle}

theorem eq_of_readWords {address : Address} {place : Place} {done : List Bytes} {count : Nat}
    {result : Except Failure Bytes} (readOnly : transaction.mode.isReadOnly = true)
    (read : region.readWords machine transaction address place done count = .ok (moved, result)) :
    moved = transaction := by
  induction count generalizing address place done with
  | zero =>
      cases read
      rfl
  | succ count ih =>
      simp only [readWords, bind_eq_ok, Prod.exists] at read
      rcases read with ⟨middle, word, one, rest⟩
      have same := Transaction.eq_of_readWord readOnly one
      subst same
      cases word with
      | error failure =>
          simp only [pure_eq_ok, Prod.mk.injEq] at rest
          exact rest.1.symm
      | ok word => exact ih rest

/-- Only words that were asked for are remembered, even if not all of them could be read. -/
theorem mem_reads_of_readWords {word count : Nat} {done : List Bytes}
    {result : Except Failure Bytes} {entry : ReadEntry}
    (read : region.readWords machine transaction (.ofWord region.config.align.toNat id word)
      ⟨segment, word⟩ done count = .ok (moved, result))
    (member : entry ∈ moved.log.reads.toList) :
    entry ∈ transaction.log.reads.toList ∨ ∃ position < word + count,
      entry = ⟨.ofWord region.config.align.toNat id position, ⟨segment, position⟩⟩ := by
  induction count generalizing transaction word done with
  | zero =>
      cases read
      exact .inl member
  | succ count ih =>
      simp only [readWords, bind_eq_ok, Prod.exists] at read
      rcases read with ⟨middle, value, one, rest⟩
      have first : entry ∈ middle.log.reads.toList → entry ∈ transaction.log.reads.toList ∨
          ∃ position < word + (count + 1),
            entry = ⟨.ofWord region.config.align.toNat id position, ⟨segment, position⟩⟩ := by
        intro here
        rcases Transaction.reads_of_readWord one with same | more
        · exact .inl (same ▸ here)
        · rw [more, Array.toList_push, List.mem_append, List.mem_singleton] at here
          exact here.imp_right fun new => ⟨word, by omega, new⟩
      cases value with
      | error failure =>
          simp only [pure_eq_ok, Prod.mk.injEq] at rest
          exact first (rest.1 ▸ member)
      | ok value =>
          simp only [Address.offsetBy_ofWord] at rest
          rcases ih rest with here | ⟨position, below, new⟩
          · exact first here
          · exact .inr ⟨position, by omega, new⟩

/-- A new transaction has an empty log. -/
theorem blank_of_begin {mode : AccessMode}
    (begun : before.begin machine mode = .ok (after, .ok transaction)) :
    transaction.log.Blank := by
  have empty : ∀ bits hashes filter,
      AddressFilter.create machine bits hashes = .ok (.ok filter) →
        (TransactionLog.empty filter).Blank := by
    intro bits hashes filter created
    rw [AddressFilter.create] at created
    split at created
    next =>
      rw [Except.ok.injEq, bind_eq_ok] at created
      rcases created with ⟨_, _, same⟩
      cases same
      exact ⟨rfl, rfl, fun _ member => Array.eq_of_mem_replicate member, rfl, rfl⟩
    next => cases created
  rw [begin_eq_map] at begun
  cases made : before.filterFor machine mode with
  | error fault =>
      rw [made] at begun
      cases begun
  | ok made' =>
      rw [made] at begun
      cases made' with
      | error failure => cases begun
      | ok filter =>
          cases begun
          cases mode with
          | readOnly | readWrite => exact empty _ _ filter made

/-- What an operation leaves of the way a transaction was begun and of what it read. -/
structure Remembers (region : Region) (moved transaction : Transaction) : Prop where
  mode : moved.mode = transaction.mode
  silent : transaction.mode.isReadOnly = true → moved.log = transaction.log
  reads : ∀ entry ∈ moved.log.reads.toList,
    entry ∈ transaction.log.reads.toList ∨ region.Names entry.address entry.place

theorem Remembers.of_same (mode : moved.mode = transaction.mode)
    (log : moved.log = transaction.log) : region.Remembers moved transaction :=
  ⟨mode, fun _ => log, fun _ member => .inl (log ▸ member)⟩

/-- A transaction that may write can log anything but words that do not exist. -/
theorem Remembers.of_writable (mode : moved.mode = transaction.mode)
    (writable : transaction.mode.isReadOnly = false)
    (reads : ∀ entry ∈ moved.log.reads.toList,
      entry ∈ transaction.log.reads.toList ∨ region.Names entry.address entry.place) :
    region.Remembers moved transaction :=
  ⟨mode, fun readOnly => absurd (writable.symm.trans readOnly) Bool.false_ne_true, reads⟩

theorem tryRead_remembers {source : Address} {length : UInt64} {result : Except Failure Bytes}
    (laid : region.LaidOutUnlocked)
    (read : region.tryRead machine transaction source length = .ok (moved, result)) :
    region.Remembers moved transaction := by
  rw [tryRead] at read
  split at read
  next =>
    cases read
    exact .of_same rfl rfl
  next =>
    simp only [bind_eq_ok] at read
    rcases read with ⟨place, located, read⟩
    cases place with
    | error failure =>
        cases read
        exact .of_same rfl rfl
    | ok place =>
        have words := locate_ok located
        cases readOnly : transaction.mode.isReadOnly with
        | true =>
            rw [eq_of_readWords readOnly read]
            exact .of_same rfl rfl
        | false =>
            have alike := readWords_alike read
            refine .of_writable alike.mode readOnly ?_
            intro entry member
            rw [words.address_eq] at read
            rcases mem_reads_of_readWords read member with old | ⟨position, below, rfl⟩
            · exact .inl old
            · exact .inr (Names.of_located words.late laid.valid below).of_late

/-- Every operation, failed ones included, remembers words that exist only. -/
theorem perform_remembers (laid : region.LaidOutUnlocked) (sized : operation.Sized)
    (sound : transaction.log.writes.Sound digest)
    (performed : region.perform machine transaction operation = .ok (after, moved, result)) :
    region.Remembers moved transaction := by
  cases operation with
  | read source length =>
      simp only [perform, read, bind_eq_ok, pure_eq_ok, Prod.exists, Prod.mk.injEq] at performed
      rcases performed with ⟨_, _, ⟨middle, answer, tried, rfl, rfl⟩, rfl, rfl, rfl⟩
      have remembers := tryRead_remembers laid tried
      exact ⟨by simpa using remembers.mode, by simpa using remembers.silent,
        by simpa using remembers.reads⟩
  | write value target =>
      simp only [perform, write, bind_eq_ok, pure_eq_ok, Prod.exists, Prod.mk.injEq] at performed
      rcases performed with ⟨_, _, ⟨middle, answer, tried, rfl, rfl⟩, rfl, rfl, rfl⟩
      rcases tryWrite_ok sized sound tried with ⟨_, rfl⟩ |
        ⟨_, writable, _, _, _, writes, _, rfl, _⟩
      · exact .of_same (by simp) (by simp)
      · exact .of_writable (by simp [Transaction.withWrites]) writable
          (fun _ member => .inl (by simpa [Transaction.withWrites] using member))
  | alloc size =>
      simp only [perform, alloc, bind_eq_ok, Prod.exists] at performed
      rcases performed with ⟨_, _, _, ⟨_, middle, answer, tried, allocated⟩, performed⟩
      cases performed
      rcases tryAlloc_ok tried with ⟨⟨failure, rfl, _⟩, rfl, rfl⟩ |
        ⟨_, writable, _, _, _, _, _, _, ⟨rfl, rfl, rfl⟩ | ⟨failure, full, rfl, rfl, rfl⟩⟩
      · simp only at allocated
        split at allocated
        next =>
          cases allocated
          exact .of_same rfl rfl
        next =>
          cases allocated
          exact .of_same (by simp) (by simp)
      · cases allocated
        exact .of_writable rfl writable fun _ member => .inl member
      · have memory := TransactionLog.isOutOfMemory_of_recordAlloc full
        simp only [memory, if_true, pure_eq_ok, Prod.mk.injEq] at allocated
        rcases allocated with ⟨rfl, rfl, rfl⟩
        exact .of_same rfl rfl
  | free target =>
      simp only [perform, free, pure_eq_ok, Prod.mk.injEq] at performed
      rcases performed with ⟨rfl, rfl, rfl⟩
      cases tried : region.tryFree machine transaction target with
      | mk middle answer =>
          rcases tryFree_ok tried with ⟨_, rfl⟩ | ⟨_, writable, _, rfl, rfl⟩
          · exact .of_same (by simp) (by simp)
          · exact .of_writable (by simp) writable
              (fun _ member => .inl (by simpa using member))

end Region

/-- Values that a failed write recorded before the room ran out are placed as well. -/
theorem Region.Leaves.placed {digest : Digest} {region : Region} {operation : Operation}
    {before after : WriteSet} (leaves : region.Leaves digest operation before after)
    (laid : region.LaidOutUnlocked)
    (placed : ∀ entry ∈ before.entries.toList, WriteEntry.Placed region entry) :
    ∀ entry ∈ after.entries.toList, WriteEntry.Placed region entry := by
  rcases leaves.entries with same | ⟨value, target, segment, word, count, fewer, _, located, less,
    partly⟩
  · rw [same]
    exact placed
  · rw [partly]
    exact located.placed_assignWords laid placed (Nat.le_of_lt less)

/-- What a transaction that has not ended keeps to, doomed or not. -/
structure Transaction.Filed (region : Region) (transaction : Transaction) : Prop where
  named : ∀ entry ∈ transaction.log.reads.toList, region.Names entry.address entry.place
  placed : ∀ entry ∈ transaction.log.writes.entries.toList, WriteEntry.Placed region entry
  blank : transaction.mode.isReadOnly = true → transaction.log.Blank
  known : ∀ id, id ∈ transaction.log.allocated ∨ id ∈ transaction.log.freed →
    ∃ segment, region.table.registered? id = some segment
  allocated : transaction.log.allocated.toList.Nodup
  freed : transaction.log.freed.toList.Nodup

namespace Transaction.Filed

variable {digest : Digest} {machine : Machine digest} {before after : Region}
  {transaction moved : Transaction} {operation : Operation} {result : Except Failure Reply}

theorem begin {mode : AccessMode}
    (begun : before.begin machine mode = .ok (after, .ok transaction)) :
    transaction.Filed after := by
  rcases (Region.begin_eq begun).2.2.2 transaction rfl with ⟨filter, rfl⟩
  constructor
  · intro entry impossible
    cases impossible
  · intro entry impossible
    cases impossible
  · intro _
    exact Region.blank_of_begin begun
  · intro id impossible
    simp [TransactionLog.empty] at impossible
  · exact List.nodup_nil
  · exact List.nodup_nil

/-- Steps of others change nothing. -/
theorem keep (filed : transaction.Filed before) (keeps : after.Keeps before) :
    transaction.Filed after where
  named := fun entry member => (filed.named entry member).keep keeps
  placed := fun entry member => (filed.placed entry member).keep keeps
  blank := filed.blank
  known := fun id listed => (filed.known id listed).imp fun segment => keeps.registered id segment
  allocated := filed.allocated
  freed := filed.freed

/-- Only what was read has changed. -/
theorem of_reads (filed : transaction.Filed before)
    (named : ∀ entry ∈ moved.log.reads.toList, before.Names entry.address entry.place)
    (blank : moved.mode.isReadOnly = true → moved.log.Blank)
    (entries : moved.log.writes.entries = transaction.log.writes.entries)
    (allocated : moved.log.allocated = transaction.log.allocated)
    (freed : moved.log.freed = transaction.log.freed) : moved.Filed before where
  named := named
  placed := by
    rw [entries]
    exact filed.placed
  blank := blank
  known := by
    rw [allocated, freed]
    exact filed.known
  allocated := by
    rw [allocated]
    exact filed.allocated
  freed := by
    rw [freed]
    exact filed.freed

/-- An operation keeps to everything, whether it fails or not. -/
theorem perform (filed : transaction.Filed before) (laid : before.LaidOutUnlocked)
    (sized : operation.Sized) (sound : transaction.log.writes.Sound digest)
    (performed : before.perform machine transaction operation = .ok (after, moved, result)) :
    moved.Filed after := by
  have remembers := Region.perform_remembers laid sized sound performed
  have effect := Region.perform_effect sized sound performed
  have keeps := effect.keeps laid
  have kept := filed.keep keeps
  have named : ∀ entry ∈ moved.log.reads.toList, after.Names entry.address entry.place := by
    intro entry member
    rcases remembers.reads entry member with old | new
    · exact kept.named entry old
    · exact new.keep keeps
  have blank : moved.mode.isReadOnly = true → moved.log.Blank := by
    intro readOnly
    rw [remembers.mode] at readOnly
    rw [remembers.silent readOnly]
    exact filed.blank readOnly
  cases effect with
  | @failed _ _ _ _ allocated freed writes =>
      refine ⟨named, ?_, blank, ?_, ?_, ?_⟩
      · exact writes.placed laid filed.placed
      · rw [allocated, freed]
        exact filed.known
      · rw [allocated]
        exact filed.allocated
      · rw [freed]
        exact filed.freed
  | read _ _ words =>
      have alike := Region.readWords_alike words
      exact filed.of_reads named blank alike.writes.entries alike.allocated alike.freed
  | @write _ target segment word count writes _ _ located _ entries =>
      refine ⟨named, ?_, blank, filed.known, filed.allocated, filed.freed⟩
      change ∀ entry ∈ writes.entries.toList, _
      rw [entries]
      exact located.placed_assignWords laid filed.placed (Nat.le_refl count)
  | @alloc size _ id table _ _ _ _ registered =>
      refine ⟨named, kept.placed, blank, ?_, ?_, kept.freed⟩
      · intro other listed
        change other ∈ (transaction.log.withAlloc id).allocated ∨ other ∈ transaction.log.freed
          at listed
        rw [TransactionLog.mem_withAlloc, or_right_comm] at listed
        rcases listed with old | rfl
        · exact kept.known other old
        · exact ⟨_, (SegmentTable.registered?_register registered id).trans (if_pos rfl)⟩
      · apply TransactionLog.nodup_withAlloc filed.allocated
        intro again
        rcases filed.known id (.inl again) with ⟨segment, already⟩
        have absent := laid.valid.unregistered registered
        cases absent.symm.trans already
  | unlogged => exact kept
  | @free target segment _ _ live =>
      refine ⟨named, by simpa using filed.placed, blank, ?_, by simpa using filed.allocated,
        TransactionLog.nodup_withFree filed.freed⟩
      intro other listed
      rw [TransactionLog.allocated_withFree, TransactionLog.mem_withFree, ← or_assoc] at listed
      rcases listed with old | rfl
      · exact filed.known other old
      · exact ⟨segment, SegmentTable.registered?_of_live live⟩

end Transaction.Filed

/-- An entry is placed if it is of a word that exists, and its value is as long as a word. -/
theorem WriteEntry.Placed.names {region : Region} {entry : WriteEntry}
    (placed : Placed region entry) (laid : region.LaidOutUnlocked) :
    region.Names entry.address entry.place ∧ entry.value.length = region.config.align.toNat := by
  refine ⟨(Region.Names.of_placed placed.late laid.valid).of_late, ?_⟩
  rcases placed with ⟨_, _, _, _, _, _, _, _, whole⟩
  exact whole

/-- Every entry of a log is of the word of its address, in the segment that was registered
under its id, and no word is written twice, no segment freed twice. -/
structure Transaction.Coherent (region : Region) (transaction : Transaction) : Prop where
  read : ∀ entry ∈ transaction.log.reads.toList, region.Names entry.address entry.place
  written : ∀ entry ∈ transaction.log.writes.entries.toList,
    region.Names entry.address entry.place ∧ entry.value.length = region.config.align.toNat
  addresses : transaction.log.writes.entries.toList.Pairwise (·.address ≠ ·.address)
  places : transaction.log.writes.entries.toList.Pairwise (·.place ≠ ·.place)
  freed : transaction.log.freed.toList.Nodup
  kept : .sentinel ∉ transaction.log.freed ∧ .first ∉ transaction.log.freed
  allocated : transaction.log.allocated.toList.Nodup
  blank : transaction.mode.isReadOnly = true → transaction.log.Blank

namespace Region

variable {digest : Digest} {machine : Machine digest} {config : RegionConfig}
  {region before after : Region}
  {transaction : Transaction} {lives next : List Life} {deeds : List Deed}

theorem Turn.filed (turn : before.Turn machine lives after next)
    (tended : before.LogsValid digest lives)
    (filed : ∀ transaction deeds, ⟨.running transaction, deeds⟩ ∈ lives →
      transaction.Filed before) :
    ∀ transaction deeds, ⟨.running transaction, deeds⟩ ∈ next → transaction.Filed after := by
  intro transaction deeds running
  rcases turn.running_cases running with ⟨_, mode, begun⟩ |
    ⟨old, past, operation, result, known, sized, performed, _⟩ | there
  · exact .begin begun
  · have sound := (tended.kept _ _ known).sound
    exact (filed _ _ known).perform tended.laid sized sound performed
  · exact (filed _ _ there).keep (turn.laid_keeps tended).2

theorem ReachedWith.filed (lived : ReachedWith digest config region lives) :
    ∀ transaction deeds, ⟨.running transaction, deeds⟩ ∈ lives → transaction.Filed region := by
  induction lived with
  | created =>
      intro transaction deeds impossible
      cases impossible
  | turned lived turn filed => exact turn.filed lived.tended filed

/-- No two transactions allocated the same segment, whether they have ended or not. -/
theorem Accounts.allocated_apart (accounts : region.Accounts digest lives) :
    lives.Pairwise fun left right => ∀ id, left.deeds.any (·.allocates id) = true →
      ¬ right.deeds.any (·.allocates id) = true := by
  rw [List.pairwise_iff_forall_sublist]
  intro left right both id allocates
  rcases both.exists_perm_append with ⟨rest, same⟩
  exact (accounts.perm same).apart List.mem_cons_self allocates

/-- The log of a transaction that has not ended is coherent, whatever this and other transactions
did.  That of one that only reads is empty.  No two of them have allocated the same segment. -/
theorem ReachedWith.logs_coherent (lived : ReachedWith digest config region lives) :
    (∀ transaction deeds, ⟨.running transaction, deeds⟩ ∈ lives →
      transaction.Coherent region) ∧
    (lives.filterMap Life.transaction?).Pairwise fun left right =>
      ∀ id ∈ left.log.allocated, id ∉ right.log.allocated := by
  have laid := lived.tended.laid
  have accounts := lived.accounts
  constructor
  · intro transaction deeds running
    have filed := lived.filed _ _ running
    have logs := accounts.logged _ _ running
    have written := fun entry member => (filed.placed entry member).names laid
    refine ⟨filed.named, written, logs.sound.distinct, ?_, filed.freed, ⟨?_, ?_⟩,
      filed.allocated, filed.blank⟩
    · apply logs.sound.distinct.imp_of_mem
      intro left right leftMember rightMember differ same
      have names := (written left leftMember).1.late
      exact differ ((names.eq_iff laid.valid (written right rightMember).1.late).mpr same)
    · intro listed
      rcases filed.known _ (.inr listed) with ⟨segment, registered⟩
      cases ((laid.valid.registered _ _).mp registered).1
    · intro listed
      exact (accounts.freed _ running _ ((logs.freed _).mp listed)).1 rfl
  · rw [List.pairwise_filterMap]
    apply accounts.allocated_apart.imp_of_mem
    rintro ⟨leftStage, leftDeeds⟩ ⟨rightStage, rightDeeds⟩ leftLiving rightLiving apart left known
      right also id allocated again
    cases leftStage with
    | running =>
        cases known
        cases rightStage with
        | running =>
            cases also
            have first := ((accounts.logged _ _ leftLiving).allocated id).mp allocated
            exact apart id first (((accounts.logged _ _ rightLiving).allocated id).mp again)
        | committed | aborted => cases also
    | committed | aborted => cases known

end Region

namespace Session

/-- Transaction 2 writes words twice, frees segment 2 twice and allocates segment 3.  Transaction 3
allocates segment 4 and writes to segment 2, which transaction 4 then frees, so that a read of
transaction 3 fails.  Transaction 5 only reads. -/
def entangled : List Action :=
  [.begin .readWrite, .perform ⟨1⟩ (.alloc 16), .commit ⟨1⟩, .begin .readWrite,
    .perform ⟨2⟩ (.write (List.replicate 16 1) ⟨.first, 0⟩),
    .perform ⟨2⟩ (.write (List.replicate 16 2) ⟨.first, 8⟩), .perform ⟨2⟩ (.read ⟨⟨2⟩, 0⟩ 16),
    .perform ⟨2⟩ (.free ⟨⟨2⟩, 0⟩), .perform ⟨2⟩ (.free ⟨⟨2⟩, 0⟩), .perform ⟨2⟩ (.alloc 8),
    .begin .readWrite, .perform ⟨3⟩ (.alloc 8),
    .perform ⟨3⟩ (.write (List.replicate 8 3) ⟨⟨2⟩, 8⟩), .begin .readWrite,
    .perform ⟨4⟩ (.free ⟨⟨2⟩, 0⟩), .commit ⟨4⟩, .perform ⟨3⟩ (.read ⟨⟨2⟩, 0⟩ 16),
    .begin .readOnly, .perform ⟨5⟩ (.read ⟨.first, 0⟩ 24)]

def entangledAnswers : List Answer :=
  [.began (.ok ⟨1⟩), .performed (.ok (.address ⟨⟨2⟩, 0⟩)), .committed (.ok 0), .began (.ok ⟨2⟩),
    .performed (.ok .done), .performed (.ok .done),
    .performed (.ok (.bytes (List.replicate 16 0))), .performed (.ok .done),
    .performed (.ok .done), .performed (.ok (.address ⟨⟨3⟩, 0⟩)), .began (.ok ⟨3⟩),
    .performed (.ok (.address ⟨⟨4⟩, 0⟩)), .performed (.ok .done), .began (.ok ⟨4⟩),
    .performed (.ok .done), .committed (.ok 1),
    .performed (.error (.aborted (.segmentRetired ⟨2⟩ 1 0))), .began (.ok ⟨5⟩),
    .performed (.ok (.bytes (List.replicate 24 0)))]

/-- The entry of the doomed transaction still names a word of the retired segment. -/
theorem logs_coherent_entangled : ∃ session lives second third fifth,
    Reached (.limited 1000) threeWords entangled entangledAnswers session ∧
    Region.ReachedWith .ofAddress threeWords session.region lives ∧ session.Lists lives ∧
    session.find? ⟨2⟩ = some second ∧ session.find? ⟨3⟩ = some third ∧
    session.find? ⟨5⟩ = some fifth ∧ third.isDoomed = true ∧
    session.region.table.slot? ⟨2⟩ = some (.retired 1 1) ∧
    session.region.Names ⟨⟨2⟩, 8⟩ ⟨1, 1⟩ ∧ second.Coherent session.region ∧ fifth.log.Blank ∧
    ∀ id ∈ second.log.allocated, id ∉ third.log.allocated := by
  have computed : seenAfter (fun session => (session.region.table.slot? ⟨2⟩,
      (session.find? ⟨2⟩).map (·.id),
      (session.find? ⟨3⟩).map fun transaction => (transaction.id, transaction.isDoomed,
        transaction.log.writes.entries.toList.map fun entry => (entry.address, entry.place)),
      (session.find? ⟨5⟩).map (·.mode))) (.limited 1000) threeWords entangled =
      some ((some (.retired 1 1), some ⟨2⟩, some (⟨3⟩, true, [(⟨⟨2⟩, 8⟩, ⟨1, 1⟩)]),
        some .readOnly), entangledAnswers) := by cbv
  have sized : ∀ action ∈ entangled, action.Sized := by
    simp [entangled, Action.Sized, Operation.Sized]
  rcases Reached.of_seenAfter computed (by decide) sized with ⟨session, reached, seen⟩
  simp only [Prod.mk.injEq, Option.map_eq_some_iff] at seen
  rcases seen with ⟨retired, ⟨second, foundSecond, idSecond⟩,
    ⟨third, foundThird, idThird, doomed, entries⟩, fifth, foundFifth, mode⟩
  rcases reached.reachedWith with ⟨lives, lived, listed⟩
  rcases lived.logs_coherent with ⟨coherent, apart⟩
  rcases listed.running foundSecond with ⟨_, runningSecond⟩
  rcases listed.running foundThird with ⟨_, runningThird⟩
  rcases listed.running foundFifth with ⟨_, runningFifth⟩
  refine ⟨session, lives, second, third, fifth, reached, lived, listed, foundSecond, foundThird,
    foundFifth, doomed, retired, ?_, coherent _ _ runningSecond, ?_, ?_⟩
  · have member : (⟨⟨2⟩, 8⟩, ⟨1, 1⟩) ∈ third.log.writes.entries.toList.map
        fun entry => (entry.address, entry.place) := by
      rw [entries]
      exact List.mem_singleton_self _
    rcases List.mem_map.mp member with ⟨entry, written, same⟩
    have names := ((coherent _ _ runningThird).written entry written).1
    rw [Prod.mk.injEq] at same
    rwa [same.1, same.2] at names
  · apply (coherent _ _ runningFifth).blank
    rw [mode]
    rfl
  · have different : second ≠ third := by
      rintro rfl
      cases idSecond.symm.trans idThird
    have symmetric : Std.Symm fun left right : Transaction =>
        ∀ id ∈ left.log.allocated, id ∉ right.log.allocated :=
      ⟨fun _ _ disjoint id here there => disjoint id there here⟩
    have present : ∀ transaction deeds, ⟨.running transaction, deeds⟩ ∈ lives →
        transaction ∈ lives.filterMap Life.transaction? :=
      fun _ _ running => List.mem_filterMap.mpr ⟨_, running, rfl⟩
    exact apart.forall (present _ _ runningSecond) (present _ _ runningThird) different

end Session

end WordStm
