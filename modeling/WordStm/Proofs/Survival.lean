import WordStm.Proofs.Conflicts
import WordStm.Proofs.Opacity

/-!
# What becomes of a committed write

A word keeps the bytes that were committed to it until somebody commits others, and
whoever begins can read them as long as the segment is there.  A segment that nobody
freed goes only if the transaction that allocated it does not commit: everybody sees
a new segment at once, so others may have committed writes to it by then, and these
go with it.
-/

namespace WordStm

namespace Image

/-- Deeds that do not write to a word leave it as it is. -/
theorem slice_replay_of_untouched {align : Nat} {address : Address} {deeds : List Deed}
    (untouched : ∀ deed ∈ deeds, deed.writesTo align address = false) (image : Image) :
    (image.replay deeds).slice address.segment address.offset.toNat align =
      image.slice address.segment address.offset.toNat align := by
  induction deeds generalizing image with
  | nil => rfl
  | cons deed rest ih =>
      rw [replay_cons, ih fun other member => untouched other (List.mem_cons_of_mem _ member)]
      have here := untouched deed List.mem_cons_self
      rcases deed with ⟨operation, reply⟩
      cases operation with
      | write value target =>
          apply slice_overlay_of_apart
          simp only [Deed.writesTo, Bool.and_eq_false_iff, beq_eq_false_iff_ne,
            decide_eq_false_iff_not, Nat.not_lt] at here
          rcases here with (other | behind) | before
          · exact .inl (Ne.symm other)
          · exact .inr (.inl behind)
          · exact .inr (.inr before)
      | read | alloc | free => rfl

end Image

namespace Region.Names

variable {region : Region} {address : Address} {place : Place}

/-- A word of a live segment is located. -/
theorem located (names : region.Names address place)
    (live : region.table.slot? address.segment = some (.live place.segment)) :
    region.Located address region.config.align.toNat place.segment place.word 1 where
  live := live
  offset := names.offset
  whole := (Nat.one_mul _).symm
  positive := Nat.one_pos
  inside := by
    rcases names.inside with ⟨size, laidOut, inside⟩
    rw [Nat.succ_mul, ← names.offset] at inside
    exact ⟨_, size, laidOut, inside⟩

theorem fits (names : region.Names address place) (valid : region.Valid) :
    (place.word + 1) * region.config.align.toNat ≤ maxSegmentSize.toNat := by
  rcases names.inside with ⟨size, laidOut, inside⟩
  exact Nat.le_trans inside (valid.layout _ _ _ laidOut).2.2

end Region.Names

namespace Ledger

theorem mem_commits_observeAll {ledger : Ledger} {record : Record}
    (member : record ∈ ledger.commits) (actions : List Action) (answers : List Answer) :
    record ∈ (ledger.observeAll actions answers).commits := by
  induction actions generalizing ledger answers with
  | nil => cases answers <;> exact member
  | cons action rest ih =>
      cases answers with
      | nil => exact member
      | cons answer others => exact ih (mem_commits_observe member action answer) others

end Ledger

namespace Session.Reached

variable {digest : Digest} {machine now : Machine digest} {session after middle : Session}
  {config : RegionConfig} {actions earlier later : List Action}
  {answers before beyond : List Answer} {id : SegmentId} {owner reader : TransactionId}
  {version : Version}

/-- What an open transaction allocated was given out. -/
theorem allocated_registered (reached : Reached machine config actions answers session) :
    ∀ owner transaction, session.find? owner = some transaction → ∀ id,
      (deedsOf owner actions answers).any (·.allocates id) = true →
        ∃ segment, session.region.table.registered? id = some segment := by
  apply reached.transactions (motive := fun region deeds _ => ∀ id : SegmentId,
    deeds.any (·.allocates id) = true → ∃ segment, region.table.registered? id = some segment)
  · intro actions answers session now mode region transaction _ _ id allocates
    cases allocates
  · intro now before after records draft transaction moved operation reply valid _ effect known id
    rw [List.any_append, Bool.or_eq_true]
    rintro (old | new)
    · rcases known id old with ⟨segment, registered⟩
      exact ⟨segment, (effect.grows valid).2.1.registered id segment registered⟩
    · cases effect with
      | alloc active writable checked created registered =>
          rw [List.any_cons, List.any_nil, Bool.or_false] at new
          rw [← beq_iff_eq.mp new]
          exact ⟨_, (SegmentTable.registered?_register registered _).trans (if_pos rfl)⟩
      | read | write | free => cases new
  · intro actions answers session now after deeds transaction moved operation failure first effect
      known
      id allocates
    rcases known id allocates with ⟨segment, registered⟩
    exact ⟨segment, (effect.grows first.tracked.2.1.valid).2.1.registered id segment registered⟩
  · intro before after deeds transaction _ extended known id allocates
    rcases known id allocates with ⟨segment, registered⟩
    exact ⟨segment, extended.registered id segment registered⟩

/-- A transaction does nothing after it committed. -/
theorem deedsOf_committed (paired : before.length = earlier.length)
    (reached : Reached machine config (earlier ++ .commit owner :: later)
      (before ++ .committed (.ok version) :: beyond) session) :
    deedsOf owner (earlier ++ .commit owner :: later)
        (before ++ .committed (.ok version) :: beyond) = deedsOf owner earlier before ∧
      ⟨owner, version, deedsOf owner earlier before⟩ ∈
        committedOf (earlier ++ .commit owner :: later)
          (before ++ .committed (.ok version) :: beyond) := by
  rcases reached.at_step paired with ⟨middle, next, first, _, stepped⟩
  have sized : Action.Sized (.commit owner) := trivial
  have move := step_moves sized first.tracked.2.1.sound stepped
  have member : ⟨owner, version, deedsOf owner earlier before⟩ ∈
      ((Ledger.of earlier before).observe (.commit owner) (.committed (.ok version))).commits :=
    (first.mem_commits_step move).mpr (.inr ⟨rfl, rfl, rfl⟩)
  have kept := Ledger.mem_commits_observeAll member later beyond
  change _ ∈ ((Ledger.of earlier before).observeAll (.commit owner :: later)
    (.committed (.ok version) :: beyond)).commits at kept
  rw [← Ledger.of_append paired] at kept
  exact ⟨(reached.record_deeds _ kept).symm, reached.commits_eq ▸ kept⟩

/-- A commit leaves the words that its transaction wrote as the last writes to them say,
whatever was there before. -/
theorem slice_committed {address : Address} {word : Nat}
    (reached : Reached machine config actions answers session)
    (move : session.Move now (.commit owner) after (.committed (.ok version)))
    (written : (deedsOf owner actions answers).any
      (·.writesTo config.align.toNat address) = true)
    (offset : address.offset.toNat = word * config.align.toNat)
    (fits : (word + 1) * config.align.toNat ≤ maxSegmentSize.toNat) (image other : Image) :
    (image.replay (deedsOf owner actions answers)).slice address.segment address.offset.toNat
        config.align.toNat =
      (other.replay (deedsOf owner actions answers)).slice address.segment address.offset.toNat
        config.align.toNat := by
  rcases move.active_of_committed with ⟨transaction, found, active⟩
  rcases reached.tracked.2.1.drafts owner transaction found with ⟨draft, known, drafted⟩
  have reflects := (drafted.current active).reflects
  have logged := (reached.logged owner transaction found active).written address
    (by rw [reached.config_eq, offset]; exact Nat.dvd_mul_left _ _)
  rw [reached.config_eq] at reflects logged
  rw [reached.draft_deeds owner draft known] at reflects
  rw [written] at logged
  rcases Option.isSome_iff_exists.mp logged with ⟨entry, looked⟩
  have named : address = .ofWord config.align.toNat address.segment word := by
    rw [Address.ofWord, ← offset, UInt64.ofNat_toNat]
  have value : WriteEntry.value? transaction.log.writes.entries.toList
      (.ofWord config.align.toNat address.segment word) = some entry.value := by
    rw [← named, WriteEntry.value?, looked]
    rfl
  rw [offset, reflects image address.segment word fits, reflects other address.segment word fits,
    value]
  rfl

/-- Committed memory has the bytes that were committed to a word last. -/
theorem memory_slice {address : Address} {word : Nat} (paired : before.length = earlier.length)
    (reached : Reached machine config (earlier ++ .commit owner :: later)
      (before ++ .committed (.ok version) :: beyond) session)
    (written : (deedsOf owner earlier before).any
      (·.writesTo config.align.toNat address) = true)
    (untouched : ∀ record ∈ committedIn (earlier ++ .commit owner :: later)
        (before ++ .committed (.ok version) :: beyond) later beyond,
      record.writesTo config.align.toNat address = false)
    (offset : address.offset.toNat = word * config.align.toNat)
    (fits : (word + 1) * config.align.toNat ≤ maxSegmentSize.toNat) :
    (Ledger.of (earlier ++ .commit owner :: later)
        (before ++ .committed (.ok version) :: beyond)).memory.slice address.segment
          address.offset.toNat config.align.toNat =
      (Image.zero.replay (deedsOf owner earlier before)).slice address.segment
        address.offset.toNat config.align.toNat := by
  rcases reached.at_step paired with ⟨middle, next, first, _, stepped⟩
  have sized : Action.Sized (.commit owner) := trivial
  have move := step_moves sized first.tracked.2.1.sound stepped
  have deeds := (reached.deedsOf_committed paired).1
  have since : committedIn (earlier ++ .commit owner :: later)
      (before ++ .committed (.ok version) :: beyond) (.commit owner :: later)
        (.committed (.ok version) :: beyond) =
      ⟨owner, version, deedsOf owner earlier before⟩ ::
        committedIn (earlier ++ .commit owner :: later)
          (before ++ .committed (.ok version) :: beyond) later beyond := by
    rw [← deeds]
    rfl
  rw [reached.memory_eq, committedOf_append paired, Ledger.imageOf_append, since,
    List.flatMap_cons, Image.replay_append]
  refine (Image.slice_replay_of_untouched ?_ _).trans
    (first.slice_committed move written offset fits _ _)
  intro deed member
  rcases List.mem_flatMap.mp member with ⟨record, recorded, inside⟩
  have idle := untouched record recorded
  rw [Record.writesTo, List.any_eq_false] at idle
  exact Bool.eq_false_iff.mpr (idle deed inside)

/-- A transaction that has just begun is active and has read nothing, and no version is newer than
its snapshot. -/
theorem latest_of_began {mode : AccessMode}
    (reached : Reached machine config (actions ++ [.begin mode])
      (answers ++ [.began (.ok reader)]) session) :
    ∃ transaction, session.find? reader = some transaction ∧ transaction.status = .active ∧
      transaction.mode = mode ∧ transaction.log.reads = #[] ∧
      session.region.coordinator.clock = transaction.snapshot := by
  rcases reached.snoc_move with ⟨start, first, move⟩
  cases move with
  | @began _ region transaction begun =>
      rcases Region.begin_eq begun with ⟨_, _, coordinator, fresh⟩
      rcases fresh transaction rfl with ⟨filter, rfl⟩
      refine ⟨_, List.find?_cons_of_pos (beq_self_eq_true _), rfl, rfl, rfl, ?_⟩
      rw [coordinator]

/-- A transaction that begins now reads what committed memory has in a word of a live segment,
if it has room to log the word or need not log it. -/
theorem read_of_live {mode : AccessMode} {address : Address} {place : Place}
    (reached : Reached machine config (actions ++ [.begin mode])
      (answers ++ [.began (.ok reader)]) session)
    (names : session.region.Names address place)
    (live : session.region.table.slot? address.segment = some (.live place.segment))
    (now : Machine digest) :
    ∃ after, session.step now (.perform reader (.read address config.align)) =
      .ok (after, .performed (
        (if mode.isReadOnly then .ok () else now.makeRoom ReadEntry.bytes 0).map fun () =>
          .bytes ((Ledger.of actions answers).memory.slice address.segment
            address.offset.toNat config.align.toNat))) := by
  rcases reached.latest_of_began with ⟨transaction, found, active, rfl, unread, latest⟩
  have paired : answers.length = actions.length := by simpa using reached.tracked.1
  have tracked := reached.tracked.2.1
  have located := names.located live
  rw [reached.config_eq] at located
  have verdict := reached.read_decided found active located now
  have room : transaction.roomToRead now 0 =
      if transaction.mode.isReadOnly then .ok () else now.makeRoom ReadEntry.bytes 0 := by
    rw [Transaction.roomToRead, unread]
    rfl
  rw [Region.hitch?, List.range_one, List.findSome?_singleton,
    reached.hitch?_of_untouched (reached.rested.marks_latest latest) located Nat.one_pos rfl now,
    room] at verdict
  cases enough : (if transaction.mode.isReadOnly then .ok ()
      else now.makeRoom ReadEntry.bytes 0 : Except Failure Unit) with
  | error failure =>
      rw [enough] at verdict
      exact verdict
  | ok =>
      rw [enough] at verdict
      rcases verdict with ⟨after, bytes, read⟩
      rcases tracked.read_eq read with ⟨draft, known, rfl⟩
      rw [Ledger.of_snoc paired, Ledger.observe, Ledger.drafts_enter, if_pos rfl,
        Option.some.injEq] at known
      subst known
      exact ⟨after, read⟩

/-- Bytes that were committed to a word of a live segment stay.  Whoever begins reads them, or
has no room to log the word, as long as no later commit wrote to the word and from that
commit on nobody asked for the segment to be retired: no transaction that freed it committed, and
none that had allocated it ended otherwise. -/
theorem committed_write_survives {mode : AccessMode} {address : Address}
    (paired : before.length = earlier.length)
    (start : Reached machine config earlier before middle)
    (live : middle.region.table.isLive address.segment = true)
    (reached : Reached machine config (earlier ++ .commit owner :: later ++ [.begin mode])
      (before ++ .committed (.ok version) :: beyond ++ [.began (.ok reader)]) session)
    (aligned : config.align.toNat ∣ address.offset.toNat)
    (written : (deedsOf owner earlier before).any
      (·.writesTo config.align.toNat address) = true)
    (untouched : ∀ record ∈ committedIn (earlier ++ .commit owner :: later)
        (before ++ .committed (.ok version) :: beyond) later beyond,
      record.writesTo config.align.toNat address = false)
    (unasked : (Ledger.of earlier before).retirements address.segment
      (.commit owner :: later) (.committed (.ok version) :: beyond) = [])
    (now : Machine digest) :
    ∃ after, session.step now (.perform reader (.read address config.align)) =
      .ok (after, .performed (
        (if mode.isReadOnly then .ok () else now.makeRoom ReadEntry.bytes 0).map fun () =>
          .bytes ((Image.zero.replay (deedsOf owner earlier before)).slice address.segment
            address.offset.toNat config.align.toNat))) := by
  rcases reached.snoc_move with ⟨last, first, move⟩
  rcases SegmentTable.isLive_iff.mp live with ⟨segment, there⟩
  have same := first.tracked.1
  have valid := reached.tracked.2.1.valid
  have recorded := Ledger.mem_commits_observe
    (first.commits_eq ▸ (first.deedsOf_committed paired).2) (.begin mode) (.began (.ok reader))
  rw [← Ledger.of_snoc same] at recorded
  rcases reached.stamped.known _ recorded address (by rwa [reached.config_eq])
    (by rw [reached.config_eq]; exact written) with ⟨place, names⟩
  have still := (start.fate paired there first).untouched unasked
  have table : session.region.table = last.region.table := by
    cases move with
    | began begun => exact (Region.begin_eq begun).2.1
  have slot : session.region.table.slot? address.segment = some (.live place.segment) := by
    have registered := names.registered
    rw [SegmentTable.registered?_eq, table, still] at registered
    rw [table, still, ← Option.some.inj registered]
  have offset := names.offset
  have fits := names.fits valid
  rw [reached.config_eq] at offset fits
  rw [← first.memory_slice paired written untouched offset fits]
  exact reached.read_of_live names slot now

end Session.Reached

namespace Session

/-- Transaction 2 writes a segment that transaction 1 allocated. -/
def borrowing : List Action :=
  [.begin .readWrite, .perform ⟨1⟩ (.alloc 8), .begin .readWrite,
    .perform ⟨2⟩ (.write (List.replicate 8 5) ⟨⟨2⟩, 0⟩)]

def borrowingAnswers : List Answer :=
  [.began (.ok ⟨1⟩), .performed (.ok (.address ⟨⟨2⟩, 0⟩)), .began (.ok ⟨2⟩),
    .performed (.ok .done)]

/-- Transaction 3 overwrites the segment and gives up, and transaction 1 commits. -/
def settling : List Action :=
  [.begin .readWrite, .perform ⟨3⟩ (.write (List.replicate 8 3) ⟨⟨2⟩, 0⟩), .rollback ⟨3⟩,
    .commit ⟨1⟩]

def settlingAnswers : List Answer :=
  [.began (.ok ⟨3⟩), .performed (.ok .done), .ended, .committed (.ok 0)]

theorem committed_write_survives_settling : ∃ session after,
    Reached (.limited 1000) threeWords
      (borrowing ++ Action.commit ⟨2⟩ :: settling ++ [Action.begin .readOnly])
      (borrowingAnswers ++ Answer.committed (.ok 1) :: settlingAnswers ++
        [Answer.began (.ok ⟨4⟩)]) session ∧
    session.step (.limited 1000) (.perform ⟨4⟩ (.read ⟨⟨2⟩, 0⟩ 8)) =
      .ok (after, .performed (.ok (.bytes (List.replicate 8 5)))) := by
  have computed : seenAfter (·.region.coordinator.clock) (.limited 1000) threeWords
      (borrowing ++ Action.commit ⟨2⟩ :: settling ++ [Action.begin .readOnly]) =
      some (1, borrowingAnswers ++ Answer.committed (.ok 1) :: settlingAnswers ++
        [Answer.began (.ok ⟨4⟩)]) := by cbv
  have borrowed : seenAfter (·.region.table.isLive ⟨2⟩) (.limited 1000) threeWords borrowing =
      some (true, borrowingAnswers) := by cbv
  have sized : ∀ action ∈ borrowing ++ Action.commit ⟨2⟩ :: settling ++ [Action.begin .readOnly],
      action.Sized := by
    simp [borrowing, settling, Action.Sized, Operation.Sized]
  rcases Reached.of_seenAfter computed (by decide) sized with ⟨session, reached, _⟩
  rcases Reached.of_seenAfter borrowed (by decide)
    (by simp [borrowing, Action.Sized, Operation.Sized]) with ⟨middle, start, live⟩
  have aligned : threeWords.align.toNat ∣ (⟨⟨2⟩, 0⟩ : Address).offset.toNat := by decide
  rcases Reached.committed_write_survives rfl start live reached aligned (by decide) (by decide)
    (by decide) (.limited 1000) with ⟨after, read⟩
  exact ⟨session, after, reached, read⟩

/-- Transaction 2 commits what it wrote to a segment that transaction 1 allocated, and
transaction 1 gives up. -/
def abandoning : List Action :=
  [.begin .readWrite, .perform ⟨1⟩ (.alloc 8), .begin .readWrite,
    .perform ⟨2⟩ (.write (List.replicate 8 5) ⟨⟨2⟩, 0⟩), .commit ⟨2⟩, .rollback ⟨1⟩,
    .begin .readOnly]

def abandoningAnswers : List Answer :=
  [.began (.ok ⟨1⟩), .performed (.ok (.address ⟨⟨2⟩, 0⟩)), .began (.ok ⟨2⟩),
    .performed (.ok .done), .committed (.ok 1), .ended, .began (.ok ⟨3⟩)]

/-- A word that was committed is lost although nobody else committed anything. -/
theorem abandoned_write_lost : ∃ session after record,
    Reached (.limited 1000) threeWords abandoning abandoningAnswers session ∧
    committedOf abandoning abandoningAnswers = [record] ∧
    record.writesTo 8 ⟨⟨2⟩, 0⟩ = true ∧ record.frees ⟨2⟩ = false ∧
    session.step (.limited 1000) (.perform ⟨3⟩ (.read ⟨⟨2⟩, 0⟩ 8)) =
      .ok (after, .performed (.error (.usage (.segmentFreed ⟨2⟩)))) := by
  have computed : seenAfter (·.region.coordinator.clock) (.limited 1000) threeWords abandoning =
      some (1, abandoningAnswers) := by cbv
  have ended : seenAfter (·.region.coordinator.clock) (.limited 1000) threeWords
      (abandoning ++ [.perform ⟨3⟩ (.read ⟨⟨2⟩, 0⟩ 8)]) =
      some (1, abandoningAnswers ++
        [.performed (.error (.usage (.segmentFreed ⟨2⟩)))]) := by cbv
  have sized : ∀ action ∈ abandoning ++ [.perform ⟨3⟩ (.read ⟨⟨2⟩, 0⟩ 8)], action.Sized := by
    simp [abandoning, Action.Sized, Operation.Sized]
  rcases Reached.of_seenAfter_snoc computed ended (by decide) sized with
    ⟨session, after, reached, read, _⟩
  exact ⟨session, after, _, reached, rfl, by decide, by decide, read⟩

end Session

end WordStm
