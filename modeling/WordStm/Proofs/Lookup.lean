import WordStm.Proofs.Freeing
import WordStm.Proofs.Published

/-!
# What a lookup tells

An access or a free looks its segment up once it has passed the checks that come
first.  A segment that a commit retired is reported as a conflict to whoever
began before that commit, and as a mistake to whoever began after it; an id that
was not handed out is a mistake for all.  A live id leads everybody to the
segment that was registered under it.

An id is handed out by the allocation that registers a segment under it.  If that
allocation then has no room to log the segment its client is not told the id, but
it was handed out all the same, and never again.
-/

namespace WordStm

/-- The address that an operation of an active transaction looks up, if it passes the
checks that come first. -/
def Region.sought? (region : Region) (transaction : Transaction) : Operation → Option Address
  | .read source length =>
      if isAligned region.config.align source length = .ok true then some source else none
  | .write value target =>
      if transaction.mode.isReadOnly = false ∧
          isAligned region.config.align target (UInt64.ofNat value.length) = .ok true
      then some target else none
  | .free target =>
      if transaction.mode.isReadOnly = false ∧ target.segment ≠ .first ∧ target.isBase = true
      then some target else none
  | .alloc _ => none

namespace Region

variable {digest : Digest} {machine : Machine digest} {region : Region} {transaction : Transaction}
  {operation : Operation} {target : Address} {failure : Failure}

/-- An access that is aligned fails like its lookup. -/
theorem locate_missed {snapshot : Version} {length : UInt64}
    (aligned : isAligned region.config.align target length = .ok true)
    (missed : region.table.resolve target snapshot = .error failure) :
    region.locate snapshot target length = .ok (.error failure) := by
  simp only [locate, aligned, missed, bind, Except.bind, if_true, pure, Except.pure]

/-- An operation fails like its lookup, and its transaction is doomed. -/
theorem perform_missed (active : transaction.status = .active)
    (sought : region.sought? transaction operation = some target)
    (missed : region.table.resolve target transaction.snapshot = .error failure) :
    region.perform machine transaction operation =
      .ok (region, transaction.doom failure, .error failure) := by
  have accepted := Transaction.ensureActive_eq_ok.mpr active
  cases operation with
  | read source length =>
      rcases Option.ite_none_right_eq_some.mp sought with ⟨aligned, same⟩
      cases same
      simp only [perform, read, tryRead, accepted, locate_missed aligned missed, bind, Except.bind,
        pure, Except.pure, Transaction.doomOn, Except.map]
  | write value target =>
      rcases Option.ite_none_right_eq_some.mp sought with ⟨⟨writable, aligned⟩, same⟩
      cases same
      simp only [perform, write, tryWrite, accepted,
        Transaction.ensureWritable_eq_ok.mpr writable, locate_missed aligned missed, bind,
        Except.bind, pure, Except.pure, Transaction.doomOn, Except.map]
  | free target =>
      rcases Option.ite_none_right_eq_some.mp sought with ⟨⟨writable, other, base⟩, same⟩
      cases same
      -- the table is asked for the base of the segment, which is the target itself
      have based : Address.base target.segment = target := by
        rw [Address.isBase, beq_iff_eq] at base
        rw [Address.base, ← base]
      simp only [perform, free, tryFree, accepted,
        Transaction.ensureWritable_eq_ok.mpr writable, if_neg other, base, Bool.not_true,
        Bool.false_eq_true, if_false, SegmentTable.get, based, missed, Transaction.doomOn,
        Except.map, pure, Except.pure]
  | alloc size => cases sought

end Region

namespace SegmentTable

variable {table : SegmentTable} {address : Address} {snapshot version : Version}

/-- A segment that was retired after the snapshot is missed for a conflict. -/
theorem resolve_raced {segment : Handle}
    (gone : table.slot? address.segment = some (.retired segment version))
    (later : snapshot < version) :
    table.resolve address snapshot =
      .error (.aborted (.segmentRetired address.segment version snapshot)) := by
  rw [slot?] at gone
  simp only [resolve, gone]
  rw [if_pos later]

/-- A segment that the snapshot never saw is missed for a mistake. -/
theorem resolve_dangling {segment : Handle}
    (gone : table.slot? address.segment = some (.retired segment version))
    (past : version ≤ snapshot) :
    table.resolve address snapshot = .error (.usage (.segmentFreed address.segment)) := by
  rw [slot?] at gone
  simp only [resolve, gone]
  rw [if_neg (UInt64.not_lt.mpr past)]

/-- An id with nothing under it is not known. -/
theorem resolve_unknown (absent : table.registered? address.segment = none) :
    table.resolve address snapshot = .error (.usage (.unknownSegment address)) := by
  rw [registered?_eq, slot?] at absent
  rw [resolve]
  cases found : table.slots[address.segment.index]? with
  | none => rfl
  | some slot =>
      cases slot with
      | vacant => rfl
      | live segment | retired segment version =>
          rw [found] at absent
          cases absent

end SegmentTable

namespace Session

variable {digest : Digest} {machine now : Machine digest} {config : RegionConfig}
  {session after middle : Session} {actions earlier later : List Action}
  {answers before beyond : List Answer} {action : Action} {answer : Answer}
  {owner reader : TransactionId} {transaction : Transaction}
  {operation : Operation} {target : Address} {id : SegmentId} {version : Version}

/-- The step of an operation fails. -/
def Fails (now : Machine digest) (session : Session) (reader : TransactionId)
    (operation : Operation) (failure : Failure) : Prop :=
  ∃ after, session.step now (.perform reader operation) =
    .ok (after, .performed (.error failure))

theorem fails_of_missed {failure : Failure} (found : session.find? reader = some transaction)
    (active : transaction.status = .active)
    (sought : session.region.sought? transaction operation = some target)
    (missed : session.region.table.resolve target transaction.snapshot = .error failure) :
    session.Fails now reader operation failure := by
  refine ⟨{ session with region := session.region }.update (transaction.doom failure), ?_⟩
  simp only [step, found, Region.perform_missed active sought missed, bind, Except.bind, pure,
    Except.pure]

/-- An allocation registered a segment under an id: it answered the address of the segment, or
it had no room to log the segment, which is not live then. -/
structure HandsOut (before after : Session) (answer : Answer) (id : SegmentId)
    (segment : Handle) : Prop where
  fresh : before.region.table.registered? id = none
  next : segment = before.region.memory.segments.size
  registered : after.region.table.registered? id = some segment
  told : answer = .performed (.ok (.address (.base id))) ∨
    (∃ requested, answer = .performed (.error (.outOfMemory requested))) ∧
      after.region.table.isLive id = false

/-- A segment was put under an id: the first one when the region was created, any other by
the step of an allocation. -/
def HandedOut (machine : Machine digest) (config : RegionConfig) (actions : List Action)
    (answers : List Answer) (id : SegmentId) (segment : Handle) : Prop :=
  (id = .first ∧ segment = 0) ∨
    ∃ earlier owner size later before answer beyond middle next,
      actions = earlier ++ .perform owner (.alloc size) :: later ∧
      answers = before ++ answer :: beyond ∧ before.length = earlier.length ∧
      Reached machine config earlier before middle ∧
      Reached machine config (earlier ++ [.perform owner (.alloc size)]) (before ++ [answer]) next ∧
      HandsOut middle next answer id segment

theorem HandedOut.snoc {segment : Handle}
    (given : HandedOut machine config actions answers id segment) (action : Action)
    (answer : Answer) :
    HandedOut machine config (actions ++ [action]) (answers ++ [answer]) id segment := by
  rcases given with first |
    ⟨earlier, owner, size, later, before, told, beyond, middle, next, rfl, rfl, rest⟩
  · exact .inl first
  · exact .inr ⟨earlier, owner, size, later ++ [action], before, told, beyond ++ [answer], middle,
      next, by simp, by simp, rest⟩

/-- A step puts a segment under an id by handing it out. -/
theorem Move.registered?_of {segment : Handle} (valid : session.region.Valid)
    (move : session.Move now action after answer)
    (registered : after.region.table.registered? id = some segment) :
    session.region.table.registered? id = some segment ∨
      ∃ owner size, action = .perform owner (.alloc size) ∧
        HandsOut session after answer id segment := by
  cases move with
  | began begun =>
      rw [(Region.begin_eq begun).2.1] at registered
      exact .inl registered
  | refused refused =>
      rw [(Region.begin_eq refused).2.1] at registered
      exact .inl registered
  | unknown => exact .inl registered
  | performed found effect =>
      cases effect with
      | alloc active writable checked created added =>
          have known := registered
          simp only [update, SegmentTable.registered?_register added] at known
          split at known
          next same =>
            cases known
            subst same
            exact .inr ⟨_, _, rfl, valid.unregistered added, rfl, registered, .inl rfl⟩
          next => exact .inl known
      | @unlogged size made fresh table failure _ _ checked created added full =>
          have known := registered
          simp only [update, SegmentTable.registered?_retire,
            SegmentTable.registered?_register added] at known
          split at known
          next same =>
            cases known
            subst same
            refine .inr ⟨_, _, rfl, valid.unregistered added, rfl, registered, .inr ⟨?_, ?_⟩⟩
            · have memory := TransactionLog.isOutOfMemory_of_recordAlloc full
              cases failure with
              | outOfMemory requested => exact ⟨requested, rfl⟩
              | aborted | invalidLayout | usage | invalidConfig => cases memory
            · rw [Bool.eq_false_iff, ne_eq, SegmentTable.isLive_iff]
              rintro ⟨segment, live⟩
              simp only [update, SegmentTable.slot?_retire_register added, if_pos] at live
              cases live
          next => exact .inl known
      | failed | read | write | free => exact .inl registered
  | committed found settled =>
      cases settled with
      | quiet | published | failed =>
          simp only [close, SegmentTable.registered?_retireAll] at registered
          exact .inl registered
  | dropped asked found =>
      rw [Region.abandon_eq] at registered
      simp only [close, SegmentTable.registered?_retireAll] at registered
      exact .inl registered

namespace Reached

/-- The first segment is registered when the region is created. -/
theorem registered?_first {region : Region}
    (created : Region.create machine config = .ok (.ok region)) {segment : Handle} :
    region.table.registered? id = some segment ↔ id = .first ∧ segment = 0 := by
  rcases Region.create_ok created with ⟨_, _, _, _, table, first, _, slots, added, _, _, _⟩
  have next : first = .first := by
    apply SegmentId.index_inj
    rw [(SegmentTable.register_ok added).1, slots]
    rfl
  have vacant : table.registered? id = none := by
    rw [SegmentTable.registered?_eq, SegmentTable.slot?, slots]
    rcases Nat.eq_zero_or_pos id.index with zero | positive
    · rw [zero]
      rfl
    · rw [Array.getElem?_eq_none positive]
      rfl
  rw [SegmentTable.registered?_register added, next, vacant]
  by_cases here : id = .first <;> simp [here, eq_comm]

/-- Whatever is registered was handed out. -/
theorem handedOut (reached : Reached machine config actions answers session) :
    ∀ id segment, session.region.table.registered? id = some segment →
      HandedOut machine config actions answers id segment := by
  induction actions using List.reverseRecOn generalizing answers session with
  | nil =>
      rcases reached.nil with ⟨region, created, rfl, rfl⟩
      exact fun id segment registered => .inl ((registered?_first created).mp registered)
  | append_singleton earlier action ih =>
      rcases reached.snoc with ⟨middle, before, answer, first, stepped, rfl⟩
      have tracked := first.tracked.2.1
      have move := step_moves (reached.sized action (by simp)) tracked.sound stepped
      intro id segment registered
      rcases move.registered?_of tracked.valid registered with old | ⟨owner, size, rfl, hands⟩
      · exact (ih first id segment old).snoc action answer
      · exact .inr ⟨earlier, owner, size, [], before, answer, [], middle, session, rfl, rfl,
          first.tracked.1, first, reached, hands⟩

/-- What is registered stays registered. -/
theorem registered_since {segment : Handle} (start : Reached machine config earlier before middle)
    (paired : before.length = earlier.length)
    (registered : middle.region.table.registered? id = some segment)
    (reached : Reached machine config (earlier ++ later) (before ++ beyond) session) :
    session.region.table.registered? id = some segment := by
  apply start.induction_from (motive := fun _ _ session =>
    session.region.table.registered? id = some segment) paired registered ?_ reached
  intro later beyond session action answer after _ first move known
  have valid := first.tracked.2.1.valid
  exact (move.extends_region valid first.room).registered id segment known

/-- Just what was handed out is registered. -/
theorem handedOut_iff {segment : Handle}
    (reached : Reached machine config actions answers session) :
    HandedOut machine config actions answers id segment ↔
      session.region.table.registered? id = some segment := by
  refine ⟨?_, reached.handedOut id segment⟩
  rintro (⟨rfl, rfl⟩ |
    ⟨earlier, owner, size, later, before, told, beyond, middle, next, rfl, rfl, paired, _, upTo,
      hands⟩)
  · rcases reached.ran with ⟨region, created, _⟩
    have start : Reached machine config [] [] (ofRegion region) :=
      ⟨⟨region, created, rfl⟩, by decide, by simp⟩
    have registered : (ofRegion region).region.table.registered? .first = some 0 :=
      (registered?_first created).mpr ⟨rfl, rfl⟩
    exact start.registered_since rfl registered reached
  · rw [List.append_cons, List.append_cons before] at reached
    exact upTo.registered_since (by simp [paired]) hands.registered reached

/-- The ids that were handed out are those from the first up to the count of them. -/
theorem exists_handedOut_iff (reached : Reached machine config actions answers session) :
    (∃ segment, HandedOut machine config actions answers id segment) ↔
      0 < id.index ∧ id.index ≤ session.region.table.idsAssigned := by
  have valid := reached.tracked.2.1.valid
  rw [SegmentTable.idsAssigned, valid.slots, Nat.add_sub_cancel]
  constructor
  · rintro ⟨segment, given⟩
    rcases (valid.registered _ _).mp (reached.handedOut_iff.mp given) with ⟨index, inside⟩
    omega
  · rintro ⟨positive, within⟩
    have index : id.index = (id.index - 1) + 1 := by omega
    have inside : id.index - 1 < session.region.memory.segments.size := by omega
    exact ⟨_, reached.handedOut_iff.mpr ((valid.registered _ _).mpr ⟨index, inside⟩)⟩

/-- An id that was not handed out has nothing under it. -/
theorem unregistered (reached : Reached machine config actions answers session)
    (absent : id = .sentinel ∨
      ∀ segment, ¬HandedOut machine config actions answers id segment) :
    session.region.table.registered? id = none := by
  cases registered : session.region.table.registered? id with
  | none => rfl
  | some segment =>
      rcases absent with rfl | never
      · have index := ((reached.tracked.2.1.valid.registered _ _).mp registered).1
        cases index
      · exact absurd (reached.handedOut_iff.mpr registered) (never segment)

/-- Whoever began before a moment has a snapshot up to its clock, and whoever began after
it a snapshot from there on. -/
theorem snapshot_sides (paired : before.length = earlier.length)
    (start : Reached machine config earlier before middle)
    (reached : Reached machine config (earlier ++ later) (before ++ beyond) session) :
    ∀ reader transaction, session.find? reader = some transaction →
      (.began (.ok reader) ∈ before →
        transaction.snapshot ≤ middle.region.coordinator.clock) ∧
      (.began (.ok reader) ∈ beyond →
        middle.region.coordinator.clock ≤ transaction.snapshot) := by
  apply start.induction_from (motive := fun _ beyond session =>
    ∀ reader transaction, session.find? reader = some transaction →
      (.began (.ok reader) ∈ before →
        transaction.snapshot ≤ middle.region.coordinator.clock) ∧
      (.began (.ok reader) ∈ beyond →
        middle.region.coordinator.clock ≤ transaction.snapshot)) paired
  · intro reader transaction found
    refine ⟨fun _ => start.snapshots reader transaction found, ?_⟩
    intro impossible
    cases impossible
  · intro later beyond session action answer after _ first move known reader transaction found
    -- a transaction that was open before the step did not begin with it
    have stays : ∀ {old : Transaction}, session.find? reader = some old →
        Answer.began (.ok reader) ∈ beyond ++ [answer] → .began (.ok reader) ∈ beyond := by
      intro old present given
      rcases List.mem_append.mp given with behind | now
      · exact behind
      · rcases first.began reader old present with ⟨_, _, _, _, _, _, _, listed, _⟩
        have again : .began (.ok reader) ∈ before ++ beyond := by simp [listed]
        exact absurd (List.mem_singleton.mp now).symm (first.not_again move again)
    rcases move.of_find? found with
      ⟨mode, rfl, rfl, begun⟩ | ⟨operation, result, old, rfl, rfl, present, effect⟩ | ⟨present, _⟩
    · rcases Region.begin_eq begun with ⟨_, _, _, started⟩
      rcases started transaction rfl with ⟨filter, rfl⟩
      constructor
      · intro given
        exact absurd rfl (first.not_again move (List.mem_append_left _ given))
      · intro _
        exact (start.advances first).clock
    · rcases known reader old present with ⟨early, late⟩
      rw [effect.snapshot_eq]
      exact ⟨early, fun given => late (stays present given)⟩
    · rcases known reader transaction present with ⟨early, late⟩
      exact ⟨early, fun given => late (stays present given)⟩
  · exact reached

/-- A commit of a transaction that freed a segment takes the next value of the clock. -/
theorem clock_of_freed (reached : Reached machine config actions answers session)
    (committed : session.step now (.commit owner) = .ok (after, .committed (.ok version)))
    (frees : (deedsOf owner actions answers).any (·.frees id) = true) :
    session.region.coordinator.clock < version ∧ after.region.coordinator.clock = version := by
  have tracked := reached.tracked.2.1
  have sized : Action.Sized (.commit owner) := trivial
  rcases tracked.commit_version (step_moves sized tracked.sound committed) with
    ⟨draft, known, ⟨_, rfl, clock⟩ | ⟨quiet, _⟩⟩
  · exact ⟨Region.clock_lt_succ reached.room, clock⟩
  · rw [← reached.draft_deeds owner draft known] at frees
    rw [Draft.draws_of_frees frees] at quiet
    cases quiet

/-- A segment that is retired stays so, as of the same version. -/
theorem retired_since {segment : Handle} (start : Reached machine config earlier before middle)
    (paired : before.length = earlier.length)
    (gone : middle.region.table.slot? id = some (.retired segment version))
    (reached : Reached machine config (earlier ++ later) (before ++ beyond) session) :
    session.region.table.slot? id = some (.retired segment version) := by
  apply start.induction_from (motive := fun _ _ session =>
    session.region.table.slot? id = some (.retired segment version)) paired gone ?_ reached
  intro later beyond session action answer after _ first move known
  exact first.tracked.2.1.slot?_retired move known

/-- A lookup of a segment that the commit of a transaction retired fails by whether the
reader began before or after that commit. -/
theorem missed_since_commit (paired : before.length = earlier.length)
    (start : Reached machine config earlier before middle)
    (live : middle.region.table.isLive target.segment = true)
    (frees : (deedsOf owner earlier before).any (·.frees target.segment) = true)
    (reached : Reached machine config (earlier ++ .commit owner :: later)
      (before ++ .committed (.ok version) :: beyond) session)
    (found : session.find? reader = some transaction) :
    (.began (.ok reader) ∈ before →
      session.region.table.resolve target transaction.snapshot =
        .error (.aborted (.segmentRetired target.segment version transaction.snapshot))) ∧
    (.began (.ok reader) ∈ beyond →
      session.region.table.resolve target transaction.snapshot =
        .error (.usage (.segmentFreed target.segment))) := by
  rcases reached.at_step paired with ⟨same, next, again, upTo, committed⟩
  rw [again.unique start] at committed
  rcases SegmentTable.isLive_iff.mp live with ⟨segment, slot⟩
  have drawn := start.clock_of_freed committed frees
  have gone := start.slot?_committed committed frees slot
  have cutHere : (before ++ [Answer.committed (.ok version)]).length =
      (earlier ++ [Action.commit owner]).length := by simp [paired]
  have sides := snapshot_sides paired start reached reader transaction found
  rw [List.append_cons, List.append_cons before] at reached
  have retired := upTo.retired_since cutHere gone reached
  have past := snapshot_sides cutHere upTo reached reader transaction found
  constructor
  · intro early
    exact SegmentTable.resolve_raced retired (UInt64.lt_of_le_of_lt (sides.1 early) drawn.1)
  · intro late
    refine SegmentTable.resolve_dangling retired ?_
    rw [← drawn.2]
    exact past.2 late

/-- An operation that looks up a segment fails by a conflict, and may be tried again, if the
segment was retired by a commit that its transaction began before, and by a broken rule if
it began after that commit.  An id that was not handed out breaks a rule for everybody,
and a live one leads to the segment that it was handed out for. -/
theorem race_told_from_dangling (reached : Reached machine config actions answers session)
    (now : Machine digest) :
    (∀ reader transaction operation target, session.find? reader = some transaction →
      transaction.status = .active →
      session.region.sought? transaction operation = some target →
      (∀ earlier owner later before version beyond middle,
        actions = earlier ++ .commit owner :: later →
        answers = before ++ .committed (.ok version) :: beyond →
        before.length = earlier.length → Reached machine config earlier before middle →
        middle.region.table.isLive target.segment = true →
        (deedsOf owner earlier before).any (·.frees target.segment) = true →
        (.began (.ok reader) ∈ before →
          session.Fails now reader operation
            (.aborted (.segmentRetired target.segment version transaction.snapshot))) ∧
        (.began (.ok reader) ∈ beyond →
          session.Fails now reader operation (.usage (.segmentFreed target.segment)))) ∧
      ((target.segment = .sentinel ∨
          ∀ segment, ¬HandedOut machine config actions answers target.segment segment) →
        session.Fails now reader operation (.usage (.unknownSegment target)))) ∧
    (∀ id, session.region.table.isLive id = true → ∃ segment,
      HandedOut machine config actions answers id segment ∧
      ∀ offset snapshot, session.region.table.resolve ⟨id, offset⟩ snapshot = .ok segment) ∧
    (∀ id, (∃ segment, HandedOut machine config actions answers id segment) ↔
      0 < id.index ∧ id.index ≤ session.region.table.idsAssigned) ∧
    (∀ id version snapshot,
      (Failure.aborted (.segmentRetired id version snapshot)).isRetryable = true) ∧
    ∀ error, (Failure.usage error).isRetryable = false := by
  refine ⟨?_, ?_, fun _ => reached.exists_handedOut_iff, fun _ _ _ => rfl, fun _ => rfl⟩
  · intro reader transaction operation target found active sought
    constructor
    · rintro earlier owner later before version beyond middle rfl rfl paired start live frees
      rcases missed_since_commit paired start live frees reached found with ⟨early, late⟩
      exact ⟨fun given => fails_of_missed found active sought (early given),
        fun given => fails_of_missed found active sought (late given)⟩
    · intro absent
      exact fails_of_missed found active sought
        (SegmentTable.resolve_unknown (reached.unregistered absent))
  · intro id live
    rcases SegmentTable.isLive_iff.mp live with ⟨segment, slot⟩
    refine ⟨segment, reached.handedOut id segment (SegmentTable.registered?_of_live slot), ?_⟩
    intro offset snapshot
    exact SegmentTable.resolve_eq_ok_iff.mpr slot

end Reached

/-- Transaction 3 frees segment 2, which transaction 2 may still see. -/
def outlived : List Action := [.perform ⟨3⟩ (.free ⟨⟨2⟩, 0⟩)]

def outlivedAnswers : List Answer := [.performed (.ok .done)]

/-- Transaction 3 commits.  Transaction 2, which began before that, may try again; transaction 4
is mistaken.  Segment 3 was not handed out, and segment 1 is there. -/
theorem race_told_from_dangling_outlived : ∃ session,
    Reached (.limited 1000) threeWords
      (sharing ++ outlived ++ .commit ⟨3⟩ :: [.begin .readOnly])
      (sharingAnswers ++ outlivedAnswers ++ .committed (.ok 1) :: [.began (.ok ⟨4⟩)]) session ∧
    session.Fails (.limited 1000) ⟨2⟩ (.free ⟨⟨2⟩, 0⟩) (.aborted (.segmentRetired ⟨2⟩ 1 0)) ∧
    session.Fails (.limited 1000) ⟨4⟩ (.read ⟨⟨2⟩, 0⟩ 8) (.usage (.segmentFreed ⟨2⟩)) ∧
    session.Fails (.limited 1000) ⟨4⟩ (.read ⟨⟨3⟩, 8⟩ 8) (.usage (.unknownSegment ⟨⟨3⟩, 8⟩)) ∧
    ∃ segment, ∀ offset snapshot,
      session.region.table.resolve ⟨.first, offset⟩ snapshot = .ok segment := by
  have before : seenAfter (·.region.table.isLive ⟨2⟩) (.limited 1000) threeWords
      (sharing ++ outlived) = some (true, sharingAnswers ++ outlivedAnswers) := by cbv
  have computed : seenAfter (fun session => (session.region.table.isLive .first,
      session.region.table.idsAssigned,
      (session.find? ⟨2⟩).map fun transaction => (transaction.status, transaction.snapshot,
        session.region.sought? transaction (.free ⟨⟨2⟩, 0⟩)),
      (session.find? ⟨4⟩).map fun transaction => (transaction.status,
        session.region.sought? transaction (.read ⟨⟨2⟩, 0⟩ 8),
        session.region.sought? transaction (.read ⟨⟨3⟩, 8⟩ 8)))) (.limited 1000) threeWords
      (sharing ++ outlived ++ .commit ⟨3⟩ :: [.begin .readOnly]) =
      some ((true, 2, some (.active, 0, some ⟨⟨2⟩, 0⟩),
        some (.active, some ⟨⟨2⟩, 0⟩, some ⟨⟨3⟩, 8⟩)),
        sharingAnswers ++ outlivedAnswers ++ .committed (.ok 1) :: [.began (.ok ⟨4⟩)]) := by cbv
  have sized : ∀ action ∈ sharing ++ outlived ++ .commit ⟨3⟩ :: [.begin .readOnly],
      action.Sized := by
    simp [sharing, outlived, Action.Sized, Operation.Sized]
  rcases Reached.of_seenAfter before (by decide)
    (fun action member => sized action (List.mem_append_left _ member)) with ⟨middle, start, live⟩
  rcases Reached.of_seenAfter computed (by decide) sized with ⟨session, reached, seen⟩
  simp only [Prod.mk.injEq, Option.map_eq_some_iff] at seen
  rcases seen with ⟨kept, count, ⟨second, foundSecond, activeSecond, snapshot, soughtSecond⟩,
    fourth, foundFourth, activeFourth, soughtFreed, soughtUnknown⟩
  rcases reached.race_told_from_dangling (.limited 1000) with ⟨lookups, resolves, given, _⟩
  rcases lookups ⟨2⟩ second _ _ foundSecond activeSecond soughtSecond with ⟨raced, _⟩
  rcases lookups ⟨4⟩ fourth _ _ foundFourth activeFourth soughtFreed with ⟨dangling, _⟩
  rcases lookups ⟨4⟩ fourth _ _ foundFourth activeFourth soughtUnknown with ⟨_, unknown⟩
  rw [snapshot] at raced
  refine ⟨session, reached, ?_, ?_, ?_, ?_⟩
  · exact (raced _ _ _ _ _ _ _ rfl rfl rfl start live rfl).1
      (by simp [sharingAnswers, outlivedAnswers])
  · exact (dangling _ _ _ _ _ _ _ rfl rfl rfl start live rfl).2 (by simp)
  · refine unknown (.inr fun segment handed => ?_)
    have within := ((given ⟨3⟩).mp ⟨segment, handed⟩).2
    rw [count] at within
    exact absurd within (by decide)
  · rcases resolves .first kept with ⟨segment, _, resolved⟩
    exact ⟨segment, resolved⟩

end Session

end WordStm
