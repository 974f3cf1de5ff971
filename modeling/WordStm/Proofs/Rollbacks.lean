import WordStm.Proofs.Lookup
import WordStm.Proofs.Traces

/-!
# What a rollback tells those who race it

A transaction that gives up retires the segments that it allocated as of the clock, and
takes no version of its own to do so.  Whoever began before that and looks such a segment
up is told of a conflict only if the clock moved in the meantime: for some commit that
took a version, or for one that failed because of a word that it had read.  If nothing of
the kind happened, the reader is told that it broke a rule.
-/

namespace WordStm

/-- Whether an answer shows that the clock has passed a snapshot. -/
def Answer.isAhead (snapshot : Version) : Answer → Bool
  | .committed (.ok version) => snapshot < version
  | answer => answer.isInvalidated

/-- Only a commit shows anything of the clock. -/
theorem Answer.isAhead_eq_false {snapshot : Version} {answer : Answer}
    (other : ∀ result, answer ≠ .committed result) : answer.isAhead snapshot = false := by
  cases answer with
  | committed result => exact absurd rfl (other result)
  | began | performed | ended | unknown => rfl

namespace Session

variable {digest : Digest} {machine now : Machine digest} {config : RegionConfig}
  {session after middle : Session}
  {actions earlier later : List Action} {answers before beyond : List Answer} {action : Action}
  {answer : Answer} {owner reader : TransactionId} {transaction : Transaction}
  {operation : Operation} {target : Address} {snapshot : Version}

/-- Only what is open can end. -/
theorem Aborts.found (aborts : Aborts owner action answer)
    (stepped : session.step now action = .ok (after, answer)) :
    ∃ transaction, session.find? owner = some transaction := by
  cases known : session.find? owner with
  | some transaction => exact ⟨transaction, rfl⟩
  | none => cases aborts <;> simp [step, known, pure, Except.pure] at stepped

namespace Reached

/-- A step takes the clock past a snapshot exactly if its answer shows that. -/
theorem ahead_step (reached : Reached machine config actions answers session)
    (sized : action.Sized) (stepped : session.step now action = .ok (after, answer))
    (past : snapshot ≤ session.region.coordinator.clock) :
    snapshot < after.region.coordinator.clock ↔
      snapshot < session.region.coordinator.clock ∨ answer.isAhead snapshot = true := by
  have tracked := reached.tracked.2.1
  have next := UInt64.lt_of_le_of_lt past (Region.clock_lt_succ reached.room)
  have move := step_moves sized tracked.sound stepped
  have still : (∀ result, answer ≠ .committed result) →
      (snapshot < after.region.coordinator.clock ↔
        snapshot < session.region.coordinator.clock ∨ answer.isAhead snapshot = true) := by
    intro other
    simp [move.clock_still tracked.valid other, Answer.isAhead_eq_false other]
  cases move with
  | began | refused | unknown | performed | dropped => exact still (by simp)
  | committed found settled =>
      cases settled with
      | quiet active =>
          -- the version is the snapshot of who commits, which the clock has reached
          have told := reached.snapshots _ _ found
          simp only [close, Answer.isAhead, decide_eq_true_eq]
          refine ⟨.inl, ?_⟩
          rintro (ahead | ahead)
          · exact ahead
          · exact UInt64.lt_of_lt_of_le ahead told
      | published publishes =>
          simp only [close, publishes.clock, Answer.isAhead, decide_eq_true_eq]
          exact ⟨.inr, fun _ => next⟩
      | @failed failure =>
          have told : (Answer.committed (.error failure)).isAhead snapshot =
            (Answer.committed (.error failure)).isInvalidated := rfl
          rw [reached.clock_of_failed found stepped, told]
          split
          next draws => exact ⟨fun _ => .inr draws, fun _ => next⟩
          next quiet => simp [quiet]

/-- The clock has moved since some moment exactly if an answer since then shows that. -/
theorem clock_ahead (paired : before.length = earlier.length)
    (start : Reached machine config earlier before middle)
    (reached : Reached machine config (earlier ++ later) (before ++ beyond) session) :
    middle.region.coordinator.clock < session.region.coordinator.clock ↔
      beyond.any (·.isAhead middle.region.coordinator.clock) = true := by
  apply start.steps_from (motive := fun _ beyond session =>
    middle.region.coordinator.clock < session.region.coordinator.clock ↔
      beyond.any (·.isAhead middle.region.coordinator.clock) = true) paired ?_ ?_ reached
  · simp
  · intro later beyond session action answer after _ first sized stepped known
    rw [first.ahead_step sized stepped (start.advances first).clock, known]
    simp

/-- The snapshot of a transaction is what the clock showed when it began. -/
theorem snapshot_of_began {mode : AccessMode} (paired : before.length = earlier.length)
    (reached : Reached machine config (earlier ++ .begin mode :: later)
      (before ++ .began (.ok reader) :: beyond) session)
    (found : session.find? reader = some transaction) :
    ∃ opened, Reached machine config (earlier ++ [.begin mode])
        (before ++ [.began (.ok reader)]) opened ∧
      transaction.snapshot = opened.region.coordinator.clock := by
  rcases reached.at_step paired with ⟨start, opened, first, upTo, stepped⟩
  refine ⟨opened, upTo, ?_⟩
  have sized : Action.Sized (.begin mode) := trivial
  have move := step_moves sized first.tracked.2.1.sound stepped
  have same := move.clock_still first.tracked.2.1.valid (by simp)
  have late := (first.snapshot_sides paired reached reader transaction found).2 (by simp)
  rw [List.append_cons, List.append_cons before] at reached
  have early := (upTo.snapshot_sides (by simp [paired]) reached reader transaction found).1
    (by simp)
  rw [same] at early ⊢
  exact UInt64.le_antisymm early late

/-- A segment that a transaction allocated is retired by its end without a commit, as of the
clock after that. -/
theorem retired_of_aborts (paired : before.length = earlier.length)
    (start : Reached machine config earlier before middle)
    (live : middle.region.table.isLive target.segment = true)
    (allocated : (deedsOf owner earlier before).any (·.allocates target.segment) = true)
    (aborts : Aborts owner action answer)
    (reached : Reached machine config (earlier ++ action :: later) (before ++ answer :: beyond)
      session) :
    ∃ next segment, Reached machine config (earlier ++ [action]) (before ++ [answer]) next ∧
      session.region.table.slot? target.segment =
        some (.retired segment next.region.coordinator.clock) := by
  rcases reached.at_step paired with ⟨same, next, again, upTo, stepped⟩
  rw [again.unique start] at stepped
  rcases aborts.found stepped with ⟨ending, found⟩
  rcases SegmentTable.isLive_iff.mp live with ⟨segment, slot⟩
  have gone := (start.undone found aborts stepped).slots target.segment
  rw [if_pos allocated, slot] at gone
  rw [List.append_cons, List.append_cons before] at reached
  exact ⟨next, segment, upTo, upTo.retired_since (by simp [paired]) gone reached⟩

/-- A transaction was active when another one gave up a segment that it had allocated, and
now looks that segment up.  It fails by a conflict if the clock had moved since it began, for a
commit in between or by the end of the other one, and by a broken rule if it had not. -/
theorem race_with_rollback {mode : AccessMode} {first between : List Action}
    {start during : List Answer} {ending : Action} {told : Answer}
    (begun : start.length = first.length) (paired : during.length = between.length)
    (reached : Reached machine config (first ++ .begin mode :: between ++ ending :: later)
      (start ++ .began (.ok reader) :: during ++ told :: beyond) session)
    (upTo : Reached machine config (first ++ .begin mode :: between)
      (start ++ .began (.ok reader) :: during) middle)
    (live : middle.region.table.isLive target.segment = true)
    (allocated : (deedsOf owner (first ++ .begin mode :: between)
      (start ++ .began (.ok reader) :: during)).any (·.allocates target.segment) = true)
    (aborts : Aborts owner ending told) (found : session.find? reader = some transaction)
    (active : transaction.status = .active)
    (sought : session.region.sought? transaction operation = some target) :
    ∃ next, Reached machine config (first ++ .begin mode :: between ++ [ending])
        (start ++ .began (.ok reader) :: during ++ [told]) next ∧
      ((during ++ [told]).any (·.isAhead transaction.snapshot) = true →
        session.Fails now reader operation (.aborted (.segmentRetired target.segment
          next.region.coordinator.clock transaction.snapshot))) ∧
      ((during ++ [told]).any (·.isAhead transaction.snapshot) = false →
        session.Fails now reader operation (.usage (.segmentFreed target.segment))) := by
  have cut : (start ++ Answer.began (.ok reader) :: during).length =
      (first ++ Action.begin mode :: between).length := by simp [begun, paired]
  rcases upTo.retired_of_aborts cut live allocated aborts reached with
    ⟨next, segment, upToNext, gone⟩
  refine ⟨next, upToNext, ?_⟩
  have whole := reached
  rw [List.append_assoc, List.cons_append, List.append_assoc, List.cons_append] at whole
  rcases whole.snapshot_of_began begun found with ⟨opened, atBegin, snapshot⟩
  have since := upToNext
  rw [List.append_assoc, List.cons_append, List.append_cons, List.append_assoc start,
    List.cons_append, List.append_cons start] at since
  have ahead := atBegin.clock_ahead (by simp [begun]) since
  rw [← snapshot] at ahead
  rw [← ahead, ← Bool.not_eq_true, ← ahead, UInt64.not_lt]
  constructor
  · intro moved
    exact fails_of_missed found active sought (SegmentTable.resolve_raced gone moved)
  · intro still
    exact fails_of_missed found active sought (SegmentTable.resolve_dangling gone still)

end Reached

/-- Transaction 1 allocates segment 2, and transaction 3 publishes a word. -/
def withdrawing : List Action :=
  [.begin .readWrite, .perform ⟨1⟩ (.alloc 8),
    .perform ⟨3⟩ (.write (List.replicate 8 3) ⟨.first, 0⟩), .commit ⟨3⟩]

def withdrawingAnswers : List Answer :=
  [.began (.ok ⟨3⟩), .performed (.ok (.address ⟨⟨2⟩, 0⟩)), .performed (.ok .done),
    .committed (.ok 1)]

/-- Transaction 1 rolls back after transaction 3 committed, and transaction 2 has a conflict. -/
theorem race_with_rollback_overtaken : ∃ session,
    Reached (.limited 1000) threeWords
      ([.begin .readWrite] ++ .begin .readWrite :: withdrawing ++ .rollback ⟨1⟩ :: [])
      ([.began (.ok ⟨1⟩)] ++ .began (.ok ⟨2⟩) :: withdrawingAnswers ++ .ended :: []) session ∧
    session.Fails (.limited 1000) ⟨2⟩ (.read ⟨⟨2⟩, 0⟩ 8)
      (.aborted (.segmentRetired ⟨2⟩ session.region.coordinator.clock 0)) := by
  have before : seenAfter (·.region.table.isLive ⟨2⟩) (.limited 1000) threeWords
      ([.begin .readWrite] ++ .begin .readWrite :: withdrawing) =
      some (true, [.began (.ok ⟨1⟩)] ++ .began (.ok ⟨2⟩) :: withdrawingAnswers) := by cbv
  have computed : seenAfter (fun session => (session.find? ⟨2⟩).map fun transaction =>
      (transaction.status, transaction.snapshot,
        session.region.sought? transaction (.read ⟨⟨2⟩, 0⟩ 8))) (.limited 1000) threeWords
      ([.begin .readWrite] ++ .begin .readWrite :: withdrawing ++ .rollback ⟨1⟩ :: []) =
      some (some (.active, 0, some ⟨⟨2⟩, 0⟩),
        [.began (.ok ⟨1⟩)] ++ .began (.ok ⟨2⟩) :: withdrawingAnswers ++ .ended :: []) := by cbv
  have sized : ∀ action ∈ [Action.begin .readWrite] ++ .begin .readWrite :: withdrawing ++
      .rollback ⟨1⟩ :: [], action.Sized := by
    simp [withdrawing, Action.Sized, Operation.Sized]
  rcases Reached.of_seenAfter before (by decide)
    (fun action member => sized action (List.mem_append_left _ member)) with ⟨middle, upTo, live⟩
  rcases Reached.of_seenAfter computed (by decide) sized with ⟨session, reached, seen⟩
  simp only [Option.map_eq_some_iff, Prod.mk.injEq] at seen
  rcases seen with ⟨transaction, found, active, snapshot, sought⟩
  rcases reached.race_with_rollback rfl rfl upTo live (by decide) .rolledBack found active
    sought with ⟨next, upToNext, raced, _⟩
  rw [upToNext.unique reached, snapshot] at raced
  exact ⟨session, reached, raced (by decide)⟩

/-- Transaction 1 rolls back and nothing else happened since transaction 2 began, which is told
that it must not look at segment 2, and may not try again. -/
theorem rollback_told_as_dangling : ∃ session,
    Reached (.limited 1000) threeWords
      [.begin .readWrite, .begin .readWrite, .perform ⟨1⟩ (.alloc 8), .rollback ⟨1⟩]
      [.began (.ok ⟨1⟩), .began (.ok ⟨2⟩), .performed (.ok (.address ⟨⟨2⟩, 0⟩)), .ended] session ∧
    (∃ transaction, session.find? ⟨2⟩ = some transaction ∧ transaction.status = .active ∧
      session.region.sought? transaction (.read ⟨⟨2⟩, 0⟩ 8) = some ⟨⟨2⟩, 0⟩) ∧
    session.Fails (.limited 1000) ⟨2⟩ (.read ⟨⟨2⟩, 0⟩ 8) (.usage (.segmentFreed ⟨2⟩)) ∧
    (Failure.usage (.segmentFreed ⟨2⟩)).isRetryable = false := by
  have computed : seenAfter (fun session => (session.find? ⟨2⟩).map fun transaction =>
      (transaction.status, session.region.sought? transaction (.read ⟨⟨2⟩, 0⟩ 8)))
      (.limited 1000) threeWords
      [.begin .readWrite, .begin .readWrite, .perform ⟨1⟩ (.alloc 8), .rollback ⟨1⟩] =
      some (some (.active, some ⟨⟨2⟩, 0⟩),
        [.began (.ok ⟨1⟩), .began (.ok ⟨2⟩), .performed (.ok (.address ⟨⟨2⟩, 0⟩)), .ended]) := by
    cbv
  have failed : seenAfter (fun session => (session.find? ⟨2⟩).map fun transaction =>
      (transaction.status, session.region.sought? transaction (.read ⟨⟨2⟩, 0⟩ 8)))
      (.limited 1000) threeWords
      ([.begin .readWrite, .begin .readWrite, .perform ⟨1⟩ (.alloc 8), .rollback ⟨1⟩] ++
        [.perform ⟨2⟩ (.read ⟨⟨2⟩, 0⟩ 8)]) =
      some (some (.aborted (.rejected (.usage (.segmentFreed ⟨2⟩))), some ⟨⟨2⟩, 0⟩),
        [.began (.ok ⟨1⟩), .began (.ok ⟨2⟩), .performed (.ok (.address ⟨⟨2⟩, 0⟩)), .ended] ++
          [.performed (.error (.usage (.segmentFreed ⟨2⟩)))]) := by
    cbv
  rcases Reached.of_seenAfter_snoc computed failed (by decide)
    (by simp [Action.Sized, Operation.Sized]) with ⟨session, after, reached, stepped, seen, _⟩
  simp only [Option.map_eq_some_iff, Prod.mk.injEq] at seen
  exact ⟨session, reached, seen, ⟨after, stepped⟩, rfl⟩

end Session

end WordStm
