import WordStm.Proofs.Published
import WordStm.Proofs.Standing

/-!
# Conflicts

A transaction that is active meets a conflict exactly where somebody else published
since it began: a read fails at the first such word that it covers, and a commit
that has something to publish or to free fails at the first such word that was
read.  As each step runs by itself, none meets the locks of another one.  Apart from
conflicts, a read fails only for want of room to log a word that comes before all
of them.
-/

namespace WordStm

/-- The first number that answers decides a search through numbers. -/
theorem List.findSome?_range {α : Type} {f : Nat → Option α} {index count : Nat} {value : α}
    (below : index < count) (quiet : ∀ earlier < index, f earlier = none)
    (here : f index = some value) : (List.range count).findSome? f = some value := by
  have split : List.range count =
      List.range index ++ index :: List.range' (index + 1) (count - (index + 1)) := by
    have whole := @List.range'_append_1 0 index (count - (index + 1) + 1)
    rw [Nat.zero_add] at whole
    rw [← List.range'_succ, List.range_eq_range', List.range_eq_range', whole]
    congr 1
    omega
  exact List.findSome?_eq_some_iff.mpr ⟨_, index, _, split, here,
    fun earlier member => quiet earlier (List.mem_range.mp member)⟩

namespace Region

variable {digest : Digest} {region : Region} {transaction : Transaction}

/-- No word is newer than the clock. -/
theorem UnlockedDated.marks_latest (rested : region.UnlockedDated) {snapshot : Version}
    (latest : region.coordinator.clock = snapshot) :
    region.MarksNewer snapshot fun _ => false := by
  intro address place cell _ found
  rw [← latest]
  constructor
  · intro impossible
    cases impossible
  · intro newer
    exact absurd newer (UInt64.not_lt.mpr (rested.dated _ _ found))

/-- Without locks, a word that was read is stale if it is newer than the snapshot. -/
theorem UnlockedDated.isStale_iff (rested : region.UnlockedDated) {entry : ReadEntry} {cell : Cell}
    (found : region.memory.cell? entry.place = some cell) {snapshot : Version} :
    entry.isStale region.memory snapshot = true ↔ snapshot < cell.version := by
  rw [ReadEntry.isStale, found, Option.any_some, Cell.obstacle?, rested.unlocked _ _ found]
  by_cases newer : cell.version > snapshot
  · simp [newer]
  · simp [newer]

/-- Without locks, what decides a commit is whether a word that was read is stale.  It is no
matter if the check is skipped when nothing was published since the snapshot. -/
theorem UnlockedDated.ruling_eq (rested : region.UnlockedDated)
    (grounded : transaction.Grounded region.memory) {rule : ValidationRule}
    (skips : rule transaction.snapshot (region.coordinator.clock + 1) = false →
      region.coordinator.clock = transaction.snapshot) :
    region.coordinator.ruling rule region.memory transaction =
      match transaction.log.reads.toList.find? (·.isStale region.memory transaction.snapshot) with
      | some entry => .invalid entry.address
      | none => .granted := by
  rw [Coordinator.ruling_of_clear (LockOrder.find?_isHeld rested.unlocked _ _)]
  cases checks : rule transaction.snapshot (region.coordinator.clock + 1) with
  | true => rfl
  | false =>
      have fresh : transaction.log.reads.toList.find?
          (·.isStale region.memory transaction.snapshot) = none := by
        rw [List.find?_eq_none]
        intro entry member
        rcases grounded.reads entry member with ⟨cell, found⟩
        rw [rested.isStale_iff found, ← skips checks]
        exact UInt64.not_lt.mpr (rested.dated _ _ found)
      rw [fresh]
      rfl

/-- Without locks, a word that is newer than the snapshot cannot be read. -/
theorem UnlockedDated.hitch?_of_newer (rested : region.UnlockedDated) {address : Address}
    {place : Place} {cell : Cell} (found : region.memory.cell? place = some cell)
    (newer : transaction.snapshot < cell.version) (machine : Machine digest) (more : Nat) :
    transaction.hitch? machine region.memory address place more =
      some (.aborted (.versionTooNew address cell.version transaction.snapshot)) := by
  rw [Transaction.hitch?, found, Option.bind_some, Cell.obstacle?, rested.unlocked _ _ found,
    if_neg Bool.false_ne_true, if_pos newer]

/-- Without locks, any other word can be read if there is room to log it. -/
theorem UnlockedDated.hitch?_of_old (rested : region.UnlockedDated) {address : Address}
    {place : Place} {cell : Cell} (found : region.memory.cell? place = some cell)
    (old : ¬transaction.snapshot < cell.version) (machine : Machine digest) (more : Nat) :
    transaction.hitch? machine region.memory address place more =
      match transaction.roomToRead machine more with
      | .error failure => some failure
      | .ok () => none := by
  have clear : cell.obstacle? address transaction.snapshot = none := by
    rw [Cell.obstacle?, rested.unlocked _ _ found, if_neg Bool.false_ne_true, if_neg old]
  cases room : transaction.roomToRead machine more with
  | error | ok => simp [Transaction.hitch?, found, clear, room]

end Region

namespace Session.Reached

variable {digest : Digest} {machine now : Machine digest} {session after middle : Session}
  {config : RegionConfig} {actions earlier later : List Action}
  {answers before beyond : List Answer} {action : Action} {answer : Answer} {id : TransactionId}
  {transaction : Transaction}

/-- The words that an active transaction read and that are stale by now are those that were
published since its snapshot. -/
theorem find?_isStale {published : Address → Bool}
    (reached : Reached machine config actions answers session)
    (found : session.find? id = some transaction) (active : transaction.status = .active)
    (writable : transaction.mode.isReadOnly = false)
    (marks : session.region.MarksNewer transaction.snapshot published) :
    (transaction.log.reads.toList.find?
        (·.isStale session.region.memory transaction.snapshot)).map (·.address) =
      ((deedsOf id actions answers).flatMap (·.wordsRead config.align.toNat)).find? published := by
  have logged := reached.logged id transaction found active
  rw [← reached.config_eq, ← logged.read writable, List.find?_map]
  congr 1
  apply List.find?_congr
  intro entry member
  have named := logged.named entry member
  rcases named.cell reached.tracked.2.1.valid with ⟨cell, here⟩
  rw [Bool.eq_iff_iff, reached.rested.isStale_iff here, Function.comp_apply,
    marks entry.address entry.place cell named here]

/-- Whether an active transaction commits is decided by what was published since its
snapshot.  With something to publish or to free it uses up a version in any case. -/
theorem commit_decided {published : Address → Bool}
    (reached : Reached machine config actions answers session)
    (found : session.find? id = some transaction) (active : transaction.status = .active)
    (marks : session.region.MarksNewer transaction.snapshot published) :
    ∃ after, session.step now (.commit id) = .ok (after, .committed (
        if (deedsOf id actions answers).any Deed.draws = true then
          match ((deedsOf id actions answers).flatMap (·.wordsRead config.align.toNat)).find?
              published with
          | some address => .error (.aborted (.validationFailed address))
          | none => .ok (session.region.coordinator.clock + 1)
        else .ok transaction.snapshot)) ∧
      after.region.coordinator.clock =
        if (deedsOf id actions answers).any Deed.draws = true
        then session.region.coordinator.clock + 1 else session.region.coordinator.clock := by
  rcases reached.tracked with ⟨_, tracked, _⟩
  rcases tracked.drafts id transaction found with ⟨draft, known, drafted⟩
  have current := drafted.current active
  have draws := current.draws
  rw [reached.draft_deeds id draft known] at draws
  simp only [step, found]
  cases effects : transaction.log.isReadOnly with
  | true =>
      rcases session.region.commit_quiet digest active (.inr effects) with
        ⟨after, ended, committed, coordinator⟩
      rw [draws, effects, committed]
      exact ⟨_, rfl, congrArg Coordinator.clock coordinator⟩
  | false =>
      have writable : transaction.mode.isReadOnly = false := by
        rw [Bool.eq_false_iff]
        intro readOnly
        rw [TransactionLog.isReadOnly_iff.mpr (current.quiet readOnly)] at effects
        cases effects
      have grounded := (reached.logged id transaction found active).grounded tracked.valid
        drafted.sound current.placed
      rcases session.region.commit_ruled digest active writable effects drafted.sound grounded with
        ⟨after, ended, committed, coordinator⟩
      have stale := reached.find?_isStale found active writable marks
      rw [reached.rested.ruling_eq grounded (by simp [needsValidation])] at committed coordinator
      rw [draws, effects, ← stale, committed]
      cases looked : transaction.log.reads.toList.find?
          (·.isStale session.region.memory transaction.snapshot) with
      | some entry =>
          rw [looked] at coordinator
          exact ⟨_, rfl, congrArg Coordinator.clock coordinator⟩
      | none =>
          rw [looked] at coordinator
          exact ⟨_, rfl, congrArg Coordinator.clock coordinator⟩

/-- Whether an active transaction can read words of a live segment is decided by what hinders it
at them. -/
theorem read_decided {source : Address} {length : UInt64} {segment : Handle} {word count : Nat}
    (reached : Reached machine config actions answers session)
    (found : session.find? id = some transaction) (active : transaction.status = .active)
    (located : session.region.Located source length.toNat segment word count)
    (now : Machine digest) :
    match session.region.hitch? now transaction source.segment segment word count with
    | some failure => ∃ after, session.step now (.perform id (.read source length)) =
        .ok (after, .performed (.error failure))
    | none => ∃ after bytes, session.step now (.perform id (.read source length)) =
        .ok (after, .performed (.ok (.bytes bytes))) := by
  rcases reached.tracked with ⟨_, tracked, _⟩
  rcases tracked.drafts id transaction found with ⟨draft, known, drafted⟩
  have valid := tracked.valid
  have present : ∀ position, word ≤ position → position < word + count → ∃ cell,
      session.region.memory.cell? ⟨segment, position⟩ = some cell :=
    fun _ _ below => (Region.Names.of_located located valid below).cell valid
  have whole : ∀ entry ∈ transaction.log.writes.entries.toList,
      entry.value.length = session.region.config.align.toNat := by
    intro entry member
    rcases (drafted.current active).placed entry member with ⟨_, _, _, _, _, _, _, _, whole⟩
    exact whole
  rcases Region.readWords_total [] drafted.sound present whole now source with
    ⟨moved, result, words⟩
  have rooted := words
  rw [located.address_eq] at rooted
  have verdict := Region.readWords_verdict drafted.sound rooted
  have performed := located.perform_read valid.align_pos active now
  simp only [words, bind, Except.bind, pure, Except.pure] at performed
  simp only [step, found, performed, bind, Except.bind, pure, Except.pure]
  cases hitch : session.region.hitch? now transaction source.segment segment word count with
  | some failure =>
      rw [hitch] at verdict
      rw [verdict]
      exact ⟨_, rfl⟩
  | none =>
      rw [hitch] at verdict
      rcases verdict with ⟨bytes, rfl⟩
      exact ⟨_, bytes, rfl⟩

/-- Nothing that an active transaction does comes out otherwise if every commit checks what was
read. -/
theorem commitBy_always (reached : Reached machine config actions answers session)
    (found : session.find? id = some transaction) (active : transaction.status = .active) :
    ∃ skipping checking,
      session.region.coordinator.commit digest session.region.memory transaction =
        .ok skipping ∧
      session.region.coordinator.commitBy (fun _ _ => true) digest session.region.memory
        transaction = .ok checking ∧
      skipping.result = checking.result ∧ skipping.memory = checking.memory ∧
      skipping.coordinator = checking.coordinator := by
  rcases reached.tracked with ⟨_, tracked, _⟩
  rcases tracked.drafts id transaction found with ⟨draft, _, drafted⟩
  have grounded := (reached.logged id transaction found active).grounded tracked.valid
    drafted.sound (drafted.current active).placed
  simp only [Coordinator.commit, Coordinator.commitBy,
    Transaction.ensureActive_eq_ok.mpr active]
  split
  next => exact ⟨_, _, rfl, rfl, rfl, rfl, rfl⟩
  next =>
    rcases session.region.coordinator.commitWritesBy_follows needsValidation drafted.sound
      grounded with ⟨skipping, first, skips⟩
    rcases session.region.coordinator.commitWritesBy_follows (fun _ _ => true) drafted.sound
      grounded with ⟨checking, second, checks⟩
    rw [reached.rested.ruling_eq grounded (by simp [needsValidation])] at skips
    rw [reached.rested.ruling_eq grounded (by simp)] at checks
    refine ⟨skipping, checking, first, second, skips.result.trans checks.result.symm, ?_,
      skips.clock.trans checks.clock.symm⟩
    split at skips
    next stale =>
      rw [stale] at checks
      rw [skips.restored (by simp), checks.restored (by simp)]
    next none =>
      rw [none] at checks
      have same := (skips.published rfl).symm.trans (checks.published rfl)
      exact Except.ok.inj same

/-- While a transaction runs alone the clock stays at its snapshot. -/
theorem clock_of_alone {mode : AccessMode} (paired : before.length = earlier.length)
    (start : Reached machine config earlier before middle)
    (reached : Reached machine config (earlier ++ .begin mode :: later)
      (before ++ .began (.ok id) :: beyond) session)
    (found : session.find? id = some transaction)
    (alone : ∀ action ∈ later, action.owner? = some id) :
    session.region.coordinator.clock = middle.region.coordinator.clock := by
  rw [List.append_cons, List.append_cons before] at reached
  have cutHere : (before ++ [Answer.began (.ok id)]).length =
      (earlier ++ [Action.begin mode]).length := by simp [paired]
  rcases reached.cut cutHere with ⟨begun, first, _⟩
  refine first.induction_from (motive := fun later _ session =>
    (∀ action ∈ later, action.owner? = some id) → ∀ transaction,
      session.find? id = some transaction →
        session.region.coordinator.clock = middle.region.coordinator.clock) cutHere ?_ ?_ reached
    alone transaction found
  · intro _ _ _
    rcases first.snoc_move with ⟨same, again, move⟩
    rw [← again.unique start]
    exact move.clock_still again.tracked.2.1.valid (by simp)
  · intro later beyond session action answer after _ last move ih alone transaction found
    have own := alone action (by simp)
    rcases move.open_of_open own found with ⟨old, present⟩
    rw [move.clock_of_open own last.tracked.2.1.valid found]
    exact ih (fun other member => alone other (List.mem_append_left _ member)) old present

/-- An active transaction whose snapshot is the newest meets no conflict. -/
theorem blameless_of_latest {operation : Operation} {failure : Failure}
    (reached : Reached machine config actions answers session)
    (found : session.find? id = some transaction) (active : transaction.status = .active)
    (latest : session.region.coordinator.clock = transaction.snapshot)
    (sized : operation.Sized)
    (failed : session.step now (.perform id operation) =
      .ok (after, .performed (.error failure))) : failure.abortReason? = none := by
  have asks : Action.Sized (.perform id operation) := sized
  have move := step_moves asks reached.tracked.2.1.sound failed
  have rested := reached.rested
  cases move with
  | performed known effect =>
      rw [found, Option.some.injEq] at known
      subst known
      cases effect with
      | failed _ _ _ _ _ refusal =>
          rcases refusal with refusal | memory
          · cases refusal with
            | inactive ended =>
                rw [Transaction.ensureActive_eq_ok.mpr active] at ended
                cases ended
            | unfit blameless => exact blameless
            | retired slot later =>
                rw [← latest] at later
                exact absurd later (UInt64.not_lt.mpr (rested.retired _ _ _ slot))
            | obstructed here obstacle =>
                rw [← latest, Cell.obstacle?_eq_none_iff.mpr
                  ⟨rested.unlocked _ _ here, rested.dated _ _ here⟩] at obstacle
                cases obstacle
          · exact Failure.abortReason?_of_isOutOfMemory memory
      | unlogged _ _ _ _ _ full =>
          exact Failure.abortReason?_of_isOutOfMemory
            (TransactionLog.isOutOfMemory_of_recordAlloc full)

/-- An active transaction whose snapshot is the newest commits. -/
theorem commits_of_latest (reached : Reached machine config actions answers session)
    (found : session.find? id = some transaction) (active : transaction.status = .active)
    (latest : session.region.coordinator.clock = transaction.snapshot) :
    ∃ after version, session.step now (.commit id) =
      .ok (after, .committed (.ok version)) := by
  rcases reached.commit_decided found active (reached.rested.marks_latest latest) with
    ⟨after, stepped, _⟩
  rw [List.find?_eq_none.mpr (by simp)] at stepped
  split at stepped
  next => exact ⟨after, _, stepped⟩
  next => exact ⟨after, _, stepped⟩

/-- A commit fails in an orderly way. -/
theorem orderly_commit {failure : Failure}
    (reached : Reached machine config actions answers session)
    (found : session.find? id = some transaction)
    (failed : session.step now (.commit id) = .ok (after, .committed (.error failure))) :
    failure.isOrderly = true := by
  rcases reached.standing id transaction found with active | ⟨cause, doomed, orderly⟩
  · rcases reached.published_since id transaction found with
      ⟨_, _, _, _, _, _, _, _, marks⟩
    rcases reached.commit_decided found active marks with ⟨_, stepped, _⟩
    rw [stepped, Except.ok.injEq, Prod.mk.injEq, Answer.committed.injEq] at failed
    have result := failed.2
    split at result
    next =>
      split at result
      next =>
        cases result
        rfl
      next => cases result
    next => cases result
  · simp only [step, found, Region.commit_doomed digest session.region doomed, bind, Except.bind,
      pure, Except.pure, Except.ok.injEq, Prod.mk.injEq, Answer.committed.injEq,
      Except.error.injEq] at failed
    rw [← failed.2]
    rcases Failure.doomedFailure_of_isOrderly orderly with same | blameless
    · rw [same]
      rfl
    · exact Failure.isOrderly_of_blameless blameless

/-- A step fails in an orderly way. -/
theorem orderly_step {failure : Failure} (reached : Reached machine config actions answers session)
    (sized : action.Sized) (stepped : session.step now action = .ok (after, answer))
    (failed : answer.failure? = some failure) : failure.isOrderly = true := by
  have move := step_moves sized reached.tracked.2.1.sound stepped
  cases move with
  | began | unknown | dropped => cases failed
  | refused refused =>
      cases failed
      exact Failure.isOrderly_of_isOutOfMemory (Region.begin_refused refused)
  | @performed id operation transaction moved region result found effect =>
      cases result with
      | ok reply => cases failed
      | error =>
          cases failed
          exact (effect.standing reached.rested.unlocked (reached.standing id transaction found)).1
  | @committed id transaction region result found settled =>
      cases result with
      | ok version => cases failed
      | error =>
          cases failed
          exact reached.orderly_commit found stepped

/-- Every failure in a history is orderly. -/
theorem orderly (reached : Reached machine config actions answers session) :
    ∀ answer ∈ answers, ∀ failure, answer.failure? = some failure → failure.isOrderly = true := by
  intro answer member failure failed
  rcases reached.of_mem_answers member with
    ⟨_, action, _, _, _, middle, next, rfl, _, _, first, stepped⟩
  exact first.orderly_step (reached.sized action (by simp)) stepped failed

end Session.Reached

/-- What meets an active transaction is decided by which words were published since it
began, and by the room that it finds for its log. -/
structure Session.DecidedBy {digest : Digest} (now : Machine digest) (config : RegionConfig)
    (session : Session) (id : TransactionId) (transaction : Transaction) (deeds : List Deed)
    (published : Address → Bool) : Prop where
  /-- A read of words of a live segment fails if one of them was published, or cannot be logged,
  and only then. -/
  fails_iff : ∀ source length segment word count,
    session.region.Located source length.toNat segment word count →
      ((∃ after failure, session.step now (.perform id (.read source length)) =
          .ok (after, .performed (.error failure))) ↔
        ∃ index < count,
          published (.ofWord config.align.toNat source.segment (word + index)) = true ∨
          transaction.roomToRead now index ≠ .ok ())
  /-- If the first such word was published, it is named together with its version, whether the
  transaction wrote to it or not. -/
  conflict : ∀ source length segment word count,
    session.region.Located source length.toNat segment word count → ∀ index < count,
      (∀ earlier < index,
        published (.ofWord config.align.toNat source.segment (word + earlier)) = false ∧
        transaction.roomToRead now earlier = .ok ()) →
      published (.ofWord config.align.toNat source.segment (word + index)) = true →
        ∃ after cell, session.region.memory.cell? ⟨segment, word + index⟩ = some cell ∧
          session.step now (.perform id (.read source length)) =
            .ok (after, .performed (.error (.aborted (.versionTooNew
              (.ofWord config.align.toNat source.segment (word + index)) cell.version
              transaction.snapshot))))
  /-- If it was not published, the transaction may write, and the bytes of an entry are
  reported. -/
  short : ∀ source length segment word count,
    session.region.Located source length.toNat segment word count → ∀ index < count,
      (∀ earlier < index,
        published (.ofWord config.align.toNat source.segment (word + earlier)) = false ∧
        transaction.roomToRead now earlier = .ok ()) →
      published (.ofWord config.align.toNat source.segment (word + index)) = false →
      transaction.roomToRead now index ≠ .ok () →
        transaction.mode.isReadOnly = false ∧
        ∃ after, session.step now (.perform id (.read source length)) =
          .ok (after, .performed (.error (.outOfMemory (UInt64.ofNat ReadEntry.bytes))))
  /-- Otherwise it succeeds. -/
  succeeds : ∀ source length segment word count,
    session.region.Located source length.toNat segment word count →
      (∀ index < count,
        published (.ofWord config.align.toNat source.segment (word + index)) = false ∧
        transaction.roomToRead now index = .ok ()) →
        ∃ after bytes, session.step now (.perform id (.read source length)) =
          .ok (after, .performed (.ok (.bytes bytes)))
  /-- A commit fails if it has something to publish or to free and a word that was read was
  published, and names the first of these in the order of the reads. -/
  commits : ∃ after, session.step now (.commit id) = .ok (after, .committed (
    if deeds.any Deed.draws = true then
      match (deeds.flatMap (·.wordsRead config.align.toNat)).find? published with
      | some address => .error (.aborted (.validationFailed address))
      | none => .ok (session.region.coordinator.clock + 1)
    else .ok transaction.snapshot))
  /-- It comes to the same if the check of what was read is never skipped. -/
  skips : ∃ skipping checking,
    session.region.coordinator.commit digest session.region.memory transaction =
      .ok skipping ∧
    session.region.coordinator.commitBy (fun _ _ => true) digest session.region.memory
      transaction = .ok checking ∧
    skipping.result = checking.result ∧ skipping.memory = checking.memory ∧
    skipping.coordinator = checking.coordinator

namespace Session.Reached

variable {digest : Digest} {machine now : Machine digest} {session after middle : Session}
  {config : RegionConfig} {actions earlier later : List Action}
  {answers before beyond : List Answer} {id : TransactionId} {transaction : Transaction}

section Deciding

variable {published : Address → Bool} {source : Address} {length : UInt64} {segment : Handle}
  {word count : Nat} (reached : Reached machine config actions answers session)
  (found : session.find? id = some transaction) (active : transaction.status = .active)
  (marks : session.region.MarksNewer transaction.snapshot published)

section Hitches

variable {index : Nat}
  (located : session.region.Located source length.toNat segment word count) (below : index < count)

include reached marks located below

/-- A word that was published cannot be read. -/
theorem hitch?_of_published
    (written : published (.ofWord config.align.toNat source.segment (word + index)) = true) :
    ∃ cell, session.region.memory.cell? ⟨segment, word + index⟩ = some cell ∧
      transaction.hitch? now session.region.memory
          (.ofWord session.region.config.align.toNat source.segment (word + index))
          ⟨segment, word + index⟩ index =
        some (.aborted (.versionTooNew (.ofWord config.align.toNat source.segment (word + index))
          cell.version transaction.snapshot)) := by
  have valid := reached.tracked.2.1.valid
  have named := Region.Names.of_located located valid (Nat.add_lt_add_left below word)
  rcases named.cell valid with ⟨cell, here⟩
  have newer := marks _ _ cell named here
  rw [reached.config_eq] at newer ⊢
  exact ⟨cell, here, reached.rested.hitch?_of_newer here (newer.mp written) now index⟩

/-- Any other word can be read if there is room to log it. -/
theorem hitch?_of_untouched
    (untouched : published (.ofWord config.align.toNat source.segment (word + index)) = false)
    (now : Machine digest) :
    transaction.hitch? now session.region.memory
        (.ofWord session.region.config.align.toNat source.segment (word + index))
        ⟨segment, word + index⟩ index =
      match transaction.roomToRead now index with
      | .error failure => some failure
      | .ok () => none := by
  have valid := reached.tracked.2.1.valid
  have named := Region.Names.of_located located valid (Nat.add_lt_add_left below word)
  rcases named.cell valid with ⟨cell, here⟩
  have newer := marks _ _ cell named here
  rw [reached.config_eq, untouched] at newer
  apply reached.rested.hitch?_of_old here
  exact fun late => Bool.false_ne_true (newer.mpr late)

end Hitches

include reached marks

/-- Words none of which was published can be read, as far as there is room to log them. -/
theorem hitch?_eq_none_of_untouched {index : Nat}
    (located : session.region.Located source length.toNat segment word count)
    (clear : ∀ earlier < index,
      published (.ofWord config.align.toNat source.segment (word + earlier)) = false ∧
      transaction.roomToRead now earlier = .ok ()) (within : index ≤ count) :
    ∀ earlier < index, transaction.hitch? now session.region.memory
      (.ofWord session.region.config.align.toNat source.segment (word + earlier))
      ⟨segment, word + earlier⟩ earlier = none := by
  intro earlier before
  rcases clear earlier before with ⟨untouched, room⟩
  rw [reached.hitch?_of_untouched marks located (Nat.lt_of_lt_of_le before within) untouched,
    room]

include found active

/-- A read fails if one of its words was published, or cannot be logged, and only then. -/
theorem read_fails_iff (located : session.region.Located source length.toNat segment word count) :
    (∃ after failure, session.step now (.perform id (.read source length)) =
        .ok (after, .performed (.error failure))) ↔
      ∃ index < count,
        published (.ofWord config.align.toNat source.segment (word + index)) = true ∨
        transaction.roomToRead now index ≠ .ok () := by
  have verdict := reached.read_decided found active located now
  constructor
  · rintro ⟨after, failure, failed⟩
    by_contra untouched
    simp only [not_exists, not_and, not_or, Bool.not_eq_true, not_not] at untouched
    have clear := reached.hitch?_eq_none_of_untouched marks located untouched (Nat.le_refl _)
    rw [Region.hitch?, List.findSome?_eq_none_iff.mpr
      (fun index member => clear index (List.mem_range.mp member))] at verdict
    rcases verdict with ⟨_, _, succeeded⟩
    rw [failed] at succeeded
    cases succeeded
  · rintro ⟨index, below, why⟩
    have hitch : (transaction.hitch? now session.region.memory
        (.ofWord session.region.config.align.toNat source.segment (word + index))
        ⟨segment, word + index⟩ index).isSome := by
      cases written : published (.ofWord config.align.toNat source.segment (word + index)) with
      | true =>
          rcases reached.hitch?_of_published marks located below written with
            ⟨_, _, hitch⟩
          rw [hitch]
          rfl
      | false =>
          rw [reached.hitch?_of_untouched marks located below written now]
          cases room : transaction.roomToRead now index with
          | error failure => rfl
          | ok =>
              rw [written] at why
              exact absurd room (why.resolve_left Bool.false_ne_true)
    have hindered : (session.region.hitch? now transaction source.segment segment word
        count).isSome := by
      rw [Region.hitch?, List.findSome?_isSome_iff]
      exact ⟨index, List.mem_range.mpr below, hitch⟩
    rcases Option.isSome_iff_exists.mp hindered with ⟨failure, which⟩
    rw [which] at verdict
    exact ⟨_, failure, verdict.choose_spec⟩

/-- An active transaction is decided by what was published since its snapshot. -/
theorem decided :
    session.DecidedBy now config id transaction (deedsOf id actions answers) published where
  fails_iff := fun _ _ _ _ _ located => reached.read_fails_iff found active marks located
  conflict := by
    intro source length segment word count located index below clear written
    have verdict := reached.read_decided found active located now
    rcases reached.hitch?_of_published marks located below written with
      ⟨cell, here, hitch⟩
    have quiet := reached.hitch?_eq_none_of_untouched marks located clear (Nat.le_of_lt below)
    rw [Region.hitch?, List.findSome?_range below quiet hitch] at verdict
    exact ⟨verdict.choose, cell, here, verdict.choose_spec⟩
  short := by
    intro source length segment word count located index below clear untouched refused
    have verdict := reached.read_decided found active located now
    have hitch := reached.hitch?_of_untouched marks located below untouched now
    have quiet := reached.hitch?_eq_none_of_untouched marks located clear (Nat.le_of_lt below)
    cases room : transaction.roomToRead now index with
    | ok => exact absurd room refused
    | error failure =>
        rw [room] at hitch
        rcases Transaction.eq_of_roomToRead room with ⟨readWrite, rfl⟩
        rw [Region.hitch?, List.findSome?_range below quiet hitch] at verdict
        exact ⟨readWrite, verdict⟩
  succeeds := by
    intro source length segment word count located clear
    have verdict := reached.read_decided found active located now
    have quiet := reached.hitch?_eq_none_of_untouched marks located clear (Nat.le_refl _)
    rw [Region.hitch?, List.findSome?_eq_none_iff.mpr
      (fun index member => quiet index (List.mem_range.mp member))] at verdict
    exact verdict
  commits := (reached.commit_decided found active marks).imp fun _ => And.left
  skips := reached.commitBy_always found active

end Deciding

/-- Conflicts are detected exactly.  Any transaction that is active is decided by what others
published since it began, and meets no conflict if it ran alone since then; and no step of
any transaction ever fails, and none is ever doomed, for a reason that needs a commit under
way at the same time. -/
theorem conflicts_exact (reached : Reached machine config actions answers session) :
    (∀ id transaction, session.find? id = some transaction → transaction.status = .active →
      ∃ earlier mode later before beyond, actions = earlier ++ .begin mode :: later ∧
        answers = before ++ .began (.ok id) :: beyond ∧ before.length = earlier.length ∧
        .began (.ok id) ∉ before ∧ .began (.ok id) ∉ beyond ∧
        ∀ now : Machine digest,
          session.DecidedBy now config id transaction (deedsOf id actions answers)
            (publishedIn config.align.toNat actions answers later beyond) ∧
          ((∀ action ∈ later, action.owner? = some id) →
            (∃ after version, session.step now (.commit id) =
              .ok (after, .committed (.ok version))) ∧
            ∀ operation after failure, operation.Sized →
              session.step now (.perform id operation) =
                .ok (after, .performed (.error failure)) → failure.abortReason? = none)) ∧
    (∀ answer ∈ answers, ∀ reason, answer.failure? = some (.aborted reason) →
      reason.isRace = false) ∧
    ∀ id transaction reason, session.find? id = some transaction →
      transaction.status = .aborted reason → reason.isRace = false := by
  refine ⟨?_, ?_, ?_⟩
  · intro id transaction found active
    rcases reached.began id transaction found with
      ⟨earlier, mode, later, before, beyond, middle, rfl, rfl, paired, start, snapshot⟩
    rcases reached.began_once with ⟨first, last⟩
    refine ⟨earlier, mode, later, before, beyond, rfl, rfl, paired, first, last,
      fun now => ⟨?_, ?_⟩⟩
    · apply reached.decided found active
      rw [snapshot]
      exact start.marksNewer paired reached
    intro alone
    have latest := start.clock_of_alone paired reached found alone
    rw [← snapshot] at latest
    refine ⟨reached.commits_of_latest found active latest, ?_⟩
    exact fun operation after failure sized failed =>
      reached.blameless_of_latest found active latest sized failed
  · intro answer member reason failed
    exact Failure.isRace_of_isOrderly (reached.orderly answer member _ failed)
  · intro id transaction reason found doomed
    rcases reached.standing id transaction found with active | ⟨failure, because, orderly⟩
    · rw [doomed] at active
      cases active
    · rw [doomed, Status.aborted.injEq] at because
      rw [because]
      exact Failure.isRace_ofFailure orderly

end Session.Reached

namespace Session

/-- Transaction 2 read word 0 before transaction 1 published it, and wrote word 1. -/
def contested : List Action :=
  [.begin .readWrite, .begin .readWrite, .perform ⟨2⟩ (.read ⟨.first, 0⟩ 8),
    .perform ⟨2⟩ (.write (List.replicate 8 2) ⟨.first, 8⟩),
    .perform ⟨1⟩ (.write (List.replicate 8 1) ⟨.first, 0⟩), .commit ⟨1⟩]

def contestedAnswers : List Answer :=
  [.began (.ok ⟨1⟩), .began (.ok ⟨2⟩), .performed (.ok (.bytes (List.replicate 8 0))),
    .performed (.ok .done), .performed (.ok .done), .committed (.ok 1)]

theorem conflicts_exact_contested : ∃ session transaction,
    Reached (.limited 1000) threeWords contested contestedAnswers session ∧
    session.find? ⟨2⟩ = some transaction ∧ transaction.status = .active ∧
    (∃ after failure, session.step (.limited 1000) (.perform ⟨2⟩ (.read ⟨.first, 0⟩ 24)) =
      .ok (after, .performed (.error failure))) ∧
    (∃ after, session.step (.limited 1000) (.commit ⟨2⟩) =
      .ok (after, .committed (.error (.aborted (.validationFailed ⟨.first, 0⟩))))) ∧
    ∀ answer ∈ contestedAnswers, ∀ reason, answer.failure? = some (.aborted reason) →
      reason.isRace = false := by
  have computed : seenAfter (fun session => ((session.find? ⟨2⟩).map (·.status),
      session.region.table.slot? .first, session.region.memory.layout 0,
      session.region.config.align)) (.limited 1000) threeWords contested =
      some ((some .active, some (.live 0), some (8, 24), 8), contestedAnswers) := by cbv
  have sized : ∀ action ∈ contested, action.Sized := by
    simp [contested, Action.Sized, Operation.Sized]
  rcases Reached.of_seenAfter computed (by decide) sized with ⟨session, reached, seen⟩
  simp only [Prod.mk.injEq, Option.map_eq_some_iff] at seen
  rcases seen with ⟨⟨transaction, found, active⟩, live, laidOut, align⟩
  rcases reached.conflicts_exact with ⟨decided, orderly, _⟩
  rcases decided ⟨2⟩ transaction found active with
    ⟨earlier, mode, later, before, beyond, actionsEq, answersEq, paired, absent, _, decided⟩
  have split : [.began (.ok ⟨1⟩)] ++ .began (.ok ⟨2⟩) :: contestedAnswers.drop 2 =
      before ++ .began (.ok ⟨2⟩) :: beyond := answersEq
  rcases (List.append_cons_inj_of_notMem (by simp) (by simp [contestedAnswers])).mp split with
    ⟨rfl, _, rfl⟩
  have halves : [.begin .readWrite] ++ .begin .readWrite :: contested.drop 2 =
      earlier ++ .begin mode :: later := actionsEq
  rcases List.append_inj halves paired with ⟨rfl, rest⟩
  cases rest
  have located : session.region.Located ⟨.first, 0⟩ (24 : UInt64).toNat 0 0 3 := by
    refine ⟨live, ?_, ?_, by decide, 8, 24, laidOut, by decide⟩
    · rw [align]
      rfl
    · rw [align]
      rfl
  rcases decided (.limited 1000) with ⟨decided, _⟩
  refine ⟨session, transaction, reached, found, active, ?_, decided.commits, orderly⟩
  exact (decided.fails_iff _ _ _ _ _ located).mpr ⟨0, by decide, .inl (by decide)⟩

/-- A transaction cannot read a word that nobody published, as there is no room to log it. -/
theorem untouched_read_refused : ∃ session transaction,
    Reached (.limited 100) threeWords [.begin .readWrite] [.began (.ok ⟨1⟩)] session ∧
    session.find? ⟨1⟩ = some transaction ∧ transaction.status = .active ∧
    session.region.Located ⟨.first, 0⟩ (8 : UInt64).toNat 0 0 1 ∧
    (∀ address, publishedIn 8 [.begin .readWrite] [.began (.ok ⟨1⟩)] [] [] address = false) ∧
    ∃ after, session.step (.limited 100) (.perform ⟨1⟩ (.read ⟨.first, 0⟩ 8)) =
      .ok (after, .performed (.error (.outOfMemory 32))) := by
  have computed : seenAfter (fun session => ((session.find? ⟨1⟩).map (·.status),
      session.region.table.slot? .first, session.region.memory.layout 0,
      session.region.config.align)) (.limited 100) threeWords [.begin .readWrite] =
      some ((some .active, some (.live 0), some (8, 24), 8), [.began (.ok ⟨1⟩)]) := by cbv
  have ended : seenAfter (fun session => ((session.find? ⟨1⟩).map (·.status),
      session.region.table.slot? .first, session.region.memory.layout 0,
      session.region.config.align)) (.limited 100) threeWords
      ([.begin .readWrite] ++ [.perform ⟨1⟩ (.read ⟨.first, 0⟩ 8)]) =
      some ((some (.aborted .resourceExhausted), some (.live 0), some (8, 24), 8),
        [.began (.ok ⟨1⟩)] ++ [.performed (.error (.outOfMemory 32))]) := by cbv
  have sized : ∀ action ∈ [Action.begin .readWrite] ++ [.perform ⟨1⟩ (.read ⟨.first, 0⟩ 8)],
      action.Sized := by
    simp [Action.Sized, Operation.Sized]
  rcases Reached.of_seenAfter_snoc computed ended (by decide) sized with
    ⟨session, after, reached, refused, seen, _⟩
  simp only [Prod.mk.injEq, Option.map_eq_some_iff] at seen
  rcases seen with ⟨⟨transaction, found, active⟩, live, laidOut, align⟩
  refine ⟨session, transaction, reached, found, active, ?_, fun _ => rfl, after, refused⟩
  refine ⟨live, ?_, ?_, by decide, 8, 24, laidOut, by decide⟩
  · rw [align]
    rfl
  · rw [align]
    rfl

end Session

end WordStm
