import WordStm.Proofs.Retirement

/-!
# Commits over freed segments

A commit looks at the words that its transaction read and wrote, and not at the
table.  So a transaction commits even if a segment that it accessed or freed was
retired since then by somebody else.  Whether this happens is decided by the
steps in between that asked for the segment.
-/

namespace WordStm

namespace Deed

/-- Whether a deed succeeds only if a segment is live. -/
def needs (deed : Deed) (id : SegmentId) : Bool :=
  match deed.operation with
  | .read source _ => source.segment == id
  | .write _ target | .free target => target.segment == id
  | .alloc _ => false

theorem needs_of_accesses {deed : Deed} {id : SegmentId} (accesses : deed.accesses id = true) :
    deed.needs id = true := by
  rcases deed with ⟨operation, reply⟩
  cases operation with
  | read | write => exact accesses
  | alloc | free => cases accesses

theorem needs_of_frees {deed : Deed} {id : SegmentId} (frees : deed.frees id = true) :
    deed.needs id = true := by
  rcases deed with ⟨operation, reply⟩
  cases operation with
  | free => exact frees
  | read | write | alloc => cases frees

end Deed

namespace Session

variable {digest : Digest} {machine now : Machine digest} {session after : Session}
  {config : RegionConfig}
  {actions : List Action} {answers : List Answer} {owner : TransactionId} {id : SegmentId}
  {operation : Operation} {reply : Reply} {version : Version}

/-- A segment that an operation accessed or freed is live after it. -/
theorem Reached.live_of_performed (needs : Deed.needs ⟨operation, reply⟩ id = true)
    (reached : Reached machine config (actions ++ [.perform owner operation])
      (answers ++ [.performed (.ok reply)]) session) :
    ∃ segment, session.region.table.slot? id = some (.live segment) := by
  have sized := reached.sized (.perform owner operation) (by simp)
  rcases reached.snoc_answer with ⟨before, first, stepped⟩
  have move := step_moves sized first.tracked.2.1.sound stepped
  cases move with
  | performed found effect =>
      cases effect with
      | read active located words =>
          rw [← beq_iff_eq.mp needs]
          exact ⟨_, located.live⟩
      | write active writable located sound entries =>
          rw [← beq_iff_eq.mp needs]
          exact ⟨_, located.live⟩
      | alloc => cases needs
      | free active writable live =>
          rw [← beq_iff_eq.mp needs]
          exact ⟨_, live⟩

/-- A transaction that commits did not do so before. -/
theorem Reached.not_committed (reached : Reached machine config actions answers session)
    (committed : session.step now (.commit owner) = .ok (after, .committed (.ok version))) :
    ∀ record ∈ committedOf actions answers, record.id ≠ owner := by
  rintro record member rfl
  have tracked := reached.tracked.2.1
  have sized : Action.Sized (.commit record.id) := trivial
  rcases tracked.commit_version (step_moves sized tracked.sound committed) with ⟨draft, known, _⟩
  rw [← reached.commits_eq] at member
  rw [(reached.committed_closed record member).2] at known
  cases known

/-- A transaction that freed a segment retires it by its commit, if it is not gone. -/
theorem Reached.slot?_committed {slot : Slot}
    (reached : Reached machine config actions answers session)
    (committed : session.step now (.commit owner) = .ok (after, .committed (.ok version)))
    (frees : (deedsOf owner actions answers).any (·.frees id) = true)
    (known : session.region.table.slot? id = some slot) :
    after.region.table.slot? id = some (slot.retire version) := by
  have tracked := reached.tracked.2.1
  have sized : Action.Sized (.commit owner) := trivial
  have move := step_moves sized tracked.sound committed
  rcases tracked.commit_version move with ⟨draft, present, settled⟩
  rw [← reached.draft_deeds owner draft present] at frees
  have slotAfter := tracked.slot?_step move known
  rw [Ledger.isSome_retirement?_committed present, show draft.frees id = true from frees]
    at slotAfter
  rcases settled with ⟨_, _, clock⟩ | ⟨quiet, _⟩
  · rw [clock] at slotAfter
    exact slotAfter
  · rw [Draft.draws_of_frees frees] at quiet
    cases quiet

variable {earlier later : List Action} {before beyond : List Answer}

/-- What became of a segment since an operation accessed or freed it. -/
theorem Reached.fate_of_performed (paired : before.length = earlier.length)
    (needs : Deed.needs ⟨operation, reply⟩ id = true)
    (reached : Reached machine config (earlier ++ .perform owner operation :: later)
      (before ++ .performed (.ok reply) :: beyond) session) :
    ∃ segment, Fate session.region
      (committedOf (earlier ++ .perform owner operation :: later)
        (before ++ .performed (.ok reply) :: beyond)) id segment
      ((Ledger.of (earlier ++ [.perform owner operation])
        (before ++ [.performed (.ok reply)])).retirements id later beyond) := by
  rw [← reached.commits_eq]
  rw [List.append_cons, List.append_cons before] at reached ⊢
  have cutHere : (before ++ [Answer.performed (.ok reply)]).length =
      (earlier ++ [Action.perform owner operation]).length := by simp [paired]
  rcases reached.cut cutHere with ⟨middle, start, _⟩
  rcases start.live_of_performed needs with ⟨segment, live⟩
  exact ⟨segment, start.fate cutHere live reached⟩

/-- A transaction that accessed a segment commits at a version of its own although another
one freed the segment at an earlier version, exactly if of all steps since the access that
asked for the segment the first was the commit of a transaction that freed it. -/
theorem Reached.commit_over_freed_iff (paired : before.length = earlier.length)
    (reached : Reached machine config (earlier ++ .perform owner operation :: later)
      (before ++ .performed (.ok reply) :: beyond) session)
    (accesses : Deed.accesses ⟨operation, reply⟩ id = true)
    (committed : session.step now (.commit owner) = .ok (after, .committed (.ok version)))
    (drawn : session.region.coordinator.clock < version) :
    (∃ record ∈ committedOf (earlier ++ .perform owner operation :: later)
        (before ++ .performed (.ok reply) :: beyond),
      record.id ≠ owner ∧ record.version < version ∧ record.frees id = true ∧
        ∃ segment, session.region.table.slot? id = some (.retired segment record.version)) ↔
      ((Ledger.of (earlier ++ [.perform owner operation])
        (before ++ [.performed (.ok reply)])).retirements id later beyond).head? = some .freed := by
  rcases reached.fate_of_performed paired (Deed.needs_of_accesses accesses) with ⟨segment, fate⟩
  constructor
  · rintro ⟨record, member, _, _, frees, gone, slot⟩
    cases asked : (Ledger.of (earlier ++ [.perform owner operation])
        (before ++ [.performed (.ok reply)])).retirements id later beyond with
    | nil =>
        rw [fate.untouched asked] at slot
        cases slot
    | cons first rest =>
        cases first with
        | freed => rfl
        | dropped =>
            rcases fate.dropped (by rw [asked]; rfl) with ⟨dropped, _, known, older⟩
            rw [known] at slot
            cases slot
            exact absurd (older record member frees) (UInt64.lt_irrefl _)
  · intro first
    rcases fate.freed first with ⟨record, member, frees, slot⟩
    have past : record.version ≤ session.region.coordinator.clock := by
      rw [← reached.commits_eq] at member
      exact reached.tracked.2.1.serial.bounded record member
    exact ⟨record, member, reached.not_committed committed record member,
      UInt64.lt_of_le_of_lt past drawn, frees, segment, slot⟩

/-- Transactions 2 and 3 are open, and segment 2 is there. -/
def sharing : List Action :=
  [.begin .readWrite, .perform ⟨1⟩ (.alloc 8), .commit ⟨1⟩, .begin .readWrite, .begin .readWrite]

def sharingAnswers : List Answer :=
  [.began (.ok ⟨1⟩), .performed (.ok (.address ⟨⟨2⟩, 0⟩)), .committed (.ok 0), .began (.ok ⟨2⟩),
    .began (.ok ⟨3⟩)]

/-- Transaction 3 frees segment 2 and gives up, and transaction 2 writes to it. -/
def givenUp : List Action :=
  [.perform ⟨3⟩ (.free ⟨⟨2⟩, 0⟩), .rollback ⟨3⟩,
    .perform ⟨2⟩ (.write (List.replicate 8 2) ⟨⟨2⟩, 0⟩)]

def givenUpAnswers : List Answer := [.performed (.ok .done), .ended, .performed (.ok .done)]

theorem commit_over_freed_iff_givenUp : ∃ session after,
    Reached (.limited 1000) threeWords
      (sharing ++ .perform ⟨2⟩ (.read ⟨⟨2⟩, 0⟩ 8) :: givenUp)
      (sharingAnswers ++ .performed (.ok (.bytes (List.replicate 8 0))) :: givenUpAnswers)
      session ∧
    session.step (.limited 1000) (.commit ⟨2⟩) = .ok (after, .committed (.ok 1)) ∧
    ¬∃ record ∈ committedOf (sharing ++ .perform ⟨2⟩ (.read ⟨⟨2⟩, 0⟩ 8) :: givenUp)
        (sharingAnswers ++ .performed (.ok (.bytes (List.replicate 8 0))) :: givenUpAnswers),
      record.id ≠ ⟨2⟩ ∧ record.version < 1 ∧ record.frees ⟨2⟩ = true ∧
        ∃ segment, session.region.table.slot? ⟨2⟩ = some (.retired segment record.version) := by
  have computed : seenAfter (·.region.coordinator.clock) (.limited 1000) threeWords
      (sharing ++ .perform ⟨2⟩ (.read ⟨⟨2⟩, 0⟩ 8) :: givenUp) =
      some (0, sharingAnswers ++
        .performed (.ok (.bytes (List.replicate 8 0))) :: givenUpAnswers) := by cbv
  have ended : seenAfter (·.region.coordinator.clock) (.limited 1000) threeWords
      (sharing ++ .perform ⟨2⟩ (.read ⟨⟨2⟩, 0⟩ 8) :: givenUp ++ [.commit ⟨2⟩]) =
      some (1, sharingAnswers ++
        .performed (.ok (.bytes (List.replicate 8 0))) :: givenUpAnswers ++
        [.committed (.ok 1)]) := by cbv
  have sized : ∀ action ∈ sharing ++ .perform ⟨2⟩ (.read ⟨⟨2⟩, 0⟩ 8) :: givenUp ++ [.commit ⟨2⟩],
      action.Sized := by
    simp [sharing, givenUp, Action.Sized, Operation.Sized]
  rcases Reached.of_seenAfter_snoc computed ended (by decide) sized with
    ⟨session, after, reached, committed, clock, _⟩
  have drawn : session.region.coordinator.clock < 1 := by
    rw [clock]
    decide
  refine ⟨session, after, reached, committed, ?_⟩
  rw [Reached.commit_over_freed_iff rfl reached rfl committed drawn]
  decide

/-- Transaction 2 reads segment 2; transaction 3 overwrites word 0, frees the segment and
commits; and transaction 2 overwrites word 0 as well. -/
def overtaken : List Action :=
  sharing ++ [.perform ⟨2⟩ (.read ⟨⟨2⟩, 0⟩ 8),
    .perform ⟨3⟩ (.write (List.replicate 8 3) ⟨.first, 0⟩), .perform ⟨3⟩ (.free ⟨⟨2⟩, 0⟩),
    .commit ⟨3⟩, .perform ⟨2⟩ (.write (List.replicate 8 2) ⟨.first, 0⟩)]

def overtakenAnswers : List Answer :=
  sharingAnswers ++ [.performed (.ok (.bytes (List.replicate 8 0))), .performed (.ok .done),
    .performed (.ok .done), .committed (.ok 1), .performed (.ok .done)]

/-- Transaction 2 commits although the segment that it read was freed at version 1.  It
cannot have run behind transaction 3, which freed the segment, nor in front of it, as
what transaction 2 wrote to word 0 stays. -/
theorem overtaken_commits : ∃ session after,
    Reached (.limited 1000) threeWords overtaken overtakenAnswers session ∧
    session.step (.limited 1000) (.commit ⟨2⟩) = .ok (after, .committed (.ok 2)) ∧
    session.region.coordinator.clock < 2 ∧
    (deedsOf ⟨2⟩ overtaken overtakenAnswers).any (·.accesses ⟨2⟩) = true ∧
    ∃ record ∈ committedOf overtaken overtakenAnswers,
      record.id ≠ ⟨2⟩ ∧ record.version < 2 ∧ record.frees ⟨2⟩ = true ∧
        ∃ segment, session.region.table.slot? ⟨2⟩ = some (.retired segment record.version) := by
  have computed : seenAfter (fun session => (session.region.coordinator.clock,
      session.region.table.slot? ⟨2⟩)) (.limited 1000) threeWords overtaken =
      some ((1, some (.retired 1 1)), overtakenAnswers) := by cbv
  have ended : seenAfter (fun session => (session.region.coordinator.clock,
      session.region.table.slot? ⟨2⟩)) (.limited 1000) threeWords (overtaken ++ [.commit ⟨2⟩]) =
      some ((2, some (.retired 1 1)), overtakenAnswers ++ [.committed (.ok 2)]) := by cbv
  have sized : ∀ action ∈ overtaken ++ [.commit ⟨2⟩], action.Sized := by
    simp [overtaken, sharing, Action.Sized, Operation.Sized]
  rcases Reached.of_seenAfter_snoc computed ended (by decide) sized with
    ⟨session, after, reached, committed, seen, _⟩
  rw [Prod.mk.injEq] at seen
  rcases seen with ⟨clock, slot⟩
  have freed : ∃ record ∈ committedOf overtaken overtakenAnswers,
      record.id ≠ ⟨2⟩ ∧ record.version < 2 ∧ record.frees ⟨2⟩ = true ∧ record.version = 1 := by
    decide
  rcases freed with ⟨record, member, other, earlier, frees, version⟩
  refine ⟨session, after, reached, committed, ?_, rfl, record, member, other, earlier, frees, 1, ?_⟩
  · rw [clock]
    decide
  · rw [slot, version]

/-- When a transaction that freed a segment commits, the segment is live and is retired
as of the version of the commit, exactly if no step since the free asked for it.  Another
transaction that freed it committed before, exactly if one of those steps was its commit. -/
theorem Reached.free_retires_iff {target : Address} (paired : before.length = earlier.length)
    (reached : Reached machine config (earlier ++ .perform owner (.free target) :: later)
      (before ++ .performed (.ok reply) :: beyond) session)
    (committed : session.step now (.commit owner) = .ok (after, .committed (.ok version))) :
    ((∃ segment, session.region.table.slot? target.segment = some (.live segment) ∧
        after.region.table.slot? target.segment = some (.retired segment version)) ↔
      (Ledger.of (earlier ++ [.perform owner (.free target)])
        (before ++ [.performed (.ok reply)])).retirements target.segment later beyond = []) ∧
    ((∃ record ∈ committedOf (earlier ++ .perform owner (.free target) :: later)
        (before ++ .performed (.ok reply) :: beyond),
        record.id ≠ owner ∧ record.frees target.segment = true) ↔
      .freed ∈ (Ledger.of (earlier ++ [.perform owner (.free target)])
        (before ++ [.performed (.ok reply)])).retirements target.segment later beyond) := by
  rcases reached.fate_of_performed paired (Deed.needs_of_frees (beq_self_eq_true _)) with
    ⟨segment, fate⟩
  have frees : (deedsOf owner (earlier ++ .perform owner (.free target) :: later)
      (before ++ .performed (.ok reply) :: beyond)).any (·.frees target.segment) = true :=
    List.any_eq_true.mpr ⟨_, mem_deedsOf paired owner _ _, beq_self_eq_true _⟩
  constructor
  · constructor
    · rintro ⟨_, live, _⟩
      by_contra asked
      rcases fate.slot?_of_asked asked with ⟨_, gone⟩
      rw [live] at gone
      cases gone
    · intro nothing
      have live := fate.untouched nothing
      exact ⟨segment, live, reached.slot?_committed committed frees live⟩
  · rw [← fate.recorded]
    constructor
    · rintro ⟨record, member, _, freed⟩
      exact ⟨record, member, freed⟩
    · rintro ⟨record, member, freed⟩
      exact ⟨record, member, reached.not_committed committed record member, freed⟩

def alsoFreed : List Action := [.perform ⟨3⟩ (.free ⟨⟨2⟩, 0⟩)]

def alsoFreedAnswers : List Answer := [.performed (.ok .done)]

/-- Of two transactions that freed segment 2 the first to commit retires it. -/
theorem free_retires_iff_first : ∃ session after,
    Reached (.limited 1000) threeWords
      (sharing ++ .perform ⟨2⟩ (.free ⟨⟨2⟩, 0⟩) :: alsoFreed)
      (sharingAnswers ++ .performed (.ok .done) :: alsoFreedAnswers) session ∧
    session.step (.limited 1000) (.commit ⟨2⟩) = .ok (after, .committed (.ok 1)) ∧
    (∃ segment, session.region.table.slot? ⟨2⟩ = some (.live segment) ∧
      after.region.table.slot? ⟨2⟩ = some (.retired segment 1)) ∧
    ¬∃ record ∈ committedOf (sharing ++ .perform ⟨2⟩ (.free ⟨⟨2⟩, 0⟩) :: alsoFreed)
        (sharingAnswers ++ .performed (.ok .done) :: alsoFreedAnswers),
      record.id ≠ ⟨2⟩ ∧ record.frees ⟨2⟩ = true := by
  have computed : seenAfter (·.region.coordinator.clock) (.limited 1000) threeWords
      (sharing ++ .perform ⟨2⟩ (.free ⟨⟨2⟩, 0⟩) :: alsoFreed) =
      some (0, sharingAnswers ++ .performed (.ok .done) :: alsoFreedAnswers) := by cbv
  have ended : seenAfter (·.region.coordinator.clock) (.limited 1000) threeWords
      (sharing ++ .perform ⟨2⟩ (.free ⟨⟨2⟩, 0⟩) :: alsoFreed ++ [.commit ⟨2⟩]) =
      some (1, sharingAnswers ++ .performed (.ok .done) :: alsoFreedAnswers ++
        [.committed (.ok 1)]) := by cbv
  have sized : ∀ action ∈ sharing ++ .perform ⟨2⟩ (.free ⟨⟨2⟩, 0⟩) :: alsoFreed ++ [.commit ⟨2⟩],
      action.Sized := by
    simp [sharing, alsoFreed, Action.Sized, Operation.Sized]
  rcases Reached.of_seenAfter_snoc computed ended (by decide) sized with
    ⟨session, after, reached, committed, _⟩
  rcases Reached.free_retires_iff rfl reached committed with ⟨retires, other⟩
  refine ⟨session, after, reached, committed, retires.mpr (by decide), ?_⟩
  rw [other]
  decide

/-- Transactions 2 and 3 free segment 2, and transaction 2 commits. -/
def freedTwice : List Action :=
  sharing ++ [.perform ⟨2⟩ (.free ⟨⟨2⟩, 0⟩), .perform ⟨3⟩ (.free ⟨⟨2⟩, 0⟩), .commit ⟨2⟩]

def freedTwiceAnswers : List Answer :=
  sharingAnswers ++ [.performed (.ok .done), .performed (.ok .done), .committed (.ok 1)]

/-- Transaction 3 commits as well: it finds the segment retired and leaves it so. -/
theorem freedTwice_commits : ∃ session after,
    Reached (.limited 1000) threeWords freedTwice freedTwiceAnswers session ∧
    session.step (.limited 1000) (.commit ⟨3⟩) = .ok (after, .committed (.ok 2)) ∧
    (deedsOf ⟨3⟩ freedTwice freedTwiceAnswers).any (·.frees ⟨2⟩) = true ∧
    session.region.table.slot? ⟨2⟩ = some (.retired 1 1) ∧
    after.region.table.slot? ⟨2⟩ = some (.retired 1 1) ∧
    ∃ record ∈ committedOf freedTwice freedTwiceAnswers,
      record.id ≠ ⟨3⟩ ∧ record.frees ⟨2⟩ = true := by
  have computed : seenAfter (·.region.table.slot? ⟨2⟩) (.limited 1000) threeWords freedTwice =
      some (some (.retired 1 1), freedTwiceAnswers) := by cbv
  have ended : seenAfter (·.region.table.slot? ⟨2⟩) (.limited 1000) threeWords
      (freedTwice ++ [.commit ⟨3⟩]) =
      some (some (.retired 1 1), freedTwiceAnswers ++ [.committed (.ok 2)]) := by cbv
  have sized : ∀ action ∈ freedTwice ++ [.commit ⟨3⟩], action.Sized := by
    simp [freedTwice, sharing, Action.Sized, Operation.Sized]
  rcases Reached.of_seenAfter_snoc computed ended (by decide) sized with
    ⟨session, after, reached, committed, first, last⟩
  exact ⟨session, after, reached, committed, rfl, first, last, by decide⟩

end Session

end WordStm
