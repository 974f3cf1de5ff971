import WordStm.Proofs.Provision
import WordStm.Proofs.Running

/-!
# Trying again

An attempt runs the body in a transaction that has just begun, and ends it: the body failed
and the transaction is rolled back, or its commit is refused, or it commits.  A body that
lost a conflict is tried again, in a new transaction, and in no other case.

So the last attempt decides the result, all attempts before it lost conflicts, and only
the last one can have committed.
-/

namespace WordStm

/-- How an attempt ends. -/
inductive Ending (α : Type) where
  /-- The body failed, and its transaction was given up. -/
  | rolledBack (failure : Failure)
  /-- The body returned a value, but its transaction did not commit. -/
  | refused (value : α) (failure : Failure)
  | committed (value : α) (version : Version)

namespace Ending

variable {α : Type} {ending : Ending α}

/-- What the body returned. -/
def returned : Ending α → Except Failure α
  | rolledBack failure => .error failure
  | refused value _ | committed value _ => .ok value

/-- What the attempt comes to. -/
def result : Ending α → Except Failure α
  | rolledBack failure | refused _ failure => .error failure
  | committed value _ => .ok value

def isCommitted : Ending α → Bool
  | rolledBack _ | refused .. => false
  | committed .. => true

/-- Whether a conflict was lost. -/
def isLost : Ending α → Bool
  | rolledBack failure | refused _ failure => failure.isRetryable
  | committed .. => false

@[simp] theorem isOk_result (ending : Ending α) : ending.result.isOk = ending.isCommitted := by
  cases ending <;> rfl

theorem result_eq_ok {value : α} :
    ending.result = .ok value ↔ ending.returned = .ok value ∧ ending.isCommitted = true := by
  cases ending <;> simp [result, returned, isCommitted]

theorem isLost_iff : ending.isLost = true ↔
    ∃ failure, ending.result = .error failure ∧ failure.isRetryable = true := by
  cases ending <;> simp [isLost, result]

theorem isCommitted_of_isLost (lost : ending.isLost = true) : ending.isCommitted = false := by
  cases ending with
  | rolledBack | refused => rfl
  | committed => cases lost

end Ending

namespace Region

/-- A transaction has just begun: it is the next one, it sees the clock as it is now, and
nothing has been done in it. -/
structure Opens {digest : Digest} (machine : Machine digest) (mode : AccessMode)
    (region opened : Region) (transaction : Transaction) : Prop where
  begun : region.begin machine mode = .ok (opened, .ok transaction)
  id : transaction.id = ⟨region.coordinator.nextId⟩
  mode : transaction.mode = mode
  snapshot : transaction.snapshot = region.coordinator.clock
  active : transaction.status = .active
  empty : ∃ filter, transaction.log = .empty filter

/-- A transaction is ended after its body has run. -/
inductive Ends {α : Type} (digest : Digest) (region : Region) (transaction : Transaction) :
    Region → Ending α → Prop where
  | rolledBack (failure : Failure) :
      Ends digest region transaction (region.rollback transaction).1 (.rolledBack failure)
  | refused {after : Region} {ended : Transaction} {failure : Failure} (value : α)
      (committed : region.commit digest transaction = .ok (after, ended, .error failure)) :
      Ends digest region transaction after (.refused value failure)
  | committed {after : Region} {ended : Transaction} {version : Version} (value : α)
      (committed : region.commit digest transaction = .ok (after, ended, .ok version)) :
      Ends digest region transaction after (.committed value version)

variable {σ α : Type} {digest : Digest} {machine : Machine digest} {mode : AccessMode}

/-- One attempt, with how the whole transactions ended that the body ran besides. -/
inductive Attempt (machine : Machine digest) (mode : AccessMode) (region : Region)
    (program : Program (σ × Except Failure α)) :
    Region → σ → Ending α → List Bool → Prop where
  | made {opened ran after : Region} {transaction left : Transaction} {next : σ}
      {ending : Ending α} (opens : region.Opens (machine.during 0) mode opened transaction)
      (executed : opened.execute (machine.during 1) transaction program =
        .ok (ran, left, next, ending.returned))
      (ends : ran.Ends digest left after ending) :
      Attempt machine mode region program after next ending
        (opened.sides (machine.during 1) transaction program)

/-- Attempts one after another, each of which goes on with the state of the one before. -/
inductive Attempts (mode : AccessMode) (body : σ → Program (σ × Except Failure α)) :
    Machine digest → Region → σ → Region → σ → List (Ending α) → List Bool → Prop where
  | nil (machine : Machine digest) (region : Region) (state : σ) :
      Attempts mode body machine region state region state [] []
  | cons {machine : Machine digest} {region middle after : Region} {state between next : σ}
      {ending : Ending α} {endings : List (Ending α)} {sides others : List Bool}
      (first : region.Attempt (machine.during 0) mode (body state) middle between ending sides)
      (rest : Attempts mode body (machine.since 1) middle between after next endings others) :
      Attempts mode body machine region state after next (ending :: endings) (sides ++ others)

/-- What comes of `most` attempts at most. -/
structure Retries (machine : Machine digest) (mode : AccessMode) (most : Nat)
    (body : σ → Program (σ × Except Failure α)) (region : Region) (state : σ)
    (after : Region) (next : σ) (result : Except Failure α) (lost : List (Ending α))
    (last : Ending α) (sides : List Bool) : Prop where
  attempts : Attempts mode body machine region state after next (lost ++ [last]) sides
  few : lost.length + 1 ≤ most
  conflicts : ∀ ending ∈ lost, ∃ failure,
    ending.result = .error failure ∧ failure.isRetryable = true
  decided : result = last.result
  value : ∀ value, result = .ok value ↔ last.returned = .ok value ∧ last.isCommitted = true
  once : (lost ++ [last]).countP Ending.isCommitted = if result.isOk then 1 else 0
  /-- A conflict is the result only if no attempt is left. -/
  exhausted : ∀ failure, result = .error failure → failure.isRetryable = true →
    lost.length + 1 = most
  /-- Each attempt is counted once, as are the other transactions. -/
  tally : after.tally =
    region.tally.counted (List.replicate lost.length false ++ result.isOk :: sides)

/-- There is memory for a transaction to begin. -/
def Begins (machine : Machine digest) (mode : AccessMode) (region : Region) : Prop :=
  ∃ filter, region.filterFor machine mode = .ok (.ok filter)

variable {region middle after opened : Region} {transaction : Transaction} {state between next : σ}
  {program : Program (σ × Except Failure α)} {body : σ → Program (σ × Except Failure α)}
  {ending last : Ending α} {lost : List (Ending α)} {sides others : List Bool}
  {result : Except Failure α} {most more : Nat}

theorem Begins.opens (begins : region.Begins machine mode) :
    ∃ opened transaction, region.Opens machine mode opened transaction := by
  rcases begins with ⟨filter, made⟩
  have begun := region.begin_eq_map machine mode
  rw [made] at begun
  exact ⟨_, _, begun, rfl, rfl, rfl, rfl, filter, rfl⟩

/-- What filters are made of does not change, so that a transaction can begin again. -/
theorem Tallies.begins (tallies : after.Tallies region sides)
    (begins : region.Begins machine mode) : after.Begins machine mode := by
  cases mode with
  | readOnly => exact begins
  | readWrite =>
      rw [Begins, filterFor, tallies.bits, tallies.hashes]
      exact begins

namespace Attempt

/-- An attempt counts its own transaction and those that its body ran. -/
theorem tallies (made : region.Attempt machine mode program after next ending sides) :
    after.Tallies region (sides ++ [ending.isCommitted]) := by
  rcases made with ⟨opens, executed, ends⟩
  have between := Tallies.execute executed
  cases ends with
  | rolledBack failure =>
      rw [rollback, abandon_eq]
      exact .enclose opens.begun between rfl rfl rfl
  | refused value committed | committed value committed =>
      rcases commit_counts committed with ⟨clock, memory, table, rfl⟩
      exact .enclose opens.begun between rfl rfl rfl

end Attempt

/-- What one attempt does, and when another is worth making. -/
theorem attempt_made {again : Bool} (begins : region.Begins (machine.during 0) mode)
    (tried : region.attempt machine mode program state = .ok (after, next, again, result)) :
    ∃ ending sides, region.Attempt machine mode program after next ending sides ∧
      again = ending.isLost ∧ result = ending.result := by
  rcases begins.opens with ⟨opened, transaction, opens⟩
  simp only [attempt, bind_eq_ok, Prod.exists] at tried
  rcases tried with ⟨_, _, begun, tried⟩
  cases opens.begun.symm.trans begun
  simp only [bind_eq_ok, Prod.exists] at tried
  rcases tried with ⟨ran, left, carried, answer, executed, tried⟩
  cases answer with
  | error failure =>
      cases tried
      exact ⟨.rolledBack failure, _, .made opens executed (.rolledBack failure), rfl, rfl⟩
  | ok value =>
      simp only [bind_eq_ok, Prod.exists] at tried
      rcases tried with ⟨settled, ended, answer, committed, tried⟩
      cases answer with
      | error failure =>
          cases tried
          exact ⟨.refused value failure, _,
            .made opens executed (.refused value committed), rfl, rfl⟩
      | ok version =>
          cases tried
          exact ⟨.committed value version, _,
            .made opens executed (.committed value committed), rfl, rfl⟩

namespace Retries

/-- One attempt is all, since it lost no conflict or no other one was allowed. -/
theorem single
    (made : region.Attempt (machine.during 0) mode (body state) after next last sides)
    (positive : 1 ≤ most) (spent : last.isLost = true → most = 1) :
    region.Retries machine mode most body state after next last.result [] last sides where
  attempts := by
    have attempts := Attempts.cons made (.nil _ after next)
    rwa [List.append_nil] at attempts
  few := positive
  conflicts := by
    intro ending impossible
    cases impossible
  decided := rfl
  value := fun _ => Ending.result_eq_ok
  once := by simp [List.countP_cons]
  exhausted := by
    intro failure failed retryable
    exact (spent (Ending.isLost_iff.mpr ⟨failure, failed, retryable⟩)).symm
  tally := by
    rw [made.tallies.tally, Ending.isOk_result]
    exact Tally.counted_perm _ List.perm_append_comm

/-- A lost attempt comes before others. -/
theorem cons
    (made : region.Attempt (machine.during 0) mode (body state) middle between ending sides)
    (conflict : ending.isLost = true)
    (rest : middle.Retries (machine.since 1) mode most body between after next result lost last
      others) :
    region.Retries machine mode (most + 1) body state after next result (ending :: lost) last
      (sides ++ others) where
  attempts := .cons made rest.attempts
  few := Nat.succ_le_succ rest.few
  conflicts := by
    rw [List.forall_mem_cons]
    exact ⟨Ending.isLost_iff.mp conflict, rest.conflicts⟩
  decided := rest.decided
  value := rest.value
  once := by
    rw [List.cons_append, List.countP_cons, Ending.isCommitted_of_isLost conflict]
    exact rest.once
  exhausted := fun failure failed retryable =>
    congrArg Nat.succ (rest.exhausted failure failed retryable)
  tally := by
    rw [rest.tally, made.tallies.tally, Tally.counted_counted,
      Ending.isCommitted_of_isLost conflict]
    apply Tally.counted_perm
    rw [List.perm_iff_count]
    intro committed
    simp only [List.count_append, List.count_cons, List.count_nil, List.length_cons,
      List.replicate_succ]
    omega

end Retries

/-- However many further attempts are allowed, they come to this. -/
theorem attemptUpTo_retries
    (begins : ∀ moment, region.Begins ((machine.during moment).during 0) mode)
    (tried : region.attemptUpTo machine mode body state more = .ok (after, next, result)) :
    ∃ lost last sides,
      region.Retries machine mode (more + 1) body state after next result lost last sides := by
  induction more generalizing region state machine with
  | zero =>
      simp only [attemptUpTo, bind_eq_ok, pure_eq_ok, Prod.exists, Prod.mk.injEq] at tried
      rcases tried with ⟨_, _, _, _, tried, rfl, rfl, rfl⟩
      rcases attempt_made (begins 0) tried with ⟨ending, sides, made, _, rfl⟩
      exact ⟨[], ending, sides, .single made (Nat.le_refl 1) fun _ => rfl⟩
  | succ more ih =>
      simp only [attemptUpTo, bind_eq_ok, Prod.exists] at tried
      rcases tried with ⟨middle, between, again, answer, tried, others⟩
      rcases attempt_made (begins 0) tried with ⟨ending, sides, made, rfl, rfl⟩
      cases conflict : ending.isLost with
      | false =>
          rw [conflict] at others
          cases others
          refine ⟨[], ending, sides, .single made (Nat.le_add_left 1 _) ?_⟩
          intro lost
          cases conflict.symm.trans lost
      | true =>
          rw [conflict] at others
          rcases ih (fun moment => made.tallies.begins (begins (1 + moment))) others with
            ⟨lost, last, more, rest⟩
          exact ⟨ending :: lost, last, sides ++ more, .cons made conflict rest⟩

/-- An attempt comes to its end. -/
theorem attempt_total (state : σ) (begins : region.Begins (machine.during 0) mode)
    (laid : region.LaidOutUnlocked) (room : region.coordinator.filterBits.toNat ≤ 2 ^ 64 - 64)
    (sized : program.Sized) :
    ∃ after next again result,
      region.attempt machine mode program state = .ok (after, next, again, result) ∧
      after.Sustains region := by
  rcases begins.opens with ⟨opened, transaction, ⟨begun⟩⟩
  have sustains : opened.Sustains region := .of_steady laid (begin_eq begun).1
  have kept : transaction.LogValid digest opened := .begin begun
  rw [← congrArg Coordinator.filterBits (begin_eq begun).2.2.1] at room
  rcases execute_total kept sustains.laid room (machine.during 1) sized with
    ⟨ran, left, ⟨next, answer⟩, executed, further, able⟩
  simp only [attempt, begun, executed, bind, Except.bind]
  cases answer with
  | error failure =>
      exact ⟨_, _, _, _, rfl, (Sustains.rollback further.laid left).trans (further.trans sustains)⟩
  | ok value =>
      rcases able.commit_total further.laid with ⟨after, ended, answer, committed, settled⟩
      simp only [committed]
      cases answer with
      | error failure => exact ⟨_, _, _, _, rfl, settled.trans (further.trans sustains)⟩
      | ok version => exact ⟨_, _, _, _, rfl, settled.trans (further.trans sustains)⟩

/-- Attempts come to an end. -/
theorem attemptUpTo_total
    (begins : ∀ moment, region.Begins ((machine.during moment).during 0) mode)
    (laid : region.LaidOutUnlocked) (room : region.coordinator.filterBits.toNat ≤ 2 ^ 64 - 64)
    (sized : ∀ state, (body state).Sized) (more : Nat) :
    ∃ after next result,
      region.attemptUpTo machine mode body state more = .ok (after, next, result) := by
  induction more generalizing region state machine with
  | zero =>
      rcases attempt_total state (begins 0) laid room (sized state) with
        ⟨after, next, again, result, tried, _⟩
      simp only [attemptUpTo, tried, bind, Except.bind]
      exact ⟨_, _, _, rfl⟩
  | succ more ih =>
      rcases attempt_total state (begins 0) laid room (sized state) with
        ⟨middle, between, again, result, tried, sustains⟩
      simp only [attemptUpTo, tried, bind, Except.bind]
      cases again with
      | false => exact ⟨_, _, _, rfl⟩
      | true =>
          rcases attempt_made (begins 0) tried with ⟨_, _, made, _, _⟩
          rw [← made.tallies.bits] at room
          exact ih (fun moment => made.tallies.begins (begins (1 + moment))) sustains.laid room

/-- If there is memory for every transaction to begin, a body is run until it commits or fails
otherwise than by a conflict, and only as often as the policy says.  On a region that is laid
out, as the region of every session is, this comes to an end. -/
theorem atomically_commits_once (policy : RetryPolicy) (body : σ → Program (σ × Except Failure α))
    (state : σ) (begins : ∀ moment, region.Begins ((machine.during moment).during 0) mode) :
    (∀ after next result,
      region.atomically machine mode policy body state = .ok (after, next, result) →
      ∃ lost last sides, region.Retries machine mode (max 1 policy.maxAttempts.toNat) body state
        after next result lost last sides) ∧
    (region.LaidOutUnlocked → (∀ state, (body state).Sized) →
      region.coordinator.filterBits.toNat ≤ 2 ^ 64 - 64 →
      ∃ after next result,
        region.atomically machine mode policy body state = .ok (after, next, result)) := by
  have most : policy.attempts - 1 + 1 = max 1 policy.maxAttempts.toNat :=
    Nat.sub_add_cancel (Nat.le_max_left 1 _)
  constructor
  · intro after next result tried
    rw [← most]
    exact attemptUpTo_retries begins tried
  · intro laid sized room
    exact attemptUpTo_total begins laid room sized _

/-- A body that counts how often it is run.  The first time, another transaction commits over
what it has read. -/
def overtaken (runs : Nat) : Program (Nat × Except Failure Nat) :=
  .call (.read ⟨.first, 0⟩ 8) fun _ =>
    let rest := .call (.write (List.replicate 8 1) ⟨.first, 8⟩) fun _ => .done (runs + 1, .ok runs)
    if runs = 0 then
      .side .readWrite (.ofList [.write (List.replicate 8 2) ⟨.first, 0⟩]) fun _ => rest
    else rest

/-- A new region after a body has been run on it. -/
def retriedAfter (machine : Machine digest) (config : RegionConfig) (mode : AccessMode)
    (policy : RetryPolicy) (body : σ → Program (σ × Except Failure α)) (state : σ) :
    Option (Region × Region × σ × Except Failure α) :=
  match create machine config with
  | .ok (.ok region) =>
      match region.atomically machine mode policy body state with
      | .ok tried => some (region, tried)
      | .error _ => none
  | _ => none

theorem overtaken_sized (runs : Nat) : (overtaken runs).Sized := by
  have short (byte : UInt8) (target : Address) :
      (Operation.write (List.replicate 8 byte) target).Sized := by
    simp [Operation.Sized]
  refine ⟨trivial, fun _ => ?_⟩
  dsimp only
  split
  next => exact ⟨⟨short 2 _, fun _ => trivial⟩, fun _ => ⟨short 1 _, fun _ => trivial⟩⟩
  next => exact ⟨short 1 _, fun _ => trivial⟩

theorem atomically_commits_once_overtaken : ∃ region after lost last sides,
    create (.limited 1000) Session.threeWords = .ok (.ok region) ∧
    (∀ moment, region.Begins (((Machine.limited 1000).during moment).during 0) .readWrite) ∧
    region.atomically (.limited 1000) .readWrite .standard overtaken 0 = .ok (after, 2, .ok 1) ∧
    region.Retries (.limited 1000) .readWrite 64 overtaken 0 after 2 (.ok 1) lost last sides ∧
    after.tally.committed.toNat = 2 ∧ after.tally.aborted.toNat = 1 ∧
    after.tally.active.toNat = 0 := by
  have computed : (retriedAfter (.limited 1000) Session.threeWords .readWrite .standard
      overtaken 0).map (fun seen => (seen.2.2, seen.2.1.tally)) =
        some ((2, .ok 1), ⟨2, 1, 0⟩) := by cbv
  rcases Option.map_eq_some_iff.mp computed with ⟨⟨region, final, next, result⟩, run, seen⟩
  simp only [Prod.mk.injEq] at seen
  rcases seen with ⟨⟨rfl, rfl⟩, tally⟩
  rw [retriedAfter] at run
  split at run
  next created =>
    split at run
    next tried =>
      cases run
      have provided := create_provided created
      have bits : region.coordinator.filterBits = 64 := provided.bits
      have begins : ∀ moment,
          region.Begins (((Machine.limited 1000).during moment).during 0) .readWrite := by
        intro moment
        rw [Begins, filterFor, bits]
        exact ⟨_, rfl⟩
      rcases atomically_commits_once .standard overtaken 0 begins with ⟨right, total⟩
      have room : region.coordinator.filterBits.toNat ≤ 2 ^ 64 - 64 := by
        rw [bits]
        decide
      rcases total (create_laid created) overtaken_sized room with ⟨after, next, result, ran⟩
      cases tried.symm.trans ran
      rcases right _ _ _ ran with ⟨lost, last, sides, retries⟩
      refine ⟨region, final, lost, last, sides, created, begins, ran, retries, ?_⟩
      rw [tally]
      exact ⟨rfl, rfl, rfl⟩
    next => cases run
  next => cases run

end Region

end WordStm
