import Mathlib.Data.List.TakeWhile
import WordStm.Proofs.Answers
import WordStm.Proofs.Atomicity
import WordStm.Proofs.Lives
import WordStm.Proofs.Traces

/-!
# A doom stays what it was

The first failure dooms a transaction.  From then on all that it asks for fails, and
so does its commit, with one and the same failure: a broken rule is reported as it
was the first time, and everything else as a doom.  Nobody can therefore take a
broken rule for a conflict, and try once more.
-/

namespace WordStm

namespace Failure

/-- What a transaction reports once a failure has doomed it. -/
def lasting : Failure → Failure
  | aborted _ | outOfMemory _ => .aborted .alreadyDoomed
  | failure => failure

/-- A failure that is not itself the report of a rejection is reported as it lasts. -/
theorem doomedFailure_ofFailure {failure : Failure}
    (genuine : ∀ cause, failure ≠ .aborted (.rejected cause)) :
    (AbortReason.ofFailure failure).doomedFailure = failure.lasting := by
  cases failure with
  | aborted reason =>
      cases reason with
      | rejected cause => exact absurd rfl (genuine cause)
      | _ => rfl
  | outOfMemory | invalidLayout | usage | invalidConfig => rfl

/-- Failures in order are no reports of rejections. -/
theorem ne_rejected_of_isOrderly {failure : Failure} (orderly : failure.isOrderly = true)
    (cause : Failure) : failure ≠ .aborted (.rejected cause) := by
  rintro rfl
  cases orderly

/-- What lasts is no report of a rejection either. -/
theorem lasting_ne_rejected (failure cause : Failure) :
    failure.lasting ≠ .aborted (.rejected cause) := by
  cases failure <;> rintro ⟨⟩

/-- What lasts of a broken rule is that rule, so that nobody tries once more. -/
theorem lasting_of_isUsage {failure : Failure} (broken : failure.isUsage = true) :
    failure.lasting = failure ∧ failure.lasting.isRetryable = false := by
  cases failure with
  | usage | invalidLayout => exact ⟨rfl, rfl⟩
  | outOfMemory | aborted | invalidConfig => cases broken

end Failure

namespace Region

variable {digest : Digest} {machine : Machine digest} {region after : Region}
  {transaction moved : Transaction} {operation : Operation} {failure : Failure}

/-- An operation of a doomed transaction reports the doom and changes nothing. -/
theorem perform_doomed {reason : AbortReason} (machine : Machine digest) (region : Region)
    (operation : Operation) (doomed : transaction.status = .aborted reason) :
    region.perform machine transaction operation =
      .ok (region, transaction, .error reason.doomedFailure) := by
  have ended : transaction.ensureActive = .error reason.doomedFailure := by
    rw [Transaction.ensureActive, doomed]
  have still : transaction.doom reason.doomedFailure = transaction := by
    rw [Transaction.doom, Transaction.isActive, doomed]
    rfl
  cases operation with
  | read source length =>
      simp only [perform, read, tryRead, ended, bind, Except.bind, pure, Except.pure,
        Transaction.doomOn, still, Except.map]
  | write value target =>
      simp only [perform, write, tryWrite, ended, bind, Except.bind, pure, Except.pure,
        Transaction.doomOn, still, Except.map]
  | alloc size =>
      simp only [perform, alloc, tryAlloc, ended, bind, Except.bind, pure, Except.pure, still,
        ite_self, Except.map]
  | free target =>
      simp only [perform, free, tryFree, ended, pure, Except.pure, Transaction.doomOn, still,
        Except.map]

/-- An operation of an active transaction never reports an earlier failure. -/
theorem Effect.ne_alreadyDoomed (active : transaction.status = .active)
    (effect : region.Effect machine transaction operation after moved (.error failure)) :
    failure ≠ .aborted .alreadyDoomed := by
  rintro rfl
  cases effect with
  | failed id allocated freed writes status refusal =>
      rcases refusal with refusal | memory
      · cases refusal with
        | inactive ended =>
            rw [Transaction.ensureActive_eq_ok.mpr active] at ended
            cases ended
        | unfit blameless => cases blameless
        | obstructed found obstacle =>
            rw [Cell.obstacle?] at obstacle
            split at obstacle
            next => cases obstacle
            next => split at obstacle <;> cases obstacle
      · cases memory
  | unlogged _ _ _ _ _ full => cases TransactionLog.isOutOfMemory_of_recordAlloc full

/-- A failure that spares its transaction leaves it active. -/
theorem Effect.active_of_spared (active : transaction.status = .active)
    (spared : operation.spares failure = true)
    (effect : region.Effect machine transaction operation after moved (.error failure)) :
    moved.status = .active := by
  cases effect with
  | failed id allocated freed writes status refusal doomed =>
      rcases doomed with same | ⟨_, hit⟩
      · rw [same, active]
      · rw [spared] at hit
        cases hit
  | unlogged => exact active

/-- No operation passes a rejection off as a conflict. -/
theorem Effect.ne_rejected (laid : region.LaidOutUnlocked) (standing : transaction.Standing)
    (effect : region.Effect machine transaction operation after moved (.error failure))
    (cause : Failure) : failure ≠ .aborted (.rejected cause) :=
  Failure.ne_rejected_of_isOrderly (effect.standing laid.unlocked standing).1 cause

/-- Nor does a commit. -/
theorem commit_ne_rejected {ended : Transaction} (laid : region.LaidOutUnlocked)
    (kept : transaction.LogValid digest region) (standing : transaction.Standing)
    (committed : region.commit digest transaction = .ok (after, ended, .error failure))
    (cause : Failure) : failure ≠ .aborted (.rejected cause) := by
  rcases standing with active | ⟨first, doomed, orderly⟩
  · by_cases idle : transaction.mode.isReadOnly = true ∨ transaction.log.isReadOnly = true
    · rcases region.commit_quiet digest active idle with ⟨_, _, succeeded, _⟩
      rw [succeeded] at committed
      cases committed
    · rw [not_or, Bool.not_eq_true, Bool.not_eq_true] at idle
      rcases region.commit_ruled digest active idle.1 idle.2 kept.sound
        (kept.grounded laid active) with ⟨_, _, ruled, _⟩
      simp only [ruled, Except.ok.injEq, Prod.mk.injEq] at committed
      have result := committed.2.2
      rintro rfl
      cases ruling : region.coordinator.ruling needsValidation region.memory transaction <;>
        simp [ruling, Ruling.result] at result
  · simp only [commit_doomed digest region doomed, Except.ok.injEq, Prod.mk.injEq,
      Except.error.injEq,
      Failure.doomedFailure_ofFailure (Failure.ne_rejected_of_isOrderly orderly)] at committed
    rw [← committed.2.2]
    exact first.lasting_ne_rejected cause

end Region

/-- What is in store for a transaction that a failure has doomed, whatever becomes of its
region and of all others. -/
structure Transaction.DoomedFor (digest : Digest) (transaction : Transaction)
    (failure : Failure) : Prop where
  refuses : ∀ (machine : Machine digest) (region : Region) operation,
    region.perform machine transaction operation =
      .ok (region, transaction, .error failure.lasting)
  /-- Nothing of what it buffered is published, and no version is drawn. -/
  commits : ∀ region : Region, ∃ after ended,
    region.commit digest transaction = .ok (after, ended, .error failure.lasting) ∧
      after.memory = region.memory ∧ after.coordinator = region.coordinator
  gives_up : ∀ (region : Region) reason,
    (region.abandon transaction reason).1.memory = region.memory
  /-- Whoever ends it, and wherever, is told that it did not commit. -/
  ends : ∀ (machine : Machine digest) (world : World) home target id session,
    world[home]? = some session → session.find? id = some transaction → ∃ after left,
      world.finish machine target home id = .ok (after, false) ∧ after[home]? = some left ∧
        left.region.memory = session.region.memory ∧
        ∀ other, other ≠ home → after[other]? = world[other]?

/-- A transaction that was doomed by a failure of its own stays so. -/
theorem Transaction.doomedFor {digest : Digest} {transaction : Transaction} {failure : Failure}
    (doomed : transaction.status = .aborted (.ofFailure failure))
    (genuine : ∀ cause, failure ≠ .aborted (.rejected cause)) :
    transaction.DoomedFor digest failure := by
  have lasting := Failure.doomedFailure_ofFailure genuine
  have commits : ∀ region : Region, region.commit digest transaction =
      .ok ((region.finishAborted transaction).1, (region.finishAborted transaction).2,
        .error failure.lasting) := by
    intro region
    rw [Region.commit_doomed digest region doomed, lasting]
  constructor
  · intro machine region operation
    rw [Region.perform_doomed machine region operation doomed, lasting]
  · exact fun region => ⟨_, _, commits region, rfl, rfl⟩
  · intro region reason
    rw [Region.abandon_eq]
  · intro machine world home target id session here found
    have present : home < world.size := (Array.getElem?_eq_some_iff.mp here).1
    have kept : ∀ left : Session, (world.setIfInBounds home left)[home]? = some left ∧
        ∀ other, other ≠ home → (world.setIfInBounds home left)[other]? = world[other]? :=
      fun left => ⟨Array.getElem?_setIfInBounds_self_of_lt present,
        fun other differ => Array.getElem?_setIfInBounds_ne (Ne.symm differ)⟩
    by_cases same : target = home
    · simp only [World.finish, here, if_pos same, Session.step, found, commits, bind, Except.bind,
        pure, Except.pure]
      exact ⟨_, _, rfl, (kept _).1, rfl, (kept _).2⟩
    · simp only [World.finish, here, if_neg same, Session.step, found, bind, Except.bind, pure,
        Except.pure]
      have memory := congrArg Region.memory
        (Region.abandon_eq session.region transaction (.rejected (.usage .foreignRegion)))
      exact ⟨_, _, rfl, (kept _).1, memory, (kept _).2⟩

/-- A call that a transaction made, and what became of it. -/
structure Call where
  operation : Operation
  result : Except Failure Reply

/-- Whether the transaction is as well as before. -/
def Call.isSpared (call : Call) : Bool :=
  match call.result with
  | .ok _ => true
  | .error failure => call.operation.spares failure

namespace Region

variable {digest : Digest} {machine : Machine digest} {config : RegionConfig}
  {region before after : Region} {transaction moved : Transaction} {lives : List Life}
  {calls : List Call} {operation : Operation} {result : Except Failure Reply}

/-- A transaction on a region with its calls since it began.  In between the others on the same
region, those of `lives`, take steps of their own.  What memory is granted may differ from one
call or step to the next. -/
inductive Course (digest : Digest) (config : RegionConfig) :
    Region → List Life → Transaction → List Call → Prop
  | begun {machine : Machine digest} {before region : Region} {lives : List Life}
      {mode : AccessMode}
      {transaction : Transaction} (lived : ReachedWith digest config before lives)
      (begun : before.begin machine mode = .ok (region, .ok transaction)) :
      Course digest config region lives transaction []
  | called {machine : Machine digest} {before region : Region} {lives : List Life}
      {transaction moved : Transaction} {calls : List Call} {operation : Operation}
      {result : Except Failure Reply}
      (course : Course digest config before lives transaction calls) (sized : operation.Sized)
      (performed : before.perform machine transaction operation = .ok (region, moved, result)) :
      Course digest config region lives moved (calls ++ [⟨operation, result⟩])
  | others {machine : Machine digest} {before region : Region} {lives next : List Life}
      {transaction : Transaction} {calls : List Call}
      (course : Course digest config before lives transaction calls)
      (turn : before.Turn machine lives region next) :
      Course digest config region next transaction calls

/-- What a transaction came to, told from its calls since the first that was not spared. -/
inductive Verdict : List Call → Status → Prop
  | active : Verdict [] .active
  | doomed {operation : Operation} {failure : Failure} {later : List Call}
      (orderly : failure.isOrderly = true) (first : failure ≠ .aborted .alreadyDoomed)
      (stuck : ∀ call ∈ later, call.result = .error failure.lasting) :
      Verdict (⟨operation, .error failure⟩ :: later) (.aborted (.ofFailure failure))

/-- What holds along the course of a transaction. -/
structure Steadfast (digest : Digest) (region : Region) (lives : List Life)
    (transaction : Transaction) (calls : List Call) : Prop where
  tended : region.LogsValid digest lives
  kept : transaction.LogValid digest region
  verdict : Verdict (calls.dropWhile Call.isSpared) transaction.status

theorem Verdict.standing (verdict : Verdict calls transaction.status) : transaction.Standing := by
  cases known : transaction.status with
  | active => exact .inl known
  | aborted =>
      rw [known] at verdict
      cases verdict with
      | doomed orderly => exact .inr ⟨_, known, orderly⟩
  | validating | committed =>
      rw [known] at verdict
      cases verdict

/-- A call adds to the verdict: it was spared, or it is the first that was not, or it tells of an
earlier one. -/
theorem Verdict.called (laid : region.LaidOutUnlocked) (kept : transaction.LogValid digest region)
    (sized : operation.Sized)
    (performed : region.perform machine transaction operation = .ok (after, moved, result))
    (verdict : Verdict (calls.dropWhile Call.isSpared) transaction.status) :
    Verdict ((calls ++ [Call.mk operation result]).dropWhile Call.isSpared) moved.status := by
  have effect := perform_effect sized kept.sound performed
  have standing := verdict.standing
  -- a call comes last, so it counts by itself only if all before it were spared
  rw [List.dropWhile_append]
  generalize calls.dropWhile Call.isSpared = told at verdict
  generalize known : transaction.status = status at verdict
  cases verdict with
  | active =>
      rw [List.isEmpty_nil, if_pos rfl]
      cases result with
      | ok reply =>
          rw [List.dropWhile_cons_of_pos rfl, List.dropWhile_nil, effect.active]
          exact .active
      | error failure =>
          cases spared : (Call.mk operation (.error failure)).isSpared with
          | true =>
              rw [List.dropWhile_cons_of_pos spared, List.dropWhile_nil,
                effect.active_of_spared known spared]
              exact .active
          | false =>
              have hit : ¬(Call.mk operation (.error failure)).isSpared = true := by
                simp [spared]
              rw [List.dropWhile_cons_of_neg hit,
                status_of_failed kept.sound sized spared performed, Transaction.status_doom,
                if_pos known]
              exact .doomed (effect.standing laid.unlocked standing).1
                (effect.ne_alreadyDoomed known) (by simp)
  | @doomed _ failure later orderly first stuck =>
      have doomed : transaction.DoomedFor digest failure :=
        Transaction.doomedFor known (Failure.ne_rejected_of_isOrderly orderly)
      rw [doomed.refuses] at performed
      cases performed
      rw [List.isEmpty_cons, if_neg Bool.false_ne_true, List.cons_append, known]
      refine .doomed orderly first ?_
      intro call member
      rcases List.mem_append.mp member with earlier | now
      · exact stuck call earlier
      · rw [List.mem_singleton.mp now]

/-- What is not touched by a step is as tended as before. -/
theorem LogsValid.keep (tended : before.LogsValid digest lives) (laid : after.LaidOutUnlocked)
    (keeps : after.Keeps before) : after.LogsValid digest lives where
  laid := laid
  kept := fun _ _ running => (tended.kept _ _ running).keep keeps
  standing := tended.standing

/-- A transaction keeps to its log and to its verdict all along its course. -/
theorem Course.steadfast (course : Course digest config region lives transaction calls) :
    region.Steadfast digest lives transaction calls := by
  -- steps of others leave the transaction itself alone, and what its log is about
  induction course with
  | begun lived begun =>
      have steady := (begin_eq begun).1
      refine ⟨lived.tended.keep (lived.tended.laid.of_steady steady) steady.toExtends.keeps,
        .begin begun, ?_⟩
      rcases (begin_eq begun).2.2.2 _ rfl with ⟨filter, rfl⟩
      exact .active
  | called course sized performed before =>
      have laid := before.tended.laid
      have effect := perform_effect sized before.kept.sound performed
      exact ⟨before.tended.keep (effect.laid laid) (effect.keeps laid),
        before.kept.perform laid effect, before.verdict.called laid before.kept sized performed⟩
  | others course turn before =>
      exact ⟨before.tended.turn turn, before.kept.keep (turn.laid_keeps before.tended).2,
        before.verdict⟩

/-- The first call that dooms a transaction settles what all later ones report, and its commit,
whatever others do in between.  A broken rule is reported as it was, a conflict or a lack of
memory as a doom; nothing is published any more, and a rejection is never passed off as a
conflict, by no transaction. -/
theorem Course.doom_sticks (course : Course digest config region lives transaction calls) :
    (∀ operation result later, calls.dropWhile Call.isSpared = ⟨operation, result⟩ :: later →
      ∃ failure, result = .error failure ∧ failure ≠ .aborted .alreadyDoomed ∧
        (failure.isUsage = true →
          failure.lasting = failure ∧ failure.lasting.isRetryable = false) ∧
        (∀ call ∈ later, call.result = .error failure.lasting) ∧
        transaction.DoomedFor digest failure) ∧
    (calls.dropWhile Call.isSpared = [] → transaction.status = .active) ∧
    (∀ call ∈ calls.takeWhile Call.isSpared, call.result ≠ .error (.aborted .alreadyDoomed)) ∧
    (∀ failure, transaction.status = .active → (∀ cause, failure ≠ .aborted (.rejected cause)) →
      (transaction.doom failure).DoomedFor digest failure) ∧
    ∀ other, (other = transaction ∨ ∃ deeds, ⟨.running other, deeds⟩ ∈ lives) →
      (∀ (machine : Machine digest) operation, operation.Sized → ∀ after moved failure,
        region.perform machine other operation = .ok (after, moved, .error failure) →
          ∀ cause, failure ≠ .aborted (.rejected cause)) ∧
      ∀ after ended failure, region.commit digest other = .ok (after, ended, .error failure) →
        ∀ cause, failure ≠ .aborted (.rejected cause) := by
  have steadfast := course.steadfast
  have laid := steadfast.tended.laid
  have verdict := steadfast.verdict
  refine ⟨?_, ?_, ?_, ?_, ?_⟩
  · intro operation result later told
    rw [told] at verdict
    generalize known : transaction.status = status at verdict
    cases verdict with
    | @doomed _ failure _ orderly first stuck =>
        have genuine := Failure.ne_rejected_of_isOrderly orderly
        exact ⟨failure, rfl, first, Failure.lasting_of_isUsage, stuck,
          Transaction.doomedFor known genuine⟩
  · intro spared
    rw [spared] at verdict
    generalize transaction.status = status at verdict ⊢
    cases verdict
    rfl
  · intro call member failed
    have spared := List.mem_takeWhile_imp member
    rw [Call.isSpared, failed] at spared
    cases known : call.operation <;> simp [known, Operation.spares, Failure.isOutOfMemory] at spared
  · intro failure active genuine
    apply Transaction.doomedFor ?_ genuine
    rw [Transaction.status_doom, if_pos active]
  · intro other running
    have known : other.LogValid digest region ∧ other.Standing := by
      rcases running with rfl | ⟨deeds, running⟩
      · exact ⟨steadfast.kept, verdict.standing⟩
      · exact ⟨steadfast.tended.kept _ _ running, steadfast.tended.standing _ _ running⟩
    refine ⟨?_, ?_⟩
    · intro machine operation sized after moved failure performed
      exact (perform_effect sized known.1.sound performed).ne_rejected laid known.2
    · intro after ended failure committed
      exact commit_ne_rejected laid known.1 known.2 committed

/-- There is no memory for an allocation, another transaction publishes a word, and then a read
of that word finds no room in the log.  An access that is not aligned is reported as the doom,
too. -/
theorem doom_sticks_overtaken : ∃ region lives transaction,
    Course (fun _ => 0) Session.threeWords region lives transaction
      [⟨.alloc 2000, .error (.outOfMemory 2000)⟩,
        ⟨.read ⟨.first, 16⟩ 8, .error (.outOfMemory 32)⟩,
        ⟨.write [1] ⟨.first, 0⟩, .error (.aborted .alreadyDoomed)⟩] ∧
    lives = [⟨.committed, [⟨.write (List.replicate 8 1) ⟨.first, 0⟩, .done⟩]⟩] ∧
    transaction.DoomedFor (fun _ => 0) (.outOfMemory 32) := by
  let ample := Machine.unlimited fun _ => 0
  let tight : Machine fun _ => 0 := ⟨fun _ request => decide (request.bytes ≤ 100)⟩
  let fresh : Region := {
    config := Session.threeWords
    memory := Coordinator.threeZeros
    table := ⟨#[.vacant, .live 0], 1, 2⟩
    coordinator := .ofConfig Session.threeWords
    tally := {} }
  let once : Region := {
    fresh with coordinator := { fresh.coordinator with nextId := 2 }, tally := fresh.tally.began }
  let twice : Region := {
    once with coordinator := { once.coordinator with nextId := 3 }, tally := once.tally.began }
  let entry : WriteEntry := ⟨⟨.first, 0⟩, ⟨0, 0⟩, List.replicate 8 1⟩
  let other : Transaction := { Coordinator.firstBegun with id := ⟨2⟩ }
  let wrote : Transaction := other.withWrites ⟨#[entry], ⟨#[1], 1, by decide⟩, 0⟩
  let settled : Region := {
    twice with
    coordinator := twice.coordinator.tick.2
    memory := ⟨#[{
      align := 8
      data := ⟨List.replicate 8 1 ++ List.replicate 16 0⟩
      locks := Array.replicate 3 false
      versions := #[1, 0, 0]
      align_pos := by decide
      locks_size := by simp
      versions_size := by simp }]⟩
    tally := { committed := 1, active := 1 } }
  have created : Region.create tight Session.threeWords = .ok (.ok fresh) := by cbv
  have begun : fresh.begin tight .readWrite = .ok (once, .ok Coordinator.firstBegun) := by cbv
  have starved : once.perform tight Coordinator.firstBegun (.alloc 2000) =
    .ok (once, Coordinator.firstBegun, .error (.outOfMemory 2000)) := by cbv
  have alsoBegun : once.begin ample .readWrite = .ok (twice, .ok other) := by cbv
  have written : twice.perform ample other (.write entry.value entry.address) =
    .ok (twice, wrote, .ok .done) := by cbv
  have committed : twice.commit (fun _ => 0) wrote =
    .ok (settled, { wrote.markCommitted 1 with log := wrote.log.clean }, .ok 1) := by cbv
  let doomed := Coordinator.firstBegun.doom (.outOfMemory 32)
  have short : settled.perform tight Coordinator.firstBegun (.read ⟨.first, 16⟩ 8) =
    .ok (settled, doomed, .error (.outOfMemory 32)) := by cbv
  have refused : settled.perform ample doomed (.write [1] ⟨.first, 0⟩) =
    .ok (settled, doomed, .error (.aborted .alreadyDoomed)) := by cbv
  have opens : once.Turn ample [] twice ([] ++ [⟨.running other, []⟩]) := .began alsoBegun
  have writes : twice.Turn ample ([] ++ ⟨.running other, []⟩ :: []) twice
      ([] ++ ⟨.running wrote, [] ++ [⟨.write entry.value entry.address, .done⟩]⟩ :: []) :=
    .succeeded (by simp [Operation.Sized, entry]) written
  have commits : twice.Turn ample
      ([] ++ ⟨.running wrote, [⟨.write entry.value entry.address, .done⟩]⟩ :: []) settled
      ([] ++ ⟨.committed, [⟨.write entry.value entry.address, .done⟩]⟩ :: []) :=
    .committed committed
  have course : Course (fun _ => 0) Session.threeWords settled
      [⟨.committed, [⟨.write entry.value entry.address, .done⟩]⟩] doomed
      [⟨.alloc 2000, .error (.outOfMemory 2000)⟩, ⟨.read ⟨.first, 16⟩ 8, .error (.outOfMemory 32)⟩,
        ⟨.write [1] ⟨.first, 0⟩, .error (.aborted .alreadyDoomed)⟩] :=
    .called (.called (.others (.others (.others (.called (.begun (.created created) begun)
      (by trivial) starved) opens) writes) commits) (by trivial) short)
      (by simp [Operation.Sized]) refused
  rcases course.doom_sticks.1 _ _ _ rfl with ⟨failure, same, _, _, _, stays⟩
  cases same
  exact ⟨settled, _, doomed, course, rfl, stays⟩

end Region

end WordStm
