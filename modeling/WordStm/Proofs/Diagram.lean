import Mathlib.Logic.Relation
import WordStm.Proofs.Atomicity

/-!
# What becomes of a status

A transaction is active until it commits or gives up, and a commit in progress is
validating.  No call leaves a transaction validating, and an aborted one stays as it
is, reason and all.  A commit of a transaction that is not active touches nothing.

A committed transaction is final for every call but one: giving it up marks it aborted,
although it has published what it wrote.
-/

namespace WordStm

/-- How a status may change, one arrow at a time. -/
inductive Status.Arrow : Status → Status → Prop
  | validate : Arrow .active .validating
  | commit (version : Version) : Arrow .validating (.committed version)
  | giveUp (reason : AbortReason) : Arrow .active (.aborted reason)
  | fail (reason : AbortReason) : Arrow .validating (.aborted reason)

/-- That arrows lead from one status to another. -/
abbrev Status.Reaches : Status → Status → Prop := Relation.ReflTransGen Status.Arrow

namespace Status

variable {status other : Status} {version : Version} {reason : AbortReason}

/-- Whatever is reached from an aborted status is the same. -/
@[simp] theorem aborted_reaches_iff : (aborted reason).Reaches other ↔ aborted reason = other := by
  constructor
  · intro reached
    rcases reached.cases_head with same | ⟨_, arrow, _⟩
    · exact same
    · cases arrow
  · rintro rfl
    exact .refl

/-- Nor does anything follow a committed one. -/
@[simp] theorem committed_reaches_iff :
    (committed version).Reaches other ↔ committed version = other := by
  constructor
  · intro reached
    rcases reached.cases_head with same | ⟨_, arrow, _⟩
    · exact same
    · cases arrow
  · rintro rfl
    exact .refl

theorem validating_reaches_committed (version : Version) :
    validating.Reaches (.committed version) :=
  .single (.commit version)

/-- Everything may become of an active transaction. -/
theorem active_reaches (status : Status) : active.Reaches status := by
  cases status with
  | active => exact .refl
  | validating => exact .single .validate
  | committed version => exact .head .validate (validating_reaches_committed version)
  | aborted reason => exact .single (.giveUp reason)

end Status

namespace Coordinator

variable {digest : Digest} {coordinator : Coordinator} {memory : Memory}
  {transaction : Transaction} {outcome : Outcome}

/-- A transaction after a commit is committed at the version that was returned, or aborted for
the reason that was. -/
inductive Outcome.Settled (outcome : Outcome) : Prop where
  | committed (version : Version) (result : outcome.result = .ok version)
      (status : outcome.transaction.status = .committed version)
  | aborted (reason : AbortReason) (result : outcome.result = .error (.aborted reason))
      (status : outcome.transaction.status = .aborted reason)

/-- A commit ends a transaction that is active. -/
theorem settled_of_commit (active : transaction.status = .active)
    (committed : coordinator.commit digest memory transaction = .ok outcome) :
    outcome.Settled := by
  rw [commit, commitBy, Transaction.ensureActive_eq_ok.mpr active] at committed
  simp only at committed
  split at committed
  next =>
    cases committed
    exact .committed transaction.snapshot rfl rfl
  next =>
    cases ends_of_commitWritesBy committed with
    | contended address _ status result => exact .aborted _ result status
    | invalid address _ status result => exact .aborted _ result status
    | published version _ status result => exact .committed version result status

/-- A commit of any other transaction is refused and touches nothing. -/
theorem commit_of_inactive (digest : Digest) (coordinator : Coordinator) (memory : Memory)
    (inactive : transaction.status ≠ .active) :
    ∃ failure, coordinator.commit digest memory transaction =
      .ok { coordinator, memory, transaction, result := .error failure } := by
  rw [commit, commitBy]
  cases ended : transaction.ensureActive with
  | ok => exact absurd (Transaction.ensureActive_eq_ok.mp ended) inactive
  | error failure => exact ⟨failure, rfl⟩

end Coordinator

namespace Transaction

/-- A call on a transaction, and the state of the clock and of memory that it finds, with what
memory it is granted.  Others may have changed both since the call before. -/
inductive Call (digest : Digest) where
  | read (machine : Machine digest) (memory : Memory) (address : Address) (place : Place)
      (buffer : Bytes)
  | write (machine : Machine digest) (address : Address) (place : Place) (value : Bytes)
  | commit (coordinator : Coordinator) (memory : Memory)
  | abort (reason : AbortReason)

variable {digest : Digest} {machine : Machine digest} {transaction after : Transaction}

/-- The reason for which a call gives a transaction up. -/
def Call.abort? : Call digest → Option AbortReason
  | abort reason => some reason
  | read .. | write .. | commit .. => none

/-- What a call makes of a transaction, if it returns. -/
def call (transaction : Transaction) : Call digest → Except Fault Transaction
  | .read machine memory address place buffer => do
      return (← transaction.readWord machine memory address place buffer).1
  | .write machine address place value =>
      return (transaction.writeWord machine address place value).1
  | .commit coordinator memory => do
      return (← coordinator.commit digest memory transaction).transaction
  | .abort reason => return (Coordinator.abort transaction reason).1

/-- What calls make of a transaction, one after another, if all of them return. -/
def calls (transaction : Transaction) (calls : List (Call digest)) : Except Fault Transaction :=
  calls.foldlM call transaction

/-- Giving up is final, but not for a transaction that has committed. -/
theorem status_markAborted (transaction : Transaction) (reason : AbortReason) :
    (transaction.markAborted reason).status = match transaction.status with
      | .aborted first => .aborted first
      | _ => .aborted reason := by
  rw [markAborted]
  cases status : transaction.status <;> simp [Status.isAborted, status]

/-- Neither what is read nor what is written changes a status, whether or not there was room for
it in the log. -/
theorem status_writeWord (machine : Machine digest) (transaction : Transaction)
    (address : Address) (place : Place) (value : Bytes) :
    (transaction.writeWord machine address place value).1.status = transaction.status := by
  rw [writeWord]
  split <;> rfl

/-- What a call may make of a status. -/
inductive Turns (status : Status) (call : Call digest) : Status → Prop
  | stays (kept : call.abort? = none) : Turns status call status
  | committed (active : status = .active) (version : Version) :
      Turns status call (.committed version)
  | failed (active : status = .active) (reason : AbortReason) : Turns status call (.aborted reason)
  | aborted {reason : AbortReason} (known : status = .aborted reason) :
      Turns status call (.aborted reason)
  | gaveUp {reason : AbortReason} (asked : call.abort? = some reason)
      (fresh : status.isAborted = false) : Turns status call (.aborted reason)

/-- A call makes nothing else of a transaction. -/
theorem turns_call {call : Call digest} (called : transaction.call call = .ok after) :
    Turns transaction.status call after.status := by
  cases call with
  | read machine memory address place buffer =>
      simp only [Transaction.call, bind_eq_ok, pure_eq_ok] at called
      rcases called with ⟨⟨_, result⟩, read, rfl⟩
      rw [(readWord_alike read).status]
      exact .stays rfl
  | write machine address place value =>
      simp only [Transaction.call, pure_eq_ok] at called
      rw [← called, status_writeWord]
      exact .stays rfl
  | commit coordinator memory =>
      simp only [Transaction.call, bind_eq_ok, pure_eq_ok] at called
      rcases called with ⟨outcome, committed, rfl⟩
      by_cases active : transaction.status = .active
      · cases Coordinator.settled_of_commit active committed with
        | committed version _ status =>
            rw [status]
            exact .committed active version
        | aborted reason _ status =>
            rw [status]
            exact .failed active reason
      · rcases Coordinator.commit_of_inactive digest coordinator memory active with
          ⟨failure, refused⟩
        rw [refused, Except.ok.injEq] at committed
        subst committed
        exact .stays rfl
  | abort reason =>
      cases called
      rw [Coordinator.abort, status_markAborted]
      cases status : transaction.status with
      | aborted first => exact .aborted rfl
      | active | validating | committed => exact .gaveUp rfl rfl

/-- How the status of a transaction moves from now on. -/
structure Orderly (digest : Digest) (transaction : Transaction) : Prop where
  /-- No call is in progress, so the transaction is not validating. -/
  returned : transaction.status ≠ .validating
  /-- Every call follows the arrows, but for giving up what has committed. -/
  moves : ∀ (call : Call digest) after, transaction.call call = .ok after →
    (transaction.status.Reaches after.status ↔
      ∀ version reason, transaction.status = .committed version → call ≠ .abort reason)
  /-- A commit that returns ends an active transaction one way or the other, and giving up ends
  it for the given reason. -/
  settles : transaction.status = .active → ∀ (coordinator : Coordinator) memory outcome,
    coordinator.commit digest memory transaction = .ok outcome → outcome.Settled
  stops : transaction.status = .active → ∀ reason after,
    transaction.call (.abort reason : Call digest) = .ok after → after.status = .aborted reason
  /-- The first reason is kept. -/
  aborted : ∀ reason, transaction.status = .aborted reason →
    ∀ (calls : List (Call digest)) last, transaction.calls calls = .ok last →
      last.status = .aborted reason
  /-- The version is kept until the transaction is given up nevertheless. -/
  committed : ∀ version, transaction.status = .committed version →
    ∀ (calls : List (Call digest)) last, transaction.calls calls = .ok last →
      last.status = match calls.findSome? Call.abort? with
        | none => .committed version
        | some reason => .aborted reason
  /-- A commit is refused and changes neither the transaction, nor the clock, nor memory. -/
  inert : transaction.status ≠ .active → ∀ (coordinator : Coordinator) memory, ∃ failure,
    coordinator.commit digest memory transaction =
      .ok { coordinator, memory, transaction, result := .error failure }

/-- Calls one after another, the first of them taken apart. -/
theorem calls_cons_eq_ok {head : Call digest} {rest : List (Call digest)} {last : Transaction} :
    transaction.calls (head :: rest) = .ok last ↔
      ∃ middle, transaction.call head = .ok middle ∧ middle.calls rest = .ok last := by
  rw [calls, List.foldlM_cons, bind_eq_ok]
  rfl

theorem calls_singleton (transaction : Transaction) (call : Call digest) :
    transaction.calls [call] = transaction.call call := by
  simp [calls]

/-- What every call keeps is kept by calls one after another. -/
theorem keep_of_calls (Kept : Status → Prop) {calls : List (Call digest)} {last : Transaction}
    (keep : ∀ {status after} {call : Call digest}, Kept status → Turns status call after →
      Kept after)
    (kept : Kept transaction.status) (called : transaction.calls calls = .ok last) :
    Kept last.status := by
  induction calls generalizing transaction with
  | nil =>
      cases called
      exact kept
  | cons head rest ih =>
      rcases calls_cons_eq_ok.mp called with ⟨middle, first, later⟩
      exact ih (keep kept (turns_call first)) later

/-- An aborted transaction stays as it is. -/
theorem status_of_aborted {reason : AbortReason} {calls : List (Call digest)} {last : Transaction}
    (aborted : transaction.status = .aborted reason)
    (called : transaction.calls calls = .ok last) : last.status = .aborted reason := by
  refine keep_of_calls (· = .aborted reason) ?_ aborted called
  rintro _ after call rfl turns
  cases turns with
  | stays => rfl
  | committed active => cases active
  | failed active => cases active
  | aborted known => exact known.symm
  | gaveUp _ fresh => cases fresh

/-- After calls that all returned, none is in progress. -/
theorem status_ne_validating {calls : List (Call digest)} {last : Transaction}
    (settled : transaction.status ≠ .validating)
    (called : transaction.calls calls = .ok last) : last.status ≠ .validating := by
  refine keep_of_calls (· ≠ .validating) ?_ settled called
  intro status after call settled turns
  cases turns with
  | stays => exact settled
  | committed | failed | aborted | gaveUp => rintro ⟨⟩

/-- A committed transaction stays as it is until somebody gives it up. -/
theorem status_of_committed {version : Version} {calls : List (Call digest)} {last : Transaction}
    (committed : transaction.status = .committed version)
    (called : transaction.calls calls = .ok last) :
    last.status = match calls.findSome? Call.abort? with
      | none => .committed version
      | some reason => .aborted reason := by
  induction calls generalizing transaction with
  | nil =>
      cases called
      exact committed
  | cons head rest ih =>
      rcases calls_cons_eq_ok.mp called with ⟨middle, first, later⟩
      rw [List.findSome?_cons]
      have turns := turns_call first
      rw [committed] at turns
      generalize known : middle.status = status at turns
      cases turns with
      | stays kept =>
          rw [kept]
          exact ih known later
      | committed active => cases active
      | failed active => cases active
      | aborted impossible => cases impossible
      | gaveUp asked =>
          rw [asked]
          exact status_of_aborted known later

/-- A call goes against the arrows exactly if it gives up what has committed. -/
theorem reaches_call_iff {call : Call digest} (called : transaction.call call = .ok after)
    (settled : transaction.status ≠ .validating) :
    transaction.status.Reaches after.status ↔
      ∀ version reason, transaction.status = .committed version → call ≠ .abort reason := by
  rw [← calls_singleton] at called
  cases status : transaction.status with
  | active => simp [Status.active_reaches]
  | validating => exact absurd status settled
  | aborted reason =>
      rw [status_of_aborted status called]
      simp
  | committed version =>
      rw [status_of_committed status called]
      cases call <;> simp [Call.abort?]

/-- A transaction that was begun and used since moves along the arrows: it is never found
validating, an aborted one keeps its reason for ever, and one that is not active commits
nothing.  A committed one is left alone by every call except that giving it up still marks it
aborted. -/
theorem orderly_of_calls {coordinator advanced : Coordinator} {mode : AccessMode}
    {begun : Transaction} {calls : List (Call digest)}
    (started : coordinator.start machine mode = .ok (advanced, .ok begun))
    (called : begun.calls calls = .ok transaction) :
    begun.status = .active ∧ transaction.Orderly digest := by
  have active : begun.status = .active := by
    rw [Coordinator.start] at started
    rcases bind_eq_ok.mp started with ⟨made, begins, same⟩
    rw [(Prod.mk.inj (Except.ok.inj same)).2] at begins
    rcases start_ok begins with ⟨filter, rfl⟩
    rfl
  have settled : transaction.status ≠ .validating := by
    refine status_ne_validating ?_ called
    rw [active]
    rintro ⟨⟩
  refine ⟨active, ?_⟩
  constructor
  case returned => exact settled
  case moves => exact fun call after returned => reaches_call_iff returned settled
  case settles =>
    exact fun running coordinator memory outcome committed =>
      Coordinator.settled_of_commit running committed
  case stops =>
    intro running reason after returned
    cases returned
    rw [Coordinator.abort, status_markAborted, running]
  case aborted => exact fun reason aborted calls last later => status_of_aborted aborted later
  case committed =>
    exact fun version committed calls last later => status_of_committed committed later
  case inert =>
    exact fun inactive coordinator memory =>
      Coordinator.commit_of_inactive digest coordinator memory inactive

open Coordinator in
/-- A transaction that read a word, wrote another and committed stays committed as long as
nobody gives it up. -/
theorem orderly_of_calls_published : ∃ transaction,
    firstBegun.calls [
      .read colliding threeZeros ⟨⟨1⟩, 0⟩ ⟨0, 0⟩ (List.replicate 8 0),
      .write colliding ⟨⟨1⟩, 8⟩ ⟨0, 1⟩ (List.replicate 8 1),
      .commit latestFirst threeZeros] = .ok transaction ∧
    transaction.status = .committed 1 ∧
    ∀ (calls : List (Call fun _ => 0)) last, calls.findSome? Call.abort? = none →
      transaction.calls calls = .ok last → last.status = .committed 1 := by
  let first : ReadEntry := ⟨⟨⟨1⟩, 0⟩, ⟨0, 0⟩⟩
  let second : WriteEntry := ⟨⟨⟨1⟩, 8⟩, ⟨0, 1⟩, List.replicate 8 1⟩
  let once : Transaction :=
    { firstBegun with log := { firstBegun.log with reads := #[first] } }
  let ended : Transaction :=
    (once.withWrites ⟨#[second], ⟨#[1], 1, by decide⟩, 0⟩).markCommitted 1
  have called : firstBegun.calls [
      .read colliding threeZeros first.address first.place (List.replicate 8 0),
      .write colliding second.address second.place second.value,
      .commit latestFirst threeZeros] = .ok ended := by cbv
  have started := start_latestFirst
  refine ⟨ended, called, rfl, ?_⟩
  intro calls last kept later
  have status := (orderly_of_calls started called).2.committed 1 rfl calls last later
  rw [kept] at status
  exact status

open Coordinator in
/-- A transaction that committed and is given up after that is aborted, and no arrow leads
there. -/
theorem committed_then_aborted :
    latestFirst.start colliding .readWrite =
      .ok ({ latestFirst with nextId := 2 }, .ok firstBegun) ∧
    ∃ committed aborted,
      firstBegun.calls ([.commit latestFirst threeZeros] : List (Call fun _ => 0)) =
        .ok committed ∧
      committed.status = .committed 0 ∧
      committed.call (.abort .rolledBack : Call fun _ => 0) = .ok aborted ∧
      aborted.status = .aborted .rolledBack ∧
      ¬committed.status.Reaches aborted.status := by
  refine ⟨start_latestFirst, firstBegun.markCommitted 0,
    { firstBegun with status := .aborted .rolledBack }, rfl, rfl, rfl, rfl, ?_⟩
  intro reached
  cases Status.committed_reaches_iff.mp reached

end Transaction

end WordStm
