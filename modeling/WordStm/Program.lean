import WordStm.Region.Operation

/-!
# Programs and whole transactions

A script is what a client does inside one transaction, each operation chosen in
view of the answers so far, up to an attempt to commit or a rollback.

A program is the body of a transaction that someone else commits: `atomically`
runs it in a fresh transaction, commits if the program returned a value, and
starts over if the program or the commit lost a conflict.  Between two
operations a program may run whole other transactions on the same region.  From
one run to the next it may carry a state of its own.
-/

namespace WordStm

/-- What a client does inside a transaction. -/
inductive Script where
  /-- Try to commit. -/
  | commit
  | rollback
  | call (operation : Operation) (next : Except Failure Reply → Script)

namespace Script

/-- Some operations one after another, failed ones included, then a commit. -/
def ofList : List Operation → Script
  | [] => commit
  | operation :: rest => call operation fun _ => ofList rest

end Script

/-- What became of a whole transaction: what its operations answered, and how it
ended; `none` after a rollback. -/
structure ScriptResult where
  replies : List (Except Failure Reply)
  ending : Option (Except Failure Version)

namespace Region

variable {digest : Digest}

/-- Carry out a script in a transaction that has begun. -/
def follow (machine : Machine digest) (region : Region) (transaction : Transaction) :
    Script → Except Fault (Region × ScriptResult)
  | .commit => do
      let (region, _, result) ← region.commit digest transaction
      return (region, ⟨[], some result⟩)
  | .rollback => .ok ((region.rollback transaction).1, ⟨[], none⟩)
  | .call operation next => do
      let (region, transaction, reply) ← region.perform (machine.during 0) transaction operation
      let (region, result) ← follow (machine.since 1) region transaction (next reply)
      return (region, { result with replies := reply :: result.replies })

/-- Run a whole transaction.  If it cannot begin, nothing else happens. -/
def transact (machine : Machine digest) (region : Region) (mode : AccessMode) (script : Script) :
    Except Fault (Region × Except Failure ScriptResult) := do
  match ← region.begin (machine.during 0) mode with
  | (region, .error failure) => return (region, .error failure)
  | (region, .ok transaction) =>
      let (region, result) ← region.follow (machine.since 1) transaction script
      return (region, .ok result)

/-- Read a run of words in a transaction of its own, which commits if the read
succeeds and is let go of otherwise. -/
def peek (machine : Machine digest) (region : Region) (source : Address) (length : UInt64) :
    Except Fault (Region × Except Failure (Bytes × Bool)) := do
  match ← region.begin (machine.during 0) .readOnly with
  | (region, .error failure) => return (region, .error failure)
  | (region, .ok transaction) =>
      match ← region.read (machine.during 1) transaction source length with
      | (transaction, .error failure) =>
          return ((region.rollback transaction).1, .error failure)
      | (transaction, .ok bytes) =>
          let (region, _, result) ← region.commit digest transaction
          return (region, .ok (bytes, result.isOk))

end Region

/-- The body of a transaction that others begin and end. -/
inductive Program (α : Type) where
  | done (value : α)
  | call (operation : Operation) (next : Except Failure Reply → Program α)
  /-- Look at the transaction itself. -/
  | observe (next : Transaction → Program α)
  /-- Run another transaction as a whole. -/
  | side (mode : AccessMode) (script : Script) (next : Except Failure ScriptResult → Program α)

namespace Region

variable {digest : Digest}

/-- Run a program in a transaction. -/
def execute {α : Type} (machine : Machine digest) (region : Region) (transaction : Transaction) :
    Program α → Except Fault (Region × Transaction × α)
  | .done value => .ok (region, transaction, value)
  | .call operation next => do
      let (region, transaction, reply) ← region.perform (machine.during 0) transaction operation
      execute (machine.since 1) region transaction (next reply)
  | .observe next => execute machine region transaction (next transaction)
  | .side mode script next => do
      let (region, result) ← region.transact (machine.during 0) mode script
      execute (machine.since 1) region transaction (next result)

end Region

/-- How often a transaction is attempted, and how long to wait in between.
Waiting changes nothing that a region could show. -/
structure RetryPolicy where
  /-- Attempts, the first included; one is made in any case. -/
  maxAttempts : UInt32
  backoffNanos : Nat := 0
  deriving DecidableEq

namespace RetryPolicy

/-- The policy that applies unless another is given. -/
def standard : RetryPolicy := { maxAttempts := 64 }

/-- Attempts without end, as far as anyone can tell. -/
def unbounded : RetryPolicy := { maxAttempts := 0xffffffff }

def withBackoff (policy : RetryPolicy) (nanos : Nat) : RetryPolicy :=
  { policy with backoffNanos := nanos }

/-- How many attempts are made at most. -/
def attempts (policy : RetryPolicy) : Nat := max 1 policy.maxAttempts.toNat

end RetryPolicy

namespace Region

variable {digest : Digest}

/-- One attempt: run the body in a fresh transaction, commit if it returned a
value and roll back if it failed. -/
def attempt {σ α : Type} (machine : Machine digest) (region : Region) (mode : AccessMode)
    (body : Program (σ × Except Failure α)) (state : σ) :
    Except Fault (Region × σ × Bool × Except Failure α) := do
  match ← region.begin (machine.during 0) mode with
  | (region, .error failure) => return (region, state, false, .error failure)
  | (region, .ok transaction) =>
      match ← region.execute (machine.during 1) transaction body with
      | (region, transaction, state, .error failure) =>
          return ((region.rollback transaction).1, state, failure.isRetryable, .error failure)
      | (region, transaction, state, .ok value) =>
          match ← region.commit digest transaction with
          | (region, _, .ok _) => return (region, state, false, .ok value)
          | (region, _, .error failure) =>
              return (region, state, failure.isRetryable, .error failure)

/-- Make attempts as long as they lose conflicts, `more` further ones at most. -/
def attemptUpTo {σ α : Type} (machine : Machine digest) (region : Region) (mode : AccessMode)
    (body : σ → Program (σ × Except Failure α)) (state : σ) :
    (more : Nat) → Except Fault (Region × σ × Except Failure α)
  | 0 => do
      let (region, state, _, result) ← region.attempt (machine.during 0) mode (body state) state
      return (region, state, result)
  | more + 1 => do
      match ← region.attempt (machine.during 0) mode (body state) state with
      | (region, state, false, result) => return (region, state, result)
      | (region, state, true, _) => attemptUpTo (machine.since 1) region mode body state more

/-- Run a body in a transaction until it commits.  Only conflicts are tried
again, and only as often as the policy says; the last failure is returned. -/
def atomically {σ α : Type} (machine : Machine digest) (region : Region) (mode : AccessMode)
    (policy : RetryPolicy) (body : σ → Program (σ × Except Failure α)) (state : σ) :
    Except Fault (Region × σ × Except Failure α) :=
  region.attemptUpTo machine mode body state (policy.attempts - 1)

end Region

end WordStm
