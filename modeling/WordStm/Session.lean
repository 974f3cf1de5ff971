import WordStm.Region.Operation

/-!
# Sessions

A session is a region together with the transactions that are open on it.  One
step of it is one action of one transaction; a run is any sequence of steps, so
the steps of several transactions may alternate in any way.

A world is several regions, each with its own session.  A transaction belongs to
the session that it began in; ending it on another region ends it there.
-/

namespace WordStm

structure Session where
  region : Region
  /-- The open transactions, those begun last in front. -/
  transactions : List Transaction

/-- One step of a session. -/
inductive Action where
  | begin (mode : AccessMode)
  | perform (id : TransactionId) (operation : Operation)
  /-- Try to commit. -/
  | commit (id : TransactionId)
  /-- Give up, in so many words or by letting go of the transaction. -/
  | rollback (id : TransactionId)
  /-- Be ended on another region. -/
  | endElsewhere (id : TransactionId)
  deriving DecidableEq

/-- What a step answers. -/
inductive Answer where
  | began (result : Except Failure TransactionId)
  | performed (result : Except Failure Reply)
  | committed (result : Except Failure Version)
  | ended
  /-- The transaction is not open. -/
  | unknown

namespace Session

variable {digest : Digest}

/-- A region that no transaction is open on. -/
def ofRegion (region : Region) : Session := ⟨region, []⟩

def find? (session : Session) (id : TransactionId) : Option Transaction :=
  session.transactions.find? (·.id == id)

/-- Replace an open transaction. -/
def update (session : Session) (transaction : Transaction) : Session :=
  { session with
    transactions := session.transactions.map fun other =>
      if other.id == transaction.id then transaction else other }

/-- A transaction is no longer open. -/
def close (session : Session) (id : TransactionId) : Session :=
  { session with transactions := session.transactions.filter (·.id != id) }

/-- Carry out one action. -/
def step (machine : Machine digest) (session : Session) (action : Action) :
    Except Fault (Session × Answer) := do
  match action with
  | .begin mode =>
      match ← session.region.begin machine mode with
      | (region, .ok transaction) =>
          return ({ region, transactions := transaction :: session.transactions },
            .began (.ok transaction.id))
      | (region, .error failure) => return ({ session with region }, .began (.error failure))
  | .perform id operation =>
      match session.find? id with
      | none => return (session, .unknown)
      | some transaction =>
          let (region, transaction, result) ←
            session.region.perform machine transaction operation
          return ({ session with region }.update transaction, .performed result)
  | .commit id =>
      match session.find? id with
      | none => return (session, .unknown)
      | some transaction =>
          let (region, _, result) ← session.region.commit digest transaction
          return ({ session with region }.close id, .committed result)
  | .rollback id =>
      match session.find? id with
      | none => return (session, .unknown)
      | some transaction =>
          return ({ session with region := (session.region.rollback transaction).1 }.close id,
            .ended)
  | .endElsewhere id =>
      match session.find? id with
      | none => return (session, .unknown)
      | some transaction =>
          return ({ session with region := (session.region.endElsewhere transaction).1 }.close id,
            .ended)

/-- Carry out a sequence of actions, each at a moment of its own, and collect the
answers. -/
def run (machine : Machine digest) (session : Session) :
    List Action → Except Fault (Session × List Answer)
  | [] => .ok (session, [])
  | action :: rest => do
      let (session, answer) ← session.step (machine.during 0) action
      let (session, answers) ← session.run (machine.since 1) rest
      return (session, answer :: answers)

/-- A run may be cut anywhere. -/
theorem run_append (machine : Machine digest) (session : Session)
    (earlier later : List Action) :
    session.run machine (earlier ++ later) = (do
      let (middle, before) ← session.run machine earlier
      let (final, after) ← middle.run (machine.since earlier.length) later
      return (final, before ++ after)) := by
  induction earlier generalizing session machine with
  | nil =>
      simp only [List.nil_append, run, bind, Except.bind, List.length_nil, Machine.since_zero]
      cases session.run machine later <;> rfl
  | cons action rest ih =>
      simp only [List.cons_append, run, bind, Except.bind]
      cases session.step (machine.during 0) action with
      | error fault => rfl
      | ok stepped =>
          simp only [ih, bind, Except.bind, Machine.since_since, List.length_cons, Nat.add_comm 1]
          cases stepped.1.run (machine.since 1) rest with
          | error fault => rfl
          | ok middle =>
              simp only [pure, Except.pure]
              cases middle.1.run (machine.since (rest.length + 1)) later <;> rfl

/-- Let go of every open transaction. -/
def dropAll (session : Session) : Session :=
  { region := session.transactions.foldl (fun region transaction =>
      (region.rollback transaction).1) session.region
    transactions := [] }

end Session

/-- Several regions with their open transactions. -/
abbrev World := Array Session

namespace World

variable {digest : Digest}

/-- End a transaction of session `home` on region `target`, and say whether it
committed.  Only its own region can commit it. -/
def finish (machine : Machine digest) (world : World) (target home : Nat) (id : TransactionId) :
    Except Fault (World × Bool) := do
  match world[home]? with
  | none => return (world, false)
  | some session =>
      if target = home then
        let (session, answer) ← session.step machine (.commit id)
        let committed := match answer with
          | .committed (.ok _) => true
          | _ => false
        return (world.setIfInBounds home session, committed)
      else
        let (session, _) ← session.step machine (.endElsewhere id)
        return (world.setIfInBounds home session, false)

/-- Carry out an action in one session. -/
def step (machine : Machine digest) (world : World) (home : Nat) (action : Action) :
    Except Fault (World × Answer) := do
  match world[home]? with
  | none => return (world, .unknown)
  | some session =>
      let (session, answer) ← session.step machine action
      return (world.setIfInBounds home session, answer)

end World

end WordStm
