import WordStm.Digest
import WordStm.Failure

/-!
# What a region runs on

Two things are left to the surroundings of a region: how addresses are spread over
a filter, and which requests for memory are granted.  The first never changes, and
everything that depends on the second as well takes a `Machine` for it, so it can
be asked what does not depend on either.

What is granted may differ from one request to the next and from one moment to the
next.  Moments nest: a run of several steps gives each of them a moment of its own,
and a step that is itself a run divides its moment again.
-/

namespace WordStm

/-- What memory is requested for. -/
inductive Request where
  /-- The words of a filter. -/
  | filter (words : Nat)
  /-- The bytes of a segment. -/
  | data (bytes : Nat)
  /-- The locks of a segment. -/
  | locks (words : Nat)
  /-- The versions of a segment. -/
  | versions (words : Nat)
  /-- The slots of a table. -/
  | slots (count : Nat)
  /-- One more entry, of some bytes, in a log that has some entries. -/
  | entry (bytes entries : Nat)
  deriving DecidableEq

/-- The bytes of a request.  A log that is full doubles its room, and has room for
four entries at least once it has any. -/
def Request.bytes : Request → Nat
  | filter words => words * 8
  | data bytes => bytes
  | locks words => words
  | versions words => words * 8
  | slots count => count * 16
  | entry bytes entries => bytes * max 4 (2 <<< entries.log2)

/-- A machine for a digest of addresses. -/
structure Machine (digest : Digest) where
  /-- Whether a request succeeds at a moment.  The empty list is now, and the head
  of any other says which moment from now on the rest is a moment of. -/
  grantsAt : List Nat → Request → Bool

namespace Machine

variable {digest : Digest}

/-- A machine that grants every request up to a limit, and digests addresses by
`Digest.ofAddress`. -/
def limited (limit : Nat) : Machine .ofAddress where
  grantsAt _ request := decide (request.bytes ≤ limit)

/-- A machine that grants every request. -/
def unlimited (digest : Digest) : Machine digest where
  grantsAt _ _ := true

/-- The machine at a moment from now on. -/
def during (machine : Machine digest) (moment : Nat) : Machine digest where
  grantsAt inner := machine.grantsAt (moment :: inner)

/-- The machine when some moments have passed. -/
def since (machine : Machine digest) (moments : Nat) : Machine digest where
  grantsAt
    | [] => machine.grantsAt []
    | moment :: inner => machine.grantsAt ((moments + moment) :: inner)

@[simp] theorem during_since (machine : Machine digest) (moments moment : Nat) :
    (machine.since moments).during moment = machine.during (moments + moment) := rfl

@[simp] theorem since_zero (machine : Machine digest) : machine.since 0 = machine := by
  cases machine
  simp only [since, mk.injEq]
  funext path
  cases path <;> simp

@[simp] theorem since_since (machine : Machine digest) (earlier later : Nat) :
    (machine.since earlier).since later = machine.since (earlier + later) := by
  simp only [since, mk.injEq]
  funext path
  cases path <;> simp [Nat.add_assoc]

/-- Whether a request succeeds now. -/
def grants (machine : Machine digest) (request : Request) : Bool := machine.grantsAt [] request

/-- Request memory; a refusal is reported as `reported`. -/
def request (machine : Machine digest) (request : Request) (reported : UInt64) :
    Except Failure Unit :=
  if machine.grants request then .ok () else .error (.outOfMemory reported)

/-- Make room for one more entry in a log that has some.  It is for the machine to know
if there is room to spare.  A refusal is reported as the bytes of that entry. -/
def makeRoom (machine : Machine digest) (bytes entries : Nat) : Except Failure Unit :=
  machine.request (.entry bytes entries) (UInt64.ofNat bytes)

end Machine

end WordStm
