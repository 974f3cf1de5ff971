import WordStm.Identity
import WordStm.TransactionLog

/-!
# Transactions

A transaction sees memory as it was when the transaction began: it remembers the
clock of that moment, its snapshot, and refuses any word that carries a later
version.  What it writes stays in its log until it commits.

A word is read in four steps: note its version, copy it, check that it is not
locked, and check that its version is still the same and not later than the
snapshot.  A word that the transaction wrote itself is read from its log, but
the word in memory has to pass the same checks.
-/

namespace WordStm

/-- How far a transaction has come. -/
inductive Status where
  | active
  /-- A commit is taking locks or checking what was read. -/
  | validating
  | committed (version : Version)
  /-- No commit is possible any more. -/
  | aborted (reason : AbortReason)
  deriving DecidableEq

namespace Status

def isAborted : Status → Bool
  | aborted _ => true
  | _ => false

/-- One line on a status: its name, then the version or the reason. -/
def text : Status → String
  | active => "active"
  | validating => "validating"
  | committed version => "committed " ++ version.toNat.repr
  | aborted reason => "aborted " ++ reason.name ++ ": " ++ reason.message

end Status

structure Transaction where
  id : TransactionId
  mode : AccessMode
  /-- The clock when the transaction began. -/
  snapshot : Version
  status : Status
  log : TransactionLog

namespace Transaction

variable {digest : Digest}

/-- Begin a transaction.  One that only reads never consults its filter, so it
gets the smallest. -/
def start (machine : Machine digest) (id : TransactionId) (mode : AccessMode) (snapshot : Version)
    (filterBits : UInt64) (filterHashes : UInt32) :
    Except Fault (Except Failure Transaction) := do
  let made ← match mode with
    | .readOnly => AddressFilter.create machine 64 1
    | .readWrite => AddressFilter.create machine filterBits filterHashes
  return made.map fun filter => { id, mode, snapshot, status := .active, log := .empty filter }

def isActive (transaction : Transaction) : Bool :=
  match transaction.status with
  | .active => true
  | _ => false

/-- Whether an earlier failure rules a commit out. -/
def isDoomed (transaction : Transaction) : Bool := transaction.status.isAborted

/-- The reason of an aborted transaction. -/
def abortReason? (transaction : Transaction) : Option AbortReason :=
  match transaction.status with
  | .aborted reason => some reason
  | _ => none

/-- Fail unless reads and writes are still accepted. -/
def ensureActive (transaction : Transaction) : Except Failure Unit :=
  match transaction.status with
  | .active => .ok ()
  | .aborted reason => .error reason.doomedFailure
  | .validating | .committed _ => .error (.usage .transactionFinished)

/-- Fail if the transaction only reads. -/
def ensureWritable (transaction : Transaction) (operation : String) : Except Failure Unit :=
  if transaction.mode.isReadOnly then .error (.usage (.readOnlyTransaction operation)) else .ok ()

/-- Give up.  Of several reasons the first is kept. -/
def markAborted (transaction : Transaction) (reason : AbortReason) : Transaction :=
  if transaction.status.isAborted then transaction
  else { transaction with status := .aborted reason }

def markCommitted (transaction : Transaction) (version : Version) : Transaction :=
  { transaction with status := .committed version }

/-- Replace the write set. -/
def withWrites (transaction : Transaction) (writes : WriteSet) : Transaction :=
  { transaction with log := { transaction.log with writes } }

/-- Read a word as of a snapshot into a buffer.  A buffered value stands in for
the bytes in memory and has to be as long as the buffer. -/
def sample (memory : Memory) (address : Address) (place : Place) (snapshot : Version)
    (buffered : Option Bytes) (buffer : Bytes) : Except Fault (Except AbortReason Bytes) := do
  let before ← memory.version place
  let bytes ← match buffered with
    | some value => if value.length = buffer.length then pure value else throw .lengthMismatch
    | none => memory.load place buffer
  if ← memory.isLocked place then return .error (.wordLocked address)
  let after ← memory.version place
  if after ≠ before then return .error (.versionChanged address)
  if after > snapshot then return .error (.versionTooNew address after snapshot)
  return .ok bytes

/-- Read a word.  A transaction that may write remembers each word it read, and
fails if its log has no room for one more. -/
def readWord (machine : Machine digest) (memory : Memory) (transaction : Transaction)
    (address : Address) (place : Place) (buffer : Bytes) :
    Except Fault (Transaction × Except Failure Bytes) := do
  if transaction.mode.isReadOnly then
    let sampled ← sample memory address place transaction.snapshot none buffer
    return (transaction, sampled.mapError .aborted)
  else
    let (entry, writes) := transaction.log.writes.get digest address
    let transaction := transaction.withWrites writes
    match ← sample memory address place transaction.snapshot (entry.map (·.value)) buffer with
    | .error reason => return (transaction, .error (.aborted reason))
    | .ok bytes =>
        match transaction.log.recordRead machine address place with
        | .error failure => return (transaction, .error failure)
        | .ok log => return ({ transaction with log }, .ok bytes)

/-- Buffer a value for a word. -/
def writeWord (machine : Machine digest) (transaction : Transaction) (address : Address)
    (place : Place) (value : Bytes) : Transaction × Except Failure Unit :=
  match transaction.ensureWritable "write" with
  | .error failure => (transaction, .error failure)
  | .ok () =>
      let (writes, result) := transaction.log.writes.record machine address place value
      (transaction.withWrites writes, result)

end Transaction

end WordStm
