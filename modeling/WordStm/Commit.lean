import WordStm.RegionConfig
import WordStm.Transaction

/-!
# The clock and the commit

A coordinator owns the clock.  A transaction that wrote or freed something
commits in four steps:

1. lock every word of its write set; the first lock that is held elsewhere ends
   the attempt, and the locks taken so far are released;
2. advance the clock: the new value is the version of the commit;
3. check every word of its read set, unless nothing can have been committed
   since the transaction began; the first conflict releases all locks;
4. publish every value, which stamps the version and releases the lock.

A transaction that wrote and freed nothing commits at its snapshot and touches
nothing.
-/

namespace WordStm

/-- Why a word that was read no longer stands. -/
inductive Conflict where
  /-- It was committed after the snapshot. -/
  | versionTooNew (address : Address) (version : Version)
  /-- It is locked, and not by this transaction. -/
  | lockedByOther (address : Address)
  deriving DecidableEq

def Conflict.address : Conflict → Address
  | versionTooNew address _ => address
  | lockedByOther address => address

/-- When a commit at a version checks what was read since a snapshot. -/
abbrev ValidationRule := (snapshot version : Version) → Bool

/-- Whether a commit has to check what was read: if the clock stood at the
snapshot until this commit advanced it, nothing can have changed. -/
def needsValidation : ValidationRule := fun snapshot version => version != snapshot + 1

namespace ReadEntry

/-- Check one word that was read.  At a commit every word of the write set is
locked by the transaction itself, so only other locks count. -/
def conflict? (digest : Digest) (memory : Memory) (snapshot : Version) (entry : ReadEntry)
    (writes : WriteSet) : Except Fault (WriteSet × Option Conflict) := do
  let version ← memory.version entry.place
  if version > snapshot then return (writes, some (.versionTooNew entry.address version))
  if ← memory.isLocked entry.place then
    let (own, writes) := writes.contains digest entry.address
    if own then return (writes, none)
    return (writes, some (.lockedByOther entry.address))
  return (writes, none)

/-- Check the words that were read, in order, up to the first conflict. -/
def firstConflict? (digest : Digest) (memory : Memory) (snapshot : Version) :
    List ReadEntry → WriteSet → Except Fault (WriteSet × Option Conflict)
  | [], writes => .ok (writes, none)
  | entry :: rest, writes => do
      match ← entry.conflict? digest memory snapshot writes with
      | (writes, some conflict) => return (writes, some conflict)
      | (writes, none) => firstConflict? digest memory snapshot rest writes

end ReadEntry

namespace WriteEntry

/-- Release the locks of some entries. -/
def unlockAll (memory : Memory) : List WriteEntry → Except Fault Memory
  | [] => .ok memory
  | entry :: rest => do unlockAll (← memory.unlock entry.place) rest

/-- Take the locks of some entries in order.  If one is held already, the
entries of `taken` are released as well, and that entry is returned. -/
def lockAll (memory : Memory) (taken : List WriteEntry) :
    List WriteEntry → Except Fault (Memory × Option WriteEntry)
  | [] => .ok (memory, none)
  | entry :: rest => do
      let (free, locked) ← memory.tryLock entry.place
      if free then lockAll locked (entry :: taken) rest
      else return (← unlockAll memory taken, some entry)

/-- Publish the values of some entries at a version. -/
def publishAll (memory : Memory) (version : Version) : List WriteEntry → Except Fault Memory
  | [] => .ok memory
  | entry :: rest => do
      publishAll (← memory.publish entry.place entry.value version) version rest

end WriteEntry

/-- The entries of a write set in the order in which their locks are taken. -/
def LockOrder.sequence (order : LockOrder) (writes : WriteSet) : List WriteEntry :=
  match order with
  | .writeSet => writes.recentFirst
  | .address =>
      writes.entries.toList.mergeSort fun left right => decide (left.address ≤ right.address)

/-- What commits go through. -/
structure Coordinator where
  clock : Version
  nextId : UInt64
  lockOrder : LockOrder
  /-- The filter of each transaction. -/
  filterBits : UInt64
  filterHashes : UInt32
  deriving DecidableEq

namespace Coordinator

/-- The coordinator of a new region. -/
def ofConfig (config : RegionConfig) : Coordinator where
  clock := 0
  nextId := 1
  lockOrder := config.lockOrder
  filterBits := config.filterBits
  filterHashes := config.filterHashes

/-- A coordinator with the tuning that configurations have by default. -/
def standard : Coordinator := ofConfig .unsized

/-- Advance the clock; the version is the new value. -/
def tick (coordinator : Coordinator) : Version × Coordinator :=
  (coordinator.clock + 1, { coordinator with clock := coordinator.clock + 1 })

/-- Give out a transaction number. -/
def takeId (coordinator : Coordinator) : TransactionId × Coordinator :=
  (⟨coordinator.nextId⟩, { coordinator with nextId := coordinator.nextId + 1 })

/-- Begin a transaction at the current clock.  Its number is used up even if it
cannot begin. -/
def start {digest : Digest} (machine : Machine digest) (coordinator : Coordinator)
    (mode : AccessMode) : Except Fault (Coordinator × Except Failure Transaction) := do
  let (id, coordinator) := coordinator.takeId
  let started ← Transaction.start machine id mode coordinator.clock coordinator.filterBits
    coordinator.filterHashes
  return (coordinator, started)

/-- Abort a transaction, and return what its owner is to report. -/
def abort (transaction : Transaction) (reason : AbortReason) : Transaction × Failure :=
  (transaction.markAborted reason, .aborted reason)

/-- What a commit leaves behind. -/
structure Outcome where
  coordinator : Coordinator
  memory : Memory
  transaction : Transaction
  result : Except Failure Version

/-- Commit a transaction that has something to publish or to free, by a given rule. -/
def commitWritesBy (rule : ValidationRule) (digest : Digest) (coordinator : Coordinator)
    (memory : Memory) (transaction : Transaction) : Except Fault Outcome := do
  let transaction := { transaction with status := .validating }
  let sequence := coordinator.lockOrder.sequence transaction.log.writes
  match ← WriteEntry.lockAll memory [] sequence with
  | (memory, some entry) =>
      let (transaction, failure) := abort transaction (.lockContention entry.address)
      return { coordinator, memory, transaction, result := .error failure }
  | (memory, none) =>
      let (version, coordinator) := coordinator.tick
      let (writes, conflict) ←
        if rule transaction.snapshot version then
          ReadEntry.firstConflict? digest memory transaction.snapshot
            transaction.log.reads.toList transaction.log.writes
        else pure (transaction.log.writes, none)
      let transaction := transaction.withWrites writes
      match conflict with
      | some conflict =>
          let memory ← WriteEntry.unlockAll memory sequence
          let (transaction, failure) := abort transaction (.validationFailed conflict.address)
          return { coordinator, memory, transaction, result := .error failure }
      | none =>
          let memory ← WriteEntry.publishAll memory version writes.entries.toList
          let transaction := transaction.markCommitted version
          return { coordinator, memory, transaction, result := .ok version }

/-- Commit a transaction, by a given rule. -/
def commitBy (rule : ValidationRule) (digest : Digest) (coordinator : Coordinator)
    (memory : Memory) (transaction : Transaction) : Except Fault Outcome :=
  match transaction.ensureActive with
  | .error failure => .ok { coordinator, memory, transaction, result := .error failure }
  | .ok () =>
      if transaction.mode.isReadOnly || transaction.log.isReadOnly then
        .ok {
          coordinator, memory
          transaction := transaction.markCommitted transaction.snapshot
          result := .ok transaction.snapshot }
      else commitWritesBy rule digest coordinator memory transaction

/-- Commit a transaction.  On success the result is the version at which it
stands among all others. -/
def commit (digest : Digest) (coordinator : Coordinator) (memory : Memory)
    (transaction : Transaction) : Except Fault Outcome :=
  coordinator.commitBy needsValidation digest memory transaction

end Coordinator

end WordStm
