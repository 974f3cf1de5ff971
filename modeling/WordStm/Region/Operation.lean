import WordStm.Region.Basic

/-!
# Operations of a transaction

Inside a transaction a client reads and writes runs of whole words, allocates
segments and frees them.  An operation that fails dooms its transaction, except
an allocation for which there is no memory: that one leaves everything as it was,
unless the segment was registered already when the log could not take it.  Then
it is retired again at once.

An access is located first.  It has to be aligned, to lie in a segment that the
snapshot can see, and to end within it, and is checked in this order.
-/

namespace WordStm

/-- What a client asks of a transaction. -/
inductive Operation where
  | read (source : Address) (length : UInt64)
  | write (value : Bytes) (target : Address)
  | alloc (size : UInt64)
  | free (target : Address)
  deriving DecidableEq

/-- What a client gets for an operation. -/
inductive Reply where
  | bytes (value : Bytes)
  | address (value : Address)
  | done
  deriving DecidableEq

/-- Doom an active transaction for a failure. -/
def Transaction.doom (transaction : Transaction) (failure : Failure) : Transaction :=
  if transaction.isActive then transaction.markAborted (.ofFailure failure) else transaction

/-- After a failed operation the transaction is doomed. -/
def Transaction.doomOn {α : Type} (transaction : Transaction) : Except Failure α → Transaction
  | .ok _ => transaction
  | .error failure => transaction.doom failure

namespace Region

variable {digest : Digest}

/-- The length and the offset of an access are whole words, and there is one at
least.  An empty access is refused before it is divided by anything. -/
def isAligned (align : UInt64) (address : Address) (length : UInt64) : Except Fault Bool :=
  if length = 0 then .ok false
  else if align = 0 then .error .divisionByZero
  else .ok (length % align == 0 && address.offset % align == 0)

/-- The first word of an access. -/
def locate (region : Region) (snapshot : Version) (address : Address) (length : UInt64) :
    Except Fault (Except Failure Place) := do
  let align := region.config.align
  if ← isAligned align address length then
    match region.table.resolve address snapshot with
    | .error failure => return .error failure
    | .ok handle =>
        let size := (← region.memory.get handle).size
        if address.offset.toNat + length.toNat ≤ size then
          return .ok ⟨handle, address.offset.toNat / align.toNat⟩
        else return .error (.usage (.outOfBounds address length (UInt64.ofNat size)))
  else return .error (.usage (.misaligned address length align))

/-- Read `count` words from a place on, behind the words already read, the last
of which comes first. -/
def readWords (machine : Machine digest) (region : Region) (transaction : Transaction)
    (address : Address) (place : Place) (done : List Bytes) :
    (count : Nat) → Except Fault (Transaction × Except Failure Bytes)
  | 0 => .ok (transaction, .ok done.reverse.flatten)
  | count + 1 => do
      let buffer := List.replicate region.config.align.toNat 0
      match ← transaction.readWord machine region.memory address place buffer with
      | (transaction, .error failure) => return (transaction, .error failure)
      | (transaction, .ok word) =>
          readWords machine region transaction (address.offsetBy region.config.align)
            { place with word := place.word + 1 } (word :: done) count

/-- Buffer a value of `count` words from a place on. -/
def writeWords (machine : Machine digest) (region : Region) (transaction : Transaction)
    (address : Address) (place : Place) (value : Bytes) :
    (count : Nat) → Transaction × Except Failure Unit
  | 0 => (transaction, .ok ())
  | count + 1 =>
      let align := region.config.align.toNat
      match transaction.writeWord machine address place (value.take align) with
      | (transaction, .error failure) => (transaction, .error failure)
      | (transaction, .ok ()) =>
          writeWords machine region transaction (address.offsetBy region.config.align)
            { place with word := place.word + 1 } (value.drop align) count

/-- Read a run of words, without dooming the transaction on failure. -/
def tryRead (machine : Machine digest) (region : Region) (transaction : Transaction)
    (source : Address) (length : UInt64) : Except Fault (Transaction × Except Failure Bytes) := do
  match transaction.ensureActive with
  | .error failure => return (transaction, .error failure)
  | .ok () =>
      match ← region.locate transaction.snapshot source length with
      | .error failure => return (transaction, .error failure)
      | .ok place =>
          readWords machine region transaction source place []
            (length.toNat / region.config.align.toNat)

/-- Buffer a run of words, without dooming the transaction on failure. -/
def tryWrite (machine : Machine digest) (region : Region) (transaction : Transaction)
    (value : Bytes) (target : Address) : Except Fault (Transaction × Except Failure Unit) := do
  match transaction.ensureActive, transaction.ensureWritable "write" with
  | .error failure, _ | .ok (), .error failure => return (transaction, .error failure)
  | .ok (), .ok () =>
      match ← region.locate transaction.snapshot target (UInt64.ofNat value.length) with
      | .error failure => return (transaction, .error failure)
      | .ok place =>
          return writeWords machine region transaction target place value
            (value.length / region.config.align.toNat)

/-- Make a segment and register it, or change nothing. -/
def addSegment (machine : Machine digest) (region : Region) (size : UInt64) :
    Except Fault (Except Failure (Region × SegmentId)) := do
  match ← Segment.create machine size region.config.align with
  | .error failure => return .error failure
  | .ok segment =>
      let (handle, memory) := region.memory.add segment
      match region.table.register machine handle size with
      | .error failure => return .error failure
      | .ok (id, table) => return .ok ({ region with memory, table }, id)

/-- Allocate a segment, without dooming the transaction on failure.  A segment that
the log has no room for is retired as of now. -/
def tryAlloc (machine : Machine digest) (region : Region) (transaction : Transaction)
    (size : UInt64) : Except Fault (Region × Transaction × Except Failure Address) := do
  match transaction.ensureActive, transaction.ensureWritable "alloc" with
  | .error failure, _ | .ok (), .error failure => return (region, transaction, .error failure)
  | .ok (), .ok () =>
      match ← Layout.checkSize size region.config.align with
      | .error error => return (region, transaction, .error error.toFailure)
      | .ok () =>
          match ← region.addSegment machine size with
          | .error failure => return (region, transaction, .error failure)
          | .ok (region, id) =>
              match transaction.log.recordAlloc machine id with
              | .error failure =>
                  let table := (region.table.retire id region.coordinator.clock).2
                  return ({ region with table }, transaction, .error failure)
              | .ok log => return (region, { transaction with log }, .ok (.base id))

/-- Schedule a free, without dooming the transaction on failure. -/
def tryFree (machine : Machine digest) (region : Region) (transaction : Transaction)
    (target : Address) : Transaction × Except Failure Unit :=
  match transaction.ensureActive, transaction.ensureWritable "free" with
  | .error failure, _ | .ok (), .error failure => (transaction, .error failure)
  | .ok (), .ok () =>
      if target.segment = .first then (transaction, .error (.usage .initialSegment))
      else if !target.isBase then (transaction, .error (.usage (.notSegmentBase target)))
      else
        match region.table.get target.segment transaction.snapshot with
        | .error failure => (transaction, .error failure)
        | .ok _ =>
            match transaction.log.recordFree machine target.segment with
            | .error failure => (transaction, .error failure)
            | .ok log => ({ transaction with log }, .ok ())

/-- Read a run of words. -/
def read (machine : Machine digest) (region : Region) (transaction : Transaction)
    (source : Address) (length : UInt64) : Except Fault (Transaction × Except Failure Bytes) := do
  let (transaction, result) ← region.tryRead machine transaction source length
  return (transaction.doomOn result, result)

/-- Buffer a run of words, to be published when the transaction commits. -/
def write (machine : Machine digest) (region : Region) (transaction : Transaction)
    (value : Bytes) (target : Address) : Except Fault (Transaction × Except Failure Unit) := do
  let (transaction, result) ← region.tryWrite machine transaction value target
  return (transaction.doomOn result, result)

/-- Allocate a segment of zero bytes.  Everybody sees it at once; it is retired
again if the transaction does not commit.  A lack of memory does not doom. -/
def alloc (machine : Machine digest) (region : Region) (transaction : Transaction)
    (size : UInt64) : Except Fault (Region × Transaction × Except Failure Address) := do
  match ← region.tryAlloc machine transaction size with
  | (region, transaction, .error failure) =>
      if failure.isOutOfMemory then return (region, transaction, .error failure)
      else return (region, transaction.doom failure, .error failure)
  | (region, transaction, .ok address) => return (region, transaction, .ok address)

/-- Free a segment when the transaction commits. -/
def free (machine : Machine digest) (region : Region) (transaction : Transaction)
    (target : Address) : Transaction × Except Failure Unit :=
  let (transaction, result) := region.tryFree machine transaction target
  (transaction.doomOn result, result)

/-- Carry out an operation of a transaction. -/
def perform (machine : Machine digest) (region : Region) (transaction : Transaction)
    (operation : Operation) : Except Fault (Region × Transaction × Except Failure Reply) := do
  match operation with
  | .read source length =>
      let (transaction, result) ← region.read machine transaction source length
      return (region, transaction, result.map .bytes)
  | .write value target =>
      let (transaction, result) ← region.write machine transaction value target
      return (region, transaction, result.map fun _ => .done)
  | .alloc size =>
      let (region, transaction, result) ← region.alloc machine transaction size
      return (region, transaction, result.map .address)
  | .free target =>
      let (transaction, result) := region.free machine transaction target
      return (region, transaction, result.map fun _ => .done)

end Region

end WordStm
