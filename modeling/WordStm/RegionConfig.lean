import WordStm.Layout

/-!
# Region configurations

A configuration fixes the layout of a region's first segment and three tunings:
the size of each transaction's address filter, the order in which a commit takes
its locks, and how many table slots are reserved.
-/

namespace WordStm

/-- The order in which a commit takes its locks.  It decides only which of two
overlapping commits loses. -/
inductive LockOrder where
  /-- The word written first most recently comes first. -/
  | writeSet
  /-- Ascending addresses, the same for every transaction. -/
  | address
  deriving DecidableEq

namespace LockOrder

/-- The order that a configuration has unless it says otherwise. -/
def standard : LockOrder := .address

/-- The name of an order in data. -/
def key : LockOrder → String
  | writeSet => "write_set"
  | address => "address"

/-- The name of an order in structural text. -/
def name : LockOrder → String
  | writeSet => "WriteSet"
  | address => "Address"

end LockOrder

def defaultFilterBits : UInt64 := 4096

def defaultFilterHashes : UInt32 := 3

def defaultTableCapacity : UInt64 := 64

/-- Everything that a region is created from. -/
structure RegionConfig where
  /-- Bytes of the first segment. -/
  size : UInt64
  /-- Bytes of a word. -/
  align : UInt64
  filterBits : UInt64 := defaultFilterBits
  filterHashes : UInt32 := defaultFilterHashes
  lockOrder : LockOrder := .standard
  /-- Table slots reserved at creation. -/
  tableCapacity : UInt64 := defaultTableCapacity
  deriving DecidableEq

/-- Why a configuration describes no region. -/
inductive ConfigError where
  | layout (error : LayoutError)
  | noFilterBits
  | noFilterHashes
  deriving DecidableEq

def ConfigError.toFailure : ConfigError → Failure
  | layout error => error.toFailure
  | noFilterBits => .invalidConfig "bloom_bits must be positive"
  | noFilterHashes => .invalidConfig "bloom_hashes must be positive"

namespace RegionConfig

/-- A configuration to start from: words of 8 bytes and the usual tuning.  It
describes no region until it is given a size. -/
def unsized : RegionConfig := { size := 0, align := 8 }

/-- The first rule that a configuration breaks.  The alignment comes first, so
the size is only ever divided by a power of two. -/
def check (config : RegionConfig) : Except Fault (Except ConfigError Unit) :=
  match Layout.checkAlignment config.align with
  | .error error => .ok (.error (.layout error))
  | .ok () =>
      match Layout.checkSize config.size config.align with
      | .error fault => .error fault
      | .ok (.error error) => .ok (.error (.layout error))
      | .ok (.ok ()) =>
          if config.filterBits = 0 then .ok (.error .noFilterBits)
          else if config.filterHashes = 0 then .ok (.error .noFilterHashes)
          else .ok (.ok ())

end RegionConfig

end WordStm
