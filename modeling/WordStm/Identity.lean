/-!
# Who a transaction is

A transaction is begun either to read only or to read and write, and carries a
number that tells it from the others of its region.
-/

namespace WordStm

/-- What a transaction may do, fixed when it begins. -/
inductive AccessMode where
  | readOnly
  | readWrite
  deriving DecidableEq

namespace AccessMode

def ofReadOnly (readOnly : Bool) : AccessMode := if readOnly then .readOnly else .readWrite

def isReadOnly : AccessMode → Bool
  | readOnly => true
  | readWrite => false

/-- How a mode is shown to a reader. -/
def text : AccessMode → String
  | readOnly => "read-only"
  | readWrite => "read-write"

/-- The name of a mode in data and in structural text. -/
def name : AccessMode → String
  | readOnly => "ReadOnly"
  | readWrite => "ReadWrite"

end AccessMode

/-- The number of a transaction within its region.  Conflicts never depend on it. -/
structure TransactionId where
  raw : UInt64
  deriving DecidableEq

/-- How a transaction number is shown to a reader. -/
def TransactionId.text (id : TransactionId) : String := "tx#" ++ id.raw.toNat.repr

end WordStm
