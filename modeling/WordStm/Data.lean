import WordStm.Binary64.Shortest
import WordStm.Identity
import WordStm.RegionConfig
import WordStm.Text.Quoted

/-!
# Values as plain data

Configurations, addresses and the like are exchanged as trees of plain data.
Writing a value as data is total; reading one back checks its shape, and names
the first thing that is wrong.
-/

namespace WordStm

/-- Plain data. -/
inductive Data where
  | null
  | boolean (value : Bool)
  | integer (value : Int)
  | real (value : Binary64)
  | text (value : String)
  | sequence (items : List Data)
  | mapping (entries : List (String × Data))

/-- Why data is not a value of some type. -/
inductive DataError where
  /-- Another kind of data was expected. -/
  | wrongType (found expected : String)
  /-- A number is out of range. -/
  | wrongValue (found expected : String)
  | unknownVariant (found : String) (expected : List String)
  | missingField (name : String)
  /-- There are too few or too many parts, or one twice. -/
  | wrongShape
  deriving DecidableEq

namespace DataError

/-- The text of an error, if it has one of its own. -/
def message? : DataError → Option String
  | wrongType found expected => some ("invalid type: " ++ found ++ ", expected " ++ expected)
  | wrongValue found expected => some ("invalid value: " ++ found ++ ", expected " ++ expected)
  | unknownVariant found expected =>
      some ("unknown variant `" ++ found ++ "`, expected " ++
        String.intercalate " or " (expected.map fun name => "`" ++ name ++ "`"))
  | missingField name => some ("missing field `" ++ name ++ "`")
  | wrongShape => none

end DataError

namespace Data

/-- How a message speaks of data that it did not expect. -/
def describe : Data → String
  | null => "null"
  | boolean value => "boolean `" ++ (if value then "true" else "false") ++ "`"
  | integer value => "integer `" ++ (if value < 0 then "-" else "") ++ value.natAbs.repr ++ "`"
  | real value => "floating point `" ++ value.text ++ "`"
  | text value => "string " ++ Text.quoted value
  | sequence _ => "sequence"
  | mapping _ => "map"

/-- A natural number below a limit. -/
def toNat (limit : Nat) (expected : String) (data : Data) : Except DataError Nat :=
  match data with
  | integer value =>
      if 0 ≤ value ∧ value.toNat < limit then .ok value.toNat
      else .error (.wrongValue data.describe expected)
  | _ => .error (.wrongType data.describe expected)

def toUInt64 (expected : String) (data : Data) : Except DataError UInt64 :=
  (data.toNat UInt64.size expected).map UInt64.ofNat

def toUInt32 (data : Data) : Except DataError UInt32 :=
  (data.toNat UInt32.size "u32").map UInt32.ofNat

/-- One of several names, as a text or as the only key of a mapping to nothing. -/
def toVariant {α : Type} (variants : List (String × α)) (data : Data) : Except DataError α :=
  let byName (name : String) : Except DataError α :=
    match variants.lookup name with
    | some value => .ok value
    | none => .error (.unknownVariant name (variants.map (·.1)))
  match data with
  | text name => byName name
  | mapping [(name, null)] => byName name
  | _ => .error .wrongShape

def ofNat (number : Nat) : Data := integer number

end Data

/-- Read a field that was not read before. -/
def fillField {α : Type} (field : Option α) (value : Except DataError α) :
    Except DataError (Option α) :=
  match field with
  | some _ => .error .wrongShape
  | none => value.map some

/-- A field that has to be there. -/
def requireField {α : Type} (name : String) (field : Option α) : Except DataError α :=
  match field with
  | some value => .ok value
  | none => .error (.missingField name)

namespace LockOrder

def ofData : Data → Except DataError LockOrder :=
  Data.toVariant [(writeSet.key, writeSet), (address.key, address)]

def toData (order : LockOrder) : Data := .text order.key

end LockOrder

namespace AccessMode

def ofData : Data → Except DataError AccessMode :=
  Data.toVariant [(readOnly.name, readOnly), (readWrite.name, readWrite)]

def toData (mode : AccessMode) : Data := .text mode.name

end AccessMode

namespace TransactionId

def ofData (data : Data) : Except DataError TransactionId := (data.toUInt64 "u64").map (⟨·⟩)

def toData (id : TransactionId) : Data := .ofNat id.raw.toNat

end TransactionId

namespace SegmentId

def ofData (data : Data) : Except DataError SegmentId := data.toUInt32.map (⟨·⟩)

def toData (id : SegmentId) : Data := .ofNat id.raw.toNat

end SegmentId

namespace Address

/-- An address read so far. -/
structure Draft where
  segment : Option SegmentId := none
  offset : Option UInt64 := none

/-- Read one entry; keys of no field are passed over. -/
def Draft.add (draft : Draft) (entry : String × Data) : Except DataError Draft :=
  match entry with
  | ("segment", data) => do
      return { draft with segment := ← fillField draft.segment (SegmentId.ofData data) }
  | ("offset", data) => do
      return { draft with offset := ← fillField draft.offset (data.toUInt64 "u64") }
  | _ => .ok draft

/-- Read an address, given by name or in order. -/
def ofData : Data → Except DataError Address
  | .mapping entries => do
      let draft ← entries.foldlM Draft.add {}
      return ⟨← requireField "segment" draft.segment, ← requireField "offset" draft.offset⟩
  | .sequence [segment, offset] => do
      return ⟨← SegmentId.ofData segment, ← offset.toUInt64 "u64"⟩
  | .sequence _ => .error .wrongShape
  | other => .error (.wrongType other.describe "struct Address")

def toData (address : Address) : Data :=
  .mapping
    [("segment", address.segment.toData), ("offset", .ofNat address.offset.toNat)]

end Address

namespace RegionConfig

/-- A configuration read so far. -/
structure Draft where
  size : Option UInt64 := none
  align : Option UInt64 := none
  filterBits : Option UInt64 := none
  filterHashes : Option UInt32 := none
  lockOrder : Option LockOrder := none
  tableCapacity : Option UInt64 := none

namespace Draft

/-- Read one entry; keys of no field are passed over. -/
def add (draft : Draft) (entry : String × Data) : Except DataError Draft :=
  match entry with
  | ("size", data) => do
      return { draft with size := ← fillField draft.size (data.toUInt64 "usize") }
  | ("align", data) => do
      return { draft with align := ← fillField draft.align (data.toUInt64 "usize") }
  | ("bloom_bits", data) => do
      return { draft with filterBits := ← fillField draft.filterBits (data.toUInt64 "usize") }
  | ("bloom_hashes", data) => do
      return { draft with filterHashes := ← fillField draft.filterHashes data.toUInt32 }
  | ("lock_order", data) => do
      return { draft with lockOrder := ← fillField draft.lockOrder (LockOrder.ofData data) }
  | ("initial_table_capacity", data) => do
      return { draft with
        tableCapacity := ← fillField draft.tableCapacity (data.toUInt64 "usize") }
  | _ => .ok draft

/-- The layout has to be given; the tuning has defaults. -/
def finish (draft : Draft) : Except DataError RegionConfig := do
  return {
    size := ← requireField "size" draft.size
    align := ← requireField "align" draft.align
    filterBits := draft.filterBits.getD defaultFilterBits
    filterHashes := draft.filterHashes.getD defaultFilterHashes
    lockOrder := draft.lockOrder.getD .standard
    tableCapacity := draft.tableCapacity.getD defaultTableCapacity }

end Draft

/-- The fields, in the order in which a sequence gives them. -/
def fieldNames : List String :=
  ["size", "align", "bloom_bits", "bloom_hashes", "lock_order", "initial_table_capacity"]

/-- Read a configuration, given by name or in order.  Entries are read as they
come, and the first that is wrong is reported; what is missing is reported only
after that. -/
def ofData : Data → Except DataError RegionConfig
  | .mapping entries => do (← entries.foldlM Draft.add {}).finish
  | .sequence items =>
      if items.length > fieldNames.length then .error .wrongShape
      else do (← (fieldNames.zip items).foldlM Draft.add {}).finish
  | other => .error (.wrongType other.describe "struct RegionConfig")

def toData (config : RegionConfig) : Data :=
  .mapping
    [("size", .ofNat config.size.toNat), ("align", .ofNat config.align.toNat),
      ("bloom_bits", .ofNat config.filterBits.toNat),
      ("bloom_hashes", .ofNat config.filterHashes.toNat),
      ("lock_order", config.lockOrder.toData),
      ("initial_table_capacity", .ofNat config.tableCapacity.toNat)]

end RegionConfig

end WordStm
