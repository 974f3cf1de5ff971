import WordStm.Data

/-!
# TOML tables

A document is a table of keys and values, which may be tables themselves.  How a
table came about decides how it may grow later: one that was written out in full
is closed, one that only appeared on the way to another may still be written
out, and one that grew from dotted keys takes further dotted keys only.
-/

namespace WordStm.Toml

/-- How a table came about. -/
inductive Origin where
  /-- By a header of its own, by braces, or as the whole document. -/
  | defined
  /-- On the way to a table with a longer header. -/
  | implied
  /-- By a dotted key. -/
  | dotted
  deriving DecidableEq

mutual

/-- A value, or a table of the document. -/
inductive Node where
  | text (value : String)
  | integer (value : Int)
  | real (value : Binary64)
  | boolean (value : Bool)
  /-- A date, a time or both.  Nothing depends on which. -/
  | moment
  | array (items : List Node)
  /-- A table between braces. -/
  | inline (table : Table)
  /-- A table with a header, or on the way to one. -/
  | table (table : Table)
  /-- The tables of one repeated header. -/
  | tables (elements : List Table)

/-- Keys and their values, in the order of writing. -/
inductive Table where
  | mk (origin : Origin) (entries : List (String × Node))

end

/-- Keys of the document and keys between braces grow different tables. -/
inductive Level where
  | document
  | braces
  deriving DecidableEq

/-- A table as a value of its level. -/
def Level.node : Level → Table → Node
  | document => .table
  | braces => .inline

namespace Table

def origin : Table → Origin
  | mk origin _ => origin

def entries : Table → List (String × Node)
  | mk _ entries => entries

def empty (origin : Origin) : Table := mk origin []

def find? (table : Table) (key : String) : Option Node := table.entries.lookup key

/-- Add an entry behind all others. -/
def append (table : Table) (key : String) (node : Node) : Table :=
  mk table.origin (table.entries ++ [(key, node)])

/-- Replace the value of a key where it stands. -/
def replace (table : Table) (key : String) (node : Node) : Table :=
  mk table.origin (table.entries.map fun entry => if entry.1 = key then (key, node) else entry)

def erase (table : Table) (key : String) : Table :=
  mk table.origin (table.entries.filter fun entry => entry.1 ≠ key)

/-- Add an entry under a key that is still free. -/
def insert? (table : Table) (key : String) (node : Node) : Option Table :=
  match table.find? key with
  | some _ => none
  | none => some (table.append key node)

/-- The table that a path enters at a node, and how the node looks with that
table changed.  A dotted key may not enter a table that was defined elsewhere;
of repeated tables the last one is entered. -/
def enter? (level : Level) (dotted : Bool) (node : Node) : Option (Table × (Table → Node)) :=
  match level, node with
  | .document, .table child | .braces, .inline child =>
      if dotted && child.origin = .defined then none else some (child, level.node)
  | .document, .tables elements =>
      elements.getLast?.map fun child =>
        (child, fun changed => .tables (elements.dropLast ++ [changed]))
  | _, _ => none

/-- Follow a path from a table and edit the table at its end.  Tables that are
missing on the way are made. -/
def editAt {α : Type} (level : Level) (dotted : Bool) (edit : Table → Option (α × Table)) :
    List String → Table → Option (α × Table)
  | [], table => edit table
  | key :: rest, table =>
      match table.find? key with
      | none => do
          let fresh := empty (if dotted then .dotted else .implied)
          let (found, child) ← editAt level dotted edit rest fresh
          return (found, table.append key (level.node child))
      | some node => do
          let (child, close) ← enter? level dotted node
          let (found, child) ← editAt level dotted edit rest child
          return (found, table.replace key (close child))

/-- Add a value under a dotted key.  The table it goes to must have grown from
dotted keys exactly if there are dots. -/
def insertAt? (level : Level) (path : List String) (key : String) (node : Node) (table : Table) :
    Option Table := do
  let edit (target : Table) : Option (Unit × Table) :=
    if (target.origin = .dotted) = (path = []) then none
    else (target.insert? key node).map fun table => ((), table)
  return (← editAt level (path ≠ []) edit path table).2

/-- The table that some dotted keys and values between braces make. -/
def ofPairs? (pairs : List (List String × String × Node)) : Option Table :=
  pairs.foldlM (fun table (path, key, node) => table.insertAt? .braces path key node)
    (empty .defined)

end Table

mutual

/-- A node as plain data. -/
def Node.toData : Node → Data
  | .text value => .text value
  | .integer value => .integer value
  | .real value => .real value
  | .boolean value => .boolean value
  | .moment => .mapping []
  | .array items => .sequence (dataOfNodes items)
  | .inline table | .table table => table.toData
  | .tables elements => .sequence (dataOfTables elements)

/-- A table as plain data. -/
def Table.toData : Table → Data
  | .mk _ entries => .mapping (dataOfEntries entries)

def dataOfNodes : List Node → List Data
  | [] => []
  | node :: rest => node.toData :: dataOfNodes rest

def dataOfTables : List Table → List Data
  | [] => []
  | table :: rest => table.toData :: dataOfTables rest

def dataOfEntries : List (String × Node) → List (String × Data)
  | [] => []
  | (key, node) :: rest => (key, node.toData) :: dataOfEntries rest

end

end WordStm.Toml
