import WordStm.Toml.Scalar

/-!
# TOML documents

A document is read line by line.  A header opens a table; the keys below it go
to that table, which joins the document when the next header comes.
-/

namespace WordStm.Toml

/-- A document while it is being read. -/
structure Draft where
  /-- Everything above the last header. -/
  root : Table
  /-- The table that keys go to. -/
  current : Table
  /-- Where that table belongs; nowhere if it is the document itself. -/
  path : List String
  /-- Whether its header may be repeated. -/
  repeated : Bool

namespace Draft

def empty : Draft := ⟨.empty .defined, .empty .defined, [], false⟩

/-- Put the current table where it belongs. -/
def close? (draft : Draft) : Option Table :=
  match draft.path.getLast? with
  | none => some draft.current
  | some key =>
      let edit (parent : Table) : Option (Unit × Table) :=
        match draft.repeated, parent.find? key with
        | true, none => some ((), parent.append key (.tables [draft.current]))
        | true, some (.tables elements) =>
            some ((), parent.replace key (.tables (elements ++ [draft.current])))
        | false, none => some ((), parent.append key (.table draft.current))
        | _, _ => none
      (Table.editAt .document false edit draft.path.dropLast draft.root).map (·.2)

/-- Open the table of a header.  A table that was only implied so far is taken
out of the document, and joins it again as the last of its siblings. -/
def openTable? (draft : Draft) (path : List String) (key : String) : Option Draft := do
  let edit (parent : Table) : Option (Table × Table) :=
    match parent.find? key with
    | none => some (.empty .defined, parent)
    | some (.table child) =>
        if child.origin = .implied then some (.mk .defined child.entries, parent.erase key)
        else none
    | some _ => none
  let (current, root) ← Table.editAt .document false edit path (← draft.close?)
  return { root, current, path := path ++ [key], repeated := false }

/-- Open one more table of a repeated header. -/
def openRepeated? (draft : Draft) (path : List String) (key : String) : Option Draft := do
  let edit (parent : Table) : Option (Unit × Table) :=
    match parent.find? key with
    | none => some ((), parent.append key (.tables []))
    | some (.tables _) => some ((), parent)
    | some _ => none
  let (_, root) ← Table.editAt .document false edit path (← draft.close?)
  return { root, current := .empty .defined, path := path ++ [key], repeated := true }

/-- Add a value to the current table. -/
def insert? (draft : Draft) (path : List String) (key : String) (node : Node) : Option Draft := do
  return { draft with current := ← draft.current.insertAt? .document path key node }

end Draft

/-- Keys may have fewer parts than this, and values may be nested less deep. -/
def depthLimit : Nat := 80

namespace Reader

def isBareKeyChar (char : Char) : Bool :=
  char.isAlphanum || char == '_' || char == '-'

/-- A part of a key: bare or between quotes. -/
def simpleKey : Reader String := do
  match ← peek? with
  | some '"' => basicText
  | some '\'' => literalText
  | _ =>
      let chars ← takeWhile isBareKeyChar
      if chars.isEmpty then failure else return String.ofList chars

/-- A key, with its last part apart. -/
def key : Reader (List String × String) := do
  let parts ← separated (do blanks; let part ← simpleKey; blanks; return part) '.'
  if parts.length ≥ depthLimit then failure
  match parts.getLast? with
  | some last => return (parts.dropLast, last)
  | none => failure

/-- The items of an array, behind its opening bracket. -/
def arrayItems (value : Reader Node) : Reader (List Node) := do
  let items ← optional? do
    let items ← separated (do filling; let item ← value; filling; return item) ','
    let _ ← optional? (char ',')
    return items
  filling
  char ']'
  return items.getD []

/-- The keys and values of a table between braces, behind the opening brace. -/
def bracedPairs (value : Reader Node) : Reader (List (List String × String × Node)) := do
  let pair : Reader (List String × String × Node) := do
    let (path, last) ← key
    char '='
    blanks
    let node ← value
    blanks
    return (path, last, node)
  let pairs ← optional? (separated pair ',')
  blanks
  char '\x7d'
  return pairs.getD []

/-- A value that holds arrays and tables nested up to a depth. -/
def value (depth : Nat) : Reader Node := do
  match ← peek? with
  | none => failure
  | some '[' =>
      match depth with
      | 0 => failure
      | depth + 1 => do char '['; return .array (← arrayItems (value depth))
  | some '\x7b' =>
      match depth with
      | 0 => failure
      | depth + 1 => do
          char '\x7b'
          match Table.ofPairs? (← bracedPairs (value depth)) with
          | some table => return .inline table
          | none => failure
  | some 't' => do literal "true".toList; return .boolean true
  | some 'f' => do literal "false".toList; return .boolean false
  | some first =>
      if first == '"' || first == '\'' then return .text (← text)
      else (do moment; return .moment) <|> (do return .real (← real)) <|>
        (do return .integer (← integer))

/-- Carry on with the result of a step that may fail. -/
def ofOption {α : Type} : Option α → Reader α
  | some item => return item
  | none => failure

/-- A header, with or without repetition. -/
def header (draft : Draft) : Reader Draft := do
  let repeated ← optional? (literal ['[', '['])
  match repeated with
  | some () =>
      let (path, last) ← key
      literal [']', ']']
      lineEnd
      ofOption (draft.openRepeated? path last)
  | none =>
      char '['
      let (path, last) ← key
      char ']'
      lineEnd
      ofOption (draft.openTable? path last)

/-- A key with its value. -/
def keyValue (draft : Draft) : Reader Draft := do
  let (path, last) ← key
  char '='
  blanks
  let node ← value (depthLimit - 1)
  lineEnd
  ofOption (draft.insert? path last node)

/-- One step of reading a document. -/
def line (draft : Draft) : Reader Draft := do
  blanks
  match ← peek? with
  | some '#' => lineEnd; return draft
  | some '[' => header draft
  | some '\n' | some '\r' => newline; return draft
  | _ => keyValue draft

/-- The steps of reading a document, up to its end. -/
def linesFrom (draft : Draft) (input : Input) : Option Draft :=
  if (input.chars.dropWhile isBlank).isEmpty then some draft
  else
    match line draft input with
    | none => none
    | some (draft, rest) =>
        if rest.size < input.size then linesFrom draft rest else none
termination_by input.size

end Reader

/-- Read a document.  A byte order mark in front of it is passed over. -/
def Table.ofText? (source : String) : Option Table :=
  let input := Input.ofString source
  let marked := input.chars.head? == some '\ufeff'
  (Reader.linesFrom .empty (if marked then input.drop 1 else input)).bind Draft.close?

end WordStm.Toml
