/-!
# Reading TOML text

A reader takes characters from the front of a text and fails without a reason:
nobody asks why a text is no TOML.  A reader that failed has taken nothing, so
another can be tried in its place.

This module holds the readers of blanks, comments and line ends, and the ways to
repeat a reader.
-/

namespace WordStm.Toml

/-- The text that is left to read, with its length at hand. -/
structure Input where
  chars : List Char
  size : Nat
  size_eq : size = chars.length

namespace Input

def ofString (text : String) : Input := ⟨text.toList, text.toList.length, rfl⟩

/-- Pass over some characters. -/
def drop (input : Input) (count : Nat) : Input where
  chars := input.chars.drop count
  size := input.size - count
  size_eq := by rw [input.size_eq, List.length_drop]

end Input

abbrev Reader := StateT Input Option

namespace Reader

/-- The next character, left where it is. -/
def peek? : Reader (Option Char) := do return (← get).chars.head?

/-- Pass over some characters. -/
def skip (count : Nat) : Reader Unit := modify (·.drop count)

/-- Take a character that satisfies a test. -/
def take (accept : Char → Bool) : Reader Char := do
  match (← get).chars with
  | char :: _ => if accept char then skip 1; return char else failure
  | [] => failure

/-- Take a given character. -/
def char (expected : Char) : Reader Unit := do
  let _ ← take (· == expected)

/-- Take characters as long as they satisfy a test. -/
def takeWhile (accept : Char → Bool) : Reader (List Char) := do
  let taken := (← get).chars.takeWhile accept
  skip taken.length
  return taken

/-- Take a given text. -/
def literal (expected : List Char) : Reader Unit := do
  if expected.isPrefixOf (← get).chars then skip expected.length else failure

/-- Take exactly `count` characters that satisfy a test. -/
def exactly (accept : Char → Bool) : (count : Nat) → Reader (List Char)
  | 0 => return []
  | count + 1 => do
      let first ← take accept
      return first :: (← exactly accept count)

/-- Try a reader; if it fails, nothing is taken. -/
def optional? {α : Type} (reader : Reader α) : Reader (Option α) :=
  (some <$> reader) <|> return none

/-- Repeat a reader as long as it succeeds and takes something. -/
def manyFrom {α : Type} (reader : Reader α) (input : Input) : List α × Input :=
  match reader input with
  | none => ([], input)
  | some (item, rest) =>
      if rest.size < input.size then
        let (items, rest) := manyFrom reader rest
        (item :: items, rest)
      else ([], input)
termination_by input.size

/-- Repeat a reader as long as it succeeds and takes something. -/
def many {α : Type} (reader : Reader α) : Reader (List α) := fun input =>
  some (manyFrom reader input)

/-- Items with a separator between any two. -/
def separated {α : Type} (item : Reader α) (separator : Char) : Reader (List α) := do
  let first ← item
  return first :: (← many (do char separator; item))

def isBlank (char : Char) : Bool := char == ' ' || char == '\t'

/-- Characters that may stand in a comment: all but control characters, and tabs. -/
def isCommentChar (char : Char) : Bool :=
  char == '\t' || (0x20 ≤ char.toNat && char.toNat ≠ 0x7f)

def blanks : Reader Unit := do
  let _ ← takeWhile isBlank

/-- A line feed, or a carriage return with a line feed behind it. -/
def newline : Reader Unit :=
  char '\n' <|> literal ['\r', '\n']

def comment : Reader Unit := do
  char '#'
  let _ ← takeWhile isCommentChar

/-- What may follow on a line that is done: blanks, a comment, and its end. -/
def lineEnd : Reader Unit := do
  blanks
  let _ ← optional? comment
  match ← peek? with
  | none => return ()
  | some _ => newline

/-- Blanks, line ends and comments, as between the items of an array. -/
def filling : Reader Unit := do
  let _ ← many ((do let _ ← take isBlank) <|> newline <|> (do comment; newline))

end Reader

end WordStm.Toml
