import WordStm.Toml.Reader
import WordStm.Toml.Table

/-!
# TOML scalars

Texts between quotes, numbers, truth values, dates and times.
-/

namespace WordStm.Toml.Reader

/-! ## Texts -/

def isHexDigit (char : Char) : Bool :=
  char.isDigit || ('a' ≤ char && char ≤ 'f') || ('A' ≤ char && char ≤ 'F')

/-- The value of a digit, letters counting on from nine. -/
def digitValue (char : Char) : Nat :=
  if char.isDigit then char.toNat - '0'.toNat
  else if 'a' ≤ char then char.toNat - 'a'.toNat + 10
  else char.toNat - 'A'.toNat + 10

/-- The number that some digits write in a base. -/
def digitsValue (base : Nat) (digits : List Char) : Nat :=
  digits.foldl (fun value digit => value * base + digitValue digit) 0

/-- A character given by a number of hexadecimal digits. -/
def numberedChar (count : Nat) : Reader Char := do
  let code := digitsValue 16 (← exactly isHexDigit count)
  if code.isValidChar then return Char.ofNat code else failure

/-- A character written with a backslash. -/
def escapedChar : Reader Char := do
  char '\\'
  match ← take fun _ => true with
  | 'b' => return '\x08'
  | 'f' => return '\x0c'
  | 'n' => return '\n'
  | 'r' => return '\r'
  | 't' => return '\t'
  | '"' => return '"'
  | '\\' => return '\\'
  | 'u' => numberedChar 4
  | 'U' => numberedChar 8
  | _ => failure

/-- A character that stands for itself in a text, unless it ends it. -/
def plainChar (special : List Char) : Reader Char :=
  take fun char => isCommentChar char && !special.contains char

/-- A text on one line that may hold escapes. -/
def basicText : Reader String := do
  char '"'
  let chars ← many (plainChar ['"', '\\'] <|> escapedChar)
  char '"'
  return String.ofList chars

/-- A text on one line without escapes. -/
def literalText : Reader String := do
  char '\''
  let chars ← takeWhile fun char => isCommentChar char && char != '\''
  char '\''
  return String.ofList chars

/-- One or two quotes that do not begin the closing three. -/
def innerQuotes (quote : Char) : Reader (List Char) := do
  let run ← takeWhile (· == quote)
  if run.length = 1 ∨ run.length = 2 then return run else failure

/-- The end of a text on several lines: three quotes, and up to two more in
front of them that still belong to the text. -/
def closingQuotes (quote : Char) : Reader (List Char) := do
  let run := (← get).chars.takeWhile (· == quote)
  if run.length < 3 then failure
  else
    let inner := min (run.length - 3) 2
    skip (inner + 3)
    return List.replicate inner quote

/-- A backslash at the end of a line hides everything up to the next character
that is neither blank nor a line end. -/
def hiddenBreak : Reader (List Char) := do
  char '\\'
  blanks
  newline
  let _ ← many ((do let _ ← take isBlank) <|> newline)
  return []

/-- A line end inside a text counts as a line feed. -/
def innerNewline : Reader (List Char) := do
  newline
  return ['\n']

/-- A text between triple quotes.  A line end right behind the opening quotes
does not count. -/
def multilineText (quote : Char) (content : Reader (List Char)) : Reader String := do
  literal [quote, quote, quote]
  let _ ← optional? newline
  let pieces ← many (content <|> innerNewline <|> innerQuotes quote)
  let last ← closingQuotes quote
  return String.ofList (pieces.flatten ++ last)

def multilineBasicText : Reader String :=
  multilineText '"' ((fun char => [char]) <$> plainChar ['"', '\\'] <|> hiddenBreak <|>
    (fun char => [char]) <$> escapedChar)

def multilineLiteralText : Reader String :=
  multilineText '\'' ((fun char => [char]) <$> plainChar ['\''])

def text : Reader String := do
  let ahead := (← get).chars
  if ['"', '"', '"'].isPrefixOf ahead then multilineBasicText
  else if ['\'', '\'', '\''].isPrefixOf ahead then multilineLiteralText
  else basicText <|> literalText

/-! ## Numbers -/

/-- Digits with single underscores between them. -/
def digitGroup (accept : Char → Bool) : Reader (List Char) := do
  let first ← take accept
  let rest ← many ((do char '_'; take accept) <|> take accept)
  if (← peek?) == some '_' then failure else return first :: rest

/-- A sign in front of a number; `true` is a minus. -/
def sign : Reader Bool := do
  match ← peek? with
  | some '-' => char '-'; return true
  | some '+' => char '+'; return false
  | _ => return false

/-- Decimal digits that begin with a zero only if that is all. -/
def wholeDigits : Reader (List Char) := do
  if (← peek?) == some '0' then char '0'; return ['0']
  else digitGroup Char.isDigit

/-- An integer has to fit in 64 bits with its sign. -/
def signedInteger (negative : Bool) (magnitude : Nat) : Reader Int :=
  let value : Int := if negative then -magnitude else magnitude
  if Int64.minValue.toInt ≤ value ∧ value ≤ Int64.maxValue.toInt then return value else failure

/-- An integer in base 16, 8 or 2, written without a sign. -/
def basedInteger (mark : Char) (base : Nat) (accept : Char → Bool) : Reader Int := do
  literal ['0', mark]
  let digits ← digitGroup accept
  signedInteger false (digitsValue base digits)

def integer : Reader Int :=
  basedInteger 'x' 16 isHexDigit <|>
  basedInteger 'o' 8 (fun char => '0' ≤ char && char ≤ '7') <|>
  basedInteger 'b' 2 (fun char => char == '0' || char == '1') <|> do
    let negative ← sign
    let digits ← wholeDigits
    signedInteger negative (digitsValue 10 digits)

/-- The digits behind a point. -/
def fraction : Reader (List Char) := do
  char '.'
  digitGroup Char.isDigit

/-- A power of ten behind a number. -/
def powerOfTen : Reader Int := do
  let _ ← take fun char => char == 'e' || char == 'E'
  let negative ← sign
  let magnitude := digitsValue 10 (← digitGroup Char.isDigit)
  return if negative then -magnitude else magnitude

/-- A number with a sign. -/
def withSign (negative : Bool) (number : Binary64) : Binary64 :=
  if negative then number.negative else number

/-- A number with a fraction, a power of ten or both.  One too great to be
represented is refused, one too far below zero is minus infinity. -/
def decimalReal : Reader Binary64 := do
  let negative ← sign
  let whole ← wholeDigits
  let places ← optional? fraction
  let power ← optional? powerOfTen
  if places.isNone ∧ power.isNone then failure
  let digits := whole ++ places.getD []
  let exponent := power.getD 0 - (places.getD []).length
  let number := withSign negative (.ofDecimal (digitsValue 10 digits) exponent)
  if number = .infinity then failure else return number

/-- An infinity, or what is no number. -/
def specialReal : Reader Binary64 := do
  let negative ← sign
  (do literal ['i', 'n', 'f']; return withSign negative .infinity) <|>
    (do literal ['n', 'a', 'n']; return withSign negative .nan)

def real : Reader Binary64 := decimalReal <|> specialReal

/-! ## Dates and times -/

/-- A number of so many digits between two bounds. -/
def boundedNumber (count low high : Nat) : Reader Nat := do
  let value := digitsValue 10 (← exactly Char.isDigit count)
  if low ≤ value ∧ value ≤ high then return value else failure

/-- The days of a month.  Every fourth year has a day more in February, but for
full centuries that 400 does not divide. -/
def daysOfMonth (year month : Nat) : Nat :=
  if month = 2 then
    if year % 4 = 0 ∧ (year % 100 ≠ 0 ∨ year % 400 = 0) then 29 else 28
  else if month = 4 ∨ month = 6 ∨ month = 9 ∨ month = 11 then 30
  else 31

def date : Reader Unit := do
  let year ← boundedNumber 4 0 9999
  char '-'
  let month ← boundedNumber 2 1 12
  char '-'
  let _ ← boundedNumber 2 1 (daysOfMonth year month)

/-- A time of day.  A minute may have a sixty-first second. -/
def time : Reader Unit := do
  let _ ← boundedNumber 2 0 23
  char ':'
  let _ ← boundedNumber 2 0 59
  char ':'
  let _ ← boundedNumber 2 0 60
  let _ ← optional? (do char '.'; let _ ← take Char.isDigit; takeWhile Char.isDigit)

/-- How far a time is from universal time. -/
def zone : Reader Unit :=
  (do let _ ← take fun char => char == 'Z' || char == 'z') <|> do
    let _ ← take fun char => char == '+' || char == '-'
    let _ ← boundedNumber 2 0 23
    char ':'
    let _ ← boundedNumber 2 0 59

/-- A date, a time of day, or a date with a time of day. -/
def moment : Reader Unit :=
  (do
    date
    let _ ← optional? (do
      let _ ← take fun char => char == 'T' || char == 't' || char == ' '
      time
      let _ ← optional? zone)) <|> time

end WordStm.Toml.Reader
