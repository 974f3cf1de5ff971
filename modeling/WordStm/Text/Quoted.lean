import WordStm.Text.Unseen

/-!
# Quoted text

Text inside a message stands between double quotes, so that its end can be
seen.  A quote, a backslash, a line break, a tab and a character that could not
be seen are written as escapes; every other character stands for itself.
-/

namespace WordStm.Text

/-- How a character is written between quotes. -/
def quotedChar (char : Char) : List Char :=
  match char with
  | '\x00' => ['\\', '0']
  | '\t' => ['\\', 't']
  | '\n' => ['\\', 'n']
  | '\r' => ['\\', 'r']
  | '"' => ['\\', '"']
  | '\\' => ['\\', '\\']
  | _ =>
      if isUnseen char then
        ['\\', 'u', '\x7b'] ++ Nat.toDigits 16 char.toNat ++ ['\x7d']
      else [char]

/-- A text between double quotes. -/
def quoted (text : String) : String :=
  "\"" ++ String.ofList (text.toList.flatMap quotedChar) ++ "\""

end WordStm.Text
