import Tenure.Text.Combining
import Tenure.Text.Unprintable

/-!
# Quoted text

Text inside double quotes, as values are shown to people who look for faults. The quote and the
backslash are written behind a backslash; line ends, tabs and the null character have a letter
or digit of their own; every other character that could not be told apart on paper — one
without a printed form, or one that only extends its neighbour — is written as its code point
in hexadecimal, between braces.

## Main definitions

* `Text.quotedChar` — how one character is written
* `Text.quoted` — how a text is written, quotes included
* `Text.quotedOption` — how an optional text is written
-/

namespace Tenure.Text

/-- A code point in hexadecimal, in lower case and without leading zeros. -/
def hex (n : Nat) : List Char := Nat.toDigits 16 n

/-- How one character is written inside quotes. -/
def quotedChar (c : Char) : List Char :=
  if c = '"' then ['\\', '"']
  else if c = '\\' then ['\\', '\\']
  else if c = '\n' then ['\\', 'n']
  else if c = '\r' then ['\\', 'r']
  else if c = '\t' then ['\\', 't']
  else if c = '\x00' then ['\\', '0']
  else if ' ' ≤ c && c ≤ '~' then [c]
  else if isCombining c || isUnprintable c then
    ['\\', 'u', '\x7b'] ++ hex c.toNat ++ ['\x7d']
  else [c]

/-- A text between quotes. -/
def quoted (s : String) : String :=
  String.ofList ('"' :: (s.toList.flatMap quotedChar ++ ['"']))

/-- A text that may be missing. -/
def quotedOption : Option String → String
  | none => "None"
  | some s => "Some(" ++ quoted s ++ ")"

end Tenure.Text
