import Tenure.Journal

/-!
# Records as lines

A record is written as its level, its sentence and its fields, with a blank between any two of
them. A sentence may hold line ends, so a record can take several lines. Characters of a
sentence that a terminal would obey are written out as their code points.

## Main definitions

* `Text.tame` — a text that no terminal obeys
* `Text.splitLines` — the lines of a text
* `Record.lines` — the lines of a record
-/

namespace Tenure

namespace Text

/-- The control characters of which a terminal takes notice, line ends and tabs apart. -/
def commandsTerminal (c : Char) : Bool :=
  c = '\x1b' || c = '\x07' || c = '\x08' || c = '\x0c' || c = '\x7f'

/-- How one character is written so that no terminal obeys it. -/
def tameChar (c : Char) : List Char :=
  let digits := Nat.toDigits 16 c.toNat
  if commandsTerminal c then ['\\', 'x'] ++ List.replicate (2 - digits.length) '0' ++ digits
  else if 0x80 ≤ c.toNat && c.toNat ≤ 0x9f then ['\\', 'u', '\x7b'] ++ digits ++ ['\x7d']
  else [c]

/-- A text that no terminal obeys. -/
def tame (text : List Char) : List Char := text.flatMap tameChar

/-- The lines of a text, of which there is one at least. -/
def splitLines : List Char → List (List Char)
  | [] => [[]]
  | c :: rest =>
    if c = '\n' then [] :: splitLines rest
    else
      match splitLines rest with
      | [] => [[c]]
      | line :: lines => (c :: line) :: lines

end Text

namespace Record

/-- A field in text. -/
def fieldText (field : String × String) : List Char :=
  ' ' :: field.1.toList ++ '=' :: field.2.toList

/-- The text of a record. -/
def text (record : Record) : List Char :=
  record.level.name.toList ++ ' ' :: Text.tame record.message.toList
    ++ record.fields.flatMap fieldText

/-- The lines of a record. -/
def lines (record : Record) : List String := (Text.splitLines record.text).map String.ofList

end Record

end Tenure
