import Tenure.Election.Status
import Tenure.Json.Record

/-!
# Answers to a leadership check between processes

An answer is written as a string that holds its name. It is also read from an object whose only
key is the name and whose value is null.

## Main definitions

* `LeadingStatus.toJson`, `LeadingStatus.ofJson` — the notation, written and read
-/

namespace Tenure.LeadingStatus

open Json

/-- The name of an answer whose opening quote stands before a text, and the text behind it. -/
def readName (text : List Char) : Except Fault (LeadingStatus × List Char) :=
  match readString text with
  | .error fault => .error fault
  | .ok (name, rest) =>
    match ofWire? name with
    | some status => .ok (status, rest)
    | none => .error .mismatch

/-- The text behind a null. -/
def readNull (text : List Char) : Except Fault (List Char) :=
  match skipBlanks text with
  | [] => .error .truncated
  | c :: rest => if c = 'n' then readWord ['u', 'l', 'l'] rest else .error (misfit c rest)

/-- The text behind the brace that must close an object. -/
def readClose (text : List Char) : Except Fault (List Char) :=
  match skipBlanks text with
  | [] => .error .truncated
  | c :: rest => if c = '\x7d' then .ok rest else .error .malformed

/-- The object that names an answer, behind its opening brace, and the text behind it. -/
def readObject (text : List Char) : Except Fault (LeadingStatus × List Char) :=
  match skipBlanks text with
  | [] => .error .truncated
  | c :: rest =>
    if c = '"' then do
      let (status, rest) ← readName rest
      let rest ← readNull (← readColon rest)
      let rest ← readClose rest
      return (status, rest)
    else .error .malformed

/-- Reads an answer, with nothing but blanks around it. -/
def ofJson (text : List Char) : Except Fault LeadingStatus := do
  let (status, rest) ← match skipBlanks text with
    | [] => .error .truncated
    | c :: rest =>
      if c = '"' then readName rest
      else if c = '\x7b' then readObject rest
      else .error .malformed
  if (skipBlanks rest).isEmpty then .ok status else .error .malformed

/-- Writes an answer. -/
def toJson (status : LeadingStatus) : List Char := writeString status.wire

end Tenure.LeadingStatus
