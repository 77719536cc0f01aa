import Tenure.Json.Skim

/-!
# Records in the interchange notation

A record is an object with some known names, or a list of its fields in their order. Names that
are not known are read over together with their values, and a known name must not come twice.
Each field holds a text or a natural number below some limit. The fields that are missing are
left to whoever asked for the record, unless all of them are required.

What is wrong with a text is found in reading order. A value that does not fit its field is read
to its end first, unless it is a list or an object; a name that comes twice is found before its
value; fields that are missing are found at the end of the record, and what follows the record is
looked at last.

## Main definitions

* `Json.Kind`, `Json.Scalar` — what a field may hold and what it holds
* `Json.Schema` — the fields of a record
* `Json.readScalar`, `Json.readMembers`, `Json.readElements` — the parts of a record
* `Json.readRecord` — the record that a text is
-/

namespace Tenure.Json

/-- What a field may hold. -/
inductive Kind
  | text
  /-- A natural number below a limit. -/
  | natural (limit : Nat)
  deriving DecidableEq, Repr

/-- What a field holds. -/
inductive Scalar
  | text (text : String)
  | natural (n : Nat)
  deriving DecidableEq, Repr

/-- A field of a record. -/
structure Field where
  name : String
  kind : Kind
  deriving DecidableEq, Repr

/-- The fields of a record, in their order, and whether all of them are required. -/
structure Schema where
  fields : List Field
  required : Bool
  deriving DecidableEq, Repr

/-- What was found of a record's fields, in their order. -/
abbrev Found := List (Option Scalar)

/-- The text behind the letters that it must begin with. -/
def readWord : List Char → List Char → Except Fault (List Char)
  | [], text => .ok text
  | _ :: _, [] => .error .truncated
  | letter :: letters, c :: rest =>
    if c = letter then readWord letters rest else .error .malformed

/-- What is wrong with a value that should not stand here: it does not fit, unless it is not
even well formed. A list or an object does not fit from its first character. -/
def misfit (first : Char) (text : List Char) : Fault :=
  let word (letters : List Char) : Fault := match readWord letters text with
    | .ok _ => .mismatch
    | .error fault => fault
  if first = '"' then
    match readString text with
    | .ok _ => .mismatch
    | .error fault => fault
  else if first = '-' || Text.isDigit first then
    match readNumber first text with
    | .ok _ => .mismatch
    | .error fault => fault
  else if first = 'n' then word ['u', 'l', 'l']
  else if first = 't' then word ['r', 'u', 'e']
  else if first = 'f' then word ['a', 'l', 's', 'e']
  else if first = '[' || first = '\x7b' then .mismatch
  else .malformed

/-- A value of some kind, and the text behind it. -/
def readScalar (kind : Kind) (text : List Char) : Except Fault (Scalar × List Char) :=
  match skipBlanks text with
  | [] => .error .truncated
  | c :: rest =>
    match kind with
    | .text =>
      if c = '"' then
        match readString rest with
        | .ok (s, rest) => .ok (.text s, rest)
        | .error fault => .error fault
      else .error (misfit c rest)
    | .natural limit =>
      if c = '-' || Text.isDigit c then
        match readNumber c rest with
        | .ok (.natural n, rest) => if n < limit then .ok (.natural n, rest) else .error .mismatch
        | .ok (.other, _) => .error .mismatch
        | .error fault => .error fault
      else .error (misfit c rest)

/-- The text behind the colon that it must begin with. -/
def readColon (text : List Char) : Except Fault (List Char) :=
  match skipBlanks text with
  | [] => .error .truncated
  | c :: rest => if c = ':' then .ok rest else .error .malformed

namespace Schema

/-- The place of a field. -/
def place? (schema : Schema) (name : String) : Option Nat :=
  schema.fields.findIdx? fun field => field.name == name

/-- What was found of a record at its end. -/
def complete (schema : Schema) (found : Found) : Except Fault Found :=
  if schema.required && found.any Option.isNone then .error .mismatch else .ok found

end Schema

/-- Nothing found yet. -/
def Schema.none (schema : Schema) : Found := schema.fields.map fun _ => .none

/-- A member of an object behind the opening quote of its name, and the text behind it. -/
def readMember (schema : Schema) (found : Found) (text : List Char) :
    Except Fault (Found × List Char) :=
  match readString text with
  | .error fault => .error fault
  | .ok (name, rest) =>
    match schema.place? name with
    | some place =>
      match schema.fields[place]?, found[place]? with
      | some field, some Option.none =>
        match readColon rest with
        | .error fault => .error fault
        | .ok rest =>
          match readScalar field.kind rest with
          | .error fault => .error fault
          | .ok (scalar, rest) => .ok (found.set place (some scalar), rest)
      | _, _ => .error .mismatch
    | Option.none =>
      match readColon rest with
      | .error fault => .error fault
      | .ok rest =>
        match skim rest with
        | .error fault => .error fault
        | .ok rest => .ok (found, rest)

/-- The members of an object up to its end, at most so many, and the text behind it. -/
def readMembers (schema : Schema) :
    Nat → Bool → Found → List Char → Except Fault (Found × List Char)
  | 0, _, _, _ => .error .truncated
  | more + 1, first, found, text =>
    match skipBlanks text with
    | [] => .error .truncated
    | c :: rest =>
      if c = '\x7d' then
        match schema.complete found with
        | .ok found => .ok (found, rest)
        | .error fault => .error fault
      else if first && c = '"' then
        match readMember schema found rest with
        | .ok (found, rest) => readMembers schema more false found rest
        | .error fault => .error fault
      else if !first && c = ',' then
        match skipBlanks rest with
        | [] => .error .truncated
        | quote :: rest =>
          if quote = '"' then
            match readMember schema found rest with
            | .ok (found, rest) => readMembers schema more false found rest
            | .error fault => .error fault
          else .error .malformed
      else .error .malformed

/-- The end of a list behind its last field, and the text behind it. -/
def readListEnd (text : List Char) : Except Fault (List Char) :=
  match skipBlanks text with
  | [] => .error .truncated
  | c :: rest => if c = ']' then .ok rest else .error .malformed

/-- The elements of a list for some fields up to its end, and the text behind it. -/
def readElements (required : Bool) :
    List Field → Bool → List Char → Except Fault (Found × List Char)
  | [], _, text => (readListEnd text).map fun rest => ([], rest)
  | field :: fields, first, text =>
    match skipBlanks text with
    | [] => .error .truncated
    | c :: rest =>
      if c = ']' then
        if required then .error .mismatch
        else .ok (Option.none :: fields.map fun _ => Option.none, rest)
      else
        let element : Except Fault (List Char) :=
          if first then .ok (c :: rest)
          else if c = ',' then
            match skipBlanks rest with
            | [] => .error .truncated
            | next :: rest => if next = ']' then .error .malformed else .ok (next :: rest)
          else .error .malformed
        match element with
        | .error fault => .error fault
        | .ok element =>
          match readScalar field.kind element with
          | .error fault => .error fault
          | .ok (scalar, rest) =>
            match readElements required fields false rest with
            | .error fault => .error fault
            | .ok (found, rest) => .ok (some scalar :: found, rest)

/-- The record that a text is, with nothing but blanks around it. -/
def readRecord (schema : Schema) (text : List Char) : Except Fault Found :=
  let record : Except Fault (Found × List Char) :=
    match skipBlanks text with
    | [] => .error .truncated
    | c :: rest =>
      if c = '\x7b' then readMembers schema (rest.length + 1) true schema.none rest
      else if c = '[' then readElements schema.required schema.fields true rest
      else .error (misfit c rest)
  match record with
  | .error fault => .error fault
  | .ok (found, rest) => if (skipBlanks rest).isEmpty then .ok found else .error .malformed

end Tenure.Json
