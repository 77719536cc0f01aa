import Tenure.Json.Number

/-!
# Values that do not matter

A value whose content nobody asks for must still be well formed, however deep it is. It is read
over character by character, with the lists and objects that are open kept on a stack.

## Main definitions

* `Json.Skim` — a reader inside a value that does not matter
* `Json.Skim.step` — one character
* `Json.skim` — the text behind the value that it begins with
-/

namespace Tenure.Json

/-- What is open around a value. -/
inductive Frame
  | list
  | object
  deriving DecidableEq, Repr

/-- A reader inside a value that does not matter, by what comes next; innermost frames first. -/
inductive Skim
  /-- A value is due. -/
  | value (frames : List Frame)
  /-- A value is due, or the end of the innermost list. -/
  | firstValue (frames : List Frame)
  /-- A key is due. -/
  | key (frames : List Frame)
  /-- A key is due, or the end of the innermost object. -/
  | firstKey (frames : List Frame)
  | colon (frames : List Frame)
  | text (phase : Phase) (isKey : Bool) (frames : List Frame)
  | number (literal : Literal) (frames : List Frame)
  /-- Inside one of the three words, of which these letters are missing. -/
  | word (letters : List Char) (frames : List Frame)
  /-- A value has ended. -/
  | ended (frames : List Frame)
  deriving DecidableEq, Repr

namespace Skim

/-- The begin of a value. -/
def open? (frames : List Frame) (c : Char) : Option Skim :=
  if c = '[' then some (firstValue (.list :: frames))
  else if c = '\x7b' then some (firstKey (.object :: frames))
  else if c = '"' then some (text .plain false frames)
  else if c = '-' then some (number .minus frames)
  else if Text.isDigit c then some (number (.ofDigit c) frames)
  else if c = 'n' then some (word ['u', 'l', 'l'] frames)
  else if c = 't' then some (word ['r', 'u', 'e'] frames)
  else if c = 'f' then some (word ['a', 'l', 's', 'e'] frames)
  else none

/-- A character behind a value. -/
def behind (frames : List Frame) (c : Char) : Except Fault Skim :=
  if isBlank c then .ok (ended frames)
  else
    match frames with
    | .list :: outer =>
      if c = ',' then .ok (value frames)
      else if c = ']' then .ok (ended outer)
      else .error .malformed
    | .object :: outer =>
      if c = ',' then .ok (key frames)
      else if c = '\x7d' then .ok (ended outer)
      else .error .malformed
    | [] => .error .malformed

/-- One character of a value. -/
def step (skim : Skim) (c : Char) : Except Fault Skim :=
  match skim with
  | value frames =>
    if isBlank c then .ok skim
    else
      match open? frames c with
      | some next => .ok next
      | none => .error .malformed
  | firstValue frames =>
    if isBlank c then .ok skim
    else if c = ']' then .ok (ended frames.tail)
    else
      match open? frames c with
      | some next => .ok next
      | none => .error .malformed
  | key frames =>
    if isBlank c then .ok skim
    else if c = '"' then .ok (text .plain true frames)
    else .error .malformed
  | firstKey frames =>
    if isBlank c then .ok skim
    else if c = '\x7d' then .ok (ended frames.tail)
    else if c = '"' then .ok (text .plain true frames)
    else .error .malformed
  | colon frames =>
    if isBlank c then .ok skim
    else if c = ':' then .ok (value frames)
    else .error .malformed
  | text phase isKey frames =>
    match phase.step false c with
    | .error fault => .error fault
    | .ok .close => .ok (if isKey then colon frames else ended frames)
    | .ok (.on phase _) => .ok (text phase isKey frames)
  | number literal frames =>
    match literal.step c with
    | .error _ => .error .malformed
    | .ok (some literal) => .ok (number literal frames)
    | .ok none => behind frames c
  | word letters frames =>
    match letters with
    | letter :: more =>
      if c = letter then .ok (if more.isEmpty then ended frames else word more frames)
      else .error .malformed
    | [] => behind frames c
  | ended frames => behind frames c

/-- Whether a value is over before a character. -/
def isOver (skim : Skim) (c : Char) : Bool :=
  match skim with
  | ended [] => true
  | number literal [] =>
    match literal.step c with
    | .ok none => true
    | _ => false
  | _ => false

/-- What the end of the text means for a value: it is over, or the text ends too early, except
that a number which is cut short is malformed. -/
def atEnd : Skim → Except Fault Unit
  | ended [] => .ok ()
  | number literal frames =>
    if !literal.isComplete then .error .malformed
    else if frames.isEmpty then .ok ()
    else .error .truncated
  | _ => .error .truncated

/-- The text behind a value from inside it. -/
def behindFrom (skim : Skim) : List Char → Except Fault (List Char)
  | [] => skim.atEnd.map fun _ => []
  | c :: rest =>
    if skim.isOver c then .ok (c :: rest)
    else
      match skim.step c with
      | .error fault => .error fault
      | .ok next => next.behindFrom rest

end Skim

/-- The text behind the value that a text begins with. -/
def skim (text : List Char) : Except Fault (List Char) := (Skim.value []).behindFrom text

end Tenure.Json
