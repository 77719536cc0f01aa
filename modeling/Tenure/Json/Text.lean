import Tenure.Text.Quoted

/-!
# Strings in the interchange notation

A string stands in double quotes. A quote, a backslash and the characters below the blank are
written behind a backslash, the rest as they are. A reader also takes escapes for characters
that do not need one, written with four hexadecimal digits, or with twice four digits where a
character beyond the first plane is written as a pair of surrogates.

A text is read character by character, and the first thing wrong decides what is answered. An
escape that the end of the text cuts short is a text that ends too early, even if what there is
of it is not hexadecimal.

Where the content of a string does not matter it is skimmed: escapes must be well formed, but
surrogates need not come in pairs.

## Main definitions

* `Json.Fault` — what can be wrong with a text
* `Json.Phase`, `Json.Phase.step` — a reader inside a string
* `Json.readString` — the string that a text begins with
* `Json.writeString` — the written form
-/

namespace Tenure.Json

/-- What is wrong with a text. -/
inductive Fault
  /-- It breaks the rules of the notation. -/
  | malformed
  /-- It ends too early. -/
  | truncated
  /-- It is well formed but does not say what was asked for. -/
  | mismatch
  deriving DecidableEq, Repr

/-- The blanks of the notation. -/
def isBlank (c : Char) : Bool := c = ' ' || c = '\t' || c = '\n' || c = '\r'

/-- A text without the blanks it begins with. -/
def skipBlanks (text : List Char) : List Char := text.dropWhile isBlank

/-- The value of a hexadecimal digit. -/
def hexValue? (c : Char) : Option Nat :=
  let n := c.toNat
  if 48 ≤ n ∧ n ≤ 57 then some (n - 48)
  else if 65 ≤ n ∧ n ≤ 70 then some (n - 55)
  else if 97 ≤ n ∧ n ≤ 102 then some (n - 87)
  else none

/-- A reader inside a string. -/
inductive Phase
  | plain
  /-- Behind a backslash. -/
  | escape
  /-- So many hexadecimal digits are missing, the ones so far have this value, and a surrogate
  may wait for its second half. -/
  | hex (missing value : Nat) (first : Option Nat)
  /-- The escape is not hexadecimal, and so many bytes of it are missing. -/
  | spoilt (missing : Nat)
  /-- Behind the first half of a pair of surrogates. -/
  | half (first : Nat)
  /-- Behind the first half and a backslash. -/
  | halfEscape (first : Nat)
  deriving DecidableEq, Repr

/-- What a character does to a reader. -/
inductive Read
  /-- It goes on, with one more character of content or none. -/
  | on (phase : Phase) (content : Option Char)
  | close
  deriving DecidableEq, Repr

/-- The character that an escape of one letter stands for. -/
def simpleEscape? (c : Char) : Option Char :=
  if c = '"' then some '"'
  else if c = '\\' then some '\\'
  else if c = '/' then some '/'
  else if c = 'b' then some '\x08'
  else if c = 'f' then some '\x0c'
  else if c = 'n' then some '\n'
  else if c = 'r' then some '\r'
  else if c = 't' then some '\t'
  else none

/-- What four hexadecimal digits stand for, possibly behind the first half of a pair. -/
def codeUnit (paired : Bool) (value : Nat) (first : Option Nat) : Except Fault Read :=
  if !paired then .ok (.on .plain none)
  else
    match first with
    | none =>
      if 0xD800 ≤ value && value ≤ 0xDBFF then .ok (.on (.half value) none)
      else if 0xDC00 ≤ value && value ≤ 0xDFFF then .error .malformed
      else .ok (.on .plain (some (Char.ofNat value)))
    | some high =>
      if 0xDC00 ≤ value && value ≤ 0xDFFF then
        let code := 0x10000 + (high - 0xD800) * 0x400 + (value - 0xDC00)
        .ok (.on .plain (some (Char.ofNat code)))
      else .error .malformed

/-- The next character of a string; surrogates must come in pairs or need not. -/
def Phase.step (paired : Bool) (phase : Phase) (c : Char) : Except Fault Read :=
  match phase with
  | plain =>
    if c = '"' then .ok .close
    else if c = '\\' then .ok (.on escape none)
    else if c.toNat < 32 then .error .malformed
    else .ok (.on plain (some c))
  | escape =>
    if c = 'u' then .ok (.on (hex 4 0 none) none)
    else
      match simpleEscape? c with
      | some content => .ok (.on plain (some content))
      | none => .error .malformed
  | hex missing value first =>
    match hexValue? c with
    | some digit =>
      let value := value * 16 + digit
      if missing ≤ 1 then codeUnit paired value first
      else .ok (.on (hex (missing - 1) value first) none)
    | none =>
      if missing ≤ c.utf8Size then .error .malformed
      else .ok (.on (spoilt (missing - c.utf8Size)) none)
  | spoilt missing =>
    if missing ≤ c.utf8Size then .error .malformed
    else .ok (.on (spoilt (missing - c.utf8Size)) none)
  | half first => if c = '\\' then .ok (.on (halfEscape first) none) else .error .malformed
  | halfEscape first =>
    if c = 'u' then .ok (.on (hex 4 0 (some first)) none) else .error .malformed

/-- The content of a string from inside it, behind what was read already in reverse, and the
text behind its closing quote. -/
def readFrom (phase : Phase) (before : List Char) :
    List Char → Except Fault (String × List Char)
  | [] => .error .truncated
  | c :: rest =>
    match phase.step true c with
    | .error fault => .error fault
    | .ok .close => .ok (String.ofList before.reverse, rest)
    | .ok (.on phase none) => readFrom phase before rest
    | .ok (.on phase (some content)) => readFrom phase (content :: before) rest

/-- The string whose opening quote stands before a text, and the text behind it. -/
def readString (text : List Char) : Except Fault (String × List Char) := readFrom .plain [] text

/-- How one character is written in a string. -/
def writeChar (c : Char) : List Char :=
  if c = '"' then ['\\', '"']
  else if c = '\\' then ['\\', '\\']
  else if c = '\x08' then ['\\', 'b']
  else if c = '\x0c' then ['\\', 'f']
  else if c = '\n' then ['\\', 'n']
  else if c = '\r' then ['\\', 'r']
  else if c = '\t' then ['\\', 't']
  else if c.toNat < 16 then ['\\', 'u', '0', '0', '0'] ++ Text.hex c.toNat
  else if c.toNat < 32 then ['\\', 'u', '0', '0'] ++ Text.hex c.toNat
  else [c]

/-- The written form of a string. -/
def writeString (s : String) : List Char := '"' :: (s.toList.flatMap writeChar ++ ['"'])

end Tenure.Json
