import Tenure.Json.Text
import Tenure.Number.Binary
import Tenure.Text.Decimal

/-!
# Numbers in the interchange notation

A number is an optional minus sign, digits without a leading zero, an optional fraction and an
optional exponent. A natural number of at most 64 bits, written without sign, fraction and
exponent, is read as what it is. All other numbers are read as binary numbers of fixed
precision, and one that is too large for them is an error, so the size of such a number matters
although its value does not.

## Main definitions

* `Json.Literal`, `Json.Literal.step` — a reader inside a number
* `Json.readNumber` — the number that a text begins with
* `Json.Numeral` — what a number comes to
-/

namespace Tenure.Json

/-- A reader inside a number, by what it has read last. -/
inductive Literal
  | minus
  | zero
  | digits
  | point
  | fraction
  | exponent
  | exponentSign
  | exponentDigits
  deriving DecidableEq, Repr

namespace Literal

/-- Whether a number may end here. -/
def isComplete : Literal → Bool
  | zero | digits | fraction | exponentDigits => true
  | _ => false

/-- The reader behind the first digit of a number. -/
def ofDigit (c : Char) : Literal := if c = '0' then zero else digits

/-- The next character of a number; there is none if the number ends before the character. -/
def step (literal : Literal) (c : Char) : Except Fault (Option Literal) :=
  let isDigit := Text.isDigit c
  let isExponent := c = 'e' || c = 'E'
  match literal with
  | minus => if isDigit then .ok (some (ofDigit c)) else .error .malformed
  | zero =>
    if isDigit then .error .malformed
    else if c = '.' then .ok (some point)
    else if isExponent then .ok (some exponent)
    else .ok none
  | digits =>
    if isDigit then .ok (some digits)
    else if c = '.' then .ok (some point)
    else if isExponent then .ok (some exponent)
    else .ok none
  | point => if isDigit then .ok (some fraction) else .error .malformed
  | fraction =>
    if isDigit then .ok (some fraction)
    else if isExponent then .ok (some exponent)
    else .ok none
  | exponent =>
    if isDigit then .ok (some exponentDigits)
    else if c = '+' || c = '-' then .ok (some exponentSign)
    else .error .malformed
  | exponentSign => if isDigit then .ok (some exponentDigits) else .error .malformed
  | exponentDigits => if isDigit then .ok (some exponentDigits) else .ok none

/-- The characters of a number from inside it, behind what was read already in reverse, and the
text behind it. -/
def readFrom (literal : Literal) (before : List Char) :
    List Char → Except Fault (List Char × List Char)
  | [] => if literal.isComplete then .ok (before.reverse, []) else .error .truncated
  | c :: rest =>
    match literal.step c with
    | .error fault => .error fault
    | .ok (some literal) => readFrom literal (c :: before) rest
    | .ok none => .ok (before.reverse, c :: rest)

end Literal

/-- What a number comes to. -/
inductive Numeral
  | natural (n : Nat)
  | other
  deriving DecidableEq, Repr

/-- The largest natural number of 64 bits. -/
def wordMax : Nat := UInt64.size - 1

/-- The leading digits of a number as far as 64 bits hold them, and a power of ten. -/
structure Scaled where
  significand : Nat
  power : Int
  deriving DecidableEq, Repr

namespace Scaled

/-- Takes in the digits before the point: those that no longer fit only raise the power. -/
def whole (scaled : Scaled) : List Char → Scaled
  | [] => scaled
  | c :: rest =>
    let next := scaled.significand * 10 + Text.digitValue c
    if next ≤ wordMax then whole ⟨next, scaled.power⟩ rest
    else ⟨scaled.significand, scaled.power + (rest.length + 1)⟩

/-- Takes in the digits behind the point: from the first that no longer fits on they are left
out. -/
def part (scaled : Scaled) : List Char → Scaled
  | [] => scaled
  | c :: rest =>
    let next := scaled.significand * 10 + Text.digitValue c
    if next ≤ wordMax then part ⟨next, scaled.power - 1⟩ rest else scaled

/-- The highest power of ten that a binary number can hold. -/
def maxPower : Nat := 308

/-- Whether a number is too large for a binary number: the significand and the power of ten are
rounded each for itself, and their product must stay below the middle between the largest binary
number and what would follow it. -/
def isTooLarge (scaled : Scaled) : Bool :=
  if scaled.significand = 0 then false
  else if (maxPower : Int) < scaled.power then true
  else if scaled.power < 0 then false
  else
    let significand := Number.Binary.ofNat scaled.significand
    let factor := Number.Binary.ofNat (Nat.pow 10 scaled.power.toNat)
    (Nat.pow 2 54 - 1) * Nat.pow 2 970 * (significand.den * factor.den)
      ≤ significand.num * factor.num

end Scaled

/-- What the characters of a number come to. -/
def numeral (literal : List Char) : Except Fault Numeral :=
  let negative := literal.head? = some '-'
  let unsigned := if negative then literal.tail else literal
  let whole := unsigned.takeWhile Text.isDigit
  let rest := unsigned.dropWhile Text.isDigit
  let scaled := Scaled.whole ⟨0, 0⟩ whole
  if rest.isEmpty && scaled.power = 0 then
    .ok (if negative then .other else .natural scaled.significand)
  else
    let behindPoint := if rest.head? = some '.' then rest.tail else []
    let part := behindPoint.takeWhile Text.isDigit
    let scaled := scaled.part part
    let exponent :=
      (if rest.head? = some '.' then behindPoint.dropWhile Text.isDigit else rest).tail
    let power : Int := match exponent with
      | '-' :: digits => -(Text.decimalValue digits : Int)
      | '+' :: digits => Text.decimalValue digits
      | digits => Text.decimalValue digits
    if Scaled.isTooLarge ⟨scaled.significand, scaled.power + power⟩ then .error .malformed
    else .ok .other

/-- The number that a text begins with, given its first character, and the text behind it. -/
def readNumber (first : Char) (text : List Char) : Except Fault (Numeral × List Char) :=
  let literal := if first = '-' then Literal.minus else Literal.ofDigit first
  match literal.readFrom [first] text with
  | .error fault => .error fault
  | .ok (characters, rest) =>
    match numeral characters with
    | .error fault => .error fault
    | .ok numeral => .ok (numeral, rest)

end Tenure.Json
