/-!
# Decimal numbers

Natural numbers as digits: written without leading zeros, read with any number of them. A text
without digits is no number, and neither is one that holds anything else. Where a number has to
stay below a bound, a text is read from the left and up to the first thing that is wrong with
it.

## Main definitions

* `Text.decimal` — the digits of a number
* `Text.parseDecimal` — the number that digits stand for
* `Text.readBelow` — the number below a bound that a text stands for, or what is wrong with the
  text
-/

namespace Tenure.Text

/-- The digit that stands for a number below ten. -/
def digitChar (n : Nat) : Char := Char.ofNat (48 + n % 10)

/-- The digits of a number, without leading zeros. -/
def decimal (n : Nat) : List Char :=
  if n < 10 then [digitChar n] else decimal (n / 10) ++ [digitChar n]

/-- The number that a digit stands for. -/
def digitValue (c : Char) : Nat := c.toNat - 48

/-- Whether a character is one of the ten digits. -/
def isDigit (c : Char) : Bool := 48 ≤ c.toNat && c.toNat ≤ 57

/-- The number that a row of digits stands for, the first digit weighing most. -/
def decimalValue (digits : List Char) : Nat :=
  digits.foldl (fun value c => value * 10 + digitValue c) 0

/-- The number a text stands for, if it holds digits and nothing else. -/
def parseDecimal (text : List Char) : Option Nat :=
  if !text.isEmpty && text.all isDigit then some (decimalValue text) else none

/-- What is wrong with a text that is no number below a bound. -/
inductive NumberFault
  | empty
  /-- It holds a character that is no digit. -/
  | notDigit
  /-- The digits so far stand for too large a number. -/
  | tooLarge
  deriving DecidableEq, Repr

/-- What a reader is told. -/
def NumberFault.message : NumberFault → String
  | empty => "cannot parse integer from empty string"
  | notDigit => "invalid digit found in string"
  | tooLarge => "number too large to fit in target type"

/-- Reads on after digits that stand for a value. -/
def readDigits (bound : Nat) : Nat → List Char → Except NumberFault Nat
  | value, [] => .ok value
  | value, c :: rest =>
    if !isDigit c then .error .notDigit
    else if value * 10 + digitValue c < bound then
      readDigits bound (value * 10 + digitValue c) rest
    else .error .tooLarge

/-- The number below a bound that a text stands for. A plus sign may stand in front. -/
def readBelow (bound : Nat) : List Char → Except NumberFault Nat
  | [] => .error .empty
  | ['+'] => .error .notDigit
  | '+' :: digits => readDigits bound 0 digits
  | digits => readDigits bound 0 digits

end Tenure.Text
