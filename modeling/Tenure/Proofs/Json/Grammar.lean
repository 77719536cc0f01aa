import Mathlib.Data.List.Basic
import Tenure.Json.Text
import Tenure.Proofs.Text.Decimal

/-!
# The grammar of the interchange notation

Which texts spell which values. A value is spelled in many ways: there may be blanks around every
token, and the characters of a string may be written as they are or as escapes. The members of an
object keep their order, and nothing keeps a name from coming twice.

A number is kept as it is written, for what it comes to is up to whoever reads it. A natural number
written without sign, fraction and exponent has one spelling only, its digits without leading zeros.

A character that is written as a pair of surrogates takes both of them: no string has half a pair.

## Main definitions

* `Json.Value` — what a text can stand for; `Json.Value.natural` — a natural number
* `Json.SpellsChar`, `Json.SpellsString`, `Json.IsNumber` — the texts of the tokens
* `Json.Phrase`, `Json.Spells` — the texts of values, of elements and of members
* `Json.IsObject` — the texts that hold an object and nothing else
-/

namespace Tenure.Json

/-- What a text can stand for. -/
inductive Value
  | null
  | bool (b : Bool)
  /-- A number, as it is written. -/
  | number (literal : List Char)
  | text (text : String)
  | list (elements : List Value)
  | object (members : List (String × Value))

/-- A natural number, written without sign, fraction and exponent. -/
def Value.natural (n : Nat) : Value := .number (Text.decimal n)

theorem Value.natural_injective : Function.Injective Value.natural := by
  intro n m same
  have digits : Text.decimal n = Text.decimal m := Value.number.inj same
  rw [← Text.decimalValue_decimal n, digits, Text.decimalValue_decimal]

/-! ## Tokens -/

/-- A text of blanks. -/
def IsBlank (text : List Char) : Prop := ∀ c ∈ text, isBlank c = true

theorem isBlank_nil : IsBlank [] := by
  intro c mem
  cases mem

/-- The letters that stand behind a backslash, and the characters that they stand for there. -/
def escapes : List (Char × Char) :=
  [('"', '"'), ('\\', '\\'), ('/', '/'), ('b', '\x08'), ('f', '\x0c'), ('n', '\n'), ('r', '\r'),
    ('t', '\t')]

/-- A hexadecimal digit, in lower or upper case, and its value. -/
def IsHexDigit (c : Char) (value : Nat) : Prop :=
  value < 16 ∧ (c = Nat.digitChar value ∨ c = (Nat.digitChar value).toUpper)

/-- Four hexadecimal digits and their value. -/
inductive FourDigits : List Char → Nat → Prop
  | intro {a b c d : Char} {w x y z : Nat} (first : IsHexDigit a w) (second : IsHexDigit b x)
      (third : IsHexDigit c y) (fourth : IsHexDigit d z) :
      FourDigits [a, b, c, d] (((w * 16 + x) * 16 + y) * 16 + z)

/-- The texts that spell a character of a string. -/
inductive SpellsChar : Char → List Char → Prop
  /-- It stands for itself. -/
  | plain {c : Char} (printable : 0x20 ≤ c.toNat) (noQuote : c ≠ '"') (noBackslash : c ≠ '\\') :
      SpellsChar c [c]
  | escape {letter c : Char} (mem : (letter, c) ∈ escapes) : SpellsChar c ['\\', letter]
  | unit {c : Char} {digits : List Char} (value : FourDigits digits c.toNat) :
      SpellsChar c ('\\' :: 'u' :: digits)
  /-- A character beyond the first plane, as a pair of surrogates. -/
  | pair {c : Char} {digits digits' : List Char} {high low : Nat} (highLt : high < 0x400)
      (lowLt : low < 0x400) (first : FourDigits digits (0xD800 + high))
      (second : FourDigits digits' (0xDC00 + low))
      (value : c.toNat = 0x10000 + high * 0x400 + low) :
      SpellsChar c ('\\' :: 'u' :: (digits ++ '\\' :: 'u' :: digits'))

/-- The texts that spell some characters of a string. -/
inductive SpellsContent : List Char → List Char → Prop
  | nil : SpellsContent [] []
  | cons {c : Char} {content text rest : List Char} (head : SpellsChar c text)
      (tail : SpellsContent content rest) : SpellsContent (c :: content) (text ++ rest)

/-- The texts that spell a string, its quotes included. -/
def SpellsString (s : String) (text : List Char) : Prop :=
  ∃ inside, SpellsContent s.toList inside ∧ text = '"' :: (inside ++ ['"'])

/-- A row of digits, of which there is one at least. -/
structure IsDigits (text : List Char) : Prop where
  nonempty : text ≠ []
  digits : ∀ c ∈ text, Text.isDigit c = true

/-- The fraction of a number, if it has one. -/
inductive IsFraction : List Char → Prop
  | absent : IsFraction []
  | present {digits : List Char} (isDigits : IsDigits digits) : IsFraction ('.' :: digits)

/-- The sign of an exponent, if it has one. -/
inductive IsExponentSign : List Char → Prop
  | absent : IsExponentSign []
  | plus : IsExponentSign ['+']
  | minus : IsExponentSign ['-']

/-- The exponent of a number, if it has one. -/
inductive IsExponent : List Char → Prop
  | absent : IsExponent []
  | present {mark : Char} {sign digits : List Char} (isMark : mark = 'e' ∨ mark = 'E')
      (isSign : IsExponentSign sign) (isDigits : IsDigits digits) :
      IsExponent (mark :: (sign ++ digits))

/-- The texts of numbers: a sign, a natural number, a fraction and an exponent, of which only the
natural number has to be there. -/
inductive IsNumber : List Char → Prop
  | positive {fraction exponent : List Char} (whole : Nat) (isFraction : IsFraction fraction)
      (isExponent : IsExponent exponent) :
      IsNumber (Text.decimal whole ++ (fraction ++ exponent))
  | negative {fraction exponent : List Char} (whole : Nat) (isFraction : IsFraction fraction)
      (isExponent : IsExponent exponent) :
      IsNumber ('-' :: (Text.decimal whole ++ (fraction ++ exponent)))

theorem isNumber_decimal (n : Nat) : IsNumber (Text.decimal n) := by
  have number := IsNumber.positive n IsFraction.absent IsExponent.absent
  simpa using number

/-! ## Values -/

/-- What a part of a text can stand for. -/
inductive Phrase
  | value (value : Value)
  /-- A value with the blanks around it. -/
  | element (value : Value)
  | elements (elements : List Value)
  | member (member : String × Value)
  | members (members : List (String × Value))

/-- The texts that spell a phrase. -/
inductive Spells : Phrase → List Char → Prop
  | null : Spells (.value .null) ['n', 'u', 'l', 'l']
  | yes : Spells (.value (.bool true)) ['t', 'r', 'u', 'e']
  | no : Spells (.value (.bool false)) ['f', 'a', 'l', 's', 'e']
  | number {literal : List Char} (isNumber : IsNumber literal) :
      Spells (.value (.number literal)) literal
  | text {s : String} {text : List Char} (spelled : SpellsString s text) :
      Spells (.value (.text s)) text
  | list {elements : List Value} {inside : List Char}
      (spelled : Spells (.elements elements) inside) :
      Spells (.value (.list elements)) ('[' :: (inside ++ [']']))
  | object {members : List (String × Value)} {inside : List Char}
      (spelled : Spells (.members members) inside) :
      Spells (.value (.object members)) ('\x7b' :: (inside ++ ['\x7d']))
  | element {value : Value} {front text back : List Char} (isFront : IsBlank front)
      (spelled : Spells (.value value) text) (isBack : IsBlank back) :
      Spells (.element value) (front ++ (text ++ back))
  | noElements {blanks : List Char} (isBlank : IsBlank blanks) : Spells (.elements []) blanks
  | oneElement {value : Value} {text : List Char} (spelled : Spells (.element value) text) :
      Spells (.elements [value]) text
  | moreElements {value next : Value} {others : List Value} {text rest : List Char}
      (spelled : Spells (.element value) text) (behind : Spells (.elements (next :: others)) rest) :
      Spells (.elements (value :: next :: others)) (text ++ ',' :: rest)
  | member {name : String} {value : Value} {front quoted gap text : List Char}
      (isFront : IsBlank front) (isName : SpellsString name quoted) (isGap : IsBlank gap)
      (spelled : Spells (.element value) text) :
      Spells (.member (name, value)) (front ++ (quoted ++ (gap ++ ':' :: text)))
  | noMembers {blanks : List Char} (isBlank : IsBlank blanks) : Spells (.members []) blanks
  | oneMember {member : String × Value} {text : List Char}
      (spelled : Spells (.member member) text) : Spells (.members [member]) text
  | moreMembers {member next : String × Value} {others : List (String × Value)}
      {text rest : List Char} (spelled : Spells (.member member) text)
      (behind : Spells (.members (next :: others)) rest) :
      Spells (.members (member :: next :: others)) (text ++ ',' :: rest)

/-- The texts that hold an object with these members, blanks around it, and nothing else. -/
inductive IsObject (members : List (String × Value)) : List Char → Prop
  | intro {front inside back : List Char} (isFront : IsBlank front)
      (spelled : Spells (.members members) inside) (isBack : IsBlank back) :
      IsObject members (front ++ '\x7b' :: (inside ++ '\x7d' :: back))

/-! ## What is written -/

theorem isHexDigit_digitChar {n : Nat} (lt : n < 16) : IsHexDigit (Nat.digitChar n) n :=
  ⟨lt, .inl rfl⟩

/-- The lowest characters are written with three leading zeros. -/
theorem spellsChar_low {c : Char} (lt : c.toNat < 16) :
    SpellsChar c (['\\', 'u', '0', '0', '0'] ++ Text.hex c.toNat) := by
  have zero : IsHexDigit '0' 0 := isHexDigit_digitChar (by decide)
  have digits := FourDigits.intro zero zero zero (isHexDigit_digitChar lt)
  rw [Text.hex, Nat.toDigits_of_lt_base lt]
  exact .unit (by simpa using digits)

/-- The other characters below the blank are written with two leading zeros. -/
theorem spellsChar_control {c : Char} (ge : 16 ≤ c.toNat) (lt : c.toNat < 32) :
    SpellsChar c (['\\', 'u', '0', '0'] ++ Text.hex c.toNat) := by
  have zero : IsHexDigit '0' 0 := isHexDigit_digitChar (by decide)
  have one : IsHexDigit '1' 1 := isHexDigit_digitChar (by decide)
  have last := isHexDigit_digitChar (Nat.mod_lt c.toNat (by decide : 0 < 16))
  have digits := FourDigits.intro zero zero one last
  have value : ((0 * 16 + 0) * 16 + 1) * 16 + c.toNat % 16 = c.toNat := by omega
  have first : Nat.toDigits 16 (c.toNat / 16) = ['1'] := by
    rw [(by omega : c.toNat / 16 = 1)]
    rfl
  rw [value] at digits
  rw [Text.hex, Nat.toDigits_of_base_le (by decide) ge, first]
  exact .unit digits

/-- A character is written as one of its spellings. -/
theorem spellsChar_writeChar (c : Char) : SpellsChar c (writeChar c) := by
  rw [writeChar]
  split_ifs with quote backslash backspace feed line carriage tab low control
  · exact .escape (by simp [quote, escapes])
  · exact .escape (by simp [backslash, escapes])
  · exact .escape (by simp [backspace, escapes])
  · exact .escape (by simp [feed, escapes])
  · exact .escape (by simp [line, escapes])
  · exact .escape (by simp [carriage, escapes])
  · exact .escape (by simp [tab, escapes])
  · exact spellsChar_low low
  · exact spellsChar_control (Nat.le_of_not_lt low) control
  · exact .plain (Nat.le_of_not_lt control) quote backslash

theorem spellsContent_written (content : List Char) :
    SpellsContent content (content.flatMap writeChar) := by
  induction content with
  | nil => exact .nil
  | cons c content ih => exact .cons (spellsChar_writeChar c) ih

/-- A string is written as one of its spellings. -/
theorem spellsString_writeString (s : String) : SpellsString s (writeString s) :=
  ⟨s.toList.flatMap writeChar, spellsContent_written s.toList, rfl⟩

/-- Nothing needs to stand around a value. -/
theorem Spells.bare {value : Value} {text : List Char} (h : Spells (.value value) text) :
    Spells (.element value) text := by
  have element := Spells.element isBlank_nil h isBlank_nil
  simpa using element

/-- A member without blanks. -/
theorem Spells.bareMember {name : String} {value : Value} {quoted text : List Char}
    (isName : SpellsString name quoted) (h : Spells (.value value) text) :
    Spells (.member (name, value)) (quoted ++ ':' :: text) :=
  .member isBlank_nil isName isBlank_nil h.bare

end Tenure.Json
