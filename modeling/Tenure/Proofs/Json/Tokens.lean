import Mathlib.Data.List.TakeWhile
import Tenure.Json.Number
import Tenure.Proofs.Json.Grammar

/-!
# Tokens are read as they are spelled

A string comes to the characters that were spelled, whichever of their spellings was chosen, and a
number comes to its characters. Both are read as far as they go, and no further: a string ends with
its quote, and a number where a blank, a comma or a closing bracket follows.

Of a number it matters whether it is a natural number of at most 64 bits, written with digits only;
this is so exactly if the reader says so.

## Main definitions

* `Json.Phase.Walks`, `Json.Literal.Walks` — how a text takes a reader from one state to another
* `Json.IsDelimited` — what may follow a number

## Main results

* `Json.SpellsContent.walks`, `Json.IsNumber.walks` — the texts of the grammar are walked through
* `Json.readString_of_spells` — a string is read
* `Json.readNumber_of_isNumber` — a number is read
* `Json.numeral_eq_natural_iff` — which numbers are natural numbers
-/

namespace Tenure.Json

variable {c : Char} {text text' rest before content content' digits digits' : List Char}
  {paired : Bool} {n value : Nat}

/-! ## Strings -/

section

variable {phase next last : Phase}

/-- Inside a string, a text takes a reader from one phase to another, and has this content. -/
inductive Phase.Walks (paired : Bool) : Phase → List Char → Phase → List Char → Prop
  | done {phase : Phase} : Walks paired phase [] phase []
  | quiet {phase next last : Phase} {c : Char} {text content : List Char}
      (step : phase.step paired c = .ok (.on next none))
      (rest : Walks paired next text last content) : Walks paired phase (c :: text) last content
  | loud {phase next last : Phase} {c d : Char} {text content : List Char}
      (step : phase.step paired c = .ok (.on next (some d)))
      (rest : Walks paired next text last content) :
      Walks paired phase (c :: text) last (d :: content)

theorem Phase.Walks.append (h : Walks paired phase text next content)
    (h' : Walks paired next text' last content') :
    Walks paired phase (text ++ text') last (content ++ content') := by
  induction h with
  | done => exact h'
  | quiet step rest ih => exact .quiet step (ih h')
  | loud step rest ih => exact .loud step (ih h')

/-- A reader goes on behind a text that it has walked through. -/
theorem readFrom_of_walks (h : Phase.Walks true phase text next content) (before rest : List Char) :
    readFrom phase before (text ++ rest) = readFrom next (content.reverse ++ before) rest := by
  induction h generalizing before with
  | done => rfl
  | quiet step rest ih =>
    rw [List.cons_append, readFrom, step]
    exact ih before
  | @loud phase next last c d text content step rest ih =>
    rw [List.cons_append, readFrom, step, List.reverse_cons, List.append_assoc]
    exact ih (d :: before)

theorem hexValue?_eq_some (h : IsHexDigit c value) : hexValue? c = some value := by
  have lower : ∀ value < 16, hexValue? (Nat.digitChar value) = some value := by decide
  have upper : ∀ value < 16, hexValue? (Nat.digitChar value).toUpper = some value := by decide
  obtain ⟨lt, rfl | rfl⟩ := h
  · exact lower value lt
  · exact upper value lt

/-- The last of four hexadecimal digits decides how it goes on. -/
theorem FourDigits.walks {first : Option Nat} {content? : Option Char}
    (h : FourDigits digits value) (unit : codeUnit paired value first = .ok (.on next content?)) :
    Phase.Walks paired (.hex 4 0 first) digits next content?.toList := by
  cases h with
  | @intro a b c d w x y z ha hb hc hd =>
    have hfirst : (Phase.hex 4 0 first).step paired a = .ok (.on (.hex 3 w first) none) := by
      simp [Phase.step, hexValue?_eq_some ha]
    have hsecond : (Phase.hex 3 w first).step paired b =
        .ok (.on (.hex 2 (w * 16 + x) first) none) := by
      simp [Phase.step, hexValue?_eq_some hb]
    have hthird : (Phase.hex 2 (w * 16 + x) first).step paired c =
        .ok (.on (.hex 1 ((w * 16 + x) * 16 + y) first) none) := by
      simp [Phase.step, hexValue?_eq_some hc]
    have hfourth : (Phase.hex 1 ((w * 16 + x) * 16 + y) first).step paired d =
        .ok (.on next content?) := by
      simpa [Phase.step, hexValue?_eq_some hd] using unit
    refine .quiet hfirst (.quiet hsecond (.quiet hthird ?_))
    cases content? with
    | none => exact .quiet hfourth .done
    | some content => exact .loud hfourth .done

theorem FourDigits.walks_plain {content? : Option Char} (h : FourDigits digits value)
    (unit : codeUnit paired value none = .ok (.on next content?)) :
    Phase.Walks paired .plain ('\\' :: 'u' :: digits) next content?.toList :=
  .quiet rfl (.quiet rfl (h.walks unit))

theorem FourDigits.walks_half {high : Nat} {content? : Option Char} (h : FourDigits digits value)
    (unit : codeUnit paired value (some high) = .ok (.on next content?)) :
    Phase.Walks paired (.half high) ('\\' :: 'u' :: digits) next content?.toList :=
  .quiet rfl (.quiet rfl (h.walks unit))

theorem step_plain_of_printable (printable : 0x20 ≤ c.toNat) (noQuote : c ≠ '"')
    (noBackslash : c ≠ '\\') : Phase.plain.step paired c = .ok (.on .plain (some c)) := by
  simp [Phase.step, noQuote, noBackslash, Nat.not_lt.mpr printable]

theorem step_escape_of_mem {letter : Char} (mem : (letter, c) ∈ escapes) :
    Phase.escape.step paired letter = .ok (.on .plain (some c)) := by
  simp only [escapes, List.mem_cons, Prod.mk.injEq, List.not_mem_nil, or_false] at mem
  rcases mem with ⟨rfl, rfl⟩ | ⟨rfl, rfl⟩ | ⟨rfl, rfl⟩ | ⟨rfl, rfl⟩ | ⟨rfl, rfl⟩ | ⟨rfl, rfl⟩ |
    ⟨rfl, rfl⟩ | ⟨rfl, rfl⟩ <;> rfl

/-- No character is half a pair of surrogates. -/
theorem not_surrogate (c : Char) : c.toNat < 0xD800 ∨ 0xDFFF < c.toNat := by
  rcases c.valid with low | ⟨high, -⟩
  · exact .inl low
  · exact .inr high

theorem codeUnit_of_char (c : Char) :
    codeUnit true c.toNat none = .ok (.on .plain (some c)) := by
  have := not_surrogate c
  have notHigh : ¬ (0xD800 ≤ c.toNat ∧ c.toNat ≤ 0xDBFF) := by omega
  have notLow : ¬ (0xDC00 ≤ c.toNat ∧ c.toNat ≤ 0xDFFF) := by omega
  simp [codeUnit, notHigh, notLow]

/-- A character is read from each of its spellings. -/
theorem SpellsChar.walks (h : SpellsChar c text) : Phase.Walks true .plain text .plain [c] := by
  cases h with
  | plain printable noQuote noBackslash =>
    exact .loud (step_plain_of_printable printable noQuote noBackslash) .done
  | escape mem => exact .quiet rfl (.loud (step_escape_of_mem mem) .done)
  | unit value => exact value.walks_plain (codeUnit_of_char c)
  | @pair _ digits digits' high low highLt lowLt first second value =>
    have hhigh : codeUnit true (0xD800 + high) none = .ok (.on (.half (0xD800 + high)) none) := by
      have range : 0xD800 ≤ 0xD800 + high ∧ 0xD800 + high ≤ 0xDBFF := by omega
      simp only [codeUnit, Bool.not_true, Bool.false_eq_true, if_false, range, decide_true,
        Bool.and_self, if_true]
    have hlow : codeUnit true (0xDC00 + low) (some (0xD800 + high)) =
        .ok (.on .plain (some c)) := by
      have range : 0xDC00 ≤ 0xDC00 + low ∧ 0xDC00 + low ≤ 0xDFFF := by omega
      simp only [codeUnit, Bool.not_true, Bool.false_eq_true, if_false, range, decide_true,
        Bool.and_self, if_true, Nat.add_sub_cancel_left, ← value, Char.ofNat_toNat]
    have both := (first.walks_plain hhigh).append (second.walks_half hlow)
    simpa using both

/-- Where the content of a string does not matter, surrogates are not paired. -/
theorem SpellsChar.walks_unpaired (h : SpellsChar c text) :
    ∃ content, Phase.Walks false .plain text .plain content := by
  cases h with
  | plain printable noQuote noBackslash =>
    exact ⟨_, .loud (step_plain_of_printable printable noQuote noBackslash) .done⟩
  | escape mem => exact ⟨_, .quiet rfl (.loud (step_escape_of_mem mem) .done)⟩
  | unit value => exact ⟨_, value.walks_plain rfl⟩
  | pair highLt lowLt first second value =>
    exact ⟨_, (first.walks_plain rfl).append (second.walks_plain rfl)⟩

theorem SpellsContent.walks (h : SpellsContent content text) :
    Phase.Walks true .plain text .plain content := by
  induction h with
  | nil => exact .done
  | cons head tail ih => exact head.walks.append ih

theorem SpellsContent.walks_unpaired (h : SpellsContent content text) :
    ∃ content', Phase.Walks false .plain text .plain content' := by
  induction h with
  | nil => exact ⟨[], .done⟩
  | cons head tail ih =>
    obtain ⟨content, hhead⟩ := head.walks_unpaired
    obtain ⟨content', htail⟩ := ih
    exact ⟨content ++ content', hhead.append htail⟩

/-- A string is read up to its closing quote. -/
theorem readString_of_spells {s : String} (h : SpellsContent s.toList text) (rest : List Char) :
    readString (text ++ '"' :: rest) = .ok (s, rest) := by
  have close : Phase.plain.step true '"' = .ok .close := rfl
  rw [readString, readFrom_of_walks h.walks, readFrom, close]
  simp

end

/-! ## Numbers -/

section

variable {literal next last : Literal}

/-- Inside a number, a text takes a reader from one state to another. -/
inductive Literal.Walks : Literal → List Char → Literal → Prop
  | done {literal : Literal} : Walks literal [] literal
  | step {literal next last : Literal} {c : Char} {text : List Char}
      (step : literal.step c = .ok (some next)) (rest : Walks next text last) :
      Walks literal (c :: text) last

theorem Literal.Walks.append (h : Walks literal text next) (h' : Walks next text' last) :
    Walks literal (text ++ text') last := by
  induction h with
  | done => exact h'
  | step step rest ih => exact .step step (ih h')

/-- A reader goes on behind a text that it has walked through. -/
theorem Literal.readFrom_of_walks (h : Literal.Walks literal text next)
    (before rest : List Char) :
    literal.readFrom before (text ++ rest) = next.readFrom (text.reverse ++ before) rest := by
  induction h generalizing before with
  | done => rfl
  | @step literal next last c text step rest ih =>
    rw [List.cons_append, Literal.readFrom, step, List.reverse_cons, List.append_assoc]
    exact ih (c :: before)

theorem ne_of_isDigit {d : Char} (isDigit : Text.isDigit c = true) (no : Text.isDigit d = false) :
    c ≠ d := by
  rintro rfl
  rw [isDigit] at no
  cases no

/-- A row of digits is walked through from a state that asks for one to a state that takes more. -/
theorem Literal.walks_digits (asks : ∀ c, Text.isDigit c = true → literal.step c = .ok (some next))
    (takes : ∀ c, Text.isDigit c = true → next.step c = .ok (some next)) (h : IsDigits digits) :
    Literal.Walks literal digits next := by
  have others (text : List Char) (isDigit : ∀ c ∈ text, Text.isDigit c = true) :
      Literal.Walks next text next := by
    induction text with
    | nil => exact .done
    | cons c text ih =>
      exact .step (takes c (isDigit c List.mem_cons_self))
        (ih fun d mem => isDigit d (List.mem_cons_of_mem c mem))
  obtain ⟨c, text, rfl⟩ := List.exists_cons_of_ne_nil h.nonempty
  exact .step (asks c (h.digits c List.mem_cons_self))
    (others text fun d mem => h.digits d (List.mem_cons_of_mem c mem))

/-- The digits of a positive number do not begin with a zero. -/
theorem head?_decimal_ne (pos : 0 < n) : (Text.decimal n).head? ≠ some '0' := by
  induction n using Text.decimal.induct with
  | case1 n lt =>
    intro head
    rw [Text.decimal, if_pos lt, List.head?_cons, Option.some.injEq] at head
    have digit := congrArg Text.digitValue head
    rw [Text.digitValue_digitChar, Nat.mod_eq_of_lt lt] at digit
    exact absurd digit (Nat.ne_of_gt pos)
  | case2 n ge ih =>
    rw [Text.decimal, if_neg ge, List.head?_append_of_ne_nil _ (Text.decimal_ne_nil _)]
    exact ih (by omega)

/-- The digits of a number are walked through: a zero stands alone. -/
theorem Literal.walks_decimal (n : Nat) :
    ∃ c text, Text.decimal n = c :: text ∧ Text.isDigit c = true ∧
      Literal.Walks (.ofDigit c) text (.ofDigit c) := by
  obtain ⟨c, text, digits⟩ := List.exists_cons_of_ne_nil (Text.decimal_ne_nil n)
  have isDigit : ∀ d ∈ c :: text, Text.isDigit d = true := by
    intro d mem
    rw [← digits] at mem
    exact Text.isDigit_of_mem_decimal n mem
  refine ⟨c, text, digits, isDigit c List.mem_cons_self, ?_⟩
  rcases Nat.eq_zero_or_pos n with rfl | pos
  · rw [Text.decimal, if_pos (by omega)] at digits
    obtain ⟨rfl, rfl⟩ := List.cons.inj digits
    exact .done
  · have notZero : c ≠ '0' := by
      have head := head?_decimal_ne pos
      rw [digits] at head
      exact fun same => head (congrArg some same)
    rw [Literal.ofDigit, if_neg notZero]
    cases text with
    | nil => exact .done
    | cons d text =>
      have takes (c : Char) (isDigit : Text.isDigit c = true) :
          Literal.digits.step c = .ok (some .digits) := by
        simp [Literal.step, isDigit]
      exact Literal.walks_digits takes takes
        ⟨List.cons_ne_nil d text, fun e mem => isDigit e (List.mem_cons_of_mem c mem)⟩

/-- A state in which a number may end before its fraction. -/
def Literal.IsWhole (literal : Literal) : Prop := literal = .zero ∨ literal = .digits

theorem Literal.isWhole_ofDigit (c : Char) : (Literal.ofDigit c).IsWhole := by
  rw [Literal.ofDigit]
  split
  · exact .inl rfl
  · exact .inr rfl

theorem IsFraction.walks (h : IsFraction text) (whole : literal.IsWhole) :
    ∃ next : Literal, Literal.Walks literal text next ∧ (next.IsWhole ∨ next = .fraction) := by
  cases h with
  | absent => exact ⟨literal, .done, .inl whole⟩
  | @present digits isDigits =>
    have opens : literal.step '.' = .ok (some .point) := by
      rcases whole with rfl | rfl <;> rfl
    have asks (c : Char) (isDigit : Text.isDigit c = true) :
        Literal.point.step c = .ok (some .fraction) := by
      simp [Literal.step, isDigit]
    have takes (c : Char) (isDigit : Text.isDigit c = true) :
        Literal.fraction.step c = .ok (some .fraction) := by
      simp [Literal.step, isDigit]
    exact ⟨.fraction, .step opens (Literal.walks_digits asks takes isDigits), .inr rfl⟩

theorem IsExponent.walks (h : IsExponent text) (ready : literal.IsWhole ∨ literal = .fraction) :
    ∃ next : Literal, Literal.Walks literal text next ∧ next.isComplete = true := by
  cases h with
  | absent => exact ⟨literal, .done, by rcases ready with (rfl | rfl) | rfl <;> rfl⟩
  | @present mark sign digits isMark isSign isDigits =>
    have opens : literal.step mark = .ok (some .exponent) := by
      rcases ready with (rfl | rfl) | rfl <;> rcases isMark with rfl | rfl <;> rfl
    have asks (c : Char) (isDigit : Text.isDigit c = true) :
        Literal.exponent.step c = .ok (some .exponentDigits) := by
      simp [Literal.step, isDigit]
    have asks' (c : Char) (isDigit : Text.isDigit c = true) :
        Literal.exponentSign.step c = .ok (some .exponentDigits) := by
      simp [Literal.step, isDigit]
    have takes (c : Char) (isDigit : Text.isDigit c = true) :
        Literal.exponentDigits.step c = .ok (some .exponentDigits) := by
      simp [Literal.step, isDigit]
    refine ⟨.exponentDigits, .step opens ?_, rfl⟩
    cases isSign with
    | absent => exact Literal.walks_digits asks takes isDigits
    | plus | minus => exact .step rfl (Literal.walks_digits asks' takes isDigits)

/-- The first character of a number, and the state behind it. -/
def Literal.ofFirst (c : Char) : Literal := if c = '-' then .minus else .ofDigit c

/-- A number is walked through from its first character to where it may end. -/
theorem IsNumber.walks (h : IsNumber text) :
    ∃ c others, text = c :: others ∧ (c = '-' ∨ Text.isDigit c = true) ∧
      ∃ last : Literal, Literal.Walks (.ofFirst c) others last ∧ last.isComplete = true := by
  have rest {fraction exponent : List Char} (c : Char) (isFraction : IsFraction fraction)
      (isExponent : IsExponent exponent) :
      ∃ last : Literal, Literal.Walks (.ofDigit c) (fraction ++ exponent) last ∧
        last.isComplete = true := by
    obtain ⟨between, hfraction, ready⟩ := isFraction.walks (Literal.isWhole_ofDigit c)
    obtain ⟨last, hexponent, complete⟩ := isExponent.walks ready
    exact ⟨last, hfraction.append hexponent, complete⟩
  cases h with
  | @positive fraction exponent whole isFraction isExponent =>
    obtain ⟨c, digits, hdigits, isDigit, hwhole⟩ := Literal.walks_decimal whole
    obtain ⟨last, hrest, complete⟩ := rest c isFraction isExponent
    have notMinus : c ≠ '-' := ne_of_isDigit isDigit rfl
    refine ⟨c, digits ++ (fraction ++ exponent), by rw [hdigits]; rfl, .inr isDigit, last, ?_,
      complete⟩
    rw [Literal.ofFirst, if_neg notMinus]
    exact hwhole.append hrest
  | @negative fraction exponent whole isFraction isExponent =>
    obtain ⟨c, digits, hdigits, isDigit, hwhole⟩ := Literal.walks_decimal whole
    obtain ⟨last, hrest, complete⟩ := rest c isFraction isExponent
    have opens : Literal.minus.step c = .ok (some (.ofDigit c)) := by
      simp [Literal.step, isDigit]
    refine ⟨'-', _, rfl, .inl rfl, last, ?_, complete⟩
    rw [hdigits]
    exact .step opens (hwhole.append hrest)

/-- What may follow a number: nothing, or a blank, a comma or a closing bracket. -/
def IsDelimited (rest : List Char) : Prop :=
  ∀ c ∈ rest.head?, isBlank c = true ∨ c = ',' ∨ c = ']' ∨ c = '\x7d'

theorem isDelimited_of_blank {blanks : List Char} (h : IsBlank blanks)
    (delimited : IsDelimited rest) : IsDelimited (blanks ++ rest) := by
  cases blanks with
  | nil => exact delimited
  | cons c blanks =>
    intro d mem
    obtain rfl : c = d := Option.some.inj mem
    exact .inl (h c List.mem_cons_self)

/-- A number that may end does so before what may follow it. -/
theorem Literal.step_eq_none (complete : literal.isComplete = true)
    (delimited : IsDelimited (c :: rest)) : literal.step c = .ok none := by
  have delimiter : c = ' ' ∨ c = '\t' ∨ c = '\n' ∨ c = '\r' ∨ c = ',' ∨ c = ']' ∨ c = '\x7d' := by
    simpa [isBlank, or_assoc] using delimited c rfl
  have ready : literal = .zero ∨ literal = .digits ∨ literal = .fraction ∨
      literal = .exponentDigits := by
    cases literal <;> simp_all [Literal.isComplete]
  rcases ready with rfl | rfl | rfl | rfl <;>
    rcases delimiter with rfl | rfl | rfl | rfl | rfl | rfl | rfl <;> rfl

theorem Literal.readFrom_of_isComplete (complete : literal.isComplete = true)
    (delimited : IsDelimited rest) (before : List Char) :
    literal.readFrom before rest = .ok (before.reverse, rest) := by
  cases rest with
  | nil => rw [Literal.readFrom, if_pos complete]
  | cons c rest => rw [Literal.readFrom, Literal.step_eq_none complete delimited]

/-- A number is read up to what follows it, and comes to what its characters come to. -/
theorem readNumber_of_isNumber (h : IsNumber (c :: text)) (delimited : IsDelimited rest) :
    readNumber c (text ++ rest) = (numeral (c :: text)).map fun numeral => (numeral, rest) := by
  obtain ⟨d, others, same, -, last, walks, complete⟩ := h.walks
  obtain ⟨rfl, rfl⟩ := List.cons.inj same
  have read : (Literal.ofFirst c).readFrom [c] (text ++ rest) = .ok (c :: text, rest) := by
    rw [Literal.readFrom_of_walks walks, Literal.readFrom_of_isComplete complete delimited]
    simp
  have first : (if c = '-' then Literal.minus else .ofDigit c) = .ofFirst c := rfl
  simp only [readNumber, first, read]
  cases numeral (c :: text) <;> rfl

end

/-! ## Natural numbers -/

/-- What digits come to behind others that have come to this. -/
def decimalFrom (start : Nat) (digits : List Char) : Nat :=
  digits.foldl (fun value c => value * 10 + Text.digitValue c) start

theorem le_decimalFrom (start : Nat) (digits : List Char) : start ≤ decimalFrom start digits := by
  induction digits generalizing start with
  | nil => exact Nat.le_refl start
  | cons c digits ih =>
    have next : start * 10 + Text.digitValue c ≤ decimalFrom start (c :: digits) := ih _
    omega

/-- Digits are taken in as they are as long as 64 bits hold what they come to. -/
theorem Scaled.whole_of_le {start : Nat} (le : decimalFrom start digits ≤ wordMax) :
    Scaled.whole ⟨start, 0⟩ digits = ⟨decimalFrom start digits, 0⟩ := by
  induction digits generalizing start with
  | nil => rfl
  | cons c digits ih =>
    have next : start * 10 + Text.digitValue c ≤ wordMax :=
      Nat.le_trans (le_decimalFrom _ digits) le
    rw [Scaled.whole, if_pos next]
    exact ih le

/-- Digits that come to more leave a power of ten. -/
theorem Scaled.whole_of_gt {start : Nat} (fits : start ≤ wordMax)
    (gt : wordMax < decimalFrom start digits) : (Scaled.whole ⟨start, 0⟩ digits).power ≠ 0 := by
  induction digits generalizing start with
  | nil => exact absurd fits (Nat.not_le.mpr gt)
  | cons c digits ih =>
    by_cases next : start * 10 + Text.digitValue c ≤ wordMax
    · rw [Scaled.whole, if_pos next]
      exact ih next gt
    · rw [Scaled.whole, if_neg next]
      intro zero
      change (0 : Int) + (digits.length + 1) = 0 at zero
      omega

/-- A number is taken for a natural number only if it is unsigned and has nothing but digits, all of
which could be taken in. -/
theorem numeral_natural (h : numeral text = .ok (.natural n)) :
    text.head? ≠ some '-' ∧ text.dropWhile Text.isDigit = [] ∧
      Scaled.whole ⟨0, 0⟩ (text.takeWhile Text.isDigit) = ⟨n, 0⟩ := by
  -- what is not taken in as it is may be too large, but is no natural number
  have other (tooLarge : Bool) : (if tooLarge = true then Except.error Fault.malformed
      else .ok .other) ≠ Except.ok (Numeral.natural n) := by
    cases tooLarge <;> simp
  by_cases negative : text.head? = some '-'
  · simp only [numeral, negative, if_true] at h
    split at h
    · cases h
    · exact absurd h (other _)
  · simp only [numeral, negative, if_false, Bool.and_eq_true, List.isEmpty_iff,
      decide_eq_true_eq] at h
    split at h
    · rename_i plain
      obtain ⟨behind, power⟩ := plain
      refine ⟨negative, behind, ?_⟩
      generalize Scaled.whole ⟨0, 0⟩ (text.takeWhile Text.isDigit) = scaled at h power ⊢
      cases scaled with
      | mk significand power' =>
        obtain rfl := Numeral.natural.inj (Except.ok.inj h)
        obtain rfl : power' = 0 := power
        rfl
    · exact absurd h (other _)

/-- A number is a natural number of at most 64 bits exactly if it has nothing but digits and they
come to no more. -/
theorem numeral_eq_natural_iff (nonempty : text ≠ []) :
    numeral text = .ok (.natural n) ↔ Text.parseDecimal text = some n ∧ n ≤ wordMax := by
  rw [Text.parseDecimal_eq_some_iff]
  constructor
  · intro natural
    obtain ⟨-, behind, scaled⟩ := numeral_natural natural
    have digits : ∀ c ∈ text, Text.isDigit c = true := List.dropWhile_eq_nil_iff.mp behind
    rw [List.takeWhile_eq_self_iff.mpr digits] at scaled
    have le : decimalFrom 0 text ≤ wordMax := by
      by_contra gt
      exact Scaled.whole_of_gt (Nat.zero_le wordMax) (Nat.not_le.mp gt)
        (congrArg Scaled.power scaled)
    rw [Scaled.whole_of_le le] at scaled
    obtain rfl : decimalFrom 0 text = n := congrArg Scaled.significand scaled
    exact ⟨⟨nonempty, digits, rfl⟩, le⟩
  · rintro ⟨⟨-, digits, rfl⟩, le⟩
    have unsigned : text.head? ≠ some '-' := by
      intro head
      exact absurd (digits '-' (List.mem_of_head? head)) (by decide)
    have whole : text.takeWhile Text.isDigit = text := List.takeWhile_eq_self_iff.mpr digits
    have behind : text.dropWhile Text.isDigit = [] := List.dropWhile_eq_nil_iff.mpr digits
    have scaled : Scaled.whole ⟨0, 0⟩ text = ⟨Text.decimalValue text, 0⟩ := Scaled.whole_of_le le
    simp [numeral, unsigned, whole, behind, scaled]

/-- Digits and nothing else are a number only if they are the digits of a natural number. -/
theorem IsNumber.eq_decimal (h : IsNumber text) (parsed : Text.parseDecimal text = some n) :
    text = Text.decimal n := by
  obtain ⟨-, digits, comesTo⟩ := Text.parseDecimal_eq_some_iff.mp parsed
  have noDigit {d : Char} (no : Text.isDigit d = false) : d ∉ text := by
    intro mem
    rw [digits d mem] at no
    cases no
  cases h with
  | positive whole isFraction isExponent =>
    cases isFraction with
    | present => exact absurd (by simp) (noDigit (d := '.') rfl)
    | absent =>
      cases isExponent with
      | absent =>
        simp only [List.append_nil] at comesTo ⊢
        rw [← comesTo, Text.decimalValue_decimal]
      | @present mark sign exponentDigits isMark =>
        have isOther : Text.isDigit mark = false := by rcases isMark with rfl | rfl <;> rfl
        exact absurd (by simp) (noDigit isOther)
  | negative => exact absurd List.mem_cons_self (noDigit (d := '-') rfl)

end Tenure.Json
