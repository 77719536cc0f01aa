import Mathlib.Data.List.Induction
import Mathlib.Data.Nat.Digits.Defs
import Tenure.Text.Decimal

/-!
# Reading decimal numbers back

The digits of a number stand for that number, and what a row of digits stands for is its value to
the base ten: every digit weighs ten times as much as the one behind it, and leading zeros weigh
nothing.

## Main results

* `decimalValue_eq_ofDigits` — a row of digits stands for its value to the base ten
* `parseDecimal_eq_some_iff` — which texts are read, and as which numbers
* `parseDecimal_decimal` — the digits of a number are read as this number
-/

namespace Tenure.Text

variable {c : Char} {n : Nat} {text : List Char}

theorem toNat_digitChar (n : Nat) : (digitChar n).toNat = 48 + n % 10 := by
  have valid : (48 + n % 10).isValidChar := .inl (by omega)
  rw [digitChar, Char.ofNat, dif_pos valid]
  rfl

theorem isDigit_digitChar (n : Nat) : isDigit (digitChar n) = true := by
  have := toNat_digitChar n
  simp only [isDigit, Bool.and_eq_true, decide_eq_true_eq]
  omega

theorem digitValue_digitChar (n : Nat) : digitValue (digitChar n) = n % 10 := by
  rw [digitValue, toNat_digitChar]
  omega

theorem decimalValue_concat (text : List Char) (c : Char) :
    decimalValue (text ++ [c]) = decimalValue text * 10 + digitValue c := by
  simp [decimalValue]

/-- A row of digits stands for its value to the base ten. -/
theorem decimalValue_eq_ofDigits (text : List Char) :
    decimalValue text = Nat.ofDigits 10 (text.map digitValue).reverse := by
  induction text using List.reverseRecOn with
  | nil => rfl
  | append_singleton text c ih =>
    rw [decimalValue_concat, ih, List.map_append, List.map_singleton, List.reverse_append,
      List.reverse_singleton, List.singleton_append, Nat.ofDigits_cons]
    omega

theorem decimal_ne_nil (n : Nat) : decimal n ≠ [] := by
  rw [decimal]
  split <;> simp

theorem isDigit_of_mem_decimal (n : Nat) (mem : c ∈ decimal n) : isDigit c = true := by
  induction n using decimal.induct with
  | case1 n lt =>
    rw [decimal, if_pos lt, List.mem_singleton] at mem
    exact mem ▸ isDigit_digitChar n
  | case2 n ge ih =>
    rw [decimal, if_neg ge, List.mem_append, List.mem_singleton] at mem
    rcases mem with mem | rfl
    · exact ih mem
    · exact isDigit_digitChar n

/-- The digits of a number stand for it. -/
theorem decimalValue_decimal (n : Nat) : decimalValue (decimal n) = n := by
  induction n using decimal.induct with
  | case1 n lt =>
    rw [decimal, if_pos lt, ← List.nil_append [digitChar n], decimalValue_concat,
      digitValue_digitChar, Nat.mod_eq_of_lt lt]
    exact Nat.zero_add n
  | case2 n ge ih =>
    rw [decimal, if_neg ge, decimalValue_concat, ih, digitValue_digitChar]
    omega

/-- A text is read as a number if it holds digits, at least one, and nothing else. -/
theorem parseDecimal_eq_some_iff :
    parseDecimal text = some n ↔
      text ≠ [] ∧ (∀ c ∈ text, isDigit c = true) ∧ decimalValue text = n := by
  simp [parseDecimal, and_assoc]

/-- The digits of a number are read as this number. -/
theorem parseDecimal_decimal (n : Nat) : parseDecimal (decimal n) = some n :=
  parseDecimal_eq_some_iff.mpr
    ⟨decimal_ne_nil n, fun _ mem => isDigit_of_mem_decimal n mem, decimalValue_decimal n⟩

end Tenure.Text
