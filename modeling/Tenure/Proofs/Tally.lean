import Mathlib.Data.List.Basic

/-!
# Counting the members of a list that take turns

The threads of a concurrent system are kept in a list, and one step replaces one of them. These
are the laws of counting under such a step, on which the conservation laws of the library rest.

## Main results

* `countP_set_add` — a replacement changes a count by the difference of the two members
* `exists_getElem?_of_countP_pos`, `eq_of_countP_le_one` — a count of one singles out a place
-/

namespace Tenure.Tally

variable {α : Type} {l : List α} {i j : Nat} {a b : α} {p : α → Bool}

private theorem ite_eq_toNat (c : Bool) : (if c = true then 1 else 0) = c.toNat := by
  cases c <;> rfl

/-- A member counts for no more than the whole list. -/
theorem toNat_le_countP (h : l[i]? = some a) : (p a).toNat ≤ l.countP p := by
  obtain ⟨hi, rfl⟩ := List.getElem?_eq_some_iff.mp h
  have hle := List.boole_getElem_le_countP (p := p) hi
  rwa [ite_eq_toNat] at hle

/-- A replacement changes a count by the difference of the two members. -/
theorem countP_set_add (h : l[i]? = some a) :
    (l.set i b).countP p + (p a).toNat = l.countP p + (p b).toNat := by
  have hle := toNat_le_countP (p := p) h
  obtain ⟨hi, rfl⟩ := List.getElem?_eq_some_iff.mp h
  rw [List.countP_set hi, ite_eq_toNat, ite_eq_toNat]
  omega

/-- Adding a member adds what it counts for. -/
theorem countP_concat : (l ++ [a]).countP p = l.countP p + (p a).toNat := by
  rw [List.countP_append, List.countP_singleton, ite_eq_toNat]

/-- What is counted stands somewhere. -/
theorem exists_getElem?_of_countP_pos (h : 0 < l.countP p) :
    ∃ (i : Nat) (a : α), l[i]? = some a ∧ p a = true := by
  obtain ⟨a, ha, hp⟩ := List.countP_pos_iff.mp h
  obtain ⟨i, hi⟩ := List.mem_iff_getElem?.mp ha
  exact ⟨i, a, hi, hp⟩

/-- What stands somewhere is counted. -/
theorem countP_pos_of_getElem? (h : l[i]? = some a) (hp : p a = true) : 0 < l.countP p :=
  List.countP_pos_iff.mpr ⟨a, List.mem_of_getElem? h, hp⟩

/-- If no more than one member is counted, two places that hold one are the same. -/
theorem eq_of_countP_le_one (h : l.countP p ≤ 1) (hi : l[i]? = some a) (ha : p a = true)
    (hj : l[j]? = some b) (hb : p b = true) : i = j := by
  induction l generalizing i j with
  | nil => simp at hi
  | cons x l ih =>
    rw [List.countP_cons] at h
    cases i with
    | zero =>
      cases j with
      | zero => rfl
      | succ j =>
        -- the head is counted, so nothing behind it is
        obtain rfl : x = a := by simpa using hi
        have := countP_pos_of_getElem? (p := p) (i := j) (by simpa using hj) hb
        rw [if_pos ha] at h
        omega
    | succ i =>
      cases j with
      | zero =>
        obtain rfl : x = b := by simpa using hj
        have := countP_pos_of_getElem? (p := p) (i := i) (by simpa using hi) ha
        rw [if_pos hb] at h
        omega
      | succ j =>
        exact congrArg (· + 1) (ih (by omega) (by simpa using hi) (by simpa using hj))

end Tenure.Tally
