import Mathlib.Tactic.ByContra
import Tenure.Retry.Run

/-!
# Numbers of attempts

Attempts are numbered from one. A run looks for the first of them that has some property, among as
many as its budget allows, and makes do with the last one if none has.

## Main definitions

* `firstOrLast` — the first number with a property, or else the last one up to a bound

## Main results

* `firstOrLast_spec`, `eq_firstOrLast_iff` — which number that is
* `Retrier.toNat_limit_new`, `Run.toNat_succ` — how far the numbers go
-/

namespace Tenure

/-- The first number from one on that has a property, or else the last one up to a bound. -/
def firstOrLast (most : Nat) (p : Nat → Bool) : Nat :=
  ((List.range' 1 most).find? p).getD most

section

variable {most number : Nat} {p : Nat → Bool}

theorem firstOrLast_spec (hpos : 0 < most) (p : Nat → Bool) :
    (1 ≤ firstOrLast most p ∧ firstOrLast most p ≤ most) ∧
      (p (firstOrLast most p) = true ∨ firstOrLast most p = most) ∧
      ∀ number, 1 ≤ number → number < firstOrLast most p → p number = false := by
  unfold firstOrLast
  cases hfind : (List.range' 1 most).find? p with
  | none =>
    rw [List.find?_eq_none] at hfind
    refine ⟨⟨hpos, Nat.le_refl _⟩, .inr rfl, fun number hone hlt => ?_⟩
    simpa using hfind number (List.mem_range'_1.mpr ⟨hone, Nat.lt_add_left 1 hlt⟩)
  | some first =>
    obtain ⟨hp, hmem, hbefore⟩ := List.find?_range'_eq_some.mp hfind
    have hrange := List.mem_range'_1.mp hmem
    refine ⟨⟨hrange.1, ?_⟩, .inl hp, fun number hone hlt => ?_⟩
    · simp only [Option.getD_some]
      omega
    · simpa using hbefore number hone hlt

/-- A number up to that one is that one exactly if the search ends there. -/
theorem eq_firstOrLast_iff (hpos : 0 < most) (hone : 1 ≤ number)
    (hle : number ≤ firstOrLast most p) :
    number = firstOrLast most p ↔ most ≤ number ∨ p number = true := by
  obtain ⟨⟨-, hmost⟩, hlast, hbefore⟩ := firstOrLast_spec hpos p
  constructor
  · rintro rfl
    exact hlast.symm.imp (fun heq => Nat.le_of_eq heq.symm) id
  · rintro (hlimit | hp)
    · omega
    · by_contra hne
      rw [hbefore number hone (by omega)] at hp
      simp at hp

end

/-- A budget of none counts as one. -/
theorem Retrier.toNat_limit_new {α : Type} (budget : UInt32) (accepts : α → Bool) :
    (Retrier.new budget accepts).limit.toNat = max 1 budget.toNat := by
  change (max budget 1).toNat = max 1 budget.toNat
  by_cases h : budget ≤ 1
  · have hle : budget.toNat ≤ 1 := UInt32.le_iff_toNat_le.mp h
    have hmax : max budget 1 = 1 := if_pos h
    rw [hmax, Nat.max_eq_left hle]
    rfl
  · have hlt : 1 < budget.toNat := by
      have := mt UInt32.le_iff_toNat_le.mpr h
      simpa using this
    have hmax : max budget 1 = budget := if_neg h
    rw [hmax, Nat.max_eq_right (Nat.le_of_lt hlt)]

/-- Attempts are counted on without wrapping around. -/
theorem Run.toNat_succ {attempt : UInt32} {most : Nat} (hlt : attempt.toNat < most)
    (hmost : most < UInt32.size) : (attempt + 1).toNat = attempt.toNat + 1 := by
  have hone : UInt32.toNat 1 = 1 := rfl
  have hsize : UInt32.size = 2 ^ 32 := rfl
  rw [UInt32.toNat_add]
  exact Nat.mod_eq_of_lt (by omega)

end Tenure
