import Tenure.Proofs.Retry.Numbers
import Tenure.Proxy.Party

/-!
# The checks of a call

A run of checks never begins more checks than it has attempts, begins the next one only when the
last one is over, and comes to an answer only if that is the answer of the last check that was
begun.

## Main definitions

* `Check.Fit` — the checks that were begun are those of a run of checks
* `Validation.most` — how many checks a run begins at most

## Main results

* `Check.Fit.start`, `Check.Fit.handOver`, `Check.Fit.wake`, `Check.Fit.cancel`,
  `Check.Fit.begun`, `Check.Fit.received` — every step of a run keeps to that
-/

namespace Tenure

/-- How many checks a run of checks with some budget begins at most. -/
def Validation.most (budget : UInt32) : Nat := max 1 budget.toNat

theorem Validation.toNat_limit (budget : UInt32) :
    (statusRetrier budget).limit.toNat = most budget :=
  Retrier.toNat_limit_new budget LeadingStatus.isConclusive

theorem Validation.most_pos (budget : UInt32) : 0 < most budget :=
  Nat.lt_of_lt_of_le Nat.zero_lt_one (Nat.le_max_left 1 budget.toNat)

theorem Validation.most_lt (budget : UInt32) : most budget < UInt32.size := by
  rw [← toNat_limit]
  exact UInt32.toNat_lt_size _

/-- Whether the checks that were begun, latest first, are those of a run of checks that makes no
more than `most` attempts. -/
def Check.Fit (most : Nat) (checks : List Check) : Option Validation → Prop
  | none => checks = []
  | some (.submitting attempt) => attempt.toNat = checks.length + 1 ∧ attempt.toNat ≤ most
  | some (.attempting attempt) =>
    (attempt.toNat = checks.length + 1 ∨ attempt.toNat = checks.length ∧ checks ≠ []) ∧
      attempt.toNat ≤ most
  | some (.pausing attempt) => attempt.toNat = checks.length ∧ attempt.toNat < most
  | some (.finished result) =>
    checks.length ≤ most ∧ ∀ status, result = .ok status →
      ∃ token earlier, checks = ⟨token, some (.ok status)⟩ :: earlier

namespace Check.Fit

variable {most : Nat} {checks : List Check} {run : Validation} {validation : Option Validation}

theorem length_le (h : Check.Fit most checks validation) : checks.length ≤ most := by
  match validation with
  | none =>
    rw [h]
    exact Nat.zero_le most
  | some (.submitting attempt) =>
    have := h.1
    have := h.2
    omega
  | some (.attempting attempt) =>
    obtain ⟨hone | ⟨hone, -⟩, hle⟩ := h <;> omega
  | some (.pausing attempt) =>
    have := h.1
    have := h.2
    omega
  | some (.finished result) => exact h.1

theorem start (hpos : 0 < most) : Check.Fit most [] (some .start) :=
  ⟨rfl, hpos⟩

/-- A run that has come to nothing fits any checks that are not too many. -/
theorem finished_error {failure : RetryFailure ElectionFailure} (h : checks.length ≤ most) :
    Check.Fit most checks (some (.finished (.error failure))) :=
  ⟨h, by simp⟩

theorem cancel (h : Check.Fit most checks (some run)) :
    Check.Fit most checks (some run.cancel) := by
  cases run with
  | finished result => exact h
  | _ => exact finished_error h.length_le

theorem handOver (h : Check.Fit most checks (some run)) (refusal : Option ExecutorFailure) :
    Check.Fit most checks (some (run.handOver refusal)) := by
  cases run with
  | submitting attempt =>
    cases refusal with
    | none => exact ⟨.inl h.1, h.2⟩
    | some failure => exact finished_error h.length_le
  | _ => cases refusal <;> exact h

theorem wake (h : Check.Fit most checks (some run)) (hmost : most < UInt32.size) :
    Check.Fit most checks (some run.wake) := by
  cases run with
  | pausing attempt =>
    obtain ⟨hlength, hlt⟩ := h
    have hnext := Run.toNat_succ hlt hmost
    exact ⟨by rw [hnext, hlength], by rw [hnext]; exact hlt⟩
  | _ => exact h

/-- The next check is begun. -/
theorem begun {attempt : UInt32} (h : Check.Fit most checks (some (.attempting attempt)))
    (hnext : attempt.toNat = checks.length + 1) (check : Check) :
    Check.Fit most (check :: checks) (some (.attempting attempt)) :=
  ⟨.inr ⟨by simpa using hnext, by simp⟩, h.2⟩

theorem lt_of_not_isLast {budget attempt : UInt32}
    (h : ¬ Run.isLast (statusRetrier budget) attempt = true) :
    attempt.toNat < Validation.most budget := by
  rw [← Validation.toNat_limit]
  simpa [Run.isLast, UInt32.le_iff_toNat_le] using h

/-- The last check that was begun is answered, or was lost. -/
theorem received {budget attempt : UInt32} (shard : String)
    (delivery : Run.Delivery LeadingStatus ElectionFailure)
    (h : Check.Fit (Validation.most budget) checks (some (.attempting attempt)))
    (hbegun : delivery = .lost ∨ attempt.toNat = checks.length) :
    Check.Fit (Validation.most budget) (Caller.answered checks delivery)
      (some ((Run.attempting attempt).receive (statusRetrier budget) shard delivery).1) := by
  have hle := h.length_le
  cases delivery with
  | lost => exact finished_error hle
  | value status =>
    have hattempt : attempt.toNat = checks.length := by simpa using hbegun
    -- an answer is to a check that was begun, the latest one
    obtain ⟨check, earlier, rfl⟩ : ∃ check earlier, checks = check :: earlier := by
      refine List.exists_cons_of_ne_nil ?_
      rcases h.1 with hnext | ⟨-, hne⟩
      · omega
      · exact hne
    simp only [Run.receive]
    split
    -- a conclusive answer, or the last one, is what the run comes to
    · refine ⟨hle, fun status' hs => ?_⟩
      obtain rfl : status = status' := by simpa using hs
      exact ⟨check.token, earlier, rfl⟩
    · rename_i hmore
      exact ⟨hattempt, lt_of_not_isLast fun hlast => hmore (by simp [hlast])⟩
  | failure failure =>
    have hattempt : attempt.toNat = checks.length := by simpa using hbegun
    have hlength : (Caller.answered checks (.failure failure)).length = checks.length := by
      cases checks <;> rfl
    simp only [Run.receive]
    split
    · exact finished_error (by rw [hlength]; exact hle)
    · rename_i hmore
      exact ⟨by rw [hlength]; exact hattempt, lt_of_not_isLast hmore⟩

end Check.Fit

end Tenure
