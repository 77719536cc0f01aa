import Tenure.Proofs.Proxy.Checks

/-!
# Which check decides

A run of checks that is answered as a script says comes to the first answer that settles the
matter, or to the last answer that its budget allows. The number of that answer is the number of
checks that the run makes.

## Main definitions

* `Validation.Answer`, `Validation.decides` — what a check is answered, and whether that settles
  the matter
* `Validation.decisive` — the number of the answer that a run comes to
* `Validation.Tried` — how far a run has come on a script

## Main results

* `Validation.decisive_spec` — what the decisive answer is
* `Validation.Tried.start`, `Validation.Tried.handOver`, `Validation.Tried.begun`,
  `Validation.Tried.receive`, `Validation.Tried.wake` — every step of a run keeps to the script
* `Validation.leading_of_le` — a greater budget loses no confirmation
-/

namespace Tenure.Validation

/-- What a check is answered. -/
abbrev Answer := Except ElectionFailure LeadingStatus

/-- Whether an answer settles the matter. -/
def decides : Answer → Bool
  | .ok status => status.isConclusive
  | .error _ => false

/-- How an answer is delivered. -/
def delivery : Answer → Run.Delivery LeadingStatus ElectionFailure
  | .ok status => .value status
  | .error failure => .failure failure

/-- What a run comes to with its last answer. -/
def conclusion : Answer → Checked
  | .ok status => .ok status
  | .error failure => .error (.attempt failure)

/-- The number of the answer that a run comes to: the first one that settles the matter, if the
budget allows for it, and else the last one that it allows. -/
def decisive (budget : UInt32) (script : Nat → Answer) : Nat :=
  ((List.range' 1 (most budget)).find? fun number => decides (script number)).getD (most budget)

variable {budget budget' : UInt32} {script : Nat → Answer} {count number : Nat}

theorem decisive_spec (budget : UInt32) (script : Nat → Answer) :
    (1 ≤ decisive budget script ∧ decisive budget script ≤ most budget) ∧
      (decides (script (decisive budget script)) = true ∨ decisive budget script = most budget) ∧
      ∀ number, 1 ≤ number → number < decisive budget script →
        decides (script number) = false :=
  firstOrLast_spec (most_pos budget) fun number => decides (script number)

theorem decisive_pos (budget : UInt32) (script : Nat → Answer) : 1 ≤ decisive budget script :=
  (decisive_spec budget script).1.1

theorem decisive_le (budget : UInt32) (script : Nat → Answer) :
    decisive budget script ≤ most budget :=
  (decisive_spec budget script).1.2

/-- An answer up to the decisive one is decisive exactly if no other check is made after it. -/
theorem eq_decisive_iff (hpos : 1 ≤ number) (hle : number ≤ decisive budget script) :
    number = decisive budget script ↔
      most budget ≤ number ∨ decides (script number) = true :=
  eq_firstOrLast_iff (most_pos budget) hpos hle

/-- A greater budget loses no confirmation. -/
theorem leading_of_le (h : budget ≤ budget')
    (hleading : script (decisive budget script) = .ok .leading) :
    script (decisive budget' script) = .ok .leading := by
  have hmost : most budget ≤ most budget' := by
    have := UInt32.le_iff_toNat_le.mp h
    unfold most
    omega
  obtain ⟨⟨hpos, hle⟩, -, hbefore⟩ := decisive_spec budget script
  obtain ⟨⟨hpos', -⟩, hlast', hbefore'⟩ := decisive_spec budget' script
  have hdecides : decides (script (decisive budget script)) = true := by
    rw [hleading]
    rfl
  -- neither of the two numbers comes before the other one
  have hsame : decisive budget' script = decisive budget script := by
    rcases Nat.lt_trichotomy (decisive budget' script) (decisive budget script) with
      hlt | heq | hlt
    · rcases hlast' with hdecides' | heq
      · rw [hbefore _ hpos' hlt] at hdecides'
        simp at hdecides'
      · omega
    · exact heq
    · rw [hbefore' _ hpos hlt] at hdecides
      simp at hdecides
  rw [hsame, hleading]

/-- How far a run has come that has begun so many checks, the answers to which are those of the
script. -/
def Tried (budget : UInt32) (script : Nat → Answer) (count : Nat) : Validation → Prop
  | .submitting attempt => attempt.toNat = count + 1 ∧ count < decisive budget script
  | .attempting attempt =>
    (attempt.toNat = count + 1 ∨ attempt.toNat = count ∧ 1 ≤ count) ∧
      attempt.toNat ≤ decisive budget script
  | .pausing attempt => attempt.toNat = count ∧ count < decisive budget script
  | .finished result =>
    count = decisive budget script ∧ result = conclusion (script count)

namespace Tried

variable {run : Validation} {attempt : UInt32}

theorem start (budget : UInt32) (script : Nat → Answer) : Tried budget script 0 .start :=
  ⟨rfl, decisive_pos budget script⟩

theorem handOver (h : Tried budget script count run) :
    Tried budget script count (run.handOver none) := by
  cases run with
  | submitting attempt => exact ⟨.inl h.1, by rw [h.1]; exact h.2⟩
  | _ => exact h

theorem begun (h : Tried budget script count (.attempting attempt))
    (hnext : attempt.toNat = count + 1) :
    Tried budget script (count + 1) (.attempting attempt) :=
  ⟨.inr ⟨hnext, Nat.le_add_left 1 count⟩, h.2⟩

theorem wake (h : Tried budget script count run) : Tried budget script count run.wake := by
  cases run with
  | pausing attempt =>
    obtain ⟨hattempt, hlt⟩ := h
    have hnext := Run.toNat_succ
      (Nat.lt_of_lt_of_le (hattempt.symm ▸ hlt) (decisive_le budget script)) (most_lt budget)
    exact ⟨by rw [hnext, hattempt], hlt⟩
  | _ => exact h

/-- The answer of the script to a check that was begun. -/
theorem receive (h : Tried budget script count (.attempting attempt))
    (hbegun : attempt.toNat = count) (shard : String) :
    Tried budget script count
      ((Run.attempting attempt).receive (statusRetrier budget) shard
        (delivery (script count))).1 := by
  obtain ⟨hcount, hle⟩ := h
  have hpos : 1 ≤ count := by omega
  rw [hbegun] at hle
  have hiff := eq_decisive_iff hpos hle
  have hlast : Run.isLast (statusRetrier budget) attempt = true ↔ most budget ≤ count := by
    rw [← hbegun, ← toNat_limit]
    simp [Run.isLast, UInt32.le_iff_toNat_le]
  cases hanswer : script count with
  | ok status =>
    have haccepts : (statusRetrier budget).accepts status = decides (script count) := by
      rw [hanswer]
      rfl
    simp only [delivery, Run.receive, haccepts]
    split
    · rename_i hover
      rw [Bool.or_eq_true, hlast] at hover
      exact ⟨hiff.mpr hover, by rw [hanswer]; rfl⟩
    · rename_i hmore
      rw [Bool.or_eq_true, hlast, ← hiff] at hmore
      exact ⟨hbegun, by omega⟩
  | error failure =>
    have hopen : decides (script count) = false := by
      rw [hanswer]
      rfl
    rw [hopen] at hiff
    simp only [delivery, Run.receive]
    split
    · rename_i hover
      exact ⟨hiff.mpr (.inl (hlast.mp hover)), by rw [hanswer]; rfl⟩
    · rename_i hmore
      rw [hlast] at hmore
      exact ⟨hbegun, by simp at hiff; omega⟩

end Tried

end Tenure.Validation
