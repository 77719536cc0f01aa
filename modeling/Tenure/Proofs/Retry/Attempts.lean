import Tenure.Proofs.Retry.Numbers
import Tenure.Retry.Pursuit

/-!
# What a run of attempts comes to

Left alone, a run makes its attempts one after the other, each with a delay before the next one, up
to the first attempt that settles the matter: one that delivers a value which the judge accepts, or
one that breaks off. If none of those that may be made does, it is the last one that counts,
whatever it delivers. This file says which attempt that is, what can be seen of the run, and what it
comes to.

## Main definitions

* `Pursuit.Plan.decisive` — the number of the attempt that a run comes to
* `Pursuit.Plan.reference` — what can be seen of a run that is left alone
* `Pursuit.Plan.conclusion` — what it comes to

## Main results

* `Pursuit.Plan.decisive_eq_min` — the first value that is accepted, as far as the budget goes
* `Pursuit.Plan.started_reference` — how many attempts are started
* `Pursuit.Plan.receive_delivery` — what a run makes of its next delivery
-/

namespace Tenure

namespace Pursuit

variable {α ε : Type}

/-- Whether what is seen is the begin of an attempt. -/
def Event.isStart : Event α ε → Bool
  | started _ => true
  | _ => false

/-- Whether what is seen is the hand-over of an attempt. -/
def Event.isSubmission : Event α ε → Bool
  | submitted _ => true
  | _ => false

namespace Plan

/-- How many attempts are made at most. -/
def most (plan : Plan α ε) : Nat := max 1 plan.budget.toNat

/-- Whether an attempt delivers a value that is accepted. -/
def accepted (plan : Plan α ε) (number : Nat) : Bool :=
  match plan.fate number with
  | .value value => plan.accepts value
  | _ => false

/-- Whether an attempt breaks off. -/
def breaks (plan : Plan α ε) (number : Nat) : Bool :=
  match plan.fate number with
  | .breaksAtOnce | .breaksLater => true
  | _ => false

/-- Whether no other attempt is made after an attempt, whatever the budget. -/
def settles (plan : Plan α ε) (number : Nat) : Bool :=
  plan.accepted number || plan.breaks number

/-- The number of the attempt that a run comes to. -/
def decisive (plan : Plan α ε) : Nat := firstOrLast plan.most plan.settles

/-- What a run comes to with the last attempt that it makes. -/
def conclusion (plan : Plan α ε) (name : String) (number : Nat) : Except (RetryFailure ε) α :=
  match plan.fate number with
  | .value value => .ok value
  | .failure failure => .error (.attempt failure)
  | .breaksAtOnce | .breaksLater => .error (.executor (.taskLost name))

/-- What can be seen of an attempt that is left alone. -/
def trial (plan : Plan α ε) (number : Nat) : List (Event α ε) :=
  [.submitted number, .started number, .delivered number (plan.delivery number)]

/-- What can be seen of so many attempts, with the delays after them. -/
def story (plan : Plan α ε) (count : Nat) : List (Event α ε) :=
  (List.range' 1 count).flatMap fun number => plan.trial number ++ [.rests plan.delay, .rested]

/-- What can be seen of a run that is left alone, from its begin to its end. -/
def reference (plan : Plan α ε) : List (Event α ε) :=
  plan.story (plan.decisive - 1) ++ plan.trial plan.decisive

variable {plan : Plan α ε} {number count : Nat}

theorem most_pos (plan : Plan α ε) : 0 < plan.most :=
  Nat.lt_of_lt_of_le Nat.zero_lt_one (Nat.le_max_left 1 plan.budget.toNat)

theorem toNat_limit (plan : Plan α ε) : plan.retrier.limit.toNat = plan.most :=
  Retrier.toNat_limit_new plan.budget plan.accepts

theorem most_lt (plan : Plan α ε) : plan.most < UInt32.size := by
  rw [← toNat_limit]
  exact UInt32.toNat_lt_size _

theorem decisive_spec (plan : Plan α ε) :
    (1 ≤ plan.decisive ∧ plan.decisive ≤ plan.most) ∧
      (plan.settles plan.decisive = true ∨ plan.decisive = plan.most) ∧
      ∀ number, 1 ≤ number → number < plan.decisive → plan.settles number = false :=
  firstOrLast_spec plan.most_pos plan.settles

theorem decisive_pos (plan : Plan α ε) : 1 ≤ plan.decisive := plan.decisive_spec.1.1

theorem decisive_le (plan : Plan α ε) : plan.decisive ≤ plan.most := plan.decisive_spec.1.2

/-- A run comes to the first value that is accepted, as far as its budget goes and no attempt breaks
off before. -/
theorem decisive_eq_min {k : Nat} (hk : 1 ≤ k) (haccepted : plan.accepted k = true)
    (hfirst : ∀ number, 1 ≤ number → number < k → plan.accepted number = false)
    (hwhole : ∀ number, 1 ≤ number → number < min k plan.most → plan.breaks number = false) :
    plan.decisive = min k plan.most := by
  obtain ⟨⟨hpos, hle⟩, hlast, hbefore⟩ := plan.decisive_spec
  have hmost := plan.most_pos
  rcases Nat.lt_trichotomy plan.decisive (min k plan.most) with hlt | heq | hgt
  · -- the run would come to an attempt that neither is accepted nor breaks off
    rcases hlast with hsettles | heq
    · simp [settles, hfirst _ hpos (by omega), hwhole _ hpos hlt] at hsettles
    · omega
  · exact heq
  · have hunsettled := hbefore k hk (by omega)
    simp [settles, haccepted] at hunsettled

/-- A run comes to its last attempt if none before delivers a value that is accepted, or breaks
off. -/
theorem decisive_eq_most
    (hnone : ∀ number, 1 ≤ number → number < plan.most → plan.settles number = false) :
    plan.decisive = plan.most := by
  obtain ⟨⟨hpos, hle⟩, hlast, -⟩ := plan.decisive_spec
  rcases hlast with hsettles | heq
  · by_contra hne
    rw [hnone _ hpos (by omega)] at hsettles
    simp at hsettles
  · exact heq

/-- A run comes to the first attempt that breaks off, unless it has settled the matter before or has
spent its budget. -/
theorem decisive_eq_of_breaks (hpos : 1 ≤ number) (hle : number ≤ plan.most)
    (hbreaks : plan.breaks number = true)
    (hbefore : ∀ other, 1 ≤ other → other < number → plan.settles other = false) :
    plan.decisive = number := by
  obtain ⟨⟨hone, -⟩, hlast, hfirst⟩ := plan.decisive_spec
  rcases Nat.lt_trichotomy plan.decisive number with hlt | heq | hgt
  · rcases hlast with hsettles | heq
    · rw [hbefore _ hone hlt] at hsettles
      simp at hsettles
    · omega
  · exact heq
  · have hunsettled := hfirst number hpos hgt
    simp [settles, hbreaks] at hunsettled

theorem story_succ (plan : Plan α ε) (count : Nat) :
    plan.story (count + 1) =
      plan.story count ++ (plan.trial (count + 1) ++ [.rests plan.delay, .rested]) := by
  rw [story, List.range'_concat, List.flatMap_append]
  simp [story, Nat.add_comm]

/-- What is seen once of every attempt is seen of them in order. -/
theorem filter_story {p : Event α ε → Bool} (event : Nat → Event α ε)
    (once : ∀ number, (plan.trial number ++ [Event.rests plan.delay, .rested]).filter p =
      [event number]) (count : Nat) :
    (plan.story count).filter p = (List.range' 1 count).map event := by
  induction count with
  | zero => rfl
  | succ count ih =>
    rw [story_succ, List.filter_append, ih, once, List.range'_concat, List.map_append]
    simp [Nat.add_comm]

/-- A run that is left alone starts its attempts one after the other, up to the decisive one. -/
theorem started_reference (plan : Plan α ε) :
    plan.reference.filter Event.isStart = (List.range' 1 plan.decisive).map .started := by
  obtain ⟨count, hcount⟩ : ∃ count, plan.decisive = count + 1 :=
    ⟨plan.decisive - 1, by have := plan.decisive_pos; omega⟩
  have hlast : (plan.trial (count + 1)).filter Event.isStart = [.started (count + 1)] := rfl
  rw [reference, hcount, List.filter_append, Nat.add_sub_cancel, filter_story .started fun _ => rfl,
    hlast,
    List.range'_concat, List.map_append]
  simp [Nat.add_comm]

/-- What a run makes of the delivery of an attempt that was left alone: it comes to its end with the
decisive one, and goes on after every other. -/
theorem receive_delivery (plan : Plan α ε) (name : String) {attempt : UInt32}
    (hattempt : attempt.toNat = number) (hpos : 1 ≤ number) (hle : number ≤ plan.decisive) :
    ((Run.attempting attempt).receive plan.retrier name (plan.delivery number)).1 =
      if number = plan.decisive then .finished (plan.conclusion name number)
      else .pausing attempt := by
  have hiff := eq_firstOrLast_iff plan.most_pos hpos hle
  have hlast : Run.isLast plan.retrier attempt = true ↔ plan.most ≤ number := by
    rw [← hattempt, ← toNat_limit]
    simp [Run.isLast, UInt32.le_iff_toNat_le]
  change number = plan.decisive ↔ _ at hiff
  cases hfate : plan.fate number with
  | value value =>
    have hsettles : plan.settles number = plan.accepts value := by
      simp [settles, accepted, breaks, hfate]
    have hjudged : plan.retrier.accepts value = plan.accepts value := rfl
    by_cases hover : number = plan.decisive
    · have hdone := hiff.mp hover
      rw [← hlast, hsettles, ← hjudged, ← Bool.or_eq_true] at hdone
      simp only [delivery, hfate, Run.receive, hdone, if_true, if_pos hover, conclusion]
    · have hmore := mt hiff.mpr hover
      rw [← hlast, hsettles, ← hjudged, ← Bool.or_eq_true] at hmore
      simp only [delivery, hfate, Run.receive, hmore, if_neg hover]
      rfl
  | failure failure =>
    have hsettles : plan.settles number = false := by simp [settles, accepted, breaks, hfate]
    simp only [hsettles, Bool.false_eq_true, or_false, ← hlast] at hiff
    by_cases hover : number = plan.decisive
    · simp only [delivery, hfate, Run.receive, hiff.mp hover, if_true, if_pos hover, conclusion]
    · simp only [delivery, hfate, Run.receive, mt hiff.mpr hover, if_neg hover]
      rfl
  | breaksAtOnce | breaksLater =>
    have hsettles : plan.settles number = true := by simp [settles, breaks, hfate]
    have hover : number = plan.decisive := hiff.mpr (.inr hsettles)
    simp only [delivery, hfate, Run.receive, if_pos hover, conclusion]

end Plan

end Pursuit

end Tenure
