import Mathlib.Data.List.GetD
import Tenure.Proofs.Retry.Progress

/-!
# A run follows its reference

A run that nobody calls off, on a worker and a scheduler that run, does exactly what its reference
says, however the moves of all the others come between its own. Attempt follows attempt, each after
the delay that begins when the one before has delivered its outcome, and the run comes to the
outcome of the last one. If an attempt is lost or refused on the way, the run ends with that, and
makes no other attempt.

## Main definitions

* `Pursuit.Uncancelled` — the schedules under which nobody calls a run off
* `Pursuit.twice`, `Pursuit.twicePlan` — a run that is attended to

## Main results

* `Pursuit.Stands.log_prefix` — nothing is seen but what the reference says
* `Pursuit.ends_with_lost` — a run ends with an attempt that is lost
* `Pursuit.counted` — how the attempts are counted
* `Pursuit.follows_reference` — what a run does and comes to
-/

namespace Tenure.Pursuit

variable {α ε : Type} {plan : Plan α ε} {name : String} {schedule : Nat → Move}
  {pursuit : Pursuit α ε} {count count' number m n : Nat} {leg : Leg}

namespace Plan

theorem story_prefix (plan : Plan α ε) (hle : count ≤ count') :
    plan.story count <+: plan.story count' := by
  induction count', hle using Nat.le_induction with
  | base => exact List.prefix_rfl
  | succ count' _ ih =>
    rw [story_succ]
    exact ih.trans (List.prefix_append _ _)

/-- What can be seen of an attempt and those before it, if it is decisive or comes before the
decisive one. -/
theorem story_trial_prefix (hwithin : count < plan.decisive) :
    plan.story count ++ plan.trial (count + 1) <+: plan.reference := by
  by_cases hlast : count + 1 = plan.decisive
  · have hreference : plan.reference = plan.story count ++ plan.trial (count + 1) := by
      rw [reference, ← hlast, Nat.add_sub_cancel]
    exact hreference ▸ List.prefix_rfl
  · have hstory : plan.story count ++ plan.trial (count + 1) <+: plan.story (count + 1) := by
      rw [story_succ, ← List.append_assoc]
      exact List.prefix_append _ _
    exact (hstory.trans (plan.story_prefix (by omega))).trans (List.prefix_append _ _)

theorem conclusion_ne_cancelled (plan : Plan α ε) (name : String) (number : Nat) :
    plan.conclusion name number ≠ .error .cancelled := by
  unfold conclusion
  split <;> simp

/-- No attempt before the decisive one is lost. -/
theorem lost_not_mem_story (hwithin : count < plan.decisive) :
    .delivered number .lost ∉ plan.story count := by
  intro hmem
  obtain ⟨other, hother, hmem⟩ := List.mem_flatMap.mp hmem
  have hrange := List.mem_range'_1.mp hother
  have hdelivery : plan.delivery other = .lost := by
    simp only [trial, List.mem_append, List.mem_cons, Event.delivered.injEq, reduceCtorEq,
      List.not_mem_nil, false_or, or_false] at hmem
    exact hmem.2.symm
  have hunsettled := plan.decisive_spec.2.2 other hrange.1 (by omega)
  cases hfate : plan.fate other <;>
    simp [delivery, settles, breaks, hfate] at hdelivery hunsettled

end Plan

namespace Stands

/-- A run that rests has another attempt before it. -/
theorem more (h : Stands plan count .resting pursuit) (hcalled : pursuit.isCalled = false) :
    count + 1 < plan.decisive := by
  have hfits := h.fits
  rw [hcalled] at hfits
  generalize pursuit.run = run at hfits
  cases hfits with
  | attempting sent unrested => exact absurd rfl unrested
  | pausing counted more => exact more
  | cut told => simp at told

/-- Where nothing is dropped and nobody cuts the run, nothing is seen but what the reference says.
-/
theorem log_prefix (h : Stands plan count leg pursuit) (hcalled : pursuit.isCalled = false)
    (hkept : ∀ begun, leg ≠ .dropped begun) : pursuit.log <+: plan.reference := by
  have htrial := Plan.story_trial_prefix h.within
  have hpart {part : List (Event α ε)} (hpart : part <+: plan.trial (count + 1)) :
      plan.story count ++ part <+: plan.reference :=
    ((List.prefix_append_right_inj _).mpr hpart).trans htrial
  rw [h.log]
  -- of the present attempt, a begin of what is seen of it in full has been seen
  cases leg with
  | dropped begun => exact absurd rfl (hkept begun)
  | unsent => exact hpart List.nil_prefix
  | queued => exact hpart ⟨[.started _, .delivered _ _], rfl⟩
  | running | alive => exact hpart ⟨[.delivered _ _], rfl⟩
  | done => exact htrial
  | resting =>
    have hmore := h.more hcalled
    have hrests : plan.story count ++ Leg.seen plan (count + 1) .resting <+:
        plan.story (count + 1) := by
      rw [plan.story_succ]
      refine (List.prefix_append_right_inj _).mpr ?_
      exact (List.prefix_append_right_inj _).mpr ⟨[.rested], rfl⟩
    exact (hrests.trans (plan.story_prefix (by omega))).trans (List.prefix_append _ _)

/-- The attempts that were handed over are those up to the present one. -/
theorem submissions (h : Stands plan count leg pursuit) :
    pursuit.submissions = (List.range' 1 pursuit.handed).map .submitted := by
  have hstory : (plan.story count).filter Event.isSubmission =
      (List.range' 1 count).map Event.submitted := Plan.filter_story _ (fun _ => rfl) count
  have hseen : (leg.seen plan (count + 1)).filter Event.isSubmission =
      if leg = .unsent then [] else [.submitted (count + 1)] := by
    cases leg with
    | dropped begun => cases begun <;> rfl
    | _ => rfl
  rw [Pursuit.submissions, h.log, List.filter_append, hstory, hseen, h.handed]
  split
  · exact List.append_nil _
  · rw [List.range'_concat, List.map_append]
    simp [Nat.add_comm]

/-- If an attempt was lost, it is the present one, and the run comes to nothing else. -/
theorem of_lost (h : Stands plan count leg pursuit) (hcalled : pursuit.isCalled = false)
    (hmem : .delivered number .lost ∈ pursuit.log) :
    number = count + 1 ∧ ((∃ begun, leg = .dropped begun) ∨
      leg = .done ∧ plan.breaks (count + 1) = true) := by
  rw [h.log, List.mem_append] at hmem
  -- the attempts before the present one have settled nothing
  have hseen := hmem.resolve_left (Plan.lost_not_mem_story h.within)
  have hover (hlost : .delivered number .lost ∈ plan.trial (count + 1)) :
      number = count + 1 ∧ plan.breaks (count + 1) = true := by
    simp only [Plan.trial, List.mem_cons, Event.delivered.injEq, reduceCtorEq,
      List.not_mem_nil, false_or, or_false] at hlost
    refine ⟨hlost.1, ?_⟩
    have hdelivery := hlost.2.symm
    cases hfate : plan.fate (count + 1) <;>
      simp [Plan.delivery, Plan.breaks, hfate] at hdelivery ⊢
  cases leg with
  | dropped begun =>
    refine ⟨?_, .inl ⟨begun, rfl⟩⟩
    cases begun <;> simpa [Leg.seen] using hseen
  | done =>
    obtain ⟨hnumber, hbreaks⟩ := hover hseen
    exact ⟨hnumber, .inr ⟨rfl, hbreaks⟩⟩
  | resting =>
    have hbreaks := (hover (by simpa [Leg.seen] using hseen)).2
    have hunsettled := plan.decisive_spec.2.2 (count + 1) (by omega) (h.more hcalled)
    simp [Plan.settles, hbreaks] at hunsettled
  | _ => simp [Leg.seen] at hseen

end Stands

/-- Nobody calls the run off, and nobody tells its scheduler to stop. -/
structure Uncancelled (schedule : Nat → Move) : Prop where
  cancel : ∀ n, schedule n ≠ .cancel
  halt : ∀ n, schedule n ≠ .halt

theorem Uncancelled.isCalled (h : Uncancelled schedule) (plan : Plan α ε) (name : String)
    (n : Nat) : (after plan name schedule n).isCalled = false := by
  rw [Pursuit.isCalled, Bool.or_eq_false_iff, ← Bool.not_eq_true, ← Bool.not_eq_true,
    calledOff_after, halted_after]
  constructor
  · rintro ⟨k, -, hmove⟩
    exact h.cancel k hmove
  · rintro ⟨k, -, hmove⟩
    exact h.halt k hmove

/-- An attempt that is lost ends its run, and no other attempt is handed over. -/
theorem ends_with_lost (h : Uncancelled schedule)
    (hlost : .delivered number .lost ∈ (after plan name schedule m).log) (hmn : m ≤ n) :
    (after plan name schedule n).submissions = (List.range' 1 number).map .submitted ∧
      ((after plan name schedule n).result? = none ∨
        (after plan name schedule n).result? = some (.error (.executor (.taskLost name)))) := by
  obtain ⟨count, leg, hstands⟩ := stands_after plan name schedule n
  have hcalled := h.isCalled plan name n
  obtain ⟨rfl, hleg⟩ := hstands.of_lost hcalled ((log_prefix_after hmn).subset hlost)
  -- the attempt that is lost is the present one, and the run can only be over with it
  have hsent : leg ≠ .unsent := by
    rintro rfl
    simp at hleg
  have hfits := hstands.fits
  rw [hcalled] at hfits
  refine ⟨by rw [hstands.submissions, hstands.handed, if_neg hsent], ?_⟩
  unfold result?
  have hname := name_after plan name schedule n
  generalize (after plan name schedule n).run = run at hfits ⊢
  cases hfits with
  | submitting | refused => exact absurd rfl hsent
  | attempting => exact .inl rfl
  | pausing => simp at hleg
  | lost => exact .inr (by rw [Worker.loss, hname]; rfl)
  | cut told => simp at told
  | concluded last =>
    rcases hleg with ⟨begun, hdropped⟩ | ⟨-, hbreaks⟩
    · simp at hdropped
    · right
      cases hfate : plan.fate (count + 1) <;>
        simp [Plan.conclusion, Plan.breaks, hfate, hname, Run.result?] at hbreaks ⊢

/-- How the attempts of a run are counted: a run that is about to hand an attempt over counts one
more than were handed over, and never more than may be made. -/
theorem counted (plan : Plan α ε) (name : String) (schedule : Nat → Move) (n : Nat) :
    match (after plan name schedule n).run with
    | .submitting attempt =>
      attempt.toNat = (after plan name schedule n).submissions.length + 1 ∧
        attempt.toNat ≤ max 1 plan.budget.toNat
    | .attempting attempt | .pausing attempt =>
      attempt.toNat = (after plan name schedule n).submissions.length ∧
        attempt.toNat ≤ max 1 plan.budget.toNat
    | .finished _ => True := by
  obtain ⟨count, leg, hstands⟩ := stands_after plan name schedule n
  have hwithin := hstands.within
  have hmost := plan.decisive_le
  have hlength : (after plan name schedule n).submissions.length =
      (after plan name schedule n).handed := by
    rw [hstands.submissions, List.length_map, List.length_range']
  unfold Plan.most at hmost
  rw [hlength, hstands.handed]
  have hfits := hstands.fits
  generalize (after plan name schedule n).run = run at hfits ⊢
  cases hfits with
  | submitting counted => exact ⟨by simpa using counted, by omega⟩
  | attempting sent unrested counted => exact ⟨by simpa [sent] using counted, by omega⟩
  | pausing counted more => exact ⟨by simpa using counted, by omega⟩
  | _ => trivial

/-- A run that nobody calls off follows its reference, in whatever order its steps come among those
of the scheduler, the worker and everyone else. It comes to the first value that is accepted, or
else to whatever the last attempt delivers that its budget allows, accepted or not; that is the
number of the attempts that it starts. As long as the worker is not told to stop, nothing is seen
but what the reference says, and a run that is over has come to what the reference comes to. A run
whose attempt breaks off, is dropped or is refused ends with that, and hands no other attempt over.
The attempts are counted without wrapping around. Where everyone does what is to be done, the run
comes to its end. -/
theorem follows_reference (plan : Plan α ε) (name : String) (schedule : Nat → Move)
    (uncancelled : Uncancelled schedule) :
    ((∀ k, 1 ≤ k → plan.accepted k = true →
        (∀ i, 1 ≤ i → i < k → plan.accepted i = false) →
        (∀ i, 1 ≤ i → i < min k (max 1 plan.budget.toNat) → plan.breaks i = false) →
        plan.decisive = min k (max 1 plan.budget.toNat)) ∧
      ((∀ i, 1 ≤ i → i < max 1 plan.budget.toNat → plan.settles i = false) →
        plan.decisive = max 1 plan.budget.toNat) ∧
      (∀ i, 1 ≤ i → i ≤ max 1 plan.budget.toNat → plan.breaks i = true →
        (∀ j, 1 ≤ j → j < i → plan.settles j = false) → plan.decisive = i) ∧
      plan.reference.filter Event.isStart = (List.range' 1 plan.decisive).map .started) ∧
    (∀ n, (∀ k, k < n → schedule k ≠ .stop) →
      (after plan name schedule n).log <+: plan.reference ∧
      ∀ result, (after plan name schedule n).result? = some result →
        (after plan name schedule n).log = plan.reference ∧
        result = plan.conclusion name plan.decisive) ∧
    (∀ number m n, .delivered number .lost ∈ (after plan name schedule m).log → m ≤ n →
      (after plan name schedule n).submissions = (List.range' 1 number).map .submitted ∧
      ((after plan name schedule n).result? = none ∨
        (after plan name schedule n).result? = some (.error (.executor (.taskLost name))))) ∧
    (∀ m n result, m ≤ n → (after plan name schedule m).result? = some result →
      (after plan name schedule n).result? = some result ∧
      (after plan name schedule n).submissions = (after plan name schedule m).submissions ∧
      result ≠ .error .cancelled ∧ Ends plan name schedule n result) ∧
    (∀ n, match (after plan name schedule n).run with
      | .submitting attempt =>
        attempt.toNat = (after plan name schedule n).submissions.length + 1 ∧
          attempt.toNat ≤ max 1 plan.budget.toNat
      | .attempting attempt | .pausing attempt =>
        attempt.toNat = (after plan name schedule n).submissions.length ∧
          attempt.toNat ≤ max 1 plan.budget.toNat
      | .finished _ => True) ∧
    (Attended plan name schedule → ∃ n,
      (after plan name schedule n).result? = some (plan.conclusion name plan.decisive) ∧
      (after plan name schedule n).log = plan.reference) := by
  -- nothing is dropped or refused while the worker runs, and nothing else cuts a run short
  have hkept (n : Nat) (running : ∀ k, k < n → schedule k ≠ .stop) :
      (after plan name schedule n).log <+: plan.reference ∧
      ∀ result, (after plan name schedule n).result? = some result →
        (after plan name schedule n).log = plan.reference ∧
        result = plan.conclusion name plan.decisive := by
    have hstop : (after plan name schedule n).worker.stopping = false := by
      rw [← Bool.not_eq_true, stopping_after]
      exact fun ⟨k, hk, hmove⟩ => running k hk hmove
    refine ⟨?_, fun result hresult => ?_⟩
    · obtain ⟨count, leg, hstands⟩ := stands_after plan name schedule n
      refine hstands.log_prefix (uncancelled.isCalled plan name n) fun begun hdropped => ?_
      have htold := hstands.told begun hdropped
      rw [hstop] at htold
      simp at htold
    · cases ends hresult with
      | concluded seen => exact ⟨seen, rfl⟩
      | refused _ _ told | dropped _ _ told =>
        obtain ⟨k, hk, hmove⟩ := told
        exact absurd hmove (running k hk)
      | cancelled told =>
        obtain ⟨k, -, hmove | hmove⟩ := told
        · exact absurd hmove (uncancelled.cancel k)
        · exact absurd hmove (uncancelled.halt k)
  refine ⟨⟨fun k hk => Plan.decisive_eq_min hk, Plan.decisive_eq_most,
    fun i hpos hle => Plan.decisive_eq_of_breaks hpos hle, plan.started_reference⟩, hkept,
    fun number m n hlost hmn => ends_with_lost uncancelled hlost hmn,
    fun m n result hmn hresult => ?_, counted plan name schedule, fun attended => ?_⟩
  · obtain ⟨hstays, hsame⟩ := after_of_over hresult hmn
    refine ⟨hstays, hsame, ?_, ends hstays⟩
    cases ends hstays with
    | concluded => exact plan.conclusion_ne_cancelled name plan.decisive
    | refused | dropped => simp
    | cancelled told =>
      obtain ⟨k, -, hmove | hmove⟩ := told
      · exact absurd hmove (uncancelled.cancel k)
      · exact absurd hmove (uncancelled.halt k)
  · obtain ⟨n, hover⟩ := attended.comes_to_end
    obtain ⟨result, hresult⟩ := Option.isSome_iff_exists.mp hover
    obtain ⟨hlog, rfl⟩ := (hkept n fun k _ => attended.unstopped k).2 result hresult
    exact ⟨n, hresult, hlog⟩

/-- Two attempts may be made. The first one fails, and the second one delivers a value that is not
accepted. -/
def twicePlan : Plan Nat String where
  budget := 2
  accepts _ := false
  delay := .ofMillis 5
  fate
    | 1 => .failure "down"
    | number => .value number

/-- Both attempts are made, and after that everyone does again and again what is to be done. -/
def twice (n : Nat) : Move :=
  let course : List Move :=
    [.turn, .proceed, .proceed, .proceed, .look, .pick, .finish, .settle 1, .turn, .proceed,
      .proceed, .elapse, .turn, .proceed, .proceed, .proceed, .proceed, .look, .pick, .finish,
      .settle 2, .turn, .proceed]
  course.getD n (chores.getD (n % 6) .look)

theorem twice_spare (n i : Nat) (hi : i < 6) : twice (6 * (n + 4) + i) = chores.getD i .look := by
  have hmod : (6 * (n + 4) + i) % 6 = i := by omega
  rw [twice, hmod]
  exact List.getD_eq_default _ _ (by simp; omega)

theorem twice_mem (n : Nat) :
    twice n ∈ [.turn, .proceed, .elapse, .look, .pick, .finish, .settle 1, .settle 2] := by
  by_cases hn : n < 24
  · revert n
    decide
  · have hspare := twice_spare (n / 6 - 4) (n % 6) (Nat.mod_lt n (by decide))
    have hsplit : 6 * (n / 6 - 4 + 4) + n % 6 = n := by omega
    rw [hsplit] at hspare
    have hlt : n % 6 < 6 := Nat.mod_lt n (by decide)
    rw [hspare]
    generalize n % 6 = i at hlt ⊢
    revert i
    decide

theorem twice_uncancelled : Uncancelled twice where
  cancel n hmove := by
    have hmem := twice_mem n
    simp [hmove] at hmem
  halt n hmove := by
    have hmem := twice_mem n
    simp [hmove] at hmem

/-- The task of a run that has come to something by itself is over. -/
theorem Stands.tasks_of_over {result : Except (RetryFailure ε) α}
    (h : Stands plan count leg pursuit) (hresult : pursuit.result? = some result)
    (hne : result ≠ .error .cancelled) : pursuit.worker.tasks = [] := by
  have hfits := h.fits
  have halive : leg ≠ .alive := by
    rintro rfl
    unfold result? at hresult
    generalize pursuit.run = run at hfits hresult
    cases hfits with
    | attempting => simp [Run.result?] at hresult
    | cut => exact hne (Option.some.inj hresult).symm
  rw [h.lies.tasks, if_neg halive]

theorem twice_attended : Attended twicePlan "shard" twice where
  uncancelled := twice_uncancelled.cancel
  unhalted := twice_uncancelled.halt
  unstopped n hmove := by
    have hmem := twice_mem n
    simp [hmove] at hmem
  comes move hmem n := by
    obtain ⟨i, hi, hmove⟩ : ∃ i, i < 6 ∧ chores.getD i .look = move := by
      revert move
      decide
    exact ⟨6 * (n + 4) + i, by omega, (twice_spare n i hi).trans hmove⟩
  settles n number hlives := by
    -- the run has come to its end, and no task is left
    have hover : (after twicePlan "shard" twice 23).result? = some (.ok 2) := rfl
    obtain ⟨count, leg, hstands⟩ := stands_after twicePlan "shard" twice (n + 23)
    have htasks := hstands.tasks_of_over (after_of_over hover (Nat.le_add_left 23 n)).1 (by simp)
    have hmem := hlives (n + 23) (Nat.le_add_right n 23)
    rw [htasks] at hmem
    simp at hmem

/-- The run makes both attempts, with one delay between them, and comes to the value that is not
accepted. -/
theorem twice_follows_reference :
    twicePlan.decisive = 2 ∧
    ∃ n, (after twicePlan "shard" twice n).result? = some (.ok 2) ∧
      (after twicePlan "shard" twice n).log =
        [.submitted 1, .started 1, .delivered 1 (.failure "down"), .rests (.ofMillis 5), .rested,
          .submitted 2, .started 2, .delivered 2 (.value 2)] := by
  obtain ⟨⟨-, hmost, -⟩, -, -, -, -, hends⟩ :=
    follows_reference twicePlan "shard" twice twice_uncancelled
  have hdecisive : twicePlan.decisive = 2 := hmost (by
    intro i hpos hlt
    obtain rfl : i = 1 := by
      have hbudget : max 1 twicePlan.budget.toNat = 2 := rfl
      omega
    rfl)
  obtain ⟨n, hresult, hlog⟩ := hends twice_attended
  rw [hdecisive] at hresult
  rw [Plan.reference, hdecisive] at hlog
  exact ⟨hdecisive, n, hresult, hlog⟩

end Tenure.Pursuit
