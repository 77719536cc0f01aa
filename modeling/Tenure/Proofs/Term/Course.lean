import Mathlib.Logic.Function.Basic
import Mathlib.Logic.Relation
import Tenure.Proofs.Term.Traffic
import Tenure.Scenario.Terms

/-!
# What runs undisturbed is traffic

An operation that runs to its end undisturbed takes its steps one after the other, and a closing
that is begun inside a release takes all of its own before the release returns. So the course of
an operation is one of the orders in which traffic can come, whatever its delegates do, and what
holds of all traffic holds of every register that was watched.

## Main definitions

* `Traffic.Leads` — some moves, one after the other
* `Traffic.Waits` — where the releases are that wait for something inside them to end
* `Traffic.Follows` — some moves carry out a course
* `TermWatch.Watch.thereafter` — a watch after a list of steps

## Main results

* `Traffic.course_follows` — the course of an operation is some moves
* `TermWatch.Watch.exists_schedule` — whatever was done to a watched register, a schedule does
-/

namespace Tenure

namespace Traffic

/-- Some moves, one after the other. -/
def Leads : Traffic → Traffic → Prop :=
  Relation.ReflTransGen fun traffic traffic' => ∃ move, traffic' = traffic.step move

/-- The releases that wait for something inside them to end are at these places. -/
def Waits (traffic : Traffic) : List Nat → List (Holding × Operation.Sequel) → Prop :=
  List.Forall₂ fun i release =>
    ∃ origin, traffic.runs[i]? = some ⟨origin, .releasing release.1 release.2⟩

variable {traffic traffic' : Traffic} {i : Nat} {origin operation : Operation}

/-- The operation at a place proceeds on the ledger, and no other one does. -/
theorem step_proceed (here : traffic.runs[i]? = some ⟨origin, operation⟩)
    (how : Operation.Return) :
    (traffic.step (.proceed i how)).toLedger = (operation.proceed traffic.toLedger how).2 ∧
      (traffic.step (.proceed i how)).runs[i]? =
        some ⟨origin, (operation.proceed traffic.toLedger how).1⟩ ∧
      ∀ j, j ≠ i → (traffic.step (.proceed i how)).runs[j]? = traffic.runs[j]? := by
  obtain ⟨hi, -⟩ := List.getElem?_eq_some_iff.mp here
  have hstep : traffic.step (.proceed i how) =
      { toLedger := (operation.proceed traffic.toLedger how).2
        runs := traffic.runs.set i
          ⟨origin, (operation.proceed traffic.toLedger how).1⟩ } := by
    simp only [step, here]
  rw [hstep]
  refine ⟨rfl, by simp [hi], fun j hj => ?_⟩
  exact List.getElem?_set_ne hj.symm

theorem Waits.of_same {places : List Nat} {waiting : List (Holding × Operation.Sequel)}
    (h : traffic.Waits places waiting)
    (same : ∀ j ∈ places, traffic'.runs[j]? = traffic.runs[j]?) :
    traffic'.Waits places waiting := by
  induction h with
  | nil => exact .nil
  | @cons j release places waiting here _ ih =>
    obtain ⟨origin, here⟩ := here
    refine .cons ⟨origin, ?_⟩ (ih fun k hk => same k (List.mem_cons_of_mem j hk))
    rw [same j List.mem_cons_self, here]

/-- A release that waits is there. -/
theorem Waits.lt {places : List Nat} {waiting : List (Holding × Operation.Sequel)}
    (h : traffic.Waits places waiting) : ∀ j ∈ places, j < traffic.runs.length := by
  induction h with
  | nil => simp
  | @cons j release places waiting here _ ih =>
    obtain ⟨origin, here⟩ := here
    intro k hk
    rcases List.mem_cons.mp hk with rfl | hk
    · exact (List.getElem?_eq_some_iff.mp here).1
    · exact ih k hk

theorem Waits.step_proceed {places : List Nat} {waiting : List (Holding × Operation.Sequel)}
    (h : traffic.Waits places waiting) (here : traffic.runs[i]? = some ⟨origin, operation⟩)
    (how : Operation.Return) (hi : i ∉ places) :
    (traffic.step (.proceed i how)).Waits places waiting :=
  h.of_same fun j hj => (Traffic.step_proceed here how).2.2 j fun heq => hi (heq ▸ hj)

/-- Some moves carry out a course, of which the operation at the last place is the outermost. -/
def Follows {σ : Type} (traffic : Traffic) (last : Nat)
    (course : Option Operation.Outcome × Ledger × σ) : Prop :=
  ∃ traffic', Leads traffic traffic' ∧ traffic'.toLedger = course.2.1 ∧
    ∀ outcome, course.1 = some outcome →
      (traffic'.runs[last]?).map (·.now) = some (.done outcome)

theorem Follows.of_step {σ : Type} {last : Nat} {course : Option Operation.Outcome × Ledger × σ}
    {move : Move} (h : (traffic.step move).Follows last course) : traffic.Follows last course := by
  obtain ⟨traffic', hleads, hcourse⟩ := h
  exact ⟨traffic', .head ⟨move, rfl⟩ hleads, hcourse⟩

/-- The course of an operation that is under way is some moves: its own, and those of the closings
that are begun inside its releases. -/
theorem run_follows {σ : Type} (around : Surroundings σ) (ledger : Ledger) (state : σ)
    (operation : Operation) (waiting : List (Holding × Operation.Sequel)) :
    ∀ (traffic : Traffic) (i : Nat) (places : List Nat) (origin : Operation),
      traffic.toLedger = ledger → traffic.runs[i]? = some ⟨origin, operation⟩ →
      traffic.Waits places waiting → (i :: places).Nodup →
      traffic.Follows ((i :: places).getLast (by simp))
        (Operation.run around ledger state operation waiting) := by
  fun_induction Operation.run around ledger state operation waiting with
  | case1 ledger state operation outcome finished =>
    -- nothing waits, so the outermost operation is over
    intro traffic i places origin hledger here hwaits hnodup
    cases hwaits
    refine ⟨traffic, .refl, hledger, fun other ho => ?_⟩
    obtain rfl : outcome = other := Option.some.inj ho
    cases operation <;> simp_all [Operation.standing]
  | case2 ledger state operation outcome finished holding sequel waiting back ih =>
    -- the closing inside is over, and the release that it was begun in returns
    intro traffic i places origin hledger here hwaits hnodup
    cases hwaits with
    | @cons j _ places _ hj hwaits =>
      obtain ⟨outer, hj⟩ := hj
      have hinner : traffic.Waits places waiting := hwaits
      have hplaces : (j :: places).Nodup := hnodup.of_cons
      obtain ⟨hafter, hthere, -⟩ := step_proceed hj .clean
      rw [hledger] at hafter hthere
      have hrest := ih (traffic.step (.proceed j .clean)) j places outer hafter hthere
        (hinner.step_proceed hj .clean (List.nodup_cons.mp hplaces).1) hplaces
      exact hrest.of_step
  | case3 ledger state operation waiting holding sequel waits state' released back ih =>
    -- the delegate returns, and the operation goes on in its place
    intro traffic i places origin hledger here hwaits hnodup
    obtain ⟨hafter, hthere, -⟩ := step_proceed here .clean
    rw [hledger] at hafter hthere
    exact (ih (traffic.step (.proceed i .clean)) i places origin hafter hthere
      (hwaits.step_proceed here .clean (List.nodup_cons.mp hnodup).1) hnodup).of_step
  | case4 ledger state operation waiting holding sequel waits failure state' released back ih =>
    intro traffic i places origin hledger here hwaits hnodup
    obtain ⟨hafter, hthere, -⟩ := step_proceed here (.failed failure)
    rw [hledger] at hafter hthere
    exact (ih (traffic.step (.proceed i (.failed failure))) i places origin hafter hthere
      (hwaits.step_proceed here (.failed failure) (List.nodup_cons.mp hnodup).1) hnodup).of_step
  | case5 ledger state operation waiting holding sequel waits state' released inside ih =>
    -- a closing joins and takes its first step, while the release that it is begun in waits
    intro traffic i places origin hledger here hwaits hnodup
    obtain rfl : operation = .releasing holding sequel := by
      cases operation <;> simp_all [Operation.standing]
    have hlt : ∀ j ∈ i :: places, j < traffic.runs.length := by
      intro j hj
      rcases List.mem_cons.mp hj with rfl | hj
      · exact (List.getElem?_eq_some_iff.mp here).1
      · exact hwaits.lt j hj
    have hnew : traffic.runs.length ∉ i :: places := fun hm => Nat.lt_irrefl _ (hlt _ hm)
    have hsame : ∀ j ∈ i :: places,
        (traffic.step .close).runs[j]? = traffic.runs[j]? := by
      intro j hj
      exact List.getElem?_append_left (hlt j hj)
    have hshut : (traffic.step .close).runs[traffic.runs.length]? =
        some ⟨.shut, .shut⟩ := by
      simp [step, begin]
    have hbefore : (traffic.step .close).Waits (i :: places) ((holding, sequel) :: waiting) :=
      .cons ⟨origin, (hsame i List.mem_cons_self).trans here⟩
        (hwaits.of_same fun j hj => hsame j (List.mem_cons_of_mem i hj))
    obtain ⟨hafter, hthere, -⟩ := step_proceed hshut .clean
    have hledger' : (traffic.step .close).toLedger = ledger := hledger
    rw [hledger'] at hafter hthere
    have hrest := ih ((traffic.step .close).step (.proceed traffic.runs.length .clean))
      traffic.runs.length (i :: places) .shut hafter hthere
      (hbefore.step_proceed hshut .clean hnew) (List.nodup_cons.mpr ⟨hnew, hnodup⟩)
    rw [List.getLast_cons (by simp)] at hrest
    exact hrest.of_step.of_step
  | case6 ledger state operation waiting holding sequel waits state' released =>
    -- the delegate breaks off: there is no further move, and no outcome
    intro traffic i places origin hledger here hwaits hnodup
    exact ⟨traffic, .refl, hledger, by simp⟩
  | case7 ledger state operation waiting moves next ih =>
    intro traffic i places origin hledger here hwaits hnodup
    obtain ⟨hafter, hthere, -⟩ := step_proceed here .clean
    rw [hledger] at hafter hthere
    exact (ih (traffic.step (.proceed i .clean)) i places origin hafter hthere
      (hwaits.step_proceed here .clean (List.nodup_cons.mp hnodup).1) hnodup).of_step

/-- The course of an operation that has just been begun is some moves. -/
theorem course_follows {σ : Type} (around : Surroundings σ) (state : σ) (traffic : Traffic)
    (operation : Operation) : (traffic.begin operation).Follows traffic.runs.length
      (operation.course around traffic.toLedger state) := by
  have here : (traffic.begin operation).runs[traffic.runs.length]? =
      some ⟨operation, operation⟩ := by
    simp [begin]
  exact run_follows around traffic.toLedger state operation [] (traffic.begin operation)
    traffic.runs.length [] operation rfl here .nil (by simp)

/-! ### Moves and schedules -/

/-- What a schedule has led to depends on the moves so far. -/
theorem after_congr {schedule schedule' : Nat → Move} {n : Nat}
    (same : ∀ k, k < n → schedule k = schedule' k) : after schedule n = after schedule' n := by
  induction n with
  | zero => rfl
  | succ n ih =>
    rw [after, after, ih fun k hk => same k (Nat.lt_succ_of_lt hk), same n (Nat.lt_succ_self n)]

/-- Moves, one after the other, are the beginning of a schedule. -/
theorem Leads.exists_schedule (h : Leads {} traffic) :
    ∃ schedule n, after schedule n = traffic := by
  induction h with
  | refl => exact ⟨fun _ => .close, 0, rfl⟩
  | @tail before next _ move ih =>
    obtain ⟨schedule, n, hbefore⟩ := ih
    obtain ⟨move, rfl⟩ := move
    refine ⟨Function.update schedule n move, n + 1, ?_⟩
    have hsame : after (Function.update schedule n move) n = after schedule n :=
      after_congr fun k hk => Function.update_of_ne (Nat.ne_of_lt hk) move schedule
    rw [after, hsame, hbefore, Function.update_self]

end Traffic

/-! ### Watched registers -/

namespace TermWatch.Watch

variable {ι : Type} {traffic : Traffic} {watch : Watch ι}

theorem carryOut_leads (h : traffic.toLedger = watch.toLedger) (operation : Operation) :
    ∃ traffic', Traffic.Leads (traffic.begin operation) traffic' ∧
      traffic'.toLedger = (watch.carryOut operation).2.toLedger := by
  obtain ⟨traffic', hleads, hledger, -⟩ :=
    Traffic.course_follows surroundings watch traffic operation
  rw [h] at hledger
  exact ⟨traffic', hleads, hledger⟩

/-- A watch to which one more delegate was brought under a token. -/
def bring (watch : Watch ι) (name : ι) (conduct : Conduct) (token : Token) (mint : Mint) :
    Watch ι :=
  { watch with
    mint
    deliveries := watch.deliveries ++ [⟨name, conduct, token⟩]
    brought := watch.brought + 1 }

variable [BEq ι]

/-- A watch after steps that were carried out in order. -/
def thereafter (watch : Watch ι) (steps : List (Step ι)) : Watch ι :=
  steps.foldl (fun watch step => (watch.step step).2) watch

/-- The token that a publication is made under, struck for it or taken again, and the mint then. -/
def struck (watch : Watch ι) (number : Nat) (source : Option ι) : Token × Mint :=
  match source.bind watch.tokenOf? with
  | some token => (token, watch.mint)
  | none => watch.mint.strike number

/-- What a publication answers, and what is kept of it under its name. -/
def record (name : ι) : Option Operation.Outcome × Watch ι → Reply × Watch ι
  | (some (.published (some term)), watch) =>
    (.term term.generation term.token.term,
      { watch with published := (name, term) :: watch.published })
  | (_, watch) => (.nothing, watch)

/-- Publishing brings the delegate under its token, publishes it, and records what came of it. -/
theorem publish_eq (watch : Watch ι) (name : ι) (number : Nat) (source : Option ι)
    (conduct : Conduct) : watch.publish name number source conduct =
      record name ((watch.bring name conduct (watch.struck number source).1
        (watch.struck number source).2).carryOut
          (.publish ⟨(watch.struck number source).1, watch.brought + 1⟩)) := by
  cases h : source.bind watch.tokenOf? <;> simp only [publish, struck, bring, h] <;> rfl

omit [BEq ι] in
theorem record_toLedger (name : ι) (course : Option Operation.Outcome × Watch ι) :
    (record name course).2.toLedger = course.2.toLedger := by
  unfold record
  split <;> rfl

theorem publish_leads (h : traffic.toLedger = watch.toLedger) (name : ι) (number : Nat)
    (source : Option ι) (conduct : Conduct) :
    ∃ traffic', Traffic.Leads traffic traffic' ∧
      traffic'.toLedger = (watch.publish name number source conduct).2.toLedger := by
  rw [publish_eq, record_toLedger]
  obtain ⟨token, mint⟩ := watch.struck number source
  have hbring : { traffic with brought := traffic.brought + 1 }.toLedger =
      (watch.bring name conduct token mint).toLedger := by
    simp [bring, h]
  obtain ⟨traffic', hleads, hledger⟩ := carryOut_leads hbring (.publish ⟨token, watch.brought + 1⟩)
  have hbrought : watch.brought = traffic.brought := congrArg Ledger.brought h.symm
  rw [hbrought] at hleads
  exact ⟨traffic', .head ⟨.publish token, rfl⟩ hleads, hledger⟩

/-- What is done to a watched register is some moves of the traffic on it. -/
theorem step_leads (h : traffic.toLedger = watch.toLedger) (step : Step ι) :
    ∃ traffic', Traffic.Leads traffic traffic' ∧
      traffic'.toLedger = (watch.step step).2.toLedger := by
  -- looking at a register does nothing to it
  have hidle : ∃ traffic', Traffic.Leads traffic traffic' ∧
      traffic'.toLedger = watch.toLedger := ⟨traffic, .refl, h⟩
  cases step with
  | publish name number source conduct => exact publish_leads h name number source conduct
  | isCurrent name =>
    simp only [Watch.step]
    split <;> exact hidle
  | invalidate name =>
    simp only [Watch.step]
    split
    · rename_i term _
      obtain ⟨traffic', hleads, hledger⟩ := carryOut_leads h (.invalidate term)
      refine ⟨traffic', .head ⟨.invalidate term, rfl⟩ hleads, ?_⟩
      split <;> simp_all
    · exact hidle
  | close =>
    obtain ⟨traffic', hleads, hledger⟩ := carryOut_leads h .shut
    refine ⟨traffic', .head ⟨.close, rfl⟩ hleads, ?_⟩
    simp only [Watch.step]
    split <;> simp_all
  | isClosed => exact hidle
  | tokenIs name => exact hidle

/-- Whatever was done to a watched register, there is a schedule that does it. -/
theorem exists_schedule (steps : List (Step ι)) : ∃ schedule n,
    (Traffic.after schedule n).toLedger = (thereafter {} steps).toLedger := by
  have hleads : ∀ (traffic : Traffic) (watch : Watch ι), traffic.toLedger = watch.toLedger →
      ∃ traffic', Traffic.Leads traffic traffic' ∧
        traffic'.toLedger = (watch.thereafter steps).toLedger := by
    induction steps with
    | nil => exact fun traffic watch h => ⟨traffic, .refl, h⟩
    | cons step steps ih =>
      intro traffic watch h
      obtain ⟨between, hfirst, hbetween⟩ := step_leads h step
      obtain ⟨traffic', hrest, hledger⟩ := ih between _ hbetween
      exact ⟨traffic', hfirst.trans hrest, hledger⟩
  obtain ⟨traffic, hled, hledger⟩ := hleads {} {} rfl
  obtain ⟨schedule, n, rfl⟩ := hled.exists_schedule
  exact ⟨schedule, n, hledger⟩

/-- However a watched register is used, no delegate is released twice. -/
theorem released_le_one (steps : List (Step ι)) (delegate : Nat) :
    (thereafter {} steps).released.count delegate ≤ 1 := by
  obtain ⟨schedule, n, hledger⟩ := exists_schedule steps
  have hreleased : (Traffic.after schedule n).released = (thereafter {} steps).released :=
    congrArg Ledger.released hledger
  rw [← hreleased]
  exact (Traffic.sound_after schedule n).shared.balanced.released_le_one delegate

end TermWatch.Watch

end Tenure
