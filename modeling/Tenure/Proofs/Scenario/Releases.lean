import Tenure.Proofs.Term.Course
import Tenure.Proofs.Term.Reentry

/-!
# Releases on a watched register

Publications, endings and closings one after another on one register, with delegates that return
from their release cleanly or with a failure, or that close the register from inside it. After each
of them every delegate that was ever brought is in service or was released once. What a publication
answers is what is served then, and it answers a term exactly if the register is open.

A failure of a delegate is reported and forgotten: a register whose delegates do not fail answers
the same, and is left the same, but for what is reported of the failures.

## Main definitions

* `TermWatch.Step.comesBack` — no delegate breaks off
* `TermWatch.Watch.Settled` — where delegates are between two steps
* `TermWatch.Watch.complaint?` — what is reported of a delegate
* `TermWatch.Watch.hushed` — a watch without the failures of its delegates

## Main results

* `TermWatch.Watch.Settled.step` — a step leaves everything settled
* `TermWatch.Watch.step_hushed` — failures change nothing else
* `TermWatch.Watch.released_by_the_end` — what holds after any steps
-/

namespace Tenure

/-! ### Failures of delegates change nothing else -/

/-- The conduct of a delegate without its failure. -/
def Conduct.hushed : Conduct → Conduct
  | failing _ => clean
  | conduct => conduct

/-- A ledger without the failures of delegates. -/
def Ledger.hushed (ledger : Ledger) : Ledger :=
  { ledger with notices := ledger.notices.filter fun notice => !notice.isComplaint }

@[simp] theorem Ledger.hushed_register (ledger : Ledger) :
    ledger.hushed.register = ledger.register := rfl

namespace Operation

/-- No step reports a failure of a delegate. -/
theorem step_notices (register : Register) (operation : Operation) :
    ((step register operation).2.2.filter fun notice => !notice.isComplaint) =
      (step register operation).2.2 := by
  cases operation with
  | put term => cases h : register.current <;> simp [step, Register.put, h, Notice.isComplaint]
  | publish holding => cases h : register.closed <;> simp [step, h]
  | recheck term => cases h : register.closed <;> simp [step, h]
  | _ => rfl

/-- What happens to an operation next does not depend on how a delegate returns. -/
theorem proceed_hushed (ledger : Ledger) (how : Return) (operation : Operation) :
    operation.proceed ledger.hushed .clean =
      ((operation.proceed ledger how).1, (operation.proceed ledger how).2.hushed) := by
  cases h : operation.standing with
  | finished outcome => simp [proceed, h]
  | waits holding sequel =>
    obtain rfl : operation = .releasing holding sequel := by cases operation <;> simp_all [standing]
    cases how <;> simp [proceed, standing, returned, Ledger.note, Ledger.hushed, Notice.isComplaint]
  | moves => simp [proceed, h, Ledger.hushed, step_notices]

variable {σ : Type} {around : Surroundings σ} {hush : σ → σ}

/-- A run among delegates that do not fail is a run among delegates that do. -/
theorem run_hushed (released : ∀ holding state, around.release holding (hush state) =
      ((around.release holding state).1.hushed, hush (around.release holding state).2))
    (closed : ∀ state, around.closedInside (hush state) = hush (around.closedInside state))
    (ledger : Ledger) (state : σ) (operation : Operation) (waiting : List (Holding × Sequel)) :
    operation.run around ledger.hushed (hush state) waiting =
      ((operation.run around ledger state waiting).1,
        (operation.run around ledger state waiting).2.1.hushed,
        hush (operation.run around ledger state waiting).2.2) := by
  fun_induction Operation.run around ledger state operation waiting with
  | case1 ledger state operation outcome finished =>
    rw [run]
    split <;> simp_all
  | case2 ledger state operation outcome finished holding sequel waiting back ih =>
    have hback := proceed_hushed ledger .clean (.releasing holding sequel)
    rw [run]
    split <;> simp_all [back]
  | case3 ledger state operation waiting holding sequel waits state' hreleased back ih =>
    have hback := proceed_hushed ledger .clean operation
    rw [run]
    split <;> simp_all [back, Conduct.hushed]
  | case4 ledger state operation waiting holding sequel waits failure state' hreleased back ih =>
    have hback := proceed_hushed ledger (.failed failure) operation
    rw [run]
    split <;> simp_all [back, Conduct.hushed]
  | case5 ledger state operation waiting holding sequel waits state' hreleased inside ih =>
    have hinside := proceed_hushed ledger .clean .shut
    rw [run]
    split <;> simp_all [inside, Conduct.hushed]
  | case6 ledger state operation waiting holding sequel waits state' hreleased =>
    rw [run]
    split <;> simp_all [Conduct.hushed]
  | case7 ledger state operation waiting moves next ih =>
    have hnext := proceed_hushed ledger .clean operation
    rw [run]
    split <;> simp_all [next]

end Operation

namespace TermWatch

variable {ι : Type}

/-- A step without the failure of its delegate. -/
def Step.hushed : Step ι → Step ι
  | publish name term tokenOf conduct => publish name term tokenOf conduct.hushed
  | step => step

/-- Whether the delegate that a step brings, if it brings one, comes back from its release. -/
def Step.comesBack : Step ι → Bool
  | publish _ _ _ conduct => conduct.comesBack
  | _ => true

/-- A delivery without the failure of its delegate. -/
def Delivery.hushed (delivery : Delivery ι) : Delivery ι :=
  { delivery with conduct := delivery.conduct.hushed }

namespace Watch

/-- A watch without the failures of its delegates. -/
def hushed (watch : Watch ι) : Watch ι :=
  { watch with
    toLedger := watch.toLedger.hushed
    deliveries := watch.deliveries.map Delivery.hushed }

/-- What a delegate does when it is released. -/
def conductOf (watch : Watch ι) (holding : Holding) : Conduct :=
  ((watch.delivery? holding.delegate).map (·.conduct)).getD .clean

/-- What is reported of a delegate when it is released. -/
def complaint? (watch : Watch ι) (delegate : Nat) : Option Notice :=
  (watch.delivery? delegate).bind fun delivery => delivery.conduct.complaint? delivery.token.term

theorem conductOf_hushed (watch : Watch ι) (holding : Holding) :
    watch.hushed.conductOf holding = (watch.conductOf holding).hushed := by
  simp only [conductOf, delivery?, hushed, List.getElem?_map]
  cases watch.deliveries[holding.delegate - 1]? <;> rfl

theorem carryOut_hushed (watch : Watch ι) (operation : Operation) :
    watch.hushed.carryOut operation =
      ((watch.carryOut operation).1, (watch.carryOut operation).2.hushed) := by
  have hreleased (holding : Holding) (watch : Watch ι) :
      surroundings.release holding watch.hushed =
        ((surroundings.release holding watch).1.hushed,
          (surroundings.release holding watch).2.hushed) := by
    exact Prod.ext (conductOf_hushed watch holding) rfl
  have hrun := Operation.run_hushed hreleased (fun _ => rfl) watch.toLedger watch operation []
  have hledger : watch.hushed.toLedger = watch.toLedger.hushed := rfl
  simp only [carryOut, Operation.course, hledger, hrun]
  rfl

theorem bring_hushed (watch : Watch ι) (name : ι) (conduct : Conduct) (token : Token)
    (mint : Mint) : watch.hushed.bring name conduct.hushed token mint =
      (watch.bring name conduct token mint).hushed := by
  simp [bring, hushed, Delivery.hushed, Ledger.hushed]

theorem record_hushed (name : ι) (course : Option Operation.Outcome × Watch ι) :
    record name (course.1, course.2.hushed) =
      ((record name course).1, (record name course).2.hushed) := by
  obtain ⟨outcome, watch⟩ := course
  match outcome with
  | some (.published (some term)) => rfl
  | some (.published none) | some (.ended _) | some (.closed _) | none => rfl

variable [BEq ι]

theorem tokenOf?_hushed (watch : Watch ι) (name : ι) :
    watch.hushed.tokenOf? name = watch.tokenOf? name := by
  simp only [tokenOf?, hushed, ← List.map_reverse, List.find?_map, Option.map_map]
  rfl

theorem struck_hushed (watch : Watch ι) (number : Nat) (source : Option ι) :
    watch.hushed.struck number source = watch.struck number source := by
  simp only [struck, funext (tokenOf?_hushed watch)]
  rfl

/-- Failures of delegates change no answer, and of what is left only what is reported. -/
theorem step_hushed (watch : Watch ι) (step : Step ι) :
    watch.hushed.step step.hushed = ((watch.step step).1, (watch.step step).2.hushed) := by
  cases step with
  | publish name number source conduct =>
    simp only [Watch.step, Step.hushed, publish_eq, struck_hushed, bring_hushed]
    rw [carryOut_hushed]
    exact record_hushed name _
  | isCurrent name =>
    simp only [Watch.step, Step.hushed]
    rw [show watch.hushed.termOf? name = watch.termOf? name from rfl]
    cases watch.termOf? name <;> rfl
  | invalidate name =>
    simp only [Watch.step, Step.hushed, carryOut_hushed]
    rw [show watch.hushed.termOf? name = watch.termOf? name from rfl]
    cases watch.termOf? name with
    | none => rfl
    | some term =>
      dsimp only
      generalize watch.carryOut (.invalidate term) = course
      obtain ⟨outcome, watch⟩ := course
      cases outcome with
      | none => rfl
      | some outcome => cases outcome <;> rfl
  | close =>
    simp only [Watch.step, Step.hushed, carryOut_hushed]
    generalize watch.carryOut .shut = course
    obtain ⟨outcome, watch⟩ := course
    cases outcome with
    | none => rfl
    | some outcome => cases outcome <;> rfl
  | isClosed => rfl
  | tokenIs name =>
    simp only [Watch.step, Step.hushed, tokenOf?_hushed]
    rfl

theorem thereafter_hushed (watch : Watch ι) (steps : List (Step ι)) :
    watch.hushed.thereafter (steps.map Step.hushed) = (watch.thereafter steps).hushed := by
  induction steps generalizing watch with
  | nil => rfl
  | cons step steps ih =>
    have hnext : (watch.hushed.step step.hushed).2 = (watch.step step).2.hushed := by
      rw [step_hushed]
    simp only [thereafter, List.map_cons, List.foldl_cons, hnext]
    exact ih (watch.step step).2

/-! ### Where delegates are between two steps -/

omit [BEq ι]

/-- A delegate behaves as it was announced when it was brought. -/
def Behaves (watch : Watch ι) (holding : Holding) (conduct : Conduct) : Prop :=
  conduct = watch.conductOf holding

/-- Every delegate that was brought is in service or was released, a closed register serves nothing,
and what was reported is what the released delegates gave reason for. -/
structure Settled (watch : Watch ι) : Prop where
  brought : watch.deliveries.length = watch.brought
  comeBack : ∀ delivery ∈ watch.deliveries, delivery.conduct.comesBack = true
  placed : ∀ delegate, (watch.register.lends delegate).toNat + watch.released.count delegate =
    if 1 ≤ delegate ∧ delegate ≤ watch.brought then 1 else 0
  vacant : watch.register.closed = true → watch.register.current = none
  served : ∀ term, watch.register.current = some term →
    Operation.Unfolds.Reported watch.Behaves watch.complaint? term.toHolding
  told : watch.notices.filter Notice.isComplaint = watch.released.filterMap watch.complaint?

theorem settled_empty : ({} : Watch ι).Settled where
  brought := rfl
  comeBack := by simp
  placed delegate := by
    rw [if_neg (by simp only; omega)]
    rfl
  vacant _ := rfl
  served := by simp
  told := rfl

variable {watch : Watch ι} {operation : Operation}

theorem comesBack_conductOf
    (comeBack : ∀ delivery ∈ watch.deliveries, delivery.conduct.comesBack = true)
    (holding : Holding) : (watch.conductOf holding).comesBack = true := by
  unfold conductOf delivery?
  cases h : watch.deliveries[holding.delegate - 1]? with
  | none => rfl
  | some delivery => exact comeBack delivery (List.mem_of_getElem? h)

/-- Among delegates that come back an operation runs to its end. -/
theorem carryOut_unfolds
    (comeBack : ∀ delivery ∈ watch.deliveries, delivery.conduct.comesBack = true)
    (operation : Operation) : ∃ outcome ledger,
      watch.carryOut operation = (some outcome, { watch with toLedger := ledger }) ∧
        operation.Unfolds watch.Behaves watch.toLedger outcome ledger := by
  obtain ⟨outcome, ledger, state, hcourse, hunfolds, rfl⟩ :=
    @Operation.course_unfolds watch.Behaves (Watch ι) surroundings (· = watch)
      (by rintro holding _ rfl; exact ⟨rfl, rfl⟩) (fun _ h => h)
      (by rintro holding _ rfl; exact comesBack_conductOf comeBack holding)
      watch.toLedger watch operation rfl
  refine ⟨outcome, ledger, ?_, hunfolds⟩
  simp only [carryOut, hcourse]

/-- An operation that begins with every delegate in its place ends so. -/
theorem settled_of_unfolds {outcome : Operation.Outcome} {ledger : Ledger}
    (hunfolds : operation.Unfolds watch.Behaves watch.toLedger outcome ledger)
    (brought : watch.deliveries.length = watch.brought)
    (comeBack : ∀ delivery ∈ watch.deliveries, delivery.conduct.comesBack = true)
    (placed : ∀ delegate, operation.custody delegate watch.toLedger =
      if 1 ≤ delegate ∧ delegate ≤ watch.brought then 1 else 0)
    (vacant : watch.register.closed = true → watch.register.current = none)
    (hand : ∀ holding, operation.holding? = some holding →
      Operation.Unfolds.Reported watch.Behaves watch.complaint? holding)
    (served : ∀ term, watch.register.current = some term →
      Operation.Unfolds.Reported watch.Behaves watch.complaint? term.toHolding)
    (told : watch.notices.filter Notice.isComplaint ++ operation.pending watch.complaint? =
      watch.released.filterMap watch.complaint?) :
    { watch with toLedger := ledger }.Settled := by
  obtain ⟨htold, hserved⟩ := hunfolds.complaints hand served told
  refine ⟨brought.trans hunfolds.brought.symm, comeBack, fun delegate => ?_, ?_, hserved, htold⟩
  · rw [hunfolds.custody, placed, hunfolds.brought]
  · apply hunfolds.vacant
    intro hclosed hsome
    rw [vacant hclosed] at hsome
    simp at hsome

namespace Settled

theorem mem_released (h : watch.Settled) {delegate : Nat} (hd : delegate ∈ watch.released) :
    1 ≤ delegate ∧ delegate ≤ watch.brought := by
  have hplaced := h.placed delegate
  have hcount := List.count_pos_iff.mpr hd
  by_contra hrange
  rw [if_neg hrange] at hplaced
  omega

theorem mem_served (h : watch.Settled) {term : Term} (hs : watch.register.current = some term) :
    1 ≤ term.delegate ∧ term.delegate ≤ watch.brought := by
  have hplaced := h.placed term.delegate
  by_contra hrange
  rw [if_neg hrange] at hplaced
  simp [Register.lends, hs] at hplaced

/-- Endings and closings, which bring no delegate of their own, leave everything settled. -/
theorem carryOut (h : watch.Settled) (operation : Operation) (hand : operation.holding? = none)
    (carries : ∀ delegate, operation.carries delegate = false) :
    ∃ outcome ledger, watch.carryOut operation = (some outcome, { watch with toLedger := ledger }) ∧
      operation.Unfolds watch.Behaves watch.toLedger outcome ledger ∧
      { watch with toLedger := ledger }.Settled := by
  obtain ⟨outcome, ledger, hcarryOut, hunfolds⟩ := carryOut_unfolds h.comeBack operation
  have howes (delegate : Nat) : operation.owes delegate = false := by
    cases operation <;> simp_all [Operation.holding?, Operation.owes]
  have hpending : operation.pending watch.complaint? = [] := by
    cases operation <;> simp_all [Operation.holding?, Operation.pending]
  refine ⟨outcome, ledger, hcarryOut, hunfolds, settled_of_unfolds hunfolds h.brought h.comeBack
    (fun delegate => ?_) h.vacant (by simp [hand]) h.served (by rw [hpending, h.told]; simp)⟩
  rw [← h.placed]
  simp [Operation.custody, carries, howes]

variable (name : ι) (conduct : Conduct) (token : Token) (mint : Mint)

theorem delivery?_bring (h : watch.Settled) {delegate : Nat}
    (hd : 1 ≤ delegate ∧ delegate ≤ watch.brought) :
    (watch.bring name conduct token mint).delivery? delegate = watch.delivery? delegate := by
  have hlt : delegate - 1 < watch.deliveries.length := by
    rw [h.brought]
    omega
  exact List.getElem?_append_left hlt

theorem delivery?_brought (h : watch.Settled) :
    (watch.bring name conduct token mint).delivery? (watch.brought + 1) =
      some ⟨name, conduct, token⟩ := by
  simp [delivery?, bring, ← h.brought]

/-- What is to be said of a delegate does not change when another one is brought. -/
theorem reported_bring (h : watch.Settled) {holding : Holding}
    (hd : 1 ≤ holding.delegate ∧ holding.delegate ≤ watch.brought)
    (hr : Operation.Unfolds.Reported watch.Behaves watch.complaint? holding) :
    Operation.Unfolds.Reported (watch.bring name conduct token mint).Behaves
      (watch.bring name conduct token mint).complaint? holding := by
  have hdelivery := h.delivery?_bring name conduct token mint hd
  rintro _ rfl
  have hbefore := hr _ rfl
  simp only [conductOf, complaint?, hdelivery] at hbefore ⊢
  exact hbefore

/-- What is to be said of a delegate that has just been brought. -/
theorem reported_brought (h : watch.Settled) :
    Operation.Unfolds.Reported (watch.bring name conduct token mint).Behaves
      (watch.bring name conduct token mint).complaint? ⟨token, watch.brought + 1⟩ := by
  have hdelivery := h.delivery?_brought name conduct token mint
  rintro _ rfl
  simp [conductOf, complaint?, hdelivery]

/-- The publication of a delegate that has just been brought leaves everything settled. -/
theorem publish (h : watch.Settled) (comesBack : conduct.comesBack = true) :
    ∃ outcome ledger, (watch.bring name conduct token mint).carryOut
        (.publish ⟨token, watch.brought + 1⟩) =
          (some outcome, { watch.bring name conduct token mint with toLedger := ledger }) ∧
      (Operation.publish ⟨token, watch.brought + 1⟩).Unfolds
        (watch.bring name conduct token mint).Behaves
        (watch.bring name conduct token mint).toLedger outcome ledger ∧
      { watch.bring name conduct token mint with toLedger := ledger }.Settled := by
  have hcomeBack : ∀ delivery ∈ (watch.bring name conduct token mint).deliveries,
      delivery.conduct.comesBack = true := by
    intro delivery hdelivery
    rcases List.mem_append.mp hdelivery with hold | hnew
    · exact h.comeBack delivery hold
    · rw [List.mem_singleton.mp hnew]
      exact comesBack
  obtain ⟨outcome, ledger, hcarryOut, hunfolds⟩ :=
    carryOut_unfolds hcomeBack (.publish ⟨token, watch.brought + 1⟩)
  refine ⟨outcome, ledger, hcarryOut, hunfolds, settled_of_unfolds hunfolds
    (by simp [bring, h.brought]) hcomeBack (fun delegate => ?_) h.vacant ?_ ?_ ?_⟩
  · have hplaced := h.placed delegate
    have hcustody : (Operation.publish ⟨token, watch.brought + 1⟩).custody delegate
        (watch.bring name conduct token mint).toLedger =
        (watch.brought + 1 == delegate).toNat +
          ((watch.register.lends delegate).toNat + watch.released.count delegate) := by
      simp only [Operation.custody, Operation.carries, Operation.owes, bring, Bool.toNat_false]
      omega
    have hbrought : (watch.bring name conduct token mint).brought = watch.brought + 1 := rfl
    rw [hcustody, hplaced, hbrought]
    by_cases hnew : watch.brought + 1 = delegate
    · rw [if_neg (by omega), if_pos (by omega)]
      simp [hnew]
    · have hrange : (1 ≤ delegate ∧ delegate ≤ watch.brought + 1) ↔
          (1 ≤ delegate ∧ delegate ≤ watch.brought) := by omega
      simp [hnew, hrange]
  · intro holding hhand
    obtain rfl := Option.some.inj hhand
    exact h.reported_brought name conduct token mint
  · intro term hserved
    exact h.reported_bring name conduct token mint (h.mem_served hserved) (h.served term hserved)
  · simp only [Operation.pending, List.append_nil]
    refine h.told.trans (List.filterMap_congr fun delegate hd => ?_)
    simp only [complaint?]
    rw [h.delivery?_bring name conduct token mint (h.mem_released hd)]

theorem record (h : watch.Settled) (name : ι) (outcome : Option Operation.Outcome) :
    (Watch.record name (outcome, watch)).2.Settled := by
  match outcome with
  | some (.published (some term)) => exact { h with }
  | some (.published none) | some (.ended _) | some (.closed _) | none => exact h

theorem released_count (h : watch.Settled) (delegate : Nat) : watch.released.count delegate =
    if 1 ≤ delegate ∧ delegate ≤ watch.brought ∧ watch.register.lends delegate = false then 1
    else 0 := by
  have hplaced := h.placed delegate
  cases hlends : watch.register.lends delegate with
  | false => simpa [hlends] using hplaced
  | true =>
    rw [hlends, Bool.toNat_true] at hplaced
    rw [if_neg (by simp)]
    split at hplaced <;> omega

variable [BEq ι]

/-- What is done to a watched register leaves everything settled. -/
theorem step (h : watch.Settled) {step : Step ι} (comesBack : step.comesBack = true) :
    (watch.step step).2.Settled := by
  cases step with
  | publish name number source conduct =>
    obtain ⟨outcome, ledger, hcarryOut, -, hsettled⟩ :=
        h.publish name conduct (watch.struck number source).1 (watch.struck number source).2
          comesBack
    simp only [Watch.step, publish_eq, hcarryOut]
    exact hsettled.record name _
  | isCurrent name =>
    simp only [Watch.step]
    split <;> exact h
  | invalidate name =>
    simp only [Watch.step]
    split
    · rename_i term _
      obtain ⟨outcome, ledger, hcarryOut, -, hsettled⟩ :=
        h.carryOut (.invalidate term) rfl fun _ => rfl
      rw [hcarryOut]
      cases outcome <;> exact hsettled
    · exact h
  | close =>
    obtain ⟨outcome, ledger, hcarryOut, -, hsettled⟩ :=
      h.carryOut .shut rfl fun _ => rfl
    simp only [Watch.step, hcarryOut]
    cases outcome <;> exact hsettled
  | isClosed => exact h
  | tokenIs name => exact h

theorem thereafter (h : watch.Settled) {steps : List (Step ι)}
    (comeBack : ∀ step ∈ steps, step.comesBack = true) : (watch.thereafter steps).Settled := by
  induction steps generalizing watch with
  | nil => exact h
  | cons step steps ih =>
    exact ih (h.step (comeBack step List.mem_cons_self))
      fun step hstep => comeBack step (List.mem_cons_of_mem _ hstep)

/-- A publication answers a term exactly if the register is open when it is over, and that term is
served then. -/
theorem publish_answers (h : watch.Settled) {conduct : Conduct}
    (comesBack : conduct.comesBack = true) (name : ι) (number : Nat) (source : Option ι) :
    let after := watch.publish name number source conduct
    after.2.brought = watch.brought + 1 ∧
      ((after.2.register.closed = true ∧ after.1 = .nothing ∧
          after.2.published = watch.published) ∨
        (after.2.register.closed = false ∧ ∃ term : Term, term.delegate = watch.brought + 1 ∧
          after.1 = .term term.generation term.token.term ∧
          after.2.published = (name, term) :: watch.published ∧
          after.2.register.current = some term)) := by
  obtain ⟨outcome, ledger, hcarryOut, hunfolds, -⟩ :=
    h.publish name conduct (watch.struck number source).1 (watch.struck number source).2 comesBack
  simp only [publish_eq, hcarryOut]
  rcases hunfolds.of_publish with ⟨hclosed, rfl⟩ | ⟨hopen, term, hmine, rfl, hserved⟩
  · exact ⟨hunfolds.brought, .inl ⟨hclosed, rfl, rfl⟩⟩
  · exact ⟨hunfolds.brought, .inr ⟨hopen, term, congrArg Holding.delegate hmine, rfl, rfl,
      hserved⟩⟩

/-- Where the delegate of a replaced term closes the register, the new delegate is released too. -/
theorem publish_overtaken (h : watch.Settled) {conduct : Conduct}
    (comesBack : conduct.comesBack = true) (name : ι) (number : Nat) (source : Option ι)
    {old : Term} (isOpen : watch.register.closed = false)
    (served : watch.register.current = some old)
    (closes : watch.conductOf old.toHolding = .closing) :
    let after := watch.publish name number source conduct
    after.1 = .nothing ∧ after.2.register.closed = true ∧
      after.2.released = watch.released ++ [old.delegate, watch.brought + 1] := by
  obtain ⟨outcome, ledger, hcarryOut, hunfolds, -⟩ :=
    h.publish name conduct (watch.struck number source).1 (watch.struck number source).2 comesBack
  have hcloses : ∀ conduct', (watch.bring name conduct (watch.struck number source).1
      (watch.struck number source).2).Behaves old.toHolding conduct' → conduct' = .closing := by
    rintro _ rfl
    rw [← closes]
    simp only [conductOf]
    rw [h.delivery?_bring _ _ _ _ (h.mem_served served)]
  obtain ⟨rfl, hclosed, hreleased⟩ := hunfolds.overtaken isOpen served hcloses
  simp only [publish_eq, hcarryOut]
  exact ⟨rfl, hclosed, hreleased⟩

end Settled

variable [BEq ι]

/-- Whatever is done to a register whose delegates come back from their release, and may close it
from inside:
* a delegate that was brought is released once by the end of whatever took it out of service or
  turned it away, and not before;
* every operation comes to its end, and a closed register then serves nothing;
* a publication answers a term exactly if the register is open when it is over, and serves it then;
* a publication that replaces a term whose delegate closes the register answers nothing, and
  releases first the old delegate and then its own;
* of every released delegate that fails one complaint is made, and the failures change nothing else,
  neither what is answered nor what is left. -/
theorem released_by_the_end (steps : List (Step ι))
    (comeBack : ∀ step ∈ steps, step.comesBack = true) :
    let watch := thereafter {} steps
    (∀ delegate, watch.released.count delegate =
      if 1 ≤ delegate ∧ delegate ≤ watch.brought ∧ watch.register.lends delegate = false then 1
      else 0) ∧
    (∀ operation, (watch.carryOut operation).1.isSome = true) ∧
    (watch.register.closed = true → watch.register.current = none) ∧
    (∀ name number source conduct, conduct.comesBack = true →
      let after := watch.publish name number source conduct
      after.2.brought = watch.brought + 1 ∧
        ((after.2.register.closed = true ∧ after.1 = .nothing ∧
            after.2.published = watch.published) ∨
          (after.2.register.closed = false ∧ ∃ term : Term, term.delegate = watch.brought + 1 ∧
            after.1 = .term term.generation term.token.term ∧
            after.2.published = (name, term) :: watch.published ∧
            after.2.register.current = some term)) ∧
        ∀ old : Term, watch.register.closed = false → watch.register.current = some old →
          watch.conductOf old.toHolding = .closing →
          after.1 = .nothing ∧ after.2.register.closed = true ∧
            after.2.released = watch.released ++ [old.delegate, watch.brought + 1]) ∧
    watch.notices.filter Notice.isComplaint = watch.released.filterMap watch.complaint? ∧
    ∀ others : List (Step ι), others.map Step.hushed = steps.map Step.hushed →
      (thereafter {} others).hushed = watch.hushed ∧
        ∀ step other : Step ι, other.hushed = step.hushed →
          ((thereafter {} others).step other).1 = (watch.step step).1 := by
  intro watch
  have hsettled : watch.Settled := settled_empty.thereafter comeBack
  refine ⟨hsettled.released_count, fun operation => ?_, hsettled.vacant,
    fun name number source conduct hback => ?_, hsettled.told, fun others hothers => ?_⟩
  · obtain ⟨outcome, ledger, hcarryOut, -⟩ := carryOut_unfolds hsettled.comeBack operation
    rw [hcarryOut]
    rfl
  · obtain ⟨hbrought, hanswers⟩ := hsettled.publish_answers hback name number source
    exact ⟨hbrought, hanswers, fun old isOpen served closes =>
      hsettled.publish_overtaken hback name number source isOpen served closes⟩
  · have hsame : (thereafter {} others).hushed = watch.hushed := by
      rw [← thereafter_hushed, ← thereafter_hushed, hothers]
    refine ⟨hsame, fun step other hstep => ?_⟩
    have hother := congrArg Prod.fst (step_hushed (thereafter {} others) other)
    have hone := congrArg Prod.fst (step_hushed watch step)
    rw [← hother, ← hone, hsame, hstep]

/-- Where a delegate that closes the register is replaced, both delegates are released. -/
theorem released_by_the_end_overtaken :
    (∀ step ∈ [Step.publish "first" 1 none .closing], step.comesBack = true) ∧
      let watch : Watch String := thereafter {} [.publish "first" 1 none .closing]
      watch.register.current = some ⟨⟨⟨0, 1⟩, 1⟩, 1⟩ ∧
        (watch.publish "second" 2 none .clean).1 = .nothing ∧
        (watch.publish "second" 2 none .clean).2.released = [1, 2] := by
  have hback : ∀ step ∈ [Step.publish "first" 1 none .closing], step.comesBack = true := by
    decide
  obtain ⟨-, -, -, hpublish, -⟩ := released_by_the_end [.publish "first" 1 none .closing] hback
  obtain ⟨-, -, hovertaken⟩ := hpublish "second" 2 none .clean rfl
  have hserved : (thereafter {} [Step.publish "first" 1 none .closing]).register.current =
      some ⟨⟨⟨0, 1⟩, 1⟩, 1⟩ := by
    decide +kernel
  obtain ⟨hreply, -, hreleased⟩ := hovertaken _ (by decide +kernel) hserved (by decide +kernel)
  refine ⟨hback, hserved, hreply, hreleased.trans ?_⟩
  decide +kernel

end Watch

end TermWatch

end Tenure
