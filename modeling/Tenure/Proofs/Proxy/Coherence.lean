import Tenure.Proofs.Proxy.Checks
import Tenure.Proofs.Proxy.Fate

/-!
# What a call knows

Where a call has come to says what has come of its operation and of its checks. A call that has
not begun them has done nothing at all; one that goes on with a value has it from its own
operation, on the delegate of the term that it took; and one that relies on its term has its
checks' word for it.

## Main definitions

* `Caller.Fresh`, `Caller.Operated`, `Caller.Confirmed` — what has come of a call so far
* `Caller.AtStage` — that goes with where it is
* `Caller.Coherent` — and all of it goes together

## Main results

* `Caller.Coherent.fate` — whatever happens to a call, it stays coherent
* `Proxy.coherent_after` — all calls are coherent after every schedule
-/

namespace Tenure

/-- The delegate that an operation was given. -/
def Work.delegate? {α : Type} : Work α → Option Nat
  | absent => none
  | ready delegate | running delegate | ended delegate _ => some delegate

namespace Call

variable {α : Type}

/-- Whether a call has lost what it needs to succeed. -/
def isForfeit : Call α → Bool
  | interrupted .. | ending .. | rearm _ | acquiring .. | apologise .. | finished (.error _) => true
  | _ => false

theorem isForfeit_handle (setting : Setting) (term : Term) (failure : DelegateFailure) :
    (handle (α := α) setting term failure).1.isForfeit = true := by
  unfold handle
  split <;> rfl

/-- A call goes on with a confirmed token, or has lost what it needs to succeed. -/
theorem weigh_cases (setting : Setting) (term : Term) (result : Checked) (confirmed : Call α) :
    (result = .ok .leading ∧ (weigh setting term result confirmed).1 = confirmed) ∨
      (weigh setting term result confirmed).1.isForfeit = true := by
  match result with
  | .ok .leading => exact .inl ⟨rfl, rfl⟩
  | .ok .notLeading | .ok .noQuorum => exact .inr rfl
  | .error (.attempt failure) => exact .inr rfl
  | .error (.executor failure) => exact .inr rfl
  | .error .cancelled => exact .inr rfl

end Call

namespace Caller

variable {α : Type}

/-- A call that has begun neither its operation nor its checks. -/
def Fresh (caller : Caller α) : Prop :=
  caller.work = .absent ∧ caller.validation = none ∧ caller.checks = []

/-- A call whose operation on the delegate of a term has come to a value. -/
def Operated (caller : Caller α) (term : Term) (value : α) : Prop :=
  caller.term = some term ∧ caller.work = .ended term.delegate (.value value)

/-- A call whose checks have confirmed its token. -/
def Confirmed (caller : Caller α) : Prop :=
  caller.validation = some (.finished (.ok .leading))

/-- Where a call has come to goes with what has come of it. -/
def AtStage (caller : Caller α) : Prop :=
  match caller.call with
  | .enter | .take | .excuse | .takeAgain _ => caller.Fresh
  | .begin term => caller.Fresh ∧ caller.term = some term
  | .underway term => caller.term = some term
  | .operated term value => caller.Operated term value
  | .confirmed term => caller.term = some term ∧ caller.Confirmed
  | .lookOpen term value | .lookServed term value =>
    caller.Operated term value ∧ caller.Confirmed
  | .finished (.ok value) => ∃ term, caller.Operated term value ∧ caller.Confirmed
  | _ => True

/-- What a call knows goes together: its operation is on the delegate of its term, and its checks
are those of one run, all of the token of its term. -/
structure Coherent (most : Nat) (caller : Caller α) : Prop where
  stage : caller.AtStage
  work : ∀ delegate, caller.work.delegate? = some delegate →
    ∃ term, caller.term = some term ∧ term.delegate = delegate
  fit : Check.Fit most caller.checks caller.validation
  token : ∀ check ∈ caller.checks, ∃ term, caller.term = some term ∧ check.token = term.token

variable {caller next : Caller α} {most : Nat}

/-- A call that will not succeed has nothing to show for it. -/
theorem atStage_of_isForfeit (h : caller.call.isForfeit = true) : caller.AtStage := by
  unfold AtStage
  cases hcall : caller.call with
  | finished result =>
    cases result with
    | ok value => simp [hcall, Call.isForfeit] at h
    | error failure => trivial
  | interrupted term failure | ending cause operation | rearm cause | acquiring cause acquisition
  | apologise reason cause => trivial
  | _ => simp [hcall, Call.isForfeit] at h

/-- What happens around a call, and leaves alone what it has found out, leaves it at its stage. -/
theorem AtStage.of_around (h : caller.AtStage) (hcall : next.call = caller.call)
    (hterm : next.term = caller.term) (hfresh : caller.Fresh → next.Fresh)
    (hwork : ∀ delegate value, caller.work = .ended delegate (.value value) →
      next.work = .ended delegate (.value value))
    (hconfirmed : caller.Confirmed → next.Confirmed) : next.AtStage := by
  unfold AtStage at *
  rw [hcall]
  revert h
  -- every stage asks for some of the things that are left alone
  cases caller.call with
  | enter | take | excuse | takeAgain hint => exact hfresh
  | begin term => exact fun ⟨hf, ht⟩ => ⟨hfresh hf, hterm.trans ht⟩
  | underway term => exact hterm.trans
  | operated term value => exact fun ⟨ht, hw⟩ => ⟨hterm.trans ht, hwork _ _ hw⟩
  | confirmed term => exact fun ⟨ht, hc⟩ => ⟨hterm.trans ht, hconfirmed hc⟩
  | lookOpen term value | lookServed term value =>
    exact fun ⟨⟨ht, hw⟩, hc⟩ => ⟨⟨hterm.trans ht, hwork _ _ hw⟩, hconfirmed hc⟩
  | finished result =>
    cases result with
    | ok value =>
      rintro ⟨term, ⟨ht, hw⟩, hc⟩
      exact ⟨term, ⟨hterm.trans ht, hwork _ _ hw⟩, hconfirmed hc⟩
    | error failure => exact id
  | _ => exact id

theorem coherent_make (style : Style) (mayWait : Bool) :
    (make (α := α) style mayWait).Coherent most := by
  cases style <;> cases mayWait <;>
    exact ⟨by simp [make, AtStage, Fresh], by simp [make, Work.delegate?], rfl, by simp [make]⟩

/-- A call whose work, validation and checks are left alone stays coherent if it is at its
stage. -/
theorem Coherent.of_call (h : caller.Coherent most) {call : Call α}
    (stage : AtStage { caller with call }) : Coherent most { caller with call } where
  stage := stage
  work := h.work
  fit := h.fit
  token := h.token

/-- A call that takes the served term has nothing that it could be at odds with. -/
theorem coherent_of_fresh (hf : caller.Fresh) (stage : caller.AtStage) :
    caller.Coherent most := by
  obtain ⟨hwork, hvalidation, hchecks⟩ := hf
  refine ⟨stage, ?_, ?_, ?_⟩
  · simp [hwork, Work.delegate?]
  · rw [hvalidation]
    exact hchecks
  · simp [hchecks]

/-! ### Its next step -/

/-- A call that begins its operation and its checks has them of its term. -/
theorem coherent_begin {term : Term} (hf : caller.Fresh) (ht : caller.term = some term)
    (hcall : caller.call = .begin term) (hmost : 0 < most) (answers : Answers) :
    (caller.begin term answers).Coherent most := by
  obtain ⟨hwork, hvalidation, hchecks⟩ := hf
  have hstage (refusal : Option ExecutorFailure) {next : Caller α}
      (hnext : next.call = caller.call.begun refusal) (hterm : next.term = caller.term) :
      next.AtStage := by
    unfold AtStage
    rw [hnext, hcall]
    cases refusal with
    | none => exact hterm.trans ht
    | some failure => trivial
  unfold begin
  simp only
  split
  · refine ⟨hstage _ rfl rfl, ?_, ?_, ?_⟩
    · simp [hwork, Work.delegate?]
    · rw [hchecks]
      exact Check.Fit.finished_error (Nat.zero_le most)
    · simp [hchecks]
  · refine ⟨hstage _ rfl rfl, ?_, ?_, ?_⟩
    · intro delegate hd
      exact ⟨term, ht, Option.some.inj hd⟩
    · rw [hchecks]
      exact Check.Fit.start hmost
    · simp [hchecks]

theorem Coherent.proceed (h : caller.Coherent most) (hmost : 0 < most) (profile : Profile)
    (grounds : Grounds) (answers : Answers) :
    (caller.proceed profile grounds answers).1.Coherent most := by
  obtain ⟨style, call, term, work, validation, checks⟩ := caller
  have hstage := h.stage
  cases call with
  | enter =>
    refine h.of_call ?_
    cases hc : grounds.register.closed with
    | false => exact hstage
    | true => trivial
  | take =>
    -- the term that is taken is the one that is begun
    change Coherent most ⟨style, Call.currentRead grounds.register.current .take,
      grounds.register.current, work, validation, checks⟩
    cases grounds.register.current with
    | none => exact coherent_of_fresh hstage hstage
    | some served => exact coherent_of_fresh hstage ⟨hstage, rfl⟩
  | excuse =>
    refine h.of_call ?_
    cases answers.hint with
    | none => trivial
    | some peer => exact hstage
  | takeAgain hint =>
    change Coherent most ⟨style, Call.currentRead grounds.register.current (.takeAgain hint),
      grounds.register.current, work, validation, checks⟩
    cases grounds.register.current with
    | none => exact coherent_of_fresh hstage trivial
    | some served => exact coherent_of_fresh hstage ⟨hstage, rfl⟩
  | begin taken => exact coherent_begin hstage.1 hstage.2 rfl hmost answers
  | underway taken => exact h
  | operated taken value => exact h
  | confirmed taken => exact h
  | lookOpen taken value =>
    refine h.of_call ?_
    cases hc : grounds.register.closed with
    | false => exact hstage
    | true => trivial
  | lookServed taken value =>
    refine h.of_call ?_
    by_cases hs : grounds.register.current = some taken
    · rw [Call.currentRead, if_pos hs]
      exact ⟨taken, hstage⟩
    · rw [Call.currentRead, if_neg hs]
      trivial
  | interrupted taken failure =>
    refine h.of_call ?_
    by_cases hs : grounds.register.current = some taken
    · rw [Call.currentRead, if_pos hs]
      trivial
    · rw [Call.currentRead, if_neg hs]
      trivial
  | ending cause operation =>
    -- whatever the ending comes to, the call will not succeed
    cases operation with
    | done outcome =>
      cases outcome with
      | ended won => cases won <;> exact h.of_call trivial
      | _ => exact h.of_call trivial
    | _ => exact h.of_call trivial
  | rearm cause =>
    refine h.of_call ?_
    cases hc : grounds.register.closed <;> trivial
  | acquiring cause acquisition => cases acquisition <;> exact h.of_call trivial
  | apologise reason cause => exact h.of_call trivial
  | finished result => exact h

/-! ### What happens around it -/

theorem Coherent.operationBegun (h : caller.Coherent most) (profile : Profile) :
    (caller.undergo profile .operationBegun).1.Coherent most := by
  cases hwork : caller.work with
  | ready delegate =>
    simp only [undergo, hwork]
    refine ⟨h.stage.of_around rfl rfl ?_ ?_ id, ?_, h.fit, h.token⟩
    · -- an operation that was asked for is none of a fresh call
      intro hf
      simp [Fresh, hwork] at hf
    · intro delegate' value hv
      simp [hwork] at hv
    · intro delegate' hd
      exact h.work delegate' (by rw [hwork]; exact hd)
  | _ =>
    simp only [undergo, hwork]
    exact h

/-- What an operation comes to is on the delegate that it was given, and a value that it has come
to stays. -/
theorem workOver_eq (caller : Caller α) (outcome : Outcome α) :
    (caller.workOver outcome).delegate? = caller.work.delegate? ∧
      (caller.work = .absent → caller.workOver outcome = .absent) ∧
      ∀ delegate value, caller.work = .ended delegate (.value value) →
        caller.workOver outcome = .ended delegate (.value value) := by
  obtain ⟨style, call, term, work, validation, checks⟩ := caller
  cases work <;> cases outcome <;> cases style <;> simp [workOver, Work.delegate?]

theorem Coherent.operationOver (h : caller.Coherent most) (profile : Profile)
    (outcome : Outcome α) :
    (caller.undergo profile (.operationOver outcome)).1.Coherent most := by
  obtain ⟨hdelegate, habsent, hvalue⟩ := caller.workOver_eq outcome
  refine ⟨h.stage.of_around rfl rfl ?_ hvalue id, ?_, h.fit, h.token⟩
  · rintro ⟨hw, hrest⟩
    exact ⟨habsent hw, hrest⟩
  · intro delegate hd
    exact h.work delegate (by rw [← hdelegate]; exact hd)

/-- A step of the run of checks that leaves a finished run alone. -/
theorem Coherent.of_validation (h : caller.Coherent most) (step : Validation → Validation)
    (hfinished : ∀ result, step (.finished result) = .finished result)
    (hfit : ∀ run, Check.Fit most caller.checks (some run) →
      Check.Fit most caller.checks (some (step run))) :
    Coherent most { caller with validation := caller.validation.map step } := by
  refine ⟨h.stage.of_around rfl rfl ?_ (fun _ _ hw => hw) ?_, h.work, ?_, h.token⟩
  · rintro ⟨hw, hv, hc⟩
    exact ⟨hw, by simp [hv], hc⟩
  · intro hc
    unfold Confirmed at *
    simp [hc, hfinished]
  · have hbefore := h.fit
    revert hbefore
    cases caller.validation with
    | none => exact id
    | some run => exact hfit run

theorem Coherent.cancel (h : caller.Coherent most) :
    Coherent most { caller with validation := caller.validation.map Run.cancel } :=
  h.of_validation Run.cancel (fun _ => rfl) (fun _ hfit => hfit.cancel)

theorem Coherent.checkBegun (h : caller.Coherent most) : caller.beginCheck.Coherent most := by
  obtain ⟨style, call, term, work, validation, checks⟩ := caller
  unfold beginCheck
  split
  · rename_i attempt taken hv ht
    -- the attempt has a number, so that a check is begun once for each
    split
    · rename_i hnext
      simp only at hv ht hnext
      subst hv ht
      refine ⟨h.stage.of_around rfl rfl ?_ (fun _ _ hw => hw) id, h.work, ?_, ?_⟩
      · intro hf
        simp [Fresh] at hf
      · exact Check.Fit.begun h.fit hnext _
      · intro check hc
        rcases List.mem_cons.mp hc with rfl | hold
        · exact ⟨taken, rfl, rfl⟩
        · exact h.token check hold
    · exact h
  · exact h

/-- An answer does not change whose token a check was of. -/
theorem exists_mem_of_mem_answered {checks : List Check} {check : Check}
    {delivery : Run.Delivery LeadingStatus ElectionFailure} (h : check ∈ answered checks delivery) :
    ∃ before ∈ checks, before.token = check.token := by
  cases delivery with
  | lost => exact ⟨check, h, rfl⟩
  | value status =>
    cases checks with
    | nil => simp [answered, answered.answerLatest] at h
    | cons latest earlier =>
      rcases List.mem_cons.mp h with rfl | hold
      · exact ⟨latest, List.mem_cons_self, rfl⟩
      · exact ⟨check, List.mem_cons_of_mem _ hold, rfl⟩
  | failure failure =>
    cases checks with
    | nil => simp [answered, answered.answerLatest] at h
    | cons latest earlier =>
      rcases List.mem_cons.mp h with rfl | hold
      · exact ⟨latest, List.mem_cons_self, rfl⟩
      · exact ⟨check, List.mem_cons_of_mem _ hold, rfl⟩

/-- A run of checks that goes on has not confirmed anything, so nothing relies on it yet. -/
theorem Coherent.received {attempt : UInt32} {profile : Profile}
    (h : caller.Coherent (Validation.most profile.budget))
    (hv : caller.validation = some (.attempting attempt))
    (delivery : Run.Delivery LeadingStatus ElectionFailure)
    (hbegun : delivery = .lost ∨ attempt.toNat = caller.checks.length) :
    Coherent (Validation.most profile.budget)
      { caller with
        validation := some ((Run.attempting attempt).receive (statusRetrier profile.budget)
          profile.shard delivery).1
        checks := answered caller.checks delivery } where
  stage := by
    refine h.stage.of_around rfl rfl ?_ (fun _ _ hw => hw) ?_
    · intro hf
      simp [Fresh, hv] at hf
    · intro hc
      simp [Confirmed, hv] at hc
  work := h.work
  fit := by
    have hfit := h.fit
    rw [hv] at hfit
    exact hfit.received profile.shard delivery hbegun
  token := by
    intro check hc
    obtain ⟨before, hb, htoken⟩ := exists_mem_of_mem_answered hc
    obtain ⟨term, ht, heq⟩ := h.token before hb
    exact ⟨term, ht, htoken.symm.trans heq⟩

theorem Coherent.checkOver {profile : Profile}
    (h : caller.Coherent (Validation.most profile.budget))
    (delivery : Run.Delivery LeadingStatus ElectionFailure) :
    (caller.finishCheck profile delivery).1.Coherent (Validation.most profile.budget) := by
  unfold finishCheck
  split
  · rename_i attempt hv
    cases delivery with
    | lost => exact h.received hv .lost (.inl rfl)
    | value status =>
      simp only
      split
      · rename_i hlength
        exact h.received hv (.value status) (.inr hlength)
      · exact h
    | failure failure =>
      simp only
      split
      · rename_i hlength
        exact h.received hv (.failure failure) (.inr hlength)
      · exact h
  · exact h

/-- What a call is told of its operation: a value goes with the operation on its term, and
without a value the call will not succeed. -/
theorem Coherent.toldOperation (h : caller.Coherent most) (profile : Profile) :
    (caller.tellOperation profile).1.Coherent most := by
  obtain ⟨style, call, term, work, validation, checks⟩ := caller
  cases work with
  | ended delegate outcome =>
    obtain ⟨taken, hterm, rfl⟩ := h.work delegate rfl
    have hstage := h.stage
    have hlost : (Call.finished (α := α)
        (.error (.executor (.taskLost profile.shard)))).isForfeit = true := rfl
    -- only these two stages hear of an operation
    cases call with
    | underway begun =>
      obtain rfl : taken = begun := Option.some.inj (hterm.symm.trans hstage)
      cases outcome with
      | value value => exact h.of_call ⟨hterm, rfl⟩
      | failure failure =>
        exact (h.of_call (atStage_of_isForfeit (Call.isForfeit_handle _ _ _))).cancel
      | lost => exact (h.of_call (atStage_of_isForfeit hlost)).cancel
    | confirmed begun =>
      obtain rfl : taken = begun := Option.some.inj (hterm.symm.trans hstage.1)
      cases outcome with
      | value value => exact h.of_call ⟨⟨hterm, rfl⟩, hstage.2⟩
      | failure failure =>
        exact (h.of_call (atStage_of_isForfeit (Call.isForfeit_handle _ _ _))).cancel
      | lost => exact (h.of_call (atStage_of_isForfeit hlost)).cancel
    | _ => exact h
  | _ => exact h

/-- What a call is told of its checks: it goes on only if they have confirmed its token. -/
theorem Coherent.toldChecks (h : caller.Coherent most) (setting : Call.Setting)
    {result : Checked} (hr : caller.validation = some (.finished result)) :
    Coherent most { caller with call := (caller.call.checked setting result).1 } := by
  obtain ⟨style, call, term, work, validation, checks⟩ := caller
  have hstage := h.stage
  simp only at hr
  subst hr
  cases call with
  | underway taken =>
    refine h.of_call ?_
    simp only [Call.checked]
    cases setting.style with
    -- a blocking call asks for its checks after its operation
    | blocking => exact hstage
    | async =>
      rcases Call.weigh_cases setting taken result (.confirmed taken) with ⟨rfl, hcall⟩ | hforfeit
      · rw [hcall]
        exact ⟨hstage, rfl⟩
      · exact atStage_of_isForfeit hforfeit
  | operated taken value =>
    refine h.of_call ?_
    rcases Call.weigh_cases setting taken result (.lookOpen taken value) with
      ⟨rfl, hcall⟩ | hforfeit
    · simp only [Call.checked]
      rw [hcall]
      exact ⟨hstage, rfl⟩
    · exact atStage_of_isForfeit hforfeit
  | _ => exact h

/-- Whatever happens around a call, it stays coherent. -/
theorem Coherent.undergo {profile : Profile}
    (h : caller.Coherent (Validation.most profile.budget)) (event : Event α) :
    (caller.undergo profile event).1.Coherent (Validation.most profile.budget) := by
  cases event with
  | operationBegun => exact h.operationBegun profile
  | operationOver outcome => exact h.operationOver profile outcome
  | checkHandedOver refusal =>
    exact h.of_validation (·.handOver refusal) (fun _ => by cases refusal <;> rfl)
      (fun _ hfit => hfit.handOver refusal)
  | checkBegun => exact h.checkBegun
  | checkOver delivery => exact h.checkOver delivery
  | delayOver =>
    exact h.of_validation Run.wake (fun _ => rfl)
      (fun _ hfit => hfit.wake (Validation.most_lt profile.budget))
  | checksCalledOff => exact h.cancel
  | toldOperation => exact h.toldOperation profile
  | toldChecks =>
    simp only [Caller.undergo]
    split
    · -- there is a result only of a run that is finished
      rename_i result hr
      obtain ⟨run, hrun, hresult⟩ := Option.bind_eq_some_iff.mp hr
      cases run with
      | finished _ =>
        obtain rfl := Option.some.inj hresult
        exact h.toldChecks _ hrun
      | _ => simp [Run.result?] at hresult
    · exact h
  | dropped =>
    obtain ⟨style, call, term, work, validation, checks⟩ := caller
    cases style with
    | blocking => exact h
    | async =>
      cases call with
      | underway taken | operated taken value | confirmed taken => exact h.of_call trivial
      | _ => exact h

/-- Whatever happens to a call, it stays coherent. -/
theorem Coherent.fate {profile : Profile} {grounds : Grounds} {i : Nat} {move : Proxy.Move α}
    (h : caller.Coherent (Validation.most profile.budget))
    (hfate : caller.Fate profile grounds i move next) :
    next.Coherent (Validation.most profile.budget) := by
  cases hfate with
  | unmoved => exact h
  | proceeds answers =>
    exact h.proceed (Validation.most_pos profile.budget) profile grounds answers
  | undergoes event => exact h.undergo event

end Caller

/-- All calls are coherent after every schedule. -/
theorem Proxy.coherent_after {α : Type} (profile : Profile) (schedule : Nat → Move α) {i n : Nat}
    {caller : Caller α} (here : (after profile schedule n).parties[i]? = some (.calling caller)) :
    caller.Coherent (Validation.most profile.budget) :=
  calling_induction (P := fun caller => caller.Coherent (Validation.most profile.budget))
    Caller.coherent_make (fun _ _ _ h hfate => h.fate hfate) n caller here

end Tenure
