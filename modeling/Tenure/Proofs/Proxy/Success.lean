import Tenure.Proofs.Proxy.Coherence
import Tenure.Proofs.Proxy.Projection

/-!
# No stale success

A call that succeeds has looked at three things at three different moments: its checks, the flag,
and the served term. Between them anything may have happened. What makes its value good is that a
term which ceases to be served never comes back, so a term that is served both when the call takes
it and when the call looks for it last was served all the time in between.

## Main definitions

* `Proxy.TakesAt`, `Proxy.OperatesAt`, `Proxy.FindsOpenAt`, `Proxy.FindsServedAt` — the moments
  of a call that has succeeded

## Main results

* `Proxy.served_between` — a term that is served at two moments is served between them
* `Proxy.no_stale_success` — every success has its moments, with its term served all along
-/

namespace Tenure

namespace Call

variable {α : Type}

/-- Whether a call has nothing left to look at but the served term, or has succeeded. -/
def isLate : Call α → Bool
  | lookServed .. | finished (.ok _) => true
  | _ => false

theorem isLate_of_isForfeit {call : Call α} (h : call.isForfeit = true) :
    call.isLate = false := by
  cases call with
  | finished result => cases result <;> simp_all [isForfeit, isLate]
  | _ => simp_all [isForfeit, isLate]

/-- What a call is told of its operation does not bring it to its last look. -/
theorem operationOver_of_isLate {setting : Setting} {outcome : Outcome α} {call : Call α}
    (h : (call.operationOver setting outcome).1.isLate = true) :
    (call.operationOver setting outcome).1 = call := by
  cases call with
  | underway term | confirmed term =>
    cases outcome with
    | failure failure =>
      have hforfeit := isLate_of_isForfeit (isForfeit_handle (α := α) setting term failure)
      simp only [operationOver] at h
      rw [hforfeit] at h
      simp at h
    | _ => simp [operationOver, isLate] at h
  | _ => rfl

/-- What a call is told of its checks does not bring it to its last look. -/
theorem checked_of_isLate {setting : Setting} {result : Checked} {call : Call α}
    (h : (call.checked setting result).1.isLate = true) :
    (call.checked setting result).1 = call := by
  have hweigh (term : Term) {confirmed : Call α} (hc : confirmed.isLate = false) :
      (weigh setting term result confirmed).1.isLate = false := by
    rcases weigh_cases setting term result confirmed with ⟨-, hcall⟩ | hforfeit
    · rw [hcall]
      exact hc
    · exact isLate_of_isForfeit hforfeit
  cases call with
  | underway term =>
    simp only [checked] at h ⊢
    cases hs : setting.style with
    | blocking => rfl
    | async =>
      simp only [hs] at h
      rw [hweigh term rfl] at h
      simp at h
  | operated term value =>
    simp only [checked] at h
    rw [hweigh term rfl] at h
    simp at h
  | _ => rfl

/-- What has been lost is not got back by a step. -/
theorem isForfeit_proceed {call : Call α} (h : call.isForfeit = true) (setting : Setting)
    (grounds : Grounds) (answers : Answers) :
    (call.proceed setting grounds answers).1.isForfeit = true := by
  cases call with
  | interrupted taken failure =>
    by_cases hs : grounds.register.current = some taken
    · simp [proceed, currentRead, hs, isForfeit]
    · simp [proceed, currentRead, hs, isForfeit]
  | ending cause operation =>
    cases operation with
    | done outcome =>
      cases outcome with
      | ended won => cases won <;> rfl
      | _ => rfl
    | _ => rfl
  | rearm cause => cases hc : grounds.register.closed <;> simp [proceed, flagRead, hc, isForfeit]
  | acquiring cause acquisition => cases acquisition <;> rfl
  | apologise reason cause => rfl
  | finished result =>
    cases result with
    | ok value => simp [isForfeit] at h
    | error failure => rfl
  | _ => simp [isForfeit] at h

/-- A call comes to its last look, and to success, only by the look before. -/
theorem isLate_proceed {call : Call α} {setting : Setting} {grounds : Grounds} {answers : Answers}
    (h : (call.proceed setting grounds answers).1.isLate = true) :
    (call.proceed setting grounds answers).1 = call ∨
      (∃ term value, call = .lookOpen term value ∧ grounds.register.closed = false ∧
        (call.proceed setting grounds answers).1 = .lookServed term value) ∨
      ∃ term value, call = .lookServed term value ∧ grounds.register.current = some term ∧
        (call.proceed setting grounds answers).1 = .finished (.ok value) := by
  by_cases hforfeit : call.isForfeit = true
  · rw [isLate_of_isForfeit (isForfeit_proceed hforfeit setting grounds answers)] at h
    simp at h
  · cases call with
    | enter =>
      simp only [proceed, flagRead] at h
      split at h <;> simp [isLate] at h
    | take | takeAgain hint =>
      simp only [proceed] at h
      cases hs : grounds.register.current <;> simp [hs, currentRead, isLate] at h
    | excuse =>
      simp only [proceed] at h
      cases hh : answers.hint <;> simp [hh, hintRead, isLate] at h
    | lookOpen begun value =>
      cases hc : grounds.register.closed with
      | false => exact .inr (.inl ⟨begun, value, rfl, rfl, by simp [proceed, flagRead, hc]⟩)
      | true => simp [proceed, flagRead, hc, isLate] at h
    | lookServed begun value =>
      by_cases hs : grounds.register.current = some begun
      · exact .inr (.inr ⟨begun, value, rfl, hs, by simp [proceed, currentRead, hs]⟩)
      · simp [proceed, currentRead, hs, isLate] at h
    | begin begun | underway begun | operated begun value | confirmed begun | finished result =>
      exact .inl rfl
    | interrupted begun failure | ending cause operation | rearm cause
    | acquiring cause acquisition | apologise reason cause => simp [isForfeit] at hforfeit

end Call

namespace Caller

variable {α : Type} {caller next : Caller α} {profile : Profile} {grounds : Grounds}
  {answers : Answers} {term : Term} {value : α} {i : Nat} {move : Proxy.Move α}

/-! ### What a step can have come from -/

/-- Nothing that a call hears brings it to its last look. -/
theorem Hears.isLate {call : Call α} {notices : List Notice}
    (h : caller.Hears profile call notices) (hlate : call.isLate = true) : call = caller.call := by
  cases h with
  | nothing | check attempt delivery => rfl
  | operation outcome => exact Call.operationOver_of_isLate hlate
  | checks result => exact Call.checked_of_isLate hlate
  | lost failure waits => simp [Call.isLate] at hlate

/-- An operation has come to a value before, or does so now. -/
theorem work_undergo {delegate : Nat} {event : Event α}
    (h : (caller.undergo profile event).1.work = .ended delegate (.value value)) :
    caller.work = .ended delegate (.value value) ∨
      event = .operationOver (.value value) ∧ caller.work = .running delegate := by
  cases event with
  | operationBegun =>
    simp only [undergo] at h
    split at h
    · simp at h
    · exact .inl h
  | operationOver outcome =>
    obtain ⟨style, call, term, work, validation, checks⟩ := caller
    simp only [undergo] at h
    -- an operation comes to a value only while it runs
    cases work <;> cases outcome <;> cases style <;> simp_all [workOver]
  | checkBegun =>
    obtain ⟨checks, hbegun⟩ := caller.beginCheck_eq
    simp only [undergo, hbegun] at h
    exact .inl h
  | checkOver delivery =>
    obtain ⟨validation, checks, notices, hfinished, -⟩ := caller.finishCheck_eq profile delivery
    simp only [undergo, hfinished] at h
    exact .inl h
  | toldOperation =>
    rcases caller.tellOperation_eq profile with hself | ⟨outcome, validation, htold⟩
    · simp only [undergo, hself] at h
      exact .inl h
    · simp only [undergo, htold] at h
      exact .inl h
  | toldChecks | dropped =>
    simp only [undergo] at h
    split at h <;> exact .inl h
  | _ => exact .inl h

/-- A call comes to its last look, and to success, only by the look before. -/
theorem isLate_proceed (h : (caller.proceed profile grounds answers).1.call.isLate = true) :
    (caller.proceed profile grounds answers).1.call = caller.call ∨
      (∃ term value, caller.call = .lookOpen term value ∧ grounds.register.closed = false ∧
        (caller.proceed profile grounds answers).1.call = .lookServed term value) ∨
      ∃ term value, caller.call = .lookServed term value ∧
        grounds.register.current = some term ∧
        (caller.proceed profile grounds answers).1.call = .finished (.ok value) := by
  -- the begin of the operation is far from the last look, whatever the shard says
  rcases caller.call_proceed profile grounds answers with hcall | ⟨_, refusal, -, hcall⟩
  · rw [hcall] at h ⊢
    exact Call.isLate_proceed h
  · rw [hcall] at h
    cases refusal <;> simp [Call.begun, Call.isLate] at h

/-! ### What a fate can have come from -/

/-- A call takes a term by the look for one. -/
theorem Fate.took (hfate : caller.Fate profile grounds i move next)
    (hnext : next.term = some term) (hne : caller.term ≠ some term) :
    (∃ answers, move = .proceed i answers) ∧
      (caller.call = .take ∨ ∃ hint, caller.call = .takeAgain hint) ∧
        grounds.register.current = some term := by
  cases hfate with
  | unmoved => exact absurd hnext hne
  | proceeds answers =>
    rcases caller.term_proceed profile grounds answers with hsame | ⟨hlook, htaken⟩
    · exact absurd (hsame.symm.trans hnext) hne
    · exact ⟨⟨answers, rfl⟩, hlook, htaken.symm.trans hnext⟩
  | undergoes event => exact absurd ((caller.term_undergo profile event).symm.trans hnext) hne

/-- An operation comes to a value while it runs. -/
theorem Fate.operated {delegate : Nat} (hfate : caller.Fate profile grounds i move next)
    (hnext : next.work = .ended delegate (.value value))
    (hne : caller.work ≠ .ended delegate (.value value)) :
    move = .undergo i (.operationOver (.value value)) ∧ caller.work = .running delegate := by
  cases hfate with
  | unmoved => exact absurd hnext hne
  | proceeds answers =>
    rcases caller.work_proceed profile grounds answers with hsame | ⟨_, hready⟩
    · exact absurd (hsame.symm.trans hnext) hne
    · exact absurd (hready.symm.trans hnext) (by simp)
  | undergoes event =>
    rcases work_undergo hnext with hsame | ⟨rfl, hrunning⟩
    · exact absurd hsame hne
    · exact ⟨rfl, hrunning⟩

/-- A call comes to its last look by the look whether the proxy is open. -/
theorem Fate.lookServed (hfate : caller.Fate profile grounds i move next)
    (hnext : next.call = .lookServed term value) (hne : caller.call ≠ .lookServed term value) :
    (∃ answers, move = .proceed i answers) ∧ caller.call = .lookOpen term value ∧
      grounds.register.closed = false := by
  have hlate : next.call.isLate = true := by rw [hnext]; rfl
  cases hfate with
  | unmoved => exact absurd hnext hne
  | proceeds answers =>
    rcases isLate_proceed hlate with hsame | ⟨term', value', hopen, hc, hserved⟩ |
      ⟨_, value', -, -, hfinished⟩
    · exact absurd (hsame.symm.trans hnext) hne
    · obtain ⟨rfl, rfl⟩ := Call.lookServed.inj (hserved.symm.trans hnext)
      exact ⟨⟨answers, rfl⟩, hopen, hc⟩
    · exact absurd (hfinished.symm.trans hnext) (by simp)
  | undergoes event =>
    have hsame := (caller.undergo_hears profile event).isLate hlate
    exact absurd (hsame.symm.trans hnext) hne

/-- A call succeeds by the look at the served term. -/
theorem Fate.finished (hfate : caller.Fate profile grounds i move next)
    (hnext : next.call = .finished (.ok value)) (hne : caller.call ≠ .finished (.ok value)) :
    (∃ answers, move = .proceed i answers) ∧ ∃ term, caller.call = .lookServed term value ∧
      grounds.register.current = some term := by
  have hlate : next.call.isLate = true := by rw [hnext]; rfl
  cases hfate with
  | unmoved => exact absurd hnext hne
  | proceeds answers =>
    rcases isLate_proceed hlate with hsame | ⟨_, _, -, -, hserved⟩ |
      ⟨term, value', hlook, hs, hfinished⟩
    · exact absurd (hsame.symm.trans hnext) hne
    · exact absurd (hserved.symm.trans hnext) (by simp)
    · obtain rfl : value' = value := by simpa using hfinished.symm.trans hnext
      exact ⟨⟨answers, rfl⟩, term, hlook, hs⟩
  | undergoes event =>
    have hsame := (caller.undergo_hears profile event).isLate hlate
    exact absurd (hsame.symm.trans hnext) hne

end Caller

namespace Proxy

variable {α : Type} {profile : Profile} {schedule : Nat → Move α} {i m n : Nat} {term : Term}
  {value : α}

/-- The call at a place takes a served term, and has begun neither its operation nor a check. -/
def TakesAt (profile : Profile) (schedule : Nat → Move α) (i : Nat) (term : Term) (m : Nat) :
    Prop :=
  ∃ caller answers, (after profile schedule m).parties[i]? = some (.calling caller) ∧
    schedule m = .proceed i answers ∧
    (caller.call = .take ∨ ∃ hint, caller.call = .takeAgain hint) ∧ caller.Fresh ∧
    (after profile schedule m).register.current = some term

/-- The operation of the call at a place, which runs on a delegate, comes to a value. -/
def OperatesAt (profile : Profile) (schedule : Nat → Move α) (i delegate : Nat) (value : α)
    (m : Nat) : Prop :=
  ∃ caller, (after profile schedule m).parties[i]? = some (.calling caller) ∧
    schedule m = .undergo i (.operationOver (.value value)) ∧ caller.work = .running delegate

/-- The call at a place, which has a value on a term whose token is confirmed, finds the proxy
open. -/
def FindsOpenAt (profile : Profile) (schedule : Nat → Move α) (i : Nat) (term : Term) (value : α)
    (m : Nat) : Prop :=
  ∃ caller answers, (after profile schedule m).parties[i]? = some (.calling caller) ∧
    schedule m = .proceed i answers ∧ caller.call = .lookOpen term value ∧
    (after profile schedule m).register.closed = false

/-- The call at a place, which has found the proxy open, finds its term served. -/
def FindsServedAt (profile : Profile) (schedule : Nat → Move α) (i : Nat) (term : Term)
    (value : α) (m : Nat) : Prop :=
  ∃ caller answers, (after profile schedule m).parties[i]? = some (.calling caller) ∧
    schedule m = .proceed i answers ∧ caller.call = .lookServed term value ∧
    (after profile schedule m).register.current = some term

/-- A term that is served at two moments is served at every moment between them. -/
theorem served_between (profile : Profile) (schedule : Nat → Move α) {l : Nat}
    (hl : (after profile schedule l).register.current = some term)
    (hn : (after profile schedule n).register.current = some term) (hlm : l ≤ m) (hmn : m ≤ n) :
    (after profile schedule m).register.current = some term := by
  -- from the first moment on the term stays in service, or is over for good
  have hsound := (sound_after profile schedule l).shared
  rcases (after_strides profile schedule hlm).shared.served_or_past hsound hl with hserved | hpast
  · exact hserved
  · -- what is over does not come back
    exact absurd hn (hpast.shifts (after_strides profile schedule hmn).shared).2.1

theorem not_released_of_served (profile : Profile) (schedule : Nat → Move α)
    (hs : (after profile schedule n).register.current = some term) :
    term.delegate ∉ (after profile schedule n).released :=
  (sound_after profile schedule n).shared.balanced.not_released hs

/-! ### From the last look back to the first -/

variable {caller : Caller α}

/-- A call that has succeeded on a term found it served. -/
theorem exists_findsServedAt
    (here : (after profile schedule n).parties[i]? = some (.calling caller))
    (hcall : caller.call = .finished (.ok value)) (hterm : caller.term = some term) :
    ∃ m, m < n ∧ FindsServedAt profile schedule i term value m := by
  obtain ⟨m, hm, before, next, hbefore, hfate, hne, hnext, hnextTerm⟩ := exists_change
    (P := fun caller => caller.call = .finished (.ok value) ∧ caller.term = some term)
    (fun style mayWait h => by cases style <;> cases mayWait <;> simp [Caller.make] at h)
    n caller here ⟨hcall, hterm⟩
  by_cases hfinished : before.call = .finished (.ok value)
  · -- a call that is over takes no other term
    have hother : before.term ≠ some term := fun ht => hne ⟨hfinished, ht⟩
    obtain ⟨-, hlook, -⟩ := hfate.took hnextTerm hother
    simp [hfinished] at hlook
  · obtain ⟨⟨answers, hmove⟩, served, hserved, hcurrent⟩ := hfate.finished hnext hfinished
    have hstage := (coherent_after profile schedule hbefore).stage
    simp only [Caller.AtStage, hserved] at hstage
    have hsame : before.term = some term := by
      by_contra hother
      obtain ⟨-, hlook, -⟩ := hfate.took hnextTerm hother
      simp [hserved] at hlook
    obtain rfl : served = term := Option.some.inj (hstage.1.1.symm.trans hsame)
    exact ⟨m, hm, before, answers, hbefore, hmove, hserved, hcurrent⟩

/-- A call that looks whether its term is served found the proxy open. -/
theorem exists_findsOpenAt (h : FindsServedAt profile schedule i term value n) :
    ∃ m, m < n ∧ FindsOpenAt profile schedule i term value m := by
  obtain ⟨caller, -, here, -, hcall, -⟩ := h
  obtain ⟨m, hm, before, next, hbefore, hfate, hne, hnext⟩ := exists_change
    (P := fun caller => caller.call = .lookServed term value)
    (fun style mayWait h => by cases style <;> cases mayWait <;> simp [Caller.make] at h)
    n caller here hcall
  obtain ⟨⟨answers, hmove⟩, hopen, hc⟩ := hfate.lookServed hnext hne
  exact ⟨m, hm, before, answers, hbefore, hmove, hopen, hc⟩

/-- A call that has a value on a term ran its operation on the delegate of that term. -/
theorem exists_operatesAt
    (here : (after profile schedule n).parties[i]? = some (.calling caller))
    (hoperated : caller.Operated term value) :
    ∃ m, m < n ∧ OperatesAt profile schedule i term.delegate value m ∧
      ∃ before, (after profile schedule m).parties[i]? = some (.calling before) ∧
        before.term = some term := by
  obtain ⟨m, hm, before, next, hbefore, hfate, hne, hterm, hwork⟩ := exists_change
    (P := fun caller => caller.Operated term value)
    (fun style mayWait h => by
      cases style <;> cases mayWait <;> simp [Caller.make, Caller.Operated] at h)
    n caller here hoperated
  by_cases hbeforeWork : before.work = .ended term.delegate (.value value)
  · -- a call that takes a term has no operation yet
    have hother : before.term ≠ some term := fun ht => hne ⟨ht, hbeforeWork⟩
    obtain ⟨-, hlook, -⟩ := hfate.took hterm hother
    have hstage := (coherent_after profile schedule hbefore).stage
    have hfresh : before.Fresh := by
      unfold Caller.AtStage at hstage
      rcases hlook with hlook | ⟨hint, hlook⟩ <;> simpa only [hlook] using hstage
    rw [hfresh.1] at hbeforeWork
    simp at hbeforeWork
  · obtain ⟨hmove, hrunning⟩ := hfate.operated hwork hbeforeWork
    have hsame : before.term = some term := by
      by_contra hother
      obtain ⟨⟨answers, hproceed⟩, -⟩ := hfate.took hterm hother
      exact absurd (hmove.symm.trans hproceed) (by simp)
    exact ⟨m, hm, ⟨before, hbefore, hmove, hrunning⟩, before, hbefore, hsame⟩

/-- A call that has a term took it when it was served. -/
theorem exists_takesAt (here : (after profile schedule n).parties[i]? = some (.calling caller))
    (hterm : caller.term = some term) : ∃ m, m < n ∧ TakesAt profile schedule i term m := by
  obtain ⟨m, hm, before, next, hbefore, hfate, hne, hnext⟩ := exists_change
    (P := fun caller => caller.term = some term)
    (fun style mayWait h => by cases style <;> cases mayWait <;> simp [Caller.make] at h)
    n caller here hterm
  obtain ⟨⟨answers, hmove⟩, hlook, hcurrent⟩ := hfate.took hnext hne
  have hstage := (coherent_after profile schedule hbefore).stage
  have hfresh : before.Fresh := by
    unfold Caller.AtStage at hstage
    rcases hlook with hlook | ⟨hint, hlook⟩ <;> simpa only [hlook] using hstage
  exact ⟨m, hm, before, answers, hbefore, hmove, hlook, hfresh, hcurrent⟩

/-- A call that returns a value took a term that was served; its operation came to that value on
the delegate of the term; after that it found the proxy open, and after that the term served. From
the first of these moments to the last the term was served and the release of its delegate not
begun. The checks of the call, all begun after the first moment and all of the token of the term,
are no more than it may make, and the last one answered that the token is leading. -/
theorem no_stale_success (profile : Profile) (schedule : Nat → Move α) {i n : Nat}
    {caller : Caller α} {value : α}
    (here : (after profile schedule n).parties[i]? = some (.calling caller))
    (success : caller.call = .finished (.ok value)) :
    ∃ term taken operated opened served,
      (taken < operated ∧ operated < opened ∧ opened < served ∧ served < n) ∧
      TakesAt profile schedule i term taken ∧
      OperatesAt profile schedule i term.delegate value operated ∧
      FindsOpenAt profile schedule i term value opened ∧
      FindsServedAt profile schedule i term value served ∧
      (∀ m, taken ≤ m → m ≤ served →
        (after profile schedule m).register.current = some term ∧
          term.delegate ∉ (after profile schedule m).released) ∧
      caller.validation = some (.finished (.ok .leading)) ∧
      caller.checks.length ≤ max 1 profile.budget.toNat ∧
      (∀ check ∈ caller.checks, check.token = term.token) ∧
      ∃ earlier, caller.checks = ⟨term.token, some (.ok .leading)⟩ :: earlier := by
  have hcoherent := coherent_after profile schedule here
  -- what a call has that has succeeded
  obtain ⟨term, hoperated, hconfirmed⟩ : ∃ term, caller.Operated term value ∧ caller.Confirmed := by
    have hstage := hcoherent.stage
    unfold Caller.AtStage at hstage
    simpa only [success] using hstage
  -- the four moments, from the last one back
  obtain ⟨served, hservedn, hserved⟩ := exists_findsServedAt here success hoperated.1
  obtain ⟨opened, hopenedServed, hopened⟩ := exists_findsOpenAt hserved
  obtain ⟨looker, answers, hlooker, hmove, hlook, hopen⟩ := hopened
  have hlookerStage := (coherent_after profile schedule hlooker).stage
  simp only [Caller.AtStage, hlook] at hlookerStage
  obtain ⟨operated, hoperatedOpened, hoperates, runner, hrunner, hrunnerTerm⟩ :=
    exists_operatesAt hlooker hlookerStage.1
  obtain ⟨taken, htakenOperated, htakes⟩ := exists_takesAt hrunner hrunnerTerm
  -- the call has one term, so all its checks were of that term's token
  have htoken : ∀ check ∈ caller.checks, check.token = term.token := by
    intro check hc
    obtain ⟨other, hother, heq⟩ := hcoherent.token check hc
    obtain rfl : other = term := Option.some.inj (hother.symm.trans hoperated.1)
    exact heq
  have hfit := hcoherent.fit
  rw [hconfirmed] at hfit
  obtain ⟨token, earlier, hchecks⟩ := hfit.2 .leading rfl
  refine ⟨term, taken, operated, opened, served,
    ⟨htakenOperated, hoperatedOpened, hopenedServed, hservedn⟩, htakes, hoperates,
    ⟨looker, answers, hlooker, hmove, hlook, hopen⟩, hserved, fun m htm hms => ?_, hconfirmed,
    hfit.1, htoken, earlier, ?_⟩
  · obtain ⟨_, _, -, -, -, -, hfirst⟩ := htakes
    obtain ⟨_, _, -, -, -, hlast⟩ := hserved
    have hm := served_between profile schedule hfirst hlast htm hms
    exact ⟨hm, not_released_of_served profile schedule hm⟩
  · have hlatest : token = term.token :=
      htoken ⟨token, some (.ok .leading)⟩ (by rw [hchecks]; exact List.mem_cons_self)
    rw [hchecks, hlatest]

/-- A proxy gains leadership at once, and a blocking call is made whose operation comes to 7 and
whose only check answers that the token is leading. -/
def undisturbed : List (Move Nat) :=
  List.replicate 9 (.proceed 0 { held := some ⟨1, 3⟩ }) ++
    [.call .blocking true, .proceed 1 {}, .proceed 1 {}, .proceed 1 {},
      .undergo 1 .operationBegun, .undergo 1 (.operationOver (.value 7)),
      .undergo 1 .toldOperation, .undergo 1 (.checkHandedOver none), .undergo 1 .checkBegun,
      .undergo 1 (.checkOver (.value .leading)), .undergo 1 .toldChecks,
      .proceed 1 {}, .proceed 1 {}]

/-- The call that nothing disturbs succeeds, on a term that was served from its second move to its
last. -/
theorem undisturbed_succeeds :
    ∃ caller : Caller Nat,
      (after ⟨"client", "shard", 1⟩ (script undisturbed) 22).parties[1]? =
        some (.calling caller) ∧
      caller.call = .finished (.ok 7) ∧
      ∃ term taken served, taken < served ∧
        TakesAt ⟨"client", "shard", 1⟩ (script undisturbed) 1 term taken ∧
        FindsServedAt ⟨"client", "shard", 1⟩ (script undisturbed) 1 term 7 served := by
  refine ⟨⟨.blocking, .finished (.ok 7), some ⟨⟨⟨1, 3⟩, 1⟩, 1⟩, .ended 1 (.value 7),
    some (.finished (.ok .leading)), [⟨⟨1, 3⟩, some (.ok .leading)⟩]⟩, rfl, rfl, ?_⟩
  obtain ⟨term, taken, operated, opened, served, ⟨hfirst, hsecond, hthird, -⟩, htakes, -, -,
    hserved, -⟩ := no_stale_success ⟨"client", "shard", 1⟩ (script undisturbed) (i := 1) (n := 22)
      rfl rfl
  exact ⟨term, taken, served, by omega, htakes, hserved⟩

end Proxy

end Tenure
