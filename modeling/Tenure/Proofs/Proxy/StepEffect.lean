import Tenure.Proofs.Proxy.Shutdown
import Tenure.Proofs.Proxy.Success

/-!
# What a call does to the proxy

A call that learns that its term is over takes the term out of service, if nobody has done so
before it, releases the delegate and starts the next acquisition. Those are steps of its own, and
each of them has one kind of effect; every other step of a call leaves the proxy as it has found
it.

A call that ends its term goes through stages, and no step takes it back to an earlier one. It
reaches the first of them only by hearing that it cannot rely upon its term.

## Main definitions

* `Grounds.Spares` — nothing was done to the proxy
* `Call.stage` — how far a call has come that ends its term
* `Call.StepEffect` — what a step of a call can do to the proxy
* `Caller.Devoted` — a call is at what it does with its own term
* `Caller.Loses` — what tells a call that its term is over

## Main results

* `Caller.Devoted.proceed_stepEffect` — a step of a call does one of these things to the proxy
* `Caller.Fate.stage_le` — no move takes a call back
* `Caller.Fate.loses`, `Caller.Fate.lost` — how a call comes to end its term, and to be through
  with it
-/

namespace Tenure

variable {α : Type}

/-- An operation that ends a term, at any of its steps. -/
inductive Operation.Ends (term : Term) : Operation → Prop
  | begun : Ends term (.invalidate term)
  | owed : Ends term (.release term.toHolding (.finish (.ended true)))
  | returning : Ends term (.releasing term.toHolding (.finish (.ended true)))
  | ended (won : Bool) : Ends term (.done (.ended won))

theorem Operation.Ends.advance {term : Term} {operation next : Operation} {ledger ledger' : Ledger}
    (h : operation.Ends term) (advance : Advance operation ledger next ledger') :
    next.Ends term := by
  cases h with
  | begun =>
    cases advance with
    | ended isServed => exact .owed
    | missed notServed => exact .ended false
  | owed =>
    cases advance
    exact .returning
  | returning =>
    cases advance
    exact .ended true
  | ended won =>
    cases advance
    exact .ended won

/-- Nothing was done to the proxy: what is served, what was numbered, built and released, and
whether the acquisition thread was told to stop, is as before. -/
structure Grounds.Spares (grounds left : Grounds) : Prop where
  register : left.register = grounds.register
  released : left.released = grounds.released
  terms : left.terms = grounds.terms
  brought : left.brought = grounds.brought
  stopped : left.stopped = grounds.stopped

theorem Grounds.spares_self (grounds : Grounds) : grounds.Spares grounds :=
  ⟨rfl, rfl, rfl, rfl, rfl⟩

theorem Grounds.spares_report (grounds : Grounds) (notices : List Notice) :
    grounds.Spares (grounds.report notices) :=
  ⟨rfl, rfl, rfl, rfl, rfl⟩

namespace Call

/-! ### One step of a call -/

/-- How far a call has come that ends its term. -/
def stage : Call α → Nat
  | ending _ (.invalidate _) => 1
  | ending _ (.release ..) => 2
  | ending _ (.releasing ..) => 3
  | ending .. => 4
  | rearm _ => 5
  | acquiring .. => 6
  | apologise .. | finished _ => 7
  | _ => 0

theorem stage_of_isBystander {call : Call α} (h : call.isBystander = true) :
    call.stage = 0 ∨ call.stage = 7 := by
  cases call with
  | apologise reason cause => exact .inr rfl
  | finished result => exact .inr rfl
  | ending cause operation => simp [isBystander] at h
  | rearm cause => simp [isBystander] at h
  | acquiring cause acquisition => simp [isBystander] at h
  | _ => exact .inl rfl

/-- What a step of a call that carries on no acquisition can do, given the term of the call: the
call and the grounds before, and after. -/
inductive StepEffect (taken : Option Term) (grounds : Grounds) : Call α → Call α → Grounds → Prop
  /-- It has no business with the end of its term. -/
  | aside {call next : Call α} (before : call.stage = 0 ∨ call.stage = 7)
      (after : next.stage = call.stage ∨ next.stage = 7) :
      StepEffect taken grounds call next grounds
  /-- Its term is taken out of service. -/
  | ends {cause : Option String} {term : Term} (hasTerm : taken = some term)
      (isServed : grounds.register.current = some term) :
      StepEffect taken grounds (ending cause (.invalidate term))
        (ending cause (.release term.toHolding (.finish (.ended true))))
        { grounds with register := { grounds.register with current := none } }
  /-- Its term is not served any more. -/
  | misses {cause : Option String} {term : Term} (hasTerm : taken = some term)
      (notServed : grounds.register.current ≠ some term) :
      StepEffect taken grounds (ending cause (.invalidate term))
        (ending cause (.done (.ended false))) grounds
  /-- The release of the delegate is begun. -/
  | releases {cause : Option String} {term : Term} (hasTerm : taken = some term) :
      StepEffect taken grounds (ending cause (.release term.toHolding (.finish (.ended true))))
        (ending cause (.releasing term.toHolding (.finish (.ended true))))
        { grounds with released := grounds.released ++ [term.delegate] }
  /-- The delegate has returned. -/
  | returns {cause : Option String} {term : Term} {left : Grounds} (spared : grounds.Spares left) :
      StepEffect taken grounds (ending cause (.releasing term.toHolding (.finish (.ended true))))
        (ending cause (.done (.ended true))) left
  | rearms {cause : Option String} :
      StepEffect taken grounds (ending cause (.done (.ended true))) (rearm cause) grounds
  | yields {cause : Option String} :
      StepEffect taken grounds (ending cause (.done (.ended false)))
        (apologise leadershipLost cause) grounds
  /-- The next acquisition is started. -/
  | starts {cause : Option String} (isOpen : grounds.register.closed = false) :
      StepEffect taken grounds (rearm cause) (acquiring cause .enter) grounds
  /-- The proxy is closed, and no acquisition is started. -/
  | desists {cause : Option String} (closed : grounds.register.closed = true) :
      StepEffect taken grounds (rearm cause) (apologise leadershipLost cause) grounds

/-- What a step of a call does that ends its term. -/
theorem stepEffect_of_ends {cause : Option String} {operation : Operation} {term : Term}
    {taken : Option Term} (h : operation.Ends term) (ht : taken = some term) (setting : Setting)
    (grounds : Grounds) (answers : Answers) :
    StepEffect (α := α) taken grounds (ending cause operation)
        ((ending cause operation).proceed setting grounds answers).1
        ((ending (α := α) cause operation).proceed setting grounds answers).2.1 ∧
      ((ending (α := α) cause operation).proceed setting grounds answers).2.2 = none := by
  have hadvance := operation.proceed_advance grounds.toLedger answers.release
  cases h with
  | begun =>
    refine ⟨?_, rfl⟩
    simp only [proceed, Operation.standing]
    generalize Operation.proceed _ _ (.invalidate term) = became at hadvance
    obtain ⟨next, ledger⟩ := became
    cases hadvance with
    | ended isServed => exact .ends ht isServed
    | missed notServed => exact .misses ht notServed
  | owed =>
    refine ⟨?_, rfl⟩
    simp only [proceed, Operation.standing]
    generalize Operation.proceed _ _ (.release _ _) = became at hadvance
    obtain ⟨next, ledger⟩ := became
    cases hadvance
    exact .releases ht
  | returning =>
    refine ⟨?_, rfl⟩
    simp only [proceed, Operation.standing]
    generalize Operation.proceed _ _ (.releasing _ _) = became at hadvance
    obtain ⟨next, ledger⟩ := became
    cases hadvance
    exact .returns ⟨rfl, rfl, rfl, rfl, rfl⟩
  | ended won =>
    refine ⟨?_, rfl⟩
    cases won with
    | true => exact .rearms
    | false => exact .yields

/-- A step of a call that carries on no acquisition does one of these things to the proxy. -/
theorem proceed_stepEffect {call : Call α} {taken : Option Term} (h : call.acquisition? = none)
    (ends : ∀ cause operation, call = ending cause operation →
      ∃ term, taken = some term ∧ operation.Ends term)
    (setting : Setting) (grounds : Grounds) (answers : Answers) :
    StepEffect taken grounds call (call.proceed setting grounds answers).1
        (call.proceed setting grounds answers).2.1 ∧
      (call.proceed setting grounds answers).2.2 = none := by
  by_cases hb : call.isBystander = true
  · obtain ⟨hnext, hrest⟩ := isBystander_proceed hb setting grounds answers
    rw [hrest]
    refine ⟨.aside (stage_of_isBystander hb) ?_, rfl⟩
    rcases stage_of_isBystander hb with hbefore | hafter
    · rw [hbefore]
      exact stage_of_isBystander hnext
    · cases call with
      | apologise reason cause => exact .inr rfl
      | finished result => exact .inr rfl
      | ending cause operation => simp [isBystander] at hb
      | _ => simp [stage] at hafter
  · cases call with
    | rearm cause =>
      refine ⟨?_, rfl⟩
      cases hc : grounds.register.closed with
      | false =>
        simp only [proceed, flagRead, hc]
        exact .starts hc
      | true =>
        simp only [proceed, flagRead, hc]
        exact .desists hc
    | ending cause operation =>
      obtain ⟨term, ht, hends⟩ := ends cause operation rfl
      exact stepEffect_of_ends hends ht setting grounds answers
    | acquiring cause acquisition => simp [acquisition?] at h
    | _ => exact absurd rfl hb

/-! ### How far a call has come -/

/-- Whether a call is through with a term that it could not rely upon. -/
def hasLost : Call α → Bool
  | ending _ (.invalidate _) => false
  | ending .. | rearm _ | acquiring .. | apologise .. => true
  | finished (.error (.notLeader _)) => true
  | _ => false

theorem acquisition?_of_stage {call : Call α} (h : call.stage ≠ 6) : call.acquisition? = none := by
  cases call with
  | acquiring cause acquisition => exact absurd rfl h
  | _ => rfl

/-- A call that has ended its term is between that and the look whether the proxy is open. -/
theorem stage_of_isArming {call : Call α} (h : call.isArming = true) :
    2 ≤ call.stage ∧ call.stage ≤ 5 := by
  cases call with
  | ending cause operation =>
    cases operation with
    | release | releasing | done => simp [stage]
    | _ => simp [isArming, Operation.settled] at h
  | rearm cause => simp [stage]
  | _ => simp [isArming] at h

theorem stage_of_hasLost {call : Call α} (h : call.hasLost = true) : 0 < call.stage := by
  cases call with
  | ending cause operation => cases operation <;> simp [stage]
  | rearm cause | acquiring cause acquisition | apologise reason cause | finished result =>
    simp [stage]
  | _ => simp [hasLost] at h

theorem hasLost_of_isArming {call : Call α} (h : call.isArming = true) : call.hasLost = true := by
  cases call with
  | ending cause operation =>
    cases operation with
    | invalidate term => simp [isArming, Operation.settled] at h
    | _ => rfl
  | rearm cause => rfl
  | _ => simp [isArming] at h

namespace StepEffect

variable {taken : Option Term} {grounds left : Grounds} {call next : Call α}

/-- No step takes a call back. -/
theorem stage_le (h : StepEffect taken grounds call next left) : call.stage ≤ next.stage := by
  cases h with
  | aside before after => omega
  | _ => simp [stage]

/-- A call that is at ending its term goes on with every step. -/
theorem stage_lt (h : StepEffect taken grounds call next left) (hpos : 0 < call.stage)
    (hlt : call.stage < 7) : call.stage < next.stage := by
  cases h with
  | aside before after => omega
  | _ => simp [stage]

/-- No step makes a call end its term that was not at it. -/
theorem stage_ne_one (h : StepEffect taken grounds call next left) : next.stage ≠ 1 := by
  cases h with
  | aside before after => omega
  | _ => simp [stage]

/-- A call that has ended its term goes on to look whether the proxy is open. -/
theorem isArming (h : StepEffect taken grounds call next left) (ha : call.isArming = true) :
    next.isArming = true ∨ ∃ cause, call = rearm cause := by
  cases h with
  | aside before after =>
    have := stage_of_isArming ha
    omega
  | ends | misses | yields => simp [Call.isArming, Operation.settled] at ha
  | releases | returns | rearms => exact .inl rfl
  | starts | desists => exact .inr ⟨_, rfl⟩

/-- A call comes to have ended its term by ending it. -/
theorem isArming_or (h : StepEffect taken grounds call next left) (ha : next.isArming = true) :
    call.isArming = true ∨ ∃ cause term, taken = some term ∧
      call = ending cause (.invalidate term) ∧ grounds.register.current = some term := by
  cases h with
  | aside before after =>
    have := stage_of_isArming ha
    omega
  | ends hasTerm isServed => exact .inr ⟨_, _, hasTerm, rfl, isServed⟩
  | misses | yields | starts | desists => simp [Call.isArming, Operation.settled] at ha
  | releases | returns | rearms => exact .inl rfl

end StepEffect

end Call

namespace Caller

variable {caller next : Caller α} {profile : Profile} {grounds : Grounds} {answers : Answers}
  {term : Term} {i : Nat} {move : Proxy.Move α}

/-- A call is at what it does with the term that it took, and has no term before it took one. -/
def Devoted (caller : Caller α) : Prop :=
  match caller.call with
  | .enter | .take | .excuse | .takeAgain _ => caller.term = none
  | .interrupted term _ => caller.term = some term
  | .ending _ operation => ∃ term, caller.term = some term ∧ operation.Ends term
  | _ => True

theorem devoted_make (style : Style) (mayWait : Bool) :
    (make (α := α) style mayWait).Devoted := by
  cases style <;> cases mayWait <;> simp [make, Devoted]

/-- Where a call that loses its term comes to, it goes with the term. -/
theorem devoted_lose (client : String) (cause : Option String) (ht : caller.term = some term) :
    Devoted { caller with call := (Call.lose client term cause).1 } :=
  ⟨term, ht, .begun⟩

theorem devoted_weigh (setting : Call.Setting) (result : Checked) {confirmed : Call α}
    (ht : caller.term = some term) (hc : Devoted { caller with call := confirmed }) :
    Devoted { caller with call := (Call.weigh setting term result confirmed).1 } := by
  unfold Call.weigh
  split
  · exact hc
  · exact devoted_lose setting.client none ht
  · trivial

theorem devoted_handle (setting : Call.Setting) (failure : DelegateFailure)
    (ht : caller.term = some term) :
    Devoted { caller with call := (Call.handle (α := α) setting term failure).1 } := by
  unfold Call.handle
  split
  · exact devoted_lose setting.client _ ht
  · exact ht
  · trivial

theorem Devoted.proceed (h : caller.Devoted) (profile : Profile) (grounds : Grounds)
    (answers : Answers) : (caller.proceed profile grounds answers).1.Devoted := by
  obtain ⟨style, call, taken, work, validation, checks⟩ := caller
  cases call with
  | enter =>
    simp only [Caller.proceed, Call.proceed, Call.flagRead, Devoted]
    cases grounds.register.closed with
    | false => exact h
    | true => trivial
  | take =>
    simp only [Caller.proceed, Call.proceed, Call.currentRead, Devoted]
    cases grounds.register.current <;> trivial
  | takeAgain hint =>
    simp only [Caller.proceed, Call.proceed, Call.currentRead, Devoted]
    cases grounds.register.current <;> trivial
  | excuse =>
    simp only [Caller.proceed, Call.proceed, Call.hintRead, Devoted]
    cases answers.hint with
    | none => trivial
    | some peer => exact h
  | begin begun =>
    simp only [Caller.proceed, begin, Devoted]
    cases style with
    | blocking => trivial
    | async => cases answers.refusal <;> cases answers.accepted <;> trivial
  | lookOpen begun value =>
    simp only [Caller.proceed, Call.proceed, Call.flagRead, Devoted]
    cases grounds.register.closed <;> trivial
  | rearm cause =>
    simp only [Caller.proceed, Call.proceed, Call.flagRead, Devoted]
    cases grounds.register.closed <;> trivial
  | lookServed begun value | interrupted begun failure =>
    by_cases hs : grounds.register.current = some begun
    · simp [Caller.proceed, Call.proceed, Call.currentRead, Devoted, hs]
    · simp [Caller.proceed, Call.proceed, Call.currentRead, Devoted, hs]
  | ending cause operation =>
    obtain ⟨term, ht, hends⟩ := h
    have hnext := hends.advance
      (operation.proceed_advance grounds.toLedger answers.release)
    cases hends with
    | ended won => cases won <;> trivial
    | _ => exact ⟨term, ht, hnext⟩
  | acquiring cause acquisition => cases acquisition <;> trivial
  | _ => exact h

/-! ### What a call hears -/

/-- What tells a call that its term is over. -/
inductive Loses (profile : Profile) (term : Term) (caller : Caller α) : Event α → Prop
  /-- Its operation has come to nothing, since the delegate does not lead any more. -/
  | operation {delegate : Nat} {failure : DelegateFailure}
      (awaited : caller.call = .underway term ∨ caller.call = .confirmed term)
      (failed : caller.work = .ended delegate (.failure failure))
      (kind : failure.kind = .notLeading) : Loses profile term caller .toldOperation
  /-- Its checks have come to where the term cannot be relied upon. A blocking call takes that in
  only once it has a value. -/
  | checks {result : Checked}
      (awaited : (caller.style = .async ∧ caller.call = .underway term) ∨
        ∃ value, caller.call = .operated term value)
      (resolved : caller.validation = some (.finished result))
      (stale : (Call.verdict profile.client result).1 = .ok .stale) :
      Loses profile term caller .toldChecks

theorem Loses.isWaiting {event : Event α} (h : caller.Loses profile term event) :
    caller.call.isWaiting = true := by
  cases h with
  | operation awaited failed kind => rcases awaited with hcall | hcall <;> rw [hcall] <;> rfl
  | checks awaited resolved stale =>
    rcases awaited with ⟨-, hcall⟩ | ⟨value, hcall⟩ <;> rw [hcall] <;> rfl

/-- A call is told so of its own term. -/
theorem Loses.term_eq {event : Event α} (h : caller.Loses profile term event)
    (hs : caller.AtStage) : caller.term = some term := by
  unfold AtStage at hs
  cases h with
  | operation awaited failed kind =>
    rcases awaited with hcall | hcall
    · simpa only [hcall] using hs
    · rw [hcall] at hs
      exact hs.1
  | checks awaited resolved stale =>
    rcases awaited with ⟨-, hcall⟩ | ⟨value, hcall⟩
    · simpa only [hcall] using hs
    · rw [hcall] at hs
      exact hs.1

/-- A call that is told so goes on to end its term. -/
theorem Loses.call {event : Event α} (h : caller.Loses profile term event) :
    ∃ cause, (caller.undergo profile event).1.call = .ending cause (.invalidate term) := by
  obtain ⟨style, waiting, taken, work, validation, checks⟩ := caller
  cases h with
  | @operation delegate failure awaited failed kind =>
    obtain rfl : work = .ended delegate (.failure failure) := failed
    refine ⟨some failure.message, ?_⟩
    rcases awaited with rfl | rfl <;>
      simp [undergo, tellOperation, Call.operationOver, Call.handle, kind, Call.lose]
  | @checks result awaited resolved stale =>
    obtain rfl : validation = some (.finished result) := resolved
    obtain ⟨notices, hverdict⟩ : ∃ notices,
        Call.verdict profile.client result = (.ok .stale, notices) := ⟨_, Prod.ext stale rfl⟩
    refine ⟨none, ?_⟩
    rcases awaited with ⟨rfl, rfl⟩ | ⟨value, rfl⟩ <;>
      simp [undergo, Run.result?, Call.checked, Profile.setting, Call.weigh, hverdict, Call.lose]

/-- A call gives up its term by the outcome of its checks only where the term cannot be relied
upon. -/
theorem weigh_stale (setting : Call.Setting) (term : Term) (result : Checked)
    (confirmed : Call α) (hstage : confirmed.stage ≠ 1) (hlost : confirmed.hasLost = false) :
    ((Call.verdict setting.client result).1 = .ok .stale ∧
        (Call.weigh setting term result confirmed).1 = .ending none (.invalidate term)) ∨
      (Call.weigh setting term result confirmed).1.stage ≠ 1 ∧
        (Call.weigh setting term result confirmed).1.hasLost = false := by
  match result with
  | .ok .leading => exact .inr ⟨hstage, hlost⟩
  | .ok .notLeading | .ok .noQuorum => exact .inl ⟨rfl, rfl⟩
  | .error (.attempt failure) => exact .inl ⟨rfl, rfl⟩
  | .error (.executor failure) => exact .inr ⟨by simp [Call.weigh, Call.verdict, Call.stage], rfl⟩
  | .error .cancelled => exact .inr ⟨by simp [Call.weigh, Call.verdict, Call.stage], rfl⟩

/-- What happens around a call leaves the call alone, tells it that its term is over, or is heard
of while it waits and is no reason to end the term. -/
theorem undergo_cases (profile : Profile) (caller : Caller α) (event : Event α) :
    (caller.undergo profile event).1.call = caller.call ∨
      (∃ term cause, caller.call.isWaiting = true ∧ caller.Loses profile term event ∧
        (caller.undergo profile event).1.call = .ending cause (.invalidate term)) ∨
      caller.call.isWaiting = true ∧ (caller.undergo profile event).1.call.stage ≠ 1 ∧
        (caller.undergo profile event).1.call.hasLost = false := by
  cases event with
  | operationOver outcome | checkHandedOver refusal | delayOver | checksCalledOff =>
    exact .inl rfl
  | operationBegun =>
    left
    simp only [undergo]
    split <;> rfl
  | checkBegun =>
    obtain ⟨checks, hbegun⟩ := caller.beginCheck_eq
    left
    simp only [undergo, hbegun]
  | checkOver delivery =>
    obtain ⟨validation, checks, notices, hfinished, -⟩ := caller.finishCheck_eq profile delivery
    left
    simp only [undergo, hfinished]
  | toldOperation =>
    obtain ⟨style, call, taken, work, validation, checks⟩ := caller
    cases work with
    | ended delegate outcome =>
      cases call with
      | underway term | confirmed term =>
        right
        cases outcome with
        | value value => exact .inr ⟨rfl, by simp [undergo, tellOperation, Call.operationOver,
            Call.stage], rfl⟩
        | lost => exact .inr ⟨rfl, by simp [undergo, tellOperation, Call.operationOver,
            Call.stage], rfl⟩
        | failure failure =>
          simp only [undergo, tellOperation, Call.operationOver, Call.handle]
          cases hk : failure.kind with
          | notLeading => exact .inl ⟨term, _, rfl, .operation (by simp) rfl hk, rfl⟩
          | interrupted => exact .inr ⟨rfl, by simp [Call.stage], rfl⟩
          | other => exact .inr ⟨rfl, by simp [Call.stage], rfl⟩
      | _ => exact .inl rfl
    | _ => exact .inl rfl
  | toldChecks =>
    obtain ⟨style, call, taken, work, validation, checks⟩ := caller
    simp only [undergo]
    split
    · rename_i result hresult
      -- there is a result only of a run that is finished
      have hover : validation = some (.finished result) := by
        obtain ⟨run, rfl, hrun⟩ := Option.bind_eq_some_iff.mp hresult
        cases run with
        | finished _ => rw [Option.some.inj hrun]
        | _ => simp [Run.result?] at hrun
      cases call with
      | underway term =>
        cases style with
        | blocking => exact .inl rfl
        | async =>
          right
          rcases weigh_stale (profile.setting .async) term result (.confirmed term)
            (by simp [Call.stage]) rfl with ⟨hstale, hcall⟩ | hother
          · exact .inl ⟨term, none, rfl, .checks (.inl ⟨rfl, rfl⟩) hover hstale, hcall⟩
          · exact .inr ⟨rfl, hother⟩
      | operated term value =>
        right
        rcases weigh_stale (profile.setting style) term result (.lookOpen term value)
          (by simp [Call.stage]) rfl with ⟨hstale, hcall⟩ | hother
        · exact .inl ⟨term, none, rfl, .checks (.inr ⟨value, rfl⟩) hover hstale, hcall⟩
        · exact .inr ⟨rfl, hother⟩
      | _ => exact .inl rfl
    · exact .inl rfl
  | dropped =>
    obtain ⟨style, call, taken, work, validation, checks⟩ := caller
    cases style with
    | blocking => exact .inl rfl
    | async =>
      cases call with
      | underway term | operated term value | confirmed term =>
        exact .inr (.inr ⟨rfl, by simp [undergo, Call.stage], rfl⟩)
      | _ => exact .inl rfl

/-- A call that hears what has become of its operation or its checks stays at what it does with its
term. -/
theorem Hears.devoted {call : Call α} {notices : List Notice}
    (h : caller.Hears profile call notices) (hd : caller.Devoted) (hs : caller.AtStage) :
    Devoted { caller with call } := by
  obtain ⟨style, waiting, taken, work, validation, checks⟩ := caller
  cases h with
  | nothing | check attempt delivery => exact hd
  | operation outcome =>
    cases waiting with
    | underway begun =>
      cases outcome with
      | value value | lost => trivial
      | failure failure => exact devoted_handle _ failure hs
    | confirmed begun =>
      cases outcome with
      | value value | lost => trivial
      | failure failure => exact devoted_handle _ failure hs.1
    | _ => exact hd
  | checks result =>
    cases waiting with
    | underway begun =>
      cases style with
      | blocking => trivial
      | async => exact devoted_weigh _ result hs trivial
    | operated begun value => exact devoted_weigh _ result hs.1 trivial
    | _ => exact hd
  | lost failure waits => trivial

theorem Devoted.fate {most : Nat} (h : caller.Devoted) (hc : caller.Coherent most)
    (hfate : caller.Fate profile grounds i move next) : next.Devoted := by
  cases hfate with
  | unmoved => exact h
  | proceeds answers => exact h.proceed profile grounds answers
  | undergoes event =>
    have hheard := (caller.undergo_hears profile event).devoted h hc.stage
    have hterm := caller.term_undergo profile event
    -- only the call and its term matter
    simp only [Devoted, hterm] at hheard ⊢
    exact hheard

/-- What a call does that goes on by itself and carries on no acquisition. -/
theorem Devoted.proceed_stepEffect (h : caller.Devoted) (hnone : caller.call.acquisition? = none)
    (profile : Profile) (grounds : Grounds) (answers : Answers) :
    Call.StepEffect caller.term grounds caller.call (caller.proceed profile grounds answers).1.call
        (caller.proceed profile grounds answers).2.1 ∧
      (caller.proceed profile grounds answers).2.2 = none := by
  have hends (cause : Option String) (operation : Operation)
      (hcall : caller.call = .ending cause operation) :
      ∃ term, caller.term = some term ∧ operation.Ends term := by
    simpa only [Devoted, hcall] using h
  have heffect := Call.proceed_stepEffect hnone hends (profile.setting caller.style) grounds answers
  rw [proceed_left]
  rcases caller.call_proceed profile grounds answers with hcall | ⟨term, refusal, hbegin, hcall⟩
  · rw [hcall]
    exact heffect
  · -- the begin of the operation leaves the grounds alone
    refine ⟨?_, heffect.2⟩
    rw [hcall, hbegin]
    cases refusal with
    | none => exact .aside (.inl rfl) (.inl rfl)
    | some failure => exact .aside (.inl rfl) (.inr rfl)

/-- A call that gives up on its term leaves a proxy where the term is not served. -/
theorem lost_proceed (hd : caller.Devoted) (hs : caller.AtStage)
    (hlost : (caller.proceed profile grounds answers).1.call.hasLost = true)
    (hbefore : caller.call.hasLost = false)
    (hterm : (caller.proceed profile grounds answers).1.term = some term) :
    (caller.proceed profile grounds answers).2.1.register.current ≠ some term := by
  obtain ⟨style, call, taken, work, validation, checks⟩ := caller
  cases call with
  | enter | lookOpen begun value =>
    cases hc : grounds.register.closed <;>
      simp [Caller.proceed, Call.proceed, Call.flagRead, hc, Call.hasLost] at hlost
  | take =>
    cases hc : grounds.register.current <;>
      simp [Caller.proceed, Call.proceed, Call.currentRead, hc, Call.hasLost] at hlost
  | takeAgain hint =>
    -- it gives up only where nothing is served
    intro hserved
    have hserved : grounds.register.current = some term := hserved
    simp [Caller.proceed, Call.proceed, Call.currentRead, hserved, Call.hasLost] at hlost
  | excuse =>
    -- it has taken no term
    obtain rfl : taken = none := hd
    exact absurd hterm (by simp [Caller.proceed, Call.proceed])
  | begin begun =>
    rcases (Caller.mk style (.begin begun) taken work validation checks).call_proceed profile
      grounds answers with hcall | ⟨_, refusal, -, hcall⟩
    · rw [hcall] at hlost
      simp [Call.proceed, Call.hasLost] at hlost
    · rw [hcall] at hlost
      cases refusal <;> simp [Call.begun, Call.hasLost] at hlost
  | lookServed begun value | interrupted begun failure =>
    have htaken : taken = some begun := by
      first
        | exact hs.1.1
        | exact hd
    obtain rfl : term = begun := Option.some.inj (hterm.symm.trans htaken)
    intro hserved
    have hserved : grounds.register.current = some term := hserved
    simp [Caller.proceed, Call.proceed, Call.currentRead, hserved, Call.hasLost] at hlost
  | ending cause operation =>
    obtain ⟨begun, htaken, hends⟩ := hd
    obtain rfl : begun = term := Option.some.inj (htaken.symm.trans hterm)
    cases hends with
    | begun =>
      have hadvance :=
        Operation.proceed_advance grounds.toLedger answers.release (.invalidate begun)
      simp only [Caller.proceed, Call.proceed, Operation.standing]
      generalize Operation.proceed _ _ (.invalidate begun) = became at hadvance
      obtain ⟨next, ledger⟩ := became
      cases hadvance with
      | ended isServed => simp
      | missed notServed => exact notServed
    | _ => simp [Call.hasLost] at hbefore
  | rearm cause | acquiring cause acquisition | apologise reason cause =>
    simp [Call.hasLost] at hbefore
  | underway begun | operated begun value | confirmed begun | finished result =>
    exact absurd (hlost.symm.trans hbefore) (by simp)

/-- A call that carries on an acquisition has that done, or goes on with it. -/
theorem stage_of_acquisition? {started : Acquisition}
    (h : caller.call.acquisition? = some started) (profile : Profile) (grounds : Grounds)
    (answers : Answers) :
    caller.call.stage = 6 ∧ 6 ≤ (caller.proceed profile grounds answers).1.call.stage := by
  obtain ⟨style, call, taken, work, validation, checks⟩ := caller
  cases call with
  | acquiring cause acquisition =>
    cases acquisition <;> simp [Caller.proceed, Call.proceed, Call.acquired, Call.stage]
  | _ => simp [Call.acquisition?] at h

/-- A call that is at ending its term keeps it. -/
theorem term_proceed_of_stage (hpos : 0 < caller.call.stage) :
    (caller.proceed profile grounds answers).1.term = caller.term := by
  rcases caller.term_proceed profile grounds answers with hsame | ⟨hlook, -⟩
  · exact hsame
  · rcases hlook with hlook | ⟨hint, hlook⟩ <;> simp [hlook, Call.stage] at hpos

/-! ### What a fate makes of it -/

theorem stage_of_isWaiting (h : caller.call.isWaiting = true) : caller.call.stage = 0 := by
  cases hcall : caller.call with
  | underway begun | operated begun value | confirmed begun => rfl
  | _ => simp [hcall, Call.isWaiting] at h

/-- A call that is at ending its term goes on by itself, and keeps the term. -/
theorem Fate.of_stage (hfate : caller.Fate profile grounds i move next)
    (hpos : 0 < caller.call.stage) :
    next.term = caller.term ∧ (next.call = caller.call ∨ ∃ answers,
      move = .proceed i answers ∧ next = (caller.proceed profile grounds answers).1) := by
  cases hfate with
  | unmoved => exact ⟨rfl, .inl rfl⟩
  | proceeds answers => exact ⟨term_proceed_of_stage hpos, .inr ⟨answers, rfl, rfl⟩⟩
  | undergoes event =>
    refine ⟨caller.term_undergo profile event, .inl ?_⟩
    rcases caller.undergo_cases profile event with hsame | ⟨_, _, hwaits, -⟩ | ⟨hwaits, -⟩
    · exact hsame
    · rw [stage_of_isWaiting hwaits] at hpos
      omega
    · rw [stage_of_isWaiting hwaits] at hpos
      omega

/-- Nothing takes a call back. -/
theorem Fate.stage_le (hfate : caller.Fate profile grounds i move next) (hd : caller.Devoted) :
    caller.call.stage ≤ next.call.stage := by
  rcases Nat.eq_zero_or_pos caller.call.stage with hzero | hpos
  · omega
  · obtain ⟨-, hsame | ⟨answers, -, rfl⟩⟩ := hfate.of_stage hpos
    · exact Nat.le_of_eq (congrArg Call.stage hsame).symm
    · cases hstarted : caller.call.acquisition? with
      | none => exact (hd.proceed_stepEffect hstarted profile grounds answers).1.stage_le
      | some started =>
        obtain ⟨hbefore, hnext⟩ := stage_of_acquisition? hstarted profile grounds answers
        omega

/-- A call that has ended its term, and had not before, ends it now. -/
theorem Fate.armed (hfate : caller.Fate profile grounds i move next) (hd : caller.Devoted)
    (hnext : next.call.isArming = true) (hbefore : caller.call.isArming = false) :
    ∃ answers cause term, move = .proceed i answers ∧ caller.term = some term ∧
      caller.call = .ending cause (.invalidate term) ∧
      grounds.register.current = some term := by
  have hold : caller.call.isArming ≠ true := by simp [hbefore]
  cases hfate with
  | unmoved => exact absurd hnext hold
  | proceeds answers =>
    cases hstarted : caller.call.acquisition? with
    | none =>
      rcases (hd.proceed_stepEffect hstarted profile grounds answers).1.isArming_or hnext with
        harming | ⟨cause, term, hterm, hcall, hserved⟩
      · exact absurd harming hold
      · exact ⟨answers, cause, term, rfl, hterm, hcall, hserved⟩
    | some started =>
      obtain ⟨-, hstage⟩ := stage_of_acquisition? hstarted profile grounds answers
      have := Call.stage_of_isArming hnext
      omega
  | undergoes event =>
    rcases caller.undergo_cases profile event with hsame | ⟨_, _, -, -, hcall⟩ | ⟨-, -, hlost⟩
    · rw [hsame] at hnext
      exact absurd hnext hold
    · rw [hcall] at hnext
      simp [Call.isArming, Operation.settled] at hnext
    · rw [Call.hasLost_of_isArming hnext] at hlost
      simp at hlost

/-- A call that is about to take its term out of service, and was not before, has just learnt that
the term is over. -/
theorem Fate.loses {cause : Option String} (hfate : caller.Fate profile grounds i move next)
    (hd : caller.Devoted) (hnext : next.call = .ending cause (.invalidate term))
    (hbefore : caller.call ≠ .ending cause (.invalidate term)) :
    ∃ event, move = .undergo i event ∧ caller.Loses profile term event := by
  cases hfate with
  | unmoved => exact absurd hnext hbefore
  | proceeds answers =>
    have hone : (caller.proceed profile grounds answers).1.call.stage = 1 := by rw [hnext]; rfl
    cases hstarted : caller.call.acquisition? with
    | none =>
      exact absurd hone (hd.proceed_stepEffect hstarted profile grounds answers).1.stage_ne_one
    | some started =>
      obtain ⟨-, hstage⟩ := stage_of_acquisition? hstarted profile grounds answers
      omega
  | undergoes event =>
    refine ⟨event, rfl, ?_⟩
    rcases caller.undergo_cases profile event with hsame | ⟨_, _, -, hloses, hcall⟩ | ⟨-, hstage, -⟩
    · exact absurd (hsame.symm.trans hnext) hbefore
    · obtain ⟨-, hterm⟩ := Call.ending.inj (hcall.symm.trans hnext)
      obtain rfl := Operation.invalidate.inj hterm
      exact hloses
    · simp [hnext, Call.stage] at hstage

/-- A call that has given up on its term, and had not before, leaves a proxy where the term is not
served. -/
theorem Fate.lost (hfate : caller.Fate profile grounds i move next) (hd : caller.Devoted)
    (hs : caller.AtStage) (hnext : next.call.hasLost = true)
    (hbefore : caller.call.hasLost = false) (hterm : next.term = some term) :
    ∃ answers, move = .proceed i answers ∧
      (caller.proceed profile grounds answers).2.1.register.current ≠ some term := by
  have hold : caller.call.hasLost ≠ true := by simp [hbefore]
  cases hfate with
  | unmoved => exact absurd hnext hold
  | proceeds answers => exact ⟨answers, rfl, lost_proceed hd hs hnext hbefore hterm⟩
  | undergoes event =>
    rcases caller.undergo_cases profile event with hsame | ⟨_, _, -, -, hcall⟩ | ⟨-, -, hlost⟩
    · rw [hsame] at hnext
      exact absurd hnext hold
    · rw [hcall] at hnext
      simp [Call.hasLost] at hnext
    · rw [hnext] at hlost
      simp at hlost

end Caller

end Tenure
