import Mathlib.Data.Nat.Init
import Tenure.Proofs.Proxy.Caller
import Tenure.Proofs.Proxy.Company
import Tenure.Proxy.Concourse

/-!
# The company of a proxy

Every move at a proxy is a number of strides of its company: what a call, an acquisition or a
closing does next is found among the things that a company can do, whatever the surroundings
answer.

## Main definitions

* `Party.phase`, `Proxy.company` — the parties of a proxy by their phases

## Main results

* `Proxy.step_strides` — every move is a number of strides
* `Proxy.sound_after` — the laws of companies hold after every schedule
-/

namespace Tenure

/-- What an acquisition does, as far as the register is concerned. -/
def Acquisition.phase : Acquisition → Phase
  | publishing operation => .working .publication operation
  | refused _ => .refused
  | finished => .resting
  | _ => .seeking

/-- What a call does, as far as the register is concerned. -/
def Call.phase {α : Type} : Call α → Phase
  | ending _ operation => .working .ending operation
  | rearm _ => .arming
  | acquiring _ acquisition => acquisition.phase
  | _ => .resting

/-- What a closing does, as far as the register is concerned. -/
def Closing.phase : Closing → Phase
  | shutting operation => .working .closing operation
  | stopping => .stopping
  | finished => .stopped

/-- What a party does, as far as the register is concerned. -/
def Party.phase {α : Type} : Party α → Phase
  | calling caller => caller.call.phase
  | acquiring acquisition => acquisition.phase
  | closing next => next.phase

/-- The parties of a proxy by their phases. -/
def Proxy.company {α : Type} (proxy : Proxy α) : Company where
  toGrounds := proxy.toGrounds
  phases := proxy.parties.map (·.phase)

namespace Company

/-- The party at a place has come to another phase and has left these grounds; a party that it
has sent out joins. -/
def settle (company : Company) (i : Nat) (next : Phase) (grounds : Grounds)
    (sent : Option Phase) : Company where
  toGrounds := grounds
  phases := company.phases.set i next ++ sent.toList

variable {company : Company} {i : Nat} {phase next : Phase} {notices : List Notice}

theorem settle_self (here : company.phases[i]? = some phase) :
    company.settle i phase company.toGrounds none = company := by
  obtain ⟨hi, rfl⟩ := List.getElem?_eq_some_iff.mp here
  simp [settle]

theorem report_nil (grounds : Grounds) : grounds.report [] = grounds := by
  simp [Grounds.report, Ledger.note]

/-- A party may report something, and may turn to something else. -/
theorem strides_turn (here : company.phases[i]? = some phase) (notices : List Notice)
    (smooth : Notice.Smooth notices)
    (turn : next = phase ∨ Phase.Turn company.register.closed company.stopped phase next) :
    Strides company (company.settle i next (company.report notices) none) := by
  have hnote : Strides company { company with toGrounds := company.report notices } :=
    .single (.note notices smooth)
  rcases turn with rfl | turn
  · have hself : Company.settle { company with toGrounds := company.report notices } i next
        (company.report notices) none = { company with toGrounds := company.report notices } :=
      settle_self here
    rwa [← hself] at hnote
  · have hturn : Stride { company with toGrounds := company.report notices }
        { company with
          toGrounds := company.report notices
          phases := company.phases.set i next } := .turn here turn
    simpa [settle] using hnote.tail hturn

/-- A party that says nothing may turn to something else. -/
theorem strides_turn_silently (here : company.phases[i]? = some phase)
    (turn : next = phase ∨ Phase.Turn company.register.closed company.stopped phase next) :
    Strides company (company.settle i next company.toGrounds none) := by
  have hturn := strides_turn here [] (by simp [Notice.Smooth]) turn
  rwa [report_nil] at hturn

theorem strides_advance {kind : Operation.Kind} {operation : Operation}
    (here : company.phases[i]? = some (.working kind operation)) (how : Operation.Return) :
    Strides company
      (company.settle i (.working kind (operation.proceed company.toLedger how).1)
        { company.toGrounds with toLedger := (operation.proceed company.toLedger how).2 }
        none) := by
  have hadvance : Stride company _ :=
    .advance here (operation.proceed_advance company.toLedger how)
  exact .single (by simpa [settle] using hadvance)

end Company

open Company

/-! ### Acquisitions -/

namespace Acquisition

theorem flagRead_smooth (client : String) (closed : Bool) (acquisition : Acquisition) :
    Notice.Smooth (acquisition.flagRead client closed).2 := by
  intro term generation hm
  cases acquisition with
  | refused failure => cases closed <;> simp [flagRead] at hm
  | excuse failure failures =>
    cases closed with
    | false => cases failure <;> simp [flagRead, waitNotice] at hm
    | true => simp [flagRead] at hm
  | again known failures => cases known <;> simp [flagRead] at hm
  | _ => simp [flagRead] at hm

theorem built_smooth (client : String) (result : Except String Nat) (acquisition : Acquisition) :
    Notice.Smooth (acquisition.built client result).2 := by
  intro term generation hm
  cases acquisition with
  | building site token failures => cases result <;> simp [built] at hm
  | _ => simp [built] at hm

theorem published_smooth (client : String) (term : Option Term) (acquisition : Acquisition) :
    Notice.Smooth (acquisition.published client term).2 := by
  intro term' generation hm
  cases acquisition with
  | publishing operation => cases term <;> simp [published] at hm
  | _ => simp [published] at hm

theorem phase_prepare (token : Token) (failures : UInt32) :
    (prepare token failures).phase = .seeking := by
  unfold prepare
  split <;> rfl

/-- The look whether the proxy is open ends an acquisition where it is closed, and ends one whose
work was refused in any case. -/
theorem flagRead_turn (client : String) (closed stopped : Bool) (acquisition : Acquisition) :
    (acquisition.flagRead client closed).1.phase = acquisition.phase ∨
      Phase.Turn closed stopped acquisition.phase
        (acquisition.flagRead client closed).1.phase := by
  cases acquisition with
  | enter | relax failures | confirm token failures =>
    cases closed with
    | false => exact .inl rfl
    | true => exact .inr (.quits rfl)
  | refused failure => exact .inr .givesUp
  | again known failures =>
    cases closed with
    | false =>
      left
      cases known with
      | none => rfl
      | some token => exact phase_prepare token failures
    | true => cases known <;> exact .inr (.quits rfl)
  | _ => exact .inl rfl

theorem phase_of_isDroppable {acquisition : Acquisition}
    (h : acquisition.isDroppable = true) : acquisition.phase = .seeking := by
  cases acquisition <;> first | rfl | simp [isDroppable] at h

theorem phase_held (token : Option Token) : (ask.held token).phase = .seeking := by
  cases token <;> rfl

theorem phase_waited (result : Except ElectionFailure Token) (failures : UInt32) :
    ((waiting failures).waited result).phase = .seeking := by
  cases result with
  | ok token => exact phase_prepare token failures
  | error failure => rfl

variable {company : Company} {i : Nat}

/-- A construction brings a delegate, or the acquisition goes on to seek. -/
theorem built_strides (client : String) (failure : Option String) {site : Site} {token : Token}
    {failures : UInt32} (here : company.phases[i]? = some .seeking) :
    let result := company.construct failure
    let became := (building site token failures).built client result.1
    Strides company (company.settle i became.1.phase (result.2.report became.2) none) := by
  intro result became
  cases failure with
  | none =>
    have hbuilt : Stride company _ := .built token here
    have hgrounds : result.2.report became.2 = { company.toGrounds with
        brought := company.brought + 1 } := report_nil _
    have hphase : became.1.phase =
        .working .publication (.publish ⟨token, company.brought + 1⟩) := rfl
    rw [hgrounds, hphase]
    exact .single (by simpa [settle] using hbuilt)
  | some failure =>
    refine strides_turn here _ (built_smooth client _ _) (.inl ?_)
    cases site <;> rfl

/-- What an acquisition does next, its company can do. -/
theorem proceed_strides (client : String) (answers : Answers) (acquisition : Acquisition)
    (here : company.phases[i]? = some acquisition.phase) :
    let became := acquisition.proceed client company.toGrounds answers
    Strides company
      (company.settle i became.1.phase became.2.1 (became.2.2.map Acquisition.phase)) := by
  intro became
  have hflag := strides_turn here _ (acquisition.flagRead_smooth client company.register.closed)
    (acquisition.flagRead_turn client company.register.closed company.stopped)
  cases acquisition with
  | enter | refused failure | again known failures | excuse failure failures | relax failures
  | confirm token failures => exact hflag
  | ask => exact strides_turn_silently here (.inl (phase_held answers.held))
  | handOver known failures =>
    -- the thread that was told to stop takes no work, and the acquisition hears of it
    cases hstopped : company.stopped with
    | false =>
      have hsent : Strides company (company.settle i .resting company.toGrounds (some .seeking)) :=
        .single (.handedOver here)
      have hbecame : became = (finished, company.toGrounds, some (queued known failures)) := by
        simp [became, proceed, handedOver, refusal, hstopped]
      rw [hbecame]
      exact hsent
    | true =>
      have hrefused : Strides company (company.settle i .refused company.toGrounds none) :=
        strides_turn_silently here (.inr (.refused hstopped))
      have hbecame : became =
          (refused (.shutDown ("leader-proxy-acquire-" ++ client)), company.toGrounds, none) := by
        simp [became, proceed, handedOver, refusal, hstopped]
      rw [hbecame]
      exact hrefused
  | queued known failures | wait failures | build site token failures | gainPause failures
  | buildPause token failures => exact strides_turn_silently here (.inl rfl)
  | waiting failures =>
    exact strides_turn_silently here (.inl (phase_waited answers.waited failures))
  | building site token failures => exact built_strides client answers.construction here
  | publishing operation =>
    -- the operation proceeds, unless the publication is over
    cases operation with
    | done outcome =>
      cases outcome with
      | published term =>
        exact strides_turn here _
          (published_smooth client term (publishing (.done (.published term))))
          (.inr (.published term))
      | _ => exact strides_advance here answers.release
    | _ => exact strides_advance here answers.release
  | finished => exact strides_turn_silently here (.inl rfl)

end Acquisition

/-! ### Closings and calls -/

section

variable {company : Company} {i : Nat}

/-- What a closing does next, its company can do. -/
theorem Closing.proceed_strides (answers : Answers) (closing : Closing)
    (here : company.phases[i]? = some closing.phase) :
    let became := closing.proceed company.toGrounds answers
    Strides company (company.settle i became.1.phase became.2 none) := by
  intro became
  cases closing with
  | shutting operation =>
    cases operation with
    | done outcome => exact strides_turn_silently here (.inr (.shut outcome))
    | _ => exact strides_advance here answers.release
  | stopping =>
    -- the acquisition thread is told to stop after the register was closed
    have hstops : Stride company _ := .stops here
    exact .single (by simpa [became, Closing.proceed, Closing.phase, settle] using hstops)
  | finished => exact strides_turn_silently here (.inl rfl)

end

namespace Call

variable {α : Type} {company : Company} {i : Nat}

theorem phase_currentRead (current : Option Term) (call : Call α) :
    (call.currentRead current).phase = call.phase := by
  cases call with
  | take | takeAgain hint => cases current <;> rfl
  | lookServed term value | interrupted term failure =>
    simp only [currentRead]
    split <;> rfl
  | _ => rfl

theorem phase_hintRead (hint : Option HostAndPort) (call : Call α) :
    (call.hintRead hint).phase = call.phase := by
  cases call with
  | excuse => cases hint <;> rfl
  | _ => rfl

theorem phase_begun (refusal : Option ExecutorFailure) (call : Call α) :
    (call.begun refusal).phase = call.phase := by
  cases call with
  | begin term => cases refusal <;> rfl
  | _ => rfl

/-- A call that looks whether the proxy is open may begin the next acquisition. -/
theorem flagRead_turn (setting : Setting) (closed stopped : Bool) (call : Call α) :
    (call.flagRead setting closed).phase = call.phase ∨
      Phase.Turn closed stopped call.phase (call.flagRead setting closed).phase := by
  cases call with
  | rearm cause =>
    cases closed with
    | false => exact .inr .rearms
    | true => exact .inr (.desists rfl)
  | enter | lookOpen term value => cases closed <;> exact .inl rfl
  | _ => exact .inl rfl

/-- A call that learns that its term may be over ends it, and otherwise rests. -/
theorem weigh_turn (setting : Setting) (term : Term) (result : Checked) {confirmed : Call α}
    (hc : confirmed.phase = .resting) (closed stopped : Bool) :
    (weigh setting term result confirmed).1.phase = .resting ∨
      Phase.Turn closed stopped .resting (weigh setting term result confirmed).1.phase := by
  unfold weigh
  split
  · exact .inl hc
  · exact .inr (.loses term)
  · exact .inl rfl

theorem handle_turn (setting : Setting) (term : Term) (failure : DelegateFailure)
    (closed stopped : Bool) :
    (handle (α := α) setting term failure).1.phase = .resting ∨
      Phase.Turn closed stopped .resting (handle (α := α) setting term failure).1.phase := by
  unfold handle
  split
  · exact .inr (.loses term)
  · exact .inl rfl
  · exact .inl rfl

/-- A call that is told what its checks have come to may lose its term. -/
theorem checked_turn (setting : Setting) (result : Checked) (closed stopped : Bool)
    (call : Call α) :
    (call.checked setting result).1.phase = call.phase ∨
      Phase.Turn closed stopped call.phase (call.checked setting result).1.phase := by
  cases call with
  | underway term =>
    unfold checked
    cases setting.style with
    | blocking => exact .inl rfl
    | async => exact weigh_turn setting term result rfl closed stopped
  | operated term value => exact weigh_turn setting term result rfl closed stopped
  | _ => exact .inl rfl

/-- A call that is told what its operation has come to may lose its term. -/
theorem operationOver_turn (setting : Setting) (outcome : Outcome α) (closed stopped : Bool)
    (call : Call α) :
    (call.operationOver setting outcome).1.phase = call.phase ∨
      Phase.Turn closed stopped call.phase (call.operationOver setting outcome).1.phase := by
  cases call with
  | underway term | confirmed term =>
    cases outcome with
    | failure failure => exact handle_turn setting term failure closed stopped
    | _ => exact .inl rfl
  | _ => exact .inl rfl

theorem verdict_smooth (client : String) (result : Checked) :
    Notice.Smooth (verdict client result).2 := by
  intro term generation hm
  match result with
  | .ok .leading | .ok .notLeading | .ok .noQuorum => simp [verdict] at hm
  | .error (.attempt failure) => simp [verdict] at hm
  | .error (.executor failure) => simp [verdict] at hm
  | .error .cancelled => simp [verdict] at hm

theorem weigh_smooth (setting : Setting) (term : Term) (result : Checked) (confirmed : Call α) :
    Notice.Smooth (weigh setting term result confirmed).2 := by
  have hverdict := verdict_smooth setting.client result
  intro term' generation hm
  unfold weigh at hm
  split at hm
  · rename_i heq
    rw [heq] at hverdict
    exact hverdict term' generation hm
  · rename_i heq
    rw [heq] at hverdict
    rcases List.mem_append.mp hm with hm | hm
    · exact hverdict term' generation hm
    · simp [lose] at hm
  · rename_i heq
    rw [heq] at hverdict
    exact hverdict term' generation hm

theorem checked_smooth (setting : Setting) (result : Checked) (call : Call α) :
    Notice.Smooth (call.checked setting result).2 := by
  cases call with
  | underway term =>
    unfold checked
    cases setting.style with
    | blocking => simp [Notice.Smooth]
    | async => exact weigh_smooth setting term result _
  | operated term value => exact weigh_smooth setting term result _
  | _ => simp [checked, Notice.Smooth]

theorem operationOver_smooth (setting : Setting) (outcome : Outcome α) (call : Call α) :
    Notice.Smooth (call.operationOver setting outcome).2 := by
  have hhandle (term : Term) (failure : DelegateFailure) :
      Notice.Smooth (handle (α := α) setting term failure).2 := by
    unfold handle
    split <;> simp [lose, Notice.Smooth]
  cases call with
  | underway term | confirmed term =>
    cases outcome with
    | failure failure => exact hhandle term failure
    | _ => simp [operationOver, Notice.Smooth]
  | _ => simp [operationOver, Notice.Smooth]

/-- What a call does next, its company can do. -/
theorem proceed_strides (setting : Setting) (answers : Answers) (call : Call α)
    (here : company.phases[i]? = some call.phase) :
    let became := call.proceed setting company.toGrounds answers
    Strides company
      (company.settle i became.1.phase became.2.1 (became.2.2.map Acquisition.phase)) := by
  intro became
  -- the looks that a call can take, one of which is the one it takes
  have hflag := strides_turn_silently here
    (call.flagRead_turn setting company.register.closed company.stopped)
  have hcurrent := strides_turn_silently here
    (.inl (call.phase_currentRead company.register.current))
  have hhint := strides_turn_silently here (.inl (call.phase_hintRead answers.hint))
  cases call with
  | enter | lookOpen term value | rearm cause => exact hflag
  | take | takeAgain hint | lookServed term value | interrupted term failure => exact hcurrent
  | excuse | apologise reason cause => exact hhint
  | ending cause operation =>
    -- the operation proceeds, unless the ending is over
    cases operation with
    | done outcome =>
      cases outcome with
      | ended won =>
        cases won with
        | false => exact strides_turn_silently here (.inr .missed)
        | true => exact strides_turn_silently here (.inr .won)
      | _ => exact strides_advance here answers.release
    | _ => exact strides_advance here answers.release
  | acquiring cause acquisition =>
    have hproceed := acquisition.proceed_strides setting.client answers here
    cases acquisition with
    | finished => exact strides_turn_silently here (.inl rfl)
    | _ => exact hproceed
  | begin taken | underway taken | operated taken value | confirmed taken | finished result =>
    exact strides_turn_silently here (.inl rfl)

end Call

namespace Caller

variable {α : Type} {company : Company} {i : Nat} {caller : Caller α} {profile : Profile}
  {call : Call α} {notices : List Notice}

/-- A call that hears something stays in its phase, or loses its term. -/
theorem Hears.turn (h : caller.Hears profile call notices) (closed stopped : Bool) :
    call.phase = caller.call.phase ∨ Phase.Turn closed stopped caller.call.phase call.phase := by
  cases h with
  | nothing | check attempt delivery => exact .inl rfl
  | operation outcome => exact Call.operationOver_turn _ outcome closed stopped _
  | checks result => exact Call.checked_turn _ result closed stopped _
  | lost failure waits =>
    left
    cases hcall : caller.call with
    | underway term | operated term value | confirmed term => rfl
    | _ => simp [hcall, Call.isWaiting] at waits

theorem Hears.smooth (h : caller.Hears profile call notices) : Notice.Smooth notices := by
  cases h with
  | nothing | lost failure waits => simp [Notice.Smooth]
  | check attempt delivery =>
    cases delivery with
    | value status =>
      unfold Run.receive
      simp only
      split <;> simp [Notice.Smooth]
    | failure failure =>
      unfold Run.receive
      simp only
      split <;> simp [Notice.Smooth]
    | lost => simp [Run.receive, Notice.Smooth]
  | operation outcome => exact Call.operationOver_smooth _ outcome _
  | checks result => exact Call.checked_smooth _ result _

/-- What a call does next with what accompanies it, its company can do. -/
theorem proceed_strides (profile : Profile) (answers : Answers) (caller : Caller α)
    (here : company.phases[i]? = some caller.call.phase) :
    let became := caller.proceed profile company.toGrounds answers
    Strides company
      (company.settle i became.1.call.phase became.2.1 (became.2.2.map Acquisition.phase)) := by
  intro became
  have halone := caller.call.proceed_strides (profile.setting caller.style) answers here
  rw [caller.proceed_left]
  rcases caller.call_proceed profile company.toGrounds answers with
    hcall | ⟨term, refusal, hbegin, hcall⟩
  · rw [hcall]
    exact halone
  · -- the begin of the operation is nothing to the company
    rw [hcall, hbegin, Call.phase_begun]
    rw [hbegin] at halone
    exact halone

/-- What happens around a call, its company can bear. -/
theorem undergo_strides (profile : Profile) (event : Event α) (caller : Caller α)
    (here : company.phases[i]? = some caller.call.phase) :
    let became := caller.undergo profile event
    Strides company
      (company.settle i became.1.call.phase (company.report became.2) none) := by
  intro became
  have hhears := caller.undergo_hears profile event
  exact strides_turn here _ hhears.smooth (hhears.turn _ _)

end Caller

/-! ### Proxies -/

namespace Proxy

variable {α : Type}

theorem getElem?_company {proxy : Proxy α} {i : Nat} {party : Party α}
    (here : proxy.parties[i]? = some party) : proxy.company.phases[i]? = some party.phase := by
  simp [company, here]

theorem company_settle (proxy : Proxy α) (i : Nat)
    (became : Party α × Grounds × Option Acquisition) :
    (proxy.settle i became).company =
      proxy.company.settle i became.1.phase became.2.1 (became.2.2.map Acquisition.phase) := by
  obtain ⟨party, grounds, sent⟩ := became
  cases sent <;> simp [settle, Company.settle, company, List.map_set, Party.phase]

theorem make_phase (style : Style) (mayWait : Bool) :
    (Party.calling (α := α) (.make style mayWait)).phase = .resting := by
  cases style <;> cases mayWait <;> rfl

/-- Every move is a number of strides. -/
theorem step_strides (profile : Profile) (proxy : Proxy α) (move : Move α) :
    Strides proxy.company (proxy.step profile move).company := by
  cases move with
  | call style mayWait =>
    have hcall : Strides proxy.company _ := .single .call
    simpa [step, join, company, make_phase] using hcall
  | close =>
    have hclose : Strides proxy.company _ := .single .close
    simpa [step, join, company, Party.phase, Closing.phase] using hclose
  | proceed i answers =>
    cases here : proxy.parties[i]? with
    | none =>
      simp only [step, here]
      exact .refl
    | some party =>
      simp only [step, here]
      rw [company_settle]
      cases party with
      | calling caller => exact caller.proceed_strides profile answers (getElem?_company here)
      | acquiring acquisition =>
        exact acquisition.proceed_strides profile.client answers (getElem?_company here)
      | closing next => exact next.proceed_strides answers (getElem?_company here)
  | undergo i event =>
    cases here : proxy.parties[i]? with
    | none =>
      simp only [step, here]
      exact .refl
    | some party =>
      cases party with
      | calling caller =>
        simp only [step, here]
        rw [company_settle]
        exact caller.undergo_strides profile event (getElem?_company here)
      | _ =>
        simp only [step, here]
        exact .refl
  | drop i =>
    cases here : proxy.parties[i]? with
    | none =>
      simp only [step, here]
      exact .refl
    | some party =>
      cases party with
      | acquiring acquisition =>
        simp only [step, here]
        split
        · rename_i hdrop
          obtain ⟨hstopped, hdroppable⟩ := Bool.and_eq_true_iff.mp hdrop
          have hphase := Acquisition.phase_of_isDroppable hdroppable
          rw [company_settle]
          have hhere := getElem?_company here
          rw [Party.phase, hphase] at hhere
          exact strides_turn_silently hhere (.inr (.dropped hstopped))
        · exact .refl
      | _ =>
        simp only [step, here]
        exact .refl

theorem after_strides (profile : Profile) (schedule : Nat → Move α) {m n : Nat} (h : m ≤ n) :
    Strides (after profile schedule m).company (after profile schedule n).company := by
  induction n, h using Nat.le_induction with
  | base => exact .refl
  | succ n _ ih => exact ih.trans (step_strides profile _ _)

/-- The laws of companies hold after every schedule. -/
theorem sound_after (profile : Profile) (schedule : Nat → Move α) (n : Nat) :
    (after profile schedule n).company.Sound :=
  Company.sound_start.strides (after_strides profile schedule (Nat.zero_le n))

end Proxy

end Tenure
