import Tenure.Proofs.Proxy.Budget
import Tenure.Proofs.Proxy.StepEffect
import Tenure.Proofs.Proxy.Reconciliation

/-!
# A call on trial

A call has found a term served on an open proxy, its operation comes to a value, and its checks are
answered by a script. What it does then is settled at each of its steps: it goes on with its
operation and its checks, and once the decisive answer is there it passes the value on or ends its
term. Each event and each step brings it nearer to its end, or finds nothing to do.

## Main definitions

* `Stir`, `Caller.awaits` — the ways in which a call goes on, and the one that it waits for
* `Caller.Event.Keeps` — the operation comes to a value, and the checks are answered by the script
* `Call.Forfeits`, `Call.Prevails`, `Call.Faces`, `Caller.Trial` — where such a call can be
* `Call.Finds` — what it finds in the register
* `Caller.rank` — how far it is from its end

## Main results

* `Caller.Trial.undergo`, `Caller.Trial.proceed` — the call stays on its way
* `Caller.Trial.of_finished` — what it has come to
-/

namespace Tenure

variable {α : Type}

open Validation (Answer Tried decisive conclusion delivery)

/-! ### How a call goes on -/

/-- The ways in which a call, its operation and its checks go on. -/
inductive Stir
  | proceeds
  | operationBegun
  | operationOver
  | checkHandedOver
  | checkBegun
  | checkOver
  | delayOver
  | toldOperation
  | toldChecks
  deriving DecidableEq, Repr

namespace Caller

/-- The way in which an event makes a call go on. -/
def Event.stir? : Event α → Option Stir
  | operationBegun => some .operationBegun
  | operationOver _ => some .operationOver
  | checkHandedOver _ => some .checkHandedOver
  | checkBegun => some .checkBegun
  | checkOver _ => some .checkOver
  | delayOver => some .delayOver
  | toldOperation => some .toldOperation
  | toldChecks => some .toldChecks
  | checksCalledOff | dropped => none

/-- An event with which the operation comes to a value, the executors are running, and the check
under way is answered so. -/
def Event.Keeps (value : α) (answer : Answer) : Event α → Prop
  | operationOver outcome => outcome = .value value
  | checkHandedOver refusal => refusal = none
  | checkOver delivered => delivered = delivery answer
  | checksCalledOff | dropped => False
  | _ => True

/-- What a call that is not over waits for. -/
def awaits (caller : Caller α) : Stir :=
  match caller.call with
  | .underway _ | .confirmed _ =>
    match caller.work with
    | .ready _ => .operationBegun
    | .running _ => .operationOver
    | _ => .toldOperation
  | .operated .. =>
    match caller.validation with
    | some (.submitting _) => .checkHandedOver
    | some (.attempting attempt) =>
      if attempt.toNat = caller.checks.length then .checkOver else .checkBegun
    | some (.pausing _) => .delayOver
    | _ => .toldChecks
  | _ => .proceeds

end Caller

/-! ### Where a call can be -/

/-- An operation that has come to nothing but a value. -/
def Work.Succeeds (value : α) : Work α → Prop
  | absent => False
  | ready _ | running _ => True
  | ended _ outcome => outcome = .value value

namespace Call

/-- A call that has learnt that its term is over, and served when it went to end it. -/
inductive Forfeits (term : Term) : Call α → Prop
  | ends : Forfeits term (ending none (.invalidate term))
  | owes : Forfeits term (ending none (.release term.toHolding (.finish (.ended true))))
  | releases : Forfeits term (ending none (.releasing term.toHolding (.finish (.ended true))))
  | hasEnded : Forfeits term (ending none (.done (.ended true)))
  | rearms : Forfeits term (rearm none)
  | acquires {acquisition : Acquisition} (stays : acquisition.isWithCaller = true) :
      Forfeits term (acquiring none acquisition)
  | apologises : Forfeits term (apologise leadershipLost none)
  | returns (hint : Option HostAndPort) :
      Forfeits term (finished (.error (.notLeader ⟨leadershipLost, hint, none⟩)))

/-- A call that has a value on a confirmed token. -/
inductive Prevails (term : Term) (value : α) : Call α → Prop
  | looksOpen : Prevails term value (lookOpen term value)
  | looksServed : Prevails term value (lookServed term value)
  | returns : Prevails term value (finished (.ok value))

/-- Where a call can be whose operation and whose checks have come so far, if they go on to a value
and to this answer. -/
inductive Faces (term : Term) (value : α) (answer : Answer) :
    Call α → Work α → Validation → Prop
  | underway {work : Work α} {run : Validation} : Faces term value answer (underway term) work run
  | operated {delegate : Nat} {run : Validation} :
      Faces term value answer (operated term value) (.ended delegate (.value value)) run
  | confirmed {work : Work α} {result : Checked} (leading : answer = .ok .leading) :
      Faces term value answer (confirmed term) work (.finished result)
  | prevails {call : Call α} {work : Work α} {result : Checked} (leading : answer = .ok .leading)
      (prevails : call.Prevails term value) : Faces term value answer call work (.finished result)
  | forfeits {call : Call α} {work : Work α} {result : Checked} (stale : answer ≠ .ok .leading)
      (forfeits : call.Forfeits term) : Faces term value answer call work (.finished result)

/-- What a call finds in the register that nobody else touches. -/
structure Finds (term : Term) (register : Register) (call : Call α) : Prop where
  isOpen : call.stage < 6 → register.closed = false
  served : call.stage < 2 → register.current = some term

/-- How far a call is from its end, operation and checks apart. -/
def distance : Call α → Nat
  | enter => 34
  | take => 33
  | begin _ => 32
  | underway _ => 31
  | operated .. | confirmed _ => 30
  | lookOpen .. => 2
  | lookServed .. | apologise .. => 1
  | finished _ => 0
  | call => call.burden + 2

variable {term : Term} {value : α} {answer : Answer} {call : Call α} {work work' : Work α}
  {run run' : Validation} {grounds : Grounds}

/-- An operation that goes on does not take the call further. -/
theorem Faces.of_work (h : call.Faces term value answer work run)
    (going : ∀ delegate outcome, work ≠ .ended delegate outcome) :
    call.Faces term value answer work' run := by
  cases h with
  | underway => exact .underway
  | operated => exact absurd rfl (going _ _)
  | confirmed leading => exact .confirmed leading
  | prevails leading prevails => exact .prevails leading prevails
  | forfeits stale forfeits => exact .forfeits stale forfeits

/-- Checks that go on do not take the call further. -/
theorem Faces.of_run (h : call.Faces term value answer work run)
    (going : ∀ result, run ≠ .finished result) : call.Faces term value answer work run' := by
  cases h with
  | underway => exact .underway
  | operated => exact .operated
  | confirmed | prevails | forfeits => exact absurd rfl (going _)

theorem weigh_conclusion (setting : Setting) (term : Term) (answer : Answer)
    (confirmed : Call α) : (weigh setting term (conclusion answer) confirmed).1 =
      if answer = .ok .leading then confirmed else ending none (.invalidate term) := by
  match answer with
  | .ok .leading | .ok .notLeading | .ok .noQuorum | .error _ => rfl

/-- A call takes in the value that its operation has come to, if it waits for it. -/
theorem Faces.operationOver {delegate : Nat}
    (h : call.Faces term value answer (.ended delegate (.value value)) run) (setting : Setting) :
    (call.operationOver setting (.value value)).1.Faces term value answer
        (.ended delegate (.value value)) run ∧
      ((call.operationOver setting (.value value)).1.distance < call.distance ∨
        (call.operationOver setting (.value value)).1 = call ∧
          (∀ other, call ≠ Call.underway other) ∧ ∀ other, call ≠ Call.confirmed other) := by
  cases h with
  | underway => exact ⟨.operated, .inl (by simp [Call.operationOver, distance])⟩
  | operated => exact ⟨.operated, .inr (by simp [Call.operationOver])⟩
  | confirmed leading =>
    exact ⟨.prevails leading .looksOpen, .inl (by simp [Call.operationOver, distance])⟩
  | prevails leading prevails =>
    cases prevails with
    | looksOpen => exact ⟨.prevails leading .looksOpen, .inr (by simp [Call.operationOver])⟩
    | looksServed => exact ⟨.prevails leading .looksServed, .inr (by simp [Call.operationOver])⟩
    | returns => exact ⟨.prevails leading .returns, .inr (by simp [Call.operationOver])⟩
  | forfeits stale forfeits =>
    have hsame : (call.operationOver setting (.value value)).1 = call := by
      cases forfeits <;> rfl
    rw [hsame]
    exact ⟨.forfeits stale forfeits, .inr ⟨rfl, by cases forfeits <;> simp⟩⟩

/-- How a call goes on that takes in the answer to its checks. -/
theorem Faces.weigh {result : Checked} {confirmed : Call α} (setting : Setting)
    (hconfirmed : answer = .ok .leading →
      confirmed.Faces term value answer work (.finished result))
    {most : Nat} (hless : confirmed.distance < most) (hmost : 26 < most) :
    (Call.weigh setting term (conclusion answer) confirmed).1.Faces term value answer work
        (.finished result) ∧
      (Call.weigh setting term (conclusion answer) confirmed).1.distance < most := by
  rw [weigh_conclusion]
  by_cases hleading : answer = .ok .leading
  · rw [if_pos hleading]
    exact ⟨hconfirmed hleading, hless⟩
  · rw [if_neg hleading]
    exact ⟨.forfeits hleading .ends, hmost⟩

/-- A call takes in the answer to its checks, if it waits for it. -/
theorem Faces.checked {result : Checked}
    (h : call.Faces term value answer work (.finished result)) (setting : Setting) :
    (call.checked setting (conclusion answer)).1.Faces term value answer work
        (.finished result) ∧
      ((call.checked setting (conclusion answer)).1.distance < call.distance ∨
        (call.checked setting (conclusion answer)).1 = call ∧
          ∀ other value, call ≠ Call.operated other value) := by
  cases h with
  | underway =>
    cases hstyle : setting.style with
    | blocking =>
      simp only [Call.checked, hstyle]
      exact ⟨.underway, .inr (by simp)⟩
    | async =>
      simp only [Call.checked, hstyle]
      obtain ⟨hfaces, hless⟩ := Faces.weigh setting Faces.confirmed
        (Nat.lt_succ_self 30) (by decide)
      exact ⟨hfaces, .inl hless⟩
  | operated =>
    have hopen : (lookOpen term value).distance < 30 := by simp [distance]
    obtain ⟨hfaces, hless⟩ := Faces.weigh setting
      (fun leading => Faces.prevails leading .looksOpen) hopen (by decide)
    exact ⟨hfaces, .inl hless⟩
  | confirmed leading => exact ⟨.confirmed leading, .inr ⟨rfl, by simp⟩⟩
  | prevails leading prevails =>
    have hsame : (call.checked setting (conclusion answer)).1 = call := by
      cases prevails <;> rfl
    rw [hsame]
    exact ⟨.prevails leading prevails, .inr ⟨rfl, by cases prevails <;> simp⟩⟩
  | forfeits stale forfeits =>
    have hsame : (call.checked setting (conclusion answer)).1 = call := by
      cases forfeits <;> rfl
    rw [hsame]
    exact ⟨.forfeits stale forfeits, .inr ⟨rfl, by cases forfeits <;> simp⟩⟩

/-- A call that forfeits its term goes on to end it, and to say so. -/
theorem Forfeits.proceed (h : call.Forfeits term) (hfinds : call.Finds term grounds.register)
    (setting : Setting) (answers : Answers) :
    (call.proceed setting grounds answers).1.Forfeits term ∧
      (call.proceed setting grounds answers).1.Finds term
        (call.proceed setting grounds answers).2.1.register ∧
      ((call.proceed setting grounds answers).1.distance < call.distance ∨
        (call.proceed setting grounds answers).1 = call ∧ call.result?.isSome = true) := by
  cases h with
  | ends =>
    have hserved := hfinds.served (by simp [stage])
    have hopen := hfinds.isOpen (by simp [stage])
    have hproceed : (ending (α := α) none (.invalidate term)).proceed setting grounds answers =
        (ending none (.release term.toHolding (.finish (.ended true))),
          { grounds with register := { grounds.register with current := none } }, none) := by
      simp [Call.proceed, Operation.standing, Operation.proceed, Operation.step, Register.takeIf,
        hserved, Operation.releaseThen, Operation.releases, Operation.numbers]
    rw [hproceed]
    exact ⟨.owes, ⟨fun _ => hopen, by simp [stage]⟩, .inl (by simp [distance, burden,
      Operation.weight, Operation.weight.sequelWeight])⟩
  | owes =>
    have hopen := hfinds.isOpen (by simp [stage])
    have hproceed : (ending (α := α) none
        (.release term.toHolding (.finish (.ended true)))).proceed setting grounds answers =
          (ending none (.releasing term.toHolding (.finish (.ended true))),
            { grounds with released := grounds.released ++ [term.delegate] }, none) := by
      simp [Call.proceed, Operation.standing, Operation.proceed, Operation.step,
        Operation.releases, Operation.numbers]
    rw [hproceed]
    exact ⟨.releases, ⟨fun _ => hopen, by simp [stage]⟩, .inl (by simp [distance, burden,
      Operation.weight])⟩
  | releases =>
    have hopen := hfinds.isOpen (by simp [stage])
    have hnext : ((ending (α := α) none
        (.releasing term.toHolding (.finish (.ended true)))).proceed setting grounds answers).1 =
          ending none (.done (.ended true)) := by
      cases hr : answers.release <;>
        simp [Call.proceed, Operation.standing, Operation.proceed, Operation.returned, hr,
          Operation.Sequel.resume]
    have hleft : ((ending (α := α) none
        (.releasing term.toHolding (.finish (.ended true)))).proceed setting grounds
          answers).2.1.register = grounds.register := by
      cases hr : answers.release <;>
        simp [Call.proceed, Operation.standing, Operation.proceed, hr]
    rw [hnext, hleft]
    exact ⟨.hasEnded, ⟨fun _ => hopen, by simp [stage]⟩, .inl (by simp [distance, burden,
      Operation.weight])⟩
  | hasEnded =>
    have hopen := hfinds.isOpen (by simp [stage])
    have hproceed : (ending (α := α) none (.done (.ended true))).proceed setting grounds answers =
        (rearm none, grounds, none) := rfl
    rw [hproceed]
    exact ⟨.rearms, ⟨fun _ => hopen, by simp [stage]⟩, .inl (by simp [distance, burden,
      Operation.weight])⟩
  | rearms =>
    have hopen := hfinds.isOpen (by simp [stage])
    have hproceed : (rearm (α := α) none).proceed setting grounds answers =
        (acquiring none .enter, grounds, none) := by
      simp [Call.proceed, flagRead, hopen]
    rw [hproceed]
    exact ⟨.acquires rfl, ⟨by simp [stage], by simp [stage]⟩, .inl (by simp [distance, burden,
      Acquisition.remainder])⟩
  | @acquires acquisition stays =>
    by_cases hfinished : acquisition = .finished
    · have hproceed : (acquiring (α := α) none acquisition).proceed setting grounds answers =
          (apologise leadershipLost none, grounds, none) := by
        rw [hfinished]
        rfl
      rw [hproceed]
      exact ⟨.apologises, ⟨by simp [stage], by simp [stage]⟩, .inl (by simp [distance, burden])⟩
    · obtain ⟨hstays, hless⟩ := Acquisition.remainder_proceed_lt stays hfinished setting.client
        grounds answers
      have hnext : ((acquiring (α := α) none acquisition).proceed setting grounds answers).1 =
          acquiring none (acquisition.proceed setting.client grounds answers).1 := by
        cases acquisition with
        | finished => exact absurd rfl hfinished
        | _ => rfl
      rw [hnext]
      refine ⟨.acquires hstays, ⟨by simp [stage], by simp [stage]⟩, .inl ?_⟩
      simp only [distance, burden]
      omega
  | apologises =>
    exact ⟨.returns answers.hint, ⟨by simp [Call.proceed, hintRead, stage],
      by simp [Call.proceed, hintRead, stage]⟩, .inl Nat.zero_lt_one⟩
  | returns hint =>
    exact ⟨.returns hint, ⟨by simp [Call.proceed, stage], by simp [Call.proceed, stage]⟩,
      .inr ⟨rfl, rfl⟩⟩

/-- A call that has a value on a confirmed token finds the proxy open and its term served. -/
theorem Prevails.proceed (h : call.Prevails term value)
    (hfinds : call.Finds term grounds.register) (setting : Setting) (answers : Answers) :
    (call.proceed setting grounds answers).1.Prevails term value ∧
      (call.proceed setting grounds answers).1.Finds term
        (call.proceed setting grounds answers).2.1.register ∧
      ((call.proceed setting grounds answers).1.distance < call.distance ∨
        (call.proceed setting grounds answers).1 = call ∧ call.result?.isSome = true) := by
  cases h with
  | looksOpen =>
    have hserved := hfinds.served (by simp [stage])
    have hopen := hfinds.isOpen (by simp [stage])
    have hproceed : (lookOpen term value).proceed setting grounds answers =
        (lookServed term value, grounds, none) := by
      simp [Call.proceed, flagRead, hopen]
    rw [hproceed]
    exact ⟨.looksServed, ⟨fun _ => hopen, fun _ => hserved⟩, .inl Nat.one_lt_two⟩
  | looksServed =>
    have hserved := hfinds.served (by simp [stage])
    have hproceed : (lookServed term value).proceed setting grounds answers =
        (finished (.ok value), grounds, none) := by
      simp [Call.proceed, currentRead, hserved]
    rw [hproceed]
    exact ⟨.returns, ⟨by simp [stage], by simp [stage]⟩, .inl Nat.zero_lt_one⟩
  | returns =>
    exact ⟨.returns, ⟨by simp [Call.proceed, stage], by simp [Call.proceed, stage]⟩,
      .inr ⟨rfl, rfl⟩⟩

end Call

/-! ### A call on trial -/

/-- An answer settles the matter, or another check is put off. -/
theorem Run.receive_delivery (retrier : Retrier LeadingStatus) (shard : String) (attempt : UInt32)
    (answer : Answer) :
    ((attempting attempt).receive retrier shard (delivery answer)).1 = pausing attempt ∨
      ∃ result, ((attempting attempt).receive retrier shard (delivery answer)).1 =
        finished result := by
  cases answer with
  | ok status =>
    simp only [delivery, receive]
    split
    · exact .inr ⟨_, rfl⟩
    · exact .inl rfl
  | error failure =>
    simp only [delivery, receive]
    split
    · exact .inr ⟨_, rfl⟩
    · exact .inl rfl

/-- How far an operation is from its end. -/
def Work.remainder : Work α → Nat
  | absent => 3
  | ready _ => 2
  | running _ => 1
  | ended .. => 0

/-- How far a run of checks is from its end, of which so many checks were begun and the last one
bears this number. -/
def Validation.remainder (last count : Nat) : Option Validation → Nat
  | none => 4 * last + 1
  | some (.submitting _) => 4 * (last - count)
  | some (.attempting attempt) =>
    if attempt.toNat = count then 4 * (last - count) + 2 else 4 * (last - count) - 1
  | some (.pausing _) => 4 * (last - count) + 1
  | some (.finished _) => 0

namespace Caller

/-- How far a call is from its end, the last check of which bears this number. -/
def rank (last : Nat) (caller : Caller α) : Nat :=
  caller.call.distance + caller.work.remainder +
    Validation.remainder last caller.checks.length caller.validation

/-- A call that has its term, whose operation comes to a value and whose checks are answered by a
script. -/
structure GoesOn (budget : UInt32) (script : Nat → Answer) (term : Term) (value : α)
    (run : Validation) (caller : Caller α) : Prop where
  hasTerm : caller.term = some term
  hasRun : caller.validation = some run
  tried : Tried budget script caller.checks.length run
  works : caller.work.Succeeds value
  faces : caller.call.Faces term value (script (decisive budget script)) caller.work run

/-- Where such a call can be from its beginning on. -/
inductive Trial (budget : UInt32) (script : Nat → Answer) (term : Term) (value : α) :
    Caller α → Prop
  | enters {style : Style} : Trial budget script term value { style }
  | takes {style : Style} : Trial budget script term value { style, call := .take }
  | begins {style : Style} :
      Trial budget script term value { style, call := .begin term, term := some term }
  | goesOn {caller : Caller α} {run : Validation}
      (h : caller.GoesOn budget script term value run) : Trial budget script term value caller

/-- A call comes nearer to its end, or stays as it is; and it does not stay so if this is what it
waits for, unless it is over. -/
def Nears (last : Nat) (caller next : Caller α) (stir? : Option Stir) : Prop :=
  next.rank last < caller.rank last ∨
    next = caller ∧ (stir? = some caller.awaits → caller.call.result?.isSome = true)

/-- A call stays on its way. -/
structure Follows (budget : UInt32) (script : Nat → Answer) (term : Term) (value : α)
    (caller next : Caller α) (stir? : Option Stir) : Prop where
  trial : next.Trial budget script term value
  nears : Nears (decisive budget script) caller next stir?

variable {caller next : Caller α} {profile : Profile} {budget : UInt32} {script : Nat → Answer}
  {term : Term} {value : α} {event : Event α} {stir? : Option Stir} {run run' : Validation}
  {work : Work α} {checks : List Check} {call : Call α}

/-- What must be so if a call waits for this. -/
def Due (caller : Caller α) : Stir → Prop
  | .operationBegun => ∃ delegate, caller.work = .ready delegate
  | .operationOver => ∃ delegate, caller.work = .running delegate
  | .toldOperation => (∀ delegate, caller.work ≠ .ready delegate) ∧
      (∀ delegate, caller.work ≠ .running delegate) ∧
      ((∃ term, caller.call = .underway term) ∨ ∃ term, caller.call = .confirmed term)
  | .checkHandedOver => ∃ attempt, caller.validation = some (.submitting attempt)
  | .checkBegun => ∃ attempt, caller.validation = some (.attempting attempt) ∧
      attempt.toNat ≠ caller.checks.length
  | .checkOver => ∃ attempt, caller.validation = some (.attempting attempt) ∧
      attempt.toNat = caller.checks.length
  | .delayOver => ∃ attempt, caller.validation = some (.pausing attempt)
  | .toldChecks => (∃ term value, caller.call = .operated term value) ∧
      (caller.validation = none ∨ ∃ result, caller.validation = some (.finished result))
  | .proceeds => caller.call.isWaiting = false

/-- What a call waits for is due. -/
theorem due_of_awaits {stir : Stir} (h : caller.awaits = stir) : caller.Due stir := by
  subst h
  obtain ⟨style, call, term, work, validation, checks⟩ := caller
  cases call with
  | underway begun | confirmed begun => cases work <;> simp [awaits, Due]
  | operated begun value =>
    match validation with
    | none | some (.submitting _) | some (.pausing _) | some (.finished _) => simp [awaits, Due]
    | some (.attempting attempt) =>
      by_cases hbegun : attempt.toNat = checks.length <;> simp [awaits, Due, hbegun]
  | _ => rfl

/-- What finds nothing to do leaves a call where it is. -/
theorem Trial.rests {stir : Stir} (h : caller.Trial budget script term value)
    (hsame : next = caller) (hawaits : caller.awaits ≠ stir) :
    caller.Follows budget script term value next (some stir) :=
  ⟨hsame ▸ h, .inr ⟨hsame, fun hs => absurd (Option.some.inj hs).symm hawaits⟩⟩

/-- Nothing happens around a call that has begun neither its operation nor its checks. -/
theorem Trial.undergo_early (h : caller.Trial budget script term value)
    (hwork : caller.work = .absent) (hrun : caller.validation = none)
    (hwaits : caller.call.isWaiting = false)
    {answer : Answer} (keeps : event.Keeps value answer) :
    caller.Follows budget script term value (caller.undergo profile event).1 event.stir? := by
  obtain ⟨style, call, taken, work, validation, checks⟩ := caller
  obtain rfl : work = .absent := hwork
  obtain rfl : validation = none := hrun
  have hproceeds : awaits ⟨style, call, taken, .absent, none, checks⟩ = .proceeds := by
    cases call <;> simp_all [awaits, Call.isWaiting]
  cases event with
  | operationOver outcome =>
    refine h.rests ?_ (by simp [hproceeds])
    cases outcome <;> rfl
  | checksCalledOff | dropped => exact keeps.elim
  | _ => exact h.rests rfl (by simp [hproceeds])

theorem length_answered (checks : List Check)
    (delivered : Run.Delivery LeadingStatus ElectionFailure) :
    (answered checks delivered).length = checks.length := by
  cases delivered <;> cases checks <;> rfl

theorem finishCheck_delivery (profile : Profile) {attempt : UInt32}
    (hrun : caller.validation = some (.attempting attempt)) (answer : Answer) :
    (caller.finishCheck profile (delivery answer)).1 =
      if attempt.toNat = caller.checks.length then
        { caller with
          validation := some ((Run.attempting attempt).receive (statusRetrier profile.budget)
            profile.shard (delivery answer)).1
          checks := answered caller.checks (delivery answer) }
      else caller := by
  cases answer <;> simp only [finishCheck, hrun, delivery] <;> split <;> rfl

namespace GoesOn

/-- The operation of a call goes on. -/
theorem of_work (h : caller.GoesOn budget script term value run)
    (going : ∀ delegate outcome, caller.work ≠ .ended delegate outcome)
    (works : work.Succeeds value) (less : work.remainder < caller.work.remainder) :
    caller.Follows budget script term value { caller with work } stir? := by
  refine ⟨.goesOn ⟨h.hasTerm, h.hasRun, h.tried, works, h.faces.of_work going⟩, .inl ?_⟩
  simp only [rank]
  omega

/-- The checks of a call go on. -/
theorem of_run (h : caller.GoesOn budget script term value run) (checks : List Check)
    (run' : Validation) (going : ∀ result, run ≠ .finished result)
    (tried : Tried budget script checks.length run')
    (less : Validation.remainder (decisive budget script) checks.length (some run') <
      Validation.remainder (decisive budget script) caller.checks.length (some run)) :
    caller.Follows budget script term value { caller with validation := some run', checks }
      stir? := by
  refine ⟨.goesOn ⟨h.hasTerm, rfl, tried, h.works, h.faces.of_run going⟩, .inl ?_⟩
  rw [← h.hasRun] at less
  simp only [rank]
  omega

/-- A call takes in what it hears. -/
theorem of_call (h : caller.GoesOn budget script term value run)
    (faces : call.Faces term value (script (decisive budget script)) caller.work run)
    (less : call.distance < caller.call.distance) :
    caller.Follows budget script term value { caller with call } stir? := by
  refine ⟨.goesOn ⟨h.hasTerm, h.hasRun, h.tried, h.works, faces⟩, .inl ?_⟩
  simp only [rank]
  omega

theorem operationBegun (h : caller.GoesOn profile.budget script term value run) :
    caller.Follows profile.budget script term value (caller.undergo profile .operationBegun).1
      (some .operationBegun) := by
  cases hwork : caller.work with
  | ready delegate =>
    simp only [Caller.undergo, hwork]
    exact h.of_work (by simp [hwork]) trivial (by simp [hwork, Work.remainder])
  | _ =>
    exact (Trial.goesOn h).rests (by simp [Caller.undergo, hwork])
      fun hs => by simpa [Due, hwork] using due_of_awaits hs

theorem operationOver (h : caller.GoesOn profile.budget script term value run) :
    caller.Follows profile.budget script term value
      (caller.undergo profile (.operationOver (.value value))).1 (some .operationOver) := by
  cases hwork : caller.work with
  | running delegate =>
    simp only [Caller.undergo, workOver, hwork]
    exact h.of_work (by simp [hwork]) rfl (by simp [hwork, Work.remainder])
  | _ =>
    exact (Trial.goesOn h).rests (by simp only [Caller.undergo, workOver, hwork]; rw [← hwork])
      fun hs => by simpa [Due, hwork] using due_of_awaits hs

theorem checkHandedOver (h : caller.GoesOn profile.budget script term value run) :
    caller.Follows profile.budget script term value
      (caller.undergo profile (.checkHandedOver none)).1 (some .checkHandedOver) := by
  cases run with
  | submitting attempt =>
    obtain ⟨hattempt, hcount⟩ := h.tried
    simp only [Caller.undergo, h.hasRun]
    refine h.of_run _ _ (by simp) h.tried.handOver ?_
    simp only [Run.handOver, Validation.remainder]
    rw [if_neg (by omega)]
    omega
  | _ =>
    have hsame : caller.validation.map (·.handOver none) = caller.validation := by
      rw [h.hasRun]
      rfl
    exact (Trial.goesOn h).rests (by simp only [Caller.undergo, hsame])
      fun hs => by simpa [Due, h.hasRun] using due_of_awaits hs

theorem checkBegun (h : caller.GoesOn profile.budget script term value run) :
    caller.Follows profile.budget script term value (caller.undergo profile .checkBegun).1
      (some .checkBegun) := by
  cases run with
  | attempting attempt =>
    by_cases hnext : attempt.toNat = caller.checks.length + 1
    · have hbegins : (caller.undergo profile .checkBegun).1 =
          { caller with
            validation := some (.attempting attempt)
            checks := ⟨term.token, none⟩ :: caller.checks } := by
        simp [Caller.undergo, beginCheck, h.hasRun, h.hasTerm, hnext]
      rw [hbegins]
      refine h.of_run _ _ (by simp) (h.tried.begun hnext) ?_
      have hle := h.tried.2
      simp only [Validation.remainder, List.length_cons, if_pos hnext]
      rw [if_neg (by omega)]
      omega
    · have hbegun : attempt.toNat = caller.checks.length := by
        rcases h.tried.1 with hother | ⟨hother, -⟩
        · exact absurd hother hnext
        · exact hother
      exact (Trial.goesOn h).rests
        (by simp [Caller.undergo, beginCheck, h.hasRun, h.hasTerm, hnext])
        fun hs => by simpa [Due, h.hasRun, hbegun] using due_of_awaits hs
  | _ =>
    exact (Trial.goesOn h).rests (by simp [Caller.undergo, beginCheck, h.hasRun])
      fun hs => by simpa [Due, h.hasRun] using due_of_awaits hs

theorem checkOver (h : caller.GoesOn profile.budget script term value run) :
    caller.Follows profile.budget script term value
      (caller.undergo profile (.checkOver (delivery (script caller.checks.length)))).1
      (some .checkOver) := by
  cases run with
  | attempting attempt =>
    have hfinish := finishCheck_delivery profile h.hasRun (script caller.checks.length)
    simp only [Caller.undergo, hfinish]
    by_cases hbegun : attempt.toNat = caller.checks.length
    · rw [if_pos hbegun]
      have hlength := length_answered caller.checks (delivery (script caller.checks.length))
      refine h.of_run _ _ (by simp) (by rw [hlength]; exact h.tried.receive hbegun profile.shard) ?_
      rw [hlength]
      -- no answer leaves the check under way
      rcases Run.receive_delivery (statusRetrier profile.budget) profile.shard attempt
        (script caller.checks.length) with hpauses | ⟨result, hover⟩
      · simp only [hpauses, Validation.remainder, if_pos hbegun]
        omega
      · simp only [hover, Validation.remainder, if_pos hbegun]
        omega
    · rw [if_neg hbegun]
      exact (Trial.goesOn h).rests rfl
        fun hs => by simpa [Due, h.hasRun, hbegun] using due_of_awaits hs
  | _ =>
    exact (Trial.goesOn h).rests (by simp [Caller.undergo, finishCheck, h.hasRun])
      fun hs => by simpa [Due, h.hasRun] using due_of_awaits hs

theorem delayOver (h : caller.GoesOn profile.budget script term value run) :
    caller.Follows profile.budget script term value (caller.undergo profile .delayOver).1
      (some .delayOver) := by
  cases run with
  | pausing attempt =>
    simp only [Caller.undergo, h.hasRun]
    refine h.of_run _ _ (by simp) h.tried.wake ?_
    simp only [Run.wake, Validation.remainder]
    omega
  | _ =>
    have hsame : caller.validation.map Run.wake = caller.validation := by
      rw [h.hasRun]
      rfl
    exact (Trial.goesOn h).rests (by simp only [Caller.undergo, hsame])
      fun hs => by simpa [Due, h.hasRun] using due_of_awaits hs

theorem toldOperation (h : caller.GoesOn profile.budget script term value run) :
    caller.Follows profile.budget script term value (caller.undergo profile .toldOperation).1
      (some .toldOperation) := by
  cases hwork : caller.work with
  | ended delegate outcome =>
    obtain rfl : outcome = .value value := by
      have hworks := h.works
      rw [hwork] at hworks
      exact hworks
    have htold : (caller.undergo profile .toldOperation).1 =
        { caller with
          call :=
            (caller.call.operationOver (profile.setting caller.style) (.value value)).1 } := by
      obtain ⟨style, call, taken, work, validation, checks⟩ := caller
      obtain rfl := hwork
      cases call <;> rfl
    rw [htold]
    have hfaces := h.faces
    rw [hwork] at hfaces
    obtain ⟨hnext, hless | ⟨hsame, hwaits⟩⟩ := hfaces.operationOver (profile.setting caller.style)
    · exact h.of_call (hwork ▸ hnext) hless
    · refine (Trial.goesOn h).rests (by rw [hsame]) fun hs => ?_
      obtain ⟨-, -, ⟨other, hother⟩ | ⟨other, hother⟩⟩ := due_of_awaits hs
      · exact hwaits.1 other hother
      · exact hwaits.2 other hother
  | absent =>
    have hworks := h.works
    rw [hwork] at hworks
    exact hworks.elim
  | ready delegate | running delegate =>
    exact (Trial.goesOn h).rests (by simp [Caller.undergo, tellOperation, hwork])
      fun hs => by simpa [Due, hwork] using due_of_awaits hs

theorem toldChecks (h : caller.GoesOn profile.budget script term value run) :
    caller.Follows profile.budget script term value (caller.undergo profile .toldChecks).1
      (some .toldChecks) := by
  cases run with
  | finished result =>
    obtain ⟨hcount, hresult⟩ := h.tried
    rw [hcount] at hresult
    have htold : (caller.undergo profile .toldChecks).1 =
        { caller with
          call := (caller.call.checked (profile.setting caller.style)
            (conclusion (script (decisive profile.budget script)))).1 } := by
      simp [Caller.undergo, h.hasRun, Run.result?, hresult]
    rw [htold]
    obtain ⟨hnext, hless | ⟨hsame, hwaits⟩⟩ := h.faces.checked (profile.setting caller.style)
    · exact h.of_call hnext hless
    · refine (Trial.goesOn h).rests (by rw [hsame]) fun hs => ?_
      obtain ⟨⟨other, value, hother⟩, -⟩ := due_of_awaits hs
      exact hwaits other value hother
  | _ =>
    exact (Trial.goesOn h).rests (by simp [Caller.undergo, h.hasRun, Run.result?])
      fun hs => by simpa [Due, h.hasRun] using due_of_awaits hs

/-- A call that is through with its operation and its checks takes a step of its own. -/
theorem proceed {grounds : Grounds} {answers : Answers}
    (h : caller.GoesOn profile.budget script term value run)
    (late : (∀ other, caller.call ≠ .begin other) ∧ caller.call ≠ .take ∧
      ∀ hint, caller.call ≠ .takeAgain hint)
    (faces : (caller.call.proceed (profile.setting caller.style) grounds answers).1.Faces term value
      (script (decisive profile.budget script)) caller.work run)
    (finds : (caller.call.proceed (profile.setting caller.style) grounds answers).1.Finds term
      (caller.call.proceed (profile.setting caller.style) grounds answers).2.1.register)
    (nears : (caller.call.proceed (profile.setting caller.style) grounds answers).1.distance <
        caller.call.distance ∨
      (caller.call.proceed (profile.setting caller.style) grounds answers).1 = caller.call ∧
        caller.call.result?.isSome = true) :
    caller.Follows profile.budget script term value (caller.proceed profile grounds answers).1
        (some .proceeds) ∧
      (caller.proceed profile grounds answers).1.call.Finds term
        (caller.proceed profile grounds answers).2.1.register := by
  have hproceed : (caller.proceed profile grounds answers).1 =
      { caller with
        call := (caller.call.proceed (profile.setting caller.style) grounds answers).1 } := by
    obtain ⟨style, call, taken, work, validation, checks⟩ := caller
    cases call with
    | begin other => exact absurd rfl (late.1 other)
    | take => exact absurd rfl late.2.1
    | takeAgain hint => exact absurd rfl (late.2.2 hint)
    | _ => rfl
  rw [proceed_left, hproceed]
  refine ⟨?_, finds⟩
  rcases nears with hless | ⟨hsame, hover⟩
  · exact h.of_call faces hless
  · rw [hsame]
    exact ⟨.goesOn h, .inr ⟨rfl, fun _ => hover⟩⟩

end GoesOn

/-- Whatever happens around a call, it stays on its way. -/
theorem Trial.undergo (h : caller.Trial profile.budget script term value)
    (keeps : event.Keeps value (script caller.checks.length)) :
    caller.Follows profile.budget script term value (caller.undergo profile event).1
      event.stir? := by
  cases h with
  | enters => exact Trial.enters.undergo_early rfl rfl rfl keeps
  | takes => exact Trial.takes.undergo_early rfl rfl rfl keeps
  | begins => exact Trial.begins.undergo_early rfl rfl rfl keeps
  | goesOn h =>
    cases event with
    | operationBegun => exact h.operationBegun
    | operationOver outcome =>
      obtain rfl : outcome = .value value := keeps
      exact h.operationOver
    | checkHandedOver refusal =>
      obtain rfl : refusal = none := keeps
      exact h.checkHandedOver
    | checkBegun => exact h.checkBegun
    | checkOver delivered =>
      obtain rfl : delivered = delivery (script caller.checks.length) := keeps
      exact h.checkOver
    | delayOver => exact h.delayOver
    | toldOperation => exact h.toldOperation
    | toldChecks => exact h.toldChecks
    | checksCalledOff | dropped => exact keeps.elim

/-- A call that takes a step of its own stays on its way, and leaves what it finds next. -/
theorem Trial.proceed {grounds : Grounds} {answers : Answers}
    (h : caller.Trial profile.budget script term value)
    (hfinds : caller.call.Finds term grounds.register) (accepted : answers.refusal = none) :
    caller.Follows profile.budget script term value (caller.proceed profile grounds answers).1
        (some .proceeds) ∧
      (caller.proceed profile grounds answers).1.call.Finds term
        (caller.proceed profile grounds answers).2.1.register := by
  cases h with
  | @enters style =>
    have hopen := hfinds.isOpen (by simp [Call.stage])
    have hserved := hfinds.served (by simp [Call.stage])
    have hproceed : (({ style } : Caller α).proceed profile grounds answers) =
        ({ style, call := .take }, grounds, none) := by
      simp [Caller.proceed, Call.proceed, Call.flagRead, hopen]
    rw [hproceed]
    exact ⟨⟨.takes, .inl (by simp [rank, Call.distance])⟩, fun _ => hopen, fun _ => hserved⟩
  | @takes style =>
    have hopen := hfinds.isOpen (by simp [Call.stage])
    have hserved := hfinds.served (by simp [Call.stage])
    have hproceed : (({ style, call := .take } : Caller α).proceed profile grounds answers) =
        ({ style, call := .begin term, term := some term }, grounds, none) := by
      simp [Caller.proceed, Call.proceed, Call.currentRead, hserved]
    rw [hproceed]
    exact ⟨⟨.begins, .inl (by simp [rank, Call.distance])⟩, fun _ => hopen, fun _ => hserved⟩
  | @begins style =>
    have hopen := hfinds.isOpen (by simp [Call.stage])
    have hserved := hfinds.served (by simp [Call.stage])
    have hproceed : (({ style, call := .begin term, term := some term } : Caller α).proceed profile
        grounds answers) =
        ({ style, call := .underway term, term := some term, work := .ready term.delegate,
           validation := some .start }, grounds, none) := by
      cases style <;> simp [Caller.proceed, Caller.begin, accepted, Call.begun]
    rw [hproceed]
    refine ⟨⟨.goesOn ⟨rfl, rfl, .start profile.budget script, trivial, .underway⟩, .inl ?_⟩,
      fun _ => hopen, fun _ => hserved⟩
    simp only [rank, Call.distance, Work.remainder, Validation.remainder, Run.start,
      List.length_nil]
    omega
  | @goesOn _ run h =>
    have hfaces := h.faces
    -- the call takes its own steps only where it waits for nothing
    have waits (hcall : caller.call.isWaiting = true) :
        caller.Follows profile.budget script term value (caller.proceed profile grounds answers).1
            (some .proceeds) ∧
          (caller.proceed profile grounds answers).1.call.Finds term
            (caller.proceed profile grounds answers).2.1.register := by
      have hproceed : caller.proceed profile grounds answers = (caller, grounds, none) := by
        obtain ⟨style, call, taken, work, validation, checks⟩ := caller
        cases call <;> simp_all [Call.isWaiting, Caller.proceed, Call.proceed]
      rw [hproceed]
      refine ⟨(Trial.goesOn h).rests rfl fun hs => ?_, hfinds⟩
      have hdue : caller.call.isWaiting = false := due_of_awaits hs
      rw [hcall] at hdue
      simp at hdue
    generalize hcall : caller.call = call at hfaces
    generalize hwork : caller.work = work at hfaces
    cases hfaces with
    | underway | operated | confirmed => exact waits (by rw [hcall]; rfl)
    | prevails leading prevails =>
      have hlate : (∀ other, call ≠ .begin other) ∧ call ≠ .take ∧
          ∀ hint, call ≠ .takeAgain hint := by
        cases prevails <;> simp
      rw [← hcall] at prevails hlate
      obtain ⟨hprevails, hleft, hnears⟩ :=
        prevails.proceed hfinds (profile.setting caller.style) answers
      exact h.proceed hlate (.prevails leading hprevails) hleft hnears
    | forfeits stale forfeits =>
      have hlate : (∀ other, call ≠ .begin other) ∧ call ≠ .take ∧
          ∀ hint, call ≠ .takeAgain hint := by
        cases forfeits <;> simp
      rw [← hcall] at forfeits hlate
      obtain ⟨hforfeits, hleft, hnears⟩ :=
        forfeits.proceed hfinds (profile.setting caller.style) answers
      exact h.proceed hlate (.forfeits stale hforfeits) hleft hnears

/-- A call that gives up on its term by a step of its own goes to end it. -/
theorem Trial.eq_ending {grounds : Grounds} {answers : Answers}
    (h : caller.Trial profile.budget script term value)
    (hfinds : caller.call.Finds term grounds.register)
    (hnext : (caller.proceed profile grounds answers).1.call.hasLost = true)
    (hbefore : caller.call.hasLost = false) :
    caller.term = some term ∧ caller.call = .ending none (.invalidate term) := by
  cases h with
  | enters =>
    have hopen := hfinds.isOpen (by simp [Call.stage])
    simp [Caller.proceed, Call.proceed, Call.flagRead, hopen, Call.hasLost] at hnext
  | takes =>
    have hserved := hfinds.served (by simp [Call.stage])
    simp [Caller.proceed, Call.proceed, Call.currentRead, hserved, Call.hasLost] at hnext
  | @begins style =>
    rcases call_proceed profile grounds answers ({ style, call := .begin term, term := some term } :
      Caller α) with hcall | ⟨_, refusal, -, hcall⟩
    · rw [hcall] at hnext
      simp [Call.proceed, Call.hasLost] at hnext
    · rw [hcall] at hnext
      cases refusal <;> simp [Call.begun, Call.hasLost] at hnext
  | @goesOn _ run h =>
    refine ⟨h.hasTerm, ?_⟩
    have hfaces := h.faces
    rcases call_proceed profile grounds answers caller with hcall | ⟨_, _, hbegin, -⟩
    · rw [hcall] at hnext
      generalize caller.call = call at *
      generalize caller.work = work at hfaces
      cases hfaces with
      | underway | operated | confirmed => simp [Call.proceed, Call.hasLost] at hnext
      | prevails leading prevails =>
        have hprevails := (prevails.proceed hfinds (profile.setting caller.style) answers).1
        generalize (call.proceed (profile.setting caller.style) grounds answers).1 = next at *
        cases hprevails <;> simp [Call.hasLost] at hnext
      | forfeits stale forfeits =>
        cases forfeits with
        | ends => rfl
        | _ => simp [Call.hasLost] at hbefore
    · rw [hbegin] at hfaces
      generalize caller.work = work at hfaces
      cases hfaces with
      | prevails leading prevails => cases prevails
      | forfeits stale forfeits => cases forfeits

/-- What a call has come to. -/
theorem Trial.of_finished (h : caller.Trial budget script term value)
    (hover : caller.call.result?.isSome = true) :
    caller.checks.length = decisive budget script ∧ caller.term = some term ∧
      ((script (decisive budget script) = .ok .leading ∧ caller.call = .finished (.ok value)) ∨
        script (decisive budget script) ≠ .ok .leading ∧ ∃ hint, caller.call =
          .finished (.error (.notLeader ⟨Call.leadershipLost, hint, none⟩))) := by
  cases h with
  | enters | takes | begins => simp [Call.result?] at hover
  | @goesOn _ run h =>
    have hfaces := h.faces
    have htried := h.tried
    have hterm := h.hasTerm
    generalize caller.call = call at *
    generalize caller.work = work at hfaces
    cases hfaces with
    | underway | operated | confirmed => simp [Call.result?] at hover
    | prevails leading prevails =>
      cases prevails with
      | returns => exact ⟨htried.1, hterm, .inl ⟨leading, rfl⟩⟩
      | _ => simp [Call.result?] at hover
    | forfeits stale forfeits =>
      cases forfeits with
      | returns hint => exact ⟨htried.1, hterm, .inr ⟨stale, hint, rfl⟩⟩
      | _ => simp [Call.result?] at hover

end Caller

end Tenure
