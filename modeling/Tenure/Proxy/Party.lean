import Tenure.Proxy.Call
import Tenure.Term.Ledger

/-!
# The parties to a proxy

Calls, acquisitions and closings go on at one proxy at the same time. Each of them is a party:
it knows what it does next, and `proceed` does that, on the grounds that all parties share.
What it asks the election, the factory, a delegate or an executor is answered from outside, and
nothing is assumed of the answers.

A call is accompanied by its operation and by the run of checks of its token, which go on by
themselves; what happens to them, and when the call is told of it, is an event of its own.

## Main definitions

* `Grounds` — what all parties share; `Answers` — what a party is told when it asks
* `Acquisition.proceed`, `Call.proceed`, `Closing.proceed` — the next step of an acquisition, of a
  call and of a closing
* `Call.Moment`, `Call.course`, `Call.leaves` — the steps of a call through some moments
* `Caller` — a call with its operation and its checks
* `Caller.proceed`, `Caller.undergo` — its next step with them, and what happens around it
* `Party`, `Party.proceed` — any of them
-/

namespace Tenure

/-- What is fixed for a proxy: its client, the shard that serves it, and how many checks a call
makes at most. -/
structure Profile where
  client : String
  shard : String
  budget : UInt32
  deriving DecidableEq, Repr

/-- What a call in some style knows of the proxy. -/
def Profile.setting (profile : Profile) (style : Style) : Call.Setting :=
  ⟨profile.client, profile.shard, style⟩

/-- What the parties share: the register with its ledger, and whether the acquisition thread
was told to stop. -/
structure Grounds extends Ledger where
  stopped : Bool := false

/-- What the surroundings answer. A party reads of it what it asks for. -/
structure Answers where
  /-- The token that the election holds. -/
  held : Option Token := none
  /-- How the wait for leadership ends. -/
  waited : Except ElectionFailure Token := .error .interrupted
  /-- What goes wrong with a construction, if anything does. -/
  construction : Option String := none
  /-- How a delegate returns from its release. -/
  release : Operation.Return := .clean
  /-- Who may be leading. -/
  hint : Option HostAndPort := none
  /-- Why the shard takes no work, if it takes none. -/
  refusal : Option ExecutorFailure := none
  /-- Whether a shard that takes no more work had already taken the operation. -/
  accepted : Bool := false

namespace Grounds

/-- Reports notices. -/
def report (grounds : Grounds) (notices : List Notice) : Grounds :=
  { grounds with toLedger := grounds.note notices }

/-- The end of a construction: a new delegate, unless something went wrong. -/
def construct (grounds : Grounds) (failure : Option String) : Except String Nat × Grounds :=
  match failure with
  | some failure => (.error failure, grounds)
  | none => (.ok (grounds.brought + 1), { grounds with brought := grounds.brought + 1 })

end Grounds

/-- The next step of an acquisition, `ProxyInner::try_to_gain_leadership` or
`ProxyInner::gain_leadership_with_retry`, and the work it hands to the acquisition thread. -/
def Acquisition.proceed (client : String) (grounds : Grounds) (answers : Answers)
    (acquisition : Acquisition) : Acquisition × Grounds × Option Acquisition :=
  match acquisition with
  | .enter | .refused _ | .again .. | .excuse .. | .relax _ | .confirm .. =>
    let (next, notices) := acquisition.flagRead client grounds.register.closed
    (next, grounds.report notices, none)
  | .ask => (acquisition.held answers.held, grounds, none)
  | .handOver .. =>
    let (next, task) := acquisition.handedOver (refusal client grounds.stopped)
    (next, grounds, task)
  | .queued .. => (acquisition.started, grounds, none)
  | .wait _ | .build .. => (acquisition.begun, grounds, none)
  | .waiting _ => (acquisition.waited answers.waited, grounds, none)
  | .gainPause _ | .buildPause .. => (acquisition.woken, grounds, none)
  | .building .. =>
    let (result, grounds) := grounds.construct answers.construction
    let (next, notices) := acquisition.built client result
    (next, grounds.report notices, none)
  | .publishing operation =>
    match operation.standing with
    | .finished (.published term) =>
      let (next, notices) := acquisition.published client term
      (next, grounds.report notices, none)
    | _ =>
      let (next, ledger) := operation.proceed grounds.toLedger answers.release
      (.publishing next, { grounds with toLedger := ledger }, none)
  | .finished => (.finished, grounds, none)

/-- The next step of a call, `ProxyInner::call` or `ProxyInner::call_async`, and the work it hands
to the acquisition thread. A call that is about to begin its operation, or waits for its operation
or its checks, stays as it is. -/
def Call.proceed {α : Type} (setting : Setting) (grounds : Grounds) (answers : Answers)
    (call : Call α) : Call α × Grounds × Option Acquisition :=
  match call with
  | .enter | .lookOpen .. | .rearm _ =>
    (call.flagRead setting grounds.register.closed, grounds, none)
  | .take | .takeAgain _ | .lookServed .. | .interrupted .. =>
    (call.currentRead grounds.register.current, grounds, none)
  | .excuse | .apologise .. => (call.hintRead answers.hint, grounds, none)
  | .ending cause operation =>
    match operation.standing with
    | .finished (.ended won) => (call.ended won, grounds, none)
    | _ =>
      let (next, ledger) := operation.proceed grounds.toLedger answers.release
      (.ending cause next, { grounds with toLedger := ledger }, none)
  | .acquiring cause acquisition =>
    match acquisition with
    | .finished => (call.acquired, grounds, none)
    | _ =>
      let (next, grounds, task) := acquisition.proceed setting.client grounds answers
      (.acquiring cause next, grounds, task)
  | .begin _ | .underway _ | .operated .. | .confirmed _ | .finished _ => (call, grounds, none)

/-- What a call finds when it takes a step, and what it is answered. -/
structure Call.Moment where
  grounds : Grounds
  answers : Answers

/-- A call after some of its steps. -/
def Call.course {α : Type} (setting : Setting) (moments : Nat → Moment) (call : Call α) :
    Nat → Call α
  | 0 => call
  | n + 1 => ((call.course setting moments n).proceed setting (moments n).grounds
      (moments n).answers).1

/-- The grounds that a call leaves by one of its steps, and the work that it hands to the
acquisition thread. -/
def Call.leaves {α : Type} (setting : Setting) (moments : Nat → Moment) (call : Call α) (n : Nat) :
    Grounds × Option Acquisition :=
  ((call.course setting moments n).proceed setting (moments n).grounds (moments n).answers).2

/-- A closing of the proxy, by what it does next in `ProxyInner::close`. -/
inductive Closing
  /-- The register is being closed. -/
  | shutting (operation : Operation)
  /-- Tell the acquisition thread to stop. -/
  | stopping
  | finished
  deriving DecidableEq, Repr

/-- The next step of a closing. -/
def Closing.proceed (grounds : Grounds) (answers : Answers) : Closing → Closing × Grounds
  | shutting operation =>
    match operation.standing with
    | .finished _ => (stopping, grounds)
    | _ =>
      let (next, ledger) := operation.proceed grounds.toLedger answers.release
      (shutting next, { grounds with toLedger := ledger })
  | stopping => (finished, { grounds with stopped := true })
  | finished => (finished, grounds)

/-- A check of a token that was begun, and its answer once it has one. -/
structure Check where
  token : Token
  answer : Option (Except ElectionFailure LeadingStatus) := none

/-- How far the operation of a call has come, on the delegate it was given. -/
inductive Work (α : Type)
  /-- It was not asked for. -/
  | absent
  /-- It was asked for and has not begun. -/
  | ready (delegate : Nat)
  | running (delegate : Nat)
  /-- It has come to something, or was lost. -/
  | ended (delegate : Nat) (outcome : Outcome α)

/-- A call with its operation and its checks. -/
structure Caller (α : Type) where
  style : Style
  call : Call α := .enter
  /-- The term that it has taken. -/
  term : Option Term := none
  work : Work α := .absent
  /-- The run of checks of its token. -/
  validation : Option Validation := none
  /-- The checks that were begun, latest first. -/
  checks : List Check := []

namespace Caller

variable {α : Type}

/-- What happens around a call. -/
inductive Event (α : Type)
  | operationBegun
  | operationOver (outcome : Outcome α)
  /-- A check was handed to the shard, unless the shard took no work. -/
  | checkHandedOver (refusal : Option ExecutorFailure)
  | checkBegun
  | checkOver (delivery : Run.Delivery LeadingStatus ElectionFailure)
  /-- The delay between two checks has passed. -/
  | delayOver
  /-- The run of checks was called off by its scheduler. -/
  | checksCalledOff
  /-- The call is told what its operation has come to. -/
  | toldOperation
  /-- The call is told what its checks have come to. -/
  | toldChecks
  /-- What the call was waiting with was dropped by its shard. -/
  | dropped

/-- A call that is made in some style, with `LeadershipProxy::call` or
`LeadershipProxy::call_async`. Where waiting would block the only thread that could end the wait
(`BlockingWait::for_current_thread`), a blocking call fails at once. -/
def make (style : Style) (mayWait : Bool) : Caller α :=
  match style, mayWait with
  | .blocking, false =>
    { style, call := .finished (.error (.executor (.wouldBlock Call.checkName))) }
  | _, _ => { style }

/-- The check and the operation are begun for the term that was taken. Only an asynchronous call
depends on the shard for that; it calls the checks off if the shard has not even taken its
operation. -/
def begin (term : Term) (answers : Answers) (caller : Caller α) : Caller α :=
  let refusal := match caller.style with
    | .blocking => none
    | .async => answers.refusal
  let call := caller.call.begun refusal
  match refusal, answers.accepted with
  | some _, false => { caller with call, validation := some Run.start.cancel }
  | _, _ => { caller with call, validation := some .start, work := .ready term.delegate }

/-- The next step of a call with what accompanies it, and the work that it hands to the acquisition
thread. A call that looks for a served term takes the one it finds. -/
def proceed (profile : Profile) (grounds : Grounds) (answers : Answers) (caller : Caller α) :
    Caller α × Grounds × Option Acquisition :=
  match caller.call with
  | .begin term => (caller.begin term answers, grounds, none)
  | .take | .takeAgain _ =>
    let (call, left, task) :=
      caller.call.proceed (profile.setting caller.style) grounds answers
    ({ caller with call, term := grounds.register.current }, left, task)
  | call =>
    let (call, left, task) := call.proceed (profile.setting caller.style) grounds answers
    ({ caller with call }, left, task)

/-- What an operation that was asked for comes to. Only a shard can lose one. -/
def workOver (caller : Caller α) (outcome : Outcome α) : Work α :=
  match caller.work, outcome, caller.style with
  | .running delegate, .lost, .async => .ended delegate .lost
  | .ready delegate, .lost, .async => .ended delegate .lost
  | work, .lost, _ => work
  | .running delegate, outcome, _ => .ended delegate outcome
  | work, _, _ => work

/-- A check begins that was handed over: it is the first thing that comes of its attempt. -/
def beginCheck (caller : Caller α) : Caller α :=
  match caller.validation, caller.term with
  | some (.attempting attempt), some term =>
    if attempt.toNat = caller.checks.length + 1 then
      { caller with checks := ⟨term.token, none⟩ :: caller.checks }
    else caller
  | _, _ => caller

/-- What has come of the check that was begun: its answer, if it was not lost. -/
def answered (checks : List Check) :
    Run.Delivery LeadingStatus ElectionFailure → List Check
  | .value status => answerLatest checks (.ok status)
  | .failure failure => answerLatest checks (.error failure)
  | .lost => checks
where
  /-- Gives the latest check its answer. -/
  answerLatest (checks : List Check) (answer : Except ElectionFailure LeadingStatus) :
      List Check :=
    match checks with
    | check :: earlier => { check with answer := some answer } :: earlier
    | [] => []

/-- A check that was handed over comes to its end; it must have been begun to be answered. -/
def finishCheck (profile : Profile) (caller : Caller α)
    (delivery : Run.Delivery LeadingStatus ElectionFailure) : Caller α × List Notice :=
  match caller.validation with
  | some (.attempting attempt) =>
    let (run, notices) := (Run.attempting attempt).receive (statusRetrier profile.budget)
      profile.shard delivery
    match delivery with
    | .lost => ({ caller with validation := some run }, notices)
    | delivery =>
      if attempt.toNat = caller.checks.length then
        ({ caller with validation := some run, checks := answered caller.checks delivery },
          notices)
      else (caller, [])
  | _ => (caller, [])

/-- The call is told what its operation has come to; if that is no value, it calls its checks off,
as `ProxyInner::call` and `ProxyInner::reconcile_async` do. -/
def tellOperation (profile : Profile) (caller : Caller α) : Caller α × List Notice :=
  match caller.work, caller.call with
  | .ended _ outcome, .underway _ | .ended _ outcome, .confirmed _ =>
    let (call, notices) := caller.call.operationOver (profile.setting caller.style) outcome
    match outcome with
    | .value _ => ({ caller with call }, notices)
    | _ => ({ caller with call, validation := caller.validation.map Run.cancel }, notices)
  | _, _ => (caller, [])

/-- What happens around a call. What cannot happen now changes nothing. -/
def undergo (profile : Profile) (caller : Caller α) : Event α → Caller α × List Notice
  | .operationBegun =>
    match caller.work with
    | .ready delegate => ({ caller with work := .running delegate }, [])
    | _ => (caller, [])
  | .operationOver outcome => ({ caller with work := caller.workOver outcome }, [])
  | .checkHandedOver refusal =>
    ({ caller with validation := caller.validation.map (·.handOver refusal) }, [])
  | .checkBegun => (caller.beginCheck, [])
  | .checkOver delivery => caller.finishCheck profile delivery
  | .delayOver => ({ caller with validation := caller.validation.map Run.wake }, [])
  | .checksCalledOff => ({ caller with validation := caller.validation.map Run.cancel }, [])
  | .toldOperation => caller.tellOperation profile
  | .toldChecks =>
    match caller.validation.bind Run.result? with
    | some result =>
      let (call, notices) := caller.call.checked (profile.setting caller.style) result
      ({ caller with call }, notices)
    | none => (caller, [])
  | .dropped =>
    match caller.style, caller.call with
    | .async, .underway _ | .async, .operated .. | .async, .confirmed _ =>
      let failure := CallFailure.executor (.taskLost profile.shard)
      ({ caller with call := .finished (.error failure) }, [])
    | _, _ => (caller, [])

end Caller

/-- A party to a proxy. -/
inductive Party (α : Type)
  | calling (caller : Caller α)
  | acquiring (acquisition : Acquisition)
  | closing (closing : Closing)

/-- The next step of a party, and the work it hands to the acquisition thread. -/
def Party.proceed {α : Type} (profile : Profile) (grounds : Grounds) (answers : Answers) :
    Party α → Party α × Grounds × Option Acquisition
  | calling caller =>
    let (caller, grounds, task) := caller.proceed profile grounds answers
    (calling caller, grounds, task)
  | acquiring acquisition =>
    let (acquisition, grounds, task) := acquisition.proceed profile.client grounds answers
    (acquiring acquisition, grounds, task)
  | closing next =>
    let (next, grounds) := next.proceed grounds answers
    (closing next, grounds, none)

/-- The acquisition that a party carries on, be it a party of its own or started by a call. -/
def Party.acquisition? {α : Type} : Party α → Option Acquisition
  | acquiring acquisition => some acquisition
  | calling caller => caller.call.acquisition?
  | closing _ => none

end Tenure
