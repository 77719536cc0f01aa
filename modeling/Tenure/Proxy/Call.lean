import Tenure.Election.Status
import Tenure.Proxy.Acquisition
import Tenure.Retry.Run

/-!
# Calls through a proxy

A call takes the term that is served at its begin, has the term's token checked by the election
while its operation runs on the term's delegate, and passes the operation's value on only if
the token was confirmed, the proxy is still open and that very term is still served. A call that
learns that its term is over ends it, and the one call that does so starts the next
acquisition.

Calls come in two styles. A blocking call runs its operation on the caller's thread and looks
at the outcome of the check only after that. An asynchronous call runs its operation on a shard
and takes whichever of the two outcomes it finds first, and any of them if it finds both; a token
that is not confirmed fails it even before the operation is over.

A call is known by what it does next. Each function below answers one question that a call asks
of its surroundings, and says how it goes on; a call that asks something else is left as it is.

## Main definitions

* `Call` — a call by what it does next; `Call.Setting` — what it knows of its proxy
* `Call.Arrival` — which of the two outcomes comes first
* `Verdict`, `Call.verdict` — what the outcome of a check means for a call
* `Call.flagRead`, `Call.currentRead`, `Call.hintRead`, `Call.begun`, `Call.checked`,
  `Call.operationOver`, `Call.ended`, `Call.acquired` — how it goes on
* `Call.Half`, `Call.hear`, `Call.hearAll` — what it hears while it is under way
-/

namespace Tenure

/-- How a call runs its operation. -/
inductive Style
  | blocking
  | async
  deriving DecidableEq, Repr

/-- A run of checks of one token. -/
abbrev Validation := Run LeadingStatus ElectionFailure

/-- What a run of checks has come to. -/
abbrev Checked := Except (RetryFailure ElectionFailure) LeadingStatus

/-- How many checks a call makes at most, and that an answer without a majority settles nothing: the
retrier that `LeadershipProxy::new` makes. -/
def statusRetrier (budget : UInt32) : Retrier LeadingStatus :=
  Retrier.new budget LeadingStatus.isConclusive

/-- What an operation comes to. -/
inductive Outcome (α : Type)
  | value (value : α)
  | failure (failure : DelegateFailure)
  /-- The shard dropped it. -/
  | lost

/-- A call, by what it does next in `ProxyInner::call` or `ProxyInner::call_async`. -/
inductive Call (α : Type)
  /-- Look whether the proxy is open. -/
  | enter
  /-- Take the served term. -/
  | take
  /-- There is no served term: ask who may be leading. -/
  | excuse
  /-- Someone may be leading: look for a served term again. -/
  | takeAgain (hint : HostAndPort)
  /-- Begin the check and the operation. -/
  | begin (term : Term)
  /-- Neither the check nor the operation is over. -/
  | underway (term : Term)
  /-- The operation has a value; the check is awaited. -/
  | operated (term : Term) (value : α)
  /-- The token was confirmed; the operation is awaited. -/
  | confirmed (term : Term)
  /-- The token was confirmed and there is a value: look whether the proxy is open. -/
  | lookOpen (term : Term) (value : α)
  /-- The proxy is open: look whether the term is still served. -/
  | lookServed (term : Term) (value : α)
  /-- The operation was interrupted: look whether the term is still served. -/
  | interrupted (term : Term) (failure : DelegateFailure)
  /-- The term is being ended. -/
  | ending (cause : Option String) (operation : Operation)
  /-- The term was ended by this call: look whether the proxy is open. -/
  | rearm (cause : Option String)
  /-- The next acquisition is being started. -/
  | acquiring (cause : Option String) (acquisition : Acquisition)
  /-- Ask who may be leading. -/
  | apologise (reason : String) (cause : Option String)
  | finished (result : Except CallFailure α)

/-- Whether a term can be relied upon. -/
inductive Verdict
  | valid
  | stale
  deriving DecidableEq, Repr

namespace Call

/-- What a call knows of its proxy. -/
structure Setting where
  client : String
  /-- The name of the shard that serves the client. -/
  shard : String
  style : Style
  deriving DecidableEq, Repr

/-- Which of its two halves a call takes first, its operation or its checks: the branch that
`ProxyInner::reconcile_async` selects. -/
inductive Arrival
  | operationFirst
  | checksFirst
  deriving DecidableEq, Repr

/-- The name under which checks are waited for. -/
def checkName : String := "leadership validation"

/-- Why a call fails that finds no served term. -/
def notLeading : String := "method invoked on a non-leader"

/-- Why a call fails that found its term to be over. -/
def leadershipLost : String := "method invoked on a non-leader (leadership lost)"

/-- Why a call fails whose term was over before it looked again. -/
def termChanged : String := "leadership term changed during the call"

/-- Why a call fails that was interrupted while its term ended. -/
def interruptedByElection : String := "received an interrupt due to leader election"

/-- What the outcome of a check means for a call. No majority, and a check that keeps failing,
are taken for a no; an executor that fails settles nothing and fails the call. This is
`ProxyInner::verdict`. -/
def verdict (client : String) : Checked → Except ExecutorFailure Verdict × List Notice
  | .ok .leading => (.ok .valid, [])
  | .ok .notLeading => (.ok .stale, [])
  | .ok .noQuorum => (.ok .stale, [])
  | .error (.attempt failure) => (.ok .stale, [.checkFailed client failure])
  | .error (.executor failure) => (.error failure, [])
  | .error .cancelled => (.error (.taskLost checkName), [])

variable {α : Type}

/-- A call whose term is over ends the term, `ProxyInner::mark_not_leading`. -/
def lose (client : String) (term : Term) (cause : Option String) : Call α × List Notice :=
  (ending cause (.invalidate term), [.lost client term.token.term term.generation cause])

/-- The look whether the proxy is open, in `ProxyInner::current_term`, `ProxyInner::reconcile` and
`ProxyInner::mark_not_leading`. -/
def flagRead (setting : Setting) (closed : Bool) : Call α → Call α
  | enter => if closed then finished (.error (.closed setting.client)) else take
  | lookOpen term value =>
    if closed then finished (.error (.closed setting.client)) else lookServed term value
  | rearm cause => if closed then apologise leadershipLost cause else acquiring cause .enter
  | other => other

/-- The look at the served term, in `ProxyInner::current_term`, `ProxyInner::reconcile` and
`ProxyInner::handle_delegate_failure`. -/
def currentRead (current : Option Term) : Call α → Call α
  | take =>
    match current with
    | some term => begin term
    | none => excuse
  | takeAgain hint =>
    match current with
    | some term => begin term
    | none => finished (.error (.notLeader ⟨notLeading, some hint, none⟩))
  | lookServed term value =>
    if current = some term then finished (.ok value) else apologise termChanged none
  | interrupted term failure =>
    if current = some term then finished (.error (.delegate failure))
    else apologise interruptedByElection (some failure.message)
  | other => other

/-- What `ProxyInner::not_current_leader` is answered when it asks who may be leading. -/
def hintRead (hint : Option HostAndPort) : Call α → Call α
  | excuse =>
    match hint with
    | some peer => takeAgain peer
    | none => finished (.error (.notLeader ⟨notLeading, none, none⟩))
  | apologise reason cause => finished (.error (.notLeader ⟨reason, hint, cause⟩))
  | other => other

/-- The begin of the check and the operation, unless the shard takes no work:
`ProxyInner::start_validation` and, of an asynchronous call, what is submitted after it. -/
def begun (refusal : Option ExecutorFailure) : Call α → Call α
  | begin term =>
    match refusal with
    | none => underway term
    | some failure => finished (.error (.executor failure))
  | other => other

/-- How a call goes on with the outcome of its check, given how it goes on if the token was
confirmed: `ProxyInner::verdict` and then `ProxyInner::reconcile`. -/
def weigh (setting : Setting) (term : Term) (result : Checked) (confirmed : Call α) :
    Call α × List Notice :=
  match verdict setting.client result with
  | (.ok .valid, notices) => (confirmed, notices)
  | (.ok .stale, notices) =>
    let (call, more) := lose setting.client term none
    (call, notices ++ more)
  | (.error failure, notices) => (finished (.error (.executor failure)), notices)

/-- The outcome of the check, as `ProxyInner::reconcile_async` takes it. A blocking call,
`ProxyInner::call`, does not look at it while its operation runs. -/
def checked (setting : Setting) (result : Checked) : Call α → Call α × List Notice
  | underway term =>
    match setting.style with
    | .blocking => (underway term, [])
    | .async => weigh setting term result (confirmed term)
  | operated term value => weigh setting term result (lookOpen term value)
  | other => (other, [])

/-- How a call goes on whose operation failed, `ProxyInner::handle_delegate_failure`. -/
def handle (setting : Setting) (term : Term) (failure : DelegateFailure) :
    Call α × List Notice :=
  match failure.kind with
  | .notLeading => lose setting.client term (some failure.message)
  | .interrupted => (interrupted term failure, [])
  | .other => (finished (.error (.delegate failure)), [])

/-- The outcome of the operation, as `ProxyInner::call` and `ProxyInner::reconcile_async` take it. A
lost one fails the call as `ProxyInner::operation_lost` says. -/
def operationOver (setting : Setting) (outcome : Outcome α) : Call α → Call α × List Notice
  | underway term =>
    match outcome with
    | .value value => (operated term value, [])
    | .failure failure => handle setting term failure
    | .lost => (finished (.error (.executor (.taskLost setting.shard))), [])
  | confirmed term =>
    match outcome with
    | .value value => (lookOpen term value, [])
    | .failure failure => handle setting term failure
    | .lost => (finished (.error (.executor (.taskLost setting.shard))), [])
  | other => (other, [])

/-- The end of the term's ending: the one call that ended it starts the next acquisition, the rest
of `ProxyInner::mark_not_leading`. -/
def ended (won : Bool) : Call α → Call α
  | ending cause _ => if won then rearm cause else apologise leadershipLost cause
  | other => other

/-- The end of what the call has to do with the next acquisition. -/
def acquired : Call α → Call α
  | acquiring cause _ => apologise leadershipLost cause
  | other => other

/-- What the call has come to. -/
def result? : Call α → Option (Except CallFailure α)
  | finished result => some result
  | _ => none

/-- The acquisition that a call has started and carries on. -/
def acquisition? : Call α → Option Acquisition
  | acquiring _ acquisition => some acquisition
  | _ => none

/-- Whether a call waits for its operation or its checks. -/
def isWaiting : Call α → Bool
  | underway _ | operated .. | confirmed _ => true
  | _ => false

/-- One of the two things that a call hears while it is under way. -/
inductive Half (α : Type)
  | operation (outcome : Outcome α)
  | checks (result : Checked)

/-- A call hears one of them. -/
def hear (setting : Setting) (call : Call α) : Half α → Call α × List Notice
  | .operation outcome => call.operationOver setting outcome
  | .checks result => call.checked setting result

/-- A call hears some of them, one after the other. -/
def hearAll (setting : Setting) (call : Call α) : List (Half α) → Call α × List Notice
  | [] => (call, [])
  | half :: others =>
    let (call, notices) := call.hear setting half
    let (call, more) := call.hearAll setting others
    (call, notices ++ more)

/-- What a call in some style hears. A blocking call asks for its checks after its operation, and
hears of them then, even if they have arrived before. -/
def Arrival.halves (arrival : Arrival) (style : Style) (outcome : Outcome α)
    (result : Checked) : List (Half α) :=
  match arrival, style with
  | .operationFirst, _ => [.operation outcome, .checks result]
  | .checksFirst, .async => [.checks result, .operation outcome]
  | .checksFirst, .blocking => [.checks result, .operation outcome, .checks result]

end Call

end Tenure
