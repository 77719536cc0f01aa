import Mathlib.Control.Monad.Basic
import Tenure.Scenario.Proxies.Steps

/-!
# What a proxy does, told simply

As long as one thing is done at a time, everything has come to rest before the next, and nothing
goes wrong with the factory, a proxy over a local election needs no threads to be understood. It is
a machine that knows what the election knows, which term it serves and whether it is closed, and
that answers every step from that.

Tokens are told apart here by the numbers of their terms, which the election counts up from one.

## Main definitions

* `Change` — what may be done to the election
* `Whole` — what may be done with the proxy, one thing at a time; `Whole.step` — as a step
* `Reference` — the machine
* `Reference.change`, `Reference.call`, `Reference.close`, `Reference.catchUp` — what it does
* `Reference.sights` — what is seen of it, step by step; `Report.sight` — what is seen of a proxy
-/

namespace Tenure.ProxyWatch

/-- One thing done to the election. -/
inductive Change
  | grant
  | revoke
  | force (status : Option LeadingStatus)
  | point (hint : Option HostAndPort)
  deriving DecidableEq, Repr

/-- The change as something that is done. -/
def Change.action : Change → Action
  | grant => .grant
  | revoke => .revoke
  | force status => .force status
  | point hint => .point hint

/-- One thing done with a proxy from outside. -/
inductive Whole (α : Type)
  | elect (change : Change)
  /-- A call whose operation does nothing but come to a value or a failure, with its checks answered
  in some order. -/
  | call (style : Style) (order : Order) (ending : Except DelegateFailure α)
  | close

namespace Whole

variable {α : Type}

/-- What an operation does that comes to this. -/
def body : Except DelegateFailure α → Body α
  | .ok value => .return (.given value)
  | .error failure => .return (.fails failure)

/-- The step that does it, on the proxy of a name. -/
def step (proxy : String) : Whole α → Step α
  | elect change => .act proxy change.action
  | call .blocking order ending => .call proxy { order } (body ending)
  | call .async order ending => .callAsync proxy { order } (body ending)
  | close => .act proxy .close

/-- The same, with every call taking its operation first. -/
def unhurried : Whole α → Whole α
  | call style _ ending => call style {} ending
  | other => other

end Whole

deriving instance DecidableEq for Value, Told, Heard, Reply

/-- What is seen of a proxy after a step: what the step answered, and of every proxy that there is
whether it is closed and which term it serves. -/
structure Sight (α : Type) where
  reply : Reply α
  proxies : List (Option Bool × Option Nat)
  deriving DecidableEq

/-- What a report shows of that. -/
def Report.sight {α : Type} (report : Report α) : Sight α where
  reply := report.reply
  proxies := report.proxies.map fun proxy => (proxy.closed, proxy.term)

/-- What has to be known of a proxy and its election to tell what it will answer. -/
structure Reference where
  /-- How many terms have been granted. -/
  granted : Nat := 0
  /-- The term that is held. -/
  held : Option Nat := none
  /-- The answer that every check is given. -/
  forced : Option LeadingStatus := none
  /-- The peer named as a likely leader. -/
  hint : Option HostAndPort := none
  /-- The term that is served. -/
  served : Option Nat := none
  closed : Bool := false
  deriving DecidableEq, Repr

namespace Reference

variable {α : Type}

/-- An open proxy that serves no term serves the one that is held. -/
def catchUp (reference : Reference) : Reference :=
  if reference.closed then reference
  else { reference with served := reference.served <|> reference.held }

/-- The election has changed. -/
def change (reference : Reference) : Change → Reply α × Reference
  | .grant =>
    (.term (reference.granted + 1),
      { reference with granted := reference.granted + 1, held := some (reference.granted + 1) })
  | .revoke => (.nothing, { reference with held := none })
  | .force status => (.nothing, { reference with forced := status })
  | .point hint => (.nothing, { reference with hint })

/-- What a check of the served term is told. -/
def status (reference : Reference) : LeadingStatus :=
  reference.forced.getD (if reference.served = reference.held then .leading else .notLeading)

/-- A call that finds its term to be over. -/
def lose (reference : Reference) (cause : Option String) : Except CallFailure α × Reference :=
  (.error (.notLeader ⟨Call.leadershipLost, reference.hint, cause⟩),
    { reference with served := none })

/-- A call that its checks have not failed before its operation could. -/
def finish (reference : Reference) (ending : Except DelegateFailure α) :
    Except CallFailure α × Reference :=
  match ending with
  | .error failure =>
    if failure.kind = .notLeading then reference.lose (some failure.message)
    else (.error (.delegate failure), reference)
  | .ok value =>
    if reference.status = .leading then (.ok value, reference) else reference.lose none

/-- A call. Only an asynchronous one that takes its checks first is failed by them even if its
operation fails as well. -/
def call (client : String) (reference : Reference) (style : Style) (first : Call.Arrival)
    (ending : Except DelegateFailure α) : Except CallFailure α × Reference :=
  if reference.closed then (.error (.closed client), reference)
  else if reference.served = none then
    (.error (.notLeader ⟨Call.notLeading, reference.hint, none⟩), reference)
  else if style = .async ∧ first = .checksFirst ∧ reference.status ≠ .leading then
    reference.lose none
  else reference.finish ending

/-- The proxy is closed. -/
def close (reference : Reference) : Reference := { reference with served := none, closed := true }

/-- What a step answers, before the proxy has caught up. -/
def answer (client : String) (reference : Reference) : Whole α → Reply α × Reference
  | .elect change => reference.change change
  | .call style order ending =>
    let (result, reference) := reference.call client style order.first (ending.map Value.given)
    (.heard (.told (.result result)), reference)
  | .close => (.nothing, reference.close)

/-- What is seen of the machine. -/
def sight (reference : Reference) (reply : Reply α) : Sight α :=
  ⟨reply, [(some reference.closed, reference.served)]⟩

/-- What is seen of the machine, step by step. -/
def sights (client : String) (reference : Reference) : List (Whole α) → List (Sight α)
  | [] => []
  | whole :: rest =>
    let (reply, reference) := reference.answer client whole
    reference.catchUp.sight reply :: reference.catchUp.sights client rest

/-- The machine before there is a proxy, after some changes of the election. -/
def before (changes : List Change) : Reference :=
  changes.foldl (fun reference change => (reference.change (α := Unit) change).2) {}

/-- What is seen of a proxy that is made after some changes of the election, from its making on. -/
def watch (client : String) (changes : List Change) (wholes : List (Whole α)) : List (Sight α) :=
  (before changes).catchUp.sight (.client client) ::
    (before changes).catchUp.sights client wholes

end Reference

end Tenure.ProxyWatch
