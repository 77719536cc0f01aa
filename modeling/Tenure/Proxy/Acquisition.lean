import Tenure.Journal
import Tenure.Term.Operation

/-!
# Acquiring leadership

An acquisition begins on the thread of whoever starts it. If the election already holds a token
for this process, the delegate is built there and then; if it does not, or if that construction
fails, the work is handed to the proxy's own acquisition thread. There the election is waited
for, again and again until it gives a token, the delegate is built, again and again until that
succeeds, and the two are published. Before each wait and each construction the acquisition
looks whether the proxy is still open, and gives up if it is not.

An acquisition is known by what it does next. Each function below answers one question that an
acquisition asks of its surroundings, and says how it goes on; an acquisition that asks
something else is left as it is.

## Main definitions

* `Acquisition` — an acquisition by what it does next
* `Acquisition.flagRead`, `Acquisition.held`, `Acquisition.built`, `Acquisition.handedOver`,
  `Acquisition.waited`, `Acquisition.woken`, `Acquisition.published` — how it goes on
-/

namespace Tenure

/-- Where a delegate is built. -/
inductive Site
  /-- On the thread of whoever started the acquisition. -/
  | caller
  /-- On the acquisition thread. -/
  | own
  deriving DecidableEq, Repr

/-- An acquisition, by what it does next. The numbers count the constructions that have failed so
far. It runs through `ProxyInner::try_to_gain_leadership`, from its entry to the handing over, and
then on its thread through `ProxyInner::gain_leadership_with_retry`. -/
inductive Acquisition
  /-- Look whether the proxy is open. -/
  | enter
  /-- Ask the election for the token it holds. -/
  | ask
  /-- Hand the work to the acquisition thread, with the token if one is known. -/
  | handOver (known : Option Token) (failures : UInt32)
  /-- The acquisition thread took no work: look whether the proxy is open. -/
  | refused (failure : ExecutorFailure)
  /-- In the queue of the acquisition thread. -/
  | queued (known : Option Token) (failures : UInt32)
  /-- Look whether the proxy is open, before a wait or a construction. -/
  | again (known : Option Token) (failures : UInt32)
  /-- Begin to wait for leadership. -/
  | wait (failures : UInt32)
  /-- The wait goes on. -/
  | waiting (failures : UInt32)
  /-- The wait has failed: look whether the proxy is open. -/
  | excuse (failure : ElectionFailure) (failures : UInt32)
  /-- The failure has been dealt with: look whether the proxy is open. -/
  | relax (failures : UInt32)
  /-- The pause before the next wait. -/
  | gainPause (failures : UInt32)
  /-- The pause before the next construction. -/
  | buildPause (token : Token) (failures : UInt32)
  /-- Look whether the proxy is open, before a construction. -/
  | confirm (token : Token) (failures : UInt32)
  /-- Begin to build a delegate. -/
  | build (site : Site) (token : Token) (failures : UInt32)
  /-- The construction goes on. -/
  | building (site : Site) (token : Token) (failures : UInt32)
  /-- The token and its delegate are being published. -/
  | publishing (operation : Operation)
  | finished
  deriving DecidableEq, Repr

namespace Acquisition

/-- How an acquisition goes on that knows its token: a construction that follows a failed one is
put off for a while. This is a turn of `ProxyInner::build_delegate`. -/
def prepare (token : Token) (failures : UInt32) : Acquisition :=
  if failures = 0 then confirm token failures else buildPause token failures

/-- What `ProxyInner::gain_leadership_blocking` reports of a wait that failed while the proxy is
open. -/
def waitNotice (client : String) : ElectionFailure → Notice
  | .interrupted => .waitInterrupted client
  | failure => .waitFailed client failure

/-- The look whether the proxy is open, wherever an acquisition takes one. -/
def flagRead (client : String) (closed : Bool) : Acquisition → Acquisition × List Notice
  | enter => (if closed then finished else ask, [])
  | refused failure => (finished, if closed then [] else [.notHandedOver client failure])
  | again (some token) failures => (if closed then finished else prepare token failures, [])
  | again none failures => (if closed then finished else wait failures, [])
  | excuse failure failures => (relax failures, if closed then [] else [waitNotice client failure])
  | relax failures => (if closed then finished else gainPause failures, [])
  | confirm token failures => (if closed then finished else build .own token failures, [])
  | other => (other, [])

/-- The token that the election holds, if it holds one: `ProxyInner::try_to_gain_leadership` has the
delegate built at once, or hands the work over. -/
def held (token : Option Token) : Acquisition → Acquisition
  | ask =>
    match token with
    | some token => build .caller token 0
    | none => handOver none 0
  | other => other

/-- The begin of a wait or a construction. -/
def begun : Acquisition → Acquisition
  | wait failures => waiting failures
  | build site token failures => building site token failures
  | other => other

/-- The end of a construction, in `ProxyInner::try_to_gain_leadership` or in
`ProxyInner::build_delegate`: the number of the delegate, or what went wrong. -/
def built (client : String) (result : Except String Nat) : Acquisition → Acquisition × List Notice
  | building site token failures =>
    match result with
    | .ok delegate => (publishing (.publish ⟨token, delegate⟩), [])
    | .error failure =>
      (match site with
        | .caller => handOver (some token) (failures + 1)
        | .own => buildPause token (failures + 1),
        [.notBuilt client token.term (failures + 1) failure])
  | other => (other, [])

/-- The answer of the acquisition thread to the work that `ProxyInner::spawn_acquisition` gives it:
with it, the acquisition that goes on there. -/
def handedOver (refusal : Option ExecutorFailure) :
    Acquisition → Acquisition × Option Acquisition
  | handOver known failures =>
    match refusal with
    | none => (finished, some (queued known failures))
    | some failure => (refused failure, none)
  | other => (other, none)

/-- The begin of the work on the acquisition thread. -/
def started : Acquisition → Acquisition
  | queued known failures => again known failures
  | other => other

/-- The end of a wait, `ProxyInner::gain_leadership_blocking`. -/
def waited (result : Except ElectionFailure Token) : Acquisition → Acquisition
  | waiting failures =>
    match result with
    | .ok token => prepare token failures
    | .error failure => excuse failure failures
  | other => other

/-- The end of a pause. -/
def woken : Acquisition → Acquisition
  | gainPause failures => again none failures
  | buildPause token failures => confirm token failures
  | other => other

/-- The end of a publication, `ProxyInner::on_delegate_built`: the term, unless the proxy was
closed. -/
def published (client : String) (term : Option Term) : Acquisition → Acquisition × List Notice
  | publishing _ =>
    (finished, match term with
      | some term => [.gained client term.token.term term.generation]
      | none => [])
  | other => (other, [])

/-- What the acquisition thread of a client says to new work once it was told to stop. -/
def refusal (client : String) (stopped : Bool) : Option ExecutorFailure :=
  if stopped then some (.shutDown ("leader-proxy-acquire-" ++ client)) else none

/-- Whether the acquisition is at a point where its thread, told to stop, drops it. -/
def isDroppable : Acquisition → Bool
  | queued .. | waiting _ | gainPause _ | buildPause .. => true
  | _ => false

end Acquisition

end Tenure
