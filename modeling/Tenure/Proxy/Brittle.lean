import Tenure.Proxy.Concourse

/-!
# A proxy whose surroundings break off

The wait for leadership, the construction of a delegate, its release, and the operation of a
blocking call are not the proxy's own code. Instead of coming back, with a value or an error, any
of them may break off, and what was waiting for it breaks off with it: an acquisition on its
thread, the rest of an asynchronous call on its shard, a blocking call or a closing on the thread
of whoever made it. A party that has broken off takes no further step and hears of nothing. Only
the checks of its token go on, which are the shard's.

An operation that breaks off on a shard is no more than lost to its call, and a construction that
breaks off while the proxy is made leaves no proxy; neither is a move of its own here.

## Main definitions

* `Party.isExposed` — a party that would break off with what it waits for
* `Brittle` — a proxy and those of its parties that have broken off
* `Brittle.Move`, `Brittle.step` — one move; `Brittle.after` — what a schedule has led to
-/

namespace Tenure

variable {α : Type}

/-- Whether an operation on the register waits for a delegate to be released. -/
def Operation.isExposed : Operation → Bool
  | releasing .. => true
  | _ => false

/-- Whether an acquisition waits for the election, for a construction or for a release. -/
def Acquisition.isExposed : Acquisition → Bool
  | waiting _ | building .. => true
  | publishing operation => operation.isExposed
  | _ => false

/-- Whether a call waits for a release, or carries on an acquisition that waits. -/
def Call.isExposed : Call α → Bool
  | ending _ operation => operation.isExposed
  | acquiring _ acquisition => acquisition.isExposed
  | _ => false

/-- Whether a call would break off: a blocking one does so with its operation, too. -/
def Caller.isExposed (caller : Caller α) : Bool :=
  match caller.style, caller.call, caller.work with
  | .blocking, .underway _, .running _ => true
  | _, call, _ => call.isExposed

/-- Whether a closing waits for a release. -/
def Closing.isExposed : Closing → Bool
  | shutting operation => operation.isExposed
  | _ => false

/-- Whether a party would break off with what it waits for. While the proxy is made its first
acquisition may build a delegate; if that breaks off, there is no proxy. -/
def Party.isExposed : Party α → Bool
  | calling caller => caller.isExposed
  | acquiring (.building .caller ..) => false
  | acquiring acquisition => acquisition.isExposed
  | closing next => next.isExposed

/-- Whether the call is told something by the event. -/
def Caller.Event.tells : Caller.Event α → Bool
  | toldOperation | toldChecks | dropped => true
  | _ => false

/-- A proxy and those of its parties that have broken off. -/
structure Brittle (α : Type) extends Proxy α where
  /-- The places of the parties that have broken off. -/
  broken : List Nat := []

namespace Brittle

/-- One move. -/
inductive Move (α : Type)
  /-- A move at the proxy. -/
  | goOn (move : Proxy.Move α)
  /-- What the party at a place waits for breaks off. -/
  | breakOff (i : Nat)

/-- Whether a move can be made by the one who makes it: who has broken off makes none. -/
def permits (brittle : Brittle α) : Proxy.Move α → Bool
  | .proceed i _ | .drop i => decide (i ∉ brittle.broken)
  | .undergo i event => decide (i ∉ brittle.broken) || !event.tells
  | _ => true

/-- The proxy after a move. A move that cannot be made changes nothing. -/
def step (profile : Profile) (brittle : Brittle α) : Move α → Brittle α
  | .goOn move =>
    if brittle.permits move then { brittle with toProxy := brittle.toProxy.step profile move }
    else brittle
  | .breakOff i =>
    if (brittle.parties[i]?).any Party.isExposed then
      { brittle with broken := brittle.broken ++ [i] }
    else brittle

/-- What the first moves of a schedule have led to. -/
def after (profile : Profile) (schedule : Nat → Move α) : Nat → Brittle α
  | 0 => { toProxy := .start }
  | n + 1 => (after profile schedule n).step profile (schedule n)

/-- The schedule that makes these moves, and after them goes on with a move that changes
nothing. -/
def script (moves : List (Move α)) (n : Nat) : Move α :=
  moves.getD n (.goOn (.undergo 0 .delayOver))

end Brittle

end Tenure
