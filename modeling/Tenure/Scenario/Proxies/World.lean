import Tenure.Election.Local
import Tenure.Executor.Pool
import Tenure.Proxy.Party
import Tenure.Term.Course

/-!
# Proxies and their surroundings

Some proxies that share one election and one set of executors, each seen together with the
scripts it goes by: what the election answers it, how its constructions end, and what its
delegates do when they are released. A script is used from front to back, and what follows it
goes well.

A delegate is a value that operations read and change. It is known by its number in the order of
construction, from one. Operations that are given as a list of actions work on counters.

## Main definitions

* `ProxyWatch.Action` — what may be done to the election, a proxy or the executors
* `ProxyWatch.Body`, `ProxyWatch.Operation` — what a call does to a delegate
* `ProxyWatch.Seat` — a proxy with its scripts, its counts and what was seen of it
* `ProxyWatch.World` — the election, the executors, the proxies and the calls that are open
-/

namespace Tenure.ProxyWatch

/-- One thing done to the election, to a proxy or to the executors. -/
inductive Action
  | grant
  | revoke
  | force (status : Option LeadingStatus)
  | point (hint : Option HostAndPort)
  | close
  | stopShards
  | stopScheduler
  | stopAll
  deriving DecidableEq, Repr

/-- How a construction ends. -/
inductive Construction
  | works
  | fails (failure : String)
  /-- It never returns. -/
  | breaks
  /-- On the acquisition thread it waits for the factory to be opened, and then ends well or
  not. -/
  | gated (failure : Option String)
  /-- It closes its proxy, if the proxy has been handed out, and then ends well. -/
  | closesProxy
  /-- It changes the election and then ends well. -/
  | elects (grants : Bool)
  deriving DecidableEq, Repr

/-- What an operation returns. -/
inductive Return (α : Type)
  /-- The number of the delegate. -/
  | number
  /-- What the delegate has counted. -/
  | count
  | given (value : α)
  | fails (failure : DelegateFailure)
  /-- It never returns. -/
  | breaks
  deriving Inhabited

/-- What a call answers its caller: a number, or what its operation was given. -/
inductive Value (α : Type)
  | number (n : Nat)
  | given (value : α)

/-- When the checks of a call are answered, and which of its halves an asynchronous call takes first
when it goes on. It may find both there, and takes any of them then. -/
structure Order where
  first : Call.Arrival := .operationFirst
  /-- How many checks are answered before the operation begins. -/
  early : Nat := 0
  /-- How many more are answered after the operation is over, before the call goes on. -/
  late : Nat := 0
  /-- Whether checks that come first are taken before the operation begins, and not only when that
  is over as well. -/
  prompt : Bool := true
  deriving DecidableEq, Repr

/-- Where a caller makes its call, or waits for it. -/
inductive Place
  /-- On a thread that may be blocked. -/
  | anywhere
  /-- On the only thread of a runtime, where waiting is refused. -/
  | onlyThread
  /-- The caller does not wait. -/
  | nowhere
  deriving DecidableEq, Repr

/-- How a call is made. -/
structure Manner where
  order : Order := {}
  place : Place := .anywhere
  deriving DecidableEq, Repr

/-- What an operation does, from its first action to its return. -/
inductive Body (α : Type)
  | return (value : Return α)
  | act (action : Action) (next : Body α)
  /-- Makes the delegate count. -/
  | increment (next : Body α)
  /-- Calls the same proxy from inside. -/
  | call (style : Style) (manner : Manner) (inner next : Body α)
  deriving Inhabited

/-- What a caller is told. -/
inductive Told (β : Type)
  | result (result : Except CallFailure β)
  /-- The call never returned. -/
  | broke

/-- What whoever makes a call hears of it. -/
inductive Heard (β : Type)
  | told (told : Told β)
  /-- The caller does not wait, and the call goes on without it. -/
  | dropped
  /-- The proxy that was to be called is not there any more. -/
  | noProxy

/-- What is seen of a proxy, in order. -/
inductive Event (α : Type)
  | created (delegate : Nat)
  | notCreated
  | creationBroke
  | released (delegate : Nat)
  /-- The operation of an asynchronous call is called for. -/
  | invoked (delegate : Nat)
  /-- An operation begins. -/
  | operation (delegate : Nat)
  /-- A call from inside an operation has come back. -/
  | nested (heard : Heard (Value α))

/-- A proxy of delegates `δ` on its grounds, with its scripts, its counts and what was seen of
it. -/
structure Seat (α δ : Type) extends Grounds where
  name : String
  client : String
  shard : String
  retrier : Retrier LeadingStatus
  /-- Whether the pause after a failed wait ends within the time of observation. -/
  gainPauseEnds : Bool
  /-- Whether the pause after a failed construction ends within the time of observation. -/
  buildPauseEnds : Bool
  waits : List ElectionFailure
  answers : List (Except ElectionFailure LeadingStatus)
  constructions : List Construction
  releases : List Conduct
  /-- What is done once, before the next reading of the hint. -/
  hintHook : Option Action
  /-- The acquisition on the acquisition thread. -/
  task : Option Acquisition := none
  /-- How the construction that waits for the factory will end. -/
  gate : Option (Option String) := none
  /-- Whether the proxy has been handed out. -/
  handedOut : Bool := false
  dropped : Bool := false
  checks : Nat := 0
  waitCount : Nat := 0
  creations : Nat := 0
  /-- A delegate as it is built. -/
  fresh : δ
  /-- The delegates, each by its number less one. -/
  delegates : List δ := []
  events : List (Event α) := []

/-- An asynchronous call whose operation and checks are held back. -/
structure Held (α : Type) where
  id : String
  seat : Nat
  call : Call (Value α)
  validation : Nat
  delegate : Nat
  /-- What the operation will do, until it is let go. -/
  body : Option (Body α)

/-- The election, the executors, the proxies, the runs of checks, the calls that are held back
and what was reported. -/
structure World (α δ : Type) where
  election : LocalElection := {}
  executors : Executors Unit Unit
  seats : List (Seat α δ) := []
  /-- Each run of checks with its proxy and the token it checks. -/
  validations : List (Nat × Token × Validation) := []
  held : List (Held α) := []
  notices : List Notice := []

/-- Whether an event is that an operation is called for. -/
def Event.isInvoked {α : Type} : Event α → Bool
  | .invoked _ => true
  | _ => false

/-- Whether a call is the one that a proxy has under a name. -/
def Held.isCalled {α : Type} (held : Held α) (seat : Nat) (id : String) : Bool :=
  held.seat == seat && held.id == id

namespace Seat

variable {α δ : Type}

/-- Shows an event. -/
def «show» (seat : Seat α δ) (event : Event α) : Seat α δ :=
  { seat with events := seat.events ++ [event] }

/-- Shows how a construction has ended, with the delegate that was built. -/
def create (seat : Seat α δ) (failure : Option String) : Seat α δ :=
  match failure with
  | some _ => seat.show .notCreated
  | none =>
    { seat with delegates := seat.delegates ++ [seat.fresh] }.show (.created seat.brought)

/-- The delegate of a number. -/
def delegate? (seat : Seat α δ) (number : Nat) : Option δ := seat.delegates[number - 1]?

/-- Changes the delegate of a number. -/
def modifyDelegate (seat : Seat α δ) (number : Nat) (change : δ → δ) : Seat α δ :=
  { seat with delegates := seat.delegates.modify (number - 1) change }

/-- What a call knows of the proxy. -/
def setting (seat : Seat α δ) (style : Style) : Call.Setting := ⟨seat.client, seat.shard, style⟩

end Seat

namespace World

variable {α δ : Type}

/-- Changes a proxy. -/
def modify (world : World α δ) (i : Nat) (change : Seat α δ → Seat α δ) : World α δ :=
  { world with seats := world.seats.modify i change }

/-- Whether a proxy was dropped, or never was. -/
def isGone (world : World α δ) (i : Nat) : Bool := (world.seats[i]?.map Seat.dropped).getD true

/-- Reports notices. -/
def note (world : World α δ) (notices : List Notice) : World α δ :=
  { world with notices := world.notices ++ notices }

/-- The grounds of a proxy have changed. What was reported on the way is reported to all. -/
def ground (world : World α δ) (i : Nat) (grounds : Grounds) : World α δ :=
  (world.note grounds.notices).modify i fun seat =>
    { seat with toGrounds := { grounds with notices := [] } }

/-- Whether the shards were told to stop. -/
def shardsStopped (world : World α δ) : Bool := world.executors.pool.shards.all (·.stopping)

/-- What the shards answer to new work for a proxy. -/
def shardRefusal (world : World α δ) (seat : Seat α δ) : Option ExecutorFailure :=
  let worker := world.executors.pool.shardFor seat.client
  if worker.admits then none else some worker.refusal

end World

end Tenure.ProxyWatch
