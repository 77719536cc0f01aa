import Tenure.Scenario.Proxies.Calls
import Tenure.Scenario.Proxies.Making

/-!
# Proxies under observation

Some proxies that share an election and executors, and what is seen of them after every step:
the answer to the step, what was reported, and of each proxy what happened to it, whether it is
closed, which term it serves and what it has counted.

An asynchronous call may be started with both its operation and its checks held back, and each
of the two let go at a step of its own.

## Main definitions

* `ProxyWatch.Step` — what may be done
* `ProxyWatch.Report` — what is seen afterwards
* `ProxyWatch.run` — the reports on a list of steps
-/

namespace Tenure.ProxyWatch

/-- One thing done with the proxies. -/
inductive Step (α : Type)
  | make (proxy : String) (setup : Setup)
  | extend (proxy : String) (scripts : Scripts)
  | act (proxy : String) (action : Action)
  | call (proxy : String) (manner : Manner) (body : Body α)
  | callAsync (proxy : String) (manner : Manner) (body : Body α)
  | start (proxy id : String) (body : Body α)
  | releaseOperation (proxy id : String) (resolve : Bool)
  | releaseCheck (proxy id : String) (resolve : Bool)
  | finish (proxy id : String)
  | look (proxy id : String)
  | burst (proxy : String) (calls : Nat)
  | openFactory (proxy : String)
  | drop (proxy : String)
  | quoted (proxy : String)

/-- What a step answers. -/
inductive Reply (α : Type)
  | nothing
  /-- What whoever took the step hears of it. -/
  | heard (heard : Heard (Value α))
  | client (name : String)
  | term (number : Nat)
  | pending
  | unknown
  | text (text : String)
  /-- Whether there was a proxy to drop. -/
  | verdict (existed : Bool)
  | results (told : List (Told (Value α))) (invoked : List Nat)

/-- What is seen of a proxy. -/
structure ProxyReport (α : Type) where
  name : String
  events : List (Event α)
  notices : List Notice
  /-- Whether it is closed, unless it was dropped. -/
  closed : Option Bool
  /-- The number of the term it serves. -/
  term : Option Nat
  checks : Nat
  waits : Nat
  creations : Nat
  built : Nat
  released : Nat

/-- What is seen after a step: the answer, what was reported without naming a client, and the
proxies. -/
structure Report (α : Type) where
  reply : Reply α
  notices : List Notice
  proxies : List (ProxyReport α)

namespace World

variable {α : Type}

/-- Starts an asynchronous call whose operation and checks are held back. One that is over at
once is not held. -/
def start (world : World α Nat) (i : Nat) (id : String) (body : Body α) : Reply α × World α Nat :=
  match world.seats[i]?, world.advance i (.enter : Call (Value α)) with
  | some seat, (some (.begin term), world) =>
    let (v, world) := world.beginChecks i seat term.token
    match (Call.begin term : Call (Value α)).begun (world.shardRefusal seat) with
    | .underway term =>
      let world := Body.invoke i term.delegate world
      let held := world.informHeld ⟨id, i, .underway term, v, term.delegate, some body⟩
      match held.call.result? with
      | some result => (.heard (.told (.result result)), world)
      | none =>
        (.text ("PendingCall \x7b executor: " ++ Text.quoted seat.shard ++ ", .. \x7d"),
          { world with held := held :: world.held.filter (!·.isCalled i id) })
    | call => (.heard (.told (tell (some call))), world)
  | _, (call, world) => (.heard (.told (tell call)), world)

/-- The held call that a proxy has under a name. -/
def held? (world : World α Nat) (i : Nat) (id : String) : Option (Held α) :=
  world.held.find? (·.isCalled i id)

/-- Changes the held call that a proxy has under a name. -/
def modifyHeld (world : World α Nat) (i : Nat) (id : String) (change : Held α → Held α) :
    World α Nat :=
  { world with
    held := world.held.map fun held => if held.isCalled i id then change held else held }

/-- The result of a held call, which is given out once. -/
def collect (world : World α Nat) (i : Nat) (id : String) : Reply α × World α Nat :=
  match world.held? i id with
  | none => (.unknown, world)
  | some held =>
    match held.call.result? with
    | some result =>
      (.heard (.told (.result result)),
        { world with held := world.held.filter (!·.isCalled i id) })
    | none => (.pending, world)

/-- A held call goes on after it was told something; one that breaks off was lost by its
shard. -/
def advanceHeld (world : World α Nat) (held : Held α) (seat : Seat α Nat)
    (told : Call (Value α) × List Notice) : World α Nat :=
  let (call, world) := world.advanceWith held.seat told
  let call := call.getD (.finished (.error (.executor (.taskLost seat.shard))))
  world.modifyHeld held.seat held.id fun held => { held with call }

/-- Tells a held call what its checks have come to, if they are over. -/
def informAndAdvance (world : World α Nat) (i : Nat) (id : String) : World α Nat :=
  match world.held? i id with
  | none => world
  | some held =>
    match world.seats[held.seat]?, world.checkResult held.validation with
    | some seat, some result =>
      world.advanceHeld held seat (held.call.checked (seat.setting .async) result)
    | _, _ => world

/-- Lets the operation of a held call go. An operation that has stopped its own shard is the last
that the shard does for the call: what the call would still have to wait for is lost. -/
def releaseOperation (world : World α Nat) (i : Nat) (id : String) : World α Nat :=
  match world.held? i id with
  | none => world
  | some held =>
    match held.body, world.seats[held.seat]? with
    | some body, some seat =>
      let world := world.modifyHeld i id fun held => { held with body := none }
      let (ending, world) := (body.operation held.seat .async).operate held.delegate world
      match world.held? i id with
      | none => world
      | some now =>
        let setting := seat.setting .async
        let call := if world.shardsStopped then held.call else now.call
        match ending, call, world.shardsStopped with
        | none, _, _ =>
          (world.cancelChecks held.validation).advanceHeld held seat
            (call.operationOver setting .lost)
        | some (.ok _), .underway _, true => world
        | some ending, _, _ =>
          let world := match ending with
            | .ok _ => world
            | .error _ => world.cancelChecks held.validation
          (world.advanceHeld held seat
            (call.operationOver setting (outcome ending))).informAndAdvance i id
    | _, _ => world

/-- Lets the checks of a held call go, until they are over. -/
def releaseCheck (world : World α Nat) (i : Nat) (id : String) : World α Nat :=
  match world.held? i id with
  | none => world
  | some held => (world.finishChecks held.validation).informAndAdvance i id

/-- What a step answers that has let half of a held call go. -/
def resolve (world : World α Nat) (i : Nat) (id : String) (resolves : Bool) :
    Reply α × World α Nat :=
  if resolves then world.collect i id
  else if (world.held? i id).isSome then (.pending, world) else (.unknown, world)

/-- Some asynchronous calls one after another, each answering its number. Whether the operation
of a call was called for is told by that number and not shown otherwise. -/
def burst (i : Nat) : List Nat → World α Nat → List (Told (Value α)) × List Nat × World α Nat
  | [], world => ([], [], world)
  | n :: rest, world =>
    let before := (world.seats[i]?.map (·.events.length)).getD 0
    let op : CallOperation α Nat (Value α) :=
      ⟨Body.invoke i, fun _ world => (some (.ok (.number n)), world)⟩
    let (told, world) := world.asyncCall i {} op
    let after := (world.seats[i]?.map (·.events.drop before)).getD []
    let world := world.modify i fun seat =>
      { seat with events := seat.events.take before ++ after.filter (!·.isInvoked) }
    let (others, invoked, world) := burst i rest world
    (told :: others, if after.any (·.isInvoked) then n :: invoked else invoked, world)

/-- Carries out a step on a proxy that is there. -/
def stepAt (world : World α Nat) (i : Nat) : Step α → Reply α × World α Nat
  | .make .. => (.nothing, world)
  | .extend _ scripts => (.nothing, world.extend i scripts)
  | .act _ action =>
    match world.act i action with
    | (.nothing, world) => (.nothing, world)
    | (.term number, world) => (.term number, world)
    | (.broke, world) => (.heard (.told .broke), world)
  | .call _ manner body =>
    let (told, world) := world.blockingCall i manner (body.operation i .blocking)
    (.heard (.told told), world)
  | .callAsync _ manner body =>
    let (told, world) := world.asyncCall i manner (body.operation i .async)
    (.heard (world.hear i manner.place told), world)
  | .start _ id body => world.start i id body
  | .releaseOperation _ id resolves => (world.releaseOperation i id).resolve i id resolves
  | .releaseCheck _ id resolves => (world.releaseCheck i id).resolve i id resolves
  | .finish _ id => world.collect i id
  | .look _ id => world.collect i id
  | .burst _ calls =>
    let (told, invoked, world) := burst i (List.range calls) world
    (.results told invoked, world)
  | .openFactory _ => (.nothing, world.openFactory i)
  | .drop _ =>
    if world.isGone i then (.verdict false, world)
    else
      match world.dropAt i with
      | (true, world) => (.verdict true, world)
      | (false, world) => (.heard (.told .broke), world)
  | .quoted _ =>
    match world.seats[i]? with
    | none => (.nothing, world)
    | some seat =>
      if world.isGone i || seat.register.current.isSome then (.nothing, world)
      else
        (.text ("LeadershipProxy \x7b client: " ++ Text.quoted seat.client ++ ", closed: "
          ++ toString seat.register.closed ++ ", token: None \x7d"), world)

end World

namespace Step

variable {α : Type}

/-- The proxy a step is about. -/
def proxy : Step α → String
  | make proxy _ | extend proxy _ | act proxy _ | call proxy _ _ | callAsync proxy _ _
  | start proxy _ _ | releaseOperation proxy _ _ | releaseCheck proxy _ _ | finish proxy _
  | look proxy _ | burst proxy _ | openFactory proxy | drop proxy | quoted proxy => proxy

/-- Whether a step needs the proxy itself, and not only what is left of one that was dropped. -/
def needsProxy : Step α → Bool
  | call .. | callAsync .. | start .. | burst .. => true
  | _ => false

end Step

namespace World

variable {α : Type}

/-- Carries out a step. -/
def step (world : World α Nat) (step : Step α) : Reply α × World α Nat :=
  match step, world.find? step.proxy with
  | .make name setup, _ =>
    match world.make name 0 setup with
    | (true, world) => (.client setup.client, world)
    | (false, world) => (.heard (.told .broke), world)
  | _, none => (.heard .noProxy, world)
  | _, some i =>
    if step.needsProxy && world.isGone i then (.heard .noProxy, world)
    else world.stepAt i step

/-- What is seen of a proxy. -/
def proxyReport (world : World α Nat) (seat : Seat α Nat) : ProxyReport α where
  name := seat.name
  events := seat.events
  notices := world.notices.filter fun notice => notice.client? == some seat.client
  closed := if seat.dropped then none else some seat.register.closed
  term := if seat.dropped then none else seat.register.current.map (·.token.term)
  checks := seat.checks
  waits := seat.waitCount
  creations := seat.creations
  built := seat.brought
  released := seat.released.length

/-- What is seen after a step that answered so. -/
def report (world : World α Nat) (reply : Reply α) : Report α where
  reply
  notices := world.notices.filter fun notice => notice.client?.isNone
  proxies := world.seats.zipIdx.filterMap fun (seat, i) =>
    if world.find? seat.name == some i then some (world.proxyReport seat) else none

/-- The reports on the steps, in order. -/
def run (world : World α Nat) : List (Step α) → List (Report α)
  | [] => []
  | step :: rest =>
    let (reply, world) := world.forget.step step
    let world := world.settle
    world.report reply :: world.run rest

end World

/-- The reports on the steps, with so many shards and after some things were done before any
proxy was made. -/
def run {α : Type} (shards : Nat) (before : List Action) (steps : List (Step α)) :
    List (Report α) :=
  let world : World α Nat := { executors := { pool := Pool.new shards } }
  (before.foldl (fun world action => (world.perform 0 action).2) world).run steps

end Tenure.ProxyWatch
