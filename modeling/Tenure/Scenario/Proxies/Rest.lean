import Tenure.Scenario.Proxies.World

/-!
# Coming to rest

Between any two things that are done, the acquisitions of all proxies go on until none of them
can: each has published a term, or has given up, or waits in an election that holds no token,
or waits for its factory to be opened, or pauses for longer than anyone observes it. An
acquisition that breaks off on its own thread is gone for good; one that breaks off on its
caller's thread breaks off the caller too.

## Main definitions

* `World.operate`, `World.close` — operations on a proxy's register, with the delegates that are
  released on the way
* `World.proceed`, `World.progress` — the next step of an acquisition, and how it gets on
* `World.acquire` — an acquisition on its caller's thread
* `World.settle` — all acquisitions go on until none can
-/

namespace Tenure.ProxyWatch

namespace World

variable {α δ : Type}

/-- The acquisition thread of a proxy is told to stop, which ends a closing. -/
def stopAcquiring (world : World α δ) (i : Nat) : World α δ :=
  match world.seats[i]? with
  | none => world
  | some seat => world.ground i (Closing.stopping.proceed seat.toGrounds {}).2

/-- Delegates are released as the proxy's script says. -/
def surroundings (i : Nat) : Surroundings (World α δ) where
  release holding world :=
    let conduct := match world.seats[i]? with
      | some seat => seat.releases.head?.getD .clean
      | none => .clean
    (conduct, world.modify i fun seat =>
      { seat with releases := seat.releases.tail }.show (.released holding.delegate))
  closedInside world := world.stopAcquiring i

/-- Runs an operation on a proxy's register; without an outcome, it was broken off. -/
def operate (world : World α δ) (i : Nat) (operation : Operation) :
    Option Operation.Outcome × World α δ :=
  match world.seats[i]? with
  | none => (none, world)
  | some seat =>
    let (outcome, ledger, world) := operation.course (surroundings i) seat.toLedger world
    let stopped := (world.seats[i]?.map (·.stopped)).getD false
    (outcome, world.ground i { toLedger := ledger, stopped })

/-- Closes a proxy, `ProxyInner::close`: its register first, and then its acquisition thread is told
to stop. The answer is whether the closing came to its end. -/
def close (world : World α δ) (i : Nat) : Bool × World α δ :=
  match world.operate i .shut with
  | (some _, world) => (true, world.stopAcquiring i)
  | (none, world) => (false, world)

/-- An acquisition of a proxy takes its next step. -/
def proceed (world : World α δ) (i : Nat) (acquisition : Acquisition) (answers : Answers) :
    Acquisition × World α δ :=
  match world.seats[i]? with
  | none => (acquisition, world)
  | some seat =>
    let (next, grounds, task) := acquisition.proceed seat.client seat.toGrounds answers
    (next, (world.ground i grounds).modify i fun seat => { seat with task := task <|> seat.task })

/-- What a construction has come to. -/
inductive Constructed
  /-- It ends well, unless something went wrong. -/
  | ends (failure : Option String)
  | waits
  | broke

/-- A construction, as the proxy's script says. -/
def construct (world : World α δ) (i : Nat) (site : Site) : Constructed × World α δ :=
  let entry := match world.seats[i]? with
    | some seat => seat.constructions.head?.getD .works
    | none => .works
  let world := world.modify i fun seat =>
    { seat with constructions := seat.constructions.tail, creations := seat.creations + 1 }
  match entry, site with
  | .works, _ => (.ends none, world)
  | .fails failure, _ => (.ends (some failure), world)
  | .breaks, _ => (.broke, world.modify i fun seat => seat.show .creationBroke)
  | .gated failure, .caller => (.ends failure, world)
  | .gated failure, .own => (.waits, world.modify i fun seat => { seat with gate := some failure })
  | .closesProxy, _ =>
    let handedOut := (world.seats[i]?.map Seat.handedOut).getD false
    (.ends none, if handedOut then (world.close i).2 else world)
  | .elects true, _ => (.ends none, { world with election := world.election.grant.2 })
  | .elects false, _ => (.ends none, { world with election := world.election.revoke })

/-- The construction of an acquisition ends. -/
def conclude (world : World α δ) (i : Nat) (acquisition : Acquisition)
    (failure : Option String) : Acquisition × World α δ :=
  let (next, world) := world.proceed i acquisition { construction := failure }
  (next, world.modify i fun seat => seat.create failure)

/-- How an acquisition gets on. -/
inductive Stride
  | to (next : Acquisition)
  /-- Nothing moves it now. -/
  | rests
  /-- It is over, dropped or broken off. -/
  | gone (broke : Bool)

/-- An acquisition of a proxy gets on by its next step. -/
def stride (world : World α δ) (i : Nat) (acquisition : Acquisition) (answers : Answers) :
    Stride × World α δ :=
  let (next, world) := world.proceed i acquisition answers
  (.to next, world)

/-- The next step of an acquisition of a proxy, or some that nothing comes between: a wait whose end
the script says, a construction, a publication. -/
def progress (world : World α δ) (i : Nat) (seat : Seat α δ) (acquisition : Acquisition) :
    Stride × World α δ :=
  if seat.stopped && acquisition.isDroppable then (.gone false, world)
  else
    match acquisition with
    | .enter | .refused _ | .again .. | .excuse .. | .relax _ | .confirm .. | .handOver ..
    | .queued .. => world.stride i acquisition {}
    | .ask => world.stride i acquisition { held := world.election.held }
    | .wait _ =>
      let (waiting, world) := world.proceed i acquisition {}
      let world := world.modify i fun seat =>
        { seat with waits := seat.waits.tail, waitCount := seat.waitCount + 1 }
      match seat.waits with
      | failure :: _ => world.stride i waiting { waited := .error failure }
      | [] => (.to waiting, { world with election := world.election.beginWait })
    | .waiting _ =>
      match world.election.held with
      | some token => world.stride i acquisition { waited := .ok token }
      | none => (.rests, world)
    | .gainPause _ => if seat.gainPauseEnds then world.stride i acquisition {} else (.rests, world)
    | .buildPause .. =>
      if seat.buildPauseEnds then world.stride i acquisition {} else (.rests, world)
    | .build site .. =>
      let (building, world) := world.proceed i acquisition {}
      match world.construct i site with
      | (.ends failure, world) =>
        let (next, world) := world.conclude i building failure
        (.to next, world)
      | (.waits, world) => (.to building, world)
      | (.broke, world) => (.gone true, world)
    | .building .. => (.rests, world)
    | .publishing operation =>
      match world.operate i operation with
      | (some outcome, world) => world.stride i (.publishing (.done outcome)) {}
      | (none, world) => (.gone true, world)
    | .finished => (.gone false, world)

/-- An acquisition goes on for some steps on its caller's thread; the answer is whether it came
to its end there. -/
def pursue (i : Nat) : Nat → Acquisition → World α δ → Bool × World α δ
  | 0, _, world => (true, world)
  | steps + 1, acquisition, world =>
    match world.seats[i]? with
    | none => (true, world)
    | some seat =>
      match world.progress i seat acquisition with
      | (.to next, world) => pursue i steps next world
      | (.rests, world) => (true, world)
      | (.gone broke, world) => (!broke, world)

/-- An acquisition on its caller's thread, which takes seven steps at most. -/
def acquire (world : World α δ) (i : Nat) (acquisition : Acquisition) : Bool × World α δ :=
  pursue i 8 acquisition world

/-- The world after the first of some proxies whose acquisition can go on has taken a step. -/
def stir (world : World α δ) : List Nat → Option (World α δ)
  | [] => none
  | i :: others =>
    match world.seats[i]? with
    | none => world.stir others
    | some seat =>
      match seat.task with
      | none => world.stir others
      | some acquisition =>
        match world.progress i seat acquisition with
        | (.to next, world) => some (world.modify i fun seat => { seat with task := some next })
        | (.gone _, world) => some (world.modify i fun seat => { seat with task := none })
        | (.rests, _) => world.stir others

/-- How many steps all acquisitions can take before they rest: every failed wait and every failed
construction is an entry of a script, and takes five steps at most. -/
def stamina (world : World α δ) : Nat :=
  world.seats.foldr
    (fun seat others => 8 * (seat.waits.length + seat.constructions.length) + 16 + others) 0

/-- Acquisitions go on, at most for some steps. -/
def settleWithin : Nat → World α δ → World α δ
  | 0, world => world
  | steps + 1, world =>
    match world.stir (List.range world.seats.length) with
    | some world => settleWithin steps world
    | none => world

/-- All acquisitions go on until none can. -/
def settle (world : World α δ) : World α δ := settleWithin world.stamina world

/-- Opens the factory of a proxy: the construction that waits for it comes to its end. -/
def openFactory (world : World α δ) (i : Nat) : World α δ :=
  match world.seats[i]? with
  | none => world
  | some seat =>
    match seat.gate, seat.task with
    | some failure, some acquisition =>
      let (next, world) := world.conclude i acquisition failure
      world.modify i fun seat => { seat with gate := none, task := some next }
    | _, _ => world

end World

end Tenure.ProxyWatch
