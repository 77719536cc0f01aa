import Tenure.Scenario.Proxies.Rest

/-!
# Making and dropping proxies

A proxy is made for a client, with scripts of its own. It begins to acquire leadership while it
is being made, and it is handed out when that has gone as far as it can on the thread of whoever
makes it. A proxy that is dropped is closed first. Of proxies that share a name, the latest is
meant.

## Main definitions

* `ProxyWatch.Scripts`, `ProxyWatch.Setup` — what a proxy goes by, and how it is made
* `World.make`, `World.extend`, `World.dropAt` — making a proxy, adding to its scripts, and
  dropping it
* `World.find?`, `World.alive?` — the proxy of a name
* `World.forget` — the world with nothing seen yet
-/

namespace Tenure.ProxyWatch

/-- What a proxy goes by: the answers to its waits and checks, the ends of its constructions and
releases, and what is done before its next reading of the hint. -/
structure Scripts where
  waits : List ElectionFailure := []
  answers : List (Except ElectionFailure LeadingStatus) := []
  constructions : List Construction := []
  releases : List Conduct := []
  hintHook : Option Action := none

/-- How a proxy is made. The pauses are in milliseconds. -/
structure Setup where
  client : String
  budget : UInt32 := 3
  gainPause : Nat := 1
  buildPause : Nat := 1
  scripts : Scripts := {}

/-- The pause, in milliseconds, from which on no pause ends within the time of observation. -/
def horizon : Nat := 1000

namespace World

variable {α δ : Type}

/-- The place of the latest proxy of a name. -/
def find? (world : World α δ) (name : String) : Option Nat :=
  (world.seats.zipIdx.reverse.find? fun (seat, _) => seat.name == name).map (·.2)

/-- The place of the proxy of a name, unless it was dropped. -/
def alive? (world : World α δ) (name : String) : Option Nat :=
  (world.find? name).filter fun i => !world.isGone i

/-- A proxy that has not been handed out, given what a new delegate is. -/
def seatFor (world : World α δ) (name : String) (fresh : δ) (setup : Setup) : Seat α δ where
  name
  client := setup.client
  shard := (world.executors.pool.shardFor setup.client).name
  retrier := statusRetrier setup.budget
  gainPauseEnds := setup.gainPause < horizon
  buildPauseEnds := setup.buildPause < horizon
  waits := setup.scripts.waits
  answers := setup.scripts.answers
  constructions := setup.scripts.constructions
  releases := setup.scripts.releases
  hintHook := setup.scripts.hintHook
  fresh

/-- Closes a proxy and forgets it; the answer is whether the closing came to its end. -/
def dropAt (world : World α δ) (i : Nat) : Bool × World α δ :=
  let (returned, world) := world.close i
  (returned, world.modify i fun seat => { seat with dropped := true })

/-- Makes a proxy, `LeadershipProxy::new`, which begins to acquire leadership at once; a proxy of
the same name is dropped. The answer is whether there is a new proxy: there is none if its thread
cannot be named after the client, or if the acquisition breaks off. -/
def make (world : World α δ) (name : String) (fresh : δ) (setup : Setup) : Bool × World α δ :=
  let old := world.alive? name
  let i := world.seats.length
  let seated := { world with seats := world.seats ++ [world.seatFor name fresh setup] }
  if !Worker.nameable setup.client then (false, world)
  else
    match seated.acquire i .enter with
    | (false, broken) => (false, { broken with seats := broken.seats.take i })
    | (true, world) =>
      let world := world.modify i fun seat => { seat with handedOut := true }
      match old with
      | some old => (true, (world.dropAt old).2)
      | none => (true, world)

/-- Appends to a proxy's scripts. -/
def extend (world : World α δ) (i : Nat) (scripts : Scripts) : World α δ :=
  world.modify i fun seat => { seat with
    waits := seat.waits ++ scripts.waits
    answers := seat.answers ++ scripts.answers
    constructions := seat.constructions ++ scripts.constructions
    releases := seat.releases ++ scripts.releases
    hintHook := scripts.hintHook <|> seat.hintHook }

/-- Forgets what was seen. -/
def forget (world : World α δ) : World α δ :=
  { world with
    notices := []
    seats := world.seats.map fun seat => { seat with events := [] } }

end World

end Tenure.ProxyWatch
