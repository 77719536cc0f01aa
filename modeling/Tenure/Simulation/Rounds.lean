import Tenure.Scenario.Proxies.Calls
import Tenure.Scenario.Proxies.Making
import Tenure.Journal.Line
import Tenure.Simulation.LockTable
import Tenure.Simulation.Plan

/-!
# A simulation of a lock service

A lock service is called through a proxy while an election inside the process grants and revokes
leadership. In every round leadership is granted, some names are locked and one of them is let
go, leadership is revoked, and one more call finds out. What the callers see is kept as
records, and so is the closing of every lock table.

## Main definitions

* `Simulation.Stage` — the world of the simulation and the records so far
* `Simulation.Fault` — how a simulation can end early
* `Simulation.round`, `Simulation.rounds` — what is done in a round, and in some rounds
* `Simulation.run` — a whole simulation, from what it is told to its records
-/

namespace Tenure.Simulation

open ProxyWatch (World Told)

/-- How a simulation can end early. -/
inductive Fault
  | settings (fault : SettingsFault)
  /-- The proxy did not serve a term that had been granted. -/
  | notServed (round : Nat) (token : Token)
  /-- A call failed that had to succeed. -/
  | call (failure : CallFailure)
  /-- The thread of the simulation broke off. -/
  | broke
  deriving DecidableEq, Repr

namespace Fault

/-- What is printed of it at the end. How a failure shows its fields, and what a thread says that
breaks off, is left open. -/
def printed? : Fault → Option String
  | settings fault => fault.printed?
  | notServed round token =>
    let reason := "round " ++ toString round ++ ": proxy did not pick up " ++ token.show
    some ("Error: " ++ Text.quoted reason)
  | call _ | broke => none

/-- The number with which a program ends that ends so. -/
def exitCode : Fault → UInt32
  | broke => 101
  | _ => 1

end Fault

/-- A world whose only proxy has lock tables for delegates. -/
abbrev Scene := World Unit LockTable

/-- The world of a simulation and the records so far. -/
structure Stage where
  scene : Scene
  records : List Record := []

/-- What is done in a simulation, unless it ends early. -/
abbrev Play := ExceptT Fault (StateM Stage)

/-- Keeps a record. -/
def log (level : Level) (message : String) (fields : List (String × String)) : Play Unit :=
  modify fun stage => { stage with records := stage.records ++ [⟨level, message, fields⟩] }

/-- The field for the number of a round. -/
def roundField (round : Nat) : String × String := ("round", toString round)

/-- The field for the name of a lock. -/
def nameField (name : String) : String × String := ("name", Text.quoted name)

/-- The field for the number of a lock. -/
def idField (id : Nat) : String × String := ("id", toString id)

/-- The field for how many names are held. -/
def heldField (held : Nat) : String × String := ("held", toString held)

/-- The records of the lock tables that were closed, in order. -/
def closings (scene : Scene) : List Record :=
  scene.seats.flatMap fun seat => seat.events.filterMap fun
    | .released delegate =>
      (seat.delegate? delegate).map fun table =>
        ⟨.info, "Lock table closed", [heldField table.size]⟩
    | _ => none

/-- Does something in the world of the simulation and keeps the records of the lock tables that
it closes. -/
def enact {β : Type} (action : Scene → β × Scene) : Play β :=
  modifyGet fun stage =>
    let (result, scene) := action stage.scene
    (result, ⟨scene.forget, stage.records ++ closings scene⟩)

/-- What a call does to a lock table. -/
def tableOperation {β : Type} (use : LockTable → Except DelegateFailure β × LockTable) :
    World.CallOperation Unit LockTable β where
  invoke _ scene := scene
  operate delegate scene :=
    match (scene.seats[0]?).bind fun seat => seat.delegate? delegate with
    | some table =>
      let (result, table) := use table
      (some result, scene.modify 0 fun seat => seat.modifyDelegate delegate fun _ => table)
    | none => (none, scene)

/-- What a caller is told, who breaks off with the call. -/
def receive {β : Type} (told : Told β) : Play (Except CallFailure β) :=
  match told with
  | .result result => return result
  | .broke => throw .broke

/-- What a caller is told who relies on the call to succeed. -/
def require {β : Type} (result : Except CallFailure β) : Play β :=
  match result with
  | .ok value => return value
  | .error failure => throw (.call failure)

/-- Locks a name, `ProxiedLocks::lock`. -/
def lock (name : String) : Play (Except CallFailure Nat) := do
  let use (table : LockTable) : Except DelegateFailure Nat × LockTable :=
    let (result, table) := table.lock name
    (result.mapError LockTable.Failure.toDelegate, table)
  receive (← enact fun scene => scene.blockingCall 0 {} (tableOperation use))

/-- Lets a name go, `ProxiedLocks::unlock`. -/
def unlock (name : String) : Play (Except CallFailure Bool) := do
  let use (table : LockTable) : Except DelegateFailure Bool × LockTable :=
    let (released, table) := table.unlock name
    (.ok released, table)
  receive (← enact fun scene => scene.blockingCall 0 {} (tableOperation use))

/-- Counts the names that are held, `ProxiedLocks::held_count`, on a shard, and waits for the
number. -/
def heldCount : Play (Except CallFailure Nat) := do
  let use (table : LockTable) : Except DelegateFailure Nat × LockTable := (.ok table.size, table)
  receive (← enact fun scene => scene.asyncCall 0 {} (tableOperation use))

/-- Calls the service before leadership was ever granted. -/
def callBeforeElection : Play Unit := do
  match ← lock "before-election" with
  | .ok id => log .warn "Locked without leadership" [idField id]
  | .error failure => log .info ("Call before leadership rejected: " ++ failure.message) []

/-- Grants leadership and waits until the proxy serves the term, as `wait_for_term` does. -/
def takeOffice (round : Nat) : Play Unit := do
  let token ← enact fun scene =>
    let (token, election) := scene.settle.election.grant
    (token, { scene.settle with election }.settle)
  let stage ← get
  match (stage.scene.seats[0]?).bind fun seat => seat.register.current with
  | some _ => log .info "Serving" [roundField round, ("token", token.show)]
  | none => throw (.notServed round token)

/-- Locks a name in a round. -/
def lockInRound (round : Nat) (name : String) : Play Unit := do
  match ← lock name with
  | .ok id => log .info "Locked" [roundField round, nameField name, idField id]
  | .error failure =>
    log .info ("Lock refused: " ++ failure.message) [roundField round, nameField name]

/-- Lets a name go in a round and counts what is still held. -/
def releaseInRound (round : Nat) (name : String) : Play Unit := do
  let released ← require (← unlock name)
  let held ← require (← heldCount)
  log .info "Lock table state" [roundField round, ("released", toString released), heldField held]

/-- Revokes leadership and calls the service once more. -/
def leaveOffice (round : Nat) : Play Unit := do
  enact fun scene => ((), { scene with election := scene.election.revoke })
  match ← lock "after-revoke" with
  | .ok id => log .warn "Stale term served a call" [roundField round, idField id]
  | .error failure =>
    if failure.isRetryable then log .info ("Revoked: " ++ failure.message) [roundField round]
    else throw (.call failure)

/-- The names that are locked in a round, the first of them twice. -/
def rows : List String := ["row-1", "row-2", "row-1"]

/-- What is done in a round. -/
def round (number : Nat) : Play Unit := do
  takeOffice number
  rows.forM (lockInRound number)
  releaseInRound number "row-2"
  leaveOffice number

/-- Some rounds, numbered from the next one on. -/
def rounds : Nat → Nat → Play Unit
  | _, 0 => return
  | next, more + 1 => do
    round next
    rounds (next + 1) more

/-- Closes the proxy and stops the executors. -/
def shutDown : Play Unit := do
  let returned ← enact fun scene =>
    let (returned, scene) := scene.settle.close 0
    (returned, if returned then (scene.stopShards.stopScheduler).settle else scene)
  unless returned do throw .broke

/-- Makes the proxy. -/
def makeProxy (config : Config) : Play Unit := do
  let made ← enact fun scene => scene.make config.client {}
    { client := config.client
      budget := config.maxNoQuorumAttempts
      gainPause := config.gainLeadershipBackoff.millis
      buildPause := config.constructionBackoff.millis }
  unless made do throw .broke

/-- The sentence with which a simulation begins. -/
def opening (plan : Plan) : String :=
  "Starting leader proxy simulation\n  Client: " ++ plan.config.client
    ++ "\n  Rounds: " ++ toString plan.rounds.toNat
    ++ "\n  Status checks: " ++ toString plan.config.maxNoQuorumAttempts.toNat
    ++ " x " ++ plan.config.statusRetryDelay.shown

/-- What is done in a simulation, by `main` once it knows its configuration. -/
def play (plan : Plan) : Play Unit := do
  log .info (opening plan) []
  makeProxy plan.config
  callBeforeElection
  rounds 1 plan.rounds.toNat
  shutDown
  log .info "Simulation finished" []

/-- The world before a simulation, with so many shards. -/
def sceneWith (shards : Nat) : Scene := { executors := { pool := Pool.new shards } }

/-- The records of a simulation and how it ended early, if it did. -/
structure Outcome where
  records : List Record
  fault : Option Fault := none
  deriving DecidableEq, Repr

/-- Carries out a plan. A simulation that ends early closes its proxy all the same. -/
def carryOut (shards : Nat) (plan : Plan) : Outcome :=
  match (play plan).run { scene := sceneWith shards } with
  | (.ok (), stage) => ⟨stage.records, none⟩
  | (.error fault, stage) =>
    let (_, stage) := (enact fun scene => scene.close 0).run stage
    ⟨stage.records, some fault⟩

/-- A whole simulation, from what it is told to its records. -/
def run (shards : Nat) (settings : Settings) : Outcome :=
  match settings.plan with
  | .ok plan => carryOut shards plan
  | .error fault => ⟨[], some (.settings fault)⟩

namespace Outcome

/-- The lines that are printed. -/
def lines (outcome : Outcome) : List String := outcome.records.flatMap Record.lines

/-- The number with which the program ends. -/
def exitCode (outcome : Outcome) : UInt32 := (outcome.fault.map Fault.exitCode).getD 0

end Outcome

end Tenure.Simulation
