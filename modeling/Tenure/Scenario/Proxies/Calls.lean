import Tenure.Scenario.Proxies.Rest

/-!
# Calls and what happens inside them

Calls through a proxy, from the caller's first step to the answer, in a given order: how many checks
are answered before the operation begins and after it is over, and which of the two an asynchronous
call takes first. An operation may do anything that can be done from outside, calls on its own proxy
included.

## Main definitions

* `World.act` — one thing done to the election, a proxy or the executors
* `World.beginChecks`, `World.finishChecks` — the checks of a call
* `World.answerEarly`, `World.answerLate`, `World.takeChecks` — when they are answered and taken
* `World.advance` — a call goes on until it waits for its check or its operation
* `World.blockingCall`, `World.asyncCall` — whole calls
* `Body.run` — an operation
-/

namespace Tenure.ProxyWatch

/-- What comes of something that was done. -/
inductive Acted
  | nothing
  /-- A term was won. -/
  | term (number : Nat)
  /-- It never came back. -/
  | broke
  deriving DecidableEq, Repr

/-- How an operation ends: with a value or a failure, unless it breaks off. -/
abbrev Ending (β : Type) := Option (Except DelegateFailure β)

namespace World

variable {α β δ : Type}

/-- Feeds a held call with what its checks have come to. -/
def informHeld (world : World α δ) (held : Held α) : Held α :=
  match world.validations[held.validation]?, world.seats[held.seat]? with
  | some (_, _, run), some seat =>
    match run.result? with
    | some result => { held with call := (held.call.checked (seat.setting .async) result).1 }
    | none => held
  | _, _ => held

/-- Drops a held call whose shard has ended. -/
def dropHeld (world : World α δ) (held : Held α) : Held α :=
  match held.call.result?, world.seats[held.seat]? with
  | none, some seat =>
    { held with call := .finished (.error (.executor (.taskLost seat.shard))), body := none }
  | _, _ => { held with body := none }

/-- Stops the shards: the checks that are under way are lost, and so are calls that are held
back. -/
def stopShards (world : World α δ) : World α δ :=
  let validations := world.validations.map fun (i, token, run) =>
    match world.seats[i]? with
    | some seat => (i, token, (run.receive seat.retrier seat.shard .lost).1)
    | none => (i, token, run)
  { world with
    executors := world.executors.stopPool
    validations
    held := world.held.map world.dropHeld }

/-- Stops the scheduler: every run of checks that is not over is called off. -/
def stopScheduler (world : World α δ) : World α δ :=
  let validations := world.validations.map fun (i, token, run) => (i, token, run.cancel)
  let world := { world with executors := world.executors.stopScheduler, validations }
  { world with held := world.held.map world.informHeld }

/-- Does one thing, without a rest. -/
def perform (world : World α δ) (i : Nat) : Action → Acted × World α δ
  | .grant =>
    let (token, election) := world.election.grant
    (.term token.term, { world with election })
  | .revoke => (.nothing, { world with election := world.election.revoke })
  | .force status => (.nothing, { world with election := world.election.force status })
  | .point hint => (.nothing, { world with election := world.election.point hint })
  | .close =>
    let (returned, world) := world.close i
    (if returned then .nothing else .broke, world)
  | .stopShards => (.nothing, world.stopShards)
  | .stopScheduler => (.nothing, world.stopScheduler)
  | .stopAll => (.nothing, world.stopShards.stopScheduler)

/-- Does one thing, with a rest before and after. -/
def act (world : World α δ) (i : Nat) (action : Action) : Acted × World α δ :=
  let (acted, world) := world.settle.perform i action
  (acted, world.settle)

/-- Reads who may be leading. What the script has set to be done before is done first, however
it ends. -/
def readHint (world : World α δ) (i : Nat) : Option HostAndPort × World α δ :=
  let world := match world.seats[i]?.bind Seat.hintHook with
    | none => world
    | some action =>
      ((world.modify i fun seat => { seat with hintHook := none }).act i action).2
  (world.election.hint, world)

/-- Changes a run of checks. -/
def modifyRun (world : World α δ) (v : Nat) (run : Validation) : World α δ :=
  { world with validations := world.validations.modify v fun (i, token, _) => (i, token, run) }

/-- Hands the next check of a run over and counts it if the shard takes it. -/
def handOverCheck (world : World α δ) (i : Nat) (seat : Seat α δ) (run : Validation) :
    Validation × World α δ :=
  match run.handOver (world.shardRefusal seat) with
  | .attempting attempt =>
    (.attempting attempt, world.modify i fun seat => { seat with checks := seat.checks + 1 })
  | run => (run, world)

/-- Begins the checks of a token for a call, `ProxyInner::start_validation`, and answers under which
number they run. -/
def beginChecks (world : World α δ) (i : Nat) (seat : Seat α δ) (token : Token) : Nat × World α δ :=
  let v := world.validations.length
  let run : Validation :=
    if world.executors.schedulerStopped then Run.start.cancel else .start
  let (run, world) := world.handOverCheck i seat run
  (v, { world with validations := world.validations ++ [(i, token, run)] })

/-- What a check of a token that is answered now is told. -/
def answerCheck (world : World α δ) (i : Nat) (seat : Seat α δ) (token : Token) :
    Except ElectionFailure LeadingStatus × World α δ :=
  match seat.answers with
  | answer :: _ => (answer, world.modify i fun seat => { seat with answers := seat.answers.tail })
  | [] => (.ok (world.election.beginCheck.answer token),
      { world with election := world.election.beginCheck })

/-- Answers the checks of a run, at most so many, until it is over. -/
def answerChecks (v : Nat) : Nat → World α δ → World α δ
  | 0, world => world
  | more + 1, world =>
    match world.validations[v]? with
    | some (i, token, .attempting attempt) =>
      match world.seats[i]? with
      | none => world
      | some seat =>
        let (answer, world) := world.answerCheck i seat token
        let delivery : Run.Delivery LeadingStatus ElectionFailure := match answer with
          | .ok status => .value status
          | .error failure => .failure failure
        let run := ((Run.attempting attempt).receive seat.retrier seat.shard delivery).1.wake
        let (run, world) := world.handOverCheck i seat run
        answerChecks v more (world.modifyRun v run)
    | _ => world

/-- Answers the checks of a run until it is over. -/
def finishChecks (world : World α δ) (v : Nat) : World α δ :=
  match world.validations[v]? with
  | some (i, _, _) =>
    match world.seats[i]? with
    | some seat => answerChecks v seat.retrier.limit.toNat world
    | none => world
  | none => world

/-- Answers the checks of a run that come before its operation begins. -/
def answerEarly (world : World α δ) (v : Nat) (order : Order) : World α δ :=
  if order.first = .checksFirst ∧ order.prompt then world.finishChecks v
  else answerChecks v order.early world

/-- Answers the checks of a run that come after its operation is over and before its call goes
on. -/
def answerLate (world : World α δ) (v : Nat) (order : Order) : World α δ :=
  if order.first = .checksFirst then world.finishChecks v else answerChecks v order.late world

/-- Calls a run of checks off. -/
def cancelChecks (world : World α δ) (v : Nat) : World α δ :=
  match world.validations[v]? with
  | some (_, _, run) => world.modifyRun v run.cancel
  | none => world

/-- What a run of checks has come to. -/
def checkResult (world : World α δ) (v : Nat) : Option Checked :=
  world.validations[v]?.bind fun (_, _, run) => run.result?

/-- A call goes on for some steps; it is missing if it broke off. -/
def advanceWithin (i : Nat) : Nat → Call β → World α δ → Option (Call β) × World α δ
  | 0, call, world => (some call, world)
  | steps + 1, call, world =>
    match world.seats[i]? with
    | none => (some call, world)
    | some seat =>
      let setting := seat.setting .blocking
      match call with
      | .enter | .lookOpen .. | .rearm _ | .take | .takeAgain _ | .lookServed ..
      | .interrupted .. =>
        advanceWithin i steps (call.proceed setting seat.toGrounds {}).1 world
      | .excuse | .apologise .. =>
        let (hint, world) := world.readHint i
        advanceWithin i steps (call.proceed setting seat.toGrounds { hint }).1 world
      | .ending cause operation =>
        match world.operate i operation with
        | (some outcome, world) =>
          let ended : Call β := .ending cause (.done outcome)
          advanceWithin i steps (ended.proceed setting seat.toGrounds {}).1 world
        | (none, world) => (none, world)
      | .acquiring cause acquisition =>
        match world.acquire i acquisition with
        | (true, world) =>
          let acquired : Call β := .acquiring cause .finished
          advanceWithin i steps (acquired.proceed setting seat.toGrounds {}).1 world
        | (false, world) => (none, world)
      | .begin _ | .underway _ | .operated .. | .confirmed _ | .finished _ => (some call, world)

/-- A call goes on until it waits for its check or its operation, which it does after five steps
at most. -/
def advance (world : World α δ) (i : Nat) (call : Call β) : Option (Call β) × World α δ :=
  advanceWithin i 6 call world

/-- A call goes on after it was told something. -/
def advanceWith (world : World α δ) (i : Nat) (told : Call β × List Notice) :
    Option (Call β) × World α δ :=
  (world.note told.2).advance i told.1

/-- What the caller of a call is told that went on so far. -/
def tell (call : Option (Call β)) : Told β :=
  match call.bind Call.result? with
  | some result => .result result
  | none => .broke

/-- What comes of an operation, in the terms of a call. -/
def outcome : Except DelegateFailure β → Outcome β
  | .ok value => .value value
  | .error failure => .failure failure

/-- A call goes on whose operation is over: a failure calls the checks off, a value waits for
them to be answered. -/
def reconcile (world : World α δ) (i : Nat) (seat : Seat α δ) (style : Style) (v : Nat)
    (call : Call β) (ending : Except DelegateFailure β) :
    Option (Call β) × World α δ :=
  let setting := seat.setting style
  match ending with
  | .error _ => (world.cancelChecks v).advanceWith i (call.operationOver setting (outcome ending))
  | .ok _ =>
    let world := world.finishChecks v
    let (call, notices) := call.operationOver setting (outcome ending)
    match call, world.checkResult v with
    | .operated .., some result =>
      (world.note notices).advanceWith i (call.checked setting result)
    | call, _ => (world.note notices).advance i call

/-- An asynchronous call, in `ProxyInner::reconcile_async`, goes on with its checks, if they are
over and it takes them first. One that has taken them already is left as it is. -/
def takeChecks (world : World α δ) (i : Nat) (seat : Seat α δ) (v : Nat) (order : Order)
    (call : Call β) : Option (Call β) × World α δ :=
  match order.first, world.checkResult v with
  | .checksFirst, some result => world.advanceWith i (call.checked (seat.setting .async) result)
  | _, _ => (some call, world)

/-- What a call does to a delegate: what is done when it is called for, and the operation. -/
structure CallOperation (α δ β : Type) where
  invoke : Nat → World α δ → World α δ
  operate : Nat → World α δ → Ending β × World α δ

/-- A blocking call, `ProxyInner::call`, which breaks off if its operation, or what it does itself,
breaks off. -/
def blockingCall (world : World α δ) (i : Nat) (manner : Manner) (op : CallOperation α δ β) :
    Told β × World α δ :=
  if manner.place = .onlyThread then
    (.result (.error (.executor (.wouldBlock Call.checkName))), world)
  else
    match world.seats[i]?, world.advance i (.enter : Call β) with
    | some seat, (some (.begin term), world) =>
      let (v, world) := world.beginChecks i seat term.token
      match op.operate term.delegate (world.answerEarly v manner.order) with
      | (none, world) => (.broke, world)
      | (some ending, world) =>
        let world := world.answerLate v manner.order
        let (call, world) := world.reconcile i seat .blocking v (.underway term) ending
        (tell call, world)
    | _, (call, world) => (tell call, world)

/-- What the caller of an asynchronous call is told that went on so far: a call that broke off
was lost by its shard. -/
def tellAsync (seat : Seat α δ) (call : Option (Call β)) : Told β :=
  match call.bind Call.result? with
  | some result => .result result
  | none => .result (.error (.executor (.taskLost seat.shard)))

/-- The operation of an asynchronous call, and how the call goes on with its ending. An operation
that has stopped its own shard is the last that the shard does for a call: what the call would
still have to wait for is lost. -/
def asyncOperation (world : World α δ) (i : Nat) (seat : Seat α δ) (v : Nat) (order : Order)
    (term : Term) (call : Call β) (op : CallOperation α δ β) : Told β × World α δ :=
  match op.operate term.delegate world with
  | (none, world) =>
    let (call, world) := (world.cancelChecks v).advanceWith i
      (call.operationOver (seat.setting .async) .lost)
    (tellAsync seat call, world)
  | (some ending, world) =>
    match call, ending, world.shardsStopped with
    | .underway _, .ok _, true => (tellAsync seat none, world)
    | _, _, _ =>
      match (world.answerLate v order).takeChecks i seat v order call with
      | (some (.underway term), world) =>
        let (call, world) := world.reconcile i seat .async v (.underway term) ending
        (tellAsync seat call, world)
      | (some (.confirmed term), world) =>
        let (call, world) := world.reconcile i seat .async v (.confirmed term) ending
        (tellAsync seat call, world)
      | (call, world) => (tellAsync seat call, world)

/-- What the caller of an asynchronous call hears where it waits, `PendingCall::blocking_wait`. -/
def hear (world : World α δ) (i : Nat) (place : Place) (told : Told β) : Heard β :=
  match place, world.seats[i]? with
  | .onlyThread, some seat => .told (.result (.error (.executor (.wouldBlock seat.shard))))
  | .nowhere, _ => .dropped
  | _, _ => .told told

/-- An asynchronous call, `ProxyInner::call_async`, to its end. An unconfirmed token may fail it
before its operation begins; the operation is run all the same, unless its shard has stopped. -/
def asyncCall (world : World α δ) (i : Nat) (manner : Manner) (op : CallOperation α δ β) :
    Told β × World α δ :=
  match world.seats[i]?, world.advance i (.enter : Call β) with
  | some seat, (some (.begin term), world) =>
    let order := manner.order
    let (v, world) := world.beginChecks i seat term.token
    let call : Call β := (Call.begin term).begun (world.shardRefusal seat)
    match call with
    | .underway _ =>
      let world := (op.invoke term.delegate world).answerEarly v order
      let (call, world) :=
        if order.prompt then world.takeChecks i seat v order call else (some call, world)
      match call with
      | some (.underway term) => world.asyncOperation i seat v order term (.underway term) op
      | some (.confirmed term) => world.asyncOperation i seat v order term (.confirmed term) op
      | call =>
        let world := world.settle
        let world := if world.shardsStopped then world else (op.operate term.delegate world).2
        (tellAsync seat call, world)
    | call => (tell (some call), world.cancelChecks v)
  | _, (call, world) => (tell call, world)

end World

namespace Body

variable {α : Type}

/-- What an operation returns. -/
def ending (world : World α Nat) (i delegate : Nat) : Return α → Ending (Value α)
  | .number => some (.ok (.number delegate))
  | .count =>
    let counted := (world.seats[i]?).bind fun seat => seat.delegate? delegate
    some (.ok (.number (counted.getD 0)))
  | .given value => some (.ok (.given value))
  | .fails failure => some (.error failure)
  | .breaks => none

/-- Shows that an operation is called for. -/
def invoke (i delegate : Nat) (world : World α Nat) : World α Nat :=
  world.modify i fun seat => seat.show (.invoked delegate)

/-- Shows that an operation begins. -/
def showBegin (i delegate : Nat) (world : World α Nat) : World α Nat :=
  world.modify i fun seat => seat.show (.operation delegate)

/-- Runs what an operation does on a delegate, in a call of some style. What it does to its
surroundings may break off without breaking the operation. A call that is made from inside an
asynchronous operation must not block, and none can be made once the proxy was dropped. -/
def run (i : Nat) (style : Style) : Body α → Nat → World α Nat → Ending (Value α) × World α Nat
  | .return value, delegate, world => (ending world i delegate value, world)
  | .act action next, delegate, world => next.run i style delegate (world.act i action).2
  | .increment next, delegate, world =>
    next.run i style delegate (world.modify i fun seat => seat.modifyDelegate delegate (· + 1))
  | .call inStyle manner inner next, delegate, world =>
    let op : World.CallOperation α Nat (Value α) :=
      ⟨invoke i, fun delegate world => inner.run i inStyle delegate (showBegin i delegate world)⟩
    let (heard, world) : Heard (Value α) × World α Nat :=
      if world.isGone i then (.noProxy, world)
      else
        match inStyle, style with
        | .blocking, .async =>
          (.told (.result (.error (.executor (.wouldBlock Call.checkName)))), world)
        | .blocking, .blocking =>
          let (told, world) := world.blockingCall i manner op
          (.told told, world)
        | .async, _ =>
          let (told, world) := world.asyncCall i manner op
          (world.hear i manner.place told, world)
    next.run i style delegate (world.settle.modify i fun seat => seat.show (.nested heard))

/-- What a call does whose operation this is. -/
def operation (i : Nat) (style : Style) (body : Body α) : World.CallOperation α Nat (Value α) :=
  ⟨invoke i, fun delegate world => body.run i style delegate (showBegin i delegate world)⟩

end Body

end Tenure.ProxyWatch
