import Tenure.Executor.Worker
import Tenure.Retry.Run

/-!
# Runs of attempts under observation

Runs of attempts on one executor, each attempt doing what a script says: deliver a value or a
failure, break off, stop the executor it runs on, or wait for ever. A run may be called off
while an attempt waits or while the delay after it passes.

## Main definitions

* `RetryWatch.Entry` — what an attempt does
* `RetryWatch.Setting` — what is to be observed
* `RetryWatch.run` — the reports on the runs, in order
-/

namespace Tenure.RetryWatch

/-- At which point of an attempt something happens: when it is begun, or as it goes on. -/
inductive Moment
  | atStart
  | underWay
  deriving DecidableEq, Repr

/-- What an attempt comes to if nothing prevents it. -/
inductive Yield (α : Type)
  | value (value : α)
  | failure (failure : String)
  /-- The number of the attempt. -/
  | number

/-- What an attempt does. -/
structure Entry (α : Type) where
  yield : Yield α := .number
  breaks : Option Moment := none
  stops : Option Moment := none
  /-- It never comes to an end. -/
  waits : Bool := false

/-- How the result of a run is waited for. -/
inductive Wait
  | wherever
  /-- On the only thread of a runtime, where waiting is refused. -/
  | onOnlyThread
  /-- Not at all. -/
  | abandoned
  deriving DecidableEq, Repr

/-- What is stopped before the first run. -/
inductive Stopped
  | nothing
  | executor
  | scheduler
  deriving DecidableEq, Repr

/-- What is to be observed. -/
structure Setting (α : Type) where
  executor : String
  retrier : Retrier α
  /-- What the first attempts of a run do, one after another. -/
  script : List (Entry α)
  /-- What every later attempt does. -/
  later : Entry α
  runs : Nat := 1
  wait : Wait := .wherever
  stopped : Stopped := .nothing
  /-- The attempt at which a run is called off. -/
  cancelAt : Option UInt32 := none
  /-- The number of an attempt as a value. -/
  ofNumber : UInt32 → α

/-- What a waiting caller is told. -/
inductive Reply (α : Type)
  | result (result : Except (RetryFailure String) α)
  | dropped

/-- What is seen of a run. -/
structure Report (α : Type) where
  reply : Reply α
  attempts : Nat
  judged : List α
  notices : List Notice

variable {α : Type}

/-- What an attempt comes to, whether the executor is told to stop meanwhile, and what the
executor reports: nothing is missing if the attempt is over, and it is if it waits for ever. -/
structure Conclusion (α : Type) where
  delivery : Option (Run.Delivery α String)
  stops : Bool
  notices : List Notice := []

/-- What comes of an attempt that does what an entry says. An executor that is stopped as the
attempt begins drops it, and one that is stopped while the attempt waits drops it too. -/
def conclude (setting : Setting α) (attempt : UInt32) (entry : Entry α) : Conclusion α :=
  let stops := entry.stops.isSome
  if entry.breaks = some .atStart then
    ⟨some .lost, entry.stops = some .atStart, [.jobBroke setting.executor]⟩
  else if entry.stops = some .atStart || entry.breaks = some .underWay then
    ⟨some .lost, stops, []⟩
  else if entry.waits then ⟨if stops then some .lost else none, stops, []⟩
  else
    match entry.yield with
    | .value value => ⟨some (.value value), stops, []⟩
    | .failure failure => ⟨some (.failure failure), stops, []⟩
    | .number => ⟨some (.value (setting.ofNumber attempt)), stops, []⟩

/-- A run with what was seen of it so far. -/
structure Watch (α : Type) where
  run : Run α String := .start
  stopping : Bool
  attempts : Nat := 0
  judged : List α := []
  notices : List Notice := []

/-- Calls the run off if it was to be called off at this attempt. -/
def Watch.cancelAt (watch : Watch α) (setting : Setting α) (attempt : UInt32) : Watch α :=
  if setting.cancelAt = some attempt then { watch with run := watch.run.cancel } else watch

/-- One attempt from its hand-over to the end of the delay after it. A run whose attempt waits
for ever stays with it unless it is called off. -/
def Watch.attempt (watch : Watch α) (setting : Setting α) (entry : Entry α) : Watch α :=
  match watch.run with
  | .submitting number =>
    let refused := if watch.stopping then some (.shutDown setting.executor) else none
    match watch.run.handOver refused with
    | .attempting _ =>
      let conclusion := conclude setting number entry
      let watch := { watch with
        run := .attempting number
        attempts := watch.attempts + 1
        stopping := watch.stopping || conclusion.stops
        notices := watch.notices ++ conclusion.notices }
      match conclusion.delivery with
      | none => watch.cancelAt setting number
      | some delivery =>
        let judged := match delivery with
          | .value value => if Run.isLast setting.retrier number then [] else [value]
          | _ => []
        let (run, notices) := Run.receive setting.retrier setting.executor watch.run delivery
        let watch := { watch with
          run, judged := watch.judged ++ judged, notices := watch.notices ++ notices }
        let watch := watch.cancelAt setting number
        { watch with run := watch.run.wake }
    | run => { watch with run }
  | _ => watch

/-- The attempts of a run that do what the script says, while there are any. -/
def Watch.follow (watch : Watch α) (setting : Setting α) : List (Entry α) → Watch α
  | [] => watch
  | entry :: script => (watch.attempt setting entry).follow setting script

/-- The attempts of a run that all do the same, at most so many. -/
def Watch.continue (watch : Watch α) (setting : Setting α) : Nat → Watch α
  | 0 => watch
  | more + 1 =>
    match watch.run with
    | .submitting _ => (watch.attempt setting setting.later).continue setting more
    | _ => watch

/-- A run to its end. -/
def observe (setting : Setting α) (stopping : Bool) : Watch α :=
  let watch := { stopping : Watch α }
  let watch :=
    if setting.stopped = .scheduler then { watch with run := watch.run.cancel } else watch
  (watch.follow setting setting.script).continue setting setting.retrier.limit.toNat

/-- What a waiting caller is told of a run. -/
def reply (setting : Setting α) (watch : Watch α) : Reply α :=
  match setting.wait with
  | .abandoned => .dropped
  | .onOnlyThread => .result (.error (.executor (.wouldBlock "retry result")))
  | .wherever => .result (watch.run.result?.getD (.error .cancelled))

/-- The reports on so many runs, one after another on an executor that is stopped or not. -/
def runs (setting : Setting α) (stopping : Bool) : Nat → List (Report α)
  | 0 => []
  | more + 1 =>
    let watch := observe setting stopping
    ⟨reply setting watch, watch.attempts, watch.judged, watch.notices⟩
      :: runs setting watch.stopping more

/-- The reports on the runs, in order, if the executor can be had. -/
def run (setting : Setting α) : Option (List (Report α)) :=
  if Worker.nameable setting.executor then
    some (runs setting (setting.stopped = .executor) setting.runs)
  else none

end Tenure.RetryWatch
