import Tenure.Duration
import Tenure.Executor.Worker
import Tenure.Retry.Run

/-!
# A run of attempts and those around it

A run of repeated attempts takes its steps on the thread of a scheduler, which gives it a turn now
and then and takes the turn back as soon as the run has to wait. Its attempts are jobs on a worker,
among the jobs of others: an attempt is handed over, taken by the worker, leaves a task behind and
comes to a value or a failure, unless it breaks off or the worker drops it. Between two attempts a
delay passes.

All this goes on by itself, and meanwhile anyone may call the run off, and tell the worker or the
scheduler to stop. A run that is called off goes no further once its turn is over, or when it would
get the next one. A scheduler that was told to stop drops the run at some moment between two turns.
A scheduler that has stopped before the run was begun is one that drops it before its first turn.

A schedule is an endless list of moves. Every order in which all these can come is that of some
schedule.

## Main definitions

* `Pursuit.Plan` — what a run is to do, and what becomes of its attempts if they are left alone
* `Pursuit` — a run, its scheduler and its worker
* `Pursuit.Move`, `Pursuit.step` — one move; `Pursuit.after` — what a schedule has led to
-/

namespace Tenure

namespace Pursuit

/-- What becomes of an attempt that is left alone. -/
inductive Fate (α ε : Type)
  | value (value : α)
  | failure (failure : ε)
  /-- It breaks off before it has left a task behind. -/
  | breaksAtOnce
  /-- Its task breaks off. -/
  | breaksLater

/-- What a run is to do, and what becomes of its attempts if they are left alone. -/
structure Plan (α ε : Type) where
  /-- How many attempts may be made; none counts as one. -/
  budget : UInt32
  accepts : α → Bool
  /-- What passes between two attempts. -/
  delay : Duration
  /-- What becomes of the attempts, which count from one. -/
  fate : Nat → Fate α ε

variable {α ε : Type}

/-- How the attempts are repeated. -/
def Plan.retrier (plan : Plan α ε) : Retrier α := .new plan.budget plan.accepts

/-- What is delivered of an attempt that is left alone. -/
def Plan.delivery (plan : Plan α ε) (number : Nat) : Run.Delivery α ε :=
  match plan.fate number with
  | .value value => .value value
  | .failure failure => .failure failure
  | .breaksAtOnce | .breaksLater => .lost

/-- A job on the worker, or the task that it leaves behind. -/
inductive Piece
  | attempt (number : Nat)
  /-- Somebody else's. -/
  | other
  deriving DecidableEq, Repr

/-- The number of an attempt. -/
def Piece.number? : Piece → Option Nat
  | attempt number => some number
  | other => none

/-- What can be seen of a run from outside. -/
inductive Event (α ε : Type)
  /-- The worker has accepted an attempt. -/
  | submitted (number : Nat)
  /-- The worker has taken it. -/
  | started (number : Nat)
  /-- It has come to this. -/
  | delivered (number : Nat) (delivery : Run.Delivery α ε)
  /-- A delay begins. -/
  | rests (span : Duration)
  /-- The delay is over. -/
  | rested

/-- One move. -/
inductive Move
  /-- The scheduler gives the run a turn. -/
  | turn
  /-- The run takes its next step. -/
  | proceed
  /-- The delay passes. -/
  | elapse
  /-- The run is called off. -/
  | cancel
  /-- The scheduler is told to stop. -/
  | halt
  /-- A scheduler that was told to stop drops the run. -/
  | abandon
  /-- The thread of the worker looks whether it should stop. -/
  | look
  /-- It takes the next job. -/
  | pick
  /-- The job that runs comes to its end. -/
  | finish
  /-- The task of an attempt comes to its end. -/
  | settle (number : Nat)
  /-- Somebody else hands a job to the worker. -/
  | enqueue
  /-- The worker is told to stop. -/
  | stop
  deriving DecidableEq, Repr

end Pursuit

open Pursuit in
/-- A run of repeated attempts, `RetryRun::run`, its scheduler, and the worker of its attempts. -/
structure Pursuit (α ε : Type) where
  worker : Worker Piece Piece
  run : Run α ε := .start
  /-- How many attempts were handed over. -/
  handed : Nat := 0
  /-- What has come of the one that was handed over last. -/
  mail : Option (Run.Delivery α ε) := none
  /-- Whether it is the turn of the run. -/
  hasTurn : Bool := false
  /-- Whether the run has found that the worker takes work. -/
  isCleared : Bool := false
  /-- Whether the delay is over. -/
  isDue : Bool := false
  /-- Whether the run was called off. -/
  calledOff : Bool := false
  /-- Whether the scheduler was told to stop. -/
  halted : Bool := false
  log : List (Event α ε) := []
  notices : List Notice := []

namespace Pursuit

variable {α ε : Type}

/-- A run that has just been begun, on a worker that has just been started. -/
def opened (name : String) : Pursuit α ε := { worker := { name } }

/-- What the handle of the run, `RetryHandle`, tells. -/
def result? (pursuit : Pursuit α ε) : Option (Except (RetryFailure ε) α) := pursuit.run.result?

/-- The run goes no further. -/
def cut (pursuit : Pursuit α ε) : Pursuit α ε := { pursuit with run := pursuit.run.cancel }

/-- The run has to wait, and its turn is over. -/
def rest (pursuit : Pursuit α ε) : Pursuit α ε :=
  if pursuit.calledOff then { pursuit with hasTurn := false }.cut
  else { pursuit with hasTurn := false }

/-- Delivers what has come of an attempt. The run hears only of the one that it handed over
last. -/
def deliver (pursuit : Pursuit α ε) (number : Nat) (delivery : Run.Delivery α ε) :
    Pursuit α ε :=
  { pursuit with
    mail := if number = pursuit.handed then some delivery else pursuit.mail
    log := pursuit.log ++ [.delivered number delivery] }

/-- Hands the next attempt to the worker, in two steps of `SingleThreadExecutor::submit`. -/
def handOver (pursuit : Pursuit α ε) : Pursuit α ε :=
  let refused : Pursuit α ε :=
    { pursuit with
      run := pursuit.run.handOver (some pursuit.worker.refusal)
      hasTurn := false }
  if pursuit.isCleared then
    match pursuit.worker.accept (.attempt (pursuit.handed + 1)) with
    | some worker =>
      { pursuit with
        worker
        run := pursuit.run.handOver none
        handed := pursuit.handed + 1
        mail := none
        isCleared := false
        log := pursuit.log ++ [.submitted (pursuit.handed + 1)] }
    | none => refused
  else if pursuit.worker.admits then { pursuit with isCleared := true }
  else refused

/-- Takes in what has come of the attempt. -/
def receive (plan : Plan α ε) (pursuit : Pursuit α ε) (delivery : Run.Delivery α ε) :
    Pursuit α ε :=
  let (run, notices) := pursuit.run.receive plan.retrier pursuit.worker.name delivery
  let goesOn := run.result?.isNone
  { pursuit with
    run
    hasTurn := goesOn
    isDue := false
    log := pursuit.log ++ if goesOn then [.rests plan.delay] else []
    notices := pursuit.notices ++ notices }

/-- The next step of the run in its turn: `RetryRun::run` from one of its waits to the next. -/
def proceed (plan : Plan α ε) (pursuit : Pursuit α ε) : Pursuit α ε :=
  match pursuit.run with
  | .submitting _ => pursuit.handOver
  | .attempting _ =>
    match pursuit.mail with
    | some delivery => pursuit.receive plan delivery
    | none => pursuit.rest
  | .pausing _ =>
    if pursuit.isDue then
      { pursuit with run := pursuit.run.wake, isDue := false, log := pursuit.log ++ [.rested] }
    else pursuit.rest
  | .finished _ => pursuit

/-- The attempts that a worker has not taken yet, and those whose tasks are alive. -/
def held (worker : Worker Piece Piece) : List Nat :=
  (worker.queue ++ worker.tasks).filterMap Piece.number?

/-- The thread of the worker looks whether it should stop. The attempts that are dropped with it
are lost. -/
def look (pursuit : Pursuit α ε) : Pursuit α ε :=
  let worker := pursuit.worker.look
  let dropped := (held pursuit.worker).filter (· ∉ held worker)
  dropped.foldl (fun pursuit number => pursuit.deliver number .lost) { pursuit with worker }

/-- The worker takes its next job. -/
def pick (pursuit : Pursuit α ε) : Pursuit α ε :=
  let worker := pursuit.worker.pick
  { pursuit with
    worker
    log := pursuit.log ++ (worker.job?.bind Piece.number?).toList.map .started }

/-- The end of the job that runs. An attempt leaves its task behind, unless it breaks off. -/
def finish (plan : Plan α ε) (pursuit : Pursuit α ε) : Pursuit α ε :=
  let finished : Pursuit α ε := { pursuit with worker := pursuit.worker.finish }
  match pursuit.worker.job? with
  | some (.attempt number) =>
    match plan.fate number with
    | .breaksAtOnce =>
      { finished with
        notices := pursuit.notices ++ [Notice.jobBroke pursuit.worker.name] }.deliver number .lost
    | _ => { finished with worker := finished.worker.begin (Piece.attempt number) }
  | _ => finished

/-- The end of the task of an attempt. -/
def settle (plan : Plan α ε) (pursuit : Pursuit α ε) (number : Nat) : Pursuit α ε :=
  { pursuit with worker := pursuit.worker.settle (· == Piece.attempt number) }.deliver number
    (plan.delivery number)

/-- The state after a move. A move that cannot be made changes nothing: a run takes steps only in
its turn, and a task goes on only between two jobs. -/
def step (plan : Plan α ε) (pursuit : Pursuit α ε) : Move → Pursuit α ε
  | .turn =>
    if pursuit.hasTurn || pursuit.result?.isSome then pursuit
    else if pursuit.calledOff then pursuit.cut
    else { pursuit with hasTurn := true }
  | .proceed => if pursuit.hasTurn then pursuit.proceed plan else pursuit
  | .elapse =>
    match pursuit.run with
    | .pausing _ => { pursuit with isDue := true }
    | _ => pursuit
  | .cancel => { pursuit with calledOff := true }
  | .halt => { pursuit with halted := true }
  | .abandon => if pursuit.halted && !pursuit.hasTurn then pursuit.cut else pursuit
  | .look => pursuit.look
  | .pick => if pursuit.worker.job?.isSome then pursuit else pursuit.pick
  | .finish => pursuit.finish plan
  | .settle number =>
    if pursuit.worker.phase = .ready ∧ .attempt number ∈ pursuit.worker.tasks then
      pursuit.settle plan number
    else pursuit
  | .enqueue => { pursuit with worker := (pursuit.worker.accept .other).getD pursuit.worker }
  | .stop => { pursuit with worker := pursuit.worker.stop }

/-- What the first moves of a schedule have led to. -/
def after (plan : Plan α ε) (name : String) (schedule : Nat → Move) : Nat → Pursuit α ε
  | 0 => opened name
  | n + 1 => (after plan name schedule n).step plan (schedule n)

end Pursuit

end Tenure
