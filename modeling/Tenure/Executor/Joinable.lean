import Tenure.Executor.SingleThread

/-!
# An executor and those who close it

Any number of threads tell a worker to stop and wait for its thread to end, among them the worker's
own thread: a job or a task may do so too. One who closes an executor tells the worker to stop. If
this happens on the worker's own thread there is nothing more to do. Otherwise the handle of the
thread is taken, which lies in one place for all, and its holder waits for the end of the thread.
Who finds the handle taken does not wait.

Each of these is a step of its own, and anything may happen in between, as long as it can: the
worker's thread does nothing else while a job or a task of its own closes the executor.

## Main definitions

* `JoinableExecutor` — an executor, the handle of its thread, and those who close it
* `JoinableExecutor.Move`, `JoinableExecutor.step` — one move
* `JoinableExecutor.course` — what a schedule leads to
* `JoinableExecutor.opened` — an executor whose worker has just been started
-/

namespace Tenure

namespace JoinableExecutor

/-- Where somebody closes an executor. -/
inductive Place
  /-- On a thread other than the worker's. -/
  | outside (number : Nat)
  /-- In a job, while it runs. -/
  | job (job : Executor.Job)
  /-- In a task, when it goes on. -/
  | task (task : Executor.Job)
  deriving DecidableEq, Repr

/-- Whether the place is on the worker's own thread, `SingleThreadExecutor::is_current`. -/
def Place.isOwn : Place → Bool
  | .outside _ => false
  | _ => true

/-- Who hands work over from a place; a task does not hand any over while it closes. -/
def Place.source? : Place → Option Executor.Source
  | .outside number => some (.thread number)
  | .job running => some (.job running)
  | .task _ => none

/-- How far one who closes has come. -/
inductive Stage
  /-- Tells the worker to stop. -/
  | telling
  /-- Asks whether this is the worker's own thread. -/
  | asking
  /-- Takes the handle. -/
  | taking
  /-- Has the handle and waits for the end of the thread. -/
  | waiting
  | returned
  deriving DecidableEq, Repr

/-- One who closes an executor. -/
structure Closer where
  place : Place
  stage : Stage := .telling
  deriving DecidableEq, Repr

/-- Whether the closer has returned. -/
def Closer.isOver (closer : Closer) : Bool := closer.stage == .returned

/-- Whether the closer has the handle. -/
def Closer.waits (closer : Closer) : Bool := closer.stage == .waiting

end JoinableExecutor

/-- An executor, `SingleThreadExecutor`, the handle of its thread, and those who close it in the
order of their begin. -/
structure JoinableExecutor (β : Type) extends Executor β where
  /-- Whether the handle is still in its place. -/
  handle : Bool := true
  closers : List JoinableExecutor.Closer := []

namespace JoinableExecutor

variable {β : Type}

/-- One move. -/
inductive Move (β : Type)
  /-- A move in the executor. -/
  | work (move : Executor.Move β)
  /-- Somebody begins to close the executor. -/
  | close (place : Place)
  /-- The closer at a place in their list takes the next step. -/
  | proceed (i : Nat)

/-- An executor whose worker has just been started. -/
def opened (name : String) : JoinableExecutor β := { toExecutor := .opened name }

/-- Whether the worker's own thread is free to go on. -/
def isFreeInside (exec : JoinableExecutor β) : Bool :=
  exec.closers.all fun closer => !closer.place.isOwn || closer.isOver

/-- Whether someone who hands work over is not just closing the executor. -/
def isFreeFor (exec : JoinableExecutor β) (source : Executor.Source) : Bool :=
  exec.closers.all fun closer => closer.place.source? != some source || closer.isOver

/-- Whether somebody can begin to close the executor. -/
def canClose (exec : JoinableExecutor β) : Place → Bool
  | .outside number => exec.isFree (.thread number) && exec.isFreeFor (.thread number)
  | .job job =>
    exec.isActive (.job job) && exec.isFree (.job job) && exec.isFreeInside
  | .task task =>
    decide (exec.worker.phase = .ready) && decide (task ∈ exec.worker.tasks) && exec.isFreeInside

/-- Whether a move in the executor can be made by the one who makes it. -/
def permits (exec : JoinableExecutor β) : Executor.Move β → Bool
  | .invoke source _ | .stop source => exec.isFreeFor source
  | .proceed _ => true
  | .look | .pick | .finish _ | .settle _ _ => exec.isFreeInside

/-- The closer at a place in their list has come to a stage. -/
def reach (exec : JoinableExecutor β) (i : Nat) (closer : Closer) (stage : Stage) :
    JoinableExecutor β :=
  { exec with closers := exec.closers.set i { closer with stage } }

/-- The next step of the closer at a place in their list, in
`SingleThreadExecutor::shutdown_and_join`. -/
def goOn (exec : JoinableExecutor β) (i : Nat) (closer : Closer) : JoinableExecutor β :=
  match closer.stage with
  | .telling => { exec with worker := exec.worker.stop }.reach i closer .asking
  | .asking => exec.reach i closer (if closer.place.isOwn then .returned else .taking)
  | .taking =>
    if exec.handle then { exec with handle := false }.reach i closer .waiting
    else exec.reach i closer .returned
  | .waiting => if exec.worker.hasExited then exec.reach i closer .returned else exec
  | .returned => exec

/-- The executor after a move. A move that cannot be made changes nothing. -/
def step (exec : JoinableExecutor β) : Move β → JoinableExecutor β
  | .work move =>
    if exec.permits move then { exec with toExecutor := exec.toExecutor.step move } else exec
  | .close place =>
    if exec.canClose place then { exec with closers := exec.closers ++ [{ place }] } else exec
  | .proceed i =>
    match exec.closers[i]? with
    | some closer => exec.goOn i closer
    | none => exec

/-- What the moves of a schedule lead to. -/
def course (exec : JoinableExecutor β) (schedule : List (Move β)) : JoinableExecutor β :=
  schedule.foldl step exec

end JoinableExecutor

end Tenure
