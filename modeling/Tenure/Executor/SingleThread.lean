import Tenure.Executor.Worker
import Tenure.Journal

/-!
# A worker and those who hand work to it

Any number of threads hand work to one worker at the same time, and so do the jobs that it runs.
Work is handed over as a job, as a job that leaves a task behind, or as a task; an asynchronous
call hands over two jobs, the second only if the first was accepted. Whoever hands work over
goes through the check of the flag and the hand-over as two steps of their own, and anything may
happen in between. A job may break off, and anyone may tell the worker to stop at any moment.

A schedule is a list of such moves. Every order in which the steps of the worker and of those
around it can come is that of some schedule.

## Main definitions

* `Executor` — a worker, the invocations that hand work to it, and what has become of the jobs
* `Executor.Move`, `Executor.step` — one move; `Executor.course` — what a schedule leads to
* `Executor.opened` — an executor whose worker has just been started
-/

namespace Tenure

namespace Executor

/-- How work is handed over. -/
inductive Way
  /-- As a job: `SingleThreadExecutor::execute`. -/
  | execute
  /-- As a job that leaves a task behind: `SingleThreadExecutor::submit`. -/
  | submit
  /-- As a task: `SingleThreadExecutor::spawn`. -/
  | spawn
  /-- By an asynchronous call, `ProxyInner::call_async`: its operation as by `submit`, and then, as
  by `spawn`, the task that awaits the operation. -/
  | call
  deriving DecidableEq, Repr

/-- A job, known by the place of the invocation that hands it over; an asynchronous call hands
over a second one. -/
structure Job where
  invocation : Nat
  way : Way
  second : Bool := false
  deriving DecidableEq, Repr

/-- Whether the job does nothing but leave its task behind. -/
def Job.isMere (job : Job) : Bool := job.second || job.way == .spawn

/-- Whether the job leaves a task behind, unless it breaks off. -/
def Job.leavesTask (job : Job) : Bool := job.way != .execute

/-- How far an invocation has come. -/
inductive Stage
  /-- Before the check of the flag, for its first or its second job. -/
  | checking (second : Bool)
  /-- The check was passed; the job is handed over next. -/
  | sending (second : Bool)
  /-- All was accepted, or some job was refused. -/
  | returned (refusal : Option ExecutorFailure)
  deriving DecidableEq, Repr

/-- Whether the invocation has returned. -/
def Stage.isOver : Stage → Bool
  | returned _ => true
  | _ => false

/-- Who hands work over. -/
inductive Source
  /-- A thread other than the worker's, or a task. -/
  | thread (number : Nat)
  /-- A job, while it runs. -/
  | job (job : Job)
  deriving DecidableEq, Repr

/-- Work being handed over. -/
structure Invocation where
  source : Source
  way : Way
  stage : Stage := .checking false
  deriving DecidableEq, Repr

/-- How an invocation goes on whose first or second job was accepted. -/
def Invocation.accepted (invocation : Invocation) (second : Bool) : Stage :=
  if invocation.way = .call ∧ second = false then .checking true else .returned none

end Executor

/-- A worker, `SingleThreadExecutor`, the invocations that hand work to it in the order of their
begin, and what has become of the jobs; tasks are known by the jobs that leave them behind and come
to values `β`. -/
structure Executor (β : Type) where
  worker : Worker Executor.Job Executor.Job
  invocations : List Executor.Invocation := []
  /-- The jobs that were accepted, in this order. -/
  accepted : List Executor.Job := []
  /-- The jobs that were started, in this order. -/
  started : List Executor.Job := []
  /-- The jobs that came to their end, in this order. -/
  ended : List Executor.Job := []
  /-- The tasks that came to a value, and those that broke off. -/
  outputs : List (Executor.Job × Option β) := []
  notices : List Notice := []

namespace Executor

variable {β : Type}

/-- One move. -/
inductive Move (β : Type)
  /-- Someone begins to hand work over. -/
  | invoke (source : Source) (way : Way)
  /-- The invocation at a place takes its next step. -/
  | proceed (i : Nat)
  /-- The thread of the worker looks whether it should stop. -/
  | look
  /-- It takes the next job. -/
  | pick
  /-- The job that runs comes to its end, and breaks off or not. -/
  | finish (breaks : Bool)
  /-- A task comes to its end, by a value or by breaking off. -/
  | settle (task : Job) (output : Option β)
  /-- Someone tells the worker to stop. -/
  | stop (source : Source)

/-- An executor whose worker has just been started, `SingleThreadExecutor::new`. -/
def opened (name : String) : Executor β := { worker := { name } }

/-- Whether someone can do anything: a job only while it runs. -/
def isActive (exec : Executor β) : Source → Bool
  | .thread _ => true
  | .job job => exec.worker.job? == some job

/-- Whether everything that someone has begun to hand over has returned. -/
def isFree (exec : Executor β) (source : Source) : Bool :=
  exec.invocations.all fun invocation => invocation.source != source || invocation.stage.isOver

/-- The invocation at a place has come to a stage. -/
def reach (exec : Executor β) (i : Nat) (invocation : Invocation) (stage : Stage) :
    Executor β :=
  { exec with invocations := exec.invocations.set i { invocation with stage } }

/-- The next step of the invocation at a place, in `SingleThreadExecutor::execute`. -/
def handOver (exec : Executor β) (i : Nat) (invocation : Invocation) : Executor β :=
  match invocation.stage with
  | .checking second =>
    if exec.worker.admits then exec.reach i invocation (.sending second)
    else exec.reach i invocation (.returned exec.worker.refusal)
  | .sending second =>
    let job : Job := ⟨i, invocation.way, second⟩
    match exec.worker.accept job with
    | some worker =>
      { exec with worker, accepted := exec.accepted ++ [job] }.reach i invocation
        (invocation.accepted second)
    | none => exec.reach i invocation (.returned exec.worker.refusal)
  | .returned _ => exec

/-- The end of the job that runs, in `run`. A job that breaks off is reported and leaves no task. -/
def finish (exec : Executor β) (job : Job) (breaks : Bool) : Executor β :=
  let exec := { exec with worker := exec.worker.finish, ended := exec.ended ++ [job] }
  if breaks && !job.isMere then
    { exec with notices := exec.notices ++ [.jobBroke exec.worker.name] }
  else if job.leavesTask then { exec with worker := exec.worker.begin job }
  else exec

/-- The executor after a move. A move that cannot be made changes nothing: a job hands nothing
over and comes to no end before what it hands over has returned, and a task goes on only between
two jobs. -/
def step (exec : Executor β) : Move β → Executor β
  | .invoke source way =>
    if exec.isActive source && exec.isFree source then
      { exec with invocations := exec.invocations ++ [{ source, way }] }
    else exec
  | .proceed i =>
    match exec.invocations[i]? with
    | some invocation => exec.handOver i invocation
    | none => exec
  | .look => { exec with worker := exec.worker.look }
  | .pick =>
    match exec.worker.job? with
    | some _ => exec
    | none =>
      { exec with
        worker := exec.worker.pick
        started := exec.started ++ exec.worker.pick.job?.toList }
  | .finish breaks =>
    match exec.worker.job? with
    | some job => if exec.isFree (.job job) then exec.finish job breaks else exec
    | none => exec
  | .settle task output =>
    if exec.worker.phase = .ready ∧ task ∈ exec.worker.tasks then
      { exec with
        worker := exec.worker.settle (· == task)
        outputs := exec.outputs ++ [(task, output)] }
    else exec
  | .stop source =>
    if exec.isActive source then { exec with worker := exec.worker.stop } else exec

/-- What the moves of a schedule lead to. -/
def course (exec : Executor β) (schedule : List (Move β)) : Executor β := schedule.foldl step exec

end Executor

end Tenure
