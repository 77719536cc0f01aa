import Tenure.Failure

/-!
# Workers

A worker is a thread of its own with a queue of jobs. It takes the jobs one at a time and in
the order in which they were accepted. A job may leave tasks behind, which live on the same
thread and go on whenever no job is ready.

A worker that is told to stop accepts no more work. It notices at the next look it takes
between two jobs; then its thread ends, and the jobs that are still queued and the tasks that
are still alive are dropped. A job that breaks off does not harm the worker.

Work is handed over in two steps, a check of the flag and a hand-over that fails only once the
thread has ended, so work that passed its check may still reach a worker that was told to stop
in between.

## Main definitions

* `Worker` — a worker, `Worker.Phase` what its thread is doing
* `Worker.admits`, `Worker.accept` — the two steps of handing over a job
* `Worker.look`, `Worker.pick`, `Worker.finish` — the steps of the thread
* `Worker.begin`, `Worker.settle` — tasks
* `Worker.stop` — telling a worker to stop
-/

namespace Tenure

/-- What the thread of a worker is doing. -/
inductive Worker.Phase (ι : Type)
  /-- Between two jobs, about to look whether it should stop. -/
  | ready
  /-- It need not stop, and takes the next job if there is one. -/
  | picking
  | running (job : ι)
  | exited
  deriving DecidableEq, Repr

/-- A worker, the thread of a `SingleThreadExecutor` with its queue, with jobs `ι` and tasks `κ`. -/
structure Worker (ι κ : Type) where
  name : String
  /-- The jobs that were accepted and not yet taken, the next one first. -/
  queue : List ι := []
  /-- Whether it was told to stop. -/
  stopping : Bool := false
  phase : Worker.Phase ι := .ready
  /-- The tasks that are alive. -/
  tasks : List κ := []
  deriving DecidableEq, Repr

namespace Worker

variable {ι κ : Type}

/-- Whether a name can be given to a thread at all: it must not hold the null character. -/
def nameable (name : String) : Bool := !name.toList.contains '\x00'

/-- The first step of handing over a job, the check of the flag:
`SingleThreadExecutor::is_shutdown`, as `SingleThreadExecutor::execute` asks it. -/
def admits (worker : Worker ι κ) : Bool := !worker.stopping

/-- The second step of `SingleThreadExecutor::execute`, the handing over of a job, which fails once
the thread has ended. -/
def accept (worker : Worker ι κ) (job : ι) : Option (Worker ι κ) :=
  match worker.phase with
  | .exited => none
  | _ => some { worker with queue := worker.queue ++ [job] }

/-- Only a thread that has ended takes no more jobs. -/
theorem accept_eq_none {worker : Worker ι κ} {job : ι} :
    worker.accept job = none ↔ worker.phase = .exited := by
  unfold accept
  cases worker.phase <;> simp

/-- A job that is taken is put behind all others, and nothing else happens. -/
theorem accept_eq_some {worker next : Worker ι κ} {job : ι} :
    worker.accept job = some next ↔
      worker.phase ≠ .exited ∧ { worker with queue := worker.queue ++ [job] } = next := by
  unfold accept
  cases worker.phase <;> simp

/-- What a caller is told whose work is refused. -/
def refusal (worker : Worker ι κ) : ExecutorFailure := .shutDown worker.name

/-- What a caller is told whose work was accepted and dropped. -/
def loss (worker : Worker ι κ) : ExecutorFailure := .taskLost worker.name

/-- The look between two jobs, the first branch of the loop of `run`: a thread that should stop
ends, and all it still had is dropped. -/
def look (worker : Worker ι κ) : Worker ι κ :=
  match worker.phase with
  | .ready =>
    if worker.stopping then { worker with phase := .exited, queue := [], tasks := [] }
    else { worker with phase := .picking }
  | _ => worker

/-- Takes the next job, the second branch of the loop of `run`; without one, there is nothing to do
but to look again. -/
def pick (worker : Worker ι κ) : Worker ι κ :=
  match worker.phase, worker.queue with
  | .picking, job :: queue => { worker with phase := .running job, queue }
  | .picking, [] => { worker with phase := .ready }
  | _, _ => worker

/-- The end of the job that runs, however it ends: `run` goes on in either case. -/
def finish (worker : Worker ι κ) : Worker ι κ :=
  match worker.phase with
  | .running _ => { worker with phase := .ready }
  | _ => worker

section

variable (worker : Worker ι κ)

@[simp] theorem look_name : worker.look.name = worker.name := by
  unfold look
  split
  · split <;> rfl
  · rfl

@[simp] theorem look_stopping : worker.look.stopping = worker.stopping := by
  unfold look
  split
  · split <;> rfl
  · rfl

@[simp] theorem pick_name : worker.pick.name = worker.name := by
  unfold pick
  split <;> rfl

@[simp] theorem pick_stopping : worker.pick.stopping = worker.stopping := by
  unfold pick
  split <;> rfl

@[simp] theorem finish_name : worker.finish.name = worker.name := by
  unfold finish
  split <;> rfl

@[simp] theorem finish_stopping : worker.finish.stopping = worker.stopping := by
  unfold finish
  split <;> rfl

end

/-- The job that runs. -/
def job? (worker : Worker ι κ) : Option ι :=
  match worker.phase with
  | .running job => some job
  | _ => none

theorem job?_eq_some {worker : Worker ι κ} {job : ι} :
    worker.job? = some job ↔ worker.phase = .running job := by
  unfold job?
  cases worker.phase <;> simp

/-- Whether the thread has ended. -/
def hasExited (worker : Worker ι κ) : Bool :=
  match worker.phase with
  | .exited => true
  | _ => false

/-- Leaves a task on the thread. -/
def begin (worker : Worker ι κ) (task : κ) : Worker ι κ :=
  { worker with tasks := worker.tasks ++ [task] }

/-- Takes away the tasks that are over. -/
def settle (worker : Worker ι κ) (finished : κ → Bool) : Worker ι κ :=
  { worker with tasks := worker.tasks.filter fun task => !finished task }

/-- Tasks that are not over stay. -/
theorem settle_eq_self {worker : Worker ι κ} {finished : κ → Bool}
    (alive : ∀ task ∈ worker.tasks, finished task = false) : worker.settle finished = worker := by
  have same : worker.tasks.filter (fun task => !finished task) = worker.tasks :=
    List.filter_eq_self.mpr fun task mem => by simp [alive task mem]
  simp only [settle, same]

/-- A task can be left before the end of the job or after it. -/
theorem finish_begin (worker : Worker ι κ) (task : κ) :
    (worker.begin task).finish = worker.finish.begin task := by
  obtain ⟨name, queue, stopping, phase, tasks⟩ := worker
  cases phase <;> rfl

/-- Tells the worker to stop: `SingleThreadExecutor::shutdown`. -/
def stop (worker : Worker ι κ) : Worker ι κ := { worker with stopping := true }

/-- How a worker is shown to people who look for faults. -/
def quoted (worker : Worker ι κ) : String :=
  "SingleThreadExecutor \x7b name: " ++ Text.quoted worker.name ++ ", shutdown: "
    ++ toString worker.stopping ++ " \x7d"

end Worker

end Tenure
