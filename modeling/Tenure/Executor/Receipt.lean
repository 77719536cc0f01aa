import Tenure.Executor.SingleThread

/-!
# What becomes of what was handed over

Whoever hands a submission over receives the value of the task that it leaves behind. The sender of
that value goes with the submission: it waits in the queue, it is with the job while the job runs,
and it is with the task as long as the task is alive. Nobody else can send the value, so once nobody
holds the sender and no value was sent, the submission is lost.

## Main definitions

* `Worker.holders` — how many hold the sender of a submission
* `Receipt`, `Executor.receipt?` — what the receiver of a submission finds
-/

namespace Tenure

namespace Worker

variable {ι : Type} [DecidableEq ι]

/-- How many hold the sender of a job's value: the queue, the job that runs, the tasks. -/
def holders (worker : Worker ι ι) (job : ι) : Nat :=
  worker.queue.count job + worker.job?.toList.count job + worker.tasks.count job

variable (worker : Worker ι ι) (job : ι)

@[simp] theorem holders_stop : worker.stop.holders job = worker.holders job := rfl

/-- The end of the thread drops every sender, and no other look drops any. -/
theorem holders_look : worker.look.holders job =
    if worker.phase = .ready ∧ worker.stopping = true then 0 else worker.holders job := by
  obtain ⟨name, queue, stopping, phase, tasks⟩ := worker
  cases phase with
  | ready => cases stopping <;> simp [look, holders, Worker.job?]
  | _ => rfl

/-- A job that is taken keeps its sender. -/
@[simp] theorem holders_pick : worker.pick.holders job = worker.holders job := by
  obtain ⟨name, queue, stopping, phase, tasks⟩ := worker
  cases phase with
  | picking =>
    cases queue with
    | nil => rfl
    | cons next queue =>
      simp only [pick, holders, Worker.job?, Option.toList_some, Option.toList_none,
        List.count_cons, List.count_nil]
      omega
  | _ => rfl

/-- A job that is over has no sender any more. -/
theorem holders_finish : worker.finish.holders job + worker.job?.toList.count job =
    worker.holders job := by
  obtain ⟨name, queue, stopping, phase, tasks⟩ := worker
  cases phase with
  | running other =>
    simp only [finish, holders, Worker.job?, Option.toList_none, List.count_nil]
    omega
  | _ => rfl

/-- A task has the sender of the job that has left it. -/
theorem holders_begin (task : ι) : (worker.begin task).holders job =
    worker.holders job + [task].count job := by
  simp only [begin, holders, Worker.job?, List.count_append, Nat.add_assoc]

/-- A job that is accepted brings its sender. -/
theorem holders_accept {worker next : Worker ι ι} {other : ι}
    (h : worker.accept other = some next) :
    next.holders job = worker.holders job + [other].count job := by
  obtain ⟨-, rfl⟩ := accept_eq_some.mp h
  simp only [holders, Worker.job?, List.count_append]
  omega

/-- The end of a task leaves all other senders where they are. -/
theorem holders_settle_of_ne {task : ι} (hne : job ≠ task) :
    (worker.settle (· == task)).holders job = worker.holders job := by
  have kept : (worker.tasks.filter fun other => !(other == task)).count job =
      worker.tasks.count job := List.count_filter (by simpa using hne)
  simp only [settle, holders, Worker.job?, kept]

end Worker

/-- What the receiver of a submission finds. -/
inductive Receipt (β : Type)
  /-- The value may still come. -/
  | pending
  | value (value : β)
  /-- No value was sent, and nobody can send one. -/
  | lost
  deriving DecidableEq, Repr

/-- What the receiver of a submission finds: the value that its task came to, or, as long as
there is none, whether somebody still holds the sender. A job that leaves no task, or was not
accepted, has no receiver. -/
def Executor.receipt? {β : Type} (exec : Executor β) (job : Executor.Job) :
    Option (Receipt β) :=
  if job ∈ exec.accepted ∧ job.leavesTask = true then
    match exec.outputs.lookup job with
    | some (some value) => some (.value value)
    | _ => if exec.worker.holders job = 0 then some .lost else some .pending
  else none

end Tenure
