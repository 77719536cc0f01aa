import Tenure.Executor.Worker
import Tenure.Journal

/-!
# A worker under observation

Jobs and submissions handed to one worker, one step after another, with a rest after each step:
the worker goes on until it has nothing more to do, or has ended, or a job holds its thread. A
job leaves a mark when it runs. A submission is a job that leaves a task behind; its caller
receives the task's value, unless the job broke off, the task broke off or the thread ended
first.

Tasks go on only when no job is ready. A task that waits behind a gate goes on once the gate has
been opened, which can be done as long as the task has not been dropped.

## Main definitions

* `WorkWatch.Step` — what may be done; `WorkWatch.Job` — what may be handed over
* `WorkWatch.Bench` — a worker with all that its jobs have left behind
* `WorkWatch.Bench.rest` — the work that is done between two steps
* `WorkWatch.run` — the reports on a list of steps
-/

namespace Tenure.WorkWatch

/-- What a job leaves behind when it runs. -/
inductive Mark (ι : Type)
  | of (name : ι)
  /-- The first or second job that another job has queued. -/
  | inner (second : Bool)
  /-- The end of a job that has queued others. -/
  | outerEnd
  deriving DecidableEq, Repr

/-- What a task does when it goes on. -/
inductive Task (α : Type)
  | yields (value : α)
  | breaks
  /-- It waits for a gate to be opened. -/
  | waits
  deriving DecidableEq, Repr

/-- What can be handed to the worker. -/
inductive Job (ι α : Type)
  /-- Leaves its mark, and breaks off or not. -/
  | plain (mark : Mark ι) (breaks : Bool)
  /-- Leaves its mark, queues two jobs and leaves another mark. -/
  | queues (mark : Mark ι)
  /-- Leaves its mark and holds the thread. -/
  | holds (mark : Mark ι)
  /-- Leaves its mark and tells its own worker to stop and to wait for the end of the thread,
  which on this thread means to stop only. -/
  | stops (mark : Mark ι)
  /-- Leaves its mark, and breaks off or leaves a task behind whose value the holder of the
  ticket receives. -/
  | submits (mark : Option (Mark ι)) (breaks : Bool) (ticket : Nat) (task : Task α)

/-- How many jobs come of a job, itself included. -/
def Job.share {ι α : Type} : Job ι α → Nat
  | queues _ => 3
  | _ => 1

/-- One thing done with a worker. -/
inductive Step (ι α : Type)
  | execute (name : ι)
  | executeBreaking (name : ι)
  | executeMore (name : ι)
  | hold (name : ι)
  | letGo
  | submit (name : ι) (value : α)
  | submitBreakingJob (name : ι)
  | submitBreakingTask (name : ι)
  | spawn (value : α)
  | thread
  | park (name : ι)
  | openGate (name : ι) (value : α)
  | join (name : ι)
  | stop
  | stopAndJoin
  | stopInside (name : ι)
  | name
  | isCurrent
  | quoted

/-- What a step answers. -/
inductive Reply (α : Type)
  | done
  | verdict (holds : Bool)
  | value (value : α)
  | lost
  | unknown
  | refused (failure : ExecutorFailure)
  | parked
  | thread (name : String)
  | stoppedInside
  | text (text : String)

/-- What is seen after a step. -/
structure Report (ι α : Type) where
  reply : Reply α
  stopping : Bool
  marks : List (Mark ι)
  notices : List Notice

/-- A task that is alive on the worker's thread, with the ticket of its submission. -/
structure Live (α : Type) where
  ticket : Nat
  task : Task α

/-- What has become of a submission. -/
inductive Result (α : Type)
  | value (value : α)
  | lost

/-- A worker with what its jobs have left behind: marks, results by ticket, gates that can be
opened, values that stand behind opened gates, and submissions that can be joined. -/
structure Bench (ι α : Type) where
  worker : Worker (Job ι α) (Live α)
  marks : List (Mark ι) := []
  notices : List Notice := []
  tickets : Nat := 0
  results : List (Nat × Result α) := []
  gates : List (ι × Nat) := []
  opened : List (Nat × α) := []
  joins : List (ι × Nat) := []

namespace Bench

variable {ι α : Type}

/-- Leaves a mark. -/
def mark (bench : Bench ι α) (mark : Mark ι) : Bench ι α :=
  { bench with marks := bench.marks ++ [mark] }

/-- Records what has become of a submission. -/
def resolve (bench : Bench ι α) (ticket : Nat) (result : Result α) : Bench ι α :=
  { bench with results := (ticket, result) :: bench.results }

/-- Ends the job that runs by breaking it off. -/
def breakOff (bench : Bench ι α) : Bench ι α :=
  { bench with
    worker := bench.worker.finish
    notices := bench.notices ++ [.jobBroke bench.worker.name] }

/-- Ends the job that runs. -/
def finish (bench : Bench ι α) : Bench ι α := { bench with worker := bench.worker.finish }

/-- Puts a job into the worker's queue; on a thread that has ended it is dropped. -/
def queue (bench : Bench ι α) (job : Job ι α) : Bench ι α :=
  match bench.worker.accept job with
  | some worker => { bench with worker }
  | none => bench

/-- Does what a job does. A job that holds the thread is not at its end. -/
def perform (bench : Bench ι α) : Job ι α → Bench ι α
  | .plain mark breaks =>
    let bench := bench.mark mark
    if breaks then bench.breakOff else bench.finish
  | .queues mark =>
    ((((bench.mark mark).queue (.plain (.inner false) false)).queue
      (.plain (.inner true) false)).mark .outerEnd).finish
  | .holds mark => bench.mark mark
  | .stops mark =>
    let bench := bench.mark mark
    { bench with worker := bench.worker.stop.finish }
  | .submits mark breaks ticket task =>
    let bench := match mark with
      | some mark => bench.mark mark
      | none => bench
    if breaks then (bench.resolve ticket .lost).breakOff
    else { bench with worker := (bench.worker.begin ⟨ticket, task⟩).finish }

/-- Whether a job holds the thread. -/
def isHeld (bench : Bench ι α) : Bool :=
  match bench.worker.job? with
  | some (.holds _) => true
  | _ => false

/-- Takes and performs jobs until there is none left, the thread ends or a job holds it. -/
def work (bench : Bench ι α) : Nat → Bench ι α
  | 0 => bench
  | more + 1 =>
    if bench.isHeld then bench
    else
      let bench := { bench with worker := bench.worker.look.pick }
      match bench.worker.job? with
      | some job => (bench.perform job).work more
      | none => bench

/-- The result of a task that goes on, if it comes to its end. -/
def outcome? (bench : Bench ι α) (live : Live α) : Option (Result α) :=
  match live.task with
  | .yields value => some (.value value)
  | .breaks => some .lost
  | .waits => (bench.opened.lookup live.ticket).map .value

/-- Lets every task go on that can. -/
def goOn (bench : Bench ι α) : Bench ι α :=
  let finished := bench.worker.tasks.filterMap fun live =>
    (bench.outcome? live).map fun result => (live.ticket, result)
  { bench with
    results := finished ++ bench.results
    worker := bench.worker.settle fun live => (bench.outcome? live).isSome }

/-- The work between two steps: jobs as long as there are any, then tasks. -/
def rest (bench : Bench ι α) : Bench ι α :=
  let bench := bench.work (bench.worker.queue.foldr (fun job others => job.share + others) 1)
  if bench.isHeld then bench else bench.goOn

/-- Hands a job over, and says what to answer if it was accepted. -/
def handOver (bench : Bench ι α) (job : Job ι α) (reply : Bench ι α → Reply α) :
    Reply α × Bench ι α :=
  if bench.worker.admits then
    match bench.worker.accept job with
    | some worker =>
      let bench := { bench with worker }.rest
      (reply bench, bench)
    | none => (.refused bench.worker.refusal, bench)
  else (.refused bench.worker.refusal, bench)

/-- What the holder of a ticket receives. -/
def receive (bench : Bench ι α) (ticket : Nat) : Reply α :=
  match bench.results.lookup ticket with
  | some (.value value) => .value value
  | _ => .lost

/-- Hands a submission over and answers what its caller receives. -/
def submit (bench : Bench ι α) (mark : Option (Mark ι)) (breaks : Bool) (task : Task α) :
    Reply α × Bench ι α :=
  let ticket := bench.tickets
  { bench with tickets := ticket + 1 }.handOver (.submits mark breaks ticket task)
    fun bench => bench.receive ticket

variable [BEq ι]

/-- Hands over a submission whose task waits behind a gate, to be joined later. -/
def park (bench : Bench ι α) (name : ι) : Reply α × Bench ι α :=
  let ticket := bench.tickets
  match { bench with tickets := ticket + 1 }.handOver
      (.submits (some (.of name)) false ticket .waits) fun _ => .parked with
  | (.parked, bench) =>
    (.parked, { bench with
      gates := (name, ticket) :: bench.gates.filter (·.1 != name)
      joins := (name, ticket) :: bench.joins.filter (·.1 != name) })
  | refused => refused

/-- Opens a gate, which takes a task behind it that has not been dropped. -/
def openGate (bench : Bench ι α) (name : ι) (value : α) : Reply α × Bench ι α :=
  match bench.gates.lookup name with
  | none => (.verdict false, bench)
  | some ticket =>
    let bench := { bench with gates := bench.gates.filter (·.1 != name) }
    if bench.worker.hasExited || (bench.results.lookup ticket).isSome then
      (.verdict false, bench)
    else (.verdict true, { bench with opened := (ticket, value) :: bench.opened }.rest)

/-- Waits for what a parked submission comes to. -/
def join (bench : Bench ι α) (name : ι) : Reply α × Bench ι α :=
  match bench.joins.lookup name with
  | none => (.unknown, bench)
  | some ticket =>
    (bench.receive ticket, { bench with joins := bench.joins.filter (·.1 != name) })

/-- Lets go of the thread if a job holds it. -/
def letGo (bench : Bench ι α) : Reply α × Bench ι α :=
  if bench.isHeld then (.verdict true, bench.finish.rest) else (.verdict false, bench)

/-- Tells the worker to stop. -/
def stop (bench : Bench ι α) : Reply α × Bench ι α :=
  (.done, { bench with worker := bench.worker.stop }.rest)

/-- Carries out one step. -/
def step (bench : Bench ι α) : Step ι α → Reply α × Bench ι α
  | .execute name => bench.handOver (.plain (.of name) false) fun _ => .done
  | .executeBreaking name => bench.handOver (.plain (.of name) true) fun _ => .done
  | .executeMore name => bench.handOver (.queues (.of name)) fun _ => .done
  | .hold name => bench.handOver (.holds (.of name)) fun _ => .done
  | .letGo => bench.letGo
  | .submit name value => bench.submit (some (.of name)) false (.yields value)
  | .submitBreakingJob name => bench.submit (some (.of name)) true .waits
  | .submitBreakingTask name => bench.submit (some (.of name)) false .breaks
  | .spawn value => bench.submit none false (.yields value)
  | .thread =>
    let ticket := bench.tickets
    { bench with tickets := ticket + 1 }.handOver (.submits none false ticket .breaks)
      fun bench => .thread bench.worker.name
  | .park name => bench.park name
  | .openGate name value => bench.openGate name value
  | .join name => bench.join name
  | .stop => bench.stop
  | .stopAndJoin => bench.stop
  | .stopInside name => bench.handOver (.stops (.of name)) fun _ => .stoppedInside
  | .name => (.text bench.worker.name, bench)
  | .isCurrent => (.verdict false, bench)
  | .quoted => (.text bench.worker.quoted, bench)

/-- What is seen of a bench after a step that answered so. -/
def report (bench : Bench ι α) (reply : Reply α) : Report ι α :=
  ⟨reply, bench.worker.stopping, bench.marks, bench.notices⟩

/-- The reports on the steps, in order. -/
def run (bench : Bench ι α) : List (Step ι α) → List (Report ι α)
  | [] => []
  | step :: rest =>
    let (reply, bench) := { bench with marks := [], notices := [] }.step step
    bench.report reply :: bench.run rest

end Bench

/-- The reports on the steps with a new worker, if one can be had under this name. -/
def run {ι α : Type} [BEq ι] (name : String) (steps : List (Step ι α)) :
    Option (List (Report ι α)) :=
  if Worker.nameable name then some (Bench.run { worker := { name } } steps) else none

end Tenure.WorkWatch
