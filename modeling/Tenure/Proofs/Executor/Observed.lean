import Mathlib.Data.List.Forall2
import Tenure.Proofs.Executor.Turns
import Tenure.Scenario.Work

/-!
# What is observed of a worker is a schedule

A bench does one thing after another with a worker, and lets it rest in between. Each of these
things is some moves of an executor, and so is the work that is done in between. So a worker under
observation goes one of the ways that an executor can go, and the marks that are seen are those of
the jobs that were started there, in that order.

## Main definitions

* `Executor.Leads` — some moves, one after the other
* `WorkWatch.Job.marks`, `WorkWatch.Job.way` — what is seen of a job, and how it is handed over
* `WorkWatch.Mirrors` — an executor stands where a worker stands
* `WorkWatch.Rests` — a bench between two steps, with the executor that mirrors it

## Main results

* `WorkWatch.Bench.plays_step` — every step is some moves
* `WorkWatch.exists_schedule` — whatever was seen of a worker, a schedule does
-/

namespace Tenure

namespace Executor

variable {β : Type} {exec exec' last : Executor β}

/-- Some moves, one after the other. -/
def Leads (exec exec' : Executor β) : Prop := ∃ schedule, exec' = exec.course schedule

theorem Leads.refl (exec : Executor β) : Leads exec exec := ⟨[], rfl⟩

theorem Leads.trans (h : Leads exec exec') (h' : Leads exec' last) : Leads exec last := by
  obtain ⟨first, rfl⟩ := h
  obtain ⟨second, rfl⟩ := h'
  exact ⟨first ++ second, List.foldl_append.symm⟩

theorem leads_step (exec : Executor β) (move : Move β) : Leads exec (exec.step move) :=
  ⟨[move], rfl⟩

/-- Work that is handed over while nothing else happens. -/
theorem leads_handOver {source : Source} {way : Way} (active : exec.isActive source = true)
    (free : exec.isFree source = true) (single : way ≠ .call)
    (working : exec.worker.stopping = false) (alive : exec.worker.phase ≠ .exited) :
    Leads exec
      { exec with
        worker := { exec.worker with
          queue := exec.worker.queue ++ [Job.mk exec.invocations.length way false] }
        invocations := exec.invocations ++ [⟨source, way, .returned none⟩]
        accepted := exec.accepted ++ [Job.mk exec.invocations.length way false] } := by
  refine ⟨[.invoke source way, .proceed exec.invocations.length,
    .proceed exec.invocations.length], ?_⟩
  have accepts : exec.worker.accept (Job.mk exec.invocations.length way false) =
      some { exec.worker with
        queue := exec.worker.queue ++ [Job.mk exec.invocations.length way false] } :=
    Worker.accept_eq_some.mpr ⟨alive, rfl⟩
  simp [course, step, active, free, handOver, Worker.admits, working, reach, accepts,
    Invocation.accepted, single]

/-- Any number of tasks come to their end, one after the other. -/
theorem leads_settle (ready : exec.worker.phase = .ready) (output? : Job → Option (Option β)) :
    ∃ outputs, Leads exec
      { exec with worker := exec.worker.settle fun task => (output? task).isSome, outputs } := by
  induction n : exec.worker.tasks.length using Nat.strongRecOn generalizing exec with
  | _ n ih =>
  subst n
  by_cases ends : ∃ task ∈ exec.worker.tasks, (output? task).isSome = true
  · obtain ⟨task, mem, isSome⟩ := ends
    obtain ⟨output, known⟩ := Option.isSome_iff_exists.mp isSome
    have settled : exec.step (.settle task output) =
        { exec with
          worker := exec.worker.settle (· == task)
          outputs := exec.outputs ++ [(task, output)] } := if_pos ⟨ready, mem⟩
    have fewer : (exec.step (.settle task output)).worker.tasks.length <
        exec.worker.tasks.length := by
      rw [settled]
      exact List.length_filter_lt_length_iff_exists.mpr ⟨task, mem, by simp⟩
    obtain ⟨outputs, rest⟩ := ih _ fewer (by rw [settled]; exact ready) rfl
    refine ⟨outputs, (leads_step exec (.settle task output)).trans ?_⟩
    have together : (exec.step (.settle task output)).worker.settle
          (fun task => (output? task).isSome) =
        exec.worker.settle fun task => (output? task).isSome := by
      simp only [settled, Worker.settle, List.filter_filter]
      congr 2
      funext other
      by_cases same : other = task
      · simp [same, isSome]
      · simp [same]
    rw [together] at rest
    simpa only [settled] using rest
  · rw [Worker.settle_eq_self fun task mem => Bool.eq_false_iff.mpr fun h => ends ⟨task, mem, h⟩]
    exact ⟨exec.outputs, .refl exec⟩

end Executor

namespace WorkWatch

variable {ι α : Type}

/-! ### An executor stands where a worker stands -/

/-- What is seen of a job that has done all it does. -/
def Job.marks : Job ι α → List (Mark ι)
  | plain mark _ | holds mark | stops mark => [mark]
  | queues mark => [mark, .outerEnd]
  | submits mark .. => mark.toList

/-- How a job is handed over. -/
def Job.way : Job ι α → Executor.Way
  | submits none false .. => .spawn
  | submits .. => .submit
  | _ => .execute

theorem Job.way_ne_call (job : Job ι α) : job.way ≠ .call := by
  cases job with
  | submits mark breaks => cases mark <;> cases breaks <;> simp [way]
  | _ => simp [way]

/-- A job of the executor stands for one of the jobs that were handed over. -/
structure Names (contents : List (Job ι α)) (job : Executor.Job) (content : Job ι α) : Prop where
  here : contents[job.invocation]? = some content
  way : job.way = content.way
  first : job.second = false

/-- A task of the executor stands for a task that is alive. -/
def Leaves (contents : List (Job ι α)) (task : Executor.Job) (live : Live α) : Prop :=
  ∃ mark, contents[task.invocation]? = some (.submits mark false live.ticket live.task)

/-- Two threads do the same. -/
inductive Phases (contents : List (Job ι α)) :
    Worker.Phase Executor.Job → Worker.Phase (Job ι α) → Prop
  | ready : Phases contents .ready .ready
  | picking : Phases contents .picking .picking
  | running {job : Executor.Job} {content : Job ι α} (names : Names contents job content) :
      Phases contents (.running job) (.running content)
  | exited : Phases contents .exited .exited

/-- Two workers stand at the same point. -/
structure Alike (contents : List (Job ι α)) (mine : Worker Executor.Job Executor.Job)
    (theirs : Worker (Job ι α) (Live α)) : Prop where
  name : mine.name = theirs.name
  stopping : mine.stopping = theirs.stopping
  queue : List.Forall₂ (Names contents) mine.queue theirs.queue
  phase : Phases contents mine.phase theirs.phase
  tasks : List.Forall₂ (Leaves contents) mine.tasks theirs.tasks

/-- An executor stands where a worker stands that was handed some jobs, has started some of them
and has reported so much. Nobody hands anything over at the moment. -/
structure Mirrors (contents begun : List (Job ι α)) (notices : List Notice)
    (worker : Worker (Job ι α) (Live α)) (exec : Executor α) : Prop where
  returned : ∀ invocation ∈ exec.invocations, invocation.stage.isOver = true
  length : exec.invocations.length = contents.length
  worker : Alike contents exec.worker worker
  accepted : List.Forall₂ (Names contents) exec.accepted contents
  started : List.Forall₂ (Names contents) exec.started begun
  notices : exec.notices = notices

variable {contents begun : List (Job ι α)} {notices : List Notice}
  {mine : Worker Executor.Job Executor.Job} {worker theirs : Worker (Job ι α) (Live α)}
  {exec : Executor α} {content : Job ι α}

section

variable {job : Executor.Job} {live : Live α}

theorem Names.mono (h : Names contents job content) (more : List (Job ι α)) :
    Names (contents ++ more) job content := by
  obtain ⟨lt, -⟩ := List.getElem?_eq_some_iff.mp h.here
  exact ⟨(List.getElem?_append_left lt).trans h.here, h.way, h.first⟩

theorem Leaves.mono (h : Leaves contents job live) (more : List (Job ι α)) :
    Leaves (contents ++ more) job live := by
  obtain ⟨mark, here⟩ := h
  obtain ⟨lt, -⟩ := List.getElem?_eq_some_iff.mp here
  exact ⟨mark, (List.getElem?_append_left lt).trans here⟩

end

theorem Phases.mono {phase : Worker.Phase Executor.Job} {phase' : Worker.Phase (Job ι α)}
    (h : Phases contents phase phase') (more : List (Job ι α)) :
    Phases (contents ++ more) phase phase' := by
  cases h with
  | running names => exact .running (names.mono more)
  | ready => exact .ready
  | picking => exact .picking
  | exited => exact .exited

namespace Alike

theorem look (h : Alike contents mine theirs) : Alike contents mine.look theirs.look := by
  obtain ⟨name, queue, stopping, phase, tasks⟩ := mine
  obtain ⟨name', queue', stopping', phase', tasks'⟩ := theirs
  obtain ⟨rfl, rfl, queues, phases, alive⟩ := h
  cases phases with
  | ready =>
    cases stopping with
    | true => exact ⟨rfl, rfl, .nil, .exited, .nil⟩
    | false => exact ⟨rfl, rfl, queues, .picking, alive⟩
  | picking => exact ⟨rfl, rfl, queues, .picking, alive⟩
  | running names => exact ⟨rfl, rfl, queues, .running names, alive⟩
  | exited => exact ⟨rfl, rfl, queues, .exited, alive⟩

theorem pick (h : Alike contents mine theirs) : Alike contents mine.pick theirs.pick := by
  obtain ⟨name, queue, stopping, phase, tasks⟩ := mine
  obtain ⟨name', queue', stopping', phase', tasks'⟩ := theirs
  obtain ⟨rfl, rfl, queues, phases, alive⟩ := h
  cases phases with
  | picking =>
    cases queues with
    | nil => exact ⟨rfl, rfl, .nil, .ready, alive⟩
    | cons names rest => exact ⟨rfl, rfl, rest, .running names, alive⟩
  | ready => exact ⟨rfl, rfl, queues, .ready, alive⟩
  | running names => exact ⟨rfl, rfl, queues, .running names, alive⟩
  | exited => exact ⟨rfl, rfl, queues, .exited, alive⟩

theorem finish (h : Alike contents mine theirs) : Alike contents mine.finish theirs.finish := by
  obtain ⟨name, queue, stopping, phase, tasks⟩ := mine
  obtain ⟨name', queue', stopping', phase', tasks'⟩ := theirs
  obtain ⟨rfl, rfl, queues, phases, alive⟩ := h
  cases phases with
  | running names => exact ⟨rfl, rfl, queues, .ready, alive⟩
  | ready => exact ⟨rfl, rfl, queues, .ready, alive⟩
  | picking => exact ⟨rfl, rfl, queues, .picking, alive⟩
  | exited => exact ⟨rfl, rfl, queues, .exited, alive⟩

theorem stop (h : Alike contents mine theirs) : Alike contents mine.stop theirs.stop :=
  ⟨h.name, rfl, h.queue, h.phase, h.tasks⟩

theorem begin (h : Alike contents mine theirs) {task : Executor.Job} {live : Live α}
    (leaves : Leaves contents task live) : Alike contents (mine.begin task) (theirs.begin live) :=
  ⟨h.name, h.stopping, h.queue, h.phase, List.rel_append h.tasks (.cons leaves .nil)⟩

theorem accept {job : Executor.Job} (h : Alike contents mine theirs)
    (names : Names (contents ++ [content]) job content) :
    Alike (contents ++ [content]) { mine with queue := mine.queue ++ [job] }
      { theirs with queue := theirs.queue ++ [content] } :=
  ⟨h.name, h.stopping,
    List.rel_append (h.queue.imp fun _ _ names => names.mono _) (.cons names .nil),
    h.phase.mono _, h.tasks.imp fun _ _ leaves => leaves.mono _⟩

theorem settle (h : Alike contents mine theirs) {ended : Executor.Job → Bool}
    {ended' : Live α → Bool}
    (same : ∀ {task live}, Leaves contents task live → ended task = ended' live) :
    Alike contents (mine.settle ended) (theirs.settle ended') :=
  ⟨h.name, h.stopping, h.queue, h.phase,
    List.rel_filter (fun _ _ leaves => by simp [same leaves]) h.tasks⟩

/-- What one of two workers does, the other does. -/
theorem job? (h : Alike contents mine theirs) :
    (mine.job? = none ∧ theirs.job? = none) ∨
      ∃ job content, mine.job? = some job ∧ theirs.job? = some content ∧
        Names contents job content := by
  obtain ⟨name, queue, stopping, phase, tasks⟩ := mine
  obtain ⟨name', queue', stopping', phase', tasks'⟩ := theirs
  cases h.phase with
  | running names => exact .inr ⟨_, _, rfl, rfl, names⟩
  | ready | picking | exited => exact .inl ⟨rfl, rfl⟩

/-- The job that runs for one of two workers runs for the other. -/
theorem running (h : Alike contents mine theirs) (running : theirs.job? = some content) :
    ∃ job, mine.job? = some job ∧ Names contents job content := by
  rcases h.job? with ⟨-, none⟩ | ⟨job, content', here, there, names⟩
  · simp [running] at none
  · obtain rfl : content = content' := Option.some.inj (running.symm.trans there)
    exact ⟨job, here, names⟩

theorem alive (h : Alike contents mine theirs) (alive : theirs.phase ≠ .exited) :
    mine.phase ≠ .exited := by
  obtain ⟨name, queue, stopping, phase, tasks⟩ := mine
  obtain ⟨name', queue', stopping', phase', tasks'⟩ := theirs
  cases h.phase with
  | exited => exact absurd rfl alive
  | ready | picking | running => simp

theorem ready (h : Alike contents mine theirs) (ready : theirs.phase = .ready) :
    mine.phase = .ready := by
  obtain ⟨name, queue, stopping, phase, tasks⟩ := mine
  obtain ⟨name', queue', stopping', phase', tasks'⟩ := theirs
  obtain rfl : phase' = .ready := ready
  cases h.phase with
  | ready => rfl

end Alike

/-! ### The moves of an executor -/

namespace Mirrors

theorem isFree (h : Mirrors contents begun notices worker exec) (source : Executor.Source) :
    exec.isFree source = true :=
  List.all_eq_true.mpr fun invocation mem => by simp [h.returned invocation mem]

/-- A job is handed over. -/
theorem accept (h : Mirrors contents begun notices worker exec) {source : Executor.Source}
    (active : exec.isActive source = true) (working : worker.stopping = false)
    (alive : worker.phase ≠ .exited) (content : Job ι α) :
    ∃ exec', exec.Leads exec' ∧ exec'.worker.phase = exec.worker.phase ∧
      Mirrors (contents ++ [content]) begun notices
        { worker with queue := worker.queue ++ [content] } exec' := by
  have names : Names (contents ++ [content])
      (Executor.Job.mk exec.invocations.length content.way false) content :=
    ⟨by simp [h.length], rfl, rfl⟩
  refine ⟨_, Executor.leads_handOver active (h.isFree source) content.way_ne_call
    (h.worker.stopping.trans working) (h.worker.alive alive), rfl, ?_⟩
  exact {
    returned := by
      intro invocation mem
      rcases List.mem_append.mp mem with mem | mem
      · exact h.returned invocation mem
      · rw [List.mem_singleton.mp mem]
        rfl
    length := by simp [h.length]
    worker := h.worker.accept names
    accepted := List.rel_append (h.accepted.imp fun _ _ names => names.mono _) (.cons names .nil)
    started := h.started.imp fun _ _ names => names.mono _
    notices := h.notices }

theorem look (h : Mirrors contents begun notices worker exec) :
    Mirrors contents begun notices worker.look (exec.step .look) :=
  ⟨h.returned, h.length, h.worker.look, h.accepted, h.started, h.notices⟩

theorem stop (h : Mirrors contents begun notices worker exec) {source : Executor.Source}
    (active : exec.isActive source = true) :
    Mirrors contents begun notices worker.stop (exec.step (.stop source)) := by
  simp only [Executor.step, if_pos active]
  exact ⟨h.returned, h.length, h.worker.stop, h.accepted, h.started, h.notices⟩

/-- The next job is begun, if there is one. -/
theorem pick (h : Mirrors contents begun notices worker exec) (idle : worker.job? = none) :
    Mirrors contents (begun ++ worker.pick.job?.toList) notices worker.pick
      (exec.step .pick) := by
  have idle' : exec.worker.job? = none := by
    rcases h.worker.job? with ⟨none, -⟩ | ⟨_, _, -, some, -⟩
    · exact none
    · simp [idle] at some
  simp only [Executor.step, idle']
  refine ⟨h.returned, h.length, h.worker.pick, h.accepted, List.rel_append h.started ?_, h.notices⟩
  rcases h.worker.pick.job? with ⟨none, none'⟩ | ⟨job, content, some, some', names⟩
  · rw [none, none']
    exact .nil
  · rw [some, some']
    exact .cons names .nil

variable {job : Executor.Job}

/-- A job ends that leaves no task. -/
theorem finish (h : Mirrors contents begun notices worker exec)
    (running : worker.job? = some content) (executes : content.way = .execute) :
    Mirrors contents begun notices worker.finish (exec.step (.finish false)) := by
  obtain ⟨job, running, names⟩ := h.worker.running running
  have way : job.way = .execute := names.way.trans executes
  simp only [Executor.step, running, if_pos (h.isFree _), Executor.finish, Executor.Job.leavesTask,
    way, Bool.false_and, Bool.false_eq_true, if_false]
  exact ⟨h.returned, h.length, h.worker.finish, h.accepted, h.started, h.notices⟩

/-- A job breaks off. -/
theorem breakOff (h : Mirrors contents begun notices worker exec)
    (running : worker.job? = some content) (own : content.way ≠ .spawn) :
    Mirrors contents begun (notices ++ [.jobBroke worker.name]) worker.finish
      (exec.step (.finish true)) := by
  obtain ⟨job, running, names⟩ := h.worker.running running
  have notMere : job.isMere = false := by
    have way : job.way ≠ .spawn := by rw [names.way]; exact own
    simp [Executor.Job.isMere, names.first, way]
  simp only [Executor.step, running, if_pos (h.isFree _), Executor.finish, notMere]
  refine ⟨h.returned, h.length, h.worker.finish, h.accepted, h.started, ?_⟩
  simp [h.notices, h.worker.name]

/-- A job ends that leaves a task. -/
theorem leave {mark : Option (Mark ι)} {ticket : Nat} {task : Task α}
    (h : Mirrors contents begun notices worker exec)
    (running : worker.job? = some (.submits mark false ticket task)) :
    Mirrors contents begun notices (worker.begin ⟨ticket, task⟩).finish
      (exec.step (.finish false)) := by
  obtain ⟨job, running, names⟩ := h.worker.running running
  have leaves : job.leavesTask = true := by
    cases mark <;> simp [Executor.Job.leavesTask, names.way, Job.way]
  rw [Worker.finish_begin]
  simp only [Executor.step, running, if_pos (h.isFree _), Executor.finish, leaves,
    Bool.false_and, Bool.false_eq_true, if_false, if_true]
  exact ⟨h.returned, h.length, h.worker.finish.begin ⟨mark, names.here⟩, h.accepted, h.started,
    h.notices⟩

end Mirrors

/-! ### A bench between two steps -/

/-- A bench on which nothing goes on: the thread has ended, a job holds it, or there is no job. -/
def Bench.Still (bench : Bench ι α) : Prop :=
  bench.worker.phase = .ready ∨ (bench.worker.phase = .exited ∧ bench.worker.tasks = []) ∨
    bench.isHeld = true

/-- What an executor has in common with a bench between two steps, of which so much was seen
before: the marks are those of the jobs that were started. -/
structure Rests (marks : List (Mark ι)) (seen : List Notice) (bench : Bench ι α)
    (exec : Executor α) : Prop where
  mirrors : ∃ contents begun, Mirrors contents begun (seen ++ bench.notices) bench.worker exec ∧
    marks ++ bench.marks = begun.flatMap Job.marks
  still : bench.Still

/-- What leads from one bench to another is some moves of an executor. -/
def Plays (bench bench' : Bench ι α) : Prop :=
  ∀ ⦃marks seen exec⦄, Rests marks seen bench exec →
    ∃ exec', exec.Leads exec' ∧ Rests marks seen bench' exec'

variable {bench bench' last : Bench ι α}

theorem Plays.trans (h : Plays bench bench') (h' : Plays bench' last) : Plays bench last := by
  intro marks seen exec rests
  obtain ⟨between, first, rests⟩ := h rests
  obtain ⟨exec', second, rests⟩ := h' rests
  exact ⟨exec', first.trans second, rests⟩

/-- What is neither the worker's nor seen does not matter. -/
theorem Plays.of_same (worker : bench'.worker = bench.worker) (marks : bench'.marks = bench.marks)
    (notices : bench'.notices = bench.notices) : Plays bench bench' := by
  intro _ _ exec rests
  refine ⟨exec, .refl exec, ?_, ?_⟩
  · rw [worker, marks, notices]
    exact rests.mirrors
  · rw [Bench.Still, Bench.isHeld, worker]
    exact rests.still

theorem Plays.refl (bench : Bench ι α) : Plays bench bench := .of_same rfl rfl rfl

theorem Bench.queue_eq (bench : Bench ι α) (alive : bench.worker.phase ≠ .exited)
    (job : Job ι α) :
    bench.queue job =
      { bench with worker := { bench.worker with queue := bench.worker.queue ++ [job] } } := by
  have taken : bench.worker.accept job =
      some { bench.worker with queue := bench.worker.queue ++ [job] } :=
    Worker.accept_eq_some.mpr ⟨alive, rfl⟩
  simp only [Bench.queue, taken]

/-- The job that runs hands another one over. -/
theorem Mirrors.acceptInside (h : Mirrors contents begun notices worker exec)
    (running : worker.job? = some content) (working : worker.stopping = false)
    (inner : Job ι α) :
    ∃ exec', exec.Leads exec' ∧
      Mirrors (contents ++ [inner]) begun notices
        { worker with queue := worker.queue ++ [inner] } exec' := by
  obtain ⟨job, here, -⟩ := h.worker.running running
  have active : exec.isActive (.job job) = true := by simp [Executor.isActive, here]
  have alive : worker.phase ≠ .exited := by simp [Worker.job?_eq_some.mp running]
  obtain ⟨exec', leads, -, next⟩ := h.accept active working alive inner
  exact ⟨exec', leads, next⟩

/-- What a job does that runs. -/
theorem Mirrors.perform (bench : Bench ι α) {seen : List Notice}
    (h : Mirrors contents begun (seen ++ bench.notices) bench.worker exec)
    (running : bench.worker.job? = some content) (working : bench.worker.stopping = false) :
    ∃ contents' exec', exec.Leads exec' ∧
      Mirrors contents' begun (seen ++ (bench.perform content).notices)
        (bench.perform content).worker exec' ∧
      (bench.perform content).marks = bench.marks ++ content.marks ∧
      (bench.perform content).Still := by
  have phase := Worker.job?_eq_some.mp running
  have ready {worker : Worker (Job ι α) (Live α)} {job : Job ι α}
      (phase : worker.phase = .running job) : worker.finish.phase = .ready := by
    simp only [Worker.finish, phase]
  have breaksOff (own : content.way ≠ .spawn) :
      Mirrors contents begun (seen ++ (bench.notices ++ [.jobBroke bench.worker.name]))
        bench.worker.finish (exec.step (.finish true)) := by
    rw [← List.append_assoc]
    exact h.breakOff running own
  cases content with
  | plain mark breaks =>
    cases breaks with
    | false =>
      exact ⟨contents, exec.step (.finish false), Executor.leads_step _ _, h.finish running rfl,
        rfl, .inl (ready phase)⟩
    | true =>
      exact ⟨contents, exec.step (.finish true), Executor.leads_step _ _,
        breaksOff (by simp [Job.way]), rfl, .inl (ready phase)⟩
  | queues mark =>
    -- nobody else does anything while the job runs, so both of its jobs are accepted
    have alive : bench.worker.phase ≠ .exited := by simp [phase]
    obtain ⟨first, leads, next⟩ := h.acceptInside running working (.plain (.inner false) false)
    obtain ⟨second, leads', last⟩ := next.acceptInside running working
      (.plain (.inner true) false)
    refine ⟨contents ++ [.plain (.inner false) false] ++ [.plain (.inner true) false],
      second.step (.finish false), (leads.trans leads').trans (Executor.leads_step _ _), ?_⟩
    have performed : bench.perform (.queues mark) =
        { bench with
          worker := Worker.finish { bench.worker with
            queue := bench.worker.queue ++ [.plain (.inner false) false] ++
              [.plain (.inner true) false] }
          marks := bench.marks ++ [mark] ++ [.outerEnd] } := by
      rw [Bench.perform, Bench.queue_eq (bench.mark mark) alive, Bench.queue_eq]
      · rfl
      · exact alive
    rw [performed]
    exact ⟨last.finish running rfl, by simp [Job.marks], .inl (ready phase)⟩
  | holds mark =>
    refine ⟨contents, exec, .refl exec, h, rfl, .inr (.inr ?_)⟩
    simp [Bench.perform, Bench.mark, Bench.isHeld, running]
  | stops mark =>
    obtain ⟨job, here, -⟩ := h.worker.running running
    have active : exec.isActive (.job job) = true := by simp [Executor.isActive, here]
    exact ⟨contents, (exec.step (.stop (.job job))).step (.finish false),
      (Executor.leads_step _ _).trans (Executor.leads_step _ _),
      (h.stop active).finish running rfl, rfl, .inl (ready phase)⟩
  | submits mark breaks ticket task =>
    have marks : (bench.perform (.submits mark breaks ticket task)).marks =
        bench.marks ++ mark.toList := by
      cases mark <;> cases breaks <;>
        simp [Bench.perform, Bench.mark, Bench.breakOff, Bench.resolve]
    cases breaks with
    | false =>
      refine ⟨contents, exec.step (.finish false), Executor.leads_step _ _, ?_, marks, ?_⟩
      · cases mark <;> exact h.leave running
      · cases mark <;> exact .inl (ready phase)
    | true =>
      have own : (Job.submits mark true ticket task).way ≠ .spawn := by
        cases mark <;> simp [Job.way]
      refine ⟨contents, exec.step (.finish true), Executor.leads_step _ _, ?_, marks, ?_⟩
      · cases mark <;> exact breaksOff own
      · cases mark <;> exact .inl (ready phase)

/-! ### The work between two steps -/

/-- A look and a grasp for the next job leave a worker that had none at rest, or with a job to do,
which it has only if it was not told to stop. -/
theorem look_pick (worker : Worker (Job ι α) (Live α))
    (still : worker.phase = .ready ∨ (worker.phase = .exited ∧ worker.tasks = [])) :
    worker.look.job? = none ∧
      ((∃ job, worker.look.pick.job? = some job ∧ worker.stopping = false) ∨
        (worker.look.pick.job? = none ∧
          (worker.look.pick.phase = .ready ∨
            (worker.look.pick.phase = .exited ∧ worker.look.pick.tasks = [])))) := by
  obtain ⟨name, queue, stopping, phase, tasks⟩ := worker
  rcases still with rfl | ⟨rfl, rfl⟩
  · cases stopping with
    | true => exact ⟨rfl, .inr ⟨rfl, .inr ⟨rfl, rfl⟩⟩⟩
    | false =>
      cases queue with
      | nil => exact ⟨rfl, .inr ⟨rfl, .inl rfl⟩⟩
      | cons job queue => exact ⟨rfl, .inl ⟨job, rfl, rfl⟩⟩
  · exact ⟨rfl, .inr ⟨rfl, .inr ⟨rfl, rfl⟩⟩⟩

namespace Bench

/-- Jobs are done as long as there are any. -/
theorem plays_work (bench : Bench ι α) (more : Nat) : Plays bench (bench.work more) := by
  induction more generalizing bench with
  | zero => exact .refl bench
  | succ more ih =>
    simp only [work]
    split
    case isTrue => exact .refl bench
    case isFalse free =>
      intro marks seen exec rests
      obtain ⟨⟨contents, begun, mirrors, seenMarks⟩, still⟩ := rests
      have still : bench.worker.phase = .ready ∨
          (bench.worker.phase = .exited ∧ bench.worker.tasks = []) := by
        rcases still with ready | exited | held
        · exact .inl ready
        · exact .inr exited
        · exact absurd held free
      obtain ⟨idle, goesOn⟩ := look_pick bench.worker still
      have leads := (Executor.leads_step exec .look).trans
        (Executor.leads_step (exec.step .look) .pick)
      have picked := mirrors.look.pick idle
      rcases goesOn with ⟨job, running, working⟩ | ⟨none, still⟩
      · simp only [running]
        rw [running] at picked
        obtain ⟨contents', exec', leads', mirrors', seenMarks', still'⟩ :=
          Mirrors.perform { bench with worker := bench.worker.look.pick } picked running
            (by simpa using working)
        obtain ⟨last, leads'', rests⟩ := ih _ ⟨⟨contents', _, mirrors', by
          rw [seenMarks', ← List.append_assoc, seenMarks]; simp⟩, still'⟩
        exact ⟨last, (leads.trans leads').trans leads'', rests⟩
      · simp only [none]
        rw [none, Option.toList_none, List.append_nil] at picked
        exact ⟨_, leads, ⟨contents, begun, picked, seenMarks⟩,
          still.imp_right .inl⟩

/-- What a task of the executor comes to, if it comes to its end. -/
def output? (bench : Bench ι α) (contents : List (Job ι α)) (task : Executor.Job) :
    Option (Option α) :=
  match contents[task.invocation]? with
  | some (.submits _ _ ticket task) =>
    (bench.outcome? ⟨ticket, task⟩).map fun
      | .value value => some value
      | .lost => none
  | _ => none

/-- Tasks go on that can. -/
theorem plays_goOn (bench : Bench ι α) (free : bench.isHeld = false) :
    Plays bench bench.goOn := by
  intro marks seen exec rests
  obtain ⟨⟨contents, begun, mirrors, seenMarks⟩, still⟩ := rests
  have alike : Alike contents
      (exec.worker.settle fun task => (bench.output? contents task).isSome)
      bench.goOn.worker := by
    refine mirrors.worker.settle fun leaves => ?_
    obtain ⟨mark, here⟩ := leaves
    simp [output?, here]
  rcases still with ready | ⟨exited, empty⟩ | held
  · obtain ⟨outputs, leads⟩ :=
      Executor.leads_settle (mirrors.worker.ready ready) (bench.output? contents)
    exact ⟨_, leads, ⟨contents, begun, ⟨mirrors.returned, mirrors.length, alike,
      mirrors.accepted, mirrors.started, mirrors.notices⟩, seenMarks⟩, .inl ready⟩
  · -- the tasks were dropped with the thread
    have same : bench.goOn.worker = bench.worker :=
      Worker.settle_eq_self fun task mem => by simp [empty] at mem
    exact Plays.of_same same rfl rfl
      ⟨⟨contents, begun, mirrors, seenMarks⟩, .inr (.inl ⟨exited, empty⟩)⟩
  · simp [free] at held

/-- The work between two steps. -/
theorem plays_rest (bench : Bench ι α) : Plays bench bench.rest := by
  have worked :=
    bench.plays_work (bench.worker.queue.foldr (fun job others => job.share + others) 1)
  unfold rest
  dsimp only
  split
  case isTrue => exact worked
  case isFalse free => exact worked.trans (plays_goOn _ (by simpa using free))

/-- A job is handed over, or refused. -/
theorem plays_handOver (bench : Bench ι α) (job : Job ι α) (reply : Bench ι α → Reply α) :
    Plays bench (bench.handOver job reply).2 := by
  unfold handOver
  split
  case isTrue admits =>
    split
    case h_1 worker taken =>
      refine Plays.trans ?_ (plays_rest { bench with worker })
      obtain ⟨alive, rfl⟩ := Worker.accept_eq_some.mp taken
      intro marks seen exec rests
      obtain ⟨⟨contents, begun, mirrors, seenMarks⟩, still⟩ := rests
      have working : bench.worker.stopping = false := by simpa [Worker.admits] using admits
      have active : exec.isActive (.thread 0) = true := rfl
      obtain ⟨exec', leads, -, next⟩ := mirrors.accept active working alive job
      exact ⟨exec', leads, ⟨_, begun, next, seenMarks⟩, still⟩
    case h_2 => exact .refl bench
  case isFalse => exact .refl bench

theorem plays_submit (bench : Bench ι α) (mark : Option (Mark ι)) (breaks : Bool) (task : Task α) :
    Plays bench (bench.submit mark breaks task).2 := by
  refine Plays.trans ?_ (plays_handOver { bench with tickets := bench.tickets + 1 } _ _)
  exact .of_same rfl rfl rfl

theorem plays_stop (bench : Bench ι α) : Plays bench bench.stop.2 := by
  refine Plays.trans ?_ (plays_rest { bench with worker := bench.worker.stop })
  intro marks seen exec rests
  obtain ⟨⟨contents, begun, mirrors, seenMarks⟩, still⟩ := rests
  exact ⟨_, Executor.leads_step exec (.stop (.thread 0)),
    ⟨contents, begun, mirrors.stop rfl, seenMarks⟩, still⟩

/-- The job that holds the thread ends. -/
theorem plays_letGo (bench : Bench ι α) : Plays bench bench.letGo.2 := by
  unfold letGo
  split
  case isTrue held =>
    refine Plays.trans ?_ (plays_rest bench.finish)
    intro marks seen exec rests
    obtain ⟨⟨contents, begun, mirrors, seenMarks⟩, still⟩ := rests
    obtain ⟨mark, running⟩ : ∃ mark, bench.worker.job? = some (.holds mark) := by
      unfold isHeld at held
      split at held
      case h_1 mark running => exact ⟨mark, running⟩
      case h_2 => cases held
    refine ⟨_, Executor.leads_step exec (.finish false),
      ⟨contents, begun, mirrors.finish running rfl, seenMarks⟩, .inl ?_⟩
    simp only [finish, Worker.finish, Worker.job?_eq_some.mp running]
  case isFalse => exact .refl bench

variable [BEq ι]

theorem plays_park (bench : Bench ι α) (name : ι) : Plays bench (bench.park name).2 := by
  have handed : Plays bench ({ bench with tickets := bench.tickets + 1 }.handOver
      (.submits (some (.of name)) false bench.tickets .waits) fun _ => .parked).2 := by
    refine Plays.trans ?_ (plays_handOver _ _ _)
    exact .of_same rfl rfl rfl
  unfold park
  dsimp only
  split
  case h_1 accepted =>
    rw [accepted] at handed
    exact handed.trans (.of_same rfl rfl rfl)
  case h_2 => exact handed

theorem plays_openGate (bench : Bench ι α) (name : ι) (value : α) :
    Plays bench (bench.openGate name value).2 := by
  unfold openGate
  split
  · exact .refl bench
  · dsimp only
    split
    · exact .of_same rfl rfl rfl
    · refine Plays.trans ?_ (plays_rest _)
      exact .of_same rfl rfl rfl

theorem plays_join (bench : Bench ι α) (name : ι) : Plays bench (bench.join name).2 := by
  unfold join
  split
  · exact .refl bench
  · exact .of_same rfl rfl rfl

/-- Every step is some moves. -/
theorem plays_step (bench : Bench ι α) (step : Step ι α) : Plays bench (bench.step step).2 := by
  cases step with
  | execute | executeBreaking | executeMore | hold | stopInside => exact plays_handOver _ _ _
  | thread =>
    refine Plays.trans ?_ (plays_handOver { bench with tickets := bench.tickets + 1 } _ _)
    exact .of_same rfl rfl rfl
  | submit | submitBreakingJob | submitBreakingTask | spawn => exact plays_submit _ _ _ _
  | letGo => exact plays_letGo bench
  | park name => exact plays_park bench name
  | openGate name value => exact plays_openGate bench name value
  | join name => exact plays_join bench name
  | stop | stopAndJoin => exact plays_stop bench
  | name | isCurrent | quoted => exact .refl bench

/-- What is seen of a bench on which some steps are done is left by the jobs that some moves have
started. -/
theorem shows_run (steps : List (Step ι α)) {bench : Bench ι α} {marks : List (Mark ι)}
    {seen : List Notice} {exec : Executor α} (rests : Rests marks seen bench exec) :
    ∃ exec' contents begun worker, exec.Leads exec' ∧
      Mirrors contents begun
        (seen ++ bench.notices ++ (bench.run steps).flatMap Report.notices) worker exec' ∧
      marks ++ bench.marks ++ (bench.run steps).flatMap Report.marks =
        begun.flatMap Job.marks := by
  induction steps generalizing bench marks seen exec with
  | nil =>
    obtain ⟨contents, begun, mirrors, seenMarks⟩ := rests.mirrors
    exact ⟨exec, contents, begun, bench.worker, .refl exec, by simpa [run] using mirrors,
      by simpa [run] using seenMarks⟩
  | cons step steps ih =>
    -- what was seen before a step is put aside
    have wiped : Rests (marks ++ bench.marks) (seen ++ bench.notices)
        { bench with marks := [], notices := [] } exec := by
      obtain ⟨⟨contents, begun, mirrors, seenMarks⟩, still⟩ := rests
      exact ⟨⟨contents, begun, by simpa using mirrors, by simpa using seenMarks⟩, still⟩
    obtain ⟨between, leads, rests⟩ := plays_step _ step wiped
    obtain ⟨exec', contents, begun, worker, leads', mirrors, seenMarks⟩ := ih rests
    refine ⟨exec', contents, begun, worker, leads.trans leads', ?_, ?_⟩
    · simpa [run, report] using mirrors
    · simpa [run, report] using seenMarks

end Bench

theorem names_rightUnique (contents : List (Job ι α)) : Relator.RightUnique (Names contents) :=
  fun _ _ _ first second => Option.some.inj (first.here.symm.trans second.here)

/-- The jobs that were started are the first of those that were handed over. -/
theorem Mirrors.begun_first (h : Mirrors contents begun notices worker exec)
    (line : exec.started <+: exec.accepted) : begun <+: contents := by
  have first : List.Forall₂ (Names contents) exec.started
      (contents.take exec.started.length) := by
    have taken := List.forall₂_take exec.started.length h.accepted
    rwa [← List.prefix_iff_eq_take.mp line] at taken
  rw [List.right_unique_forall₂' (names_rightUnique contents) h.started first]
  exact List.take_prefix _ _

/-- Whatever was seen of a worker, there is a schedule of an executor that does it: the marks are
those of the jobs that were started, and these are the first of the jobs that were handed over. -/
theorem exists_schedule [BEq ι] {name : String} {steps : List (Step ι α)}
    {reports : List (Report ι α)} (h : run name steps = some reports) :
    ∃ (schedule : List (Executor.Move α)) (contents begun : List (Job ι α)),
      let exec := (Executor.opened name).course schedule
      List.Forall₂ (Names contents) exec.accepted contents ∧
        List.Forall₂ (Names contents) exec.started begun ∧ begun <+: contents ∧
        reports.flatMap Report.marks = begun.flatMap Job.marks ∧
        reports.flatMap Report.notices = exec.notices := by
  obtain ⟨-, rfl⟩ : Worker.nameable name = true ∧
      Bench.run { worker := { name } } steps = reports := by
    unfold run at h
    split at h
    case isTrue nameable => exact ⟨nameable, Option.some.inj h⟩
    case isFalse => cases h
  have opened : Rests [] [] ({ worker := { name } } : Bench ι α) (Executor.opened name) :=
    ⟨⟨[], [], ⟨by simp [Executor.opened], rfl, ⟨rfl, rfl, .nil, .ready, .nil⟩, .nil, .nil, rfl⟩,
      rfl⟩, .inl rfl⟩
  obtain ⟨_, contents, begun, worker, ⟨schedule, rfl⟩, mirrors, marks⟩ :=
    Bench.shows_run steps opened
  have line := (Executor.sound_course name schedule).line.before
  refine ⟨schedule, contents, begun, mirrors.accepted, mirrors.started,
    mirrors.begun_first ((List.prefix_append _ _).trans line), by simpa using marks, ?_⟩
  simpa using mirrors.notices.symm

end WorkWatch

end Tenure
