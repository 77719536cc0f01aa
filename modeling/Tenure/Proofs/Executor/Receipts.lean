import Mathlib.Data.List.Nodup
import Tenure.Executor.Receipt
import Tenure.Proofs.Executor.Turns

/-!
# Results of submissions

The sender of a submission is passed on from the queue to the job that runs and from there to the
task. It is never doubled, and it is lost in one of three ways only: the job breaks off, the task
breaks off, or the thread ends. Whichever comes first, the value or the loss, decides what the
receiver finds, for good; and once the thread has ended nobody waits any more. What becomes of one
submission is no business of the others.

## Main definitions

* `Executor.Returns`, `Executor.Yields`, `Executor.Drops` — what can happen to a submission
* `Executor.Happens` — something happens in the course of a schedule
* `Executor.Passage` — what a move does with the senders
* `Executor.Kept` — no sender is doubled
* `Executor.Alike` — two schedules that differ in what becomes of one submission

## Main results

* `Executor.Kept.step` — no sender is ever doubled
* `Executor.receipt?_step_value`, `Executor.receipt?_step_lost` — what decides a receipt
* `Executor.Alike.without` — one submission makes no difference to the others
* `Executor.submission_is_resolved` — all of it
-/

namespace Tenure.Executor

variable {β : Type} {exec exec' : Executor β} {job : Job}

/-! ## What can happen to a submission -/

/-- A move by which a job comes to its end and leaves its task behind. -/
inductive Returns (job : Job) (exec : Executor β) : Move β → Prop
  | returned {breaks : Bool} (running : exec.worker.job? = some job)
      (free : exec.isFree (.job job) = true) (leaves : job.leavesTask = true)
      (whole : (breaks && !job.isMere) = false) : Returns job exec (.finish breaks)

/-- A move by which the task of a job comes to a value. -/
inductive Yields (job : Job) (value : β) (exec : Executor β) : Move β → Prop
  | settled (ready : exec.worker.phase = .ready) (alive : job ∈ exec.worker.tasks) :
      Yields job value exec (.settle job (some value))

/-- A move by which the sender of a job is dropped. -/
inductive Drops (job : Job) (exec : Executor β) : Move β → Prop
  /-- The job breaks off before there is a task. -/
  | jobBroke (running : exec.worker.job? = some job) (free : exec.isFree (.job job) = true)
      (leaves : job.leavesTask = true) (own : job.isMere = false) : Drops job exec (.finish true)
  | taskBroke (ready : exec.worker.phase = .ready) (alive : job ∈ exec.worker.tasks) :
      Drops job exec (.settle job none)
  /-- The thread ends while the job waits or its task is alive. -/
  | threadEnded (ready : exec.worker.phase = .ready) (stopping : exec.worker.stopping = true)
      (leaves : job.leavesTask = true) (held : 0 < exec.worker.holders job) :
      Drops job exec .look

/-- Something happens in the course of a schedule. -/
def Happens (P : Executor β → Move β → Prop) : Executor β → List (Move β) → Prop
  | _, [] => False
  | exec, move :: schedule => P exec move ∨ Happens P (exec.step move) schedule

/-! ## What a move does with the senders -/

/-- What a move does with the senders, the values and the jobs that were accepted. -/
inductive Passage (exec exec' : Executor β) (move : Move β) : Prop
  /-- Senders are passed on, and some may be dropped. -/
  | passed (holders : ∀ job, exec'.worker.holders job ≤ exec.worker.holders job)
      (drops : ∀ job, job.leavesTask = true →
        exec'.worker.holders job < exec.worker.holders job → Drops job exec move)
      (tasks : ∀ task ∈ exec'.worker.tasks, task ∈ exec.worker.tasks ∨ Returns task exec move)
      (ends : exec'.worker.phase = .exited →
        exec.worker.phase = .exited ∨ ∀ job, exec'.worker.holders job = 0)
      (outputs : exec'.outputs = exec.outputs) (accepted : exec'.accepted = exec.accepted)
  /-- A job is accepted, and its sender comes with it. -/
  | accepted (new : Job)
      (holders : ∀ job, exec'.worker.holders job = exec.worker.holders job + [new].count job)
      (tasks : exec'.worker.tasks = exec.worker.tasks) (alive : exec'.worker.phase ≠ .exited)
      (outputs : exec'.outputs = exec.outputs) (accepted : exec'.accepted = exec.accepted ++ [new])
  /-- A task comes to its end, and its sender is gone. -/
  | settled (task : Job) (output : Option β) (same : move = .settle task output)
      (ready : exec.worker.phase = .ready) (here : task ∈ exec.worker.tasks)
      (holders : ∀ job, exec'.worker.holders job + [task].count job ≤ exec.worker.holders job)
      (others : ∀ job, job ≠ task → exec'.worker.holders job = exec.worker.holders job)
      (tasks : ∀ other ∈ exec'.worker.tasks, other ∈ exec.worker.tasks)
      (alive : exec'.worker.phase ≠ .exited)
      (outputs : exec'.outputs = exec.outputs ++ [(task, output)])
      (accepted : exec'.accepted = exec.accepted)

/-- A move that has nothing to do with any sender. -/
theorem passage_aside {move : Move β} (worker : exec'.worker.holders = exec.worker.holders)
    (tasks : exec'.worker.tasks = exec.worker.tasks)
    (ends : exec'.worker.phase = .exited → exec.worker.phase = .exited)
    (outputs : exec'.outputs = exec.outputs) (accepted : exec'.accepted = exec.accepted) :
    Passage exec exec' move :=
  .passed (fun job => Nat.le_of_eq (congrFun worker job))
    (fun job _ lt => absurd (congrFun worker job) (Nat.ne_of_lt lt))
    (fun _ mem => .inl (tasks ▸ mem)) (fun exited => .inl (ends exited)) outputs accepted

private theorem handOver_passage (move : Move β) (i : Nat) (invocation : Invocation) :
    Passage exec (exec.handOver i invocation) move := by
  cases h : invocation.stage with
  | checking second =>
    simp only [handOver, h]
    split <;> exact passage_aside rfl rfl id rfl rfl
  | sending second =>
    cases taken : exec.worker.accept (Job.mk i invocation.way second) with
    | none =>
      simp only [handOver, h, taken]
      exact passage_aside rfl rfl id rfl rfl
    | some worker =>
      simp only [handOver, h, taken]
      obtain ⟨alive, rfl⟩ := Worker.accept_eq_some.mp taken
      exact .accepted _ (fun job => Worker.holders_accept job taken) rfl alive rfl rfl
  | returned refusal =>
    simp only [handOver, h]
    exact passage_aside rfl rfl id rfl rfl

private theorem finish_passage {other : Job} (running : exec.worker.job? = some other)
    (free : exec.isFree (.job other) = true) (breaks : Bool) :
    Passage exec (exec.finish other breaks) (.finish breaks) := by
  have finish (job : Job) :
      exec.worker.finish.holders job + [other].count job = exec.worker.holders job := by
    have passed := Worker.holders_finish exec.worker job
    rwa [running] at passed
  have phase : exec.worker.finish.phase = .ready := by
    simp only [Worker.finish, Worker.job?_eq_some.mp running]
  have tasks : exec.worker.finish.tasks = exec.worker.tasks := by
    simp only [Worker.finish, Worker.job?_eq_some.mp running]
  -- whose sender is gone is the job that was running
  have same {job : Job} (lt : exec.worker.finish.holders job < exec.worker.holders job) :
      other = job := by
    have := finish job
    exact List.mem_singleton.mp (List.count_pos_iff.mp (by omega)) |>.symm
  unfold Executor.finish
  dsimp only
  split
  case isTrue broke =>
    obtain ⟨rfl, own⟩ : breaks = true ∧ other.isMere = false := by simpa using broke
    refine .passed (fun job => ?_) (fun job leaves lt => ?_) (fun task mem => .inl (tasks ▸ mem))
      (fun exited => ?_) rfl rfl
    · have := finish job
      simp only
      omega
    · obtain rfl := same lt
      exact .jobBroke running free leaves own
    · simp [phase] at exited
  case isFalse whole =>
    split
    case isTrue leaves =>
      have begun (job : Job) :
          (exec.worker.finish.begin other).holders job = exec.worker.holders job := by
        rw [Worker.holders_begin]
        exact finish job
      refine .passed (fun job => Nat.le_of_eq (begun job)) (fun job _ lt => ?_) (fun task mem => ?_)
        (fun exited => ?_) rfl rfl
      · have := begun job
        simp only at lt
        omega
      · simp only [Worker.begin, tasks, List.mem_append, List.mem_singleton] at mem
        rcases mem with mem | rfl
        · exact .inl mem
        · exact .inr (.returned running free leaves (by simpa using whole))
      · simp [Worker.begin, phase] at exited
    case isFalse plain =>
      refine .passed (fun job => ?_) (fun job leaves lt => ?_)
        (fun task mem => .inl (tasks ▸ mem)) (fun exited => ?_) rfl rfl
      · have := finish job
        simp only
        omega
      · obtain rfl := same lt
        exact absurd leaves plain
      · simp [phase] at exited

/-- Every move is a passage. -/
theorem step_passage (exec : Executor β) (move : Move β) :
    Passage exec (exec.step move) move := by
  cases move with
  | invoke source way =>
    simp only [step]
    split <;> exact passage_aside rfl rfl id rfl rfl
  | proceed i =>
    simp only [step]
    split
    · exact handOver_passage _ i _
    · exact passage_aside rfl rfl id rfl rfl
  | look =>
    have look := Worker.holders_look exec.worker
    by_cases ending : exec.worker.phase = .ready ∧ exec.worker.stopping = true
    · simp only [ending, and_self, if_true] at look
      refine .passed (fun job => ?_) (fun job leaves lt => ?_) (fun task mem => ?_)
        (fun _ => .inr look) rfl rfl
      · simp only [step, look, Nat.zero_le]
      · simp only [step, look] at lt
        exact .threadEnded ending.1 ending.2 leaves lt
      · simp [step, Worker.look, ending] at mem
    · simp only [ending, if_false] at look
      refine passage_aside (funext look) ?_ (fun exited => ?_) rfl rfl
      · simp only [step, Worker.look]
        split
        · rw [if_neg (by simpa [*] using ending)]
        · rfl
      · simp only [step, Worker.look] at exited
        split at exited
        · rw [if_neg (by simpa [*] using ending)] at exited
          simp at exited
        · exact exited
  | pick =>
    simp only [step]
    split
    · exact passage_aside rfl rfl id rfl rfl
    · refine passage_aside (funext fun job => Worker.holders_pick _ _) ?_ (fun exited => ?_) rfl rfl
      · simp only [Worker.pick]
        split <;> rfl
      · simp only [Worker.pick] at exited
        split at exited
        · simp at exited
        · simp at exited
        · exact exited
  | finish breaks =>
    simp only [step]
    split
    case h_1 other running =>
      split
      · exact finish_passage running (by assumption) breaks
      · exact passage_aside rfl rfl id rfl rfl
    case h_2 => exact passage_aside rfl rfl id rfl rfl
  | settle task output =>
    simp only [step]
    split
    case isTrue h =>
      have others (job : Job) (hne : job ≠ task) :=
        Worker.holders_settle_of_ne exec.worker job hne
      refine .settled task output rfl h.1 h.2 (fun job => ?_) others
        (fun other mem => (List.mem_filter.mp mem).1) (by simp [Worker.settle, h.1]) rfl rfl
      by_cases hne : job = task
      · subst hne
        have alive := List.count_pos_iff.mpr h.2
        have gone : (exec.worker.tasks.filter fun other => !(other == job)).count job = 0 :=
          List.count_eq_zero.mpr (by simp)
        simp only [Worker.holders, Worker.settle, Worker.job?, gone, List.count_singleton_self]
        omega
      · rw [others job hne, List.count_eq_zero.mpr (by simpa using hne)]
        exact Nat.le_refl _
    case isFalse => exact passage_aside rfl rfl id rfl rfl
  | stop source =>
    simp only [step]
    split <;> exact passage_aside rfl rfl id rfl rfl

/-! ## No sender is doubled -/

/-- Every sender is held once, by someone who was given it with an accepted job, until a value is
sent; and a thread that has ended holds none. -/
structure Kept (exec : Executor β) : Prop where
  single : ∀ job, exec.worker.holders job + (exec.outputs.map Prod.fst).count job ≤
    exec.accepted.count job
  leaving : ∀ task ∈ exec.worker.tasks, task.leavesTask = true
  ended : exec.worker.phase = .exited → ∀ job, exec.worker.holders job = 0

theorem kept_opened (name : String) : Kept (opened name : Executor β) where
  single job := by simp [opened, Worker.holders, Worker.job?]
  leaving := nofun
  ended := nofun

theorem Kept.step (kept : Kept exec) (move : Move β) : Kept (exec.step move) := by
  obtain ⟨single, leaving, ended⟩ := kept
  cases step_passage exec move with
  | passed holders drops tasks ends outputs accepted =>
    refine ⟨fun job => ?_, fun task mem => ?_, fun exited job => ?_⟩
    · rw [outputs, accepted]
      exact Nat.le_trans (Nat.add_le_add_right (holders job) _) (single job)
    · rcases tasks task mem with mem | returned
      · exact leaving task mem
      · cases returned with
        | returned running free leaves whole => exact leaves
    · rcases ends exited with exited | gone
      · have := ended exited job
        have := holders job
        omega
      · exact gone job
  | accepted new holders tasks alive outputs accepted =>
    refine ⟨fun job => ?_, fun task mem => leaving task (tasks ▸ mem),
      fun exited => absurd exited alive⟩
    rw [holders, outputs, accepted, List.count_append]
    have := single job
    omega
  | settled task output same ready here holders others tasks alive outputs accepted =>
    refine ⟨fun job => ?_, fun other mem => leaving other (tasks other mem),
      fun exited => absurd exited alive⟩
    rw [outputs, accepted, List.map_append, List.count_append]
    have := single job
    have := holders job
    simp only [List.map_cons, List.map_nil]
    omega

/-- What is needed to know of an executor to tell what becomes of its submissions. -/
structure Orderly (exec : Executor β) : Prop where
  kept : Kept exec
  sound : Sound exec

theorem Orderly.step (orderly : Orderly exec) (move : Move β) : Orderly (exec.step move) :=
  ⟨orderly.kept.step move, orderly.sound.shift (step_shift exec move)⟩

theorem orderly_opened (name : String) : Orderly (opened name : Executor β) :=
  ⟨kept_opened name, sound_opened name⟩

theorem Orderly.course (orderly : Orderly exec) (schedule : List (Move β)) :
    Orderly (exec.course schedule) := by
  induction schedule generalizing exec with
  | nil => exact orderly
  | cons move schedule ih => exact ih (orderly.step move)

namespace Orderly

variable (orderly : Orderly exec)

include orderly

/-- There is one sender for one job. -/
theorem holders_le (job : Job) :
    exec.worker.holders job + (exec.outputs.map Prod.fst).count job ≤ 1 :=
  Nat.le_trans (orderly.kept.single job) (List.nodup_iff_count_le_one.mp orderly.sound.once job)

/-- Whose sender is held was accepted, and no value was sent. -/
theorem of_held (held : 0 < exec.worker.holders job) :
    job ∈ exec.accepted ∧ exec.worker.holders job = 1 ∧ exec.outputs.lookup job = none := by
  have single := orderly.kept.single job
  have le := orderly.holders_le job
  refine ⟨List.count_pos_iff.mp (by omega), by omega, ?_⟩
  have absent : job ∉ exec.outputs.map Prod.fst := List.count_eq_zero.mp (by omega)
  refine List.lookup_eq_none_iff.mpr fun output mem => ?_
  simp only [bne_iff_ne, ne_eq]
  rintro rfl
  exact absent (List.mem_map_of_mem mem)

/-- What came to a value was accepted, and nobody holds its sender any more. -/
theorem of_sent {output : Option β} (sent : exec.outputs.lookup job = some output) :
    job ∈ exec.accepted ∧ exec.worker.holders job = 0 := by
  have single := orderly.kept.single job
  have le := orderly.holders_le job
  have present : 0 < (exec.outputs.map Prod.fst).count job := by
    by_contra none
    have absent : job ∉ exec.outputs.map Prod.fst := List.count_eq_zero.mp (by omega)
    rw [List.lookup_eq_none_iff.mpr] at sent
    · cases sent
    · intro output mem
      simp only [bne_iff_ne, ne_eq]
      rintro rfl
      exact absent (List.mem_map_of_mem mem)
  exact ⟨List.count_pos_iff.mp (by omega), by omega⟩

end Orderly

/-! ## What decides a receipt -/

section

variable {value : β}

theorem receipt?_eq_value : exec.receipt? job = some (.value value) ↔
    (job ∈ exec.accepted ∧ job.leavesTask = true) ∧
      exec.outputs.lookup job = some (some value) := by
  unfold receipt?
  split
  case isTrue known =>
    split
    case h_1 sent here => simp [here, known]
    case h_2 unsent =>
      have never : exec.outputs.lookup job ≠ some (some value) := unsent value
      split <;> simp [never]
  case isFalse unknown => simp [unknown]

theorem receipt?_eq_lost : exec.receipt? job = some .lost ↔
    (job ∈ exec.accepted ∧ job.leavesTask = true) ∧
      (∀ value, exec.outputs.lookup job ≠ some (some value)) ∧
      exec.worker.holders job = 0 := by
  unfold receipt?
  split
  case isTrue known =>
    split
    case h_1 sent here => simp [here]
    case h_2 unsent =>
      have never : ∀ value, exec.outputs.lookup job ≠ some (some value) := unsent
      split <;> simp_all
  case isFalse unknown => simp [unknown]

theorem receipt?_eq_pending : exec.receipt? job = some .pending ↔
    (job ∈ exec.accepted ∧ job.leavesTask = true) ∧
      (∀ value, exec.outputs.lookup job ≠ some (some value)) ∧
      0 < exec.worker.holders job := by
  unfold receipt?
  split
  case isTrue known =>
    split
    case h_1 sent here => simp [here]
    case h_2 unsent =>
      have never : ∀ value, exec.outputs.lookup job ≠ some (some value) := unsent
      split <;> simp_all [Nat.pos_iff_ne_zero]
  case isFalse unknown => simp [unknown]

/-- The end of a task that is no other's. -/
theorem lookup_concat_of_ne {outputs : List (Job × Option β)} {task : Job} {output : Option β}
    (hne : job ≠ task) : (outputs ++ [(task, output)]).lookup job = outputs.lookup job := by
  have other : (job == task) = false := by simpa using hne
  simp [List.lookup_append, List.lookup_cons, other]

end

namespace Orderly

variable {value : β} {move : Move β} (orderly : Orderly exec)

include orderly

/-- The end of a task decides what its receiver finds. -/
theorem lookup_settled {task : Job} (output : Option β) (alive : task ∈ exec.worker.tasks) :
    task ∈ exec.accepted ∧ exec.worker.holders task = 1 ∧
      (exec.outputs ++ [(task, output)]).lookup task = some output := by
  have held : 0 < exec.worker.holders task := by
    have counted := List.count_pos_iff.mpr alive
    unfold Worker.holders
    omega
  obtain ⟨known, one, unsent⟩ := orderly.of_held held
  exact ⟨known, one, by simp [List.lookup_append, unsent]⟩

/-- A value that comes is received. -/
theorem receipt?_of_yields (h : Yields job value exec move) :
    (exec.step move).receipt? job = some (.value value) := by
  obtain ⟨ready, alive⟩ := h
  obtain ⟨known, -, sent⟩ := orderly.lookup_settled (some value) alive
  rw [receipt?_eq_value]
  simp only [Executor.step, ready, alive, and_self, if_true]
  exact ⟨⟨known, orderly.kept.leaving job alive⟩, sent⟩

/-- A sender that is dropped is missed. -/
theorem receipt?_of_drops (h : Drops job exec move) :
    (exec.step move).receipt? job = some .lost := by
  rw [receipt?_eq_lost]
  cases h with
  | jobBroke running free leaves own =>
    have passed := Worker.holders_finish exec.worker job
    rw [running, Option.toList_some, List.count_singleton_self] at passed
    have held : 0 < exec.worker.holders job := by omega
    obtain ⟨known, one, unsent⟩ := orderly.of_held held
    simp only [Executor.step, running, free, if_true, Executor.finish, Bool.true_and, own,
      Bool.not_false]
    exact ⟨⟨known, leaves⟩, fun value => by simp [unsent], by omega⟩
  | taskBroke ready alive =>
    obtain ⟨known, one, sent⟩ := orderly.lookup_settled none alive
    have leaves := orderly.kept.leaving job alive
    cases step_passage exec (.settle job none) with
    | settled task output same ready here holders others tasks living outputs accepted =>
      obtain ⟨rfl, rfl⟩ := Move.settle.inj same
      have := holders job
      rw [List.count_singleton_self] at this
      rw [outputs, accepted]
      exact ⟨⟨known, leaves⟩, fun value => by simp [sent], by omega⟩
    | passed holders drops tasks ends outputs accepted =>
      have grows := congrArg List.length outputs
      simp [Executor.step, ready, alive] at grows
    | accepted new holders tasks living outputs accepted =>
      have grows := congrArg List.length outputs
      simp [Executor.step, ready, alive] at grows
  | threadEnded ready stopping leaves held =>
    obtain ⟨known, one, unsent⟩ := orderly.of_held held
    have gone := Worker.holders_look exec.worker job
    rw [if_pos ⟨ready, stopping⟩] at gone
    exact ⟨⟨known, leaves⟩, fun value => by simp [Executor.step, unsent], gone⟩

/-- What a receiver has found stays so. -/
theorem receipt?_step_of_resolved {receipt : Receipt β} (h : exec.receipt? job = some receipt)
    (resolved : receipt ≠ .pending) (move : Move β) :
    (exec.step move).receipt? job = some receipt := by
  have next := orderly.step move
  cases receipt with
  | pending => exact absurd rfl resolved
  | value value =>
    obtain ⟨⟨known, leaves⟩, sent⟩ := receipt?_eq_value.mp h
    rw [receipt?_eq_value]
    cases step_passage exec move with
    | passed holders drops tasks ends outputs accepted =>
      rw [outputs, accepted]
      exact ⟨⟨known, leaves⟩, sent⟩
    | accepted new holders tasks alive outputs accepted =>
      rw [outputs, accepted]
      exact ⟨⟨List.mem_append_left _ known, leaves⟩, sent⟩
    | settled task output same ready here holders others tasks alive outputs accepted =>
      rw [outputs, accepted]
      exact ⟨⟨known, leaves⟩, by simp [List.lookup_append, sent]⟩
  | lost =>
    obtain ⟨⟨known, leaves⟩, unsent, gone⟩ := receipt?_eq_lost.mp h
    rw [receipt?_eq_lost]
    cases step_passage exec move with
    | passed holders drops tasks ends outputs accepted =>
      rw [outputs, accepted]
      exact ⟨⟨known, leaves⟩, unsent, Nat.le_zero.mp (gone ▸ holders job)⟩
    | accepted new holders tasks alive outputs accepted =>
      -- what was accepted before is not accepted anew
      have fresh : job ≠ new := by
        rintro rfl
        have once := next.sound.once
        rw [accepted] at once
        exact (List.nodup_append.mp once).2.2 job known job (List.mem_singleton_self _) rfl
      have absent : [new].count job = 0 := List.count_eq_zero.mpr (by simpa using fresh)
      rw [outputs, accepted, holders, gone, absent]
      exact ⟨⟨List.mem_append_left _ known, leaves⟩, unsent, rfl⟩
    | settled task output same ready here holders others tasks alive outputs accepted =>
      have other : job ≠ task := by
        rintro rfl
        obtain ⟨-, one, -⟩ := orderly.lookup_settled output here
        omega
      rw [outputs, accepted, others job other, lookup_concat_of_ne other]
      exact ⟨⟨known, leaves⟩, unsent, gone⟩

/-- The value of a task comes by its end. -/
theorem receipt?_step_value : (exec.step move).receipt? job = some (.value value) ↔
    exec.receipt? job = some (.value value) ∨ Yields job value exec move := by
  constructor
  · intro h
    obtain ⟨⟨known, leaves⟩, sent⟩ := receipt?_eq_value.mp h
    rw [receipt?_eq_value]
    cases step_passage exec move with
    | passed holders drops tasks ends outputs accepted =>
      rw [outputs] at sent
      exact .inl ⟨⟨accepted ▸ known, leaves⟩, sent⟩
    | accepted new holders tasks alive outputs accepted =>
      rw [outputs] at sent
      exact .inl ⟨⟨(orderly.of_sent sent).1, leaves⟩, sent⟩
    | settled task output same ready here holders others tasks alive outputs accepted =>
      by_cases own : job = task
      · subst own
        rw [outputs, (orderly.lookup_settled output here).2.2] at sent
        obtain rfl := Option.some.inj sent
        subst same
        exact .inr ⟨ready, here⟩
      · rw [outputs, lookup_concat_of_ne own] at sent
        exact .inl ⟨⟨accepted ▸ known, leaves⟩, sent⟩
  · rintro (before | yields)
    · exact orderly.receipt?_step_of_resolved before (by simp) move
    · exact orderly.receipt?_of_yields yields

/-- A submission is lost by a move that drops its sender. -/
theorem receipt?_step_lost : (exec.step move).receipt? job = some .lost ↔
    exec.receipt? job = some .lost ∨ Drops job exec move := by
  constructor
  · intro h
    obtain ⟨⟨known, leaves⟩, unsent, gone⟩ := receipt?_eq_lost.mp h
    rw [receipt?_eq_lost]
    cases step_passage exec move with
    | passed holders drops tasks ends outputs accepted =>
      rw [outputs] at unsent
      by_cases held : exec.worker.holders job = 0
      · exact .inl ⟨⟨accepted ▸ known, leaves⟩, unsent, held⟩
      · exact .inr (drops job leaves (by omega))
    | accepted new holders tasks alive outputs accepted =>
      rw [outputs] at unsent
      rw [holders] at gone
      have other : job ∉ [new] := List.count_eq_zero.mp (by omega)
      rw [accepted] at known
      exact .inl ⟨⟨(List.mem_append.mp known).resolve_right other, leaves⟩, unsent, by omega⟩
    | settled task output same ready here holders others tasks alive outputs accepted =>
      by_cases own : job = task
      · subst own
        have sent := (orderly.lookup_settled output here).2.2
        rw [outputs] at unsent
        cases output with
        | some value => exact absurd sent (unsent value)
        | none =>
          subst same
          exact .inr (.taskBroke ready here)
      · rw [outputs] at unsent
        simp only [lookup_concat_of_ne own] at unsent
        rw [others job own] at gone
        exact .inl ⟨⟨accepted ▸ known, leaves⟩, unsent, gone⟩
  · rintro (before | drops)
    · exact orderly.receipt?_step_of_resolved before (by simp) move
    · exact orderly.receipt?_of_drops drops

end Orderly

/-! ## In the course of a schedule -/

section

variable {value : β} (orderly : Orderly exec) (schedule : List (Move β))

include orderly

theorem receipt?_course_of_resolved {receipt : Receipt β}
    (h : exec.receipt? job = some receipt) (resolved : receipt ≠ .pending) :
    (exec.course schedule).receipt? job = some receipt := by
  induction schedule generalizing exec with
  | nil => exact h
  | cons move schedule ih =>
    exact ih (orderly.step move) (orderly.receipt?_step_of_resolved h resolved move)

theorem receipt?_course_value : (exec.course schedule).receipt? job = some (.value value) ↔
    exec.receipt? job = some (.value value) ∨ Happens (Yields job value) exec schedule := by
  induction schedule generalizing exec with
  | nil => simp [course, Happens]
  | cons move schedule ih =>
    calc ((exec.step move).course schedule).receipt? job = some (.value value)
        ↔ (exec.step move).receipt? job = some (.value value) ∨
            Happens (Yields job value) (exec.step move) schedule := ih (orderly.step move)
      _ ↔ _ := by rw [orderly.receipt?_step_value, or_assoc]; rfl

theorem receipt?_course_lost : (exec.course schedule).receipt? job = some .lost ↔
    exec.receipt? job = some .lost ∨ Happens (Drops job) exec schedule := by
  induction schedule generalizing exec with
  | nil => simp [course, Happens]
  | cons move schedule ih =>
    calc ((exec.step move).course schedule).receipt? job = some .lost
        ↔ (exec.step move).receipt? job = some .lost ∨
            Happens (Drops job) (exec.step move) schedule := ih (orderly.step move)
      _ ↔ _ := by rw [orderly.receipt?_step_lost, or_assoc]; rfl

end

/-- A task is there because its job has left it. -/
theorem returns_of_alive {move : Move β} (alive : job ∈ (exec.step move).worker.tasks) :
    job ∈ exec.worker.tasks ∨ Returns job exec move := by
  cases step_passage exec move with
  | passed holders drops tasks ends outputs accepted => exact tasks job alive
  | accepted new holders tasks living outputs accepted => exact .inl (tasks ▸ alive)
  | settled task output same ready here holders others tasks living outputs accepted =>
    exact .inl (tasks job alive)

/-- A task comes to its value after its job has left it. -/
theorem returns_of_yields {value : β} {schedule : List (Move β)}
    (h : Happens (Yields job value) exec schedule) :
    job ∈ exec.worker.tasks ∨ Happens (Returns job) exec schedule := by
  induction schedule generalizing exec with
  | nil => exact h.elim
  | cons move schedule ih =>
    rcases h with ⟨ready, alive⟩ | later
    · exact .inl alive
    · rcases ih later with alive | returned
      · exact (returns_of_alive alive).imp_right .inl
      · exact .inr (.inr returned)

/-! ## One submission and the others -/

/-- An executor without what depends on one submission: its task, the value of the task, and the
reports. -/
def without (exec : Executor β) (other : Job) : Executor β :=
  { exec with
    worker := { exec.worker with tasks := exec.worker.tasks.filter (· != other) }
    outputs := exec.outputs.filter (·.1 != other)
    notices := [] }

/-- From an executor on, two schedules differ only in what becomes of one submission: whether its
job breaks off, and whether and how its task comes to an end. -/
inductive Alike (other : Job) : Executor β → List (Move β) → List (Move β) → Prop
  | done {exec : Executor β} : Alike other exec [] []
  | same {exec : Executor β} (move : Move β) {schedule schedule' : List (Move β)}
      (rest : Alike other (exec.step move) schedule schedule') :
      Alike other exec (move :: schedule) (move :: schedule')
  | ends {exec : Executor β} (running : exec.worker.job? = some other) (breaks breaks' : Bool)
      {schedule schedule' : List (Move β)}
      (rest : Alike other (exec.step (.finish breaks)) schedule schedule') :
      Alike other exec (.finish breaks :: schedule) (.finish breaks' :: schedule')
  /-- The task comes to an end in the first of them. -/
  | settles {exec : Executor β} (output : Option β) {schedule schedule' : List (Move β)}
      (rest : Alike other (exec.step (.settle other output)) schedule schedule') :
      Alike other exec (.settle other output :: schedule) schedule'
  /-- The task comes to an end in the second of them. -/
  | settles' {exec : Executor β} (output : Option β) {schedule schedule' : List (Move β)}
      (rest : Alike other exec schedule schedule') :
      Alike other exec schedule (.settle other output :: schedule')

section

variable (exec) (other : Job)

theorem without_handOver (i : Nat) (invocation : Invocation) :
    ((exec.without other).handOver i invocation).without other =
      (exec.handOver i invocation).without other := by
  obtain ⟨⟨name, queue, stopping, phase, tasks⟩, _, _, _, _, _, _⟩ := exec
  unfold handOver
  cases invocation.stage with
  | checking second => cases stopping <;> simp [without, Worker.admits, reach, Worker.refusal]
  | sending second => cases phase <;> simp [without, Worker.accept, reach, Worker.refusal]
  | returned refusal => simp [without]

theorem without_finish (job : Job) (breaks : Bool) :
    ((exec.without other).finish job breaks).without other =
      (exec.finish job breaks).without other := by
  have finish : (exec.without other).worker.finish =
      { exec.worker.finish with tasks := exec.worker.finish.tasks.filter (· != other) } := by
    obtain ⟨⟨name, queue, stopping, phase, tasks⟩, _, _, _, _, _, _⟩ := exec
    cases phase <;> rfl
  simp only [Executor.finish, finish]
  by_cases broke : (breaks && !job.isMere) = true
  · simp [broke, without, List.filter_filter]
  · by_cases leaves : job.leavesTask = true
    · simp [broke, leaves, without, Worker.begin, List.filter_filter]
    · simp [broke, leaves, without, List.filter_filter]

/-- The end of the job makes no difference, whichever it is. -/
theorem without_finish_self (breaks : Bool) :
    (exec.finish other breaks).without other =
      { exec with
        worker := exec.worker.finish
        ended := exec.ended ++ [other] }.without other := by
  simp only [Executor.finish]
  by_cases broke : (breaks && !other.isMere) = true
  · simp [broke, without]
  · by_cases leaves : other.leavesTask = true
    · simp [broke, leaves, without, Worker.begin]
    · simp [broke, leaves]

/-- The end of the task makes none either. -/
theorem without_settle_self (output : Option β) :
    (exec.step (.settle other output)).without other = exec.without other := by
  simp only [step]
  split
  case isTrue => simp [without, Worker.settle, List.filter_filter, bne]
  case isFalse => rfl

/-- A move leads to the same but for one submission, whatever has become of that. -/
theorem without_step (move : Move β) :
    ((exec.without other).step move).without other = (exec.step move).without other := by
  have active (source : Source) : (exec.without other).isActive source = exec.isActive source := by
    cases source <;> rfl
  have free (source : Source) : (exec.without other).isFree source = exec.isFree source := rfl
  have idem : (exec.without other).without other = exec.without other := by
    simp [without, List.filter_filter]
  cases move with
  | invoke source way =>
    simp only [step, active, free]
    split
    · simp [without, List.filter_filter]
    · exact idem
  | proceed i =>
    simp only [step, show (exec.without other).invocations = exec.invocations from rfl]
    cases exec.invocations[i]? with
    | none => exact idem
    | some invocation => exact without_handOver exec other i invocation
  | look =>
    obtain ⟨⟨name, queue, stopping, phase, tasks⟩, _, _, _, _, _, _⟩ := exec
    cases phase with
    | ready => cases stopping <;> simp [step, without, Worker.look, List.filter_filter]
    | _ => exact idem
  | pick =>
    obtain ⟨⟨name, queue, stopping, phase, tasks⟩, _, _, _, _, _, _⟩ := exec
    cases phase with
    | picking =>
      cases queue <;> simp [step, without, Worker.job?, Worker.pick, List.filter_filter]
    | running job => exact idem
    | _ => simp [step, without, Worker.job?, Worker.pick, List.filter_filter]
  | finish breaks =>
    simp only [step, show (exec.without other).worker.job? = exec.worker.job? from rfl]
    cases exec.worker.job? with
    | none => exact idem
    | some job =>
      simp only [free]
      split
      · exact without_finish exec other job breaks
      · exact idem
  | settle task output =>
    by_cases own : task = other
    · subst own
      rw [without_settle_self, without_settle_self, idem]
    · have alive : task ∈ (exec.without other).worker.tasks ↔ task ∈ exec.worker.tasks := by
        simp [without, own]
      simp only [step, alive, show (exec.without other).worker.phase = exec.worker.phase from rfl]
      split
      · simp [without, Worker.settle, List.filter_filter, Bool.and_comm]
      · exact idem
  | stop source =>
    simp only [step, active]
    split
    · simp [without, Worker.stop, List.filter_filter]
    · exact idem

/-- What becomes of a submission is seen without any other. -/
theorem receipt?_without {job : Job} (hne : job ≠ other) :
    (exec.without other).receipt? job = exec.receipt? job := by
  have outputs : (exec.without other).outputs.lookup job = exec.outputs.lookup job := by
    simp only [without]
    induction exec.outputs with
    | nil => rfl
    | cons output outputs ih =>
      obtain ⟨task, value⟩ := output
      by_cases own : task = other
      · have elsewhere : (job == task) = false := by simpa [own] using hne
        rw [List.filter_cons_of_neg (by simp [own]), ih]
        simp only [List.lookup_cons, elsewhere]
      · rw [List.filter_cons_of_pos (by simp [own])]
        cases h : job == task <;> simp only [List.lookup_cons, h, ih]
  have tasks : (exec.worker.tasks.filter (· != other)).count job = exec.worker.tasks.count job :=
    List.count_filter (by simpa using hne)
  have holders : (exec.without other).worker.holders job = exec.worker.holders job := by
    simp only [Worker.holders, without, Worker.job?, tasks]
  simp only [receipt?, outputs, holders]
  rfl

end

/-- Two schedules that differ in what becomes of one submission lead to the same but for it. -/
theorem Alike.without {other : Job} {schedule schedule' : List (Move β)}
    (h : Alike other exec schedule schedule') (same : exec.without other = exec'.without other) :
    (exec.course schedule).without other = (exec'.course schedule').without other := by
  have follow {exec exec' : Executor β} (same : exec.without other = exec'.without other)
      (move : Move β) : (exec.step move).without other = (exec'.step move).without other := by
    rw [← without_step exec, same, without_step exec']
  induction h generalizing exec' with
  | done => exact same
  | same move rest ih => exact ih (follow same move)
  | ends running breaks breaks' rest ih =>
    refine ih (Eq.trans ?_ (follow same (.finish breaks')))
    simp only [step, running]
    split
    · exact (without_finish_self _ other breaks).trans (without_finish_self _ other breaks').symm
    · rfl
  | settles output rest ih => exact ih ((without_settle_self _ other output).trans same)
  | settles' output rest ih => exact ih (same.trans (without_settle_self _ other output).symm)

/-! ## All of it -/

/-- Results of submissions. Threads and jobs hand submissions to a worker in any order, jobs and
tasks break off or never come to an end, and the worker is told to stop at any moment. The receiver
of a submission that was accepted finds the value of its task exactly if its job has returned and
the task has come to that value on the thread; it finds that the submission is lost exactly if the
job or the task has broken off or the thread has ended while the one waited or the other was alive.
What it has found once it finds ever after, and as long as it has found nothing, one sender is held.
Once the thread has ended, every receiver finds a value or a loss. Whatever else becomes of another
submission, a receiver finds the same. -/
theorem submission_is_resolved (name : String) (schedule later : List (Move β)) (job : Job) :
    let exec : Executor β := (opened name).course schedule
    (∀ value, exec.receipt? job = some (.value value) ↔
      Happens (Returns job) (opened name) schedule ∧
        Happens (Yields job value) (opened name) schedule) ∧
    (exec.receipt? job = some .lost ↔ Happens (Drops job) (opened name) schedule) ∧
    (∀ receipt, exec.receipt? job = some receipt → receipt ≠ .pending →
      (exec.course later).receipt? job = some receipt) ∧
    (exec.receipt? job = some .pending → exec.worker.holders job = 1) ∧
    (exec.worker.phase = .exited → job ∈ exec.accepted → job.leavesTask = true →
      (∃ value, exec.receipt? job = some (.value value)) ∨ exec.receipt? job = some .lost) ∧
    ∀ (other : Job) (schedule' : List (Move β)), Alike other (opened name) schedule schedule' →
      job ≠ other → ((opened name).course schedule').receipt? job = exec.receipt? job := by
  intro exec
  have fresh : Orderly (opened name : Executor β) := orderly_opened name
  have orderly : Orderly exec := fresh.course schedule
  have unknown : (opened name : Executor β).receipt? job = none := by simp [receipt?, opened]
  refine ⟨fun value => ⟨fun found => ?_, fun both => ?_⟩, ?_, ?_, fun pending => ?_, ?_, ?_⟩
  · have yielded := (receipt?_course_value fresh schedule).mp found
    rw [unknown] at yielded
    have yielded := yielded.resolve_left (by simp)
    exact ⟨(returns_of_yields yielded).resolve_left (by simp [opened]), yielded⟩
  · exact (receipt?_course_value fresh schedule).mpr (.inr both.2)
  · rw [receipt?_course_lost fresh schedule, unknown]
    simp
  · exact fun receipt found resolved => receipt?_course_of_resolved orderly later found resolved
  · exact (orderly.of_held (receipt?_eq_pending.mp pending).2.2).2.1
  · intro exited known leaves
    have gone := orderly.kept.ended exited job
    by_cases sent : ∃ value, exec.outputs.lookup job = some (some value)
    · obtain ⟨value, sent⟩ := sent
      exact .inl ⟨value, receipt?_eq_value.mpr ⟨⟨known, leaves⟩, sent⟩⟩
    · exact .inr (receipt?_eq_lost.mpr
        ⟨⟨known, leaves⟩, fun value here => sent ⟨value, here⟩, gone⟩)
  · intro other schedule' alike hne
    rw [← receipt?_without _ other hne, ← alike.without rfl, receipt?_without _ other hne]

/-- Three submissions: the first job breaks off, the task of the second one comes to its value, and
the third one waits in the queue when the thread ends. -/
example :
    let job (i : Nat) : Job := ⟨i, .submit, false⟩
    let exec := (opened "shard" : Executor Nat).course
      [.invoke (.thread 0) .submit, .proceed 0, .proceed 0, .invoke (.thread 0) .submit,
        .proceed 1, .proceed 1, .look, .pick, .finish true, .look, .pick, .finish false,
        .settle (job 1) (some 7), .invoke (.thread 0) .submit, .proceed 2, .stop (.thread 1),
        .proceed 2, .look]
    [job 0, job 1, job 2].map exec.receipt? = [some .lost, some (.value 7), some .lost] := by
  decide

end Tenure.Executor
