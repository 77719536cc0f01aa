import Tenure.Proofs.Executor.Turns

/-!
# First come, first served

A worker starts the jobs in the order in which they were accepted, each at most once and one at
a time. A job that breaks off is done with like one that returns. Once the worker has been told
to stop, it starts at most the job that it was about to take, and whoever checks the flag from
then on is refused.

## Main definitions

* `Executor.Move.calm`, `Executor.bare` — a move and an executor, whatever breaks off
* `Executor.Halted` — no job will be started any more

## Main results

* `Executor.bare_course` — what breaks off makes no difference to the order of work
* `Executor.Halted.course`, `Executor.started_of_stopping` — what is started after the flag
* `Executor.refused_for_good` — what is refused does not run
* `Executor.first_come_first_served` — all of it
-/

namespace Tenure.Executor

open scoped List

variable {β : Type} {exec exec' : Executor β}

/-! ## Jobs that break off -/

/-- The same move, with nothing breaking off. -/
def Move.calm : Move β → Move β
  | finish _ => finish false
  | move => move

/-- An executor without what depends on whether jobs break off: the tasks that they leave behind,
and the reports. -/
def bare (exec : Executor β) : Executor β :=
  { exec with worker := { exec.worker with tasks := [] }, outputs := [], notices := [] }

@[simp] theorem Move.calm_calm (move : Move β) : move.calm.calm = move.calm := by
  cases move <;> rfl

theorem bare_handOver (exec : Executor β) (i : Nat) (invocation : Invocation) :
    (exec.bare.handOver i invocation).bare = (exec.handOver i invocation).bare := by
  obtain ⟨⟨name, queue, stopping, phase, tasks⟩, _, _, _, _, _, _⟩ := exec
  unfold handOver
  cases invocation.stage with
  | checking second => cases stopping <;> rfl
  | sending second => cases phase <;> rfl
  | returned refusal => rfl

theorem bare_finish (exec : Executor β) (job : Job) (breaks : Bool) :
    (exec.finish job breaks).bare =
      { exec with worker := exec.worker.finish, ended := exec.ended ++ [job] }.bare := by
  unfold Executor.finish
  dsimp only
  split
  · rfl
  · split <;> rfl

/-- A move leads to the same, whatever breaks off in it and whatever broke off before. -/
theorem bare_step (exec : Executor β) (move : Move β) :
    (exec.bare.step move.calm).bare = (exec.step move).bare := by
  have active (source : Source) : exec.bare.isActive source = exec.isActive source := by
    cases source <;> rfl
  have free (source : Source) : exec.bare.isFree source = exec.isFree source := rfl
  cases move with
  | invoke source way =>
    simp only [Move.calm, step, active, free]
    split <;> rfl
  | proceed i =>
    simp only [Move.calm, step]
    rw [show exec.bare.invocations = exec.invocations from rfl]
    cases exec.invocations[i]? with
    | none => rfl
    | some invocation => exact bare_handOver exec i invocation
  | look =>
    obtain ⟨⟨name, queue, stopping, phase, tasks⟩, _, _, _, _, _, _⟩ := exec
    cases phase with
    | ready => cases stopping <;> rfl
    | _ => rfl
  | pick =>
    obtain ⟨⟨name, queue, stopping, phase, tasks⟩, _, _, _, _, _, _⟩ := exec
    cases phase with
    | picking => cases queue <;> rfl
    | _ => rfl
  | finish breaks =>
    simp only [Move.calm, step]
    rw [show exec.bare.worker.job? = exec.worker.job? from rfl]
    cases here : exec.worker.job? with
    | none => rfl
    | some job =>
      simp only [free]
      split
      · rw [bare_finish, bare_finish]
        obtain ⟨⟨name, queue, stopping, phase, tasks⟩, _, _, _, _, _, _⟩ := exec
        cases phase <;> rfl
      · rfl
  | settle task output =>
    simp only [Move.calm, step]
    split <;> split <;> rfl
  | stop source =>
    simp only [Move.calm, step, active]
    split <;> rfl

/-- Whatever breaks off, the same jobs are accepted, started and ended in the same order. -/
theorem bare_course (h : exec.bare = exec'.bare) (schedule : List (Move β)) :
    (exec.course (schedule.map Move.calm)).bare = (exec'.course schedule).bare := by
  induction schedule generalizing exec exec' with
  | nil => exact h
  | cons move schedule ih =>
    apply ih
    calc (exec.step move.calm).bare
        = (exec.bare.step move.calm).bare := by rw [← bare_step exec, Move.calm_calm]
      _ = (exec'.bare.step move.calm).bare := by rw [h]
      _ = (exec'.step move).bare := bare_step exec' move

/-! ## After the flag -/

/-- The worker was told to stop and is not about to take a job: it will start none. -/
structure Halted (exec : Executor β) : Prop where
  stopping : exec.worker.stopping = true
  resting : exec.worker.phase ≠ .picking

theorem Halted.shift (halted : Halted exec) (h : Shift exec exec') :
    Halted exec' ∧ exec'.started = exec.started := by
  obtain ⟨stopping, resting⟩ := halted
  cases h with
  | cleared ready working => simp [stopping] at working
  | emptied picking | taken picking => exact absurd picking resting
  | exited | finished => exact ⟨⟨stopping, by simp⟩, rfl⟩
  | stopped => exact ⟨⟨rfl, resting⟩, rfl⟩
  | _ => exact ⟨⟨stopping, resting⟩, rfl⟩

/-- A worker that will start no more jobs starts none. -/
theorem Halted.course (halted : Halted exec) (schedule : List (Move β)) :
    (exec.course schedule).started = exec.started :=
  (course_of_shift (P := fun now => Halted now ∧ now.started = exec.started)
    (fun h kept => ⟨(kept.1.shift h).1, (kept.1.shift h).2.trans kept.2⟩) ⟨halted, rfl⟩ schedule).2

/-- Once the worker has been told to stop, it starts at most the job that it is about to take. -/
theorem started_of_stopping (stopping : exec.worker.stopping = true)
    (schedule : List (Move β)) :
    (exec.course schedule).started = exec.started ∨
      exec.worker.phase = .picking ∧
        ∃ job, (exec.course schedule).started = exec.started ++ [job] := by
  by_cases picking : exec.worker.phase = .picking
  · induction schedule generalizing exec with
    | nil => exact .inl rfl
    | cons move schedule ih =>
      have shift := step_shift exec move
      change ((exec.step move).course schedule).started = _ ∨ _ ∧
        ∃ job, ((exec.step move).course schedule).started = _
      generalize exec.step move = next at shift ⊢
      cases shift with
      | taken _ here =>
        refine .inr ⟨picking, _, Halted.course ?_ schedule⟩
        exact ⟨stopping, by simp⟩
      | emptied =>
        refine .inl (Halted.course ?_ schedule)
        exact ⟨stopping, by simp⟩
      | exited ready | cleared ready => simp [picking] at ready
      | finished _ _ running => simp [picking] at running
      | stopped => exact ih rfl picking
      | _ => exact ih stopping picking
  · exact .inl (Halted.course ⟨stopping, picking⟩ schedule)

/-- A job that tells its own worker to stop is the last one. -/
theorem started_of_stop_inside {job : Job} (running : exec.worker.job? = some job)
    (schedule : List (Move β)) :
    (exec.course (.stop (.job job) :: schedule)).started = exec.started := by
  have stop : exec.step (.stop (.job job)) = { exec with worker := exec.worker.stop } := by
    simp [step, isActive, running]
  have halted : Halted { exec with worker := exec.worker.stop } :=
    ⟨rfl, by simp [Worker.stop, Worker.job?_eq_some.mp running]⟩
  calc (exec.course (.stop (.job job) :: schedule)).started
      = (({ exec with worker := exec.worker.stop } : Executor β).course schedule).started := by
        rw [← stop]; rfl
    _ = exec.started := halted.course schedule

/-! ## Refusals -/

/-- An invocation that has returned stays as it is and hands nothing over any more. -/
theorem Shift.of_isOver (h : Shift exec exec') {i : Nat} {invocation : Invocation}
    (here : exec.invocations[i]? = some invocation) (isOver : invocation.stage.isOver = true) :
    exec'.invocations[i]? = some invocation ∧
      ∀ job ∈ exec'.accepted, job.invocation = i → job ∈ exec.accepted := by
  refine ⟨?_, fun job mem from_here => ?_⟩
  · obtain ⟨stage, there, rfl | precedes⟩ := h.invocation here
    · exact there
    · rw [precedes.underway] at isOver
      cases isOver
  · rcases h.accepted_cases with same | ⟨j, other, second, there, sending, more, -⟩
    · rwa [← same]
    · rw [more, List.mem_append, List.mem_singleton] at mem
      rcases mem with mem | rfl
      · exact mem
      · obtain rfl : j = i := from_here
        obtain rfl : invocation = other := by simpa [here] using there
        rw [sending] at isOver
        cases isOver

/-- An invocation was refused, and nothing was accepted from it since. -/
def Rejects (exec : Executor β) (i : Nat) (invocation : Invocation) (now : Executor β) : Prop :=
  now.invocations[i]? = some { invocation with stage := .returned (some exec.worker.refusal) } ∧
    ∀ job ∈ now.accepted, job.invocation = i → job ∈ exec.accepted

/-- A check after the flag refuses the job for good. -/
theorem refused_for_good (sound : Sound exec) (stopping : exec.worker.stopping = true) {i : Nat}
    {invocation : Invocation} {second : Bool} (here : exec.invocations[i]? = some invocation)
    (checking : invocation.stage = .checking second) (schedule : List (Move β)) :
    (exec.course (.proceed i :: schedule)).invocations[i]? =
        some { invocation with stage := .returned (some exec.worker.refusal) } ∧
      ⟨i, invocation.way, second⟩ ∉ (exec.course (.proceed i :: schedule)).accepted := by
  have refused : exec.step (.proceed i) =
      exec.reach i invocation (.returned exec.worker.refusal) := by
    simp [step, here, handOver, checking, Worker.admits, stopping]
  have once : exec.Rejects i invocation (exec.step (.proceed i)) := by
    obtain ⟨lt, -⟩ := List.getElem?_eq_some_iff.mp here
    rw [refused]
    exact ⟨by simp [reach, lt], fun job mem _ => mem⟩
  have kept : exec.Rejects i invocation (exec.course (.proceed i :: schedule)) :=
    course_of_shift (fun h kept => ⟨(h.of_isOver kept.1 rfl).1, fun job mem from_here =>
      kept.2 job ((h.of_isOver kept.1 rfl).2 job mem from_here) from_here⟩) once schedule
  refine ⟨kept.1, fun mem => ?_⟩
  -- the job was not accepted before its check
  obtain ⟨invocation', here', past⟩ := sound.handed _ (kept.2 _ mem rfl)
  obtain rfl : invocation = invocation' := by simpa [here] using here'
  rw [checking] at past
  cases second <;> simp [Stage.isPast] at past

/-! ## The order of invocations -/

/-- What was accepted stays accepted, in its place. -/
theorem accepted_grows (exec : Executor β) (schedule : List (Move β)) :
    exec.accepted <+: (exec.course schedule).accepted := by
  refine course_of_shift (P := fun now => exec.accepted <+: now.accepted)
    (fun h kept => kept.trans ?_) (List.prefix_refl _) schedule
  rcases h.accepted_cases with same | ⟨_, _, _, -, -, more, -⟩
  · simp [same]
  · rw [more]
    exact List.prefix_append _ _

/-- What was accepted before an invocation was begun is started before what the invocation hands
over. -/
theorem started_before (sound : Sound exec) {schedule : List (Move β)}
    (line : Line (exec.course schedule)) {first second : Job} (accepted : first ∈ exec.accepted)
    (later : exec.invocations.length ≤ second.invocation)
    (started : second ∈ (exec.course schedule).started) :
    [first, second] <+ (exec.course schedule).started := by
  have fresh : second ∉ exec.accepted := by
    intro mem
    obtain ⟨_, here, -⟩ := sound.handed second mem
    obtain ⟨lt, -⟩ := List.getElem?_eq_some_iff.mp here
    omega
  have ahead : exec.accepted <+: (exec.course schedule).started := by
    rcases List.prefix_or_prefix_of_prefix (accepted_grows exec schedule)
      ((List.prefix_append _ _).trans line.before) with ahead | behind
    · exact ahead
    · exact absurd (behind.subset started) fresh
  obtain ⟨rest, split⟩ := ahead
  rw [← split] at started ⊢
  have mem : second ∈ rest := (List.mem_append.mp started).resolve_left fresh
  exact (List.singleton_sublist.mpr accepted).append (List.singleton_sublist.mpr mem)

/-- The name of a worker stays the same. -/
theorem name_course (name : String) (schedule : List (Move β)) :
    ((opened name : Executor β).course schedule).worker.name = name := by
  refine course_of_shift (P := fun now => now.worker.name = name) (fun h same => ?_) rfl schedule
  rw [← same]
  cases h <;> rfl

/-- The order of work. Threads and running jobs hand work to a worker in any order, jobs break
off, and the worker is told to stop at any moment. Jobs are started in the order in which they
were accepted, each at most once and one at a time; a job that breaks off makes no difference to
the others. Once the worker has been told to stop it starts at most the job that it is about to
take, and none if a job has told it. A check that comes later refuses its job for good. A worker
that nobody has told to stop has done all that was accepted whenever nothing waits and nothing
runs. Invocations that come one after the other, such as those of asynchronous calls by one
thread, have their jobs started in this order. -/
theorem first_come_first_served (name : String) (schedule later : List (Move β)) :
    let exec : Executor β := (opened name).course schedule
    let final := exec.course later
    (exec.started <+: exec.accepted ∧ exec.started.Nodup) ∧
    exec.started = exec.ended ++ exec.worker.job?.toList ∧
    (∀ other : List (Move β), other.map Move.calm = schedule.map Move.calm →
      ((opened name).course other).bare = exec.bare) ∧
    (exec.worker.stopping = true →
      final.started = exec.started ∨
        exec.worker.phase = .picking ∧ ∃ job, final.started = exec.started ++ [job]) ∧
    (∀ job, exec.worker.job? = some job →
      (exec.course (.stop (.job job) :: later)).started = exec.started) ∧
    (∀ i invocation second, exec.worker.stopping = true →
      exec.invocations[i]? = some invocation → invocation.stage = .checking second →
      let refused := exec.course (.proceed i :: later)
      refused.invocations[i]? =
          some { invocation with stage := .returned (some (.shutDown name)) } ∧
        ⟨i, invocation.way, second⟩ ∉ refused.accepted ∧
        ⟨i, invocation.way, second⟩ ∉ refused.started) ∧
    (exec.worker.stopping = false → exec.worker.queue = [] → exec.worker.job? = none →
      exec.ended = exec.accepted) ∧
    (∀ first ∈ exec.accepted, ∀ second ∈ final.started,
      exec.invocations.length ≤ second.invocation → [first, second] <+ final.started) ∧
    exec.started.Pairwise fun first second =>
      exec.source? first = exec.source? second → first.invocation ≤ second.invocation := by
  intro exec final
  have sound : Sound exec := sound_course name schedule
  have line (schedule : List (Move β)) : Line (exec.course schedule) :=
    (course_of_shift (fun h sound => sound.shift h) sound schedule).line
  have started (schedule : List (Move β)) :
      (exec.course schedule).started <+: (exec.course schedule).accepted :=
    (List.prefix_append _ _).trans (line schedule).before
  have turn := sound.line.turn
  refine ⟨⟨started [], sound.once.sublist (started []).sublist⟩, turn, ?_, ?_, ?_, ?_, ?_, ?_, ?_⟩
  · intro other same
    have calm : ((opened name).course (other.map Move.calm)).bare =
        ((opened name).course other).bare := bare_course rfl other
    rw [same] at calm
    exact calm.symm.trans (bare_course rfl schedule)
  · exact fun stopping => started_of_stopping stopping later
  · exact fun job running => started_of_stop_inside running later
  · intro i invocation second stopping here checking refused
    obtain ⟨there, absent⟩ := refused_for_good sound stopping here checking later
    refine ⟨?_, absent, fun mem => absent ((started _).subset mem)⟩
    rw [there, Worker.refusal, name_course name schedule]
  · intro working empty idle
    have alive : exec.worker.phase ≠ .exited := by
      intro exited
      simp [sound.line.told exited] at working
    have whole := sound.line.whole alive
    rw [turn, empty, idle] at whole
    simpa using whole.symm
  · exact fun first accepted second started later =>
      started_before sound (line _) accepted later started
  · exact sound.serial.ordered.sublist (started []).sublist

/-- A job queues another one and breaks off; the worker is told to stop just before it takes the
second job, which it still does. -/
example :
    let first : Job := ⟨0, .execute, false⟩
    ((opened "shard" : Executor Unit).course
      [.invoke (.thread 0) .execute, .proceed 0, .proceed 0, .look, .pick,
        .invoke (.job first) .submit, .proceed 1, .proceed 1, .finish true,
        .look, .stop (.thread 1), .pick]).started = [first, ⟨1, .submit, false⟩] := by
  decide

end Tenure.Executor
