import Mathlib.Tactic.ByContra
import Tenure.Executor.SingleThread

/-!
# What an executor keeps

The jobs of a worker stand in one line from the moment they are accepted: those that came to
their end, the one that runs, those that wait. Only the end of the thread breaks the line off.
Every move keeps this, and no job stands in the line twice, because an invocation hands each of
its jobs over once.

## Main definitions

* `Executor.Shift` — what a move can do
* `Executor.Sound` — the line, and where the jobs in it come from

## Main results

* `Executor.step_shift` — every move is a shift
* `Executor.sound_course` — an executor is sound after every schedule
-/

namespace Tenure.Executor

variable {β : Type} {exec exec' : Executor β}

/-- What a move can do. -/
inductive Shift : Executor β → Executor β → Prop
  | idle {exec : Executor β} : Shift exec exec
  | invoked {exec : Executor β} {source : Source} (way : Way)
      (free : exec.isFree source = true) :
      Shift exec { exec with invocations := exec.invocations ++ [{ source, way }] }
  | admitted {exec : Executor β} {i : Nat} {invocation : Invocation} {second : Bool}
      (here : exec.invocations[i]? = some invocation)
      (checking : invocation.stage = .checking second)
      (working : exec.worker.stopping = false) :
      Shift exec (exec.reach i invocation (.sending second))
  | refused {exec : Executor β} {i : Nat} {invocation : Invocation}
      (here : exec.invocations[i]? = some invocation)
      (underway : invocation.stage.isOver = false) :
      Shift exec (exec.reach i invocation (.returned exec.worker.refusal))
  | accepted {exec : Executor β} {i : Nat} {invocation : Invocation} {second : Bool}
      (here : exec.invocations[i]? = some invocation)
      (sending : invocation.stage = .sending second)
      (alive : exec.worker.phase ≠ .exited) :
      Shift exec
        ({ exec with
            worker := { exec.worker with
              queue := exec.worker.queue ++ [Job.mk i invocation.way second] }
            accepted := exec.accepted ++ [Job.mk i invocation.way second] }.reach i invocation
          (invocation.accepted second))
  | exited {exec : Executor β} (ready : exec.worker.phase = .ready)
      (stopping : exec.worker.stopping = true) :
      Shift exec
        { exec with worker := { exec.worker with phase := .exited, queue := [], tasks := [] } }
  | cleared {exec : Executor β} (ready : exec.worker.phase = .ready)
      (working : exec.worker.stopping = false) :
      Shift exec { exec with worker := { exec.worker with phase := .picking } }
  | emptied {exec : Executor β} (picking : exec.worker.phase = .picking)
      (empty : exec.worker.queue = []) :
      Shift exec { exec with worker := { exec.worker with phase := .ready } }
  | taken {exec : Executor β} {job : Job} {queue : List Job}
      (picking : exec.worker.phase = .picking) (next : exec.worker.queue = job :: queue) :
      Shift exec
        { exec with
          worker := { exec.worker with phase := .running job, queue }
          started := exec.started ++ [job] }
  | finished {exec : Executor β} {job : Job} (tasks : List Job) (notices : List Notice)
      (running : exec.worker.phase = .running job) :
      Shift exec
        { exec with
          worker := { exec.worker with phase := .ready, tasks }
          ended := exec.ended ++ [job]
          notices }
  | settled {exec : Executor β} (tasks : List Job) (outputs : List (Job × Option β)) :
      Shift exec { exec with worker := { exec.worker with tasks }, outputs }
  | stopped {exec : Executor β} : Shift exec { exec with worker := exec.worker.stop }

private theorem handOver_shift {i : Nat} {invocation : Invocation}
    (here : exec.invocations[i]? = some invocation) :
    Shift exec (exec.handOver i invocation) := by
  cases h : invocation.stage with
  | checking second =>
    simp only [handOver, h]
    cases working : exec.worker.stopping with
    | false =>
      rw [if_pos (by simp [Worker.admits, working])]
      exact .admitted here h working
    | true =>
      rw [if_neg (by simp [Worker.admits, working])]
      exact .refused here (by rw [h]; rfl)
  | sending second =>
    cases taken : exec.worker.accept (Job.mk i invocation.way second) with
    | none =>
      simp only [handOver, h, taken]
      exact .refused here (by rw [h]; rfl)
    | some worker =>
      obtain ⟨alive, rfl⟩ := Worker.accept_eq_some.mp taken
      simp only [handOver, h, taken]
      exact .accepted here h alive
  | returned refusal =>
    simp only [handOver, h]
    exact .idle

private theorem finish_shift {job : Job} (running : exec.worker.phase = .running job)
    (breaks : Bool) : Shift exec (exec.finish job breaks) := by
  have finish : exec.worker.finish = { exec.worker with phase := .ready } := by
    simp only [Worker.finish, running]
  simp only [Executor.finish, finish]
  split
  · exact .finished _ _ running
  · split
    · exact .finished _ _ running
    · exact .finished _ _ running

/-- Every move is a shift. -/
theorem step_shift (exec : Executor β) (move : Move β) : Shift exec (exec.step move) := by
  cases move with
  | invoke source way =>
    simp only [step]
    split
    case isTrue h =>
      simp only [Bool.and_eq_true] at h
      exact .invoked way h.2
    case isFalse => exact .idle
  | proceed i =>
    cases here : exec.invocations[i]? with
    | none =>
      simp only [step, here]
      exact .idle
    | some invocation =>
      simp only [step, here]
      exact handOver_shift here
  | look =>
    cases phase : exec.worker.phase with
    | ready =>
      cases stopping : exec.worker.stopping with
      | false =>
        simp only [step, Worker.look, phase]
        rw [if_neg (by simp [stopping])]
        exact .cleared phase stopping
      | true =>
        simp only [step, Worker.look, phase]
        rw [if_pos stopping]
        exact .exited phase stopping
    | picking | running | exited =>
      simp only [step, Worker.look, phase]
      exact .idle
  | pick =>
    cases phase : exec.worker.phase with
    | picking =>
      cases queue : exec.worker.queue with
      | nil =>
        have pick : exec.worker.pick = { exec.worker with phase := .ready } := by
          simp only [Worker.pick, phase, queue]
        simp only [step, pick, Worker.job?, phase, Option.toList_none, List.append_nil]
        exact .emptied phase queue
      | cons job rest =>
        simp only [step, Worker.job?, Worker.pick, phase, queue, Option.toList_some]
        exact .taken phase queue
    | ready | exited =>
      simp only [step, Worker.job?, Worker.pick, phase, Option.toList_none, List.append_nil]
      exact .idle
    | running job =>
      simp only [step, Worker.job?, phase]
      exact .idle
  | finish breaks =>
    cases here : exec.worker.job? with
    | none =>
      simp only [step, here]
      exact .idle
    | some job =>
      simp only [step, here]
      split
      · exact finish_shift (Worker.job?_eq_some.mp here) breaks
      · exact .idle
  | settle task output =>
    simp only [step]
    split
    · exact .settled _ _
    · exact .idle
  | stop source =>
    simp only [step]
    split
    · exact .stopped
    · exact .idle

/-- What every shift keeps is kept by every schedule. -/
theorem course_of_shift {P : Executor β → Prop}
    (shift : ∀ {exec exec' : Executor β}, Shift exec exec' → P exec → P exec')
    (h : P exec) (schedule : List (Move β)) : P (exec.course schedule) := by
  induction schedule generalizing exec with
  | nil => exact h
  | cons move schedule ih => exact ih (shift (step_shift exec move) h)

/-! ## Where an invocation stands -/

/-- Whether an invocation has gone past the hand-over of its first or second job. -/
def Stage.isPast : Stage → Bool → Bool
  | checking second, job | sending second, job => second && !job
  | returned _, _ => true

/-- What a stage can turn into: the invocation has not returned, and does not come back to a
hand-over that it has gone past. -/
structure Stage.Precedes (stage next : Stage) : Prop where
  underway : stage.isOver = false
  past : ∀ second, stage.isPast second = true → next.isPast second = true

theorem Invocation.isPast_accepted (invocation : Invocation) (second : Bool) :
    (invocation.accepted second).isPast second = true := by
  unfold accepted
  cases second with
  | false => split <;> rfl
  | true => simp [Stage.isPast]

theorem Invocation.precedes_accepted {invocation : Invocation} {second : Bool}
    (sending : invocation.stage = .sending second) :
    invocation.stage.Precedes (invocation.accepted second) where
  underway := by rw [sending]; rfl
  past first h := by
    rw [sending] at h
    obtain ⟨rfl, rfl⟩ : second = true ∧ first = false := by simpa [Stage.isPast] using h
    simp [accepted, Stage.isPast]

/-- A step of one invocation leaves the others as they are. -/
theorem invocation_reach {i j : Nat} {invocation other : Invocation} {stage : Stage}
    (here : exec.invocations[i]? = some invocation) (there : exec.invocations[j]? = some other)
    (precedes : other.stage.Precedes stage) :
    ∃ now, (exec.reach j other stage).invocations[i]? = some { invocation with stage := now } ∧
      (now = invocation.stage ∨ invocation.stage.Precedes now) := by
  by_cases hij : j = i
  · subst hij
    obtain rfl : invocation = other := by simpa [here] using there
    obtain ⟨lt, -⟩ := List.getElem?_eq_some_iff.mp here
    exact ⟨stage, by simp [reach, lt], .inr precedes⟩
  · exact ⟨invocation.stage, by rw [reach, List.getElem?_set_ne hij, here], .inl rfl⟩

/-- An invocation stays where it is or goes on. -/
theorem Shift.invocation (h : Shift exec exec') {i : Nat} {invocation : Invocation}
    (here : exec.invocations[i]? = some invocation) :
    ∃ stage, exec'.invocations[i]? = some { invocation with stage } ∧
      (stage = invocation.stage ∨ invocation.stage.Precedes stage) := by
  cases h with
  | invoked way free =>
    obtain ⟨lt, -⟩ := List.getElem?_eq_some_iff.mp here
    exact ⟨invocation.stage, by simp [List.getElem?_append_left lt, here], .inl rfl⟩
  | admitted there checking =>
    refine invocation_reach here there ⟨?_, fun second past => ?_⟩
    · rw [checking]
      rfl
    · rwa [checking] at past
  | refused there underway => exact invocation_reach here there ⟨underway, fun _ _ => rfl⟩
  | accepted there sending =>
    obtain ⟨now, reached, goes⟩ :=
      invocation_reach here there (Invocation.precedes_accepted sending)
    exact ⟨now, reached, goes⟩
  | _ => exact ⟨invocation.stage, here, .inl rfl⟩

/-- An invocation was there before, or somebody who was free has just begun it. -/
theorem Shift.invocation_or (h : Shift exec exec') {i : Nat} {now : Invocation}
    (there : exec'.invocations[i]? = some now) :
    (∃ invocation, exec.invocations[i]? = some invocation ∧ invocation.source = now.source) ∨
      (i = exec.invocations.length ∧ exec.isFree now.source = true) := by
  cases known : exec.invocations[i]? with
  | some invocation =>
    obtain ⟨stage, here, -⟩ := h.invocation known
    obtain rfl : { invocation with stage } = now := by simpa [here] using there
    exact .inl ⟨invocation, rfl, rfl⟩
  | none =>
    have absent := List.getElem?_eq_none_iff.mp known
    obtain ⟨present, -⟩ := List.getElem?_eq_some_iff.mp there
    cases h with
    | invoked way free =>
      rw [List.length_append, List.length_singleton] at present
      obtain rfl : i = exec.invocations.length := by omega
      obtain rfl : _ = now := by simpa using there
      exact .inr ⟨rfl, free⟩
    | admitted | refused | accepted =>
      simp only [reach, List.length_set] at present
      omega
    | _ => exact absurd present (Nat.not_lt.mpr absent)

/-! ## The line -/

/-- The jobs that have been started and those that wait stand in the order in which they were
accepted, and nothing that was accepted is missing before the thread has ended. -/
structure Line (exec : Executor β) : Prop where
  before : exec.started ++ exec.worker.queue <+: exec.accepted
  whole : exec.worker.phase ≠ .exited → exec.accepted = exec.started ++ exec.worker.queue
  /-- The thread ends only because it was told to. -/
  told : exec.worker.phase = .exited → exec.worker.stopping = true
  /-- One job runs at a time. -/
  turn : exec.started = exec.ended ++ exec.worker.job?.toList

theorem Line.shift (line : Line exec) (h : Shift exec exec') : Line exec' := by
  obtain ⟨before, whole, told, turn⟩ := line
  cases h with
  | accepted here sending alive =>
    have whole := whole alive
    exact ⟨by simp [reach, whole], fun _ => by simp [reach, whole], told, turn⟩
  | exited ready stopping =>
    have whole := whole (by simp [ready])
    exact ⟨by simp [whole], fun alive => absurd rfl alive, fun _ => stopping,
      by simpa [Worker.job?, ready] using turn⟩
  | cleared ready working =>
    have whole := whole (by simp [ready])
    exact ⟨before, fun _ => whole, nofun, by simpa [Worker.job?, ready] using turn⟩
  | emptied picking empty =>
    have whole := whole (by simp [picking])
    exact ⟨before, fun _ => whole, nofun, by simpa [Worker.job?, picking] using turn⟩
  | taken picking next =>
    have whole := whole (by simp [picking])
    exact ⟨by simp [whole, next], fun _ => by simp [whole, next], nofun,
      by simpa [Worker.job?, picking] using turn⟩
  | finished tasks notices running =>
    have whole := whole (by simp [running])
    exact ⟨before, fun _ => whole, nofun, by simpa [Worker.job?, running] using turn⟩
  | stopped => exact ⟨before, whole, fun _ => rfl, turn⟩
  | _ => exact ⟨before, whole, told, turn⟩

/-- Every job that was accepted comes from an invocation that has handed it over. -/
def Handed (exec : Executor β) : Prop :=
  ∀ job ∈ exec.accepted, ∃ invocation, exec.invocations[job.invocation]? = some invocation ∧
    invocation.stage.isPast job.second = true

theorem Shift.accepted_cases (h : Shift exec exec') :
    exec'.accepted = exec.accepted ∨
      ∃ i invocation second, exec.invocations[i]? = some invocation ∧
        invocation.stage = .sending second ∧
        exec'.accepted = exec.accepted ++ [⟨i, invocation.way, second⟩] ∧
        exec'.invocations[i]? = some { invocation with stage := invocation.accepted second } := by
  cases h with
  | accepted here sending alive =>
    obtain ⟨lt, -⟩ := List.getElem?_eq_some_iff.mp here
    exact .inr ⟨_, _, _, here, sending, rfl, by simp [reach, lt]⟩
  | _ => exact .inl rfl

theorem Handed.shift (handed : Handed exec) (h : Shift exec exec') : Handed exec' := by
  intro job mem
  have stays : job ∈ exec.accepted → ∃ invocation,
      exec'.invocations[job.invocation]? = some invocation ∧
        invocation.stage.isPast job.second = true := by
    intro mem
    obtain ⟨invocation, here, past⟩ := handed job mem
    obtain ⟨stage, there, rfl | precedes⟩ := h.invocation here
    · exact ⟨_, there, past⟩
    · exact ⟨_, there, precedes.past _ past⟩
  rcases h.accepted_cases with same | ⟨i, invocation, second, -, -, more, there⟩
  · exact stays (same ▸ mem)
  · rw [more, List.mem_append, List.mem_singleton] at mem
    rcases mem with mem | rfl
    · exact stays mem
    · exact ⟨_, there, invocation.isPast_accepted second⟩

/-- No job is accepted twice. -/
theorem Shift.nodup_accepted (h : Shift exec exec') (handed : Handed exec)
    (nodup : exec.accepted.Nodup) : exec'.accepted.Nodup := by
  rcases h.accepted_cases with same | ⟨i, invocation, second, here, sending, more, -⟩
  · rwa [same]
  · rw [more]
    refine List.nodup_append.mpr ⟨nodup, by simp, ?_⟩
    rintro job mem _ hb rfl
    obtain rfl := List.mem_singleton.mp hb
    -- an invocation that is about to hand a job over has not gone past that hand-over
    obtain ⟨invocation', here', past⟩ := handed _ mem
    obtain rfl : invocation = invocation' := by simpa [here] using here'
    rw [sending] at past
    cases second <;> simp [Stage.isPast] at past

/-- Who has handed a job over. -/
def source? (exec : Executor β) (job : Job) : Option Source :=
  (exec.invocations[job.invocation]?).map (·.source)

/-- Whoever hands work over does one thing after the other. -/
structure Serial (exec : Executor β) : Prop where
  /-- Before somebody begins an invocation, all their earlier ones have returned. -/
  past : ∀ (i j : Nat) (first second : Invocation), i < j → exec.invocations[i]? = some first →
    exec.invocations[j]? = some second → first.source = second.source →
    first.stage.isOver = true
  /-- The jobs that come from one source are accepted in the order of their invocations. -/
  ordered : exec.accepted.Pairwise fun first second =>
    exec.source? first = exec.source? second → first.invocation ≤ second.invocation

theorem isOver_of_isFree {source : Source} (free : exec.isFree source = true) {i : Nat}
    {invocation : Invocation} (here : exec.invocations[i]? = some invocation)
    (same : invocation.source = source) : invocation.stage.isOver = true := by
  have := List.all_eq_true.mp free invocation (List.mem_of_getElem? here)
  simpa [same] using this

theorem Shift.source? (h : Shift exec exec') {job : Job} {source : Source}
    (known : exec.source? job = some source) : exec'.source? job = some source := by
  obtain ⟨invocation, here, rfl⟩ := Option.map_eq_some_iff.mp known
  obtain ⟨stage, there, -⟩ := h.invocation here
  simp [Executor.source?, there]

theorem Handed.source? (handed : Handed exec) {job : Job} (mem : job ∈ exec.accepted) :
    ∃ source, exec.source? job = some source := by
  obtain ⟨invocation, here, -⟩ := handed job mem
  exact ⟨invocation.source, by simp [Executor.source?, here]⟩

theorem Serial.shift (serial : Serial exec) (handed : Handed exec) (h : Shift exec exec') :
    Serial exec' where
  past i j first second lt here there same := by
    -- the earlier of the two is not the one that has just been begun
    obtain ⟨first', here', source⟩ : ∃ invocation, exec.invocations[i]? = some invocation ∧
        invocation.source = first.source := by
      rcases h.invocation_or here with known | ⟨rfl, -⟩
      · exact known
      · rcases h.invocation_or there with ⟨_, there', -⟩ | ⟨rfl, -⟩
        · obtain ⟨present, -⟩ := List.getElem?_eq_some_iff.mp there'
          omega
        · omega
    have isOver : first'.stage.isOver = true := by
      rcases h.invocation_or there with ⟨second', there', source'⟩ | ⟨-, free⟩
      · exact serial.past i j first' second' lt here' there' (by rw [source, source', same])
      · exact isOver_of_isFree free here' (by rw [source, same])
    obtain ⟨stage, now, stays | precedes⟩ := h.invocation here'
    · obtain rfl : { first' with stage } = first := by simpa [now] using here
      rwa [stays]
    · rw [precedes.underway] at isOver
      cases isOver
  ordered := by
    have known : ∀ job ∈ exec.accepted, exec'.source? job = exec.source? job := by
      intro job mem
      obtain ⟨source, known⟩ := handed.source? mem
      rw [known, h.source? known]
    have before : exec.accepted.Pairwise fun first second =>
        exec'.source? first = exec'.source? second → first.invocation ≤ second.invocation :=
      serial.ordered.imp_of_mem fun hf hs ordered same =>
        ordered (by rw [← known _ hf, ← known _ hs, same])
    rcases h.accepted_cases with same | ⟨i, invocation, second, here, sending, more, there⟩
    · rwa [same]
    · rw [more]
      refine List.pairwise_append.mpr ⟨before, List.pairwise_singleton _ _, ?_⟩
      rintro job mem _ hb same
      obtain rfl := List.mem_singleton.mp hb
      -- a later invocation of the same source would not have been begun yet
      obtain ⟨later, there', -⟩ := handed job mem
      rw [known job mem] at same
      by_contra gt
      have isOver := serial.past i job.invocation invocation later (Nat.lt_of_not_le gt) here there'
        (by simpa [source?, there, there'] using same.symm)
      rw [sending] at isOver
      cases isOver

/-! ## Every schedule -/

/-- The laws of an executor. -/
structure Sound (exec : Executor β) : Prop where
  line : Line exec
  handed : Handed exec
  once : exec.accepted.Nodup
  serial : Serial exec

theorem Sound.shift (sound : Sound exec) (h : Shift exec exec') : Sound exec' where
  line := sound.line.shift h
  handed := sound.handed.shift h
  once := h.nodup_accepted sound.handed sound.once
  serial := sound.serial.shift sound.handed h

theorem sound_opened (name : String) : Sound (opened name : Executor β) where
  line := ⟨List.prefix_refl [], fun _ => rfl, nofun, rfl⟩
  handed := fun _ mem => absurd mem List.not_mem_nil
  once := List.nodup_nil
  serial := ⟨by simp [opened], List.Pairwise.nil⟩

/-- An executor is sound after every schedule. -/
theorem sound_course (name : String) (schedule : List (Move β)) :
    Sound ((opened name).course schedule) :=
  course_of_shift (fun h sound => sound.shift h) (sound_opened name) schedule

end Tenure.Executor
