import Tenure.Executor.Joinable
import Tenure.Proofs.Executor.Receipts
import Tenure.Proofs.Tally

/-!
# Waiting for the end of a worker

The handle of a worker's thread lies in its place, or one of those who close the executor has it and
waits, or it was given up after the end of the thread. So one who closes the executor from outside
and finds the handle gone knows only that the thread has ended or that somebody else waits for its
end. This is less than what those who close an executor want: the thread may go on with its job
after they have returned.

## Main definitions

* `JoinableExecutor.Turn` — what a move can do
* `JoinableExecutor.keepers`, `JoinableExecutor.Guarded` — where the handle is, and what is known at
  each stage

## Main results

* `JoinableExecutor.step_turn` — every move is a turn
* `JoinableExecutor.guarded_course` — an executor is guarded after every schedule
* `JoinableExecutor.returned_after_the_end_or_another_waits` — what closing an executor comes to
* `JoinableExecutor.returned_while_a_job_runs` — and what it does not come to
-/

namespace Tenure

/-! ## The end of a thread -/

theorem Worker.hasExited_iff {ι κ : Type} {worker : Worker ι κ} :
    worker.hasExited = true ↔ worker.phase = .exited := by
  unfold hasExited
  cases worker.phase <;> simp

namespace Executor

variable {β : Type} {exec exec' : Executor β}

/-- A worker that was told to stop remembers it. -/
theorem Shift.stopping (h : Shift exec exec') (told : exec.worker.stopping = true) :
    exec'.worker.stopping = true := by
  cases h with
  | stopped => rfl
  | _ => exact told

/-- After the end of the thread nothing is accepted or started. -/
theorem Shift.of_exited (h : Shift exec exec') (exited : exec.worker.phase = .exited) :
    exec'.worker.phase = .exited ∧ exec'.started = exec.started ∧
      exec'.accepted = exec.accepted := by
  cases h with
  | accepted _ _ alive => exact absurd exited alive
  | exited ready | cleared ready => simp [exited] at ready
  | emptied picking | taken picking => simp [exited] at picking
  | finished _ _ running => simp [exited] at running
  | _ => exact ⟨exited, rfl, rfl⟩

theorem course_of_exited (exited : exec.worker.phase = .exited) (schedule : List (Move β)) :
    (exec.course schedule).worker.phase = .exited ∧
      (exec.course schedule).started = exec.started ∧
      (exec.course schedule).accepted = exec.accepted :=
  course_of_shift (P := fun now => now.worker.phase = .exited ∧ now.started = exec.started ∧
      now.accepted = exec.accepted)
    (fun h ⟨exited, started, accepted⟩ =>
      have ⟨exited', started', accepted'⟩ := h.of_exited exited
      ⟨exited', started'.trans started, accepted'.trans accepted⟩)
    ⟨exited, rfl, rfl⟩ schedule

/-- A thread that has ended has nothing left. -/
theorem Kept.spent (kept : Kept exec) (exited : exec.worker.phase = .exited) :
    exec.worker.job? = none ∧ exec.worker.queue = [] ∧ exec.worker.tasks = [] := by
  have none (job : Job) : job ∉ exec.worker.queue ∧ job ∉ exec.worker.tasks := by
    have gone := kept.ended exited job
    simp only [Worker.holders, Nat.add_eq_zero_iff, List.count_eq_zero] at gone
    exact ⟨gone.1.1, gone.2⟩
  exact ⟨by simp only [Worker.job?, exited],
    List.eq_nil_iff_forall_not_mem.mpr fun job => (none job).1,
    List.eq_nil_iff_forall_not_mem.mpr fun job => (none job).2⟩

end Executor

namespace JoinableExecutor

variable {β : Type} {exec exec' : JoinableExecutor β} {i : Nat} {closer : Closer}

/-! ## What a move can do -/

/-- What a move can do. -/
inductive Turn : JoinableExecutor β → JoinableExecutor β → Prop
  | idle {exec : JoinableExecutor β} : Turn exec exec
  | worked {exec : JoinableExecutor β} (move : Executor.Move β) :
      Turn exec { exec with toExecutor := exec.toExecutor.step move }
  | began {exec : JoinableExecutor β} (place : Place) :
      Turn exec { exec with closers := exec.closers ++ [{ place }] }
  | told {exec : JoinableExecutor β} {i : Nat} {closer : Closer}
      (here : exec.closers[i]? = some closer) (telling : closer.stage = .telling) :
      Turn exec ({ exec with worker := exec.worker.stop }.reach i closer .asking)
  /-- On the worker's own thread there is nothing more to do. -/
  | inside {exec : JoinableExecutor β} {i : Nat} {closer : Closer}
      (here : exec.closers[i]? = some closer) (asking : closer.stage = .asking)
      (own : closer.place.isOwn = true) :
      Turn exec (exec.reach i closer .returned)
  | outside {exec : JoinableExecutor β} {i : Nat} {closer : Closer}
      (here : exec.closers[i]? = some closer) (asking : closer.stage = .asking)
      (other : closer.place.isOwn = false) :
      Turn exec (exec.reach i closer .taking)
  | took {exec : JoinableExecutor β} {i : Nat} {closer : Closer}
      (here : exec.closers[i]? = some closer) (taking : closer.stage = .taking)
      (there : exec.handle = true) :
      Turn exec ({ exec with handle := false }.reach i closer .waiting)
  /-- Somebody else has taken the handle. -/
  | missed {exec : JoinableExecutor β} {i : Nat} {closer : Closer}
      (here : exec.closers[i]? = some closer) (taking : closer.stage = .taking)
      (gone : exec.handle = false) :
      Turn exec (exec.reach i closer .returned)
  | joined {exec : JoinableExecutor β} {i : Nat} {closer : Closer}
      (here : exec.closers[i]? = some closer) (waiting : closer.stage = .waiting)
      (exited : exec.worker.phase = .exited) :
      Turn exec (exec.reach i closer .returned)

private theorem goOn_turn (here : exec.closers[i]? = some closer) :
    Turn exec (exec.goOn i closer) := by
  cases h : closer.stage with
  | telling =>
    simp only [goOn, h]
    exact .told here h
  | asking =>
    simp only [goOn, h]
    cases own : closer.place.isOwn with
    | true => exact .inside here h own
    | false => exact .outside here h own
  | taking =>
    simp only [goOn, h]
    split
    case isTrue there => exact .took here h there
    case isFalse gone => exact .missed here h (by simpa using gone)
  | waiting =>
    simp only [goOn, h]
    split
    case isTrue ended => exact .joined here h (Worker.hasExited_iff.mp ended)
    case isFalse => exact .idle
  | returned =>
    simp only [goOn, h]
    exact .idle

/-- Every move is a turn. -/
theorem step_turn (exec : JoinableExecutor β) (move : Move β) : Turn exec (exec.step move) := by
  cases move with
  | work move =>
    simp only [step]
    split
    · exact .worked move
    · exact .idle
  | close place =>
    simp only [step]
    split
    · exact .began place
    · exact .idle
  | proceed i =>
    cases here : exec.closers[i]? with
    | none =>
      simp only [step, here]
      exact .idle
    | some closer =>
      simp only [step, here]
      exact goOn_turn here

/-- What every turn keeps is kept by every schedule. -/
theorem course_of_turn {P : JoinableExecutor β → Prop}
    (turn : ∀ {exec exec' : JoinableExecutor β}, Turn exec exec' → P exec → P exec')
    (h : P exec) (schedule : List (Move β)) : P (exec.course schedule) := by
  induction schedule generalizing exec with
  | nil => exact h
  | cons move schedule ih => exact ih (turn (step_turn exec move) h)

/-- Those who close an executor do nothing in it but to tell the worker to stop. -/
theorem Turn.executor (h : Turn exec exec') :
    exec'.toExecutor = exec.toExecutor ∨
      ∃ move, exec'.toExecutor = exec.toExecutor.step move := by
  cases h with
  | worked move => exact .inr ⟨move, rfl⟩
  | told => exact .inr ⟨.stop (.thread 0), rfl⟩
  | _ => exact .inl rfl

/-- What is below a joinable executor goes through a course of its own. -/
theorem course_executor (exec : JoinableExecutor β) (schedule : List (Move β)) :
    ∃ moves, (exec.course schedule).toExecutor = exec.toExecutor.course moves := by
  refine course_of_turn (P := fun now => ∃ moves, now.toExecutor = exec.toExecutor.course moves)
    (fun h ⟨moves, same⟩ => ?_) ⟨[], rfl⟩ schedule
  rcases h.executor with stays | ⟨move, goes⟩
  · exact ⟨moves, stays.trans same⟩
  · exact ⟨moves ++ [move], by simp [goes, same, Executor.course]⟩

/-- What every shift of the executor keeps is kept by every turn. -/
theorem Turn.of_shift {P : Executor β → Prop} (h : Turn exec exec')
    (shift : ∀ {next : Executor β}, Executor.Shift exec.toExecutor next → P next)
    (same : P exec.toExecutor) : P exec'.toExecutor := by
  rcases h.executor with stays | ⟨move, goes⟩
  · rwa [stays]
  · rw [goes]
    exact shift (Executor.step_shift _ move)

/-! ## Where the handle is -/

/-- How many have the handle: its place, and those who wait. -/
def keepers (exec : JoinableExecutor β) : Nat :=
  exec.handle.toNat + exec.closers.countP Closer.waits

/-- What is known once one who closes the executor has come to a stage. -/
def Closer.Knows (closer : Closer) (stopping handle : Bool) : Prop :=
  match closer.stage with
  | .telling => True
  | .asking => stopping = true
  | .taking => stopping = true ∧ closer.place.isOwn = false
  | .waiting => stopping = true ∧ closer.place.isOwn = false ∧ handle = false
  | .returned => stopping = true ∧ (closer.place.isOwn = false → handle = false)

/-- What is known stays true. -/
theorem Closer.Knows.mono {stopping stopping' handle handle' : Bool}
    (h : closer.Knows stopping handle) (told : stopping = true → stopping' = true)
    (gone : handle = false → handle' = false) : closer.Knows stopping' handle' := by
  unfold Knows at h ⊢
  cases stage : closer.stage with
  | telling => trivial
  | asking =>
    rw [stage] at h
    exact told h
  | taking =>
    rw [stage] at h
    exact ⟨told h.1, h.2⟩
  | waiting =>
    rw [stage] at h
    exact ⟨told h.1, h.2.1, gone h.2.2⟩
  | returned =>
    rw [stage] at h
    exact ⟨told h.1, fun other => gone (h.2 other)⟩

/-- The handle is never doubled, and is given up only after the end of the thread. -/
structure Guarded (exec : JoinableExecutor β) : Prop where
  single : exec.keepers ≤ 1
  joined : exec.keepers = 0 → exec.worker.phase = .exited
  known : ∀ closer ∈ exec.closers, closer.Knows exec.worker.stopping exec.handle

/-- A step of one closer leaves the others with what they know. -/
theorem knows_reach {stage : Stage} {stopping handle : Bool}
    (known : ∀ closer ∈ exec.closers, closer.Knows stopping handle)
    (now : Closer.Knows { closer with stage } stopping handle) :
    ∀ other ∈ (exec.reach i closer stage).closers, other.Knows stopping handle := by
  intro other mem
  rcases List.mem_or_eq_of_mem_set mem with mem | rfl
  · exact known other mem
  · exact now

/-- A step of one closer changes the number of those who have the handle by its own. -/
theorem keepers_reach (here : exec.closers[i]? = some closer) (stage : Stage) :
    (exec.reach i closer stage).keepers + closer.waits.toNat =
      exec.keepers + (stage == .waiting).toNat := by
  have moved := Tally.countP_set_add (p := Closer.waits) (b := { closer with stage }) here
  simp only [keepers, reach, Closer.waits] at moved ⊢
  omega

/-- A closer that has not got the handle goes on without it. -/
theorem Guarded.reach {stage : Stage} (guarded : Guarded exec)
    (here : exec.closers[i]? = some closer) (before : closer.stage ≠ .waiting)
    (after : stage ≠ .waiting)
    (now : Closer.Knows { closer with stage } exec.worker.stopping exec.handle) :
    Guarded (exec.reach i closer stage) := by
  have same : (exec.reach i closer stage).keepers = exec.keepers := by
    have moved := keepers_reach here stage
    rwa [show closer.waits = false by simpa [Closer.waits] using before,
      show (stage == .waiting) = false by simpa using after] at moved
  exact ⟨Nat.le_trans (Nat.le_of_eq same) guarded.single, fun none => guarded.joined (same ▸ none),
    knows_reach guarded.known now⟩

/-- What a closer knows at the place where it stands. -/
theorem Guarded.knows (guarded : Guarded exec) (here : exec.closers[i]? = some closer) :
    closer.Knows exec.worker.stopping exec.handle :=
  guarded.known closer (List.mem_of_getElem? here)

theorem Guarded.turn (guarded : Guarded exec) (h : Turn exec exec') : Guarded exec' := by
  cases h with
  | idle => exact guarded
  | worked move =>
    have shift := Executor.step_shift exec.toExecutor move
    exact ⟨guarded.single, fun none => (shift.of_exited (guarded.joined none)).1,
      fun closer mem => (guarded.known closer mem).mono shift.stopping id⟩
  | began place =>
    have more : (exec.closers ++ [({ place } : Closer)]).countP Closer.waits =
        exec.closers.countP Closer.waits := by
      rw [Tally.countP_concat]
      rfl
    refine ⟨by simpa only [keepers, more] using guarded.single,
      fun none => guarded.joined (by simpa only [keepers, more] using none), fun closer mem => ?_⟩
    rcases List.mem_append.mp mem with mem | mem
    · exact guarded.known closer mem
    · obtain rfl := List.mem_singleton.mp mem
      trivial
  | told here telling =>
    have told : Guarded { exec with worker := exec.worker.stop } :=
      ⟨guarded.single, guarded.joined,
        fun closer mem => (guarded.known closer mem).mono (fun _ => rfl) id⟩
    exact told.reach here (by simp [telling]) nofun rfl
  | inside here asking own =>
    have before := guarded.knows here
    simp only [Closer.Knows, asking] at before
    exact guarded.reach here (by simp [asking]) nofun ⟨before, by simp [own]⟩
  | outside here asking other =>
    have before := guarded.knows here
    simp only [Closer.Knows, asking] at before
    exact guarded.reach here (by simp [asking]) nofun ⟨before, other⟩
  | @took i closer here taking there =>
    let left : JoinableExecutor β := { exec with handle := false }
    have standing : left.closers[i]? = some closer := here
    -- the handle passes from its place to the closer
    have passed : (left.reach i closer .waiting).keepers = exec.keepers := by
      have moved := keepers_reach standing .waiting
      rw [show closer.waits = false by simp [Closer.waits, taking]] at moved
      simp only [left, keepers, there, Bool.toNat_true, Bool.toNat_false,
        beq_self_eq_true] at moved ⊢
      omega
    have known : ∀ other ∈ left.closers, other.Knows exec.worker.stopping false :=
      fun other mem => (guarded.known other mem).mono id fun _ => rfl
    have before := guarded.knows here
    simp only [Closer.Knows, taking] at before
    exact ⟨Nat.le_trans (Nat.le_of_eq passed) guarded.single,
      fun none => guarded.joined (passed ▸ none), knows_reach known ⟨before.1, before.2, rfl⟩⟩
  | missed here taking gone =>
    have before := guarded.knows here
    simp only [Closer.Knows, taking] at before
    exact guarded.reach here (by simp [taking]) nofun ⟨before.1, fun _ => gone⟩
  | joined here waiting exited =>
    have fewer := keepers_reach here .returned
    have single := guarded.single
    have before := guarded.knows here
    simp only [Closer.Knows, waiting] at before
    simp only [show (Stage.returned == Stage.waiting) = false from rfl, Bool.toNat_false] at fewer
    exact ⟨by omega, fun _ => exited, knows_reach guarded.known ⟨before.1, fun _ => before.2.2⟩⟩

theorem guarded_opened (name : String) : Guarded (opened name : JoinableExecutor β) where
  single := Nat.le_refl 1
  joined := nofun
  known := nofun

/-- An executor is guarded after every schedule. -/
theorem guarded_course (name : String) (schedule : List (Move β)) :
    Guarded ((opened name : JoinableExecutor β).course schedule) :=
  course_of_turn (fun h guarded => guarded.turn h) (guarded_opened name) schedule

/-- No sender is doubled in an executor. -/
theorem kept_course (name : String) (schedule : List (Move β)) :
    Executor.Kept ((opened name : JoinableExecutor β).course schedule).toExecutor := by
  obtain ⟨moves, same⟩ := (opened name : JoinableExecutor β).course_executor schedule
  rw [same]
  exact ((Executor.orderly_opened name).course moves).kept

/-! ## What one who has returned knows -/

namespace Guarded

/-- Nobody has the handle, or one has it. -/
theorem exited_or_waits (guarded : Guarded exec) (gone : exec.handle = false) :
    exec.worker.phase = .exited ∨
      ∃ (j : Nat) (other : Closer), exec.closers[j]? = some other ∧ other.stage = .waiting := by
  by_cases none : exec.closers.countP Closer.waits = 0
  · exact .inl (guarded.joined (by simp [keepers, gone, none]))
  · obtain ⟨j, other, there, waits⟩ :=
      Tally.exists_getElem?_of_countP_pos (Nat.pos_of_ne_zero none)
    exact .inr ⟨j, other, there, by simpa [Closer.waits] using waits⟩

/-- No two wait. -/
theorem waits_unique (guarded : Guarded exec) {i j : Nat} {first second : Closer}
    (here : exec.closers[i]? = some first) (waits : first.stage = .waiting)
    (there : exec.closers[j]? = some second) (waits' : second.stage = .waiting) : i = j := by
  have single := guarded.single
  unfold keepers at single
  have first_waits : first.waits = true := by simp [Closer.waits, waits]
  have second_waits : second.waits = true := by simp [Closer.waits, waits']
  exact Tally.eq_of_countP_le_one (by omega) here first_waits there second_waits

/-- Whoever has returned from outside has done so after the end, or somebody else waits. -/
theorem exited_or_another_waits (guarded : Guarded exec) {number : Nat}
    (here : exec.closers[i]? = some ⟨.outside number, .returned⟩) :
    exec.worker.phase = .exited ∨
      ∃ j number' : Nat, j ≠ i ∧ exec.closers[j]? = some ⟨.outside number', .waiting⟩ := by
  have gone : exec.handle = false := (guarded.knows here).2 rfl
  rcases guarded.exited_or_waits gone with exited | ⟨j, other, there, waiting⟩
  · exact .inl exited
  · obtain ⟨place, stage⟩ := other
    obtain rfl : stage = .waiting := waiting
    obtain ⟨-, outside, -⟩ := guarded.knows there
    cases place with
    | outside number' =>
      refine .inr ⟨j, number', ?_, there⟩
      rintro rfl
      simp [here] at there
    | job | task => cases outside

/-- Whoever has begun to ask has told the worker to stop. -/
theorem stopping (guarded : Guarded exec) (here : exec.closers[i]? = some closer)
    (passed : closer.stage ≠ .telling) : exec.worker.stopping = true := by
  have known := guarded.knows here
  unfold Closer.Knows at known
  split at known
  case h_1 telling => exact absurd telling passed
  case h_2 => exact known
  all_goals exact known.1

end Guarded

/-- One who waits goes on waiting until the thread has ended. -/
theorem Turn.of_waiting (h : Turn exec exec') (here : exec.closers[i]? = some closer)
    (waiting : closer.stage = .waiting) :
    exec'.closers[i]? = some closer ∨ exec'.worker.phase = .exited := by
  -- a step of a closer at another stage is a step of another closer
  have apart {j : Nat} {other : Closer} {stage : Stage}
      (there : exec.closers[j]? = some other) (elsewhere : other.stage ≠ .waiting) :
      (exec.closers.set j { other with stage })[i]? = some closer := by
    have hne : j ≠ i := by
      rintro rfl
      obtain rfl : closer = other := by simpa [here] using there
      exact elsewhere waiting
    rw [List.getElem?_set_ne hne, here]
  cases h with
  | idle | worked => exact .inl here
  | began place =>
    obtain ⟨lt, -⟩ := List.getElem?_eq_some_iff.mp here
    exact .inl (by rw [List.getElem?_append_left lt, here])
  | told there stage | inside there stage | outside there stage | took there stage
  | missed there stage => exact .inl (apart there (by simp [stage]))
  | joined there _ exited => exact .inr exited

/-- After the end of the thread nothing is accepted or started. -/
theorem course_of_exited (exited : exec.worker.phase = .exited) (schedule : List (Move β)) :
    (exec.course schedule).worker.phase = .exited ∧
      (exec.course schedule).started = exec.started ∧
      (exec.course schedule).accepted = exec.accepted := by
  obtain ⟨moves, same⟩ := exec.course_executor schedule
  rw [same]
  exact Executor.course_of_exited exited moves

theorem course_of_waiting (here : exec.closers[i]? = some closer)
    (waiting : closer.stage = .waiting) (schedule : List (Move β)) :
    (exec.course schedule).closers[i]? = some closer ∨
      (exec.course schedule).worker.phase = .exited := by
  refine course_of_turn (P := fun now => now.closers[i]? = some closer ∨
    now.worker.phase = .exited) (fun h kept => ?_) (.inl here) schedule
  rcases kept with here | exited
  · exact h.of_waiting here waiting
  · exact .inr (h.of_shift (P := fun exec => exec.worker.phase = .exited)
      (fun shift => (shift.of_exited exited).1) exited)

/-- Closing an executor. Threads, jobs and tasks close an executor in any order, while work is
handed over and done. Whoever has returned from outside has returned after the end of the thread, or
else somebody else waits for it: one alone, who has found the handle and returns only after the end.
After the end no job runs or waits, no task is alive, and nothing is accepted or started any more.
So those who come one after the other all return after the end. -/
theorem returned_after_the_end_or_another_waits (name : String)
    (schedule later : List (Move β)) :
    let exec : JoinableExecutor β := (opened name).course schedule
    let final := exec.course later
    (∀ i number : Nat, exec.closers[i]? = some ⟨.outside number, .returned⟩ →
      exec.worker.phase = .exited ∨
        ∃ j number' : Nat, j ≠ i ∧ exec.closers[j]? = some ⟨.outside number', .waiting⟩) ∧
    (∀ (i j : Nat) (place place' : Place), exec.closers[i]? = some ⟨place, .waiting⟩ →
      exec.closers[j]? = some ⟨place', .waiting⟩ → i = j) ∧
    (∀ (i : Nat) (place : Place), exec.closers[i]? = some ⟨place, .waiting⟩ →
      final.closers[i]? = some ⟨place, .returned⟩ → final.worker.phase = .exited) ∧
    (∀ (i : Nat) (closer : Closer), exec.closers[i]? = some closer → closer.stage ≠ .telling →
      exec.worker.stopping = true) ∧
    (exec.worker.phase = .exited →
      (final.worker.phase = .exited ∧ final.worker.job? = none ∧ final.worker.queue = [] ∧
        final.worker.tasks = []) ∧
      final.started = exec.started ∧ final.accepted = exec.accepted) := by
  intro exec final
  have guarded : Guarded exec := guarded_course name schedule
  refine ⟨fun i number here => guarded.exited_or_another_waits here,
    fun i j place place' here there => guarded.waits_unique here rfl there rfl,
    fun i place here there => ?_, fun i closer here past => guarded.stopping here past,
    fun exited => ?_⟩
  · refine (course_of_waiting here rfl later).resolve_left fun still => ?_
    rw [still] at there
    cases there
  · obtain ⟨exited', started, accepted⟩ := course_of_exited exited later
    have joint : final = (opened name).course (schedule ++ later) := by
      simp [final, exec, course]
    exact ⟨⟨exited', (joint ▸ kept_course name (schedule ++ later)).spent exited'⟩,
      started, accepted⟩

/-- A job runs and another one waits. One thread closes the executor and waits for the end of the
worker's thread. A second thread closes the executor and returns. The job still runs, and the other
one still waits. -/
theorem returned_while_a_job_runs :
    let exec := (opened "shard" : JoinableExecutor Unit).course
      [.work (.invoke (.thread 0) .execute), .work (.proceed 0), .work (.proceed 0), .work .look,
        .work .pick, .work (.invoke (.thread 0) .execute), .work (.proceed 1), .work (.proceed 1),
        .close (.outside 1), .proceed 0, .proceed 0, .proceed 0,
        .close (.outside 2), .proceed 1, .proceed 1, .proceed 1]
    exec.closers = [⟨.outside 1, .waiting⟩, ⟨.outside 2, .returned⟩] ∧
      exec.worker.job? = some ⟨0, .execute, false⟩ ∧
      exec.worker.queue = [⟨1, .execute, false⟩] ∧ exec.worker.phase ≠ .exited := by
  decide

end JoinableExecutor

end Tenure
