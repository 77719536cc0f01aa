import Mathlib.Data.Nat.Init
import Tenure.Proofs.Retry.Ending
import Tenure.Scenario.Retries

/-!
# What is observed of a run is a schedule

Runs under observation make their attempts one after the other, and each attempt does what its entry
says, from its hand-over to the end of the delay after it. Each attempt is some moves of a run, its
scheduler and its worker. So a run under observation goes one of the ways that a run can go.

## Main definitions

* `Pursuit.GoesTo` — some moves, one after the other
* `RetryWatch.Setting.plan` — what the runs under observation are to do
* `RetryWatch.Upshot` — what can come of an attempt, and how
* `RetryWatch.Mirrors` — a run stands where a run under observation stands

## Main results

* `RetryWatch.Mirrors.goesTo_attempt` — every attempt is some moves
* `RetryWatch.exists_schedule` — whatever is observed of a run, a schedule does
* `RetryWatch.attempts_observe_le`, `RetryWatch.result?_observe` — how many attempts are observed,
  and what the run has come to
-/

namespace Tenure

/-- A run is over after an attempt, or goes on because another one may be made. -/
theorem Run.receive_attempting {α ε : Type} (retrier : Retrier α) (executor : String)
    (delivery : Delivery α ε) (attempt : UInt32) :
    (∃ result, ((attempting attempt).receive retrier executor delivery).1 = .finished result) ∨
      ((attempting attempt).receive retrier executor delivery).1 = .pausing attempt ∧
        isLast retrier attempt = false ∧ delivery ≠ .lost := by
  cases delivery with
  | value value =>
    simp only [receive]
    split
    · exact .inl ⟨_, rfl⟩
    · rename_i hmore
      exact .inr ⟨rfl, (Bool.or_eq_false_iff.mp (Bool.eq_false_iff.mpr hmore)).1, by simp⟩
  | failure failure =>
    simp only [receive]
    split
    · exact .inl ⟨_, rfl⟩
    · rename_i hmore
      exact .inr ⟨rfl, Bool.eq_false_iff.mpr hmore, by simp⟩
  | lost => exact .inl ⟨_, rfl⟩

namespace Pursuit

variable {α ε : Type} {plan : Plan α ε} {pursuit pursuit' last : Pursuit α ε} {attempt : UInt32}

/-- Some moves, one after the other. -/
def GoesTo (plan : Plan α ε) (pursuit pursuit' : Pursuit α ε) : Prop :=
  ∃ moves : List Move, pursuit' = moves.foldl (step plan) pursuit

theorem GoesTo.refl (plan : Plan α ε) (pursuit : Pursuit α ε) : GoesTo plan pursuit pursuit :=
  ⟨[], rfl⟩

theorem GoesTo.trans (h : GoesTo plan pursuit pursuit') (h' : GoesTo plan pursuit' last) :
    GoesTo plan pursuit last := by
  obtain ⟨moves, rfl⟩ := h
  obtain ⟨more, rfl⟩ := h'
  exact ⟨moves ++ more, List.foldl_append.symm⟩

/-- What some moves lead to from the begin, a schedule does. -/
theorem GoesTo.exists_after {name : String} (h : GoesTo plan (opened name) pursuit) :
    ∃ schedule n, after plan name schedule n = pursuit := by
  obtain ⟨moves, rfl⟩ := h
  refine ⟨(moves.getD · .turn), moves.length, ?_⟩
  -- the first moves of the schedule are the first moves of the list
  suffices hfirst : ∀ n, n ≤ moves.length → after plan name (moves.getD · .turn) n =
      (moves.take n).foldl (step plan) (opened name) by
    rw [hfirst moves.length (Nat.le_refl _), List.take_length]
  intro n
  induction n with
  | zero => exact fun _ => rfl
  | succ n ih =>
    intro hn
    have hmove : moves[n]? = some (moves.getD n .turn) := by
      rw [List.getD_eq_getElem?_getD, List.getElem?_eq_getElem hn, Option.getD_some]
    rw [after, ih (Nat.le_of_succ_le hn), List.take_add_one, hmove, List.foldl_append]
    rfl

/-! ### The worker moves -/

/-- The look of a worker that goes on. -/
theorem step_look_of_working (plan : Plan α ε) (phase : pursuit.worker.phase = .ready)
    (working : pursuit.worker.stopping = false) :
    pursuit.step plan .look =
      { pursuit with worker := { pursuit.worker with phase := .picking } } := by
  have hlook : pursuit.worker.look = { pursuit.worker with phase := .picking } := by
    simp [Worker.look, phase, working]
  have hsame : held pursuit.worker.look = held pursuit.worker := by
    rw [hlook]
    rfl
  rw [step, look_of_held_eq hsame, hlook]

/-- The look of a worker that should stop and has the task of one attempt: it is dropped. -/
theorem step_look_of_stopping (plan : Plan α ε) {number : Nat}
    (phase : pursuit.worker.phase = .ready) (stopping : pursuit.worker.stopping = true)
    (queue : pursuit.worker.queue = []) (tasks : pursuit.worker.tasks = [.attempt number]) :
    pursuit.step plan .look =
      { pursuit with
        worker := { pursuit.worker with phase := .exited, queue := [], tasks := [] } }.deliver
        number .lost := by
  have hlook : pursuit.worker.look =
      { pursuit.worker with phase := .exited, queue := [], tasks := [] } := by
    simp [Worker.look, phase, stopping]
  have hdropped : (held pursuit.worker).filter (· ∉ held pursuit.worker.look) = [number] := by
    have hnone : held pursuit.worker.look = [] := by
      rw [hlook]
      rfl
    have hheld : held pursuit.worker = [number] := by
      rw [held, queue, tasks]
      rfl
    simp [hnone, hheld]
  rw [step, look, hdropped, hlook]
  rfl

/-- The end of a task of which something comes. -/
theorem step_settle (plan : Plan α ε) {number : Nat} (phase : pursuit.worker.phase = .ready)
    (tasks : pursuit.worker.tasks = [.attempt number]) :
    pursuit.step plan (.settle number) =
      { pursuit with worker := { pursuit.worker with tasks := [] } }.deliver number
        (plan.delivery number) := by
  have hmem : Piece.attempt number ∈ pursuit.worker.tasks := by simp [tasks]
  have hsettle : pursuit.worker.settle (· == Piece.attempt number) =
      { pursuit.worker with tasks := [] } := by
    simp [Worker.settle, tasks]
  rw [step, if_pos ⟨phase, hmem⟩, settle, hsettle]

/-! ### One attempt -/

/-- A run whose turn it is, about to hand an attempt to a worker that has nothing to do. -/
structure Ready (pursuit : Pursuit α ε) (attempt : UInt32) : Prop where
  run : pursuit.run = .submitting attempt
  number : attempt.toNat = pursuit.handed + 1
  hasTurn : pursuit.hasTurn = true
  isCleared : pursuit.isCleared = false
  calledOff : pursuit.calledOff = false
  phase : pursuit.worker.phase = .ready
  queue : pursuit.worker.queue = []
  tasks : pursuit.worker.tasks = []

/-- A run that waits for an attempt. -/
structure Awaits (pursuit : Pursuit α ε) (attempt : UInt32) (heard : Option (Run.Delivery α ε)) :
    Prop where
  run : pursuit.run = .attempting attempt
  number : attempt.toNat = pursuit.handed
  hasTurn : pursuit.hasTurn = false
  isCleared : pursuit.isCleared = false
  calledOff : pursuit.calledOff = false
  mail : pursuit.mail = heard

/-- The worker of a run, and what it does with its job and its task. -/
structure Works (pursuit : Pursuit α ε) (phase : Worker.Phase Piece) (tasks : List Piece) :
    Prop where
  phase : pursuit.worker.phase = phase
  queue : pursuit.worker.queue = []
  tasks : pursuit.worker.tasks = tasks

/-- How many attempts are handed over meanwhile, what is reported, and whether the worker is told to
stop. -/
structure Gains (pursuit pursuit' : Pursuit α ε) (handed : Nat) (stops : Bool)
    (notices : List Notice) : Prop where
  handed : pursuit'.handed = pursuit.handed + handed
  stopping : pursuit'.worker.stopping = (pursuit.worker.stopping || stops)
  notices : pursuit'.notices = pursuit.notices ++ notices
  name : pursuit'.worker.name = pursuit.worker.name

/-- Nothing is gained by what leaves the counts, the reports and the flag of the worker alone. -/
theorem Gains.none (handed : pursuit'.handed = pursuit.handed)
    (stopping : pursuit'.worker.stopping = pursuit.worker.stopping)
    (notices : pursuit'.notices = pursuit.notices)
    (name : pursuit'.worker.name = pursuit.worker.name) : pursuit.Gains pursuit' 0 false [] :=
  ⟨handed, by rw [stopping, Bool.or_false], by rw [notices, List.append_nil], name⟩

theorem Gains.trans {handed more : Nat} {stops stops' : Bool} {notices notices' : List Notice}
    (h : pursuit.Gains pursuit' handed stops notices)
    (h' : pursuit'.Gains last more stops' notices') :
    pursuit.Gains last (handed + more) (stops || stops') (notices ++ notices') where
  handed := by rw [h'.handed, h.handed, Nat.add_assoc]
  stopping := by rw [h'.stopping, h.stopping, Bool.or_assoc]
  notices := by rw [h'.notices, h.notices, List.append_assoc]
  name := h'.name.trans h.name

/-- A worker that was told to stop refuses the attempt. -/
theorem Ready.goesTo_refused (plan : Plan α ε) (h : pursuit.Ready attempt)
    (told : pursuit.worker.stopping = true) :
    ∃ pursuit', GoesTo plan pursuit pursuit' ∧
      pursuit'.run = .finished (.error (.executor pursuit.worker.refusal)) ∧
      pursuit.Gains pursuit' 0 false [] := by
  have hstep : pursuit.step plan .proceed =
      { pursuit with
        run := .finished (.error (.executor pursuit.worker.refusal))
        hasTurn := false } := by
    simp [step, proceed, handOver, Run.handOver, Worker.admits, h.run, h.hasTurn, h.isCleared, told]
  refine ⟨_, ⟨[.proceed], hstep.symm⟩, rfl, .none rfl rfl rfl rfl⟩

/-- An attempt is handed over, and the worker takes it. -/
theorem Ready.goesTo_taken (plan : Plan α ε) (h : pursuit.Ready attempt)
    (working : pursuit.worker.stopping = false) :
    ∃ pursuit', GoesTo plan pursuit pursuit' ∧ pursuit'.Awaits attempt none ∧
      pursuit'.Works (.running (.attempt pursuit'.handed)) [] ∧
      pursuit.Gains pursuit' 1 false [] := by
  -- with its fields in the open, the run can be led through the moves by computation
  obtain ⟨worker, run, handed, mail, hasTurn, isCleared, isDue, calledOff, halted, log, notices⟩ :=
    pursuit
  obtain ⟨name, queue, stopping, phase, tasks⟩ := worker
  obtain ⟨run, number, hasTurn, isCleared, calledOff, phase, queue, tasks⟩ := h
  simp only at run number hasTurn isCleared calledOff phase queue tasks working
  subst run hasTurn isCleared calledOff phase queue tasks working
  refine ⟨_, ⟨[.proceed, .proceed, .proceed, .look, .pick], rfl⟩, ?_⟩
  simp only [List.foldl_cons, List.foldl_nil]
  rw [step_look_of_working plan rfl rfl]
  exact ⟨⟨rfl, number, rfl, rfl, rfl, rfl⟩, ⟨rfl, rfl, rfl⟩,
    ⟨rfl, rfl, (List.append_nil _).symm, rfl⟩⟩

/-- The worker may be told to stop at any time. -/
theorem Awaits.goesTo_told (plan : Plan α ε) {heard : Option (Run.Delivery α ε)}
    {phase : Worker.Phase Piece} {tasks : List Piece} (h : pursuit.Awaits attempt heard)
    (works : pursuit.Works phase tasks) (stops : Bool) :
    ∃ pursuit', GoesTo plan pursuit pursuit' ∧ pursuit'.Awaits attempt heard ∧
      pursuit'.Works phase tasks ∧ pursuit.Gains pursuit' 0 stops [] := by
  cases stops with
  | false =>
    exact ⟨pursuit, .refl plan pursuit, h, works,
      .none rfl rfl rfl rfl⟩
  | true =>
    refine ⟨_, ⟨[.stop], rfl⟩, ?_, ?_, ?_⟩
    · exact ⟨h.run, h.number, h.hasTurn, h.isCleared, h.calledOff, h.mail⟩
    · exact ⟨works.phase, works.queue, works.tasks⟩
    · exact ⟨rfl, (Bool.or_true _).symm, (List.append_nil _).symm, rfl⟩

/-- An attempt breaks off at once. -/
theorem Awaits.goesTo_broken (h : pursuit.Awaits attempt none)
    (works : pursuit.Works (.running (.attempt pursuit.handed)) [])
    (fate : plan.fate pursuit.handed = .breaksAtOnce) :
    ∃ pursuit', GoesTo plan pursuit pursuit' ∧ pursuit'.Awaits attempt (some .lost) ∧
      pursuit.Gains pursuit' 0 false [.jobBroke pursuit.worker.name] := by
  have hjob : pursuit.worker.job? = some (.attempt pursuit.handed) :=
    Worker.job?_eq_some.mpr works.phase
  have hstep : pursuit.step plan .finish =
      { pursuit with
        worker := pursuit.worker.finish
        notices := pursuit.notices ++ [Notice.jobBroke pursuit.worker.name] }.deliver
        pursuit.handed .lost := by
    simp only [step, finish, hjob, fate]
  refine ⟨_, ⟨[.finish], hstep.symm⟩, ?_, ⟨rfl, ?_, rfl, ?_⟩⟩
  · exact ⟨h.run, h.number, h.hasTurn, h.isCleared, h.calledOff, if_pos rfl⟩
  · exact (Worker.finish_stopping _).trans (Bool.or_false _).symm
  · exact Worker.finish_name _

/-- An attempt leaves its task behind. -/
theorem Awaits.goesTo_alive (h : pursuit.Awaits attempt none)
    (works : pursuit.Works (.running (.attempt pursuit.handed)) [])
    (fate : plan.fate pursuit.handed ≠ .breaksAtOnce) :
    ∃ pursuit', GoesTo plan pursuit pursuit' ∧ pursuit'.Awaits attempt none ∧
      pursuit'.Works .ready [.attempt pursuit'.handed] ∧ pursuit.Gains pursuit' 0 false [] := by
  have hjob : pursuit.worker.job? = some (.attempt pursuit.handed) :=
    Worker.job?_eq_some.mpr works.phase
  have hfinish : pursuit.worker.finish = { pursuit.worker with phase := .ready } := by
    simp [Worker.finish, works.phase]
  have hstep : pursuit.step plan .finish =
      { pursuit with
        worker := { pursuit.worker with
          phase := .ready
          tasks := pursuit.worker.tasks ++ [.attempt pursuit.handed] } } := by
    simp only [step, finish, hjob, hfinish]
    cases hfate : plan.fate pursuit.handed with
    | breaksAtOnce => exact absurd hfate fate
    | _ => rfl
  refine ⟨_, ⟨[.finish], hstep.symm⟩, ?_, ⟨rfl, works.queue, ?_⟩, .none rfl rfl rfl rfl⟩
  · exact ⟨h.run, h.number, h.hasTurn, h.isCleared, h.calledOff, h.mail⟩
  · simp only [works.tasks, List.nil_append]

/-- The worker ends with the task of an attempt. -/
theorem Awaits.goesTo_dropped (plan : Plan α ε) (h : pursuit.Awaits attempt none)
    (works : pursuit.Works .ready [.attempt pursuit.handed])
    (told : pursuit.worker.stopping = true) :
    ∃ pursuit', GoesTo plan pursuit pursuit' ∧ pursuit'.Awaits attempt (some .lost) ∧
      pursuit.Gains pursuit' 0 false [] := by
  have hstep := step_look_of_stopping plan works.phase told works.queue works.tasks
  exact ⟨_, ⟨[.look], hstep.symm⟩,
    ⟨h.run, h.number, h.hasTurn, h.isCleared, h.calledOff, if_pos rfl⟩, .none rfl rfl rfl rfl⟩

/-- The task of an attempt comes to its end. -/
theorem Awaits.goesTo_settled (plan : Plan α ε) (h : pursuit.Awaits attempt none)
    (works : pursuit.Works .ready [.attempt pursuit.handed]) :
    ∃ pursuit', GoesTo plan pursuit pursuit' ∧
      pursuit'.Awaits attempt (some (plan.delivery pursuit.handed)) ∧
      pursuit'.Works .ready [] ∧ pursuit.Gains pursuit' 0 false [] := by
  have hstep := step_settle plan works.phase works.tasks
  exact ⟨_, ⟨[.settle pursuit.handed], hstep.symm⟩,
    ⟨h.run, h.number, h.hasTurn, h.isCleared, h.calledOff, if_pos rfl⟩,
    ⟨works.phase, works.queue, rfl⟩, .none rfl rfl rfl rfl⟩

/-- A run that rests between two attempts. -/
structure Rests (pursuit : Pursuit α ε) (attempt : UInt32) : Prop where
  run : pursuit.run = .pausing attempt
  number : attempt.toNat = pursuit.handed
  hasTurn : pursuit.hasTurn = true
  isCleared : pursuit.isCleared = false
  isDue : pursuit.isDue = false
  calledOff : pursuit.calledOff = false

/-- What has come of an attempt is taken in. -/
theorem Awaits.goesTo_received (plan : Plan α ε) {delivery : Run.Delivery α ε}
    (h : pursuit.Awaits attempt (some delivery)) :
    ∃ pursuit', GoesTo plan pursuit pursuit' ∧
      pursuit'.run = (pursuit.run.receive plan.retrier pursuit.worker.name delivery).1 ∧
      (∀ number, pursuit'.run = .pausing number → pursuit'.Rests number) ∧
      pursuit'.worker = pursuit.worker ∧
      pursuit.Gains pursuit' 0 false
        (pursuit.run.receive plan.retrier pursuit.worker.name delivery).2 := by
  have hstep : [Move.turn, .proceed].foldl (step plan) pursuit =
      { pursuit with hasTurn := true }.receive plan delivery := by
    simp [step, proceed, result?, Run.result?, h.run, h.hasTurn, h.calledOff, h.mail]
  refine ⟨_, ⟨[.turn, .proceed], hstep.symm⟩, rfl, ?_, rfl,
    ⟨rfl, (Bool.or_false _).symm, rfl, rfl⟩⟩
  intro number hrun
  have hrun' : (pursuit.run.receive plan.retrier pursuit.worker.name delivery).1 =
      .pausing number := hrun
  have hnumber : attempt = number := by
    rw [h.run] at hrun'
    rcases Run.receive_attempting plan.retrier pursuit.worker.name delivery attempt with
      ⟨result, hover⟩ | ⟨hpausing, -⟩
    · rw [hover] at hrun'
      cases hrun'
    · rw [hpausing] at hrun'
      cases hrun'
      rfl
  exact {
    run := hrun
    number := hnumber ▸ h.number
    hasTurn := by simp only [receive, hrun', Run.result?, Option.isNone_none]
    isCleared := h.isCleared
    isDue := rfl
    calledOff := h.calledOff }

/-- A run that waits for an attempt is called off. -/
theorem Awaits.goesTo_cancelled (plan : Plan α ε) (h : pursuit.Awaits attempt none) :
    ∃ pursuit', GoesTo plan pursuit pursuit' ∧ pursuit'.run = pursuit.run.cancel ∧
      pursuit.Gains pursuit' 0 false [] := by
  have hstep : [Move.cancel, .turn].foldl (step plan) pursuit =
      { pursuit with calledOff := true }.cut := by
    simp [step, result?, Run.result?, h.run, h.hasTurn]
  exact ⟨_, ⟨[.cancel, .turn], hstep.symm⟩, rfl,
    .none rfl rfl rfl rfl⟩

/-- A run that rests is called off. -/
theorem Rests.goesTo_cancelled (plan : Plan α ε) (h : pursuit.Rests attempt) :
    ∃ pursuit', GoesTo plan pursuit pursuit' ∧ pursuit'.run = pursuit.run.cancel ∧
      pursuit.Gains pursuit' 0 false [] := by
  have hstep : [Move.cancel, .proceed].foldl (step plan) pursuit =
      { pursuit with calledOff := true, hasTurn := false }.cut := by
    simp [step, proceed, rest, h.run, h.hasTurn, h.isDue]
  exact ⟨_, ⟨[.cancel, .proceed], hstep.symm⟩, rfl,
    .none rfl rfl rfl rfl⟩

/-- The delay passes, and the run is about to make the next attempt. -/
theorem Rests.goesTo_ready (h : pursuit.Rests attempt) (works : pursuit.Works .ready [])
    (hmore : attempt.toNat < plan.most) :
    ∃ pursuit', GoesTo plan pursuit pursuit' ∧ pursuit'.Ready (attempt + 1) ∧
      pursuit.Gains pursuit' 0 false [] := by
  have hstep : [Move.elapse, .proceed].foldl (step plan) pursuit =
      { pursuit with
        run := .submitting (attempt + 1)
        isDue := false
        log := pursuit.log ++ [.rested] } := by
    simp [step, proceed, Run.wake, h.run, h.hasTurn]
  refine ⟨_, ⟨[.elapse, .proceed], hstep.symm⟩, ?_,
    .none rfl rfl rfl rfl⟩
  exact {
    run := rfl
    number := by rw [Run.toNat_succ hmore plan.most_lt, h.number]
    hasTurn := h.hasTurn
    isCleared := h.isCleared
    calledOff := h.calledOff
    phase := works.phase
    queue := works.queue
    tasks := works.tasks }

end Pursuit

namespace RetryWatch

open Pursuit (GoesTo Plan)

variable {α : Type} {setting : Setting α} {watch : Watch α} {pursuit : Pursuit α String}
  {attempt : UInt32} {delay : Duration}

/-- What an attempt does, by its number. -/
def Setting.entry (setting : Setting α) (number : Nat) : Entry α :=
  setting.script.getD (number - 1) setting.later

/-- What becomes of an attempt that is left alone. -/
def Entry.fate (entry : Entry α) (value : α) : Pursuit.Fate α String :=
  match entry.breaks, entry.yield with
  | some .atStart, _ => .breaksAtOnce
  | some .underWay, _ => .breaksLater
  | none, .value value => .value value
  | none, .failure failure => .failure failure
  | none, .number => .value value

/-- What the runs under observation are to do. -/
def Setting.plan (setting : Setting α) (delay : Duration) : Plan α String where
  budget := setting.retrier.limit
  accepts := setting.retrier.accepts
  delay
  fate number := (setting.entry number).fate (setting.ofNumber (UInt32.ofNat number))

theorem Setting.retrier_plan (hlimit : 1 ≤ setting.retrier.limit) :
    (setting.plan delay).retrier = setting.retrier := by
  have hmax : max setting.retrier.limit 1 = setting.retrier.limit := by
    by_cases h : setting.retrier.limit ≤ 1
    · exact (if_pos h).trans (UInt32.le_antisymm hlimit h)
    · exact if_neg h
  rw [Plan.retrier, Retrier.new, plan, hmax]

/-! ### One attempt under observation -/

/-- What can come of an attempt, and how. -/
inductive Upshot (plan : Plan α String) (executor : String) (number : Nat) : Conclusion α → Prop
  | broken {stops : Bool} (fate : plan.fate number = .breaksAtOnce) :
      Upshot plan executor number ⟨some .lost, stops, [.jobBroke executor]⟩
  /-- The executor was told to stop, and dropped the attempt. -/
  | dropped (fate : plan.fate number ≠ .breaksAtOnce) :
      Upshot plan executor number ⟨some .lost, true, []⟩
  | settled {stops : Bool} {delivery : Run.Delivery α String}
      (fate : plan.fate number ≠ .breaksAtOnce) (delivers : plan.delivery number = delivery) :
      Upshot plan executor number ⟨some delivery, stops, []⟩
  | waits : Upshot plan executor number ⟨none, false, []⟩

theorem upshot_conclude (setting : Setting α) {number : Nat} (hnumber : attempt.toNat = number)
    (delay : Duration) :
    Upshot (setting.plan delay) setting.executor number
      (conclude setting attempt (setting.entry number)) := by
  have hfate : (setting.plan delay).fate number =
      (setting.entry number).fate (setting.ofNumber attempt) := by
    simp only [Setting.plan, ← hnumber, UInt32.ofNat_toNat]
  generalize setting.entry number = entry at hfate ⊢
  obtain ⟨yield, breaks, stops, waits⟩ := entry
  -- breaking off at once comes first, then a stop as the attempt begins
  by_cases hbroken : breaks = some .atStart
  · subst hbroken
    exact .broken hfate
  have hwhole : (setting.plan delay).fate number ≠ .breaksAtOnce := by
    rw [hfate]
    rcases breaks with _ | (_ | _)
    · cases yield <;> simp [Entry.fate]
    · exact absurd rfl hbroken
    · simp [Entry.fate]
  simp only [conclude, if_neg hbroken]
  by_cases hstart : stops = some .atStart
  · subst hstart
    exact .dropped hwhole
  cases breaks with
  | some moment =>
    -- the task breaks off as it goes on
    obtain rfl : moment = .underWay := by cases moment <;> simp_all
    simp only [decide_true, Bool.or_true, if_true]
    exact .settled hwhole (by rw [Plan.delivery, hfate]; rfl)
  | none =>
    rw [if_neg (by simp [hstart])]
    cases waits with
    | true =>
      cases stops with
      | none => exact .waits
      | some => exact .dropped hwhole
    | false => cases yield <;> exact .settled hwhole (by rw [Plan.delivery, hfate]; rfl)

/-- What comes of an attempt comes by some moves. -/
theorem Upshot.goesTo {conclusion : Conclusion α} {plan : Plan α String}
    (h : Upshot plan pursuit.worker.name pursuit.handed conclusion)
    (waits : pursuit.Awaits attempt none)
    (works : pursuit.Works (.running (.attempt pursuit.handed)) []) :
    ∃ pursuit', GoesTo plan pursuit pursuit' ∧ pursuit'.Awaits attempt conclusion.delivery ∧
      (∀ delivery, conclusion.delivery = some delivery → delivery ≠ .lost →
        pursuit'.Works .ready []) ∧
      pursuit.Gains pursuit' 0 conclusion.stops conclusion.notices := by
  cases h with
  | broken fate =>
    -- the worker is told to stop while the attempt runs, too late to prevent anything
    rename_i stops
    obtain ⟨told, hgoes, hawaits, hworks, hgains⟩ := waits.goesTo_told plan works stops
    have hsame : told.handed = pursuit.handed := hgains.handed
    rw [← hsame] at hworks fate
    obtain ⟨broken, hgoes', hawaits', hgains'⟩ := hawaits.goesTo_broken hworks fate
    refine ⟨broken, hgoes.trans hgoes', hawaits', ?_, ?_⟩
    · exact fun delivery heq hne => absurd (Option.some.inj heq).symm hne
    · simpa [hgains.name] using hgains.trans hgains'
  | dropped fate =>
    -- the attempt leaves its task behind, and the worker ends with it
    obtain ⟨alive, hgoes, hawaits, hworks, hgains⟩ := waits.goesTo_alive works fate
    obtain ⟨told, hgoes', hawaits', hworks', hgains'⟩ := hawaits.goesTo_told plan hworks true
    have hsame : told.handed = alive.handed := hgains'.handed
    rw [← hsame] at hworks'
    obtain ⟨dropped, hgoes'', hawaits'', hgains''⟩ :=
      hawaits'.goesTo_dropped plan hworks' (by rw [hgains'.stopping, Bool.or_true])
    refine ⟨dropped, (hgoes.trans hgoes').trans hgoes'', hawaits'', ?_, ?_⟩
    · exact fun delivery heq hne => absurd (Option.some.inj heq).symm hne
    · simpa using (hgains.trans hgains').trans hgains''
  | settled fate delivers =>
    rename_i stops delivery
    obtain ⟨alive, hgoes, hawaits, hworks, hgains⟩ := waits.goesTo_alive works fate
    obtain ⟨settled, hgoes', hawaits', hworks', hgains'⟩ := hawaits.goesTo_settled plan hworks
    have hsame : alive.handed = pursuit.handed := hgains.handed
    rw [hsame, delivers] at hawaits'
    obtain ⟨told, hgoes'', hawaits'', hworks'', hgains''⟩ :=
      hawaits'.goesTo_told plan hworks' stops
    refine ⟨told, (hgoes.trans hgoes').trans hgoes'', hawaits'', fun _ _ _ => hworks'', ?_⟩
    simpa using (hgains.trans hgains').trans hgains''
  | waits =>
    exact ⟨pursuit, .refl plan pursuit, waits, by simp,
      .none rfl rfl rfl rfl⟩

/-! ### Watching a run -/

@[simp] theorem Watch.attempts_cancelAt (watch : Watch α) (setting : Setting α)
    (attempt : UInt32) : (watch.cancelAt setting attempt).attempts = watch.attempts := by
  unfold cancelAt
  split <;> rfl

/-- The delay after an attempt passes, unless the run is called off or is over. -/
def Watch.rested (watch : Watch α) (setting : Setting α) (attempt : UInt32) : Watch α :=
  { watch.cancelAt setting attempt with run := (watch.cancelAt setting attempt).run.wake }

/-- A run that is over can neither be called off nor woken. -/
theorem Watch.rested_of_finished {result : Except (RetryFailure String) α}
    (h : watch.run = .finished result) : watch.rested setting attempt = watch := by
  obtain ⟨run, stopping, attempts, judged, notices⟩ := watch
  obtain rfl : run = .finished result := h
  unfold rested cancelAt
  split <;> rfl

/-- Only a run that is about to make an attempt makes one. -/
theorem Watch.attempt_of_ne {entry : Entry α} (h : ¬∃ attempt, watch.run = .submitting attempt) :
    watch.attempt setting entry = watch := by
  unfold attempt
  split
  · rename_i number hrun
    exact absurd ⟨number, hrun⟩ h
  · rfl

/-- A run that goes on after an attempt has made one more. -/
theorem Watch.attempts_attempt {entry : Entry α} {next : UInt32}
    (hrun : watch.run = .submitting attempt)
    (h : (watch.attempt setting entry).run = .submitting next) :
    (watch.attempt setting entry).attempts = watch.attempts + 1 := by
  simp only [Watch.attempt, hrun, Run.handOver] at h ⊢
  cases hstopping : watch.stopping with
  | true =>
    simp only [hstopping, if_true] at h
    cases h
  | false =>
    cases (conclude setting attempt entry).delivery <;> simp

/-- A run stands where a run under observation stands. -/
structure Mirrors (setting : Setting α) (watch : Watch α) (pursuit : Pursuit α String) :
    Prop where
  run : pursuit.run = watch.run
  handed : pursuit.handed = watch.attempts
  stopping : pursuit.worker.stopping = watch.stopping
  notices : pursuit.notices = watch.notices
  name : pursuit.worker.name = setting.executor
  ready : ∀ attempt, watch.run = .submitting attempt → pursuit.Ready attempt

namespace Mirrors

variable {watch' : Watch α} {pursuit' : Pursuit α String} {handed : Nat} {stops : Bool}
  {notices : List Notice}

theorem of_gains (h : Mirrors setting watch pursuit)
    (gains : pursuit.Gains pursuit' handed stops notices) (run : pursuit'.run = watch'.run)
    (attempts : watch'.attempts = watch.attempts + handed)
    (stopping : watch'.stopping = (watch.stopping || stops))
    (reports : watch'.notices = watch.notices ++ notices)
    (ready : ∀ attempt, watch'.run = .submitting attempt → pursuit'.Ready attempt) :
    Mirrors setting watch' pursuit' where
  run := run
  handed := by rw [gains.handed, h.handed, attempts]
  stopping := by rw [gains.stopping, h.stopping, stopping]
  notices := by rw [gains.notices, h.notices, reports]
  name := gains.name.trans h.name
  ready := ready

/-- Only what the run does next has changed. -/
theorem of_run {run : Run α String} (h : Mirrors setting watch pursuit)
    (gains : pursuit.Gains pursuit' 0 false []) (hrun : pursuit'.run = run)
    (ready : ∀ attempt, run = .submitting attempt → pursuit'.Ready attempt) :
    Mirrors setting { watch with run } pursuit' :=
  h.of_gains gains hrun rfl (Bool.or_false _).symm (List.append_nil _).symm ready

/-- An attempt waits for ever, unless the run is called off. -/
theorem goesTo_unanswered (h : Mirrors setting watch pursuit)
    (awaits : pursuit.Awaits attempt none) (plan : Plan α String) :
    ∃ pursuit', GoesTo plan pursuit pursuit' ∧
      Mirrors setting (watch.cancelAt setting attempt) pursuit' := by
  unfold Watch.cancelAt
  split
  · obtain ⟨cancelled, hgoes, hcut, hgains⟩ := awaits.goesTo_cancelled plan
    have hover : watch.run.cancel = .finished (.error .cancelled) := by
      rw [← h.run, awaits.run]
      rfl
    exact ⟨cancelled, hgoes, h.of_run hgains (by rw [hcut, h.run]) (by simp [hover])⟩
  · exact ⟨pursuit, .refl plan pursuit, h⟩

/-- A run that rests goes on with the next attempt, unless it is called off. -/
theorem goesTo_rested {plan : Plan α String} (h : Mirrors setting watch pursuit)
    (rests : pursuit.Rests attempt) (works : pursuit.Works .ready [])
    (hmore : attempt.toNat < plan.most) :
    ∃ pursuit', GoesTo plan pursuit pursuit' ∧
      Mirrors setting (watch.rested setting attempt) pursuit' := by
  have hrun : watch.run = .pausing attempt := h.run.symm.trans rests.run
  unfold Watch.rested Watch.cancelAt
  split
  · obtain ⟨cancelled, hgoes, hcut, hgains⟩ := rests.goesTo_cancelled plan
    refine ⟨cancelled, hgoes, h.of_run hgains ?_ ?_⟩
    · rw [hcut, h.run, hrun]
      rfl
    · simp [hrun, Run.cancel, Run.wake]
  · obtain ⟨ready, hgoes, hready, hgains⟩ := rests.goesTo_ready works hmore
    refine ⟨ready, hgoes, h.of_run hgains ?_ ?_⟩
    · rw [hready.run, hrun]
      rfl
    · intro number hnext
      rw [hrun] at hnext
      cases hnext
      exact hready

/-- What has come of an attempt is taken in, and the delay passes, unless the run is over or is
called off. -/
theorem goesTo_answered {plan : Plan α String} {delivery : Run.Delivery α String}
    {run : Run α String} {judged : List α} (h : Mirrors setting watch pursuit)
    (retrier : plan.retrier = setting.retrier) (awaits : pursuit.Awaits attempt (some delivery))
    (works : delivery ≠ .lost → pursuit.Works .ready [])
    (received : watch.run.receive setting.retrier setting.executor delivery = (run, notices)) :
    let next := { watch with run, judged, notices := watch.notices ++ notices }
    ∃ pursuit', GoesTo plan pursuit pursuit' ∧
      Mirrors setting (next.rested setting attempt) pursuit' := by
  intro next
  obtain ⟨heard, hgoes, hreceived, hrests, hworker, hgains⟩ := awaits.goesTo_received plan
  rw [retrier, h.name, h.run, received] at hreceived hgains
  have hcases := Run.receive_attempting setting.retrier setting.executor delivery attempt
  rw [← awaits.run, h.run, received] at hcases
  have hheard : Mirrors setting next heard := by
    refine h.of_gains hgains hreceived rfl (Bool.or_false _).symm rfl ?_
    intro number hnext
    rcases hcases with ⟨result, hover⟩ | ⟨hpausing, -⟩
    · cases hover.symm.trans hnext
    · cases hpausing.symm.trans hnext
  rcases hcases with ⟨result, hover⟩ | ⟨hpausing, hmore, hwhole⟩
  · have hstays : next.rested setting attempt = next := Watch.rested_of_finished hover
    exact ⟨heard, hgoes, hstays.symm ▸ hheard⟩
  · change run = _ at hpausing
    have hworks := works hwhole
    obtain ⟨rested, hgoes', hrested⟩ := hheard.goesTo_rested
      (hrests attempt (hreceived.trans hpausing)) ⟨by rw [hworker, hworks.phase],
        by rw [hworker, hworks.queue], by rw [hworker, hworks.tasks]⟩ (by
          rw [← plan.toNat_limit, retrier]
          simpa [Run.isLast, UInt32.lt_iff_toNat_lt] using hmore)
    exact ⟨rested, hgoes.trans hgoes', hrested⟩

/-- Every attempt is some moves. -/
theorem goesTo_attempt (delay : Duration) (h : Mirrors setting watch pursuit)
    (hlimit : 1 ≤ setting.retrier.limit) (hrun : watch.run = .submitting attempt) :
    ∃ pursuit', GoesTo (setting.plan delay) pursuit pursuit' ∧
      Mirrors setting (watch.attempt setting (setting.entry attempt.toNat)) pursuit' := by
  have hready := h.ready attempt hrun
  cases hstopping : watch.stopping with
  | true =>
    obtain ⟨refused, hgoes, hrefused, hgains⟩ :=
      hready.goesTo_refused (setting.plan delay) (h.stopping.trans hstopping)
    have hattempt : watch.attempt setting (setting.entry attempt.toNat) =
        { watch with run := .finished (.error (.executor (.shutDown setting.executor))) } := by
      simp [Watch.attempt, hrun, hstopping, Run.handOver]
    rw [hattempt]
    refine ⟨refused, hgoes, h.of_run hgains ?_ (by simp)⟩
    rw [hrefused, Worker.refusal, h.name]
  | false =>
    obtain ⟨taken, hgoes, hawaits, hworks, hgains⟩ :=
      hready.goesTo_taken (setting.plan delay) (h.stopping.trans hstopping)
    have hupshot := upshot_conclude setting hawaits.number delay
    rw [← h.name, ← hgains.name] at hupshot
    obtain ⟨heard, hgoes', hawaits', hworks', hgains'⟩ := hupshot.goesTo hawaits hworks
    rw [← hawaits.number] at hawaits' hworks' hgains'
    simp only [Watch.attempt, hrun, Run.handOver, hstopping, Bool.false_eq_true, if_false]
    generalize conclude setting attempt (setting.entry attempt.toNat) = conclusion at *
    obtain ⟨delivery, stops, notices⟩ := conclusion
    have hheard : Mirrors setting { watch with
        run := .attempting attempt
        attempts := watch.attempts + 1
        stopping := false || stops
        notices := watch.notices ++ notices } heard :=
      h.of_gains (hgains.trans hgains') hawaits'.run rfl (by rw [hstopping]; rfl) rfl (by simp)
    cases delivery with
    | none =>
      obtain ⟨stays, hgoes'', hstays⟩ := hheard.goesTo_unanswered hawaits' (setting.plan delay)
      exact ⟨stays, (hgoes.trans hgoes').trans hgoes'', hstays⟩
    | some delivery =>
      obtain ⟨rested, hgoes'', hrested⟩ := hheard.goesTo_answered
        (setting.retrier_plan hlimit) hawaits' (hworks' delivery rfl) rfl
      exact ⟨rested, (hgoes.trans hgoes').trans hgoes'', hrested⟩

/-- The attempts that do what the script says. -/
theorem goesTo_follow (delay : Duration) (hlimit : 1 ≤ setting.retrier.limit)
    (entries : List (Entry α)) (h : Mirrors setting watch pursuit)
    (hentries : ∀ attempt, watch.run = .submitting attempt →
      entries = setting.script.drop watch.attempts) :
    ∃ pursuit', GoesTo (setting.plan delay) pursuit pursuit' ∧
      Mirrors setting (watch.follow setting entries) pursuit' ∧
      ∀ attempt, (watch.follow setting entries).run = .submitting attempt →
        setting.script.length ≤ (watch.follow setting entries).attempts := by
  induction entries generalizing watch pursuit with
  | nil =>
    exact ⟨pursuit, .refl _ pursuit, h, fun attempt hrun =>
      List.drop_eq_nil_iff.mp (hentries attempt hrun).symm⟩
  | cons entry entries ih =>
    rw [Watch.follow]
    -- the next entry of the script is that of the next attempt, if there is one
    by_cases hrun : ∃ attempt, watch.run = .submitting attempt
    · obtain ⟨attempt, hrun⟩ := hrun
      have hnumber : attempt.toNat = watch.attempts + 1 := by
        rw [(h.ready attempt hrun).number, h.handed]
      have hscript := hentries attempt hrun
      have hentry : entry = setting.entry attempt.toNat := by
        have hfirst : setting.script[watch.attempts]? = some entry := by
          rw [← List.head?_drop, ← hscript, List.head?_cons]
        rw [hnumber, Setting.entry, Nat.add_sub_cancel, List.getD_eq_getElem?_getD, hfirst]
        rfl
      obtain ⟨next, hgoes, hnext⟩ := h.goesTo_attempt delay hlimit hrun
      rw [← hentry] at hnext
      obtain ⟨last, hgoes', hlast⟩ := ih hnext fun number hnumber => by
        rw [Watch.attempts_attempt hrun hnumber, ← List.drop_drop, ← hscript]
        rfl
      exact ⟨last, hgoes.trans hgoes', hlast⟩
    · have hstays : watch.attempt setting entry = watch := Watch.attempt_of_ne hrun
      rw [hstays]
      exact ih h fun attempt hsubmitting => absurd ⟨attempt, hsubmitting⟩ hrun

/-- The attempts that all do the same. -/
theorem goesTo_continue (delay : Duration) (hlimit : 1 ≤ setting.retrier.limit) (more : Nat)
    (h : Mirrors setting watch pursuit)
    (hlater : ∀ attempt, watch.run = .submitting attempt →
      setting.script.length ≤ watch.attempts) :
    ∃ pursuit', GoesTo (setting.plan delay) pursuit pursuit' ∧
      Mirrors setting (watch.continue setting more) pursuit' := by
  induction more generalizing watch pursuit with
  | zero => exact ⟨pursuit, .refl _ pursuit, h⟩
  | succ more ih =>
    rw [Watch.continue]
    split
    · rename_i attempt hrun
      have hnumber : attempt.toNat = watch.attempts + 1 := by
        rw [(h.ready attempt hrun).number, h.handed]
      have hentry : setting.later = setting.entry attempt.toNat := by
        rw [hnumber, Setting.entry, Nat.add_sub_cancel, List.getD_eq_getElem?_getD,
          List.getElem?_eq_none (hlater attempt hrun)]
        rfl
      obtain ⟨next, hgoes, hnext⟩ := h.goesTo_attempt delay hlimit hrun
      rw [← hentry] at hnext
      obtain ⟨last, hgoes', hlast⟩ := ih hnext fun number hnumber => by
        rw [Watch.attempts_attempt hrun hnumber]
        exact Nat.le_succ_of_le (hlater attempt hrun)
      exact ⟨last, hgoes.trans hgoes', hlast⟩
    · exact ⟨pursuit, .refl _ pursuit, h⟩

end Mirrors

/-- A run is begun, on an executor and a scheduler that were told to stop or not. -/
theorem goesTo_begun (setting : Setting α) (plan : Plan α String) (stopping : Bool) :
    ∃ pursuit, GoesTo plan (.opened setting.executor) pursuit ∧
      Mirrors setting
        (if setting.stopped = .scheduler then
          { stopping, run := Run.start.cancel : Watch α } else { stopping }) pursuit := by
  have htold : GoesTo plan (.opened setting.executor)
      { Pursuit.opened setting.executor with
        worker := { name := setting.executor, stopping } } := by
    cases stopping with
    | false => exact .refl plan _
    | true => exact ⟨[.stop], rfl⟩
  by_cases hstopped : setting.stopped = .scheduler
  · rw [if_pos hstopped]
    refine ⟨_, htold.trans ⟨[.halt, .abandon], rfl⟩, ⟨rfl, rfl, rfl, rfl, rfl, ?_⟩⟩
    simp [Run.start, Run.cancel]
  · rw [if_neg hstopped]
    refine ⟨_, htold.trans ⟨[.turn], rfl⟩, ⟨rfl, rfl, rfl, rfl, rfl, ?_⟩⟩
    intro attempt hrun
    cases hrun
    exact ⟨rfl, rfl, rfl, rfl, rfl, rfl, rfl, rfl⟩

/-- Whatever is observed of a run, a schedule does. -/
theorem exists_schedule (setting : Setting α) (delay : Duration)
    (hlimit : 1 ≤ setting.retrier.limit) (stopping : Bool) :
    ∃ schedule n, Mirrors setting (observe setting stopping)
      (Pursuit.after (setting.plan delay) setting.executor schedule n) := by
  obtain ⟨begun, hgoes, hbegun⟩ := goesTo_begun setting (setting.plan delay) stopping
  obtain ⟨followed, hgoes', hfollowed, hlater⟩ :=
    hbegun.goesTo_follow delay hlimit setting.script fun attempt _ => by split <;> rfl
  obtain ⟨last, hgoes'', hlast⟩ :=
    hfollowed.goesTo_continue delay hlimit setting.retrier.limit.toNat hlater
  obtain ⟨schedule, n, rfl⟩ := ((hgoes.trans hgoes').trans hgoes'').exists_after
  exact ⟨schedule, n, hlast⟩

/-- A run under observation makes no attempt after the decisive one. -/
theorem attempts_observe_le (setting : Setting α) (delay : Duration)
    (hlimit : 1 ≤ setting.retrier.limit) (stopping : Bool) :
    (observe setting stopping).attempts ≤ (setting.plan delay).decisive := by
  obtain ⟨schedule, n, hmirrors⟩ := exists_schedule setting delay hlimit stopping
  obtain ⟨count, leg, hstands⟩ :=
    Pursuit.stands_after (setting.plan delay) setting.executor schedule n
  have hhanded := hstands.handed
  have hwithin := hstands.within
  rw [← hmirrors.handed, hhanded]
  split <;> omega

/-- What a run under observation has come to. -/
theorem result?_observe (delay : Duration) (hlimit : 1 ≤ setting.retrier.limit) {stopping : Bool}
    {result : Except (RetryFailure String) α}
    (h : (observe setting stopping).run.result? = some result) :
    result = (setting.plan delay).conclusion setting.executor (setting.plan delay).decisive ∨
      result = .error (.executor (.shutDown setting.executor)) ∨
      result = .error (.executor (.taskLost setting.executor)) ∨ result = .error .cancelled := by
  obtain ⟨schedule, n, hmirrors⟩ := exists_schedule setting delay hlimit stopping
  rw [← hmirrors.run] at h
  cases Pursuit.ends h with
  | concluded => exact .inl rfl
  | refused => exact .inr (.inl rfl)
  | dropped => exact .inr (.inr (.inl rfl))
  | cancelled => exact .inr (.inr (.inr rfl))

end RetryWatch

end Tenure
