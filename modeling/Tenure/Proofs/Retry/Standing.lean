import Tenure.Proofs.Retry.Attempts

/-!
# How far a run has come

At every moment a run has made some attempts that settled nothing, and the next one has come some
part of its way: from the hand-over through the queue, the thread and the tasks of the worker to its
outcome, and on to the delay. Everything else can be told from that: what could be seen so far,
where the attempt is, what is in the mail, and what the run does next. The run itself may be over,
and its attempt still on its way.

## Main definitions

* `Pursuit.Leg` — how far an attempt has come
* `Pursuit.Leg.Works`, `Pursuit.Leg.Next` — how it can come further
* `Pursuit.Lies`, `Pursuit.Fits` — what a leg says of the worker, and of the run
* `Pursuit.Stands` — how far a run has come

## Main results

* `Pursuit.Stands.step` — every move keeps to the legs
* `Pursuit.stands_after` — and so does every schedule
-/

namespace Tenure.Pursuit

variable {α ε : Type}

/-- How far an attempt has come. -/
inductive Leg
  | unsent
  | queued
  | running
  /-- Its task is alive. -/
  | alive
  /-- The worker has dropped it, after it was taken or before. -/
  | dropped (begun : Bool)
  /-- It has come to its own outcome. -/
  | done
  /-- It has settled nothing, and the delay after it passes. -/
  | resting
  deriving DecidableEq, Repr

/-- What could be seen of an attempt. -/
def Leg.seen (plan : Plan α ε) (number : Nat) : Leg → List (Event α ε)
  | unsent => []
  | queued => [.submitted number]
  | running | alive => [.submitted number, .started number]
  | dropped false => [.submitted number, .delivered number .lost]
  | dropped true => [.submitted number, .started number, .delivered number .lost]
  | done => plan.trial number
  | resting => plan.trial number ++ [.rests plan.delay]

/-- How far the worker can bring an attempt. -/
inductive Leg.Works (stopping : Bool) : Leg → Leg → Prop
  | same {leg : Leg} : Works stopping leg leg
  | taken : Works stopping .queued .running
  | brokeOff : Works stopping .running .done
  | left : Works stopping .running .alive
  | ended : Works stopping .alive .done
  | ignored (told : stopping = true) : Works stopping .queued (.dropped false)
  | abandoned (told : stopping = true) : Works stopping .alive (.dropped true)

/-- How an attempt can come further, after so many others. -/
inductive Leg.Next (plan : Plan α ε) (stopping : Bool) : Nat → Leg → Nat → Leg → Prop
  | works {count : Nat} {leg leg' : Leg} (works : Leg.Works stopping leg leg') :
      Next plan stopping count leg count leg'
  | sent {count : Nat} : Next plan stopping count .unsent count .queued
  | rests {count : Nat} (more : count + 1 < plan.decisive) :
      Next plan stopping count .done count .resting
  | rested {count : Nat} : Next plan stopping count .resting (count + 1) .unsent

/-- Whether a move is one of the worker, or one that somebody makes on it. -/
def Move.isAside : Move → Bool
  | look | pick | finish | settle _ | enqueue | stop => true
  | _ => false

/-- Where an attempt lies on a worker, which holds no other one. -/
structure Lies (worker : Worker Piece Piece) (number : Nat) (leg : Leg) : Prop where
  queue : worker.queue.filterMap Piece.number? = if leg = .queued then [number] else []
  job : worker.job?.bind Piece.number? = if leg = .running then some number else none
  tasks : worker.tasks = if leg = .alive then [.attempt number] else []
  exited : worker.phase = .exited → worker.stopping = true

/-- What is in the mail of a run. -/
def Leg.Answered (plan : Plan α ε) (number : Nat) (mail : Option (Run.Delivery α ε)) :
    Leg → Prop
  | queued | running | alive => mail = none
  | dropped _ => mail = some .lost
  | done => mail = some (plan.delivery number)
  | unsent | resting => True

/-- What a run does whose attempt has come so far. -/
inductive Fits (plan : Plan α ε) (worker : Worker Piece Piece) (called : Bool) (number : Nat) :
    Leg → Run α ε → Prop
  | submitting {attempt : UInt32} (counted : attempt.toNat = number) :
      Fits plan worker called number .unsent (.submitting attempt)
  | attempting {leg : Leg} {attempt : UInt32} (sent : leg ≠ .unsent) (unrested : leg ≠ .resting)
      (counted : attempt.toNat = number) :
      Fits plan worker called number leg (.attempting attempt)
  | pausing {attempt : UInt32} (counted : attempt.toNat = number)
      (more : number < plan.decisive) :
      Fits plan worker called number .resting (.pausing attempt)
  | concluded (last : number = plan.decisive) :
      Fits plan worker called number .done (.finished (plan.conclusion worker.name number))
  | lost {begun : Bool} :
      Fits plan worker called number (.dropped begun) (.finished (.error (.executor worker.loss)))
  | refused (stopping : worker.stopping = true) :
      Fits plan worker called number .unsent (.finished (.error (.executor worker.refusal)))
  /-- The run was called off, or dropped by its scheduler. -/
  | cut {leg : Leg} (told : called = true) :
      Fits plan worker called number leg (.finished (.error .cancelled))

/-- Whether there is anything that can cut a run. -/
def isCalled (pursuit : Pursuit α ε) : Bool := pursuit.calledOff || pursuit.halted

/-- A run has made so many attempts that settled nothing, and the next one has come so far. -/
structure Stands (plan : Plan α ε) (count : Nat) (leg : Leg) (pursuit : Pursuit α ε) : Prop where
  within : count < plan.decisive
  log : pursuit.log = plan.story count ++ leg.seen plan (count + 1)
  handed : pursuit.handed = if leg = .unsent then count else count + 1
  lies : Lies pursuit.worker (count + 1) leg
  mail : leg.Answered plan (count + 1) pursuit.mail
  told : ∀ begun, leg = .dropped begun → pursuit.worker.stopping = true
  fits : Fits plan pursuit.worker pursuit.isCalled (count + 1) leg pursuit.run

variable {plan : Plan α ε} {worker worker' : Worker Piece Piece} {count number : Nat} {leg : Leg}
  {run : Run α ε} {called called' : Bool} {pursuit : Pursuit α ε}

/-! ### What the run does -/

namespace Fits

/-- A run keeps to its leg whatever others do to the worker, as long as the worker keeps its name
and is not told to go on again. -/
theorem mono (h : Fits plan worker called number leg run) (hname : worker'.name = worker.name)
    (hstopping : worker.stopping = true → worker'.stopping = true)
    (hcalled : called = true → called' = true) : Fits plan worker' called' number leg run := by
  cases h with
  | submitting counted => exact .submitting counted
  | attempting sent unrested counted => exact .attempting sent unrested counted
  | pausing counted more => exact .pausing counted more
  | concluded last => exact hname ▸ .concluded last
  | lost =>
    have hloss : worker'.loss = worker.loss := by simp [Worker.loss, hname]
    exact hloss ▸ .lost
  | refused stopping =>
    have hrefusal : worker'.refusal = worker.refusal := by simp [Worker.refusal, hname]
    exact hrefusal ▸ .refused (hstopping stopping)
  | cut told => exact .cut (hcalled told)

/-- A run may be cut on every leg. -/
theorem cancel (h : Fits plan worker called number leg run) (hcalled : called = true) :
    Fits plan worker called number leg run.cancel := by
  cases h with
  | concluded last => exact .concluded last
  | lost => exact .lost
  | refused stopping => exact .refused stopping
  | cut told => exact .cut told
  | _ => exact .cut hcalled

/-- While an attempt is on its way, and not at an end, its run waits for it or was cut. -/
theorem move {leg' : Leg} (h : Fits plan worker called number leg run)
    (way : leg = .queued ∨ leg = .running ∨ leg = .alive) (sent : leg' ≠ .unsent)
    (unrested : leg' ≠ .resting) : Fits plan worker called number leg' run := by
  cases h with
  | attempting _ _ counted => exact .attempting sent unrested counted
  | cut told => exact .cut told
  | _ => simp at way

end Fits

/-! ### Where an attempt lies -/

namespace Lies

theorem held (h : Lies worker number leg) :
    held worker = if leg = .queued ∨ leg = .alive then [number] else [] := by
  rw [Pursuit.held, List.filterMap_append, h.queue, h.tasks]
  cases leg <;> simp [Piece.number?]

theorem stop (h : Lies worker number leg) : Lies worker.stop number leg :=
  ⟨h.queue, h.job, h.tasks, fun _ => rfl⟩

/-- The hand-over of somebody else's job. -/
theorem accept_other (h : Lies worker number leg) (taken : worker.accept .other = some worker') :
    Lies worker' number leg := by
  obtain ⟨alive, rfl⟩ := Worker.accept_eq_some.mp taken
  refine ⟨?_, h.job, h.tasks, fun exited => absurd exited alive⟩
  rw [List.filterMap_append, h.queue]
  exact List.append_nil _

/-- The hand-over of an attempt. -/
theorem accept_attempt (h : Lies worker number .unsent)
    (taken : worker.accept (.attempt number) = some worker') : Lies worker' number .queued := by
  obtain ⟨alive, rfl⟩ := Worker.accept_eq_some.mp taken
  refine ⟨?_, h.job, h.tasks, fun exited => absurd exited alive⟩
  rw [List.filterMap_append, h.queue]
  rfl

/-- Where no attempt is on the worker, it is that of every number. -/
theorem renumber {leg' : Leg} (h : Lies worker number leg)
    (gone : leg ≠ .queued ∧ leg ≠ .running ∧ leg ≠ .alive)
    (gone' : leg' ≠ .queued ∧ leg' ≠ .running ∧ leg' ≠ .alive) (other : Nat) :
    Lies worker other leg' := by
  obtain ⟨queue, job, tasks, exited⟩ := h
  rw [if_neg gone.1] at queue
  rw [if_neg gone.2.1] at job
  rw [if_neg gone.2.2] at tasks
  exact ⟨by rw [queue, if_neg gone'.1], by rw [job, if_neg gone'.2.1],
    by rw [tasks, if_neg gone'.2.2], exited⟩

end Lies

/-! ### The worker moves -/

/-- A look that drops nothing concerns the worker alone. -/
theorem look_of_held_eq {pursuit : Pursuit α ε}
    (h : held pursuit.worker.look = held pursuit.worker) :
    pursuit.look = { pursuit with worker := pursuit.worker.look } := by
  have hnobody : (held pursuit.worker).filter (· ∉ held pursuit.worker) = [] := by
    simp [List.filter_eq_nil_iff]
  rw [look, h, hnobody]
  rfl

/-- A look either ends the thread, and then nothing is left on the worker, or changes nothing that
lies there. -/
theorem look_cases (worker : Worker Piece Piece) :
    (worker.stopping = true ∧
      worker.look = { worker with phase := .exited, queue := [], tasks := [] } ∧
      worker.job? = none) ∨
    (worker.look.queue = worker.queue ∧ worker.look.tasks = worker.tasks ∧
      worker.look.job? = worker.job? ∧ (worker.look.phase = .exited → worker.phase = .exited)) := by
  cases hphase : worker.phase with
  | ready =>
    cases hstopping : worker.stopping with
    | true =>
      exact .inl ⟨rfl, by simp [Worker.look, hphase, hstopping], by simp [Worker.job?, hphase]⟩
    | false => exact .inr (by simp [Worker.look, hphase, hstopping, Worker.job?])
  | picking | running | exited => exact .inr (by simp [Worker.look, hphase])

/-- A worker takes the first job of its queue, or takes nothing. -/
theorem pick_cases (worker : Worker Piece Piece) :
    (∃ job queue, worker.queue = job :: queue ∧
      worker.pick = { worker with phase := .running job, queue }) ∨
    (worker.pick.queue = worker.queue ∧ worker.pick.tasks = worker.tasks ∧
      worker.pick.job? = worker.job? ∧ (worker.pick.phase = .exited → worker.phase = .exited)) := by
  cases hphase : worker.phase with
  | picking =>
    cases hqueue : worker.queue with
    | nil => exact .inr (by simp [Worker.pick, hphase, hqueue, Worker.job?])
    | cons job queue => exact .inl ⟨job, queue, rfl, by simp [Worker.pick, hphase, hqueue]⟩
  | ready | running | exited => exact .inr (by simp [Worker.pick, hphase])

namespace Lies

/-- What changes nothing on the worker leaves an attempt where it is. -/
theorem congr (h : Lies worker number leg) (hqueue : worker'.queue = worker.queue)
    (htasks : worker'.tasks = worker.tasks) (hjob : worker'.job? = worker.job?)
    (hstopping : worker'.stopping = worker.stopping)
    (hexited : worker'.phase = .exited → worker.phase = .exited) : Lies worker' number leg :=
  ⟨by rw [hqueue, h.queue], by rw [hjob, h.job], by rw [htasks, h.tasks],
    fun exited => by rw [hstopping]; exact h.exited (hexited exited)⟩

end Lies

namespace Stands

/-- What is done on the worker leaves the run on its leg, if it leaves the attempt there. -/
theorem onWorker (h : Stands plan count leg pursuit) (lies : Lies worker' (count + 1) leg)
    (hname : worker'.name = pursuit.worker.name)
    (hstopping : pursuit.worker.stopping = true → worker'.stopping = true) :
    Stands plan count leg { pursuit with worker := worker' } :=
  { h with
    lies
    told := fun begun hleg => hstopping (h.told begun hleg)
    fits := h.fits.mono hname hstopping id }

/-- What has come of an attempt is delivered. -/
theorem deliver {leg' : Leg} {delivery : Run.Delivery α ε} {notices : List Notice}
    (h : Stands plan count leg pursuit) (way : leg = .queued ∨ leg = .running ∨ leg = .alive)
    (sent : leg' ≠ .unsent) (unrested : leg' ≠ .resting)
    (hseen : leg'.seen plan (count + 1) =
      leg.seen plan (count + 1) ++ [.delivered (count + 1) delivery])
    (answered : leg'.Answered plan (count + 1) (some delivery))
    (lies : Lies worker' (count + 1) leg') (hname : worker'.name = pursuit.worker.name)
    (hstopping : pursuit.worker.stopping = true → worker'.stopping = true)
    (htold : ∀ begun, leg' = .dropped begun → pursuit.worker.stopping = true) :
    Stands plan count leg'
      ({ pursuit with worker := worker', notices }.deliver (count + 1) delivery) := by
  have hhanded : pursuit.handed = count + 1 := by
    rw [h.handed, if_neg]
    rintro rfl
    simp at way
  exact {
    within := h.within
    log := by
      simp only [Pursuit.deliver, h.log, hseen, List.append_assoc]
    handed := by simp [Pursuit.deliver, hhanded, sent]
    lies
    mail := by simpa [Pursuit.deliver, hhanded] using answered
    told := fun begun hleg => hstopping (htold begun hleg)
    fits := (h.fits.move way sent unrested).mono hname hstopping id }

/-- The look of the worker. An attempt that was handed over may be dropped. -/
theorem look (h : Stands plan count leg pursuit) :
    ∃ leg', Leg.Works pursuit.worker.stopping leg leg' ∧
      Stands plan count leg' pursuit.look := by
  have hname := Worker.look_name pursuit.worker
  have hkeeps : pursuit.worker.stopping = true → pursuit.worker.look.stopping = true := by simp
  have hheld := h.lies.held
  -- a look ends the thread, or changes nothing that lies there
  rcases look_cases pursuit.worker with ⟨told, hlook, hidle⟩ | ⟨hqueue, htasks, hjob, hexited⟩
  · have hnone : held pursuit.worker.look = [] := by rw [hlook]; rfl
    have hleft : ∀ leg' : Leg, leg' ≠ .queued → leg' ≠ .running → leg' ≠ .alive →
        Lies pursuit.worker.look (count + 1) leg' := by
      intro leg' hq hr ha
      rw [hlook]
      exact ⟨by simp [hq], by simp [hr, Worker.job?], by simp [ha], fun _ => told⟩
    simp only [Pursuit.look, hnone, hheld]
    -- exactly the attempts that are in the queue or among the tasks are lost
    cases leg with
    | queued =>
      refine ⟨.dropped false, .ignored told, ?_⟩
      exact h.deliver (.inl rfl) (by simp) (by simp) rfl rfl
        (hleft _ (by simp) (by simp) (by simp)) hname hkeeps fun _ _ => told
    | alive =>
      refine ⟨.dropped true, .abandoned told, ?_⟩
      exact h.deliver (.inr (.inr rfl)) (by simp) (by simp) rfl rfl
        (hleft _ (by simp) (by simp) (by simp)) hname hkeeps fun _ _ => told
    | running =>
      have hjob := h.lies.job
      simp [hidle] at hjob
    | _ =>
      refine ⟨_, .same, ?_⟩
      exact h.onWorker (hleft _ (by simp) (by simp) (by simp)) hname hkeeps
  · have hsame : held pursuit.worker.look = held pursuit.worker := by
      rw [held, held, hqueue, htasks]
    refine ⟨leg, .same, ?_⟩
    rw [look_of_held_eq hsame]
    exact h.onWorker
      (h.lies.congr hqueue htasks hjob (Worker.look_stopping _) hexited) hname hkeeps

/-- The worker takes its next job, which may be an attempt. -/
theorem pick (h : Stands plan count leg pursuit) (idle : pursuit.worker.job? = none) :
    ∃ leg', Leg.Works pursuit.worker.stopping leg leg' ∧
      Stands plan count leg' pursuit.pick := by
  have hname := Worker.pick_name pursuit.worker
  have hkeeps : pursuit.worker.stopping = true → pursuit.worker.pick.stopping = true := by simp
  rcases pick_cases pursuit.worker with
    ⟨job, queue, hqueue, hpick⟩ | ⟨hqueue, htasks, hjob, hexited⟩
  · have hwaits := h.lies.queue
    rw [hqueue] at hwaits
    have hrun : leg ≠ .running := by
      rintro rfl
      have hjob := h.lies.job
      simp [idle] at hjob
    cases job with
    | attempt number =>
      -- the only attempt in the queue is the one that was handed over
      have hleg : leg = .queued := by
        by_contra hleg
        simp [hleg, Piece.number?] at hwaits
      subst hleg
      simp only [Piece.number?, if_true, List.filterMap_cons, List.cons.injEq] at hwaits
      obtain ⟨rfl, hrest⟩ := hwaits
      refine ⟨.running, .taken, ?_⟩
      exact {
        within := h.within
        log := by simp [Pursuit.pick, hpick, Worker.job?, Piece.number?, h.log, Leg.seen]
        handed := h.handed
        lies := by
          simp only [Pursuit.pick, hpick]
          exact ⟨by simpa using hrest, by simp [Worker.job?, Piece.number?],
            by simpa using h.lies.tasks, by simp⟩
        mail := h.mail
        told := by simp
        fits := (h.fits.move (.inl rfl) (by simp) (by simp)).mono hname hkeeps id }
    | other =>
      refine ⟨leg, .same, ?_⟩
      exact {
        within := h.within
        log := by simpa [Pursuit.pick, hpick, Worker.job?, Piece.number?] using h.log
        handed := h.handed
        lies := by
          simp only [Pursuit.pick, hpick]
          exact ⟨hwaits, by simp [Worker.job?, Piece.number?, hrun],
            h.lies.tasks, by simp⟩
        mail := h.mail
        told := fun begun hleg => hkeeps (h.told begun hleg)
        fits := h.fits.mono hname hkeeps id }
  · refine ⟨leg, .same, ?_⟩
    exact {
      within := h.within
      log := by simpa [Pursuit.pick, hjob, idle] using h.log
      handed := h.handed
      lies := h.lies.congr hqueue htasks hjob (Worker.pick_stopping _) hexited
      mail := h.mail
      told := fun begun hleg => hkeeps (h.told begun hleg)
      fits := h.fits.mono hname hkeeps id }

/-- The end of the job that runs. An attempt breaks off, or leaves its task behind. -/
theorem finish (h : Stands plan count leg pursuit) :
    ∃ leg', Leg.Works pursuit.worker.stopping leg leg' ∧ leg' ≠ .running ∧
      Stands plan count leg' (pursuit.finish plan) := by
  have hname := Worker.finish_name pursuit.worker
  have hkeeps : pursuit.worker.stopping = true → pursuit.worker.finish.stopping = true := by simp
  have hready : ∀ job, pursuit.worker.job? = some job →
      pursuit.worker.finish = { pursuit.worker with phase := .ready } := by
    intro job hjob
    simp [Worker.finish, Worker.job?_eq_some.mp hjob]
  have hat := h.lies.job
  cases hjob : pursuit.worker.job? with
  | none =>
    have hsame : pursuit.worker.finish = pursuit.worker := by
      unfold Worker.job? at hjob
      unfold Worker.finish
      split at hjob <;> simp_all
    have hrun : leg ≠ .running := by
      rintro rfl
      simp [hjob] at hat
    refine ⟨leg, .same, hrun, ?_⟩
    simp only [Pursuit.finish, hjob, hsame]
    exact h
  | some job =>
    rw [hjob] at hat
    cases job with
    | other =>
      have hrun : leg ≠ .running := by
        rintro rfl
        simp [Piece.number?] at hat
      refine ⟨leg, .same, hrun, ?_⟩
      simp only [Pursuit.finish, hjob]
      refine h.onWorker ?_ hname hkeeps
      rw [hready _ hjob]
      exact ⟨h.lies.queue, by simp [Worker.job?, hrun], h.lies.tasks, by simp⟩
    | attempt number =>
      obtain ⟨rfl, rfl⟩ : leg = .running ∧ number = count + 1 := by
        by_cases hleg : leg = .running
        · simpa [hleg, Piece.number?] using hat
        · simp [hleg, Piece.number?] at hat
      have hleft : ∀ leg' : Leg, leg' ≠ .queued → leg' ≠ .running → leg' ≠ .alive →
          Lies pursuit.worker.finish (count + 1) leg' := by
        intro leg' hq hr ha
        rw [hready _ hjob]
        exact ⟨by simpa [hq] using h.lies.queue, by simp [hr, Worker.job?],
          by simpa [ha] using h.lies.tasks, by simp⟩
      -- the task is left behind unless the attempt breaks off before
      have hleaves : Stands plan count .alive
          { pursuit with worker := pursuit.worker.finish.begin (.attempt (count + 1)) } := by
        obtain ⟨hqueue, hidle, htasks, hexited⟩ :=
          hleft .done (by simp) (by simp) (by simp)
        exact {
          within := h.within
          log := h.log
          handed := h.handed
          lies := ⟨hqueue, hidle, by simpa [Worker.begin] using htasks, hexited⟩
          mail := h.mail
          told := by simp
          fits := (h.fits.move (.inr (.inl rfl)) (by simp) (by simp)).mono hname hkeeps id }
      simp only [Pursuit.finish, hjob]
      cases hfate : plan.fate (count + 1) with
      | breaksAtOnce =>
        refine ⟨.done, .brokeOff, by simp, ?_⟩
        have hlost : plan.delivery (count + 1) = .lost := by simp [Plan.delivery, hfate]
        refine h.deliver (.inr (.inl rfl)) (by simp) (by simp) ?_ ?_
          (hleft _ (by simp) (by simp) (by simp)) hname hkeeps (by simp)
        · simp [Leg.seen, Plan.trial, hlost]
        · simp [Leg.Answered, hlost]
      | value | failure | breaksLater => exact ⟨.alive, .left, by simp, hleaves⟩

/-- The end of the task of an attempt. -/
theorem settle (h : Stands plan count leg pursuit)
    (mem : .attempt number ∈ pursuit.worker.tasks) :
    Leg.Works pursuit.worker.stopping leg .done ∧
      Stands plan count .done (pursuit.settle plan number) := by
  obtain ⟨rfl, rfl⟩ : leg = .alive ∧ number = count + 1 := by
    rw [h.lies.tasks] at mem
    by_cases hleg : leg = .alive
    · simpa [hleg] using mem
    · simp [hleg] at mem
  refine ⟨.ended, ?_⟩
  have htasks := h.lies.tasks
  refine h.deliver (.inr (.inr rfl)) (by simp) (by simp) rfl rfl ?_ rfl id (by simp)
  exact ⟨h.lies.queue, h.lies.job, by simp [Worker.settle, htasks], h.lies.exited⟩

/-! ### The run moves -/

/-- A run that has been called off, or whose scheduler was told to stop, is cut. -/
theorem cut (h : Stands plan count leg pursuit) (hcalled : pursuit.isCalled = true) :
    Stands plan count leg pursuit.cut :=
  { h with fits := h.fits.cancel hcalled }

/-- A run that has to wait is cut if it was called off. -/
theorem rest (h : Stands plan count leg pursuit) : Stands plan count leg pursuit.rest := by
  have hturn : Stands plan count leg { pursuit with hasTurn := false } := { h with }
  unfold Pursuit.rest
  split
  · rename_i hcalled
    exact hturn.cut (by simp [isCalled, hcalled])
  · exact hturn

/-- A run that is about to hand an attempt over has handed over those before it. -/
theorem of_submitting {attempt : UInt32} (h : Stands plan count leg pursuit)
    (hrun : pursuit.run = .submitting attempt) :
    leg = .unsent ∧ attempt.toNat = count + 1 ∧ pursuit.handed = count := by
  have hfits := h.fits
  have hhanded := h.handed
  rw [hrun] at hfits
  cases hfits with
  | submitting counted => exact ⟨rfl, counted, hhanded⟩

/-- The next attempt is handed over. -/
theorem sent {attempt : UInt32} (h : Stands plan count leg pursuit)
    (hrun : pursuit.run = .submitting attempt) (hcleared : pursuit.isCleared = true)
    (alive : pursuit.worker.phase ≠ .exited) : Stands plan count .queued pursuit.handOver := by
  obtain ⟨rfl, counted, hhanded⟩ := h.of_submitting hrun
  have taken : pursuit.worker.accept (.attempt (count + 1)) = some _ :=
    Worker.accept_eq_some.mpr ⟨alive, rfl⟩
  simp only [Pursuit.handOver, hcleared, if_true, hhanded, taken]
  exact {
    within := h.within
    log := by simp [h.log, Leg.seen]
    handed := by simp
    lies := h.lies.accept_attempt taken
    mail := rfl
    told := by simp
    fits := by
      rw [hrun]
      exact .attempting (by simp) (by simp) counted }

/-- The next attempt is handed over, or refused. -/
theorem handOver {attempt : UInt32} (h : Stands plan count leg pursuit)
    (hrun : pursuit.run = .submitting attempt) :
    ∃ leg', Leg.Next plan pursuit.worker.stopping count leg count leg' ∧
      Stands plan count leg' pursuit.handOver := by
  obtain ⟨rfl, -, -⟩ := h.of_submitting hrun
  have hrefused (told : pursuit.worker.stopping = true) : Stands plan count .unsent
      { pursuit with
        run := pursuit.run.handOver (some pursuit.worker.refusal)
        hasTurn := false } :=
    { h with fits := by rw [hrun]; exact .refused told }
  by_cases hcleared : pursuit.isCleared = true
  · by_cases hexited : pursuit.worker.phase = .exited
    · simp only [Pursuit.handOver, if_pos hcleared, Worker.accept_eq_none.mpr hexited]
      exact ⟨.unsent, .works .same, hrefused (h.lies.exited hexited)⟩
    · exact ⟨.queued, .sent, h.sent hrun hcleared hexited⟩
  · rw [Pursuit.handOver, if_neg hcleared]
    split
    · exact ⟨.unsent, .works .same, { h with }⟩
    · rename_i hadmits
      exact ⟨.unsent, .works .same, hrefused (by simpa [Worker.admits] using hadmits)⟩

/-- A run that waits for its attempt has handed it over. -/
theorem of_attempting {attempt : UInt32} (h : Stands plan count leg pursuit)
    (hrun : pursuit.run = .attempting attempt) :
    leg ≠ .unsent ∧ leg ≠ .resting ∧ attempt.toNat = count + 1 ∧ pursuit.handed = count + 1 := by
  have hfits := h.fits
  rw [hrun] at hfits
  cases hfits with
  | attempting sent unrested counted =>
    exact ⟨sent, unrested, counted, by rw [h.handed, if_neg sent]⟩

/-- What has come of the attempt is taken in. The run comes to its end, or rests. -/
theorem receive {attempt : UInt32} {delivery : Run.Delivery α ε}
    (h : Stands plan count leg pursuit) (hrun : pursuit.run = .attempting attempt)
    (hmail : pursuit.mail = some delivery) :
    (pursuit.receive plan delivery).result?.isSome = true ∧
        Stands plan count leg (pursuit.receive plan delivery) ∨
      leg = .done ∧ count + 1 < plan.decisive ∧
        Stands plan count .resting (pursuit.receive plan delivery) := by
  obtain ⟨sent, unrested, counted, hhanded⟩ := h.of_attempting hrun
  have hanswered := h.mail
  rw [hmail] at hanswered
  -- an outcome has come only of an attempt that was dropped or is over
  cases leg with
  | unsent => exact absurd rfl sent
  | resting => exact absurd rfl unrested
  | queued | running | alive => simp [Leg.Answered] at hanswered
  | dropped begun =>
    obtain rfl : delivery = .lost := by simpa [Leg.Answered] using hanswered
    left
    simp only [Pursuit.receive, hrun, Run.receive, Run.result?, result?]
    refine ⟨rfl, ?_⟩
    exact {
      within := h.within
      log := by simpa using h.log
      handed := h.handed
      lies := h.lies
      mail := h.mail
      told := h.told
      fits := .lost }
  | done =>
    obtain rfl : delivery = plan.delivery (count + 1) := by
      simpa [Leg.Answered] using hanswered
    have hreceive := plan.receive_delivery pursuit.worker.name counted
      (Nat.le_add_left 1 count) h.within
    simp only [Pursuit.receive, hrun, result?]
    by_cases hlast : count + 1 = plan.decisive
    · left
      rw [if_pos hlast] at hreceive
      simp only [hreceive, Run.result?]
      refine ⟨rfl, ?_⟩
      exact {
        within := h.within
        log := by simpa using h.log
        handed := h.handed
        lies := h.lies
        mail := h.mail
        told := by simp
        fits := .concluded hlast }
    · have hmore : count + 1 < plan.decisive := by
        have := h.within
        omega
      right
      rw [if_neg hlast] at hreceive
      simp only [hreceive, Run.result?]
      refine ⟨trivial, hmore, ?_⟩
      exact {
        within := h.within
        log := by simp [h.log, Leg.seen]
        handed := by simp [hhanded]
        lies := h.lies.renumber (by simp) (by simp) _
        mail := trivial
        told := by simp
        fits := .pausing counted hmore }

/-- The delay is over, and the next attempt is due. -/
theorem wake {attempt : UInt32} (h : Stands plan count leg pursuit)
    (hrun : pursuit.run = .pausing attempt) :
    leg = .resting ∧ Stands plan (count + 1) .unsent
      { pursuit with
        run := pursuit.run.wake
        isDue := false
        log := pursuit.log ++ [.rested] } := by
  have hfits := h.fits
  rw [hrun] at hfits
  cases hfits with
  | pausing counted more =>
    have hnext : (attempt + 1).toNat = count + 1 + 1 := by
      have hlt : attempt.toNat < plan.most := by
        have := plan.decisive_le
        omega
      rw [Run.toNat_succ hlt plan.most_lt, counted]
    refine ⟨rfl, ?_⟩
    exact {
      within := more
      log := by simp [h.log, Leg.seen, plan.story_succ]
      handed := by simpa using h.handed
      lies := h.lies.renumber (by simp) (by simp) _
      mail := trivial
      told := by simp
      fits := by
        rw [hrun]
        exact .submitting hnext }

/-- The next step of the run. -/
theorem proceed (h : Stands plan count leg pursuit) :
    ∃ count' leg', Leg.Next plan pursuit.worker.stopping count leg count' leg' ∧
      Stands plan count' leg' (pursuit.proceed plan) := by
  unfold Pursuit.proceed
  split
  · rename_i attempt hrun
    exact ⟨count, h.handOver hrun⟩
  · rename_i attempt hrun
    split
    · rename_i delivery hmail
      rcases h.receive hrun hmail with ⟨-, h'⟩ | ⟨rfl, more, h'⟩
      · exact ⟨count, leg, .works .same, h'⟩
      · exact ⟨count, .resting, .rests more, h'⟩
    · exact ⟨count, leg, .works .same, h.rest⟩
  · rename_i attempt hrun
    split
    · obtain ⟨rfl, h'⟩ := h.wake hrun
      exact ⟨count + 1, .unsent, .rested, h'⟩
    · exact ⟨count, leg, .works .same, h.rest⟩
  · exact ⟨count, leg, .works .same, h⟩

/-- A move of the worker, or on it, leads an attempt further on its way, or leaves it where it
is. -/
theorem stepAside {move : Move} (h : Stands plan count leg pursuit) (haside : move.isAside = true) :
    ∃ leg', Leg.Works pursuit.worker.stopping leg leg' ∧
      Stands plan count leg' (pursuit.step plan move) := by
  cases move with
  | look => exact h.look
  | pick =>
    simp only [Pursuit.step]
    split
    · exact ⟨leg, .same, h⟩
    · rename_i hidle
      exact h.pick (by simpa using hidle)
  | finish =>
    obtain ⟨leg', hworks, -, h'⟩ := h.finish
    exact ⟨leg', hworks, h'⟩
  | settle number =>
    simp only [Pursuit.step]
    split
    · rename_i hsettles
      exact ⟨.done, h.settle hsettles.2⟩
    · exact ⟨leg, .same, h⟩
  | enqueue =>
    refine ⟨leg, .same, ?_⟩
    simp only [Pursuit.step]
    cases taken : pursuit.worker.accept .other with
    | none => exact h
    | some worker' =>
      obtain ⟨-, rfl⟩ := Worker.accept_eq_some.mp taken
      exact h.onWorker (h.lies.accept_other taken) rfl id
  | stop => exact ⟨leg, .same, h.onWorker h.lies.stop rfl fun _ => rfl⟩
  | _ => simp [Move.isAside] at haside

/-- Every move leads a run further on its way, or leaves it where it is. -/
theorem step (h : Stands plan count leg pursuit) (move : Move) :
    ∃ count' leg', Leg.Next plan pursuit.worker.stopping count leg count' leg' ∧
      Stands plan count' leg' (pursuit.step plan move) := by
  by_cases haside : move.isAside = true
  · obtain ⟨leg', hworks, h'⟩ := h.stepAside haside
    exact ⟨count, leg', .works hworks, h'⟩
  · cases move with
    | turn =>
      refine ⟨count, leg, .works .same, ?_⟩
      simp only [Pursuit.step]
      split
      · exact h
      · split
        · rename_i hcalled
          exact h.cut (by simp [isCalled, hcalled])
        · exact { h with }
    | proceed =>
      simp only [Pursuit.step]
      split
      · exact h.proceed
      · exact ⟨count, leg, .works .same, h⟩
    | elapse =>
      refine ⟨count, leg, .works .same, ?_⟩
      simp only [Pursuit.step]
      split
      · exact { h with }
      · exact h
    | abandon =>
      refine ⟨count, leg, .works .same, ?_⟩
      simp only [Pursuit.step]
      split
      · rename_i hhalted
        rw [Bool.and_eq_true] at hhalted
        exact h.cut (by simp [isCalled, hhalted.1])
      · exact h
    | cancel | halt =>
      exact ⟨count, leg, .works .same, { h with
        fits := h.fits.mono rfl id (by simp +contextual [isCalled, Pursuit.step]) }⟩
    | _ => simp [Move.isAside] at haside

/-- A run that has just been begun. -/
theorem opened (plan : Plan α ε) (name : String) :
    Stands plan 0 .unsent (Pursuit.opened name : Pursuit α ε) where
  within := plan.decisive_pos
  log := rfl
  handed := rfl
  lies := ⟨rfl, rfl, rfl, by simp [Pursuit.opened]⟩
  mail := trivial
  told := by simp
  fits := .submitting rfl

end Stands

/-- At every moment of every schedule a run stands somewhere. -/
theorem stands_after (plan : Plan α ε) (name : String) (schedule : Nat → Move) (n : Nat) :
    ∃ count leg, Stands plan count leg (after plan name schedule n) := by
  induction n with
  | zero => exact ⟨0, .unsent, .opened plan name⟩
  | succ n ih =>
    obtain ⟨count, leg, h⟩ := ih
    obtain ⟨count', leg', -, h'⟩ := h.step (schedule n)
    exact ⟨count', leg', h'⟩

end Tenure.Pursuit
