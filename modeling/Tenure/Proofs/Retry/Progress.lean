import Tenure.Proofs.Retry.Ending

/-!
# A run that is attended to comes to its end

Where nobody calls a run off, and neither the worker nor the scheduler is told to stop, the run gets
on as long as everyone who has something to do for it does so again and again: the scheduler gives
it turns, the run takes its steps, the delays pass, and the worker looks, takes jobs and brings them
and the tasks of the attempts to their end. Others may hand jobs to the worker without end; an
attempt waits only for those that were there before.

## Main definitions

* `Pursuit.Attended` — the schedules under which everyone does what is to be done
* `Pursuit.Leads` — one thing leads to another, sooner or later

## Main results

* `Pursuit.leads_of_move` — what is kept until a move that comes again and again
* `Pursuit.Attended.comes_to_end` — the run comes to something
-/

namespace Tenure.Pursuit

variable {α ε : Type} {plan : Plan α ε} {name : String} {schedule : Nat → Move} {move : Move}
  {pursuit : Pursuit α ε} {count n : Nat} {leg : Leg}

/-! ### Leading -/

/-- Whenever one thing is the case, another one is then or later. -/
def Leads (P Q : Nat → Prop) : Prop := ∀ n, P n → ∃ k, n ≤ k ∧ Q k

section

variable {P Q R : Nat → Prop}

theorem Leads.of_imp (h : ∀ n, P n → Q n) : Leads P Q := fun n hp => ⟨n, Nat.le_refl n, h n hp⟩

theorem Leads.trans (h : Leads P Q) (h' : Leads Q R) : Leads P R := by
  intro n hp
  obtain ⟨k, hk, hq⟩ := h n hp
  obtain ⟨l, hl, hr⟩ := h' k hq
  exact ⟨l, Nat.le_trans hk hl, hr⟩

theorem Leads.or (h : Leads P R) (h' : Leads Q R) : Leads (fun n => P n ∨ Q n) R := by
  rintro n (hp | hq)
  · exact h n hp
  · exact h' n hq

/-- What is kept until something comes of it leads there if it cannot be kept for ever. -/
theorem leads_of_persists (keeps : ∀ n, P n → P (n + 1) ∨ Q (n + 1))
    (ends : ∀ n, (∀ k, n ≤ k → P k) → ∃ k, n ≤ k ∧ Q k) : Leads P Q := by
  intro n hp
  by_contra hnever
  refine hnever (ends n fun k hk => ?_)
  induction k, hk using Nat.le_induction with
  | base => exact hp
  | succ k hk ih => exact (keeps k ih).resolve_right fun hq => hnever ⟨k + 1, by omega, hq⟩

/-- What is kept until a move leads to what the move makes of it, if the move comes again and
again. -/
theorem leads_of_move (comes : ∀ n, ∃ k, n ≤ k ∧ schedule k = move)
    (keeps : ∀ n, P n → P (n + 1) ∨ Q (n + 1))
    (helps : ∀ n, P n → schedule n = move → Q (n + 1)) : Leads P Q := by
  refine leads_of_persists keeps fun n hp => ?_
  obtain ⟨k, hk, hmove⟩ := comes n
  exact ⟨k + 1, by omega, helps k (hp k hk) hmove⟩

end

/-! ### Schedules under which everyone does what is to be done -/

/-- The moves that bring a run forward, but for the ends of its tasks. -/
def chores : List Move := [.turn, .proceed, .elapse, .look, .pick, .finish]

/-- Nobody calls the run off, nobody is told to stop, and everyone does what is to be done again and
again. A task that is alive comes to its end at some moment between two jobs. -/
structure Attended (plan : Plan α ε) (name : String) (schedule : Nat → Move) : Prop where
  uncancelled : ∀ n, schedule n ≠ .cancel
  unhalted : ∀ n, schedule n ≠ .halt
  unstopped : ∀ n, schedule n ≠ .stop
  comes : ∀ move ∈ chores, ∀ n, ∃ k, n ≤ k ∧ schedule k = move
  settles : ∀ n number,
    (∀ k, n ≤ k → .attempt number ∈ (after plan name schedule k).worker.tasks) →
    ∃ k, n ≤ k ∧ schedule k = .settle number ∧
      (after plan name schedule k).worker.phase = .ready

/-- A run stands somewhere at some moment of a schedule. -/
abbrev StandsAt (plan : Plan α ε) (name : String) (schedule : Nat → Move) (count : Nat) (leg : Leg)
    (n : Nat) : Prop :=
  Stands plan count leg (after plan name schedule n)

namespace Attended

theorem calledOff (h : Attended plan name schedule) (n : Nat) :
    (after plan name schedule n).calledOff = false := by
  rw [← Bool.not_eq_true, calledOff_after]
  rintro ⟨k, -, hmove⟩
  exact h.uncancelled k hmove

theorem halted (h : Attended plan name schedule) (n : Nat) :
    (after plan name schedule n).halted = false := by
  rw [← Bool.not_eq_true, halted_after]
  rintro ⟨k, -, hmove⟩
  exact h.unhalted k hmove

theorem stopping (h : Attended plan name schedule) (n : Nat) :
    (after plan name schedule n).worker.stopping = false := by
  rw [← Bool.not_eq_true, stopping_after]
  rintro ⟨k, -, hmove⟩
  exact h.unstopped k hmove

theorem isCalled (h : Attended plan name schedule) (n : Nat) :
    (after plan name schedule n).isCalled = false := by
  rw [Pursuit.isCalled, h.calledOff, h.halted, Bool.or_false]

end Attended

/-! ### The steps of the run -/

/-- A run that has something to do itself is left where it is by everyone else. -/
theorem Stands.unmoved (h : Stands plan count leg pursuit)
    (away : leg = .unsent ∨ leg = .done ∨ leg = .resting) (hcalled : pursuit.calledOff = false)
    (hhalted : pursuit.halted = false) (hproceed : move ≠ .proceed) (hcancel : move ≠ .cancel)
    (hhalt : move ≠ .halt) :
    Stands plan count leg (pursuit.step plan move) ∧
      (pursuit.step plan move).run = pursuit.run ∧
      (pursuit.step plan move).isCleared = pursuit.isCleared ∧
      (pursuit.isDue = true → (pursuit.step plan move).isDue = true) := by
  by_cases haside : move.isAside = true
  · have hstep := Aside.step plan pursuit haside
    obtain ⟨leg', hworks, h'⟩ := h.stepAside haside
    obtain rfl : leg' = leg := by cases hworks <;> simp_all
    refine ⟨h', hstep.run, ?_, ?_⟩
    · rw [hstep.frame]
    · rw [hstep.frame]
      exact id
  · cases move with
    | turn =>
      simp only [Pursuit.step]
      split
      · exact ⟨h, rfl, rfl, id⟩
      · rw [if_neg (by simp [hcalled])]
        exact ⟨{ h with }, rfl, rfl, id⟩
    | elapse =>
      simp only [Pursuit.step]
      split
      · exact ⟨{ h with }, rfl, rfl, fun _ => rfl⟩
      · exact ⟨h, rfl, rfl, id⟩
    | abandon =>
      simp only [Pursuit.step, hhalted]
      exact ⟨h, rfl, rfl, id⟩
    | _ => simp_all [Move.isAside]

/-- A turn is over only by a step of the run. -/
theorem step_hasTurn (hturn : pursuit.hasTurn = true) (hproceed : move ≠ .proceed) :
    (pursuit.step plan move).hasTurn = true := by
  by_cases haside : move.isAside = true
  · exact (Aside.step plan pursuit haside).hasTurn.trans hturn
  · cases move with
    | turn | abandon => simp [step, hturn]
    | elapse =>
      simp only [step]
      split <;> exact hturn
    | cancel | halt => exact hturn
    | _ => simp_all [Move.isAside]

namespace Attended

/-- A run that has something to do gets a turn, and does it. -/
theorem leads_of_ready (h : Attended plan name schedule) {P Q : Pursuit α ε → Prop}
    (isOpen : ∀ n, P (after plan name schedule n) → (after plan name schedule n).result? = none)
    (keeps : ∀ n, P (after plan name schedule n) → schedule n ≠ .proceed →
      P (after plan name schedule (n + 1)))
    (helps : ∀ n, P (after plan name schedule n) → (after plan name schedule n).hasTurn = true →
      Q ((after plan name schedule n).proceed plan)) :
    Leads (fun n => P (after plan name schedule n)) fun n => Q (after plan name schedule n) := by
  -- the scheduler gives it a turn, which stays until the run has made its step
  have hwaits : Leads
      (fun n => P (after plan name schedule n) ∧ (after plan name schedule n).hasTurn = false)
      fun n => P (after plan name schedule n) ∧ (after plan name schedule n).hasTurn = true := by
    refine leads_of_move (h.comes .turn (by simp [chores])) (fun n hp => ?_) fun n hp hmove => ?_
    · by_cases hproceed : schedule n = .proceed
      · have hstep : after plan name schedule (n + 1) = after plan name schedule n := by
          simp [after, hproceed, step, hp.2]
        rw [hstep]
        exact .inl hp
      · have hkept := keeps n hp.1 hproceed
        cases hturn : (after plan name schedule (n + 1)).hasTurn with
        | true => exact .inr ⟨hkept, rfl⟩
        | false => exact .inl ⟨hkept, rfl⟩
    · refine ⟨keeps n hp.1 (by simp [hmove]), ?_⟩
      simp [after, hmove, step, hp.2, isOpen _ hp.1, h.calledOff]
  have hgoes : Leads
      (fun n => P (after plan name schedule n) ∧ (after plan name schedule n).hasTurn = true)
      fun n => Q (after plan name schedule n) := by
    have hstep (n : Nat) (hmove : schedule n = .proceed) (hp : P (after plan name schedule n) ∧
        (after plan name schedule n).hasTurn = true) : Q (after plan name schedule (n + 1)) := by
      simpa [after, hmove, step, hp.2] using helps n hp.1 hp.2
    refine leads_of_move (h.comes .proceed (by simp [chores])) (fun n hp => ?_)
      fun n hp hmove => hstep n hmove hp
    by_cases hproceed : schedule n = .proceed
    · exact .inr (hstep n hproceed hp)
    · exact .inl ⟨keeps n hp.1 hproceed, step_hasTurn hp.2 hproceed⟩
  intro n hp
  cases hturn : (after plan name schedule n).hasTurn with
  | true => exact hgoes n ⟨hp, hturn⟩
  | false => exact hwaits.trans hgoes n ⟨hp, hturn⟩

/-- What a run does where nobody interferes: it is about to hand its attempt over, waits for it,
rests after it, or has come to its own end. -/
theorem doing (h : Attended plan name schedule)
    (hstands : StandsAt plan name schedule count leg n) :
    match leg with
    | .unsent => ∃ attempt, (after plan name schedule n).run = .submitting attempt
    | .resting => ∃ attempt, (after plan name schedule n).run = .pausing attempt
    | .dropped _ => False
    | .done => (∃ attempt, (after plan name schedule n).run = .attempting attempt) ∨
        (after plan name schedule n).result?.isSome = true
    | _ => ∃ attempt, (after plan name schedule n).run = .attempting attempt := by
  have hfits := hstands.fits
  have htold := hstands.told
  rw [h.isCalled] at hfits
  simp only [h.stopping, Bool.false_eq_true, imp_false] at htold
  unfold result?
  generalize (after plan name schedule n).run = run at hfits ⊢
  -- nobody has told anyone to stop, so nothing was refused, dropped or cut
  cases hfits with
  | submitting counted | pausing counted more => exact ⟨_, rfl⟩
  | attempting sent unrested counted =>
    cases leg with
    | unsent => exact absurd rfl sent
    | resting => exact absurd rfl unrested
    | dropped begun => exact absurd rfl (htold begun)
    | done => exact .inl ⟨_, rfl⟩
    | _ => exact ⟨_, rfl⟩
  | concluded last => exact .inr rfl
  | lost => exact absurd rfl (htold _)
  | refused stopping => simp [h.stopping] at stopping
  | cut told => simp at told

/-- Nobody but the run moves a run that has something to do. -/
theorem unmoved (h : Attended plan name schedule)
    (hstands : StandsAt plan name schedule count leg n)
    (away : leg = .unsent ∨ leg = .done ∨ leg = .resting) (hproceed : schedule n ≠ .proceed) :
    StandsAt plan name schedule count leg (n + 1) ∧
      (after plan name schedule (n + 1)).run = (after plan name schedule n).run ∧
      (after plan name schedule (n + 1)).isCleared = (after plan name schedule n).isCleared ∧
      ((after plan name schedule n).isDue = true →
        (after plan name schedule (n + 1)).isDue = true) :=
  hstands.unmoved away (h.calledOff n) (h.halted n) hproceed (h.uncancelled n) (h.unhalted n)

/-- A worker that is not told to stop goes on. -/
theorem alive (h : Attended plan name schedule)
    (hstands : StandsAt plan name schedule count leg n) :
    (after plan name schedule n).worker.phase ≠ .exited := by
  intro hexited
  have htold := hstands.lies.exited hexited
  rw [h.stopping] at htold
  simp at htold

/-- The next attempt is handed over. -/
theorem unsent_leads (h : Attended plan name schedule) (count : Nat) :
    Leads (StandsAt plan name schedule count .unsent)
      (StandsAt plan name schedule count .queued) := by
  have hopen (cleared : Bool) (n : Nat)
      (hp : StandsAt plan name schedule count .unsent n ∧
        (after plan name schedule n).isCleared = cleared) :
      (after plan name schedule n).result? = none := by
    obtain ⟨attempt, hrun⟩ := h.doing hp.1
    simp [result?, hrun, Run.result?]
  have hkeeps (cleared : Bool) (n : Nat)
      (hp : StandsAt plan name schedule count .unsent n ∧
        (after plan name schedule n).isCleared = cleared) (hproceed : schedule n ≠ .proceed) :
      StandsAt plan name schedule count .unsent (n + 1) ∧
        (after plan name schedule (n + 1)).isCleared = cleared := by
    obtain ⟨hstands, -, hcleared, -⟩ := h.unmoved hp.1 (.inl rfl) hproceed
    exact ⟨hstands, hcleared.trans hp.2⟩
  -- first the check of the flag, then the hand-over
  have hchecks : Leads
      (fun n => StandsAt plan name schedule count .unsent n ∧
        (after plan name schedule n).isCleared = false)
      fun n => StandsAt plan name schedule count .unsent n ∧
        (after plan name schedule n).isCleared = true := by
    refine h.leads_of_ready (P := fun pursuit => Stands plan count .unsent pursuit ∧
      pursuit.isCleared = false) (Q := fun pursuit => Stands plan count .unsent pursuit ∧
      pursuit.isCleared = true) (hopen false) (hkeeps false) fun n hp hturn => ?_
    obtain ⟨attempt, hrun⟩ := h.doing hp.1
    have hproceed : (after plan name schedule n).proceed plan =
        { after plan name schedule n with isCleared := true } := by
      simp [proceed, hrun, handOver, hp.2, Worker.admits, h.stopping]
    rw [hproceed]
    exact ⟨{ hp.1 with }, rfl⟩
  have hsends : Leads
      (fun n => StandsAt plan name schedule count .unsent n ∧
        (after plan name schedule n).isCleared = true)
      (StandsAt plan name schedule count .queued) := by
    refine h.leads_of_ready (P := fun pursuit => Stands plan count .unsent pursuit ∧
      pursuit.isCleared = true) (Q := Stands plan count .queued) (hopen true) (hkeeps true)
      fun n hp hturn => ?_
    obtain ⟨attempt, hrun⟩ := h.doing hp.1
    simp only [proceed, hrun]
    exact hp.1.sent hrun hp.2 (h.alive hp.1)
  intro n hstands
  cases hcleared : (after plan name schedule n).isCleared with
  | true => exact hsends n ⟨hstands, hcleared⟩
  | false => exact hchecks.trans hsends n ⟨hstands, hcleared⟩

/-- What has come of an attempt is taken in. -/
theorem over_leads (h : Attended plan name schedule) (count : Nat) :
    Leads (StandsAt plan name schedule count .done) fun n =>
      (after plan name schedule n).result?.isSome = true ∨
        StandsAt plan name schedule count .resting n := by
  have hgoes : Leads
      (fun n => StandsAt plan name schedule count .done n ∧
        (after plan name schedule n).result? = none)
      fun n => (after plan name schedule n).result?.isSome = true ∨
        StandsAt plan name schedule count .resting n := by
    refine h.leads_of_ready (P := fun pursuit => Stands plan count .done pursuit ∧
      pursuit.result? = none) (Q := fun pursuit => pursuit.result?.isSome = true ∨
      Stands plan count .resting pursuit) (fun n hp => hp.2) (fun n hp hproceed => ?_)
      fun n hp hturn => ?_
    · obtain ⟨hstands, hrun, -, -⟩ := h.unmoved hp.1 (.inr (.inl rfl)) hproceed
      exact ⟨hstands, by rw [result?, hrun]; exact hp.2⟩
    · rcases h.doing hp.1 with ⟨attempt, hrun⟩ | hover
      · have hmail : (after plan name schedule n).mail = some (plan.delivery (count + 1)) :=
          hp.1.mail
        simp only [proceed, hrun, hmail]
        exact (hp.1.receive hrun hmail).imp And.left fun hrests => hrests.2.2
      · simp [hp.2] at hover
  intro n hstands
  cases hresult : (after plan name schedule n).result? with
  | none => exact hgoes n ⟨hstands, hresult⟩
  | some result => exact ⟨n, Nat.le_refl n, .inl (by rw [hresult]; rfl)⟩

/-- A delay comes to its end, and the next attempt is due. -/
theorem resting_leads (h : Attended plan name schedule) (count : Nat) :
    Leads (StandsAt plan name schedule count .resting)
      (StandsAt plan name schedule (count + 1) .unsent) := by
  have hopen (n : Nat) (hstands : StandsAt plan name schedule count .resting n) :
      (after plan name schedule n).result? = none := by
    obtain ⟨attempt, hrun⟩ := h.doing hstands
    simp [result?, hrun, Run.result?]
  have hpasses : Leads
      (fun n => StandsAt plan name schedule count .resting n ∧
        (after plan name schedule n).isDue = false)
      fun n => StandsAt plan name schedule count .resting n ∧
        (after plan name schedule n).isDue = true := by
    have hkept (n : Nat) (hp : StandsAt plan name schedule count .resting n ∧
        (after plan name schedule n).isDue = false) :
        StandsAt plan name schedule count .resting (n + 1) := by
      by_cases hproceed : schedule n = .proceed
      · -- a run whose delay is not over gives its turn back
        obtain ⟨attempt, hrun⟩ := h.doing hp.1
        simp only [StandsAt, after, hproceed, step]
        split
        · simpa [proceed, hrun, hp.2] using hp.1.rest
        · exact hp.1
      · exact (h.unmoved hp.1 (.inr (.inr rfl)) hproceed).1
    refine leads_of_move (h.comes .elapse (by simp [chores])) (fun n hp => ?_)
      fun n hp hmove => ⟨hkept n hp, ?_⟩
    · cases hdue : (after plan name schedule (n + 1)).isDue with
      | true => exact .inr ⟨hkept n hp, rfl⟩
      | false => exact .inl ⟨hkept n hp, rfl⟩
    · obtain ⟨attempt, hrun⟩ := h.doing hp.1
      simp [after, hmove, step, hrun]
  have hwakes : Leads
      (fun n => StandsAt plan name schedule count .resting n ∧
        (after plan name schedule n).isDue = true)
      (StandsAt plan name schedule (count + 1) .unsent) := by
    refine h.leads_of_ready (P := fun pursuit => Stands plan count .resting pursuit ∧
      pursuit.isDue = true) (Q := Stands plan (count + 1) .unsent) (fun n hp => hopen n hp.1)
      (fun n hp hproceed => ?_) fun n hp hturn => ?_
    · obtain ⟨hstands, -, -, hdue⟩ := h.unmoved hp.1 (.inr (.inr rfl)) hproceed
      exact ⟨hstands, hdue hp.2⟩
    · obtain ⟨attempt, hrun⟩ := h.doing hp.1
      simpa [proceed, hrun, hp.2] using (hp.1.wake hrun).2
  intro n hstands
  cases hdue : (after plan name schedule n).isDue with
  | true => exact hwakes n ⟨hstands, hdue⟩
  | false => exact hpasses.trans hwakes n ⟨hstands, hdue⟩

end Attended

/-! ### The steps of the worker -/

/-- What a move makes of a worker on which no attempt runs or has left its task. -/
def stir (worker : Worker Piece Piece) : Move → Worker Piece Piece
  | .look => worker.look
  | .pick => worker.pick
  | .finish => worker.finish
  | .enqueue => (worker.accept .other).getD worker
  | _ => worker

/-- While an attempt waits in the queue, the worker does what it does for the jobs of others. -/
theorem Stands.worker_step (h : Stands plan count .queued pursuit) (hstop : move ≠ .stop) :
    (pursuit.step plan move).worker = stir pursuit.worker move := by
  have hmail : pursuit.mail = none := h.mail
  have htasks : pursuit.worker.tasks = [] := h.lies.tasks
  have hrest : pursuit.rest.worker = pursuit.worker := by
    unfold Pursuit.rest
    split <;> rfl
  cases move with
  | turn =>
    simp only [Pursuit.step, stir]
    split
    · rfl
    · split <;> rfl
  | proceed =>
    simp only [Pursuit.step, stir, Pursuit.proceed, hmail]
    split
    · cases hrun : pursuit.run with
      | submitting attempt =>
        have := (h.of_submitting hrun).1
        simp at this
      | attempting attempt => exact hrest
      | pausing attempt =>
        have := (h.wake hrun).1
        simp at this
      | finished result => rfl
    · rfl
  | elapse =>
    simp only [Pursuit.step, stir]
    split <;> rfl
  | abandon =>
    simp only [Pursuit.step, stir]
    split <;> rfl
  | look =>
    have hworker (numbers : List Nat) : ∀ pursuit : Pursuit α ε,
        (numbers.foldl (fun pursuit number => pursuit.deliver number .lost) pursuit).worker =
          pursuit.worker := by
      induction numbers with
      | nil => exact fun _ => rfl
      | cons number numbers ih => exact fun pursuit => ih _
    exact hworker _ _
  | pick =>
    simp only [Pursuit.step, stir]
    split
    · rename_i hjob
      obtain ⟨job, hjob⟩ := Option.isSome_iff_exists.mp hjob
      simp [Worker.pick, Worker.job?_eq_some.mp hjob]
    · rfl
  | finish =>
    have hjob := h.lies.job
    simp only [Pursuit.step, stir, Pursuit.finish]
    split
    · rename_i number hattempt
      simp [hattempt, Piece.number?] at hjob
    · rfl
  | settle number => simp [Pursuit.step, stir, htasks]
  | cancel | halt | enqueue => rfl
  | stop => exact absurd rfl hstop

/-- An attempt has so many jobs before it in the queue. -/
def Behind (worker : Worker Piece Piece) (number ahead : Nat) : Prop :=
  ∃ before behind, worker.queue = before ++ .attempt number :: behind ∧ before.length = ahead

/-- What brings a worker forward. -/
def chore : Worker.Phase Piece → Move
  | .ready | .exited => .look
  | .picking => .pick
  | .running _ => .finish

/-- How many chores there are at most before it is the turn of an attempt with so many jobs before
it. -/
def effort (ahead : Nat) : Worker.Phase Piece → Nat
  | .running _ => 3 * ahead + 3
  | .ready => 3 * ahead + 2
  | .picking => 3 * ahead + 1
  | .exited => 0

section

variable {worker : Worker Piece Piece} {number ahead : Nat}

/-- What is not the chore of a worker leaves its phase and the jobs before an attempt. -/
theorem Behind.stir_of_ne (h : Behind worker number ahead) (hmove : move ≠ chore worker.phase)
    (alive : worker.phase ≠ .exited) :
    Behind (stir worker move) number ahead ∧ (stir worker move).phase = worker.phase := by
  have hsame : Behind worker number ahead ∧ worker.phase = worker.phase := ⟨h, rfl⟩
  cases move with
  | look =>
    have hlook : worker.look = worker := by
      unfold Worker.look
      split <;> simp_all [chore]
    simpa only [stir, hlook] using hsame
  | pick =>
    have hpick : worker.pick = worker := by
      unfold Worker.pick
      split <;> simp_all [chore]
    simpa only [stir, hpick] using hsame
  | finish =>
    have hfinish : worker.finish = worker := by
      unfold Worker.finish
      split <;> simp_all [chore]
    simpa only [stir, hfinish] using hsame
  | enqueue =>
    obtain ⟨before, behind, hqueue, hlength⟩ := h
    have taken : worker.accept .other = some _ := Worker.accept_eq_some.mpr ⟨alive, rfl⟩
    simp only [stir, taken, Option.getD_some]
    exact ⟨⟨before, behind ++ [.other], by simp [hqueue], hlength⟩, trivial⟩
  | _ => exact hsame

/-- The chore of a worker brings it closer to taking an attempt, or it takes the attempt. -/
theorem Behind.stir_chore (h : Behind worker number ahead) (unstopped : worker.stopping = false)
    (alive : worker.phase ≠ .exited) :
    (stir worker (chore worker.phase)).phase = .running (.attempt number) ∨
      ∃ fewer, Behind (stir worker (chore worker.phase)) number fewer ∧
        effort fewer (stir worker (chore worker.phase)).phase < effort ahead worker.phase := by
  obtain ⟨before, behind, hqueue, hlength⟩ := h
  -- a job takes a look, a pick and its end, and so the jobs before the attempt count threefold
  cases hphase : worker.phase with
  | ready =>
    refine .inr ⟨ahead, ⟨before, behind, ?_, hlength⟩, ?_⟩
    · simpa [stir, chore, Worker.look, hphase, unstopped] using hqueue
    · simp [stir, chore, Worker.look, hphase, unstopped, effort]
  | picking =>
    cases before with
    | nil => exact .inl (by simp [stir, chore, Worker.pick, hphase, hqueue])
    | cons job before =>
      refine .inr ⟨before.length, ⟨before, behind, ?_, rfl⟩, ?_⟩
      · simp [stir, chore, Worker.pick, hphase, hqueue]
      · simp only [List.length_cons] at hlength
        simp [stir, chore, Worker.pick, hphase, hqueue, effort, ← hlength]
        omega
  | running job =>
    refine .inr ⟨ahead, ⟨before, behind, ?_, hlength⟩, ?_⟩
    · simpa [stir, chore, Worker.finish, hphase] using hqueue
    · simp [stir, chore, Worker.finish, hphase, effort]
  | exited => exact absurd hphase alive

end

namespace Attended

/-- An attempt that waits in the queue goes on to wait, or is taken. -/
theorem queued_step (h : Attended plan name schedule)
    (hstands : StandsAt plan name schedule count .queued n) :
    StandsAt plan name schedule count .running (n + 1) ∨
      StandsAt plan name schedule count .queued (n + 1) ∧
        (after plan name schedule (n + 1)).worker =
          stir (after plan name schedule n).worker (schedule n) := by
  obtain ⟨count', leg', hnext, h'⟩ := hstands.step (schedule n)
  rw [h.stopping] at hnext
  cases hnext with
  | works works =>
    cases works with
    | taken => exact .inl h'
    | same => exact .inr ⟨h', hstands.worker_step (h.unstopped n)⟩
    | ignored told => simp at told

/-- The chore of the worker brings it closer to taking an attempt, or it takes the attempt. -/
theorem chore_step (h : Attended plan name schedule) {ahead : Nat}
    (hstands : StandsAt plan name schedule count .queued n)
    (hbehind : Behind (after plan name schedule n).worker (count + 1) ahead)
    (hmove : schedule n = chore (after plan name schedule n).worker.phase) :
    StandsAt plan name schedule count .running (n + 1) ∨
      StandsAt plan name schedule count .queued (n + 1) ∧
        ∃ fewer, Behind (after plan name schedule (n + 1)).worker (count + 1) fewer ∧
          effort fewer (after plan name schedule (n + 1)).worker.phase <
            effort ahead (after plan name schedule n).worker.phase := by
  rcases h.queued_step hstands with hrunning | ⟨hqueued, hworker⟩
  · exact .inl hrunning
  · rw [hworker, hmove]
    rcases hbehind.stir_chore (h.stopping n) (h.alive hstands) with hruns | hcloser
    · -- an attempt that runs does not wait in the queue
      have hjob := hqueued.lies.job
      rw [hworker, hmove, Worker.job?_eq_some.mpr hruns] at hjob
      simp [Piece.number?] at hjob
    · exact .inr ⟨hqueued, hcloser⟩

/-- An attempt that waits in the queue behind other jobs is taken when these were taken. -/
theorem behind_leads (h : Attended plan name schedule) (count left : Nat) :
    Leads
      (fun n => StandsAt plan name schedule count .queued n ∧
        ∃ ahead, Behind (after plan name schedule n).worker (count + 1) ahead ∧
          effort ahead (after plan name schedule n).worker.phase = left)
      (StandsAt plan name schedule count .running) := by
  -- the induction is on the chores that are left until the attempt is taken
  induction left using Nat.strong_induction_on with
  | h left ih =>
    rintro n ⟨hstands, ahead, hbehind, rfl⟩
    -- until its chore is done, the worker stays in its phase
    have hchore : Leads
        (fun k => StandsAt plan name schedule count .queued k ∧
          Behind (after plan name schedule k).worker (count + 1) ahead ∧
          (after plan name schedule k).worker.phase = (after plan name schedule n).worker.phase)
        fun k => StandsAt plan name schedule count .running k ∨
          StandsAt plan name schedule count .queued k ∧
            ∃ fewer, Behind (after plan name schedule k).worker (count + 1) fewer ∧
              effort fewer (after plan name schedule k).worker.phase <
                effort ahead (after plan name schedule n).worker.phase := by
      have hcomes := h.comes (chore (after plan name schedule n).worker.phase)
        (by cases (after plan name schedule n).worker.phase <;> simp [chore, chores])
      refine leads_of_move hcomes (fun k hp => ?_) fun k hp hmove => ?_
      · by_cases hmove : schedule k = chore (after plan name schedule k).worker.phase
        · right
          rw [← hp.2.2]
          exact h.chore_step hp.1 hp.2.1 hmove
        · rcases h.queued_step hp.1 with hrunning | ⟨hqueued, hworker⟩
          · exact .inr (.inl hrunning)
          · obtain ⟨hbehind', hphase⟩ := hp.2.1.stir_of_ne hmove (h.alive hp.1)
            rw [← hworker] at hbehind' hphase
            exact .inl ⟨hqueued, hbehind', hphase.trans hp.2.2⟩
      · rw [← hp.2.2] at hmove ⊢
        exact h.chore_step hp.1 hp.2.1 hmove
    obtain ⟨k, hk, hrunning | ⟨hqueued, fewer, hfewer, hless⟩⟩ :=
      hchore n ⟨hstands, hbehind, rfl⟩
    · exact ⟨k, hk, hrunning⟩
    · obtain ⟨l, hl, hrunning⟩ := ih _ hless k ⟨hqueued, fewer, hfewer, rfl⟩
      exact ⟨l, Nat.le_trans hk hl, hrunning⟩

/-- An attempt that was handed over is taken. -/
theorem queued_leads (h : Attended plan name schedule) (count : Nat) :
    Leads (StandsAt plan name schedule count .queued)
      (StandsAt plan name schedule count .running) := by
  intro n hstands
  have hmem : .attempt (count + 1) ∈ (after plan name schedule n).worker.queue := by
    have hnumber : count + 1 ∈
        (after plan name schedule n).worker.queue.filterMap Piece.number? := by
      rw [hstands.lies.queue]
      simp
    obtain ⟨piece, hpiece, hnumber⟩ := List.mem_filterMap.mp hnumber
    cases piece with
    | attempt number =>
      obtain rfl : number = count + 1 := by simpa [Piece.number?] using hnumber
      exact hpiece
    | other => simp [Piece.number?] at hnumber
  obtain ⟨before, behind, hqueue⟩ := List.append_of_mem hmem
  exact h.behind_leads count _ n ⟨hstands, before.length, ⟨before, behind, hqueue, rfl⟩, rfl⟩

/-- An attempt that was taken comes to its end, or leaves its task behind. -/
theorem running_leads (h : Attended plan name schedule) (count : Nat) :
    Leads (StandsAt plan name schedule count .running) fun n =>
      StandsAt plan name schedule count .alive n ∨ StandsAt plan name schedule count .done n := by
  have hworks (n : Nat) (hstands : StandsAt plan name schedule count .running n) :
      StandsAt plan name schedule count .running (n + 1) ∨
        StandsAt plan name schedule count .alive (n + 1) ∨
          StandsAt plan name schedule count .done (n + 1) := by
    obtain ⟨count', leg', hnext, h'⟩ := hstands.step (schedule n)
    cases hnext with
    | works works =>
      cases works with
      | same => exact .inl h'
      | left => exact .inr (.inl h')
      | brokeOff => exact .inr (.inr h')
  refine leads_of_move (h.comes .finish (by simp [chores])) hworks fun n hstands hmove => ?_
  obtain ⟨leg', hended, hran, h'⟩ := hstands.finish
  have hstep : after plan name schedule (n + 1) = (after plan name schedule n).finish plan := by
    simp only [after, hmove, step]
  rw [← hstep] at h'
  cases hended with
  | same => exact absurd rfl hran
  | left => exact .inl h'
  | brokeOff => exact .inr h'

/-- The task of an attempt comes to its end. -/
theorem alive_leads (h : Attended plan name schedule) (count : Nat) :
    Leads (StandsAt plan name schedule count .alive)
      (StandsAt plan name schedule count .done) := by
  have hworks (n : Nat) (hstands : StandsAt plan name schedule count .alive n) :
      StandsAt plan name schedule count .alive (n + 1) ∨
        StandsAt plan name schedule count .done (n + 1) := by
    obtain ⟨count', leg', hnext, h'⟩ := hstands.step (schedule n)
    rw [h.stopping] at hnext
    cases hnext with
    | works works =>
      cases works with
      | same => exact .inl h'
      | ended => exact .inr h'
      | abandoned told => simp at told
  -- a task that stayed alive for ever would be settled
  refine leads_of_persists hworks fun n hp => ?_
  have hmem (k : Nat) (hk : n ≤ k) :
      .attempt (count + 1) ∈ (after plan name schedule k).worker.tasks := by
    rw [(hp k hk).lies.tasks]
    simp
  obtain ⟨k, hk, hmove, hready⟩ := h.settles n (count + 1) hmem
  have hstep : after plan name schedule (k + 1) =
      (after plan name schedule k).settle plan (count + 1) := by
    simp only [after, hmove, step]
    exact if_pos ⟨hready, hmem k hk⟩
  refine ⟨k + 1, by omega, ?_⟩
  rw [StandsAt, hstep]
  exact ((hp k hk).settle (hmem k hk)).2

/-! ### The end -/

/-- However many attempts were made, the run comes to something. -/
theorem unsent_comes_to_end (h : Attended plan name schedule) (more : Nat) :
    ∀ count, plan.decisive ≤ count + more →
      Leads (StandsAt plan name schedule count .unsent) fun n =>
        (after plan name schedule n).result?.isSome = true := by
  -- the induction is on the attempts that may still be made
  induction more with
  | zero =>
    intro count hle n hstands
    have := hstands.within
    omega
  | succ more ih =>
    intro count hle
    have hover : Leads (StandsAt plan name schedule count .done) fun n =>
        (after plan name schedule n).result?.isSome = true :=
      (h.over_leads count).trans
        ((Leads.of_imp fun _ => id).or
          ((h.resting_leads count).trans (ih (count + 1) (by omega))))
    have hrunning := (h.running_leads count).trans (((h.alive_leads count).trans hover).or hover)
    exact ((h.unsent_leads count).trans (h.queued_leads count)).trans hrunning

/-- A run that is attended to comes to something. -/
theorem comes_to_end (h : Attended plan name schedule) :
    ∃ n, (after plan name schedule n).result?.isSome = true := by
  obtain ⟨n, -, hover⟩ := h.unsent_comes_to_end plan.decisive 0 (by omega) 0
    (Stands.opened plan name)
  exact ⟨n, hover⟩

end Attended

end Tenure.Pursuit
