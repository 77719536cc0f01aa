import Mathlib.Data.Nat.Init
import Tenure.Proofs.Retry.Standing

/-!
# A run ends in one way

What a run comes to depends on what comes first: its own end, a worker that refuses or drops an
attempt, or that it is called off or its scheduler stops. A run that is called off while it waits
for its turn goes no further. One whose turn it is goes on until it has to wait, and may still come
to its own end by then. Whatever a run has come to stays, and after that no attempt is handed over;
an attempt that is on its way goes on, and nobody hears of it.

## Main definitions

* `Pursuit.Ends` — what a run has come to, and why
* `Pursuit.belated`, `Pursuit.belatedPlan` — a run is called off while its attempt is on its way

## Main results

* `Pursuit.ends_in_one_way` — how a run ends, in every order of events
-/

namespace Tenure.Pursuit

variable {α ε : Type} {plan : Plan α ε} {name : String} {schedule : Nat → Move} {move : Move}
  {pursuit : Pursuit α ε} {result : Except (RetryFailure ε) α} {count m n : Nat} {leg : Leg}

/-! ### What a move leaves alone -/

/-- One run has become another by something that went on aside: the worker, the mail and what was
seen and reported may differ, no attempt was handed over, and the worker may have been told to
stop. -/
structure Aside (told : Bool) (pursuit pursuit' : Pursuit α ε) : Prop where
  frame : pursuit' = { pursuit with
    worker := pursuit'.worker
    mail := pursuit'.mail
    log := pursuit'.log
    notices := pursuit'.notices }
  name : pursuit'.worker.name = pursuit.worker.name
  stopping : pursuit'.worker.stopping = (pursuit.worker.stopping || told)
  quiet : pursuit'.log.filter Event.isSubmission = pursuit.log.filter Event.isSubmission
  grows : pursuit.log <+: pursuit'.log

namespace Aside

variable {told : Bool} {pursuit' pursuit'' : Pursuit α ε}

theorem refl (pursuit : Pursuit α ε) : Aside false pursuit pursuit :=
  ⟨rfl, rfl, by simp, rfl, List.prefix_rfl⟩

theorem trans (h : Aside told pursuit pursuit') (h' : Aside false pursuit' pursuit'') :
    Aside told pursuit pursuit'' where
  frame := by rw [h'.frame, h.frame]
  name := h'.name.trans h.name
  stopping := by rw [h'.stopping, h.stopping, Bool.or_false]
  quiet := h'.quiet.trans h.quiet
  grows := h.grows.trans h'.grows

theorem deliver (pursuit : Pursuit α ε) (number : Nat) (delivery : Run.Delivery α ε) :
    Aside false pursuit (pursuit.deliver number delivery) :=
  ⟨rfl, rfl, by simp [Pursuit.deliver], by simp [Pursuit.deliver, Event.isSubmission],
    List.prefix_append _ _⟩

theorem onWorker (worker : Worker Piece Piece) (notices : List Notice)
    (hname : worker.name = pursuit.worker.name)
    (hstopping : worker.stopping = (pursuit.worker.stopping || told)) :
    Aside told pursuit { pursuit with worker, notices } :=
  ⟨rfl, hname, hstopping, rfl, List.prefix_rfl⟩

theorem look (pursuit : Pursuit α ε) : Aside false pursuit pursuit.look := by
  have hlost (numbers : List Nat) : ∀ pursuit : Pursuit α ε, Aside false pursuit
      (numbers.foldl (fun pursuit number => pursuit.deliver number .lost) pursuit) := by
    induction numbers with
    | nil => exact refl
    | cons number numbers ih => exact fun pursuit => (deliver pursuit number .lost).trans (ih _)
  exact (onWorker _ _ (Worker.look_name _) (by simp)).trans (hlost _ _)

theorem finish (plan : Plan α ε) (pursuit : Pursuit α ε) :
    Aside false pursuit (pursuit.finish plan) := by
  unfold Pursuit.finish
  split
  · split
    · exact (onWorker _ _ (Worker.finish_name _) (by simp)).trans (deliver _ _ _)
    · exact onWorker _ _ (Worker.finish_name _) (by simp [Worker.begin])
  · exact onWorker _ _ (Worker.finish_name _) (by simp)

theorem step (plan : Plan α ε) (pursuit : Pursuit α ε) (haside : move.isAside = true) :
    Aside (decide (move = .stop)) pursuit (pursuit.step plan move) := by
  cases move with
  | look => exact look pursuit
  | pick =>
    simp only [Pursuit.step]
    split
    · exact refl pursuit
    · refine ⟨rfl, Worker.pick_name _, by simp [Pursuit.pick], ?_, List.prefix_append _ _⟩
      simp only [Pursuit.pick]
      cases pursuit.worker.pick.job?.bind Piece.number? <;> simp [Event.isSubmission]
  | finish => exact finish plan pursuit
  | settle number =>
    simp only [Pursuit.step]
    split
    · exact (onWorker (pursuit.worker.settle (· == .attempt number)) pursuit.notices rfl
        (by simp [Worker.settle])).trans (deliver _ _ _)
    · exact refl pursuit
  | enqueue =>
    simp only [Pursuit.step]
    cases taken : pursuit.worker.accept .other with
    | none => exact refl pursuit
    | some worker =>
      obtain ⟨-, rfl⟩ := Worker.accept_eq_some.mp taken
      exact onWorker _ _ rfl (by simp)
  | stop => exact onWorker _ _ rfl (by simp [Worker.stop])
  | _ => simp [Move.isAside] at haside

theorem run (h : Aside told pursuit pursuit') : pursuit'.run = pursuit.run := by rw [h.frame]

theorem hasTurn (h : Aside told pursuit pursuit') : pursuit'.hasTurn = pursuit.hasTurn := by
  rw [h.frame]

theorem calledOff (h : Aside told pursuit pursuit') : pursuit'.calledOff = pursuit.calledOff := by
  rw [h.frame]

theorem halted (h : Aside told pursuit pursuit') : pursuit'.halted = pursuit.halted := by
  rw [h.frame]

end Aside

/-- The attempts that were handed over. -/
def submissions (pursuit : Pursuit α ε) : List (Event α ε) :=
  pursuit.log.filter Event.isSubmission

/-- What a run has come to stays, and no attempt is handed over any more. -/
theorem step_of_over (plan : Plan α ε) (h : pursuit.result? = some result) (move : Move) :
    (pursuit.step plan move).result? = some result ∧
      (pursuit.step plan move).submissions = pursuit.submissions := by
  have hrun : pursuit.run = .finished result := by
    unfold result? at h
    cases hrun : pursuit.run <;> simp_all [Run.result?]
  by_cases haside : move.isAside = true
  · have hstep := Aside.step plan pursuit haside
    exact ⟨by rw [result?, hstep.run]; exact h, hstep.quiet⟩
  · cases move with
    | turn =>
      rw [Pursuit.step, if_pos (by simp [h])]
      exact ⟨h, rfl⟩
    | proceed =>
      have hstays : pursuit.proceed plan = pursuit := by simp only [Pursuit.proceed, hrun]
      simp only [Pursuit.step, hstays, ite_self]
      exact ⟨h, trivial⟩
    | elapse =>
      simp only [Pursuit.step, hrun]
      exact ⟨h, trivial⟩
    | abandon =>
      have hcut : pursuit.cut = pursuit := by rw [cut, hrun, Run.cancel, ← hrun]
      simp only [Pursuit.step, hcut, ite_self]
      exact ⟨h, trivial⟩
    | cancel | halt => exact ⟨h, rfl⟩
    | _ => simp [Move.isAside] at haside

/-- A run that is over is so at every later moment, and hands over no more. -/
theorem after_of_over (h : (after plan name schedule m).result? = some result) (hmn : m ≤ n) :
    (after plan name schedule n).result? = some result ∧
      (after plan name schedule n).submissions = (after plan name schedule m).submissions := by
  induction n, hmn using Nat.le_induction with
  | base => exact ⟨h, rfl⟩
  | succ n _ ih =>
    obtain ⟨hresult, hsame⟩ := step_of_over plan ih.1 (schedule n)
    exact ⟨hresult, hsame.trans ih.2⟩

/-- What could be seen of a run stays on record. -/
theorem log_prefix_step (plan : Plan α ε) (pursuit : Pursuit α ε) (move : Move) :
    pursuit.log <+: (pursuit.step plan move).log := by
  by_cases haside : move.isAside = true
  · exact (Aside.step plan pursuit haside).grows
  · have hrest : pursuit.log <+: pursuit.rest.log := by
      unfold rest
      split <;> exact List.prefix_rfl
    cases move with
    | turn =>
      simp only [step]
      split
      · exact List.prefix_rfl
      · split <;> exact List.prefix_rfl
    | proceed =>
      simp only [step]
      split
      · unfold proceed
        split
        · unfold handOver
          split
          · split
            · exact List.prefix_append _ _
            · exact List.prefix_rfl
          · split <;> exact List.prefix_rfl
        · split
          · exact List.prefix_append _ _
          · exact hrest
        · split
          · exact List.prefix_append _ _
          · exact hrest
        · exact List.prefix_rfl
      · exact List.prefix_rfl
    | elapse | abandon =>
      simp only [step]
      split <;> exact List.prefix_rfl
    | cancel | halt => exact List.prefix_rfl
    | _ => simp [Move.isAside] at haside

theorem log_prefix_after (hmn : m ≤ n) :
    (after plan name schedule m).log <+: (after plan name schedule n).log := by
  induction n, hmn using Nat.le_induction with
  | base => exact List.prefix_rfl
  | succ n _ ih => exact ih.trans (log_prefix_step plan _ (schedule n))

/-! ### Who was told what -/

/-- A step of the run tells nobody anything. -/
theorem proceed_flags (plan : Plan α ε) (pursuit : Pursuit α ε) :
    (pursuit.proceed plan).worker.name = pursuit.worker.name ∧
      (pursuit.proceed plan).worker.stopping = pursuit.worker.stopping ∧
      (pursuit.proceed plan).calledOff = pursuit.calledOff ∧
      (pursuit.proceed plan).halted = pursuit.halted := by
  have hrest : pursuit.rest.worker = pursuit.worker ∧ pursuit.rest.calledOff = pursuit.calledOff ∧
      pursuit.rest.halted = pursuit.halted := by
    unfold rest
    split <;> exact ⟨rfl, rfl, rfl⟩
  obtain ⟨hworker, hcalled, hhalted⟩ := hrest
  unfold proceed
  split
  · unfold handOver
    split
    · split
      · rename_i taken
        obtain ⟨-, rfl⟩ := Worker.accept_eq_some.mp taken
        exact ⟨rfl, rfl, rfl, rfl⟩
      · exact ⟨rfl, rfl, rfl, rfl⟩
    · split <;> exact ⟨rfl, rfl, rfl, rfl⟩
  · split
    · exact ⟨rfl, rfl, rfl, rfl⟩
    · exact ⟨by rw [hworker], by rw [hworker], hcalled, hhalted⟩
  · split
    · exact ⟨rfl, rfl, rfl, rfl⟩
    · exact ⟨by rw [hworker], by rw [hworker], hcalled, hhalted⟩
  · exact ⟨rfl, rfl, rfl, rfl⟩

/-- The worker keeps its name, and the worker, the run and the scheduler know what they were told,
each by the move that tells it. -/
theorem step_flags (plan : Plan α ε) (pursuit : Pursuit α ε) (move : Move) :
    (pursuit.step plan move).worker.name = pursuit.worker.name ∧
      (pursuit.step plan move).worker.stopping =
        (pursuit.worker.stopping || decide (move = .stop)) ∧
      (pursuit.step plan move).calledOff = (pursuit.calledOff || decide (move = .cancel)) ∧
      (pursuit.step plan move).halted = (pursuit.halted || decide (move = .halt)) := by
  by_cases haside : move.isAside = true
  · have hstep := Aside.step plan pursuit haside
    refine ⟨hstep.name, hstep.stopping, ?_, ?_⟩
    · cases move <;> simp_all [Move.isAside, hstep.calledOff]
    · cases move <;> simp_all [Move.isAside, hstep.halted]
  · cases move with
    | turn =>
      simp only [step]
      split
      · simp
      · split <;> simp [cut]
    | proceed =>
      simp only [step]
      split
      · simpa using proceed_flags plan pursuit
      · simp
    | elapse =>
      simp only [step]
      split <;> simp
    | abandon =>
      simp only [step]
      split <;> simp [cut]
    | cancel | halt => simp [step]
    | _ => simp [Move.isAside] at haside

/-- What is told by one move was told if that move was made. -/
theorem flag_after (flag : Pursuit α ε → Bool) {teller : Move} (start : flag (opened name) = false)
    (step : ∀ (pursuit : Pursuit α ε) (move : Move),
      flag (pursuit.step plan move) = (flag pursuit || decide (move = teller))) (n : Nat) :
    flag (after plan name schedule n) = true ↔ ∃ k, k < n ∧ schedule k = teller := by
  induction n with
  | zero => simp [after, start]
  | succ n ih =>
    simp only [after, step, Bool.or_eq_true, ih, decide_eq_true_eq, Nat.lt_succ_iff_lt_or_eq]
    constructor
    · rintro (⟨k, hk, hmove⟩ | hmove)
      · exact ⟨k, .inl hk, hmove⟩
      · exact ⟨n, .inr rfl, hmove⟩
    · rintro ⟨k, hk | rfl, hmove⟩
      · exact .inl ⟨k, hk, hmove⟩
      · exact .inr hmove

theorem stopping_after (plan : Plan α ε) (name : String) (schedule : Nat → Move) (n : Nat) :
    (after plan name schedule n).worker.stopping = true ↔ ∃ k, k < n ∧ schedule k = .stop :=
  flag_after (fun pursuit => pursuit.worker.stopping) rfl
    (fun pursuit move => (step_flags plan pursuit move).2.1) n

theorem calledOff_after (plan : Plan α ε) (name : String) (schedule : Nat → Move) (n : Nat) :
    (after plan name schedule n).calledOff = true ↔ ∃ k, k < n ∧ schedule k = .cancel :=
  flag_after Pursuit.calledOff rfl
    (fun pursuit move => (step_flags plan pursuit move).2.2.1) n

theorem halted_after (plan : Plan α ε) (name : String) (schedule : Nat → Move) (n : Nat) :
    (after plan name schedule n).halted = true ↔ ∃ k, k < n ∧ schedule k = .halt :=
  flag_after Pursuit.halted rfl
    (fun pursuit move => (step_flags plan pursuit move).2.2.2) n

theorem name_after (plan : Plan α ε) (name : String) (schedule : Nat → Move) (n : Nat) :
    (after plan name schedule n).worker.name = name := by
  induction n with
  | zero => rfl
  | succ n ih => exact (step_flags plan _ (schedule n)).1.trans ih

/-! ### What a run has come to -/

/-- What a run has come to by some moment, and why. -/
inductive Ends (plan : Plan α ε) (name : String) (schedule : Nat → Move) (n : Nat) :
    Except (RetryFailure ε) α → Prop
  /-- It has come to its own end, and all went as it does when nobody interferes. -/
  | concluded (seen : (after plan name schedule n).log = plan.reference) :
      Ends plan name schedule n (plan.conclusion name plan.decisive)
  /-- The worker was told to stop, and refused an attempt. -/
  | refused {count : Nat} (within : count < plan.decisive)
      (seen : (after plan name schedule n).log = plan.story count)
      (told : ∃ k, k < n ∧ schedule k = .stop) :
      Ends plan name schedule n (.error (.executor (.shutDown name)))
  /-- The worker was told to stop, and dropped an attempt that it had taken or not. -/
  | dropped {count : Nat} {begun : Bool} (within : count < plan.decisive)
      (seen : (after plan name schedule n).log =
        plan.story count ++ (Leg.dropped begun).seen plan (count + 1))
      (told : ∃ k, k < n ∧ schedule k = .stop) :
      Ends plan name schedule n (.error (.executor (.taskLost name)))
  /-- The run was called off, or its scheduler was told to stop. -/
  | cancelled (told : ∃ k, k < n ∧ (schedule k = .cancel ∨ schedule k = .halt)) :
      Ends plan name schedule n (.error .cancelled)

theorem ends (h : (after plan name schedule n).result? = some result) :
    Ends plan name schedule n result := by
  obtain ⟨count, leg, hstands⟩ := stands_after plan name schedule n
  have hname := name_after plan name schedule n
  have hlog := hstands.log
  have hfits := hstands.fits
  have hstop := stopping_after plan name schedule n
  have hrun : (after plan name schedule n).run = .finished result := by
    unfold result? at h
    cases hrun : (after plan name schedule n).run <;> simp_all [Run.result?]
  rw [hrun] at hfits
  -- there are four ways to be over, and each says why the run is
  cases hfits with
  | concluded last =>
    rw [hname, last]
    refine .concluded ?_
    rw [hlog, Plan.reference, ← last, Nat.add_sub_cancel]
    rfl
  | lost =>
    rw [Worker.loss, hname]
    exact .dropped hstands.within hlog (hstop.mp (hstands.told _ rfl))
  | refused stopping =>
    rw [Worker.refusal, hname]
    exact .refused hstands.within (by simpa [Leg.seen] using hlog) (hstop.mp stopping)
  | cut told =>
    rw [isCalled, Bool.or_eq_true, calledOff_after, halted_after] at told
    refine .cancelled ?_
    rcases told with ⟨k, hk, hmove⟩ | ⟨k, hk, hmove⟩
    · exact ⟨k, hk, .inl hmove⟩
    · exact ⟨k, hk, .inr hmove⟩

/-- No more attempts are started than may be made. -/
theorem started_le (plan : Plan α ε) (name : String) (schedule : Nat → Move) (n : Nat) :
    (after plan name schedule n).log.countP Event.isStart ≤ max 1 plan.budget.toNat := by
  obtain ⟨count, leg, hstands⟩ := stands_after plan name schedule n
  -- every attempt that was told in full was started, and at most one more
  have hstory : (plan.story count).countP Event.isStart = count := by
    rw [List.countP_eq_length_filter, Plan.filter_story Event.started fun _ => rfl,
      List.length_map, List.length_range']
  have hseen : (leg.seen plan (count + 1)).countP Event.isStart ≤ 1 := by
    cases leg with
    | unsent | queued => exact Nat.zero_le 1
    | dropped begun =>
      cases begun with
      | false => exact Nat.zero_le 1
      | true => exact Nat.le_refl 1
    | _ => exact Nat.le_refl 1
  rw [hstands.log, List.countP_append, hstory]
  have := hstands.within
  have := plan.decisive_le
  unfold Plan.most at this
  omega

/-! ### Who comes first -/

/-- A run that was called off and waits for its turn goes no further: it hands nothing over, and if
it gets a turn it is cut. -/
structure Stuck (pursuit : Pursuit α ε) : Prop where
  calledOff : pursuit.calledOff = true
  ended : pursuit.result? = some (.error .cancelled) ∨
    pursuit.result? = none ∧ pursuit.hasTurn = false

theorem Stuck.step (plan : Plan α ε) (h : Stuck pursuit) (move : Move) :
    Stuck (pursuit.step plan move) ∧
      (pursuit.step plan move).submissions = pursuit.submissions ∧
      (move = .turn → (pursuit.step plan move).result? = some (.error .cancelled)) := by
  have hcalled : (pursuit.step plan move).calledOff = true := by
    rw [(step_flags plan pursuit move).2.2.1, h.calledOff, Bool.true_or]
  rcases h.ended with hover | ⟨hnone, hturn⟩
  · obtain ⟨hresult, hsame⟩ := step_of_over plan hover move
    exact ⟨⟨hcalled, .inl hresult⟩, hsame, fun _ => hresult⟩
  · -- without a turn, a run that is not over can be cut, and nothing else
    by_cases haside : move.isAside = true
    · have hstep := Aside.step plan pursuit haside
      refine ⟨⟨hcalled, .inr ⟨?_, hstep.hasTurn.trans hturn⟩⟩, hstep.quiet, ?_⟩
      · rw [result?, hstep.run]
        exact hnone
      · rintro rfl
        simp [Move.isAside] at haside
    · have hcut : pursuit.cut.result? = some (.error .cancelled) := by
        rw [result?, cut, Run.result?_cancel]
        rw [result?] at hnone
        rw [hnone, Option.getD_none]
      cases move with
      | turn =>
        have hstep : pursuit.step plan .turn = pursuit.cut := by
          simp [Pursuit.step, hturn, hnone, h.calledOff]
        rw [hstep] at hcalled ⊢
        exact ⟨⟨hcalled, .inl hcut⟩, rfl, fun _ => hcut⟩
      | proceed =>
        have hstep : pursuit.step plan .proceed = pursuit := by simp [Pursuit.step, hturn]
        rw [hstep]
        exact ⟨h, rfl, by simp⟩
      | elapse =>
        refine ⟨⟨hcalled, .inr ?_⟩, ?_, by simp⟩
        · simp only [Pursuit.step]
          split <;> exact ⟨hnone, hturn⟩
        · simp only [Pursuit.step]
          split <;> rfl
      | abandon =>
        refine ⟨⟨hcalled, ?_⟩, ?_, by simp⟩
        · simp only [Pursuit.step]
          split
          · exact .inl hcut
          · exact .inr ⟨hnone, hturn⟩
        · simp only [Pursuit.step]
          split <;> rfl
      | cancel | halt => exact ⟨⟨hcalled, .inr ⟨hnone, hturn⟩⟩, rfl, by simp⟩
      | _ => simp [Move.isAside] at haside

theorem Stuck.after (h : Stuck (after plan name schedule m)) (hmn : m ≤ n) :
    Stuck (after plan name schedule n) ∧
      (after plan name schedule n).submissions = (after plan name schedule m).submissions := by
  induction n, hmn using Nat.le_induction with
  | base => exact ⟨h, rfl⟩
  | succ n _ ih =>
    obtain ⟨hstuck, hsame, -⟩ := ih.1.step plan (schedule n)
    exact ⟨hstuck, hsame.trans ih.2⟩

/-- A run that was called off in its turn does not get another one. -/
theorem step_of_hasTurn (hcalled : pursuit.calledOff = true) (hturn : pursuit.hasTurn = true)
    (move : Move) (hnone : (pursuit.step plan move).result? = none) :
    (pursuit.step plan move).hasTurn = true := by
  by_cases haside : move.isAside = true
  · exact (Aside.step plan pursuit haside).hasTurn.trans hturn
  · cases move with
    | proceed =>
      have hrest : pursuit.rest.result? ≠ none := by
        simp [rest, hcalled, result?, cut]
      rw [Pursuit.step, if_pos hturn] at hnone ⊢
      unfold Pursuit.proceed at hnone ⊢
      -- a step that ends the turn also ends the run, which was called off
      cases hrun : pursuit.run with
      | submitting attempt =>
        simp only [hrun, handOver, Run.handOver] at hnone ⊢
        split at hnone
        · split at hnone
          · simp_all
          · simp [result?, Run.result?] at hnone
        · split at hnone
          · simp_all
          · simp [result?, Run.result?] at hnone
      | attempting attempt =>
        simp only [hrun] at hnone ⊢
        cases hmail : pursuit.mail with
        | none => simp [hmail, hrest] at hnone
        | some delivery =>
          simp only [hmail, receive, result?] at hnone ⊢
          rw [hnone]
          rfl
      | pausing attempt =>
        simp only [hrun] at hnone ⊢
        split at hnone
        · rename_i hdue
          simpa [hdue] using hturn
        · exact absurd hnone hrest
      | finished result => simp [hturn]
    | turn => simp [Pursuit.step, hturn]
    | elapse =>
      simp only [Pursuit.step]
      split <;> exact hturn
    | abandon => simp [Pursuit.step, hturn]
    | cancel | halt => exact hturn
    | _ => simp [Move.isAside] at haside

/-- A run ends in one way, in whatever order come the turns of the run, the steps of the worker and
its stop, any number of callings-off, and the stop of the scheduler. What the handle tells once, it
tells for good, and it is one of these: the outcome of a run that nobody interferes with; that the
worker, which it names, has refused or dropped an attempt; or that the run was called off. Once the
run is over, no attempt is handed over, and no more attempts are started than may be made. A run
that is called off while it waits for its turn hands nothing over any more, can only come to being
called off, and does so with its next turn; one whose turn it is has come to something by the end of
that turn. A scheduler that has been told to stop and drops a run that is not over calls it off. -/
theorem ends_in_one_way (plan : Plan α ε) (name : String) (schedule : Nat → Move) :
    (∀ m n result, m ≤ n → (after plan name schedule m).result? = some result →
      (after plan name schedule n).result? = some result ∧
      (after plan name schedule n).submissions = (after plan name schedule m).submissions) ∧
    (∀ n result, (after plan name schedule n).result? = some result →
      Ends plan name schedule n result) ∧
    (∀ n, (after plan name schedule n).log.countP Event.isStart ≤ max 1 plan.budget.toNat) ∧
    (∀ m n, m ≤ n → (∃ k, k < m ∧ schedule k = .cancel) →
      (after plan name schedule m).hasTurn = false →
      (after plan name schedule m).result? = none →
      ((after plan name schedule n).result? = none ∨
        (after plan name schedule n).result? = some (.error .cancelled)) ∧
      (after plan name schedule n).submissions = (after plan name schedule m).submissions ∧
      (schedule n = .turn →
        (after plan name schedule (n + 1)).result? = some (.error .cancelled))) ∧
    (∀ m n, m ≤ n → (∃ k, k < m ∧ schedule k = .cancel) →
      (after plan name schedule m).hasTurn = true →
      (after plan name schedule n).result? = none →
      (after plan name schedule n).hasTurn = true) ∧
    ∀ n, (∃ k, k < n ∧ schedule k = .halt) → schedule n = .abandon →
      (after plan name schedule n).hasTurn = false →
      (after plan name schedule (n + 1)).result? =
        some ((after plan name schedule n).result?.getD (.error .cancelled)) := by
  refine ⟨fun m n result hmn h => after_of_over h hmn, fun n result h => ends h,
    started_le plan name schedule, fun m n hmn hcancel hturn hnone => ?_,
    fun m n hmn hcancel hturn => ?_, fun n hhalt hmove hturn => ?_⟩
  · rw [← calledOff_after plan name] at hcancel
    obtain ⟨hstuck, hsame⟩ := Stuck.after ⟨hcancel, .inr ⟨hnone, hturn⟩⟩ hmn
    refine ⟨?_, hsame, fun hmove => ?_⟩
    · rcases hstuck.ended with hover | ⟨hopen, -⟩
      · exact .inr hover
      · exact .inl hopen
    · exact (hstuck.step plan (schedule n)).2.2 hmove
  · induction n, hmn using Nat.le_induction with
    | base => exact fun _ => hturn
    | succ n hmn ih =>
      intro hnone
      have hcalled : (after plan name schedule n).calledOff = true := by
        obtain ⟨k, hk, hmove⟩ := hcancel
        exact (calledOff_after plan name schedule n).mpr ⟨k, Nat.lt_of_lt_of_le hk hmn, hmove⟩
      -- the run was not over before, for then it would be over now
      have hbefore : (after plan name schedule n).result? = none := by
        by_contra hover
        obtain ⟨result, hresult⟩ := Option.ne_none_iff_exists'.mp hover
        have hstays := (after_of_over hresult (Nat.le_succ n)).1
        rw [hnone] at hstays
        simp at hstays
      exact step_of_hasTurn hcalled (ih hbefore) (schedule n) hnone
  · have hhalted := (halted_after plan name schedule n).mpr hhalt
    have hstep : after plan name schedule (n + 1) = (after plan name schedule n).cut := by
      simp [after, hmove, step, hhalted, hturn]
    rw [hstep]
    exact Run.result?_cancel

/-- An attempt is started, the run is called off while it waits for it, and the attempt comes to a
value. -/
def belated : List Move :=
  [.turn, .proceed, .proceed, .proceed, .look, .pick, .cancel, .finish, .turn, .settle 1, .turn]

/-- Three attempts may be made, and every value is accepted. -/
def belatedPlan : Plan Nat String where
  budget := 3
  accepts _ := true
  delay := .ofMillis 5
  fate number := .value number

/-- The run has come to being called off before its attempt comes to a value, and to nothing else
after that. -/
theorem belated_is_cancelled :
    (after belatedPlan "shard" (belated.getD · .turn) 9).result? = some (.error .cancelled) ∧
    (after belatedPlan "shard" (belated.getD · .turn) 11).log =
      [.submitted 1, .started 1, .delivered 1 (.value 1)] ∧
    (after belatedPlan "shard" (belated.getD · .turn) 11).result? = some (.error .cancelled) := by
  obtain ⟨hstays, -, -, hcancel, -⟩ := ends_in_one_way belatedPlan "shard" (belated.getD · .turn)
  have hcut :
      (after belatedPlan "shard" (belated.getD · .turn) 9).result? = some (.error .cancelled) :=
    (hcancel 7 8 (by decide) ⟨6, by decide, rfl⟩ rfl rfl).2.2 rfl
  exact ⟨hcut, rfl, (hstays 9 11 _ (by decide) hcut).1⟩

end Tenure.Pursuit
