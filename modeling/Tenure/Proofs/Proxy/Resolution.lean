import Tenure.Proofs.Proxy.Hearing

/-!
# Executors that disappear under a call

Wherever the end of the shard or of the scheduler finds an asynchronous call, the call comes to
something: to what the law of reconciliation says, or to the refusal of its work, or to the loss
of its reconciliation. What it has done to the proxy it has done as a whole or not at all.

## Main definitions

* `Dispatch.Sound` — the laws of an asynchronous call among its executors
* `Dispatch.remaining` — how many steps a call has left before it returns
* `Dispatch.Answer` — what a call can come to, and why

## Main results

* `Dispatch.Sound.course` — every schedule keeps the laws
* `Dispatch.Sound.remaining_course` — a call returns after a few of its steps
* `Dispatch.resolves` — what an asynchronous call comes to
-/

namespace Tenure.Dispatch

variable {α : Type} {profile : Profile} {dispatch : Dispatch α}

/-- The laws of an asynchronous call among its executors. -/
structure Sound (profile : Profile) (dispatch : Dispatch α) : Prop where
  placed : Placed profile dispatch
  accounted : Accounted profile dispatch
  told : Told profile dispatch

theorem sound_start : Sound profile (start profile : Dispatch α) :=
  ⟨placed_start, accounted_start, told_start⟩

theorem Sound.step (sound : Sound profile dispatch) (move : Move α) :
    Sound profile (dispatch.step profile move) where
  placed := sound.placed.step sound.accounted move
  accounted := sound.accounted.step sound.placed move
  told := sound.told.step sound.placed sound.accounted move

/-- Every schedule keeps the laws. -/
theorem Sound.course (sound : Sound profile dispatch) (schedule : List (Move α)) :
    Sound profile (dispatch.course profile schedule) := by
  induction schedule generalizing dispatch with
  | nil => exact sound
  | cons move schedule ih => exact ih (sound.step move)

/-! ### How long the making of a call takes -/

/-- How many steps a call that is being made has left before it returns, at most. -/
def remaining (dispatch : Dispatch α) : Nat :=
  match dispatch.stage with
  | .entering => 5 + seeking dispatch.call
  | .checking .operation => 4
  | .sending .operation => 3
  | .checking _ => 2
  | .sending _ => 1
  | .returned => 0

theorem remaining_of_returned (stage : dispatch.stage = .returned) : dispatch.remaining = 0 := by
  simp only [remaining, stage]

theorem returned_of_remaining (h : dispatch.remaining = 0) : dispatch.stage = .returned := by
  unfold remaining at h
  cases stage : dispatch.stage with
  | entering => simp [stage] at h
  | checking piece | sending piece => cases piece <;> simp [stage] at h
  | returned => rfl

/-- A call that is being made comes closer to its return by each of its steps. -/
theorem remaining_proceed (accounted : Accounted profile dispatch) (answers : Answers) :
    (dispatch.proceed profile answers).remaining ≤ dispatch.remaining - 1 := by
  have proceeds := accounted.proceeds answers
  generalize dispatch.proceed profile answers = next at proceeds ⊢
  cases proceeds with
  | seeks stage fresh seeks closer =>
    simp only [remaining, stage]
    omega
  | begins stage => simp [remaining, stage]
  | passes stage ours => rcases ours with rfl | rfl <;> simp [remaining, stage]
  | hands stage => simp [remaining, stage]
  | turnsAway | returns | refused => exact Nat.zero_le _
  | reconciles busy =>
    rw [remaining_of_returned (by rw [conclude_toProgress]; exact (isBusy_iff.mp busy).1)]
    exact Nat.zero_le _
  | rests stage =>
    have returned := remaining_of_returned stage
    omega

/-- No other move takes a call away from its return. -/
theorem remaining_step (accounted : Accounted profile dispatch) (move : Move α) :
    (dispatch.step profile move).remaining ≤ dispatch.remaining - move.isOwn.toNat := by
  have hear (half : Call.Half α) (waiting : dispatch.call.isWaiting = true) :
      (dispatch.hear profile half).remaining ≤ dispatch.remaining := by
    obtain ⟨_, -, stage, -⟩ := Account.pending accounted waiting
    rw [remaining_of_returned]
    · exact Nat.zero_le _
    · unfold Dispatch.hear
      rw [conclude_toProgress]
      exact stage
  have around (around : move.isAround = true) :
      (dispatch.step profile move).remaining ≤ dispatch.remaining := by
    have passes : Passes dispatch (dispatch.step profile move) := .step profile around
    rcases passes.progress with same | ⟨-, lost⟩
    · simp [remaining, same]
    · cases waiting : dispatch.call.isWaiting with
      | true =>
        obtain ⟨_, -, stage, -⟩ := Account.pending accounted waiting
        rw [remaining_of_returned (by rw [lost]; exact stage)]
        exact Nat.zero_le _
      | false => simp [remaining, lost, forsake_of_idle waiting]
  cases move with
  | proceed answers => exact remaining_proceed accounted answers
  | hearOperation | hearChecks =>
    simp only [Dispatch.step, Move.isOwn, Bool.toNat_false, Nat.sub_zero]
    split
    case h_1 call | h_2 call =>
      split
      · exact hear _ (by rw [call]; rfl)
      · exact Nat.le_refl _
    case h_3 => exact Nat.le_refl _
  | _ => exact around rfl

/-- A call comes closer to its return by each of its steps, whatever happens in between. -/
theorem Sound.remaining_course (sound : Sound profile dispatch) (schedule : List (Move α)) :
    (dispatch.course profile schedule).remaining ≤
      dispatch.remaining - schedule.countP Move.isOwn := by
  induction schedule generalizing dispatch with
  | nil => exact Nat.le_refl _
  | cons move schedule ih =>
    -- a step of the call's own takes one away, and no other move adds any
    have here := remaining_step sound.accounted move
    have later := ih (sound.step move)
    have count : (move :: schedule).countP Move.isOwn =
        schedule.countP Move.isOwn + move.isOwn.toNat := by
      cases own : move.isOwn <;> simp [own]
    change ((dispatch.step profile move).course profile schedule).remaining ≤ _
    omega

/-! ### What an asynchronous call comes to -/

/-- What an asynchronous call can come to, and why. -/
inductive Answer (profile : Profile) (dispatch : Dispatch α) : Except CallFailure α → Prop
  /-- It has found the proxy closed. -/
  | closed (noTerm : dispatch.term = none) :
      Answer profile dispatch (.error (.closed profile.client))
  /-- It has found no term. -/
  | notLeading (hint : Option HostAndPort) (noTerm : dispatch.term = none) :
      Answer profile dispatch (.error (.notLeader ⟨Call.notLeading, hint, none⟩))
  /-- A shard that was told to stop has refused its operation or its reconciliation. -/
  | refused {piece : Piece} (mem : piece ∈ dispatch.refused)
      (told : dispatch.shard.stopping = true) :
      Answer profile dispatch (.error (.executor (.shutDown profile.shard)))
  /-- Its reconciliation was dropped with the shard. -/
  | dropped (mem : .reconciliation ∈ dispatch.lost) :
      Answer profile dispatch (.error (.executor (.taskLost profile.shard)))
  /-- The law of reconciliation says so, on what it has heard, at the last of its moments. -/
  | ruled {term : Term} {ruling : Call.Ruling α} {last : Nat} (taken : dispatch.term = some term)
      (follows : ruling.Follows (profile.setting .async) dispatch.heard)
      (moment : last < dispatch.moments.length ∨ dispatch.moments = []) :
      Answer profile dispatch
        (ruling.result profile.client term (momentAt dispatch.moments) last)

/-- What a call has come to that is over. -/
theorem Accounted.answer (h : Accounted profile dispatch) {result : Except CallFailure α}
    (finished : dispatch.call = .finished result) : Answer profile dispatch result := by
  have result_eq {other : Except CallFailure α} (call : dispatch.call = .finished other) :
      other = result := Call.finished.inj (call.symm.trans finished)
  cases h with
  | turnedAway _ _ noTerm call why =>
    obtain rfl := result_eq call
    rcases why with rfl | ⟨hint, rfl⟩
    · exact .closed noTerm
    · exact .notLeading hint noTerm
  | refused _ _ mem told call =>
    obtain rfl := result_eq call
    exact .refused mem told
  | dropped _ mem _ call =>
    obtain rfl := result_eq call
    exact .dropped mem
  | ruled _ taken follows call undergone =>
    obtain ⟨last, rfl, moment⟩ := Call.Ruling.result_of_course (call.symm.trans finished)
    exact .ruled taken follows (moment.imp_right List.eq_nil_of_length_eq_zero)
  | entering stage fresh seeks => simp [Progress.Seeks, finished] at seeks
  | handing _ _ _ call | underway _ _ _ call | operated _ _ _ _ _ call
  | confirmed _ _ _ _ _ _ call => simp [finished] at call

/-- A reconciliation that is on its way does what the law says. -/
theorem Accounted.undergone_of_isBusy (h : Accounted profile dispatch)
    (busy : dispatch.isBusy = true) :
    ∃ term, Undergone term dispatch.register.closed dispatch.effects dispatch.call := by
  obtain ⟨stage, idle, unfinished⟩ := isBusy_iff.mp busy
  cases h with
  | ruled _ _ _ _ undergone => exact ⟨_, undergone⟩
  | entering other | handing other => simp [stage] at other
  | turnedAway _ _ _ call | refused _ _ _ _ call | dropped _ _ _ call =>
    simp [call, Call.result?] at unfinished
  | underway _ _ _ call | operated _ _ _ _ _ call | confirmed _ _ _ _ _ _ call =>
    simp [call, Call.isWaiting] at idle

/-- A call does nothing to the proxy by halves. -/
theorem Accounted.untouched_or_whole (h : Accounted profile dispatch)
    (rests : dispatch.isBusy = false) :
    dispatch.effects = [] ∨ ∃ term, dispatch.term = some term ∧
      Whole term dispatch.register.closed dispatch.effects := by
  cases h with
  | entering _ fresh | handing _ _ fresh | turnedAway _ fresh | refused _ fresh
  | underway _ fresh => exact .inl fresh.effects
  | operated _ _ _ untouched | confirmed _ _ _ _ untouched | dropped _ _ untouched =>
    exact .inl untouched
  | @ruled term ruling stage taken follows call undergone =>
    -- a call that follows the law does not wait, so it is over if it rests
    have idle : dispatch.call.isWaiting = false := by rw [call, isWaiting_course]
    cases finished : dispatch.call.result? with
    | none => simp [isBusy_iff.mpr ⟨stage, idle, finished⟩] at rests
    | some result =>
      rw [finished_of_result? finished] at undergone
      exact undergone.imp_right fun whole => ⟨term, taken, whole⟩

/-- A step of a call that adds nothing to what it has done leaves the proxy as it is. -/
theorem Accounted.spares (h : Accounted profile dispatch) (early : .restarted ∉ dispatch.effects)
    {answers : Answers}
    (nothing : (dispatch.proceed profile answers).effects = dispatch.effects) :
    dispatch.toGrounds.Spares (dispatch.proceed profile answers).toGrounds := by
  have proceeds := h.proceeds answers
  generalize dispatch.proceed profile answers = next at nothing proceeds ⊢
  cases proceeds with
  | reconciles busy =>
    obtain ⟨_, undergone⟩ := h.undergone_of_isBusy busy
    rw [conclude_toProgress] at nothing
    rw [conclude_toGrounds]
    exact undergone.spares early (List.append_cancel_left (nothing.trans (List.append_nil _).symm))
  | _ => exact Grounds.spares_self _

/-- Wherever the end of the shard or of the scheduler finds an asynchronous call:

* it returns after nine of its own steps, and once the thread of its shard has ended it has come to
  something;
* what it has come to is the refusal to one that found no term, or the refusal of its work by a
  shard that was told to stop, or the loss of its reconciliation with the shard, or what the law
  of reconciliation gives for what it has heard;
* what it has heard is what its operation and its checks have come to, and the checks fail for an
  executor, or are called off, only where the shard has refused or lost an attempt, or where the
  scheduler was stopped;
* it has done nothing to the proxy or has gone through the whole loss of its term, at every moment
  but those at which the reconciliation is on its way, and then the thread of its shard cannot
  end. -/
theorem resolves (profile : Profile) (schedule : List (Move α)) :
    let dispatch := (start profile : Dispatch α).course profile schedule
    (9 ≤ schedule.countP Move.isOwn → dispatch.stage = .returned) ∧
    (dispatch.shard.phase = .exited → dispatch.stage = .returned →
      ∃ result, dispatch.call = .finished result) ∧
    (∀ result, dispatch.call = .finished result → Answer profile dispatch result) ∧
    (∀ half ∈ dispatch.heard, dispatch.Offers half) ∧
    (∀ failure, .checks (.error (.executor failure)) ∈ dispatch.heard →
      failure = .shutDown profile.shard ∨ failure = .taskLost profile.shard) ∧
    (.checks (.error .cancelled) ∈ dispatch.heard → dispatch.schedulerStopped = true) ∧
    (dispatch.isBusy = true → dispatch.shard.phase ≠ .exited) ∧
    (dispatch.isBusy = false → dispatch.effects = [] ∨ ∃ term, dispatch.term = some term ∧
      (dispatch.effects = [.removed term, .released term.delegate, .restarted] ∨
        dispatch.effects = [.removed term, .released term.delegate] ∧
          dispatch.register.closed = true)) ∧
    (.restarted ∉ dispatch.effects → ∀ answers,
      (dispatch.proceed profile answers).effects = dispatch.effects →
        dispatch.toGrounds.Spares (dispatch.proceed profile answers).toGrounds) := by
  intro dispatch
  have start : Sound profile (start profile : Dispatch α) := sound_start
  obtain ⟨placed, accounted, told⟩ : Sound profile dispatch := start.course schedule
  refine ⟨fun many => ?_, placed.exists_result, fun result finished => accounted.answer finished,
    told.heard, fun failure mem => ?_, told.heardOff, fun busy exited => ?_,
    accounted.untouched_or_whole, fun early answers nothing => accounted.spares early nothing⟩
  · have nine : dispatch.remaining ≤ 9 - schedule.countP Move.isOwn :=
      start.remaining_course schedule
    exact returned_of_remaining (by omega)
  · exact told.due _ (told.heard _ mem)
  · have ready := (placed.busy busy).1
    rw [exited] at ready
    cases ready

end Tenure.Dispatch
