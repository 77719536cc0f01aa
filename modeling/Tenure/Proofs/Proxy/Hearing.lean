import Tenure.Proofs.Proxy.Placement

/-!
# What there is to hear

What an asynchronous call hears of its operation and of its checks is what they have come to, and
stays so. The checks come to a failure of an executor only if the shard has refused or lost an
attempt, and are called off by nobody but a scheduler that was stopped, or a call that does not
listen any more.

## Main definitions

* `Dispatch.Offers` — one of the halves of a call is there to be heard
* `Dispatch.Due` — why the checks can come to something
* `Dispatch.Told` — what a call has heard is what there was to hear

## Main results

* `Dispatch.Tells.step` — the moves around a call keep what there is to hear
* `Dispatch.Told.step` — every move leaves a call with what there was to hear
-/

namespace Tenure.Dispatch

variable {α : Type} {profile : Profile} {dispatch : Dispatch α}

/-- What the run of checks has come to. -/
def checked? (dispatch : Dispatch α) : Option Checked := dispatch.validation.bind Run.result?

/-- Whether one of the halves of a call is there to be heard. -/
def Offers (dispatch : Dispatch α) : Call.Half α → Prop
  | .operation outcome => dispatch.outcome = some outcome
  | .checks result => dispatch.checked? = some result

/-- Why a run of checks can come to something: it fails for its executor only if the shard has
refused or lost an attempt, and a scheduler that was stopped has called it off, or else the call,
which then does not wait any more. -/
def Due (profile : Profile) (dispatch : Dispatch α) : Checked → Prop
  | .error (.executor failure) =>
    failure = .shutDown profile.shard ∨ failure = .taskLost profile.shard
  | .error .cancelled =>
    dispatch.schedulerStopped = true ∨
      dispatch.stage = .returned ∧ dispatch.call.isWaiting = false
  | _ => True

/-- What a call has heard is what there was to hear. -/
structure Told (profile : Profile) (dispatch : Dispatch α) : Prop where
  heard : ∀ half ∈ dispatch.heard, dispatch.Offers half
  due : ∀ result, dispatch.checked? = some result → Due profile dispatch result
  heardOff : .checks (.error .cancelled) ∈ dispatch.heard → dispatch.schedulerStopped = true

theorem told_start : Told profile (start profile : Dispatch α) where
  heard _ mem := absurd mem List.not_mem_nil
  due _ h := by cases h
  heardOff mem := absurd mem List.not_mem_nil

/-! ### What there is to hear stays so -/

/-- What the operation and the checks have come to stays so, and what they come to is due. -/
structure Tells (profile : Profile) (dispatch next : Dispatch α) : Prop where
  offers : ∀ half, dispatch.Offers half → next.Offers half
  comes : ∀ result, next.checked? = some result →
    dispatch.checked? = some result ∨ Due profile next result
  scheduler : dispatch.schedulerStopped = true → next.schedulerStopped = true
  rests : dispatch.stage = .returned → dispatch.call.isWaiting = false →
    next.stage = .returned ∧ next.call.isWaiting = false

theorem Due.tells {next : Dispatch α} {result : Checked} (h : Due profile dispatch result)
    (tells : Tells profile dispatch next) : Due profile next result := by
  cases result with
  | ok status => trivial
  | error failure =>
    cases failure with
    | executor failure => exact h
    | cancelled => exact Or.imp tells.scheduler (fun h => tells.rests h.1 h.2) h
    | attempt failure => trivial

theorem Told.tells {next : Dispatch α} (told : Told profile dispatch)
    (tells : Tells profile dispatch next) (heard : next.heard = dispatch.heard) :
    Told profile next where
  heard half mem := tells.offers half (told.heard half (heard ▸ mem))
  due result h :=
    (tells.comes result h).elim (fun before => (told.due result before).tells tells) id
  heardOff mem := tells.scheduler (told.heardOff (heard ▸ mem))

theorem Tells.of_same {next : Dispatch α} (outcome : next.outcome = dispatch.outcome)
    (validation : next.validation = dispatch.validation)
    (scheduler : next.schedulerStopped = dispatch.schedulerStopped)
    (rests : dispatch.stage = .returned → dispatch.call.isWaiting = false →
      next.stage = .returned ∧ next.call.isWaiting = false) :
    Tells profile dispatch next where
  offers half := by cases half <;> simp [Offers, checked?, outcome, validation]
  comes := by
    rw [checked?, validation]
    exact fun _ => .inl
  scheduler := by simp [scheduler]
  rests := rests

theorem Tells.refl (dispatch : Dispatch α) : Tells profile dispatch dispatch :=
  .of_same rfl rfl rfl fun stage idle => ⟨stage, idle⟩

/-- What happens on the shard tells nothing. -/
theorem Tells.shard (shard : Worker Piece Piece) : Tells profile dispatch { dispatch with shard } :=
  .of_same rfl rfl rfl fun stage idle => ⟨stage, idle⟩

theorem Tells.trans {next last : Dispatch α} (h : Tells profile dispatch next)
    (h' : Tells profile next last) : Tells profile dispatch last where
  offers half offered := h'.offers half (h.offers half offered)
  comes result known := (h'.comes result known).elim
    (fun before => (h.comes result before).imp_right fun due => due.tells h') .inr
  scheduler stopped := h'.scheduler (h.scheduler stopped)
  rests stage idle := h'.rests (h.rests stage idle).1 (h.rests stage idle).2

/-- A run that comes to something comes to what is due. -/
theorem Tells.of_validation {next : Dispatch α} (outcome : next.outcome = dispatch.outcome)
    (stays : ∀ result, dispatch.checked? = some result → next.checked? = some result)
    (comes : ∀ result, next.checked? = some result →
      dispatch.checked? = some result ∨ Due profile next result)
    (scheduler : next.schedulerStopped = dispatch.schedulerStopped)
    (rests : dispatch.stage = .returned → dispatch.call.isWaiting = false →
      next.stage = .returned ∧ next.call.isWaiting = false) : Tells profile dispatch next where
  offers half offered := by
    cases half with
    | operation => exact outcome.trans offered
    | checks result => exact stays result offered
  comes := comes
  scheduler := by simp [scheduler]
  rests := rests

/-- A run that is called off, by a scheduler that was stopped or by a call that does not wait. -/
theorem Tells.of_cancel {next : Dispatch α} (outcome : next.outcome = dispatch.outcome)
    (validation : next.validation = dispatch.validation.map Run.cancel)
    (scheduler : next.schedulerStopped = dispatch.schedulerStopped)
    (rests : dispatch.stage = .returned → dispatch.call.isWaiting = false →
      next.stage = .returned ∧ next.call.isWaiting = false)
    (due : Due profile next (.error .cancelled)) : Tells profile dispatch next := by
  refine .of_validation outcome (fun result h => ?_) (fun result h => ?_) scheduler rests
  · obtain ⟨run, here, finished⟩ := Option.bind_eq_some_iff.mp h
    simp [checked?, validation, here, finished]
  · cases here : dispatch.validation with
    | none => simp [checked?, validation, here] at h
    | some run =>
      simp only [checked?, validation, here, Option.map_some, Option.bind_some,
        Run.result?_cancel, Option.some.injEq] at h ⊢
      cases finished : run.result? with
      | some known =>
        rw [finished, Option.getD_some] at h
        exact .inl (congrArg some h)
      | none =>
        rw [finished, Option.getD_none] at h
        exact .inr (h ▸ due)

/-! ### The moves around a call -/

theorem Tells.deliver (delivery : Run.Delivery LeadingStatus ElectionFailure) :
    Tells profile dispatch (dispatch.deliver profile delivery) := by
  unfold Dispatch.deliver
  cases here : dispatch.validation with
  | none => exact .refl _
  | some run =>
    refine .of_validation rfl (fun result h => ?_) (fun result h => ?_) rfl
      fun stage idle => ⟨stage, idle⟩
    · simp only [checked?, here, Option.bind_some] at h
      exact Run.result?_receive_of_some h
    · rw [checked?, here, Option.bind_some]
      rcases Run.result?_receive h with before | ⟨value, rfl⟩ | ⟨failure, rfl⟩ | rfl
      · exact .inl before
      · exact .inr trivial
      · exact .inr trivial
      · exact .inr (.inr rfl)

/-- An operation that comes to something is not lost any more. -/
theorem Tells.of_outcome {outcome? : Option (Outcome α)} :
    Tells profile dispatch { dispatch with outcome := dispatch.outcome.or outcome? } where
  offers half offered := by
    cases half with
    | operation outcome => exact (congrArg (Option.or · outcome?) offered).trans Option.some_or
    | checks => exact offered
  comes _ := .inl
  scheduler := id
  rests stage idle := ⟨stage, idle⟩

theorem Tells.lose (pieces : List Piece) :
    Tells profile dispatch (dispatch.lose profile pieces) := by
  have told : Tells profile dispatch
      (if .attempt ∈ pieces then dispatch.deliver profile .lost else dispatch) := by
    split
    · exact .deliver .lost
    · exact .refl _
  refine told.trans ⟨fun half offered => ?_, fun _ => .inl, id, fun stage idle => ⟨stage, ?_⟩⟩
  · cases half with
    | operation outcome =>
      simp only [Offers, Dispatch.lose] at offered ⊢
      split
      · rw [offered, Option.some_or]
      · exact offered
    | checks => exact offered
  · simp only [Dispatch.lose]
    split
    · exact (isWaiting_forsake _ _).1
    · exact idle

/-- A run whose shard refuses its next attempt fails for it. -/
theorem Tells.refuse {attempt : UInt32} (name : dispatch.shard.name = profile.shard)
    (here : dispatch.validation = some (.submitting attempt)) (cleared : Bool) :
    Tells profile dispatch
      { dispatch with
        validation := some (Run.handOver (.submitting attempt) dispatch.shard.refusal)
        isCleared := cleared } := by
  refine .of_validation rfl (fun result known => ?_) (fun result known => ?_) rfl
    fun stage idle => ⟨stage, idle⟩
  · simp [checked?, here, Run.result?] at known
  · obtain rfl : .error (.executor dispatch.shard.refusal) = result := Option.some.inj known
    exact .inr (.inl (congrArg ExecutorFailure.shutDown name))

/-- The moves around a call keep what there is to hear. -/
theorem Tells.step (name : dispatch.shard.name = profile.shard) {move : Move α}
    (around : move.isAround = true) : Tells profile dispatch (dispatch.step profile move) := by
  cases move with
  | proceed | hearOperation | hearChecks => cases around
  | look =>
    simp only [Dispatch.step]
    split
    · exact .refl _
    · unfold Dispatch.look
      split
      · exact (Tells.shard _).trans (.lose _)
      · exact .shard _
  | pick =>
    simp only [Dispatch.step]
    split
    · exact .refl _
    · exact .shard _
  | finish breaks =>
    simp only [Dispatch.step]
    split
    · unfold Dispatch.finish
      split
      · refine .trans ?_ (.lose _)
        exact .of_same rfl rfl rfl fun stage idle => ⟨stage, idle⟩
      · exact .shard _
    · exact .refl _
  | operate outcome =>
    simp only [Dispatch.step]
    split
    · exact Tells.of_outcome.trans (.shard _)
    · exact .refl _
  | answer delivery =>
    simp only [Dispatch.step]
    split
    · exact (Tells.shard _).trans (.deliver delivery)
    · exact .refl _
  | clear =>
    simp only [Dispatch.step]
    split
    case h_1 here _ =>
      split
      · exact .of_same rfl rfl rfl fun stage idle => ⟨stage, idle⟩
      · exact .refuse name here _
    case h_2 => exact .refl _
  | attempt =>
    simp only [Dispatch.step]
    split
    case h_1 here _ =>
      split
      · refine .of_validation rfl (fun result known => ?_) (fun result known => by cases known) rfl
          fun stage idle => ⟨stage, idle⟩
        simp [checked?, here, Run.result?] at known
      · exact .refuse name here false
    case h_2 => exact .refl _
  | wake =>
    have same : (dispatch.step profile .wake).checked? = dispatch.checked? := by
      simp only [checked?, Dispatch.step]
      cases dispatch.validation with
      | none => rfl
      | some run => exact Run.result?_wake
    exact .of_validation rfl (fun _ known => same.trans known)
      (fun _ known => .inl (same.symm.trans known)) rfl fun stage idle => ⟨stage, idle⟩
  | callOff =>
    simp only [Dispatch.step]
    split
    case isTrue stopped =>
      exact .of_cancel rfl rfl rfl (fun stage idle => ⟨stage, idle⟩) (.inl stopped)
    case isFalse => exact .refl _
  | enqueue number =>
    simp only [Dispatch.step]
    split
    · exact .shard _
    · exact .refl _
  | stopShard => exact .shard _
  | stopScheduler =>
    exact ⟨fun _ => id, fun _ => .inl, fun _ => rfl, fun stage idle => ⟨stage, idle⟩⟩
  | meddle grounds =>
    simp only [Dispatch.step]
    split
    · exact .refl _
    · exact .of_same rfl rfl rfl fun stage idle => ⟨stage, idle⟩

/-! ### What a call hears -/

theorem Tells.conclude {next : Dispatch α} (tells : Tells profile dispatch next) :
    Tells profile dispatch next.conclude :=
  tells.trans (.of_same (conclude_outcome _) (conclude_validation _) (conclude_schedulerStopped _)
    fun stage idle => by rw [conclude_toProgress]; exact ⟨stage, idle⟩)

/-- Nothing that a call does before it returns keeps it from what there is to hear. -/
theorem Told.of_early {next : Dispatch α} (told : Told profile dispatch)
    (early : dispatch.stage ≠ .returned) (outcome : next.outcome = dispatch.outcome)
    (validation : next.validation = dispatch.validation)
    (scheduler : next.schedulerStopped = dispatch.schedulerStopped)
    (heard : next.heard = dispatch.heard) : Told profile next :=
  told.tells (.of_same outcome validation scheduler fun stage => absurd stage early) heard

theorem Told.refuse (told : Told profile dispatch) {term : Term} {piece : Piece}
    (early : dispatch.stage ≠ .returned) (call : dispatch.call = .begin term) :
    Told profile (dispatch.refuse piece) := by
  -- only a call whose operation is refused calls its checks off
  by_cases which : piece = .operation
  · have idle : (dispatch.refuse piece).call.isWaiting = false := by
      simp [Dispatch.refuse, call, Call.begun, Call.isWaiting]
    refine told.tells (.of_cancel rfl ?_ rfl (fun stage => absurd stage early)
      (.inr ⟨rfl, idle⟩)) rfl
    simp [Dispatch.refuse, which]
  · refine told.of_early early rfl ?_ rfl rfl
    simp [Dispatch.refuse, which]

theorem Told.proceed (told : Told profile dispatch) (accounted : Accounted profile dispatch)
    (answers : Answers) : Told profile (dispatch.proceed profile answers) := by
  have proceeds := accounted.proceeds answers
  generalize dispatch.proceed profile answers = next at proceeds ⊢
  cases proceeds with
  | seeks stage | turnsAway stage | passes stage | hands stage | returns stage =>
    exact told.of_early (by simp [stage]) rfl rfl rfl rfl
  | begins stage fresh =>
    -- a scheduler that was stopped has dropped the run before anything is heard
    refine ⟨fun half mem => ?_, fun result known => ?_, fun mem => ?_⟩
    · simp [fresh.heard] at mem
    · simp only [checked?, Option.bind_some] at known
      split at known
      case isTrue stopped =>
        cases known
        exact .inl stopped
      case isFalse => cases known
    · simp [fresh.heard] at mem
  | refused stage fresh call =>
    exact told.refuse (by rcases stage with stage | stage <;> simp [stage]) call
  | reconciles =>
    refine told.tells (Tells.conclude (.of_same rfl rfl rfl fun stage idle => ⟨stage, ?_⟩)) ?_
    · exact (isWaiting_proceed _ _ _ _).trans idle
    · rw [conclude_toProgress]
      rfl
  | rests => exact told

/-- An operation that comes to no value leaves nothing to wait for. -/
theorem Account.idle_of_operation {closed stopping : Bool} {lost : List Piece}
    {progress : Progress α} (h : Account profile closed stopping lost progress)
    {outcome : Outcome α} (awaits : Awaits (.operation outcome) progress.call)
    (noValue : ∀ value, outcome ≠ .value value) :
    progress.stage = .returned ∧
      (progress.call.hear (profile.setting .async) (.operation outcome)).1.isWaiting = false := by
  obtain ⟨term, -, stage, -, -, pending⟩ := h.pending awaits.isWaiting
  refine ⟨stage, ?_⟩
  have idle (ruling : Call.Ruling α) : (ruling.start term).isWaiting = false :=
    isWaiting_course (profile.setting .async) (momentAt []) ruling term 0
  cases pending with
  | underway call =>
    rw [call, Call.hear_operation]
    cases outcome with
    | value value => exact absurd rfl (noValue value)
    | failure failure | lost => exact idle _
  | operated call =>
    rw [call] at awaits
    exact awaits.elim
  | confirmed call =>
    rw [call, Call.confirmed_operation]
    exact idle _

theorem Tells.hear (accounted : Accounted profile dispatch) {half : Call.Half α}
    (awaits : Awaits half dispatch.call) :
    Tells profile dispatch (dispatch.hear profile half) := by
  have waits {P : Prop} (idle : dispatch.call.isWaiting = false) : P := by
    simp [awaits.isWaiting] at idle
  unfold Dispatch.hear
  cases half with
  | checks result => exact .conclude (.of_same rfl rfl rfl fun _ => waits)
  | operation outcome =>
    cases outcome with
    | value value => exact .conclude (.of_same rfl rfl rfl fun _ => waits)
    | failure failure | lost =>
      -- without a value the checks are called off, and nothing waits for them any more
      refine .conclude (.of_cancel rfl rfl rfl (fun _ => waits) (.inr ?_))
      exact Account.idle_of_operation accounted awaits nofun

theorem Told.hear (told : Told profile dispatch) (accounted : Accounted profile dispatch)
    {half : Call.Half α} (awaits : Awaits half dispatch.call) (offered : dispatch.Offers half) :
    Told profile (dispatch.hear profile half) := by
  have tells := Tells.hear accounted awaits
  have heard : (dispatch.hear profile half).heard = dispatch.heard ++ [half] := by
    unfold Dispatch.hear
    rw [conclude_toProgress]
  refine ⟨fun other mem => ?_, fun result known => ?_, fun mem => ?_⟩
  · rw [heard, List.mem_append, List.mem_singleton] at mem
    rcases mem with mem | rfl
    · exact tells.offers other (told.heard other mem)
    · exact tells.offers other offered
  · exact (tells.comes result known).elim (fun before => (told.due result before).tells tells) id
  · rw [heard, List.mem_append, List.mem_singleton] at mem
    rcases mem with mem | rfl
    · exact tells.scheduler (told.heardOff mem)
    · -- a call that waits has not called its checks off itself
      rcases told.due _ offered with stopped | ⟨-, idle⟩
      · exact tells.scheduler stopped
      · simp [awaits.isWaiting] at idle

/-- Every move leaves a call with what there was to hear. -/
theorem Told.step (told : Told profile dispatch) (placed : Placed profile dispatch)
    (accounted : Accounted profile dispatch) (move : Move α) :
    Told profile (dispatch.step profile move) := by
  have around (around : move.isAround = true) : Told profile (dispatch.step profile move) := by
    refine told.tells (.step placed.name around) ?_
    rcases (Passes.step profile around).progress with same | ⟨-, lost⟩
    · rw [same]
    · rw [lost]
  cases move with
  | proceed answers => exact told.proceed accounted answers
  | hearOperation | hearChecks =>
    simp only [Dispatch.step]
    split
    case h_1 there call | h_2 there call =>
      split
      · exact told.hear accounted (by rw [call]; trivial) there
      · exact told
    case h_3 => exact told
  | _ => exact around rfl

end Tenure.Dispatch
