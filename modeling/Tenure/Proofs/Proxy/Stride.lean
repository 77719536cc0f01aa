import Tenure.Proofs.Proxy.Account

/-!
# What a move does to an asynchronous call

A call that can account for what it does takes its next step in one of a few ways. What happens
around it does not reach it, unless it loses its reconciliation.

## Main definitions

* `Dispatch.Accounted` — a call stands where it can account for what it has heard and done
* `Dispatch.Proceeds` — what the next step of a call can be
* `Dispatch.Passes` — what the moves around a call leave as it is

## Main results

* `Dispatch.Accounted.proceeds` — every step of a call is of one of the kinds
* `Dispatch.Passes.step` — the moves around it are no more than that
-/

namespace Tenure.Dispatch

variable {α : Type} {profile : Profile} {dispatch : Dispatch α}

/-- A call stands where it can account for what it has heard and done. -/
def Accounted (profile : Profile) (dispatch : Dispatch α) : Prop :=
  Account profile dispatch.register.closed dispatch.shard.stopping dispatch.lost
    dispatch.toProgress

theorem accounted_start : Accounted profile (start profile : Dispatch α) :=
  .entering rfl ⟨rfl, rfl, rfl⟩ rfl

theorem isBusy_iff : dispatch.isBusy = true ↔ dispatch.stage = .returned ∧
    dispatch.call.isWaiting = false ∧ dispatch.call.result? = none := by
  simp [isBusy, and_assoc]

theorem finished_of_result? {call : Call α} {result : Except CallFailure α}
    (h : call.result? = some result) : call = .finished result := by
  cases call with
  | finished => exact congrArg Call.finished (Option.some.inj h)
  | _ => cases h

/-! ### The steps of a call -/

/-- How many steps a call that looks for a term has left before it has one, at most. -/
def seeking : Call α → Nat
  | .enter => 4
  | .take => 3
  | .excuse => 2
  | .takeAgain _ => 1
  | _ => 0

/-- What the next step of a call can be. -/
inductive Proceeds (profile : Profile) (dispatch : Dispatch α) (answers : Answers) :
    Dispatch α → Prop
  /-- It goes on looking for a term. -/
  | seeks {call : Call α} {term : Option Term} (stage : dispatch.stage = .entering)
      (fresh : dispatch.Fresh) (seeks : Progress.Seeks { dispatch.toProgress with call, term })
      (closer : seeking call < seeking dispatch.call) :
      Proceeds profile dispatch answers { dispatch with stage := .entering, call, term }
  /-- It finds no term. -/
  | turnsAway {failure : CallFailure} {term : Option Term} (stage : dispatch.stage = .entering)
      (fresh : dispatch.Fresh) (noTerm : term = none)
      (why : failure = .closed profile.client ∨
        ∃ hint, failure = .notLeader ⟨Call.notLeading, hint, none⟩) :
      Proceeds profile dispatch answers
        { dispatch with stage := .returned, call := .finished (.error failure), term }
  /-- It starts its checks. -/
  | begins {term : Term} (stage : dispatch.stage = .entering) (fresh : dispatch.Fresh)
      (call : dispatch.call = .begin term) (taken : dispatch.term = some term) :
      Proceeds profile dispatch answers
        { dispatch with
          stage := .checking .operation
          validation := some (if dispatch.schedulerStopped then Run.start.cancel else .start) }
  /-- The shard was not told to stop. -/
  | passes {term : Term} {piece : Piece} (stage : dispatch.stage = .checking piece)
      (ours : piece = .operation ∨ piece = .reconciliation) (fresh : dispatch.Fresh)
      (call : dispatch.call = .begin term) (taken : dispatch.term = some term) :
      Proceeds profile dispatch answers { dispatch with stage := .sending piece }
  /-- The shard takes the operation. -/
  | hands {term : Term} {shard : Worker Piece Piece} (stage : dispatch.stage = .sending .operation)
      (fresh : dispatch.Fresh) (call : dispatch.call = .begin term)
      (taken : dispatch.term = some term)
      (accepts : dispatch.shard.accept .operation = some shard) :
      Proceeds profile dispatch answers
        { dispatch with shard, stage := .checking .reconciliation }
  /-- The shard takes the reconciliation. -/
  | returns {term : Term} {shard : Worker Piece Piece}
      (stage : dispatch.stage = .sending .reconciliation) (fresh : dispatch.Fresh)
      (taken : dispatch.term = some term)
      (accepts : dispatch.shard.accept .reconciliation = some shard) :
      Proceeds profile dispatch answers
        { dispatch with shard, stage := .returned, call := .underway term }
  /-- The shard refuses a piece of work. -/
  | refused {term : Term} {piece : Piece}
      (stage : dispatch.stage = .checking piece ∨ dispatch.stage = .sending piece)
      (fresh : dispatch.Fresh) (call : dispatch.call = .begin term)
      (why : dispatch.shard.stopping = true ∨ dispatch.shard.phase = .exited) :
      Proceeds profile dispatch answers (dispatch.refuse piece)
  /-- The reconciliation goes on. -/
  | reconciles (busy : dispatch.isBusy = true) :
      Proceeds profile dispatch answers
        { dispatch.takeStep profile answers with
          moments := dispatch.moments ++ [(⟨dispatch.toGrounds, answers⟩ : Call.Moment)] }.conclude
  /-- There is nothing to be done. -/
  | rests (stage : dispatch.stage = .returned) (rests : dispatch.isBusy = false) :
      Proceeds profile dispatch answers dispatch

/-- A step of a bystander changes nothing but what the call does next. -/
theorem takeStep_eq (profile : Profile) (bystands : dispatch.call.isBystander = true)
    (answers : Answers) :
    dispatch.takeStep profile answers =
      { dispatch with
        call :=
          (dispatch.call.proceed (profile.setting .async) dispatch.toGrounds answers).1 } := by
  obtain ⟨stays, left⟩ := Call.isBystander_proceed bystands (profile.setting .async)
    dispatch.toGrounds answers
  have aside {call : Call α} (h : call.isBystander = true) : call.stage ≠ 6 := by
    rcases Call.stage_of_isBystander h with h | h <;> omega
  unfold takeStep
  generalize Call.proceed _ _ _ _ = became at stays left ⊢
  obtain ⟨next, grounds, task⟩ := became
  obtain ⟨rfl, rfl⟩ : grounds = dispatch.toGrounds ∧ task = none := by simpa using left
  simp [Effect.of_stage (aside bystands) (aside stays),
    Effect.between_of_spares (Grounds.spares_self _)]

/-- What a call does that looks for a term. -/
theorem proceeds_of_entering (stage : dispatch.stage = .entering) (fresh : dispatch.Fresh)
    (seeks : dispatch.Seeks) (answers : Answers) :
    Proceeds profile dispatch answers (dispatch.proceed profile answers) := by
  have step (bystands : dispatch.call.isBystander = true) := takeStep_eq profile bystands answers
  cases call : dispatch.call with
  | begin term =>
    simp only [Progress.Seeks, call] at seeks
    have begun : dispatch.proceed profile answers =
        { dispatch with
          stage := .checking .operation
          validation :=
            some (if dispatch.schedulerStopped then Run.start.cancel else .start) } := by
      simp only [Dispatch.proceed, stage, call]
    rw [begun]
    exact .begins stage fresh call seeks
  | enter =>
    simp only [Progress.Seeks, call] at seeks
    simp only [Dispatch.proceed, stage, call, step (by rw [call]; rfl), Call.proceed,
      Call.flagRead]
    split
    · exact .turnsAway stage fresh seeks (.inl rfl)
    · exact .seeks stage fresh seeks (by simp [seeking, call])
  | take =>
    simp only [Dispatch.proceed, stage, call, step (by rw [call]; rfl), Call.proceed,
      Call.currentRead]
    split
    case h_1 current | h_2 current => exact .seeks stage fresh current (by simp [seeking, call])
  | excuse =>
    simp only [Progress.Seeks, call] at seeks
    simp only [Dispatch.proceed, stage, call, step (by rw [call]; rfl), Call.proceed,
      Call.hintRead]
    split
    · exact .seeks stage fresh seeks (by simp [seeking, call])
    · exact .turnsAway stage fresh seeks (.inr ⟨none, rfl⟩)
  | takeAgain hint =>
    simp only [Dispatch.proceed, stage, call, step (by rw [call]; rfl), Call.proceed,
      Call.currentRead]
    split
    case h_1 current => exact .seeks stage fresh current (by simp [seeking, call])
    case h_2 current => exact .turnsAway stage fresh current (.inr ⟨some hint, rfl⟩)
  | _ => simp [Progress.Seeks, call] at seeks

/-- What a call does that hands a piece of work over. -/
theorem proceeds_of_handing {term : Term} {piece : Piece}
    (stage : dispatch.stage = .checking piece ∨ dispatch.stage = .sending piece)
    (ours : piece = .operation ∨ piece = .reconciliation) (fresh : dispatch.Fresh)
    (call : dispatch.call = .begin term) (taken : dispatch.term = some term) (answers : Answers) :
    Proceeds profile dispatch answers (dispatch.proceed profile answers) := by
  rcases stage with stage | stage
  · simp only [Dispatch.proceed, stage]
    split
    case isTrue => exact .passes stage ours fresh call taken
    case isFalse told =>
      exact .refused (.inl stage) fresh call (.inl (by simpa [Worker.admits] using told))
  · simp only [Dispatch.proceed, stage]
    split
    case h_1 accepts =>
      rcases ours with rfl | rfl
      · exact .hands stage fresh call taken accepts
      · simp only [Dispatch.accepted, if_neg (by decide : ¬ Piece.reconciliation = .operation),
          call, Call.begun]
        exact .returns stage fresh taken accepts
    case h_2 refused =>
      exact .refused (.inr stage) fresh call (.inr (Worker.accept_eq_none.mp refused))

/-- Every step of a call is of one of the kinds. -/
theorem Accounted.proceeds (h : Accounted profile dispatch) (answers : Answers) :
    Proceeds profile dispatch answers (dispatch.proceed profile answers) := by
  have returned (stage : dispatch.stage = .returned) :
      Proceeds profile dispatch answers (dispatch.proceed profile answers) := by
    simp only [Dispatch.proceed, stage]
    split
    case isTrue busy => exact .reconciles busy
    case isFalse rests => exact .rests stage (by simpa using rests)
  cases h with
  | entering stage fresh seeks => exact proceeds_of_entering stage fresh seeks answers
  | handing stage ours fresh call taken =>
    exact proceeds_of_handing stage ours fresh call taken answers
  | turnedAway stage | refused stage | underway stage | operated stage | confirmed stage
  | dropped stage | ruled stage => exact returned stage

/-! ### The moves around a call -/

/-- Whether a move is none of the call's own, and tells it nothing. -/
def Move.isAround : Move α → Bool
  | proceed _ | hearOperation | hearChecks => false
  | _ => true

/-- What happens around a call leaves it as it is, unless its reconciliation is lost. A proxy that
is closed stays so, as does a shard that was told to stop, and what is lost stays lost. -/
structure Passes (dispatch next : Dispatch α) : Prop where
  progress : next.toProgress = dispatch.toProgress ∨
    .reconciliation ∈ next.lost ∧
      next.toProgress =
        { dispatch.toProgress with call := forsake dispatch.shard.loss dispatch.call }
  name : next.shard.name = dispatch.shard.name
  closed : dispatch.register.closed = true → next.register.closed = true
  stopping : dispatch.shard.stopping = true → next.shard.stopping = true
  lost : dispatch.lost ⊆ next.lost

theorem Passes.refl (dispatch : Dispatch α) : Passes dispatch dispatch :=
  ⟨.inl rfl, rfl, id, id, List.Subset.refl _⟩

/-- What happens on the shard. -/
theorem Passes.shard {shard : Worker Piece Piece} (name : shard.name = dispatch.shard.name)
    (stopping : dispatch.shard.stopping = true → shard.stopping = true) :
    Passes dispatch { dispatch with shard } :=
  ⟨.inl rfl, name, id, stopping, List.Subset.refl _⟩

theorem forsake_forsake (failure : ExecutorFailure) (call : Call α) :
    forsake failure (forsake failure call) = forsake failure call := by
  cases call <;> rfl

theorem Passes.trans {next last : Dispatch α} (h : Passes dispatch next) (h' : Passes next last) :
    Passes dispatch last where
  progress := by
    have loss : next.shard.loss = dispatch.shard.loss := congrArg ExecutorFailure.taskLost h.name
    rcases h.progress with same | ⟨mem, lost⟩
    · rw [← same, ← loss]
      exact h'.progress
    · rcases h'.progress with same | ⟨mem, again⟩
      · exact .inr ⟨h'.lost mem, same.trans lost⟩
      · refine .inr ⟨mem, ?_⟩
        rw [again, loss, lost, forsake_forsake]
  name := h'.name.trans h.name
  closed closed := h'.closed (h.closed closed)
  stopping told := h'.stopping (h.stopping told)
  lost := List.Subset.trans h.lost h'.lost

theorem Passes.deliver (profile : Profile) (dispatch : Dispatch α)
    (delivery : Run.Delivery LeadingStatus ElectionFailure) :
    Passes dispatch (dispatch.deliver profile delivery) := by
  refine ⟨.inl (deliver_toProgress ..), ?_, ?_, ?_, ?_⟩ <;> simp

theorem Passes.lose (profile : Profile) (dispatch : Dispatch α) (pieces : List Piece) :
    Passes dispatch (dispatch.lose profile pieces) := by
  refine ⟨?_, ?_, ?_, ?_, ?_⟩
  · rw [lose_toProgress, lose_lost]
    split
    case isTrue mem => exact .inr ⟨List.mem_append_right _ mem, rfl⟩
    case isFalse => exact .inl rfl
  all_goals simp

/-- What happens around a call does not reach it, unless its reconciliation is lost. -/
theorem Passes.step (profile : Profile) {move : Move α} (around : move.isAround = true) :
    Passes dispatch (dispatch.step profile move) := by
  have same {next : Dispatch α} (progress : next.toProgress = dispatch.toProgress)
      (grounds : next.toGrounds = dispatch.toGrounds) (shard : next.shard = dispatch.shard)
      (lost : next.lost = dispatch.lost) : Passes dispatch next :=
    ⟨.inl progress, by rw [shard], by rw [grounds]; exact id, by rw [shard]; exact id,
      by rw [lost]; exact List.Subset.refl _⟩
  have accepts {piece : Piece} {shard : Worker Piece Piece}
      (taken : dispatch.shard.accept piece = some shard) :
      Passes dispatch { dispatch with shard } := by
    obtain ⟨-, rfl⟩ := Worker.accept_eq_some.mp taken
    exact .shard rfl id
  cases move with
  | proceed | hearOperation | hearChecks => cases around
  | look =>
    have looked : Passes dispatch { dispatch with shard := dispatch.shard.look } :=
      .shard (by simp) (by simp)
    simp only [Dispatch.step, Dispatch.look]
    split
    · exact .refl _
    · split
      · exact looked.trans (.lose ..)
      · exact looked
  | pick =>
    simp only [Dispatch.step]
    split
    · exact .refl _
    · exact .shard (by simp) (by simp)
  | finish breaks =>
    have finished : Passes dispatch { dispatch with shard := dispatch.shard.finish } :=
      .shard (by simp) (by simp)
    simp only [Dispatch.step, Dispatch.finish]
    split
    · split
      · refine Passes.trans ?_ (.lose ..)
        exact ⟨finished.progress, finished.name, id, finished.stopping, finished.lost⟩
      · exact .shard (by simp [Worker.begin]) (by simp [Worker.begin])
    · exact .refl _
  | operate outcome =>
    simp only [Dispatch.step]
    split
    · exact ⟨.inl rfl, rfl, id, id, List.Subset.refl _⟩
    · exact .refl _
  | answer delivery =>
    simp only [Dispatch.step]
    split
    · refine Passes.trans ?_ (.deliver ..)
      exact .shard rfl id
    · exact .refl _
  | clear =>
    simp only [Dispatch.step]
    split
    · split <;> exact same rfl rfl rfl rfl
    · exact .refl _
  | attempt =>
    simp only [Dispatch.step]
    split
    · split
      case h_1 taken =>
        exact (accepts taken).trans ⟨.inl rfl, rfl, id, id, List.Subset.refl _⟩
      case h_2 => exact same rfl rfl rfl rfl
    · exact .refl _
  | wake => exact same rfl rfl rfl rfl
  | callOff =>
    simp only [Dispatch.step]
    split
    · exact same rfl rfl rfl rfl
    · exact .refl _
  | enqueue number =>
    simp only [Dispatch.step]
    split
    case h_1 taken => exact accepts taken
    case h_2 => exact .refl _
  | stopShard => exact .shard rfl fun _ => rfl
  | stopScheduler => exact same rfl rfl rfl rfl
  | meddle grounds =>
    simp only [Dispatch.step]
    split
    case isTrue => exact .refl _
    case isFalse stays => exact ⟨.inl rfl, rfl, by simpa using stays, id, List.Subset.refl _⟩

end Tenure.Dispatch
