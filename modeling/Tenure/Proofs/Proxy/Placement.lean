import Tenure.Proofs.Proxy.Stride

/-!
# Where the reconciliation of a call is

The reconciliation of an asynchronous call stays on its shard until the call is over, so that the
end of the thread of the shard does not leave the call waiting. A call can account for what it
does wherever that end finds it.

## Main definitions

* `Dispatch.Holds` — a piece of work is on a shard
* `Dispatch.Placed` — the reconciliation of a call that is not over is on its shard

## Main results

* `Dispatch.Placed.step`, `Dispatch.Accounted.step` — every move keeps the two laws
* `Dispatch.Placed.exists_result` — no call waits for a thread that has ended
-/

namespace Tenure.Dispatch

variable {α : Type} {profile : Profile} {dispatch : Dispatch α}

/-- Whether a piece of work is on a shard, where it waits, begins or has gone on as a task. -/
def Holds (shard : Worker Piece Piece) (piece : Piece) : Prop :=
  piece ∈ shard.queue ∨ shard.phase = .running piece ∨ piece ∈ shard.tasks

/-- The shard is the one that the proxy was given, a thread that has ended has nothing left, the
reconciliation of a call that waits is on the shard, and while it is on its way the thread is at
its task. -/
structure Placed (profile : Profile) (dispatch : Dispatch α) : Prop where
  name : dispatch.shard.name = profile.shard
  gone : dispatch.shard.phase = .exited →
    dispatch.shard.stopping = true ∧ dispatch.shard.queue = [] ∧ dispatch.shard.tasks = []
  waits : dispatch.stage = .returned → dispatch.call.isWaiting = true →
    Holds dispatch.shard .reconciliation
  busy : dispatch.isBusy = true →
    dispatch.shard.phase = .ready ∧ .reconciliation ∈ dispatch.shard.tasks

theorem placed_start : Placed profile (start profile : Dispatch α) where
  name := rfl
  gone := nofun
  waits := nofun
  busy := nofun

/-- The reconciliation has nowhere to be before the call has returned, or once it is over. -/
theorem Placed.of_rest {next : Dispatch α} (name : next.shard.name = profile.shard)
    (gone : next.shard.phase = .exited →
      next.shard.stopping = true ∧ next.shard.queue = [] ∧ next.shard.tasks = [])
    (rests : next.stage = .returned → next.call.result?.isSome = true) :
    Placed profile next where
  name := name
  gone := gone
  waits stage waiting := by
    have finished := rests stage
    cases call : next.call <;> simp_all [Call.isWaiting, Call.result?]
  busy busy := by
    obtain ⟨stage, -, unfinished⟩ := isBusy_iff.mp busy
    simp [unfinished] at rests
    exact absurd stage rests

/-- What happens on the shard does not move the reconciliation. -/
theorem Placed.of_shard {shard : Worker Piece Piece} (placed : Placed profile dispatch)
    (name : shard.name = dispatch.shard.name)
    (gone : shard.phase = .exited → dispatch.shard.phase = .exited ∧
      (dispatch.shard.stopping = true → shard.stopping = true) ∧
      shard.queue = dispatch.shard.queue ∧ shard.tasks = dispatch.shard.tasks)
    (holds : Holds dispatch.shard .reconciliation → Holds shard .reconciliation)
    (busy : dispatch.isBusy = true → dispatch.shard.phase = .ready →
      .reconciliation ∈ dispatch.shard.tasks →
        shard.phase = .ready ∧ .reconciliation ∈ shard.tasks) :
    Placed profile { dispatch with shard } where
  name := name.trans placed.name
  gone exited := by
    obtain ⟨exited, stopping, queue, tasks⟩ := gone exited
    rw [queue, tasks]
    exact (placed.gone exited).imp_left stopping
  waits stage waiting := holds (placed.waits stage waiting)
  busy isBusy := busy isBusy (placed.busy isBusy).1 (placed.busy isBusy).2

theorem Placed.accept {shard : Worker Piece Piece} (placed : Placed profile dispatch)
    {piece : Piece} (taken : dispatch.shard.accept piece = some shard) :
    Placed profile { dispatch with shard } ∧ Holds shard piece := by
  obtain ⟨alive, rfl⟩ := Worker.accept_eq_some.mp taken
  refine ⟨placed.of_shard rfl (fun exited => absurd exited alive) ?_ fun _ => And.intro, ?_⟩
  · exact Or.imp_left (List.mem_append_left _)
  · exact .inl (List.mem_append_right _ (List.mem_singleton_self _))

theorem Placed.settle (placed : Placed profile dispatch) {piece : Piece}
    (other : piece ≠ .reconciliation) :
    Placed profile { dispatch with shard := dispatch.shard.settle (· == piece) } := by
  have stays : .reconciliation ∈ dispatch.shard.tasks →
      .reconciliation ∈ (dispatch.shard.settle (· == piece)).tasks := by
    simp [Worker.settle, other.symm]
  refine placed.of_shard rfl (fun exited => ?_) ?_ fun _ ready mem => ⟨ready, stays mem⟩
  · have gone := placed.gone exited
    exact ⟨exited, id, rfl, by simp [Worker.settle, gone.2.2]⟩
  · exact Or.imp_right (Or.imp_right stays)

theorem Placed.pick (placed : Placed profile dispatch) (rests : dispatch.isBusy = false) :
    Placed profile { dispatch with shard := dispatch.shard.pick } := by
  refine placed.of_shard (Worker.pick_name _) ?_ ?_ fun busy => absurd busy (by simp [rests])
  · intro exited
    unfold Worker.pick at exited ⊢
    cases phase : dispatch.shard.phase with
    | picking => cases queue : dispatch.shard.queue <;> simp_all
    | _ => simp_all
  · intro holds
    unfold Worker.pick
    cases phase : dispatch.shard.phase with
    | picking =>
      cases queue : dispatch.shard.queue with
      | nil =>
        rw [Holds, queue, phase] at holds
        rcases holds with mem | running | mem
        · cases mem
        · cases running
        · exact .inr (.inr mem)
      | cons job rest =>
        -- what is taken from the queue may be the reconciliation itself
        rw [Holds, queue, phase] at holds
        rcases holds with mem | running | mem
        · rcases List.mem_cons.mp mem with rfl | mem
          · exact .inr (.inl rfl)
          · exact .inl mem
        · cases running
        · exact .inr (.inr mem)
    | ready | exited | running => simpa only [phase] using holds

/-- A call whose reconciliation was dropped does not wait any more. -/
theorem isWaiting_forsake (failure : ExecutorFailure) (call : Call α) :
    (forsake failure call).isWaiting = false ∧
      ((forsake failure call).result? = none → forsake failure call = call) := by
  cases call <;> simp [forsake, Call.isWaiting, Call.result?]

/-- The thread ends only where the reconciliation is not on its way, and takes with it the call
that waits. -/
theorem Placed.look (placed : Placed profile dispatch) (rests : dispatch.isBusy = false) :
    Placed profile (dispatch.look profile) := by
  unfold Dispatch.look
  split
  case isTrue ending =>
    obtain ⟨ready, stopping⟩ := ending
    have exits : dispatch.shard.look =
        { dispatch.shard with phase := .exited, queue := [], tasks := [] } := by
      simp only [Worker.look, ready]
      rw [if_pos stopping]
    -- the call that waits has its reconciliation among what is dropped
    have dropped : dispatch.stage = .returned → dispatch.call.result? = none →
        dispatch.call.isWaiting = true ∧
          .reconciliation ∈ dispatch.shard.queue ++ dispatch.shard.tasks := by
      intro stage unfinished
      have waiting : dispatch.call.isWaiting = true := by
        cases waiting : dispatch.call.isWaiting with
        | true => rfl
        | false => simp [isBusy_iff.mpr ⟨stage, waiting, unfinished⟩] at rests
      rcases placed.waits stage waiting with mem | running | mem
      · exact ⟨waiting, List.mem_append_left _ mem⟩
      · rw [ready] at running
        cases running
      · exact ⟨waiting, List.mem_append_right _ mem⟩
    have progress := lose_toProgress profile (dispatch.shard.queue ++ dispatch.shard.tasks)
      { dispatch with shard := dispatch.shard.look }
    refine .of_rest ?_ ?_ ?_
    · simpa using placed.name
    · intro _
      rw [lose_shard, exits]
      exact ⟨stopping, rfl, rfl⟩
    · rw [progress]
      dsimp only
      intro stage
      rw [Option.isSome_iff_ne_none]
      split
      case isTrue =>
        obtain ⟨idle, same⟩ := isWaiting_forsake dispatch.shard.look.loss dispatch.call
        intro unfinished
        rw [same unfinished] at idle unfinished
        rw [(dropped stage unfinished).1] at idle
        cases idle
      case isFalse absent => exact fun unfinished => absent (dropped stage unfinished).2
  case isFalse stays =>
    refine placed.of_shard (Worker.look_name _) ?_ ?_ fun busy => absurd busy (by simp [rests])
    · intro exited
      unfold Worker.look at exited ⊢
      cases phase : dispatch.shard.phase with
      | ready => simp_all
      | _ => simp_all
    · intro holds
      unfold Worker.look
      cases phase : dispatch.shard.phase with
      | ready =>
        rw [Holds, phase] at holds
        simp only [phase, true_and] at stays
        simp only [if_neg stays]
        exact holds.imp_right (Or.imp_left nofun)
      | picking | running | exited => simpa only [phase] using holds

/-- Where the reconciliation is depends on the shard, and on what the call awaits. -/
theorem Placed.congr {next : Dispatch α} (placed : Placed profile dispatch)
    (shard : next.shard = dispatch.shard) (stage : next.stage = dispatch.stage)
    (call : next.call = dispatch.call) : Placed profile next where
  name := shard ▸ placed.name
  gone := shard ▸ placed.gone
  waits := by rw [shard, stage, call]; exact placed.waits
  busy := by
    rw [isBusy_iff, shard, stage, call, ← isBusy_iff]
    exact placed.busy

/-- A call has come to something once it has returned and the thread of its shard has ended. -/
theorem Placed.exists_result (placed : Placed profile dispatch)
    (exited : dispatch.shard.phase = .exited) (stage : dispatch.stage = .returned) :
    ∃ result, dispatch.call = .finished result := by
  obtain ⟨-, queue, tasks⟩ := placed.gone exited
  have idle : dispatch.call.isWaiting = false := by
    refine Bool.eq_false_iff.mpr fun waiting => ?_
    rcases placed.waits stage waiting with mem | running | mem
    · simp [queue] at mem
    · simp [exited] at running
    · simp [tasks] at mem
  cases finished : dispatch.call.result? with
  | none =>
    have busy := (placed.busy (isBusy_iff.mpr ⟨stage, idle, finished⟩)).1
    rw [exited] at busy
    cases busy
  | some result => exact ⟨result, finished_of_result? finished⟩

theorem Placed.finish (placed : Placed profile dispatch) {piece : Piece}
    (running : dispatch.shard.job? = some piece) (breaks : Bool) :
    Placed profile (dispatch.finish profile piece breaks) := by
  have phase : dispatch.shard.phase = .running piece := by
    unfold Worker.job? at running
    cases phase : dispatch.shard.phase <;> simp_all
  have finish : dispatch.shard.finish = { dispatch.shard with phase := .ready } := by
    simp only [Worker.finish, phase]
  have rests : dispatch.isBusy = true → dispatch.shard.phase ≠ .ready := by simp [phase]
  unfold Dispatch.finish
  rw [finish]
  split
  case isTrue breaks =>
    -- a reconciliation does nothing at its beginning that could break off
    have other : piece ≠ .reconciliation := by
      simp only [Bool.and_eq_true, bne_iff_ne] at breaks
      exact breaks.2
    have finished : Placed profile
        { dispatch with shard := { dispatch.shard with phase := .ready } } := by
      refine placed.of_shard rfl nofun ?_ fun busy ready => absurd ready (rests busy)
      rw [Holds, phase]
      exact Or.imp_right (Or.imp_left fun same => absurd (Worker.Phase.running.inj same) other)
    refine finished.congr (lose_shard ..) (lose_stage ..) ((lose_call ..).trans ?_)
    rw [if_neg (by simpa using other.symm)]
  case isFalse =>
    refine placed.of_shard rfl nofun ?_ fun busy ready => absurd ready (rests busy)
    rw [Holds, phase]
    rintro (mem | same | mem)
    · exact .inl mem
    · obtain rfl := Worker.Phase.running.inj same
      exact .inr (.inr (List.mem_append_right _ (List.mem_singleton_self _)))
    · exact .inr (.inr (List.mem_append_left _ mem))

/-- A reconciliation at its task is at it until it is over. -/
theorem Placed.conclude (placed : Placed profile dispatch)
    (ready : dispatch.shard.phase = .ready)
    (mem : .reconciliation ∈ dispatch.shard.tasks) {next : Dispatch α}
    (shard : next.shard = dispatch.shard) : Placed profile next.conclude := by
  unfold Dispatch.conclude
  split
  case isTrue finished =>
    refine .of_rest (shard ▸ placed.name) (fun exited => ?_) fun _ => finished
    rw [shard] at exited
    simp [Worker.settle, ready] at exited
  case isFalse =>
    exact {
      name := shard ▸ placed.name
      gone := shard ▸ placed.gone
      waits := fun _ _ => .inr (.inr (shard ▸ mem))
      busy := fun _ => ⟨shard ▸ ready, shard ▸ mem⟩ }

theorem Placed.hear (placed : Placed profile dispatch)
    (free : dispatch.isFree .reconciliation = true) (half : Call.Half α) :
    Placed profile (dispatch.hear profile half) := by
  obtain ⟨⟨ready, mem⟩, -⟩ : (dispatch.shard.phase = .ready ∧
      .reconciliation ∈ dispatch.shard.tasks) ∧ dispatch.isBusy = false := by
    simpa [isFree] using free
  exact placed.conclude ready mem rfl

theorem Placed.proceed (placed : Placed profile dispatch) (accounted : Accounted profile dispatch)
    (answers : Answers) : Placed profile (dispatch.proceed profile answers) := by
  have name := placed.name
  have gone := placed.gone
  have proceeds := accounted.proceeds answers
  generalize dispatch.proceed profile answers = next at proceeds ⊢
  cases proceeds with
  | seeks | begins | passes => exact .of_rest name gone fun stage => by cases stage
  | turnsAway => exact .of_rest name gone fun _ => rfl
  | refused stage fresh call =>
    refine .of_rest name gone fun _ => ?_
    simp [Dispatch.refuse, call, Call.begun, Call.result?]
  | hands stage fresh call taken accepts =>
    have held := (placed.accept accepts).1
    exact .of_rest held.name held.gone fun stage => by cases stage
  | returns stage fresh taken accepts =>
    obtain ⟨held, mem⟩ := placed.accept accepts
    exact ⟨held.name, held.gone, fun _ _ => mem, fun busy => by cases busy⟩
  | reconciles busy => exact placed.conclude (placed.busy busy).1 (placed.busy busy).2 rfl
  | rests => exact placed

/-- Every move leaves the reconciliation on its shard until it is over. -/
theorem Placed.step (placed : Placed profile dispatch) (accounted : Accounted profile dispatch)
    (move : Move α) : Placed profile (dispatch.step profile move) := by
  cases move with
  | proceed answers => exact placed.proceed accounted answers
  | hearOperation | hearChecks =>
    simp only [Dispatch.step]
    split
    case h_1 | h_2 =>
      split
      case isTrue free => exact placed.hear free _
      case isFalse => exact placed
    case h_3 => exact placed
  | look =>
    simp only [Dispatch.step]
    split
    case isTrue => exact placed
    case isFalse rests => exact placed.look (by simpa using rests)
  | pick =>
    simp only [Dispatch.step]
    split
    case isTrue => exact placed
    case isFalse rests => exact placed.pick (by simpa using rests)
  | finish breaks =>
    simp only [Dispatch.step]
    split
    case h_1 running => exact placed.finish running breaks
    case h_2 => exact placed
  | operate outcome =>
    simp only [Dispatch.step]
    split
    · exact (placed.settle (by decide : Piece.operation ≠ .reconciliation)).congr rfl rfl rfl
    · exact placed
  | answer delivery =>
    simp only [Dispatch.step]
    split
    · have settled := placed.settle (by decide : Piece.attempt ≠ .reconciliation)
      refine settled.congr (deliver_shard ..) ?_ ?_ <;> rw [deliver_toProgress]
    · exact placed
  | clear =>
    simp only [Dispatch.step]
    split
    · split <;> exact placed.congr rfl rfl rfl
    · exact placed
  | attempt =>
    simp only [Dispatch.step]
    split
    · split
      case h_1 shard taken => exact (placed.accept taken).1.congr rfl rfl rfl
      case h_2 => exact placed.congr rfl rfl rfl
    · exact placed
  | callOff =>
    simp only [Dispatch.step]
    split
    · exact placed.congr rfl rfl rfl
    · exact placed
  | enqueue number =>
    simp only [Dispatch.step]
    split
    case h_1 shard taken => exact (placed.accept taken).1
    case h_2 => exact placed
  | stopShard =>
    exact placed.of_shard rfl (fun exited => ⟨exited, fun _ => rfl, rfl, rfl⟩) id
      fun _ ready mem => ⟨ready, mem⟩
  | meddle grounds =>
    simp only [Dispatch.step]
    split
    · exact placed
    · exact placed.congr rfl rfl rfl
  | wake | stopScheduler => exact placed.congr rfl rfl rfl

/-! ### A call accounts for what it does -/

theorem Accounted.passes {next : Dispatch α} (h : Accounted profile dispatch)
    (name : dispatch.shard.name = profile.shard) (passes : Passes dispatch next) :
    Accounted profile next := by
  have later := h.mono passes.closed passes.stopping passes.lost
  unfold Accounted
  rcases passes.progress with same | ⟨mem, lost⟩
  · rw [same]
    exact later
  · rw [lost, Worker.loss, name]
    exact later.forsake mem (List.Subset.refl _)

theorem Accounted.proceed (h : Accounted profile dispatch) (placed : Placed profile dispatch)
    (answers : Answers) : Accounted profile (dispatch.proceed profile answers) := by
  have proceeds := h.proceeds answers
  generalize dispatch.proceed profile answers = next at proceeds ⊢
  cases proceeds with
  | seeks stage fresh seeks => exact .entering rfl ⟨fresh.heard, fresh.moments, fresh.effects⟩ seeks
  | turnsAway stage fresh noTerm why =>
    exact .turnedAway rfl ⟨fresh.heard, fresh.moments, fresh.effects⟩ noTerm rfl why
  | begins stage fresh call taken =>
    exact .handing (.inl rfl) (.inl rfl) ⟨fresh.heard, fresh.moments, fresh.effects⟩ call taken
  | passes stage ours fresh call taken =>
    exact .handing (.inr rfl) ours ⟨fresh.heard, fresh.moments, fresh.effects⟩ call taken
  | hands stage fresh call taken accepts =>
    exact .handing (.inl rfl) (.inr rfl) ⟨fresh.heard, fresh.moments, fresh.effects⟩ call taken
  | returns stage fresh taken accepts =>
    exact .underway rfl ⟨fresh.heard, fresh.moments, fresh.effects⟩ taken rfl
  | @refused _ piece stage fresh call why =>
    -- a thread ends only after it was told to stop
    have told : dispatch.shard.stopping = true := why.elim id fun exited => (placed.gone exited).1
    refine .refused rfl ⟨fresh.heard, fresh.moments, fresh.effects⟩
      (List.mem_append_right _ (List.mem_singleton_self piece)) told ?_
    rw [← placed.name]
    simp only [Dispatch.refuse, call, Call.begun]
    rfl
  | reconciles busy =>
    obtain ⟨stage, idle, unfinished⟩ := isBusy_iff.mp busy
    unfold Accounted
    rw [conclude_toProgress, conclude_toGrounds, conclude_stopping, conclude_lost]
    exact Account.proceed h stage idle unfinished
  | rests => exact h

theorem Accounted.hear (h : Accounted profile dispatch) {half : Call.Half α}
    (awaits : Awaits half dispatch.call) : Accounted profile (dispatch.hear profile half) := by
  unfold Dispatch.hear Accounted
  rw [conclude_toProgress, conclude_toGrounds, conclude_stopping, conclude_lost]
  exact Account.hear h awaits

/-- Every move leaves a call where it can account for what it does. -/
theorem Accounted.step (h : Accounted profile dispatch) (placed : Placed profile dispatch)
    (move : Move α) : Accounted profile (dispatch.step profile move) := by
  cases move with
  | proceed answers => exact h.proceed placed answers
  | hearOperation | hearChecks =>
    simp only [Dispatch.step]
    split
    case h_1 call | h_2 call =>
      split
      · exact h.hear (by rw [call]; trivial)
      · exact h
    case h_3 => exact h
  | _ => exact h.passes placed.name (.step profile rfl)

end Tenure.Dispatch
