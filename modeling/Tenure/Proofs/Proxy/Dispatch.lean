import Tenure.Proxy.Dispatch

/-!
# What the steps of an asynchronous call leave alone

The end of a reconciliation, the outcome of an attempt at a check and the loss of some work each
change one part of a dispatch. What they leave alone is said here once, for each part by itself.

## Main results

* `Dispatch.conclude_toProgress`, `Dispatch.deliver_toProgress`, `Dispatch.lose_toProgress` — how
  far the call has come
* `Dispatch.lose_stage`, `Dispatch.lose_call` — what becomes of it when work is lost
-/

namespace Tenure.Dispatch

variable {α : Type} (profile : Profile) (pieces : List Piece) (dispatch : Dispatch α)
  (delivery : Run.Delivery LeadingStatus ElectionFailure)

@[simp] theorem conclude_toProgress : dispatch.conclude.toProgress = dispatch.toProgress := by
  unfold conclude
  split <;> rfl

@[simp] theorem conclude_toGrounds : dispatch.conclude.toGrounds = dispatch.toGrounds := by
  unfold conclude
  split <;> rfl

@[simp] theorem conclude_stopping : dispatch.conclude.shard.stopping = dispatch.shard.stopping := by
  unfold conclude
  split <;> rfl

@[simp] theorem conclude_outcome : dispatch.conclude.outcome = dispatch.outcome := by
  unfold conclude
  split <;> rfl

@[simp] theorem conclude_validation : dispatch.conclude.validation = dispatch.validation := by
  unfold conclude
  split <;> rfl

@[simp] theorem conclude_schedulerStopped :
    dispatch.conclude.schedulerStopped = dispatch.schedulerStopped := by
  unfold conclude
  split <;> rfl

@[simp] theorem conclude_lost : dispatch.conclude.lost = dispatch.lost := by
  unfold conclude
  split <;> rfl

@[simp] theorem deliver_toProgress :
    (dispatch.deliver profile delivery).toProgress = dispatch.toProgress := by
  unfold deliver
  split <;> rfl

@[simp] theorem deliver_register :
    (dispatch.deliver profile delivery).register = dispatch.register := by
  unfold deliver
  split <;> rfl

@[simp] theorem deliver_shard : (dispatch.deliver profile delivery).shard = dispatch.shard := by
  unfold deliver
  split <;> rfl

@[simp] theorem deliver_lost : (dispatch.deliver profile delivery).lost = dispatch.lost := by
  unfold deliver
  split <;> rfl

@[simp] theorem lose_toProgress :
    (dispatch.lose profile pieces).toProgress =
      { dispatch.toProgress with
        call :=
          if .reconciliation ∈ pieces then forsake dispatch.shard.loss dispatch.call
          else dispatch.call } := by
  unfold lose
  by_cases h : Piece.attempt ∈ pieces
  · simp only [if_pos h, deliver_toProgress, deliver_shard]
  · simp only [if_neg h]

theorem lose_stage : (dispatch.lose profile pieces).stage = dispatch.stage := by
  rw [lose_toProgress]

theorem lose_call : (dispatch.lose profile pieces).call =
    if .reconciliation ∈ pieces then forsake dispatch.shard.loss dispatch.call
    else dispatch.call := by
  rw [lose_toProgress]

@[simp] theorem lose_register : (dispatch.lose profile pieces).register = dispatch.register := by
  unfold lose
  by_cases h : Piece.attempt ∈ pieces <;> simp [h]

@[simp] theorem lose_shard : (dispatch.lose profile pieces).shard = dispatch.shard := by
  unfold lose
  by_cases h : Piece.attempt ∈ pieces <;> simp [h]

@[simp] theorem lose_lost : (dispatch.lose profile pieces).lost = dispatch.lost ++ pieces := by
  unfold lose
  by_cases h : Piece.attempt ∈ pieces <;> simp [h]

end Tenure.Dispatch
