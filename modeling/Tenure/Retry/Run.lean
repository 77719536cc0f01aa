import Tenure.Journal

/-!
# Runs of repeated attempts

An attempt is handed to an executor, its outcome is judged, and if it settles nothing a delay
passes before the next attempt, up to a fixed number of attempts. The run comes to the first
value that the judge accepts, or else to whatever the last attempt delivered: a failed attempt
is made again like a value that is turned down.

A run is known by what it does next. It is over when it has come to a result, when the executor
refused or lost an attempt, or when it was called off; once over, nothing moves it.

## Main definitions

* `Retrier` — the number of attempts and the judge
* `Run` — a run by what it does next
* `Run.handOver`, `Run.receive`, `Run.wake`, `Run.cancel` — its steps
-/

namespace Tenure

/-- How attempts are repeated: how many are made at most, and which values settle the matter. -/
structure Retrier (α : Type) where
  limit : UInt32
  accepts : α → Bool

/-- A retrier with a budget, `AsyncRetrier::new`; a budget of none allows one attempt. -/
def Retrier.new {α : Type} (budget : UInt32) (accepts : α → Bool) : Retrier α where
  limit := max budget 1
  accepts

/-- A run of repeated attempts, by what it does next in `RetryRun::run`; attempts count from one. -/
inductive Run (α ε : Type)
  /-- An attempt is to be handed to the executor. -/
  | submitting (attempt : UInt32)
  /-- An attempt is under way. -/
  | attempting (attempt : UInt32)
  /-- The delay after an attempt that settled nothing. -/
  | pausing (attempt : UInt32)
  | finished (result : Except (RetryFailure ε) α)

namespace Run

variable {α ε : Type}

/-- What comes of an attempt that was handed over. -/
inductive Delivery (α ε : Type)
  | value (value : α)
  | failure (failure : ε)
  /-- The executor dropped it. -/
  | lost

/-- A run that has not begun, as `AsyncRetrier::execute` makes it. -/
def start : Run α ε := submitting 1

/-- Hands the next attempt over, the submission of `RetryRun::run`; an executor that refuses it ends
the run. -/
def handOver (run : Run α ε) (refused : Option ExecutorFailure) : Run α ε :=
  match run, refused with
  | submitting attempt, none => attempting attempt
  | submitting _, some failure => finished (.error (.executor failure))
  | run, _ => run

/-- Whether an attempt is the last one that may be made. -/
def isLast (retrier : Retrier α) (attempt : UInt32) : Bool := retrier.limit ≤ attempt

/-- Takes in what has come of the attempt, as `RetryRun::run` does. The judge is asked only if
another attempt can be made. -/
def receive (retrier : Retrier α) (executor : String) (run : Run α ε)
    (delivery : Delivery α ε) : Run α ε × List Notice :=
  match run, delivery with
  | attempting attempt, .value value =>
    if isLast retrier attempt || retrier.accepts value then (finished (.ok value), [])
    else (pausing attempt, [.inconclusive attempt retrier.limit])
  | attempting attempt, .failure failure =>
    if isLast retrier attempt then (finished (.error (.attempt failure)), [])
    else (pausing attempt, [.attemptFailed attempt retrier.limit])
  | attempting _, .lost => (finished (.error (.executor (.taskLost executor))), [])
  | run, _ => (run, [])

/-- The end of the delay in `RetryRun::run`. -/
def wake (run : Run α ε) : Run α ε :=
  match run with
  | pausing attempt => submitting (attempt + 1)
  | run => run

/-- Calls the run off, `RetryHandle::cancel`, which changes nothing if it is over. -/
def cancel (run : Run α ε) : Run α ε :=
  match run with
  | finished result => finished result
  | _ => finished (.error .cancelled)

/-- What the run has come to. -/
def result? (run : Run α ε) : Option (Except (RetryFailure ε) α) :=
  match run with
  | finished result => some result
  | _ => none

section

variable {run : Run α ε} {retrier : Retrier α} {executor : String} {delivery : Delivery α ε}
  {result : Except (RetryFailure ε) α}

/-- A run that is called off has come to what it had come to before, or to nothing else. -/
@[simp] theorem result?_cancel :
    run.cancel.result? = some (run.result?.getD (.error .cancelled)) := by
  cases run <;> rfl

@[simp] theorem result?_wake : run.wake.result? = run.result? := by
  cases run <;> rfl

theorem result?_receive_of_some (h : run.result? = some result) :
    (run.receive retrier executor delivery).1.result? = some result := by
  cases run with
  | finished => exact h
  | _ => simp [result?] at h

/-- A run fails at an attempt for its executor only if the attempt was lost. -/
theorem result?_receive (h : (run.receive retrier executor delivery).1.result? = some result) :
    run.result? = some result ∨ (∃ value, result = .ok value) ∨
      (∃ failure, result = .error (.attempt failure)) ∨
      result = .error (.executor (.taskLost executor)) := by
  cases run with
  | attempting attempt =>
    cases delivery with
    | value value =>
      simp only [receive] at h
      split at h
      · cases h
        exact .inr (.inl ⟨value, rfl⟩)
      · cases h
    | failure failure =>
      simp only [receive] at h
      split at h
      · cases h
        exact .inr (.inr (.inl ⟨failure, rfl⟩))
      · cases h
    | lost =>
      cases h
      exact .inr (.inr (.inr rfl))
  | finished => exact .inl h
  | _ => simp [receive, result?] at h

end

end Run

end Tenure
