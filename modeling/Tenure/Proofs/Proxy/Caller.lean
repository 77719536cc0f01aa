import Mathlib.Logic.Basic
import Tenure.Proxy.Party

/-!
# What becomes of a call

A call goes on in two ways. Either it takes its next step, which is a step of the call alone but
for the term that it takes and the operation that it begins; or something happens around it, and
of that it hears in few ways: it is told what its operation or its checks have come to, or it is
lost with its shard.

## Main definitions

* `Call.isBystander` — a call neither works on the register nor acquires leadership
* `Caller.Hears` — what a call can hear of what happens around it

## Main results

* `Call.isBystander_proceed` — a bystander does nothing to the proxy
* `Caller.undergo_hears` — whatever happens around a call, it hears of it in one of these ways
* `Caller.call_proceed`, `Caller.term_proceed`, `Caller.work_proceed` — its next step
-/

namespace Tenure

variable {α : Type}

namespace Call

/-- Whether a call neither works on the register nor acquires leadership. -/
def isBystander : Call α → Bool
  | ending .. | rearm _ | acquiring .. => false
  | _ => true

/-- A bystander leaves the grounds as they are and hands over nothing, and stays a bystander. -/
theorem isBystander_proceed {call : Call α} (h : call.isBystander = true) (setting : Setting)
    (grounds : Grounds) (answers : Answers) :
    (call.proceed setting grounds answers).1.isBystander = true ∧
      (call.proceed setting grounds answers).2 = (grounds, none) := by
  cases call with
  | enter | lookOpen taken value =>
    refine ⟨?_, rfl⟩
    cases hc : grounds.register.closed <;> simp [proceed, flagRead, hc, isBystander]
  | take | takeAgain hint =>
    refine ⟨?_, rfl⟩
    cases hs : grounds.register.current <;> simp [proceed, currentRead, hs, isBystander]
  | lookServed taken value | interrupted taken failure =>
    refine ⟨?_, rfl⟩
    simp only [proceed, currentRead]
    split <;> rfl
  | excuse =>
    refine ⟨?_, rfl⟩
    cases hh : answers.hint <;> simp [proceed, hintRead, hh, isBystander]
  | ending cause operation => simp [isBystander] at h
  | rearm cause => simp [isBystander] at h
  | acquiring cause acquisition => simp [isBystander] at h
  | _ => exact ⟨rfl, rfl⟩

end Call

namespace Caller

/-- What a call can hear of what happens around it, with what is reported on the way. -/
inductive Hears (profile : Profile) (caller : Caller α) : Call α → List Notice → Prop
  | nothing : Hears profile caller caller.call []
  /-- Only the run of checks hears of the end of one check. -/
  | check (attempt : UInt32) (delivery : Run.Delivery LeadingStatus ElectionFailure) :
      Hears profile caller caller.call ((Run.attempting attempt).receive
        (statusRetrier profile.budget) profile.shard delivery).2
  | operation (outcome : Outcome α) :
      Hears profile caller (caller.call.operationOver (profile.setting caller.style) outcome).1
        (caller.call.operationOver (profile.setting caller.style) outcome).2
  | checks (result : Checked) :
      Hears profile caller (caller.call.checked (profile.setting caller.style) result).1
        (caller.call.checked (profile.setting caller.style) result).2
  | lost (failure : CallFailure) (waits : caller.call.isWaiting = true) :
      Hears profile caller (.finished (.error failure)) []

/-! ### What happens around it -/

theorem beginCheck_eq (caller : Caller α) :
    ∃ checks, caller.beginCheck = { caller with checks } := by
  unfold beginCheck
  split
  · split <;> exact ⟨_, rfl⟩
  · exact ⟨_, rfl⟩

/-- The end of a check changes the checks and the run of them, and nothing else. -/
theorem finishCheck_eq (profile : Profile) (caller : Caller α)
    (delivery : Run.Delivery LeadingStatus ElectionFailure) :
    ∃ validation checks notices,
      caller.finishCheck profile delivery = ({ caller with validation, checks }, notices) ∧
        (notices = [] ∨ ∃ attempt, notices = ((Run.attempting attempt).receive
          (statusRetrier profile.budget) profile.shard delivery).2) := by
  unfold finishCheck
  split
  · rename_i attempt _
    simp only
    split
    · exact ⟨_, _, _, rfl, .inr ⟨attempt, rfl⟩⟩
    · split
      · exact ⟨_, _, _, rfl, .inr ⟨attempt, rfl⟩⟩
      · exact ⟨_, _, _, rfl, .inl rfl⟩
  · exact ⟨_, _, _, rfl, .inl rfl⟩

/-- A call that is told of its operation takes in what the operation has come to, or has nothing
to be told. -/
theorem tellOperation_eq (profile : Profile) (caller : Caller α) :
    caller.tellOperation profile = (caller, []) ∨
      ∃ outcome validation,
        caller.tellOperation profile =
          ({ caller with
              call := (caller.call.operationOver (profile.setting caller.style) outcome).1
              validation },
            (caller.call.operationOver (profile.setting caller.style) outcome).2) := by
  obtain ⟨style, call, term, work, validation, checks⟩ := caller
  cases work with
  | ended delegate outcome =>
    cases call with
    | underway taken | confirmed taken =>
      right
      cases outcome with
      | value value => exact ⟨.value value, validation, rfl⟩
      | failure failure => exact ⟨.failure failure, validation.map Run.cancel, rfl⟩
      | lost => exact ⟨.lost, validation.map Run.cancel, rfl⟩
    | _ => exact .inl rfl
  | _ => exact .inl rfl

/-- Whatever happens around a call, it hears of it in one of these ways. -/
theorem undergo_hears (profile : Profile) (caller : Caller α) (event : Event α) :
    caller.Hears profile (caller.undergo profile event).1.call
      (caller.undergo profile event).2 := by
  cases event with
  | operationBegun =>
    simp only [undergo]
    split <;> exact .nothing
  | operationOver outcome | checkHandedOver refusal | delayOver | checksCalledOff =>
    exact .nothing
  | checkBegun =>
    obtain ⟨checks, hbegun⟩ := caller.beginCheck_eq
    simp only [undergo, hbegun]
    exact .nothing
  | checkOver delivery =>
    obtain ⟨validation, checks, notices, hfinished, rfl | ⟨attempt, rfl⟩⟩ :=
      caller.finishCheck_eq profile delivery
    · simp only [undergo, hfinished]
      exact .nothing
    · simp only [undergo, hfinished]
      exact .check attempt delivery
  | toldOperation =>
    rcases caller.tellOperation_eq profile with hself | ⟨outcome, validation, htold⟩
    · simp only [undergo, hself]
      exact .nothing
    · simp only [undergo, htold]
      exact .operation outcome
  | toldChecks =>
    simp only [undergo]
    split
    · exact .checks _
    · exact .nothing
  | dropped =>
    obtain ⟨style, call, term, work, validation, checks⟩ := caller
    cases style with
    | blocking => exact .nothing
    | async =>
      cases call with
      -- only what waits on a shard can be lost with it
      | underway term | operated term value | confirmed term => exact .lost _ rfl
      | _ => exact .nothing

/-- Nothing that happens around a call gives it another term. -/
theorem term_undergo (profile : Profile) (caller : Caller α) (event : Event α) :
    (caller.undergo profile event).1.term = caller.term := by
  cases event with
  | operationBegun | toldChecks =>
    simp only [undergo]
    split <;> rfl
  | checkBegun =>
    obtain ⟨checks, hbegun⟩ := caller.beginCheck_eq
    simp only [undergo, hbegun]
  | checkOver delivery =>
    obtain ⟨validation, checks, notices, hfinished, -⟩ := caller.finishCheck_eq profile delivery
    simp only [undergo, hfinished]
  | toldOperation =>
    rcases caller.tellOperation_eq profile with hself | ⟨outcome, validation, htold⟩
    · simp only [undergo, hself]
    · simp only [undergo, htold]
  | dropped =>
    simp only [undergo]
    split <;> rfl
  | _ => rfl

/-! ### Its next step -/

variable {caller : Caller α} {profile : Profile} {grounds : Grounds} {answers : Answers}

/-- What a call leaves and hands over is the same with what accompanies it. -/
theorem proceed_left (profile : Profile) (grounds : Grounds) (answers : Answers)
    (caller : Caller α) :
    (caller.proceed profile grounds answers).2 =
      (caller.call.proceed (profile.setting caller.style) grounds answers).2 := by
  obtain ⟨style, call, term, work, validation, checks⟩ := caller
  cases call <;> rfl

/-- A call goes on as it does by itself, or begins its operation and its checks. -/
theorem call_proceed (profile : Profile) (grounds : Grounds) (answers : Answers)
    (caller : Caller α) :
    (caller.proceed profile grounds answers).1.call =
        (caller.call.proceed (profile.setting caller.style) grounds answers).1 ∨
      ∃ term refusal, caller.call = .begin term ∧
        (caller.proceed profile grounds answers).1.call = (Call.begin term).begun refusal := by
  obtain ⟨style, call, taken, work, validation, checks⟩ := caller
  cases call with
  | begin term =>
    right
    simp only [proceed, begin]
    split <;> exact ⟨term, _, rfl, rfl⟩
  | _ => exact .inl rfl

/-- A call keeps its term, or takes the one that is served when it looks for one. -/
theorem term_proceed (profile : Profile) (grounds : Grounds) (answers : Answers)
    (caller : Caller α) :
    (caller.proceed profile grounds answers).1.term = caller.term ∨
      (caller.call = .take ∨ ∃ hint, caller.call = .takeAgain hint) ∧
        (caller.proceed profile grounds answers).1.term = grounds.register.current := by
  obtain ⟨style, call, taken, work, validation, checks⟩ := caller
  cases call with
  | take => exact .inr ⟨.inl rfl, rfl⟩
  | takeAgain hint => exact .inr ⟨.inr ⟨hint, rfl⟩, rfl⟩
  | begin term =>
    left
    simp only [proceed, begin]
    split <;> rfl
  | _ => exact .inl rfl

/-- A call leaves its operation alone, or asks for it. -/
theorem work_proceed (profile : Profile) (grounds : Grounds) (answers : Answers)
    (caller : Caller α) :
    (caller.proceed profile grounds answers).1.work = caller.work ∨
      ∃ delegate, (caller.proceed profile grounds answers).1.work = .ready delegate := by
  obtain ⟨style, call, taken, work, validation, checks⟩ := caller
  cases call with
  | begin term =>
    simp only [proceed, begin]
    split
    · exact .inl rfl
    · exact .inr ⟨_, rfl⟩
  | _ => exact .inl rfl

end Caller

end Tenure
