import Tenure.Term.Ledger

/-!
# The course of an undisturbed operation

An operation on a register that nobody else touches meanwhile runs to its end. It can still
meet itself: a delegate that is being released may close the very register it was served from,
and the closing then runs to its own end before the release returns. A delegate that is
released may also break off, and everything that was waiting for its return is broken off with
it.

Everything that happens on the way is what `Operation.proceed` makes of the operations and the
ledger. What a delegate does when it is released is left to the surroundings of the operation.

## Main definitions

* `Conduct` — what a delegate does when it is released
* `Surroundings` — where the conduct comes from
* `Operation.weight` — how much of an operation is left
* `Operation.run` — the course of an operation to its end
-/

namespace Tenure

/-- What a delegate does when it is released. -/
inductive Conduct
  | clean
  | failing (failure : String)
  /-- It closes the register it was served from, and then returns cleanly. -/
  | closing
  /-- It never returns. -/
  | breaking
  deriving DecidableEq, Repr

/-- Where an operation takes place: how a delegate that is being released behaves, and what
follows when a delegate has closed its register. -/
structure Surroundings (σ : Type) where
  release : Holding → σ → Conduct × σ
  closedInside : σ → σ

namespace Operation

/-- How much of an operation is left: the longest way to its end, each release counted with
what it is made of. -/
def weight : Operation → Nat
  | publish _ => 11
  | number _ => 10
  | put _ => 9
  | recheck _ => 5
  | retract => 4
  | invalidate _ => 4
  | shut => 5
  | clear => 4
  | release _ sequel => sequelWeight sequel + 3
  | releasing _ sequel => sequelWeight sequel + 2
  | done _ => 0
where
  /-- How much is left after a release. -/
  sequelWeight : Sequel → Nat
    | .recheck _ => 5
    | .finish _ => 0

@[simp] theorem weight_resume (sequel : Sequel) :
    sequel.resume.weight = weight.sequelWeight sequel := by
  cases sequel <;> rfl

theorem weight_of_waits {operation : Operation} {holding : Holding} {sequel : Sequel}
    (waits : operation.standing = .waits holding sequel) :
    operation.weight = weight.sequelWeight sequel + 2 := by
  cases operation <;> simp_all [standing, weight]

theorem weight_releaseThen_le (taken : Option Term) (outcome : Outcome) :
    (releaseThen taken outcome).weight ≤ 3 := by
  cases taken <;> simp [releaseThen, weight, weight.sequelWeight]

/-- A step leaves less of an operation than there was. -/
theorem weight_step_lt (register : Register) {operation : Operation}
    (moves : operation.standing = .moves) :
    (step register operation).1.weight < operation.weight := by
  cases operation with
  | publish holding =>
    simp only [step]; split <;> simp [weight, weight.sequelWeight]
  | number holding => simp [step, weight]
  | put term =>
    simp only [step, Register.put]
    split <;> simp [weight, weight.sequelWeight]
  | recheck term => simp only [step]; split <;> simp [weight]
  | retract =>
    exact Nat.lt_of_le_of_lt (weight_releaseThen_le _ _) (by simp [weight])
  | invalidate term =>
    exact Nat.lt_of_le_of_lt (weight_releaseThen_le _ _) (by simp [weight])
  | shut => simp only [step]; split <;> simp [weight]
  | clear =>
    exact Nat.lt_of_le_of_lt (weight_releaseThen_le _ _) (by simp [weight])
  | release holding sequel => simp [step, weight]
  | releasing holding sequel => simp [standing] at moves
  | done outcome => simp [standing] at moves

/-- No step opens a register. -/
theorem closed_step (register : Register) (operation : Operation) (closed : register.closed) :
    (step register operation).2.1.closed := by
  cases operation <;>
    simp only [step, Register.number, Register.put, Register.take, Register.takeIf,
      Register.close] <;>
    repeat' split
  all_goals simp_all

/-- How much a register can still cost: a closing that finds it open goes on to clear it. -/
def openWeight (register : Register) : Nat := if register.closed then 0 else 10

theorem openWeight_step_le (register : Register) (operation : Operation) :
    openWeight (step register operation).2.1 ≤ openWeight register := by
  unfold openWeight
  by_cases closed : register.closed
  · simp [closed, closed_step register operation closed]
  · simp only [closed]; split <;> simp

/-- The return of a delegate leaves of an operation what comes after the release, and the register
as it is. -/
theorem proceed_of_waits (ledger : Ledger) (how : Return) {operation : Operation}
    {holding : Holding} {sequel : Sequel} (waits : operation.standing = .waits holding sequel) :
    (operation.proceed ledger how).1.weight = weight.sequelWeight sequel ∧
      (operation.proceed ledger how).2.register = ledger.register := by
  cases operation <;> simp_all [standing]
  cases how <;> simp [proceed, standing, returned]

/-- An operation that has a step to take leaves less of itself, and opens nothing. -/
theorem proceed_of_moves (ledger : Ledger) (how : Return) {operation : Operation}
    (moves : operation.standing = .moves) :
    (operation.proceed ledger how).1.weight < operation.weight ∧
      openWeight (operation.proceed ledger how).2.register ≤ openWeight ledger.register := by
  have hstep : (operation.proceed ledger how).1 = (step ledger.register operation).1 ∧
      (operation.proceed ledger how).2.register = (step ledger.register operation).2.1 := by
    simp [proceed, moves]
  rw [hstep.1, hstep.2]
  exact ⟨weight_step_lt ledger.register moves, openWeight_step_le ledger.register operation⟩

/-- A closing begun inside a release weighs less than what it takes away. -/
theorem nestedWeight_le (ledger : Ledger) :
    (shut.proceed ledger .clean).1.weight + openWeight (shut.proceed ledger .clean).2.register
      ≤ openWeight ledger.register := by
  by_cases closed : ledger.register.closed <;>
    simp [proceed, standing, step, Register.close, openWeight, closed, weight]

/-- How much is left of releases that wait for something inside them to end. -/
def waitingWeight (waiting : List (Holding × Sequel)) : Nat :=
  waiting.foldr (fun release others => weight.sequelWeight release.2 + 1 + others) 0

/-- The course of an operation to its end, inside the releases that wait for it, innermost
first. The outcome is missing if a delegate broke off. -/
def run {σ : Type} (around : Surroundings σ) (ledger : Ledger) (state : σ)
    (operation : Operation) (waiting : List (Holding × Sequel)) : Option Outcome × Ledger × σ :=
  match _standing : operation.standing with
  | .finished outcome =>
    match waiting with
    | [] => (some outcome, ledger, state)
    | (holding, sequel) :: waiting =>
      let back := (releasing holding sequel).proceed ledger .clean
      run around back.2 (around.closedInside state) back.1 waiting
  | .waits holding sequel =>
    match around.release holding state with
    | (.clean, state) =>
      let back := operation.proceed ledger .clean
      run around back.2 state back.1 waiting
    | (.failing failure, state) =>
      let back := operation.proceed ledger (.failed failure)
      run around back.2 state back.1 waiting
    | (.closing, state) =>
      let inside := shut.proceed ledger .clean
      run around inside.2 state inside.1 ((holding, sequel) :: waiting)
    | (.breaking, state) => (none, ledger, state)
  | .moves =>
    let next := operation.proceed ledger .clean
    run around next.2 state next.1 waiting
termination_by operation.weight + waitingWeight waiting + openWeight ledger.register
decreasing_by
  · have := proceed_of_waits ledger .clean (show (releasing holding sequel).standing = _ from rfl)
    simp only [waitingWeight, List.foldr_cons, this]
    omega
  · have := proceed_of_waits ledger .clean _standing
    simp [this, weight_of_waits _standing]
  · have := proceed_of_waits ledger (.failed failure) _standing
    simp [this, weight_of_waits _standing]
  · have := nestedWeight_le ledger
    simp only [waitingWeight, List.foldr_cons, weight_of_waits _standing]
    omega
  · have := proceed_of_moves ledger .clean _standing
    omega

/-- The course of an operation that nothing waits for. -/
def course {σ : Type} (around : Surroundings σ) (ledger : Ledger) (state : σ)
    (operation : Operation) : Option Outcome × Ledger × σ :=
  run around ledger state operation []

end Operation

end Tenure
