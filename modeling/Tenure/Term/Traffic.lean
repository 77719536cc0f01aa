import Tenure.Term.Ledger

/-!
# Traffic on a register

Any number of operations on one register at the same time. Whoever holds the register may begin
another operation at any moment, and of the operations under way any one may be the next to
proceed. A schedule is an endless list of such moves; every order in which the steps of the
operations can come is the order of some schedule.

## Main definitions

* `OperationRun` — an operation under way, with what it was when it was begun
* `Traffic` — a register with its ledger and the operations that were begun on it
* `Traffic.step` — one move; `Traffic.after` — what a schedule has led to
-/

namespace Tenure

/-- An operation that was begun: what it was then, and what it is now. -/
structure OperationRun where
  origin : Operation
  now : Operation
  deriving DecidableEq, Repr

/-- A register with its ledger and the operations that were begun on it, in this order. -/
structure Traffic extends Ledger where
  runs : List OperationRun := []

namespace Traffic

/-- One move: an operation is begun, or one that is under way proceeds. -/
inductive Move
  /-- A delegate that was just built is brought to be published under a token. -/
  | publish (token : Token)
  | invalidate (term : Term)
  | close
  /-- The operation at a place proceeds; if it waits for a delegate, it returns this way. -/
  | proceed (i : Nat) (how : Operation.Return)

/-- Begins an operation. -/
def begin (traffic : Traffic) (operation : Operation) : Traffic :=
  { traffic with runs := traffic.runs ++ [⟨operation, operation⟩] }

/-- The traffic after a move. A move of an operation that was never begun changes nothing. -/
def step (traffic : Traffic) : Move → Traffic
  | .publish token =>
    { traffic with brought := traffic.brought + 1 }.begin
      (.publish ⟨token, traffic.brought + 1⟩)
  | .invalidate term => traffic.begin (.invalidate term)
  | .close => traffic.begin .shut
  | .proceed i how =>
    match traffic.runs[i]? with
    | none => traffic
    | some run =>
      let (now, ledger) := run.now.proceed traffic.toLedger how
      { toLedger := ledger, runs := traffic.runs.set i { run with now } }

/-- What the first moves of a schedule have led to. -/
def after (schedule : Nat → Move) : Nat → Traffic
  | 0 => {}
  | n + 1 => (after schedule n).step (schedule n)

end Traffic

end Tenure
