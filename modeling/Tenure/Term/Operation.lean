import Tenure.Journal
import Tenure.Term.Register

/-!
# Operations on the term register

Publishing a holding, ending a term and closing the register each take several indivisible
steps, between which anything else may happen to the register. An operation under way is
therefore a value that says what its next step is, and `Operation.step` takes that step.

*Publishing* looks whether the register is open, numbers the holding, puts the term into
service, and looks again: the register may have been closed in between, and then whatever is in
service is taken out again. *Ending* takes a term out of service if it still is the one that is
served. *Closing* sets the flag and takes out what is served. Whoever takes a term out of
service, or turns a holding away, releases its delegate, and nobody else does.

A release hands control to the delegate. It has a step that begins it and a return that ends
it, and the delegate may do what it likes in between, operations on the same register included.

## Main definitions

* `Operation` — an operation by its next step; `Operation.Outcome` — what it comes to
* `Operation.step` — the next indivisible step
* `Operation.returned` — the return of a delegate that was being released
* `Operation.standing` — whether an operation is over, waits, or has a step to take
* `Operation.publish`, `Operation.invalidate`, `Operation.shut` — the operations, not begun
-/

namespace Tenure

namespace Operation

/-- What an operation comes to: the term it published, if it did; whether it was the one that
ended the term; whether it was the one that closed the register. -/
inductive Outcome
  | published (term : Option Term)
  | ended (won : Bool)
  | closed (first : Bool)
  deriving DecidableEq, Repr

/-- What an operation goes on with after a release. -/
inductive Sequel
  /-- A term was replaced by this one: look whether the register is still open. -/
  | recheck (term : Term)
  /-- The operation is over. -/
  | finish (outcome : Outcome)
  deriving DecidableEq, Repr

end Operation

open Operation in
/-- An operation on the register that is under way, by the step it takes next. -/
inductive Operation
  /-- Publishing, `LeadershipState::try_publish`: look whether the register is open. -/
  | publish (holding : Holding)
  /-- Publishing: number the holding. -/
  | number (holding : Holding)
  /-- Publishing: put the term into service. -/
  | put (term : Term)
  /-- Publishing: look again whether the register is open. -/
  | recheck (term : Term)
  /-- Publishing: the register was closed meanwhile, take out what is served. -/
  | retract
  /-- Ending, `LeadershipState::invalidate`: take the term out if it is served. -/
  | invalidate (term : Term)
  /-- Closing, `LeadershipState::close`: set the flag. -/
  | shut
  /-- Closing: take out what is served. -/
  | clear
  /-- Begin the release of a delegate, `release`. -/
  | release (holding : Holding) (sequel : Sequel)
  /-- The delegate is being released and has not returned. -/
  | releasing (holding : Holding) (sequel : Sequel)
  /-- The operation is over. -/
  | done (outcome : Outcome)
  deriving DecidableEq, Repr

namespace Operation

/-- The operation that a sequel stands for. -/
def Sequel.resume : Sequel → Operation
  | recheck term => .recheck term
  | finish outcome => .done outcome

/-- Releases what was taken out, if something was, and ends with an outcome. -/
def releaseThen (taken : Option Term) (outcome : Outcome) : Operation :=
  match taken with
  | some term => .release term.toHolding (.finish outcome)
  | none => .done outcome

/-- Takes the next indivisible step of `LeadershipState::try_publish`,
`LeadershipState::invalidate` or `LeadershipState::close`. An operation that waits for a delegate to
return, or that is over, stays as it is. -/
def step (register : Register) : Operation → Operation × Register × List Notice
  | publish holding =>
    if register.closed then (release holding (.finish (.published none)), register, [])
    else (number holding, register, [])
  | number holding =>
    let (term, register) := register.number holding
    (put term, register, [])
  | put term =>
    let (previous, register) := register.put term
    match previous with
    | some old =>
      (release old.toHolding (.recheck term), register, [.replaced old.token.term old.generation])
    | none => (recheck term, register, [])
  | recheck term =>
    if register.closed then (retract, register, [])
    else (done (.published (some term)), register, [])
  | retract =>
    let (taken, register) := register.take
    (releaseThen taken (.published none), register, [])
  | invalidate term =>
    let (won, register) := register.takeIf term
    (releaseThen (if won then some term else none) (.ended won), register, [])
  | shut =>
    let (first, register) := register.close
    (if first then clear else done (.closed false), register, [])
  | clear =>
    let (taken, register) := register.take
    (releaseThen taken (.closed true), register, [])
  | release holding sequel => (releasing holding sequel, register, [])
  | releasing holding sequel => (releasing holding sequel, register, [])
  | done outcome => (done outcome, register, [])

/-- How a delegate comes back from its release. -/
inductive Return
  | clean
  | failed (failure : String)
  deriving DecidableEq, Repr

/-- The return of the delegate that is being released, the end of `release`. A failure is reported
and changes nothing else. -/
def returned (operation : Operation) (how : Return) : Operation × List Notice :=
  match operation, how with
  | releasing _ sequel, .clean => (sequel.resume, [])
  | releasing holding sequel, .failed failure =>
    (sequel.resume, [.notReleased holding.token.term failure])
  | operation, _ => (operation, [])

/-- Where an operation stands. -/
inductive Standing
  | finished (outcome : Outcome)
  | waits (holding : Holding) (sequel : Sequel)
  | moves
  deriving DecidableEq, Repr

/-- Whether an operation is over, waits for a delegate to return, or has a step to take. -/
def standing : Operation → Standing
  | done outcome => .finished outcome
  | releasing holding sequel => .waits holding sequel
  | _ => .moves

end Operation

end Tenure
