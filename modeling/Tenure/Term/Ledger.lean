import Tenure.Term.Operation

/-!
# A register and its ledger

What goes through a register leaves a trace: a delegate is brought to it, a term is numbered, a
delegate is released, a notice is reported. The ledger keeps the register together with these
traces, and an operation that proceeds on it takes exactly the steps of `Operation.step` and
`Operation.returned`.

## Main definitions

* `Ledger` — a register and what has gone through it
* `Operation.proceed` — the next thing that happens to an operation
-/

namespace Tenure

/-- A register and what has gone through it so far. -/
structure Ledger where
  register : Register := {}
  /-- How many delegates were brought to be published; they are numbered from one. -/
  brought : Nat := 0
  /-- The terms that were numbered, latest last. -/
  terms : List Term := []
  /-- The delegates whose release was begun, latest last. -/
  released : List Nat := []
  notices : List Notice := []

/-- Reports notices. -/
def Ledger.note (ledger : Ledger) (notices : List Notice) : Ledger :=
  { ledger with notices := ledger.notices ++ notices }

@[simp] theorem Ledger.note_register (ledger : Ledger) (notices : List Notice) :
    (ledger.note notices).register = ledger.register := rfl

namespace Operation

/-- The term that the next step of an operation numbers. -/
def numbers (register : Register) : Operation → List Term
  | number holding => [(register.number holding).1]
  | _ => []

/-- The delegate whose release the next step of an operation begins. -/
def releases : Operation → List Nat
  | release holding _ => [holding.delegate]
  | _ => []

/-- The next thing that happens to an operation: the return of the delegate that it waits for,
or else its next step. -/
def proceed (ledger : Ledger) (how : Return) (operation : Operation) : Operation × Ledger :=
  match operation.standing with
  | .finished _ => (operation, ledger)
  | .waits .. =>
    let (next, notices) := operation.returned how
    (next, ledger.note notices)
  | .moves =>
    let (next, register, notices) := operation.step ledger.register
    (next,
      { register
        brought := ledger.brought
        terms := ledger.terms ++ operation.numbers ledger.register
        released := ledger.released ++ operation.releases
        notices := ledger.notices ++ notices })

end Operation

end Tenure
