import Tenure.Term.Ledger
import Mathlib.Logic.Basic

/-!
# How operations advance

Everything that can happen to an operation next, and what becomes of the register and its ledger
by it, one rule for each. Statements about operations are proved rule by rule.

## Main definitions

* `Operation.Advance` — the rules

## Main results

* `Operation.proceed_advance` — `Operation.proceed` follows the rules
-/

namespace Tenure.Operation

/-- What can happen to an operation next: the operation and the ledger before, and after. -/
inductive Advance : Operation → Ledger → Operation → Ledger → Prop
  /-- A publication finds the register closed, and turns the delegate away. -/
  | refused {holding : Holding} {ledger : Ledger} (closed : ledger.register.closed = true) :
      Advance (publish holding) ledger (release holding (.finish (.published none))) ledger
  | admitted {holding : Holding} {ledger : Ledger} (isOpen : ledger.register.closed = false) :
      Advance (publish holding) ledger (number holding) ledger
  | numbered {holding : Holding} {ledger : Ledger} :
      Advance (number holding) ledger (put ⟨holding, ledger.register.generation + 1⟩)
        { ledger with
          register := { ledger.register with generation := ledger.register.generation + 1 }
          terms := ledger.terms ++ [⟨holding, ledger.register.generation + 1⟩] }
  | served {term : Term} {ledger : Ledger} (vacant : ledger.register.current = none) :
      Advance (put term) ledger (recheck term)
        { ledger with register := { ledger.register with current := some term } }
  | replaced {term old : Term} {ledger : Ledger} (occupied : ledger.register.current = some old) :
      Advance (put term) ledger (release old.toHolding (.recheck term))
        { ledger with
          register := { ledger.register with current := some term }
          notices := ledger.notices ++ [.replaced old.token.term old.generation] }
  | stands {term : Term} {ledger : Ledger} (isOpen : ledger.register.closed = false) :
      Advance (recheck term) ledger (done (.published (some term))) ledger
  /-- A publication finds that the register was closed meanwhile. -/
  | overtaken {term : Term} {ledger : Ledger} (closed : ledger.register.closed = true) :
      Advance (recheck term) ledger retract ledger
  | retracted {ledger : Ledger} :
      Advance retract ledger (releaseThen ledger.register.current (.published none))
        { ledger with register := { ledger.register with current := none } }
  | ended {term : Term} {ledger : Ledger} (isServed : ledger.register.current = some term) :
      Advance (invalidate term) ledger (release term.toHolding (.finish (.ended true)))
        { ledger with register := { ledger.register with current := none } }
  /-- The term to be ended is not served any more. -/
  | missed {term : Term} {ledger : Ledger} (notServed : ledger.register.current ≠ some term) :
      Advance (invalidate term) ledger (done (.ended false)) ledger
  | shut {ledger : Ledger} (isOpen : ledger.register.closed = false) :
      Advance shut ledger clear
        { ledger with register := { ledger.register with closed := true } }
  /-- The register was closed before. -/
  | wasShut {ledger : Ledger} (closed : ledger.register.closed = true) :
      Advance shut ledger (done (.closed false)) ledger
  | cleared {ledger : Ledger} :
      Advance clear ledger (releaseThen ledger.register.current (.closed true))
        { ledger with register := { ledger.register with current := none } }
  | released {holding : Holding} {sequel : Sequel} {ledger : Ledger} :
      Advance (release holding sequel) ledger (releasing holding sequel)
        { ledger with released := ledger.released ++ [holding.delegate] }
  /-- The delegate that was released has returned. -/
  | returned {holding : Holding} {sequel : Sequel} {ledger : Ledger} (how : Return) :
      Advance (releasing holding sequel) ledger sequel.resume
        (ledger.note ((releasing holding sequel).returned how).2)
  | rests {outcome : Outcome} {ledger : Ledger} :
      Advance (done outcome) ledger (done outcome) ledger

/-- A step that leaves no trace in the ledger leaves the ledger as it is. -/
private theorem proceed_quiet {ledger : Ledger} {how : Return} {operation next : Operation}
    (hm : operation.standing = .moves)
    (hs : operation.step ledger.register = (next, ledger.register, []))
    (hn : operation.numbers ledger.register = []) (hr : operation.releases = []) :
    operation.proceed ledger how = (next, ledger) := by
  simp [proceed, hm, hs, hn, hr]

/-- What happens to an operation next follows the rules. -/
theorem proceed_advance (ledger : Ledger) (how : Return) (operation : Operation) :
    Advance operation ledger (operation.proceed ledger how).1
      (operation.proceed ledger how).2 := by
  cases operation with
  | publish holding =>
    cases h : ledger.register.closed with
    | false => rw [proceed_quiet rfl (by simp [step, h]; rfl) rfl rfl]; exact .admitted h
    | true => rw [proceed_quiet rfl (by simp [step, h]; rfl) rfl rfl]; exact .refused h
  | number holding =>
    simpa [proceed, standing, step, numbers, releases, Register.number] using Advance.numbered
  | put term =>
    cases h : ledger.register.current with
    | none =>
      simpa [proceed, standing, step, numbers, releases, Register.put, h] using Advance.served h
    | some old =>
      simpa [proceed, standing, step, numbers, releases, Register.put, h] using
        Advance.replaced h
  | recheck term =>
    cases h : ledger.register.closed with
    | false => rw [proceed_quiet rfl (by simp [step, h]; rfl) rfl rfl]; exact .stands h
    | true => rw [proceed_quiet rfl (by simp [step, h]; rfl) rfl rfl]; exact .overtaken h
  | retract =>
    simpa [proceed, standing, step, numbers, releases, Register.take] using Advance.retracted
  | invalidate term =>
    by_cases h : ledger.register.current = some term
    · simpa [proceed, standing, step, numbers, releases, Register.takeIf, releaseThen, h] using
        Advance.ended h
    · simpa [proceed, standing, step, numbers, releases, Register.takeIf, releaseThen, h] using
        Advance.missed h
  | shut =>
    cases h : ledger.register.closed with
    | false =>
      simpa [proceed, standing, step, numbers, releases, Register.close, h] using Advance.shut h
    | true =>
      have hclosed : { ledger.register with closed := true } = ledger.register := by rw [← h]
      simpa [proceed, standing, step, numbers, releases, Register.close, h, hclosed] using
        Advance.wasShut h
  | clear =>
    simpa [proceed, standing, step, numbers, releases, Register.take] using Advance.cleared
  | release holding sequel =>
    simpa [proceed, standing, step, numbers, releases] using Advance.released
  | releasing holding sequel =>
    cases how with
    | clean => exact .returned .clean
    | failed failure => exact .returned (.failed failure)
  | done outcome => exact Advance.rests

end Tenure.Operation
