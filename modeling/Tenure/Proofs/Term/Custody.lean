import Tenure.Proofs.Term.Advance

/-!
# Who has a delegate

From the moment it is brought to a register until its release is begun, a delegate is in one
place: an operation carries it to be published, or the register serves it, or an operation that
has taken it out owes its release. What happens to an operation moves a delegate from one of
these places to the next and never makes or loses one. And whoever leaves a term in a register
that was closed comes back to take it out.

## Main definitions

* `Operation.carries`, `Operation.owes`, `Register.lends` — the places a delegate can be in
* `Operation.tidies` — an operation that will yet look after what a closed register serves

## Main results

* `Operation.Advance.custody` — a delegate is neither made nor lost
* `Operation.Advance.tidies` — nobody leaves a term in a closed register for good
-/

namespace Tenure

/-- Whether the served term has a delegate. -/
def Register.lends (register : Register) (delegate : Nat) : Bool :=
  register.current.any (·.delegate == delegate)

namespace Operation

/-- Whether a publication holds a delegate that it has not put into service. -/
def carries (delegate : Nat) : Operation → Bool
  | publish holding | number holding => holding.delegate == delegate
  | put term => term.delegate == delegate
  | _ => false

/-- Whether an operation is about to release a delegate. -/
def owes (delegate : Nat) : Operation → Bool
  | release holding _ => holding.delegate == delegate
  | _ => false

/-- Whether an operation will yet look whether the register was closed, or clear it. -/
def tidies : Operation → Bool
  | recheck _ | retract | clear => true
  | release _ (.recheck _) | releasing _ (.recheck _) => true
  | _ => false

/-- How often a delegate is with an operation, in service, or released. -/
def custody (delegate : Nat) (operation : Operation) (ledger : Ledger) : Nat :=
  (operation.carries delegate).toNat + (operation.owes delegate).toNat +
    (ledger.register.lends delegate).toNat + ledger.released.count delegate

/-- What was taken out of service is owed its release. -/
theorem custody_releaseThen (delegate : Nat) (ledger : Ledger) (outcome : Outcome) :
    custody delegate (releaseThen ledger.register.current outcome)
        { ledger with register := { ledger.register with current := none } } =
      (ledger.register.lends delegate).toNat + ledger.released.count delegate := by
  cases h : ledger.register.current <;>
    simp [custody, releaseThen, carries, owes, Register.lends, h]

namespace Advance

variable {operation next : Operation} {ledger ledger' : Ledger}

/-- A delegate is neither made nor lost. -/
theorem custody (h : Advance operation ledger next ledger') (delegate : Nat) :
    custody delegate next ledger' = custody delegate operation ledger := by
  cases h with
  | replaced occupied =>
    -- the old delegate passes to the operation, and the new one into service
    simp only [Operation.custody, carries, owes, Register.lends, occupied, Option.any_some,
      Bool.toNat_false]
    omega
  | retracted | cleared =>
    -- what was in service, if anything was, is owed its release now
    rw [custody_releaseThen]
    simp [Operation.custody, carries, owes]
  | @released holding sequel ledger =>
    -- from being owed its release the delegate passes to the released ones
    simp only [Operation.custody, carries, owes, List.count_append, List.count_singleton,
      Bool.toNat_false]
    cases holding.delegate == delegate with
    | false => simp
    | true =>
      simp only [Bool.toNat_true, if_true]
      omega
  | @returned holding sequel ledger how =>
    cases sequel <;> simp [Sequel.resume, Operation.custody, carries, owes, Ledger.note]
  | _ => simp_all [Operation.custody, carries, owes, Register.lends]

theorem brought (h : Advance operation ledger next ledger') :
    ledger'.brought = ledger.brought := by
  cases h <;> rfl

/-- What was released stays on record. -/
theorem released_prefix (h : Advance operation ledger next ledger') :
    ledger.released <+: ledger'.released := by
  cases h with
  | released => exact List.prefix_append _ _
  | _ => exact List.prefix_rfl

/-- Nothing opens a register again. -/
theorem closed (h : Advance operation ledger next ledger')
    (hc : ledger.register.closed = true) : ledger'.register.closed = true := by
  cases h <;> first | exact hc | rfl

/-- A term that is left in a closed register was left there before by someone else, unless
whoever leaves it there comes back for it. -/
theorem tidies (h : Advance operation ledger next ledger')
    (hc : ledger'.register.closed = true) (hs : ledger'.register.current.isSome = true) :
    next.tidies = true ∨
      ledger.register.closed = true ∧ ledger.register.current.isSome = true ∧
        operation.tidies = false := by
  cases h with
  -- a publication that has put its term into service looks at the flag again, and a closing clears
  | served | replaced | overtaken | shut => exact .inl rfl
  | retracted | cleared | ended => simp at hs
  | stands isOpen => rw [isOpen] at hc; simp at hc
  | @released holding sequel ledger =>
    cases sequel with
    | recheck term => exact .inl rfl
    | finish outcome => exact .inr ⟨hc, hs, rfl⟩
  | @returned holding sequel ledger how =>
    cases sequel with
    | recheck term => exact .inl rfl
    | finish outcome => exact .inr ⟨hc, hs, rfl⟩
  | _ => exact .inr ⟨hc, hs, rfl⟩

end Advance

end Operation

end Tenure
