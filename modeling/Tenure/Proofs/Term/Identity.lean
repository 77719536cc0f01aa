import Tenure.Proofs.Term.Advance

/-!
# Terms come once

A term is numbered with a generation of its own, put into service once, and taken out of service
once. What an operation comes to is settled no later than the step by which it takes a term out
of service or closes the register, and does not change after that.

## Main definitions

* `Operation.settled` — what an operation will come to, once nothing can change it
* `Operation.claims` — whether a term is an operation's to have

## Main results

* `Operation.Advance.terms` — which terms are numbered
* `Operation.Advance.served_or_put`, `Operation.Advance.numbered_of_put` — where a served term
  and one that is about to be served come from
* `Operation.Advance.settled`, `Operation.Advance.won`, `Operation.Advance.first` — how an
  outcome is settled
* `Operation.Advance.claims` — a term is in one hand at a time
-/

namespace Tenure.Operation

/-- What an operation will come to, once nothing can change it. -/
def settled : Operation → Option Outcome
  | retract => some (.published none)
  | clear => some (.closed true)
  | release _ (.finish outcome) | releasing _ (.finish outcome) | done outcome => some outcome
  | _ => none

/-- Whether a term is, or was, an operation's to have: the operation is about to put it into
service, or was asked to end it and has done so. -/
def claims (term : Term) (asked : Bool) (operation : Operation) : Bool :=
  decide (operation = put term ∨ asked = true ∧ operation.settled = some (.ended true))

@[simp] theorem settled_releaseThen (taken : Option Term) (outcome : Outcome) :
    (releaseThen taken outcome).settled = some outcome := by
  cases taken <;> rfl

@[simp] theorem releaseThen_ne_put (taken : Option Term) (outcome : Outcome) (term : Term) :
    releaseThen taken outcome ≠ put term := by
  cases taken <;> simp [releaseThen]

@[simp] theorem releaseThen_ne_invalidate (taken : Option Term) (outcome : Outcome)
    (term : Term) : releaseThen taken outcome ≠ invalidate term := by
  cases taken <;> simp [releaseThen]

namespace Advance

variable {operation next : Operation} {ledger ledger' : Ledger} {term : Term} {outcome : Outcome}

/-- A settled outcome stays. -/
theorem settled (h : Advance operation ledger next ledger')
    (hs : operation.settled = some outcome) : next.settled = some outcome := by
  cases h with
  | retracted | cleared => rw [settled_releaseThen]; exact hs
  | @released holding sequel ledger => cases sequel <;> exact hs
  | @returned holding sequel ledger how =>
    cases sequel with
    | recheck term => simp [Operation.settled] at hs
    | finish other => exact hs
  | rests => exact hs
  | _ => simp [Operation.settled] at hs

/-- Exactly the operation that takes a term out of service to end it has ended it. -/
theorem won (h : Advance operation ledger next ledger')
    (hs : next.settled = some (.ended true)) :
    operation.settled = some (.ended true) ∨
      ∃ term, operation = invalidate term ∧ ledger.register.current = some term ∧
        ledger'.register.current = none := by
  cases h with
  | @ended term ledger isServed => exact .inr ⟨term, rfl, isServed, rfl⟩
  | retracted | cleared => rw [settled_releaseThen] at hs; simp at hs
  | @released holding sequel ledger => cases sequel <;> exact .inl hs
  | @returned holding sequel ledger how =>
    cases sequel with
    | recheck term => simp [Operation.settled, Sequel.resume] at hs
    | finish other => exact .inl hs
  | rests => exact .inl hs
  | _ => simp [Operation.settled] at hs

/-- Of all closings exactly the one that finds the register open is the first. -/
theorem first (h : Advance operation ledger next ledger') :
    (!ledger'.register.closed).toNat + (next.settled == some (.closed true)).toNat =
      (!ledger.register.closed).toNat +
        (operation.settled == some (.closed true)).toNat := by
  cases h with
  | @released holding sequel ledger => cases sequel <;> rfl
  | @returned holding sequel ledger how => cases sequel <;> rfl
  | retracted | cleared => rw [settled_releaseThen]; rfl
  | _ => simp_all [Operation.settled]

/-- A term is numbered with the next generation, or no generation is drawn. -/
theorem terms (h : Advance operation ledger next ledger') :
    (∃ holding, next = put ⟨holding, ledger.register.generation + 1⟩ ∧
      ledger'.terms = ledger.terms ++ [⟨holding, ledger.register.generation + 1⟩] ∧
      ledger'.register.generation = ledger.register.generation + 1) ∨
    (ledger'.terms = ledger.terms ∧
      ledger'.register.generation = ledger.register.generation) := by
  cases h with
  | @numbered holding ledger => exact .inl ⟨holding, rfl, rfl, rfl⟩
  | _ => exact .inr ⟨rfl, rfl⟩

/-- No generation is taken back. -/
theorem generation_le (h : Advance operation ledger next ledger') :
    ledger.register.generation ≤ ledger'.register.generation := by
  rcases h.terms with ⟨holding, -, -, hg⟩ | ⟨-, hg⟩ <;> omega

/-- A term that is served was served before or has just been put into service. -/
theorem served_or_put (h : Advance operation ledger next ledger')
    (hs : ledger'.register.current = some term) :
    ledger.register.current = some term ∨ operation = put term := by
  cases h with
  | served | replaced => simp_all
  | retracted | cleared | ended => simp at hs
  | _ => exact .inl hs

/-- A term that is about to be put into service has just been numbered. -/
theorem numbered_of_put (h : Advance operation ledger next ledger') (hn : next = put term) :
    term.generation = ledger.register.generation + 1 ∧
      ledger'.register.generation = ledger.register.generation + 1 := by
  cases h with
  | numbered =>
    obtain rfl := put.inj hn
    exact ⟨rfl, rfl⟩
  | retracted | cleared => exact absurd hn (releaseThen_ne_put _ _ _)
  | @returned holding sequel ledger how => cases sequel <;> simp [Sequel.resume] at hn
  | _ => simp at hn

/-- Nothing that is under way turns into an ending of a term. -/
theorem ne_invalidate (h : Advance operation ledger next ledger') : next ≠ invalidate term := by
  cases h with
  | retracted | cleared => exact releaseThen_ne_invalidate _ _ _
  | @returned holding sequel ledger how => cases sequel <;> simp [Sequel.resume]
  | _ => simp

/-- An operation that moves and the register have a term between them no more often than before,
unless the term has just been numbered. -/
theorem claims (h : Advance operation ledger next ledger') (term : Term) (asked : Bool)
    (hasked : asked = true → ∀ other, operation = invalidate other → other = term) :
    (ledger'.register.serves term).toNat + (next.claims term asked).toNat ≤
        (ledger.register.serves term).toNat + (operation.claims term asked).toNat ∨
      term.generation = ledger.register.generation + 1 ∧
        ledger'.register.generation = ledger.register.generation + 1 ∧
        (ledger'.register.serves term).toNat + (next.claims term asked).toNat ≤
          (ledger.register.serves term).toNat + (operation.claims term asked).toNat + 1 := by
  cases h with
  | @numbered holding ledger =>
    -- only the term that is numbered here comes into a hand anew
    by_cases heq : (⟨holding, ledger.register.generation + 1⟩ : Term) = term
    · right
      subst heq
      refine ⟨rfl, rfl, ?_⟩
      have := Bool.toNat_le ((put ⟨holding, ledger.register.generation + 1⟩).claims
        ⟨holding, ledger.register.generation + 1⟩ asked)
      simp only [Register.serves]
      omega
    · left
      simp [Operation.claims, Operation.settled, Register.serves, heq]
  | @served other ledger vacant =>
    left
    -- the term passes from the operation into service
    by_cases heq : other = term <;>
      simp [Operation.claims, Operation.settled, Register.serves, vacant, heq]
  | @replaced other old ledger occupied =>
    left
    -- and so it does where another term was served
    by_cases heq : other = term <;>
      simp [Operation.claims, Operation.settled, Register.serves, occupied, heq]
  | @ended other ledger isServed =>
    left
    cases asked with
    | false => simp [Operation.claims, Register.serves]
    | true =>
      -- the term that was ended is the one that the operation was asked to end
      obtain rfl := hasked rfl other rfl
      simp [Operation.claims, Operation.settled, Register.serves, isServed]
  | retracted | cleared =>
    left
    simp [Operation.claims, Register.serves]
  | @released holding sequel ledger =>
    left
    cases sequel <;> simp [Operation.claims, Operation.settled, Register.serves]
  | @returned holding sequel ledger how =>
    left
    rw [Ledger.note_register]
    cases sequel <;> simp [Operation.claims, Operation.settled, Sequel.resume, Register.serves]
  | rests => exact .inl (Nat.le_refl _)
  | _ =>
    left
    simp [Operation.claims, Operation.settled, Register.serves]

end Advance

end Tenure.Operation
