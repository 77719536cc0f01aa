import Tenure.Proofs.Term.Identity

/-!
# What an operation is for

A publication, an ending and a closing stay what they are from their begin to their outcome, and
the releases on their way know which of them they belong to. Some operations are where they are
only because they have seen the register closed.

Between a publication that has not put its term into service, the register, and the operation
that has ended a term, there is a stake that passes from hand to hand: publishing passes it to
the register, and ending takes it from there. While the register is open it is never dropped.

## Main definitions

* `Operation.kind` — what an operation is for
* `Operation.attests` — it has seen the register closed
* `Operation.isBid`, `Operation.stake` — it has yet to put a term into service; or it has ended one

## Main results

* `Operation.Advance.kind`, `Operation.Advance.attests` — both stay true
* `Operation.Advance.stake_le`, `Operation.Advance.stake` — the stake is passed on
-/

namespace Tenure.Operation

/-- What operations are for. -/
inductive Kind
  | publication
  | ending
  | closing
  deriving DecidableEq, Repr

/-- What an outcome is the outcome of. -/
def Outcome.kind : Outcome → Kind
  | published _ => .publication
  | ended _ => .ending
  | closed _ => .closing

/-- What a release is on the way to. -/
def Sequel.kind : Sequel → Kind
  | recheck _ => .publication
  | finish outcome => outcome.kind

/-- What an operation is for. -/
def kind : Operation → Kind
  | publish _ | number _ | put _ | recheck _ | retract => .publication
  | invalidate _ => .ending
  | shut | clear => .closing
  | release _ sequel | releasing _ sequel => sequel.kind
  | done outcome => outcome.kind

/-- Whether an outcome says that the register is closed. -/
def Outcome.attests : Outcome → Bool
  | published none | closed _ => true
  | _ => false

/-- Whether an operation is where it is because the register was closed. -/
def attests : Operation → Bool
  | retract | clear => true
  | release _ (.finish outcome) | releasing _ (.finish outcome) | done outcome => outcome.attests
  | _ => false

/-- Whether an operation has yet to put a term into service. -/
def isBid : Operation → Bool
  | publish _ | number _ | put _ => true
  | _ => false

/-- Whether an operation has yet to put a term into service, or has ended one. -/
def stake (operation : Operation) : Bool :=
  operation.isBid || decide (operation.settled = some (.ended true))

@[simp] theorem kind_releaseThen (taken : Option Term) (outcome : Outcome) :
    (releaseThen taken outcome).kind = outcome.kind := by
  cases taken <;> rfl

@[simp] theorem kind_resume (sequel : Sequel) : sequel.resume.kind = sequel.kind := by
  cases sequel <;> rfl

@[simp] theorem isBid_releaseThen (taken : Option Term) (outcome : Outcome) :
    (releaseThen taken outcome).isBid = false := by
  cases taken <;> rfl

/-- An outcome is settled only in an operation of its kind. -/
theorem kind_of_settled {operation : Operation} {outcome : Outcome}
    (h : operation.settled = some outcome) : operation.kind = outcome.kind := by
  cases operation with
  | release holding sequel =>
    cases sequel with
    | recheck term => simp [settled] at h
    | finish other => simp_all [settled, kind, Sequel.kind]
  | releasing holding sequel =>
    cases sequel with
    | recheck term => simp [settled] at h
    | finish other => simp_all [settled, kind, Sequel.kind]
  | _ => simp_all [settled, kind, Outcome.kind] <;> (subst h; rfl)

theorem stake_of_publication {operation : Operation} (h : operation.kind = .publication) :
    operation.stake = operation.isBid := by
  have hs : operation.settled ≠ some (.ended true) := by
    intro hs
    rw [kind_of_settled hs] at h
    simp [Outcome.kind] at h
  simp [stake, hs]

theorem stake_of_ending {operation : Operation} (h : operation.kind = .ending) :
    operation.stake = decide (operation.settled = some (.ended true)) := by
  cases operation <;> simp_all [stake, isBid, kind]

theorem stake_of_closing {operation : Operation} (h : operation.kind = .closing) :
    operation.stake = false := by
  have hs : operation.settled ≠ some (.ended true) := by
    intro hs
    rw [kind_of_settled hs] at h
    simp [Outcome.kind] at h
  cases operation <;> simp_all [stake, isBid, kind]

namespace Advance

variable {operation next : Operation} {ledger ledger' : Ledger}

/-- An operation stays what it is for. -/
theorem kind (h : Advance operation ledger next ledger') : next.kind = operation.kind := by
  cases h with
  | retracted | cleared => exact kind_releaseThen _ _
  | returned => exact kind_resume _
  | _ => rfl

/-- Whoever is where a closed register leads has found the register closed. -/
theorem attests (h : Advance operation ledger next ledger')
    (hb : operation.attests = true → ledger.register.closed = true)
    (hn : next.attests = true) : ledger'.register.closed = true := by
  cases h with
  | refused closed | overtaken closed | wasShut closed => exact closed
  | retracted | cleared => exact hb rfl
  | shut => rfl
  | @released holding sequel ledger =>
    cases sequel with
    | recheck term => simp [Operation.attests] at hn
    | finish outcome => exact hb hn
  | @returned holding sequel ledger how =>
    cases sequel with
    | recheck term => simp [Operation.attests, Sequel.resume] at hn
    | finish outcome => exact hb hn
  | rests => exact hb hn
  | _ => simp [Operation.attests, Outcome.attests] at hn

/-- A stake is never doubled. -/
theorem stake_le (h : Advance operation ledger next ledger') :
    ledger'.register.current.isSome.toNat + next.stake.toNat ≤
      ledger.register.current.isSome.toNat + operation.stake.toNat := by
  cases h with
  | retracted | cleared => simp [Operation.stake, settled_releaseThen]
  | @released holding sequel ledger => cases sequel <;> exact Nat.le_refl _
  | @returned holding sequel ledger how => cases sequel <;> exact Nat.le_refl _
  -- here the stake passes between the operation and the register
  | served vacant | replaced vacant | ended vacant =>
    simp [Operation.stake, isBid, Operation.settled, vacant]
  | _ => simp [Operation.stake, isBid, Operation.settled]

/-- While the register is open, a stake is not dropped either, unless there were two. -/
theorem stake (h : Advance operation ledger next ledger')
    (hb : operation.attests = true → ledger.register.closed = true)
    (hone : ledger.register.current.isSome.toNat + operation.stake.toNat ≤ 1)
    (isOpen : ledger'.register.closed = false) :
    ledger'.register.current.isSome.toNat + next.stake.toNat =
      ledger.register.current.isSome.toNat + operation.stake.toNat := by
  cases h with
  | refused closed => rw [closed] at isOpen; simp at isOpen
  | retracted | cleared =>
    -- what is served is thrown away only in a closed register
    have hclosed := hb rfl
    simp only at isOpen
    rw [hclosed] at isOpen
    simp at isOpen
  -- here there would be two stakes, one of them in service
  | replaced occupied => simp [Operation.stake, isBid, occupied] at hone
  | @released holding sequel ledger => cases sequel <;> rfl
  | @returned holding sequel ledger how => cases sequel <;> rfl
  | served vacant | ended vacant => simp [Operation.stake, isBid, Operation.settled, vacant]
  | _ => simp [Operation.stake, isBid, Operation.settled]

/-- A term is replaced only where there were two stakes. -/
theorem replaced_of_notice (h : Advance operation ledger next ledger') {term generation : Nat}
    (hn : Notice.replaced term generation ∈ ledger'.notices) :
    Notice.replaced term generation ∈ ledger.notices ∨
      ledger.register.current.isSome = true ∧ operation.stake = true := by
  cases h with
  | replaced occupied => exact .inr ⟨by simp [occupied], rfl⟩
  | @returned holding sequel ledger how =>
    left
    cases how with
    | clean => simpa [Ledger.note, Operation.returned] using hn
    | failed failure => simpa [Ledger.note, Operation.returned] using hn
  | _ => exact .inl hn

end Advance

end Tenure.Operation
