import Tenure.Proofs.Election.Past
import Tenure.Proofs.Proxy.Projection
import Tenure.Proofs.Term.Passing

/-!
# Counters of 64 bits

A register counts generations, and a local election counts its terms, its checks and its waits. The
counters have 64 bits and begin again behind the largest number, where the library counts on: of a
number that the library has counted to, a counter reads what is left of it in 64 bits. A generation
is drawn for a delegate that was brought, and a step that is taken with an election counts one at
most. So as long as there are less than `2 ^ 64` of these, every counter reads the very number, and
terms that are told by their generations are told by what the counter reads.

## Main definitions

* `Term.stamp` — the generation of a term as the counter reads
* `SharedRegister.Frugal` — no more generations are drawn than delegates are brought

## Main results

* `Traffic.stamps_nodup`, `Proxy.stamps_nodup` — terms of one register are told by their stamps
* `ElectionWatch.counters_exact` — the counters of an election read what has been counted
-/

namespace Tenure

/-- The generation of a term as the counter of the register reads. -/
def Term.stamp (term : Term) : UInt64 := UInt64.ofNat term.generation

/-- The counter goes on by one, be it to begin again. -/
theorem Register.stamp_number (register : Register) (holding : Holding) :
    (register.number holding).1.stamp = UInt64.ofNat register.generation + 1 :=
  UInt64.ofNat_add register.generation 1

/-! ### Generations -/

namespace Operation

/-- Whether a publication has yet to number its holding. -/
def isUnnumbered : Operation → Bool
  | publish _ | number _ => true
  | _ => false

@[simp] theorem isUnnumbered_publish (holding : Holding) :
    (publish holding).isUnnumbered = true := rfl

theorem isUnnumbered_of_isIdle {operation : Operation} (h : operation.isIdle = true) :
    operation.isUnnumbered = false := by
  cases operation <;> simp_all [isIdle, isUnnumbered]

@[simp] theorem isUnnumbered_releaseThen (taken : Option Term) (outcome : Outcome) :
    (releaseThen taken outcome).isUnnumbered = false := by
  cases taken <;> rfl

@[simp] theorem isUnnumbered_resume (sequel : Sequel) : sequel.resume.isUnnumbered = false := by
  cases sequel <;> rfl

/-- A publication draws one generation. -/
theorem Advance.generation_add_le {operation next : Operation} {ledger ledger' : Ledger}
    (h : Advance operation ledger next ledger') :
    ledger'.register.generation + next.isUnnumbered.toNat ≤
      ledger.register.generation + operation.isUnnumbered.toNat := by
  cases h with
  | retracted | cleared => rw [isUnnumbered_releaseThen]; exact Nat.le_refl _
  | returned => rw [isUnnumbered_resume]; exact Nat.le_refl _
  | _ => simp [isUnnumbered]

end Operation

namespace SharedRegister

variable {shared shared' : SharedRegister}

/-- For every generation that was drawn, and for every publication that has yet to draw one, a
delegate was brought. -/
def Frugal (shared : SharedRegister) : Prop :=
  shared.register.generation + shared.operations.countP (·.isUnnumbered) ≤ shared.brought

theorem Frugal.shift (h : Shift shared shared') (hf : shared.Frugal) : shared'.Frugal := by
  cases h with
  | note notices => exact hf
  | @advance i operation next ledger here advance =>
    have hcount := Tally.countP_set_add (b := next) (p := (·.isUnnumbered)) here
    have hdrawn := advance.generation_add_le
    simp only [Frugal, advance.brought] at hf ⊢
    omega
  | join idle => simpa [Frugal, Operation.isUnnumbered_of_isIdle idle] using hf
  | @turn i operation next here idle idle' =>
    have hcount := Tally.countP_set_add (b := next) (p := (·.isUnnumbered)) here
    rw [Operation.isUnnumbered_of_isIdle idle, Operation.isUnnumbered_of_isIdle idle'] at hcount
    simp only [Frugal] at hf ⊢
    omega
  | @bring i operation token here idle =>
    have hcount := Tally.countP_set_add (b := .publish ⟨token, shared.brought + 1⟩)
      (p := (·.isUnnumbered)) here
    rw [Operation.isUnnumbered_of_isIdle idle, Operation.isUnnumbered_publish] at hcount
    simp only [Bool.toNat_true, Bool.toNat_false] at hcount
    simp only [Frugal] at hf ⊢
    omega

theorem Frugal.shifts (h : Shifts shared shared') (hf : shared.Frugal) : shared'.Frugal := by
  induction h with
  | refl => exact hf
  | tail _ shift ih => exact ih.shift shift

/-- If the generations are drawn in order, and there are few of them, the terms are told by their
stamps. -/
theorem Numbered.stamps_nodup (hn : shared.Numbered) (hf : shared.Frugal)
    (few : shared.brought < UInt64.size) : (shared.terms.map Term.stamp).Nodup := by
  have hstamps : shared.terms.map Term.stamp =
      (List.range' 1 shared.register.generation).map UInt64.ofNat := by
    rw [← hn, List.map_map]
    rfl
  rw [hstamps]
  refine List.Nodup.map_on (fun m hm n hn same => ?_) List.nodup_range'
  -- what the counter reads of the two is what they are
  have hdrawn : shared.register.generation ≤ shared.brought := by
    unfold Frugal at hf
    omega
  rw [List.mem_range'_1] at hm hn
  have hread := congrArg UInt64.toNat same
  rwa [UInt64.toNat_ofNat_of_lt' (by omega), UInt64.toNat_ofNat_of_lt' (by omega)] at hread

end SharedRegister

/-- Below `2 ^ 64` publications the terms of a register are told by their stamps, whoever publishes,
ends and closes meanwhile. -/
theorem Traffic.stamps_nodup (schedule : Nat → Move) (n : Nat)
    (few : (after schedule n).brought < UInt64.size) :
    ((after schedule n).terms.map Term.stamp).Nodup := by
  have hshifts := shared_shifts schedule (Nat.zero_le n)
  exact (SharedRegister.Numbered.shifts hshifts rfl).stamps_nodup (.shifts hshifts (Nat.le_refl 0))
    few

/-- So they are at a proxy, whatever its parties and its surroundings do. -/
theorem Proxy.stamps_nodup {α : Type} (profile : Profile) (schedule : Nat → Move α) (n : Nat)
    (few : (after profile schedule n).brought < UInt64.size) :
    ((after profile schedule n).terms.map Term.stamp).Nodup := by
  have hshifts := (after_strides profile schedule (Nat.zero_le n)).shared
  exact (SharedRegister.Numbered.shifts hshifts rfl).stamps_nodup (.shifts hshifts (Nat.le_refl 0))
    few

/-! ### Terms, checks and waits of an election -/

namespace ElectionWatch

variable {ι : Type}

/-- A step grants one term at most. -/
theorem grants_le_length (past : List (Step ι)) : grants past ≤ past.length := by
  induction past with
  | nil => exact Nat.le_refl 0
  | cons step past ih => cases step <;> simp only [grants, List.length_cons] <;> omega

/-- A step begins one check at most. -/
theorem checksBegun_le_length (past : List (Step ι)) : checksBegun past ≤ past.length := by
  induction past with
  | nil => exact Nat.le_refl 0
  | cons step past ih =>
    cases step with
    | check | beginCheck =>
      simp only [checksBegun, List.length_cons]
      split <;> omega
    | _ => exact Nat.le_succ_of_le ih

/-- A step begins one wait at most. -/
theorem waitsBegun_le_length [DecidableEq ι] (past : List (Step ι)) :
    waitsBegun past ≤ past.length := by
  induction past with
  | nil => exact Nat.le_refl 0
  | cons step past ih =>
    cases step with
    | lookAtWait =>
      simp only [waitsBegun, List.length_cons]
      split <;> omega
    | _ => exact Nat.le_succ_of_le ih

/-- As long as less than `2 ^ 64` is done to an election, its counters read how many terms were
granted, and how many checks and waits were begun. -/
theorem counters_exact [DecidableEq ι] (delayed : Bool) (past : List (Step ι))
    (few : past.length < UInt64.size) :
    let election := (since delayed past).election
    (UInt64.ofNat election.granted).toNat = grants past ∧
      (UInt64.ofNat election.checks).toNat = checksBegun past ∧
      (UInt64.ofNat election.waits).toNat = waitsBegun past := by
  intro election
  have hagrees := agrees_since delayed past
  have hread {count : Nat} (hle : count ≤ past.length) : (UInt64.ofNat count).toNat = count :=
    UInt64.toNat_ofNat_of_lt' (by omega)
  rw [hagrees.granted, hagrees.checks, hagrees.waits]
  exact ⟨hread (grants_le_length past), hread (checksBegun_le_length past),
    hread (waitsBegun_le_length past)⟩

end ElectionWatch

end Tenure
