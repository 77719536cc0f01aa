import Tenure.Proofs.Term.Traffic

/-!
# Every delegate is released once

Whatever is going on at a register, a delegate that was brought to it is in one place: with the
publication that has not put it into service, in service, with the one operation that is about
to release it, or released. Once nothing is going on any more, only two of these places are
left, and only one if the register is closed.

## Main definitions

* `Traffic.Place`, `Traffic.Lies` — where a delegate is
* `Traffic.Quiet` — nothing is going on any more; `Traffic.Returned` — what an operation has
  come to

## Main results

* `Traffic.released_exactly_once` — what holds of delegates, terms and closings after every
  schedule
-/

namespace Tenure.Traffic

/-- Where a delegate can be that was brought to a register. -/
inductive Place
  /-- With the publication at a place, which has not put it into service. -/
  | carried (i : Nat)
  | inService
  /-- With the operation at a place, which has taken it out of service or turned it away and is
  about to release it. -/
  | owed (i : Nat)
  | released
  deriving DecidableEq, Repr

/-- Whether a delegate is at a place. -/
def Lies (traffic : Traffic) (delegate : Nat) : Place → Prop
  | .carried i => ∃ run, traffic.runs[i]? = some run ∧
      run.now.carries delegate = true
  | .inService => traffic.register.lends delegate = true
  | .owed i => ∃ run, traffic.runs[i]? = some run ∧ run.now.owes delegate = true
  | .released => traffic.released.count delegate = 1

/-- Every operation that was begun is over. -/
def Quiet (traffic : Traffic) : Prop :=
  ∀ run ∈ traffic.runs, ∃ outcome, run.now = .done outcome

/-- The operation at a place, which began as this one, is over and came to this. -/
def Returned (traffic : Traffic) (i : Nat) (origin : Operation) (outcome : Operation.Outcome) :
    Prop :=
  traffic.runs[i]? = some ⟨origin, .done outcome⟩

variable {traffic : Traffic} {delegate : Nat}

theorem getElem?_shared {i : Nat} {run : OperationRun} (h : traffic.runs[i]? = some run) :
    traffic.shared.operations[i]? = some run.now := by
  simp [shared, h]

theorem exists_run {i : Nat} {operation : Operation}
    (h : traffic.shared.operations[i]? = some operation) :
    ∃ run, traffic.runs[i]? = some run ∧ run.now = operation := by
  rw [shared, List.getElem?_map] at h
  exact Option.map_eq_some_iff.mp h

theorem Lies.countP_carries_pos {i : Nat} (h : traffic.Lies delegate (.carried i)) :
    0 < traffic.shared.operations.countP (·.carries delegate) := by
  obtain ⟨run, hi, hc⟩ := h
  exact Tally.countP_pos_of_getElem? (getElem?_shared hi) hc

theorem Lies.countP_owes_pos {i : Nat} (h : traffic.Lies delegate (.owed i)) :
    0 < traffic.shared.operations.countP (·.owes delegate) := by
  obtain ⟨run, hi, ho⟩ := h
  exact Tally.countP_pos_of_getElem? (getElem?_shared hi) ho

/-- A delegate that is there once is in exactly one place. -/
theorem existsUnique_lies (h : traffic.shared.custody delegate = 1) :
    ∃! place, traffic.Lies delegate place := by
  change traffic.shared.operations.countP (·.carries delegate) +
    traffic.shared.operations.countP (·.owes delegate) +
      (traffic.register.lends delegate).toNat + traffic.released.count delegate = 1 at h
  -- look into the places one after the other: where the delegate is, no place is left for another
  cases hlends : traffic.register.lends delegate with
  | true =>
    rw [hlends, Bool.toNat_true] at h
    refine ⟨.inService, hlends, fun place hp => ?_⟩
    cases place with
    | carried i => have := hp.countP_carries_pos; omega
    | inService => rfl
    | owed i => have := hp.countP_owes_pos; omega
    | released => have : traffic.released.count delegate = 1 := hp; omega
  | false =>
    rw [hlends, Bool.toNat_false] at h
    by_cases hcarries : 0 < traffic.shared.operations.countP (·.carries delegate)
    · obtain ⟨i, operation, hi, hc⟩ := Tally.exists_getElem?_of_countP_pos hcarries
      obtain ⟨run, he, rfl⟩ := exists_run hi
      refine ⟨.carried i, ⟨run, he, hc⟩, fun place hp => ?_⟩
      cases place with
      | carried j =>
        obtain ⟨other, hj, ho⟩ := hp
        have hle : traffic.shared.operations.countP (·.carries delegate) ≤ 1 := by omega
        exact congrArg Place.carried (Tally.eq_of_countP_le_one hle (getElem?_shared hj) ho hi hc)
      | inService => rw [Lies, hlends] at hp; simp at hp
      | owed j => have := hp.countP_owes_pos; omega
      | released => have : traffic.released.count delegate = 1 := hp; omega
    · by_cases howes : 0 < traffic.shared.operations.countP (·.owes delegate)
      · obtain ⟨i, operation, hi, hc⟩ := Tally.exists_getElem?_of_countP_pos howes
        obtain ⟨run, he, rfl⟩ := exists_run hi
        refine ⟨.owed i, ⟨run, he, hc⟩, fun place hp => ?_⟩
        cases place with
        | carried j => exact absurd hp.countP_carries_pos hcarries
        | inService => rw [Lies, hlends] at hp; simp at hp
        | owed j =>
          obtain ⟨other, hj, ho⟩ := hp
          have hle : traffic.shared.operations.countP (·.owes delegate) ≤ 1 := by omega
          exact congrArg Place.owed (Tally.eq_of_countP_le_one hle (getElem?_shared hj) ho hi hc)
        | released => have : traffic.released.count delegate = 1 := hp; omega
      · have hreleased : traffic.released.count delegate = 1 := by omega
        refine ⟨.released, hreleased, fun place hp => ?_⟩
        cases place with
        | carried j => exact absurd hp.countP_carries_pos hcarries
        | inService => rw [Lies, hlends] at hp; simp at hp
        | owed j => exact absurd hp.countP_owes_pos howes
        | released => rfl

theorem Quiet.shared (h : traffic.Quiet) : traffic.shared.Quiet := by
  intro operation ho
  obtain ⟨run, he, rfl⟩ := List.mem_map.mp ho
  exact h run he

/-- After every schedule: a delegate that was brought is in exactly one place and was released
no more than once. Once nothing is going on, it is in service and unreleased or was released
exactly once, and in a closed register the latter. At most one ending of a term has won it, at
most one closing was the first, and all terms were numbered differently. -/
theorem released_exactly_once (schedule : Nat → Move) (n : Nat) :
    let traffic := after schedule n
    (∀ delegate, traffic.released.count delegate ≤ 1) ∧
    (∀ delegate, 1 ≤ delegate → delegate ≤ traffic.brought →
      (∃! place, traffic.Lies delegate place) ∧
      (traffic.Quiet →
        traffic.register.lends delegate = true ∧ traffic.released.count delegate = 0 ∨
          traffic.register.lends delegate = false ∧ traffic.released.count delegate = 1)) ∧
    (traffic.Quiet → traffic.register.closed = true →
      traffic.register.current = none ∧
        ∀ delegate, 1 ≤ delegate → delegate ≤ traffic.brought →
          traffic.released.count delegate = 1) ∧
    (∀ term i j, traffic.Returned i (.invalidate term) (.ended true) →
      traffic.Returned j (.invalidate term) (.ended true) → i = j) ∧
    (∀ i j, traffic.Returned i .shut (.closed true) → traffic.Returned j .shut (.closed true) →
      i = j) ∧
    (traffic.terms.map (·.generation)).Nodup ∧
    (∀ term, traffic.register.current = some term → term ∈ traffic.terms) ∧
    (∀ i origin term, traffic.Returned i origin (.published (some term)) →
      term ∈ traffic.terms) := by
  intro traffic
  have hs : traffic.Sound := sound_after schedule n
  have hone : ∀ delegate, 1 ≤ delegate → delegate ≤ traffic.brought →
      traffic.shared.custody delegate = 1 := by
    intro delegate hle hbrought
    rw [hs.shared.balanced delegate, if_pos ⟨hle, hbrought⟩]
  refine ⟨fun delegate => hs.shared.balanced.released_le_one delegate,
    fun delegate hle hbrought => ⟨?_, fun hq => ?_⟩,
    fun hq hc => ⟨?_, fun delegate hle hbrought => ?_⟩, fun term i j hi hj => ?_,
    fun i j hi hj => ?_, ?_, hs.known.1, fun i origin term hi => ?_⟩
  · exact existsUnique_lies (hone delegate hle hbrought)
  · have hd := hone delegate hle hbrought
    rw [hq.shared.custody] at hd
    change (traffic.register.lends delegate).toNat + traffic.released.count delegate = 1 at hd
    cases hlends : traffic.register.lends delegate <;> simp [hlends] at hd ⊢ <;> omega
  · exact hq.shared.current_eq_none hs.shared.tidied hc
  · exact hq.shared.released hs.shared hc hle hbrought
  -- two endings that have won the term would both have it in hand
  · have hle := hs.unrivalled term
    have hone : traffic.runs.countP (·.claims term) ≤ 1 := by
      split at hle <;> omega
    have hclaims : OperationRun.claims term ⟨.invalidate term, .done (.ended true)⟩ = true := by
      simp [OperationRun.claims, Operation.claims, Operation.settled]
    exact Tally.eq_of_countP_le_one hone hi hclaims hj hclaims
  -- the flag was set by one closing
  · have hle : traffic.runs.countP (·.now.settled == some (.closed true)) ≤ 1 := by
      have := hs.closedOnce
      unfold ClosedOnce at this
      omega
    exact Tally.eq_of_countP_le_one hle hi rfl hj rfl
  -- the generations are those from one on, in order
  · rw [hs.numbered]
    exact List.nodup_range'
  · exact hs.known.2 _ (List.mem_of_getElem? hi) term rfl

end Tenure.Traffic
