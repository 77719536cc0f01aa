import Mathlib.Logic.Basic
import Tenure.Proofs.Term.Custody
import Tenure.Term.Course

/-!
# What an undisturbed operation comes to

An operation on a register that nobody else touches meanwhile takes its steps one after the other.
Where every delegate returns from its release and leaves the register alone, it comes to its end,
and what it comes to can be told from the register at its begin: the outcome, the register that is
left, and the delegates that were released on the way.

## Main definitions

* `Conduct.returns` — a delegate returns and leaves the register alone
* `Operation.awaited` — the delegate whose return an operation waits for
* `Operation.Reaches` — what an operation comes to, step by step

## Main results

* `Operation.course_reaches` — an operation whose delegates return comes to its end
* `Operation.Reaches.publish`, `Operation.Reaches.invalidate`, `Operation.Reaches.shut` — what the
  operations come to
-/

namespace Tenure

/-- Whether a delegate returns from its release and leaves the register alone. -/
def Conduct.returns : Conduct → Bool
  | clean | failing _ => true
  | closing | breaking => false

namespace Operation

/-- The delegate whose return an operation waits for, if it waits for one. -/
def awaited : Operation → List Nat
  | releasing holding _ => [holding.delegate]
  | _ => []

theorem awaited_of_waits {operation : Operation} {holding : Holding} {sequel : Sequel}
    (waits : operation.standing = .waits holding sequel) :
    operation.awaited = [holding.delegate] := by
  cases operation <;> simp_all [standing, awaited]

theorem awaited_of_moves {operation : Operation} (moves : operation.standing = .moves) :
    operation.awaited = [] := by
  cases operation with
  | releasing holding sequel => cases moves
  | _ => rfl

@[simp] theorem awaited_releaseThen (taken : Option Term) (outcome : Outcome) :
    (releaseThen taken outcome).awaited = [] := by
  cases taken <;> rfl

@[simp] theorem awaited_resume (sequel : Sequel) : sequel.resume.awaited = [] := by
  cases sequel <;> rfl

/-- A release that is begun is waited for, and no other one is begun. -/
theorem Advance.released_eq {operation next : Operation} {ledger ledger' : Ledger}
    (h : Advance operation ledger next ledger') :
    ledger'.released = ledger.released ++ next.awaited := by
  cases h with
  | released => rfl
  | returned how => simp [Ledger.note]
  | retracted | cleared => simp
  | _ => simp [awaited]

/-- What an operation comes to that takes its steps one after the other: the outcome, and the
ledger at its end. -/
inductive Reaches : Operation → Ledger → Outcome → Ledger → Prop
  | done {outcome : Outcome} {ledger : Ledger} : Reaches (done outcome) ledger outcome ledger
  | step {operation next : Operation} {ledger between ledger' : Ledger} {outcome : Outcome}
      (advance : Advance operation ledger next between)
      (goesOn : ∀ result, operation.standing ≠ .finished result)
      (rest : Reaches next between outcome ledger') : Reaches operation ledger outcome ledger'

namespace Reaches

variable {operation next : Operation} {ledger ledger' : Ledger} {outcome : Outcome}
  {holding : Holding} {term : Term}

theorem brought (h : Reaches operation ledger outcome ledger') :
    ledger'.brought = ledger.brought := by
  induction h with
  | done => rfl
  | step advance goesOn rest ih => exact ih.trans advance.brought

theorem eq_of_done {result : Outcome} (h : Reaches (.done result) ledger outcome ledger') :
    outcome = result ∧ ledger' = ledger := by
  cases h with
  | done => exact ⟨rfl, rfl⟩
  | step advance goesOn rest => exact absurd rfl (goesOn result)

/-- A release leaves the register alone. -/
theorem of_release {result : Outcome}
    (h : Reaches (.release holding (.finish result)) ledger outcome ledger') :
    outcome = result ∧ ledger'.register = ledger.register ∧
      ledger'.released = ledger.released ++ [holding.delegate] := by
  cases h with
  | step advance goesOn rest =>
    cases advance with
    | released =>
      cases rest with
      | step advance goesOn rest =>
        cases advance with
        | returned how =>
          obtain ⟨rfl, rfl⟩ := eq_of_done rest
          exact ⟨rfl, rfl, rfl⟩

theorem of_releaseThen {taken : Option Term} {result : Outcome}
    (h : Reaches (releaseThen taken result) ledger outcome ledger') :
    outcome = result ∧ ledger'.register = ledger.register ∧
      ledger'.released = ledger.released ++ (taken.map (·.delegate)).toList := by
  cases taken with
  | none =>
    obtain ⟨rfl, rfl⟩ := eq_of_done h
    exact ⟨rfl, rfl, (List.append_nil _).symm⟩
  | some term => exact of_release h

/-- A term that is served is ended, and its delegate is released. -/
theorem invalidate (h : Reaches (.invalidate term) ledger outcome ledger')
    (hserved : ledger.register.current = some term) :
    outcome = .ended true ∧ ledger'.register = { ledger.register with current := none } ∧
      ledger'.released = ledger.released ++ [term.delegate] := by
  cases h with
  | step advance goesOn rest =>
    cases advance with
    | ended isServed => exact of_release rest
    | missed notServed => exact absurd hserved notServed

/-- An open register is closed, and serves nothing any more. What it served is released. -/
theorem shut (h : Reaches .shut ledger outcome ledger') (hopen : ledger.register.closed = false) :
    outcome = .closed true ∧
      ledger'.register = { ledger.register with current := none, closed := true } ∧
      ledger'.released =
        ledger.released ++ (ledger.register.current.map (·.delegate)).toList := by
  cases h with
  | step advance goesOn rest =>
    cases advance with
    | shut isOpen =>
      cases rest with
      | step advance goesOn rest =>
        cases advance with
        | cleared => exact of_releaseThen rest
    | wasShut closed => simp [hopen] at closed

/-- A register that is closed stays as it is. -/
theorem shut_of_closed (h : Reaches .shut ledger outcome ledger')
    (hclosed : ledger.register.closed = true) :
    outcome = .closed false ∧ ledger'.register = ledger.register ∧
      ledger'.released = ledger.released := by
  cases h with
  | step advance goesOn rest =>
    cases advance with
    | shut isOpen => simp [hclosed] at isOpen
    | wasShut closed =>
      obtain ⟨rfl, rfl⟩ := eq_of_done rest
      exact ⟨rfl, rfl, rfl⟩

/-- A delegate that is brought to an open register which serves nothing is served. -/
theorem publish (h : Reaches (.publish holding) ledger outcome ledger')
    (hopen : ledger.register.closed = false) (hvacant : ledger.register.current = none) :
    outcome = .published (some ⟨holding, ledger.register.generation + 1⟩) ∧
      ledger'.register = ⟨some ⟨holding, ledger.register.generation + 1⟩, false,
        ledger.register.generation + 1⟩ ∧
      ledger'.released = ledger.released := by
  cases h with
  | step advance goesOn rest =>
    cases advance with
    | refused closed => simp [hopen] at closed
    | admitted isOpen =>
      cases rest with
      | step advance goesOn rest =>
        cases advance with
        | numbered =>
          cases rest with
          | step advance goesOn rest =>
            cases advance with
            | replaced occupied => simp [hvacant] at occupied
            | served vacant =>
              cases rest with
              | step advance goesOn rest =>
                cases advance with
                | overtaken closed => simp [hopen] at closed
                | stands isOpen =>
                  obtain ⟨rfl, rfl⟩ := eq_of_done rest
                  exact ⟨rfl, by simp [hopen], rfl⟩

end Reaches

variable {σ : Type} {around : Surroundings σ} {P : List Nat → σ → Prop}

/-- An operation comes to its end where every delegate returns, whatever else its surroundings keep
true while delegates are released. -/
theorem course_reaches (h : ∀ released holding state, P released state →
      (around.release holding state).1.returns = true ∧
        P (released ++ [holding.delegate]) (around.release holding state).2)
    (operation : Operation) (hawaits : operation.awaited = []) (ledger : Ledger)
    {released : List Nat} {state : σ} (hp : P released state) :
    ∃ outcome ledger' state' others, operation.course around ledger state =
        (some outcome, ledger', state') ∧
      Reaches operation ledger outcome ledger' ∧ ledger'.released = ledger.released ++ others ∧
      P (released ++ others) state' := by
  -- a delegate whose release was begun before is released in the course all the same
  suffices hrun : ∀ waiting, waiting = [] → ∀ released, P released state →
      ∃ outcome ledger' state' others,
        operation.run around ledger state waiting = (some outcome, ledger', state') ∧
          Reaches operation ledger outcome ledger' ∧
          ledger'.released = ledger.released ++ others ∧
          P (released ++ (operation.awaited ++ others)) state' by
    simpa only [hawaits, List.nil_append, course] using hrun [] rfl released hp
  clear hawaits hp
  intro waiting hwaiting
  fun_induction Operation.run around ledger state operation waiting with
  | case1 ledger state operation outcome finished =>
    intro released hp
    obtain rfl : operation = .done outcome := by cases operation <;> simp_all [standing]
    exact ⟨outcome, ledger, state, [], rfl, .done, by simp, by simpa [awaited] using hp⟩
  | case2 => simp at hwaiting
  | case3 ledger state operation waiting holding sequel waits state' conduct back ih =>
    intro released hp
    have hreleased := h released holding state hp
    rw [conduct] at hreleased
    have hadvance := operation.proceed_advance ledger .clean
    obtain ⟨outcome, ledger', state'', others, hrun, hreaches, hothers, hp'⟩ :=
      ih hwaiting _ hreleased.2
    refine ⟨outcome, ledger', state'', back.1.awaited ++ others, hrun,
      .step hadvance (by simp [waits]) hreaches, ?_, ?_⟩
    · rw [hothers, hadvance.released_eq, List.append_assoc]
    · rw [awaited_of_waits waits, ← List.append_assoc]
      exact hp'
  | case4 ledger state operation waiting holding sequel waits failure state' conduct back ih =>
    intro released hp
    have hreleased := h released holding state hp
    rw [conduct] at hreleased
    have hadvance := operation.proceed_advance ledger (.failed failure)
    obtain ⟨outcome, ledger', state'', others, hrun, hreaches, hothers, hp'⟩ :=
      ih hwaiting _ hreleased.2
    refine ⟨outcome, ledger', state'', back.1.awaited ++ others, hrun,
      .step hadvance (by simp [waits]) hreaches, ?_, ?_⟩
    · rw [hothers, hadvance.released_eq, List.append_assoc]
    · rw [awaited_of_waits waits, ← List.append_assoc]
      exact hp'
  | case5 ledger state operation waiting holding sequel waits state' conduct inside ih =>
    intro released hp
    have hreleased := h released holding state hp
    rw [conduct] at hreleased
    simp [Conduct.returns] at hreleased
  | case6 ledger state operation waiting holding sequel waits state' conduct =>
    intro released hp
    have hreleased := h released holding state hp
    rw [conduct] at hreleased
    simp [Conduct.returns] at hreleased
  | case7 ledger state operation waiting moves next ih =>
    intro released hp
    have hadvance := operation.proceed_advance ledger .clean
    obtain ⟨outcome, ledger', state', others, hrun, hreaches, hothers, hp'⟩ :=
      ih hwaiting released hp
    refine ⟨outcome, ledger', state', next.1.awaited ++ others, hrun,
      .step hadvance (by simp [moves]) hreaches, ?_, ?_⟩
    · rw [hothers, hadvance.released_eq, List.append_assoc]
    · rw [awaited_of_moves moves, List.nil_append]
      exact hp'

end Operation

end Tenure
