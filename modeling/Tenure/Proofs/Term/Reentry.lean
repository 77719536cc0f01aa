import Mathlib.Logic.Basic
import Tenure.Proofs.Term.Custody
import Tenure.Proofs.Term.Kind
import Tenure.Term.Course

/-!
# Releases that come back to the register

A delegate that is being released may close the register that it was served from. The closing then
runs inside the release, and may release another delegate in its turn. So the course of an operation
is a tree: where a release closes the register, a whole closing hangs below it. Nothing inside a
release goes deeper than that closing, because a register is closed once.

What holds of the course of an operation is proved along this tree.

## Main definitions

* `Conduct.comesBack`, `Conduct.return?` — a delegate returns from its release, and how
* `Operation.Unfolds` — the course of an operation with what happens inside its releases
* `Operation.Stands` — what a publication can rely upon
* `Notice.isComplaint`, `Conduct.complaint?` — what is reported of a delegate that fails

## Main results

* `Operation.course_unfolds` — an operation whose delegates come back runs to its end
* `Operation.Unfolds.custody`, `Operation.Unfolds.vacant` — where delegates are then, and that a
  closed register serves nothing
* `Operation.Unfolds.of_publish` — what a publication comes to
* `Operation.Unfolds.overtaken` — a publication whose register is closed inside it
* `Operation.Unfolds.complaints` — every failure is reported once
-/

namespace Tenure

namespace Conduct

/-- Whether a delegate returns from its release, whatever it does meanwhile. -/
def comesBack : Conduct → Bool
  | breaking => false
  | _ => true

/-- How a delegate returns that does nothing to the register. -/
def return? : Conduct → Option Operation.Return
  | clean => some .clean
  | failing failure => some (.failed failure)
  | closing | breaking => none

/-- What is reported of a delegate that was served under a term number, if it fails. -/
def complaint? (term : Nat) : Conduct → Option Notice
  | failing failure => some (.notReleased term failure)
  | _ => none

end Conduct

/-- Whether a notice reports a delegate that could not be released cleanly. -/
def Notice.isComplaint : Notice → Bool
  | notReleased .. => true
  | _ => false

theorem Ledger.note_nil (ledger : Ledger) : ledger.note [] = ledger := by
  simp [Ledger.note]

namespace Operation

/-- The course of an operation, given what delegates may do when they are released: what it comes
to, and the ledger at its end. -/
inductive Unfolds (may : Holding → Conduct → Prop) : Operation → Ledger → Outcome → Ledger → Prop
  | done {outcome : Outcome} {ledger : Ledger} :
      Unfolds may (done outcome) ledger outcome ledger
  | moves {operation next : Operation} {ledger between ledger' : Ledger} {outcome : Outcome}
      (moves : operation.standing = .moves) (advance : Advance operation ledger next between)
      (rest : Unfolds may next between outcome ledger') :
      Unfolds may operation ledger outcome ledger'
  | returns {holding : Holding} {sequel : Sequel} {conduct : Conduct} {how : Return}
      {ledger ledger' : Ledger} {outcome : Outcome} (behaves : may holding conduct)
      (comes : conduct.return? = some how)
      (rest : Unfolds may sequel.resume
        (ledger.note ((releasing holding sequel).returned how).2) outcome ledger') :
      Unfolds may (releasing holding sequel) ledger outcome ledger'
  /-- A delegate closes the register from inside its release. -/
  | closes {holding : Holding} {sequel : Sequel} {ledger between ledger' : Ledger}
      {first outcome : Outcome} (behaves : may holding .closing)
      (inside : Unfolds may shut ledger first between)
      (rest : Unfolds may sequel.resume between outcome ledger') :
      Unfolds may (releasing holding sequel) ledger outcome ledger'

/-! ### The course of an operation unfolds -/

section Course

variable {may : Holding → Conduct → Prop}

/-- What is left of a course inside the releases that wait for it, innermost first. -/
private def Concludes (may : Holding → Conduct → Prop) :
    List (Holding × Sequel) → Operation → Ledger → Outcome → Ledger → Prop
  | [], operation, ledger, outcome, ledger' => Unfolds may operation ledger outcome ledger'
  | (_, sequel) :: waiting, operation, ledger, outcome, ledger' =>
    ∃ first between, Unfolds may operation ledger first between ∧
      Concludes may waiting sequel.resume between outcome ledger'

private theorem Concludes.of_unfolds {waiting : List (Holding × Sequel)}
    {operation next : Operation} {ledger between ledger' : Ledger} {outcome : Outcome}
    (h : Concludes may waiting next between outcome ledger')
    (unfolds : ∀ {outcome ledger'}, Unfolds may next between outcome ledger' →
      Unfolds may operation ledger outcome ledger') :
    Concludes may waiting operation ledger outcome ledger' := by
  cases waiting with
  | nil => exact unfolds h
  | cons release waiting =>
    obtain ⟨first, after, hfirst, hrest⟩ := h
    exact ⟨first, after, unfolds hfirst, hrest⟩

variable {σ : Type} {around : Surroundings σ} {P : σ → Prop}

private theorem run_concludes (released : ∀ holding state, P state →
      may holding (around.release holding state).1 ∧ P (around.release holding state).2)
    (closed : ∀ state, P state → P (around.closedInside state))
    (comeBack : ∀ {holding conduct}, may holding conduct → conduct.comesBack = true)
    (ledger : Ledger) (state : σ)
    (operation : Operation) (waiting : List (Holding × Sequel)) (hp : P state) :
    ∃ outcome ledger' state', operation.run around ledger state waiting =
        (some outcome, ledger', state') ∧
      Concludes may waiting operation ledger outcome ledger' ∧ P state' := by
  fun_induction Operation.run around ledger state operation waiting with
  | case1 ledger state operation outcome finished =>
    obtain rfl : operation = .done outcome := by cases operation <;> simp_all [standing]
    exact ⟨outcome, ledger, state, rfl, .done, hp⟩
  | case2 ledger state operation outcome finished holding sequel waiting back ih =>
    -- the closing inside is over, and the release that it was begun in returns
    obtain rfl : operation = .done outcome := by cases operation <;> simp_all [standing]
    obtain ⟨result, ledger', state', hrun, hrest, hp'⟩ := ih (closed state hp)
    have hback : back = (sequel.resume, ledger) := by
      simp [back, proceed, standing, returned, Ledger.note_nil]
    rw [hback] at hrest
    exact ⟨result, ledger', state', hrun, ⟨outcome, ledger, .done, hrest⟩, hp'⟩
  | case3 ledger state operation waiting holding sequel waits state' hreleased back ih =>
    obtain rfl : operation = .releasing holding sequel := by cases operation <;> simp_all [standing]
    obtain ⟨hmay, hp'⟩ := released holding state hp
    rw [hreleased] at hmay hp'
    obtain ⟨result, ledger', state'', hrun, hrest, hp''⟩ := ih hp'
    exact ⟨result, ledger', state'', hrun,
      hrest.of_unfolds (.returns hmay rfl), hp''⟩
  | case4 ledger state operation waiting holding sequel waits failure state' hreleased back ih =>
    obtain rfl : operation = .releasing holding sequel := by cases operation <;> simp_all [standing]
    obtain ⟨hmay, hp'⟩ := released holding state hp
    rw [hreleased] at hmay hp'
    obtain ⟨result, ledger', state'', hrun, hrest, hp''⟩ := ih hp'
    exact ⟨result, ledger', state'', hrun,
      hrest.of_unfolds (.returns hmay rfl), hp''⟩
  | case5 ledger state operation waiting holding sequel waits state' hreleased inside ih =>
    obtain rfl : operation = .releasing holding sequel := by cases operation <;> simp_all [standing]
    obtain ⟨hmay, hp'⟩ := released holding state hp
    rw [hreleased] at hmay hp'
    obtain ⟨result, ledger', state'', hrun, ⟨first, between, hinside, hrest⟩, hp''⟩ := ih hp'
    have hshut : Unfolds may shut ledger first between :=
      .moves rfl (shut.proceed_advance ledger .clean) hinside
    exact ⟨result, ledger', state'', hrun,
      hrest.of_unfolds (.closes hmay hshut), hp''⟩
  | case6 ledger state operation waiting holding sequel waits state' hreleased =>
    obtain ⟨hmay, -⟩ := released holding state hp
    rw [hreleased] at hmay
    exact absurd (comeBack hmay) (by simp [Conduct.comesBack])
  | case7 ledger state operation waiting moves next ih =>
    obtain ⟨result, ledger', state', hrun, hrest, hp'⟩ := ih hp
    exact ⟨result, ledger', state', hrun,
      hrest.of_unfolds (.moves moves (operation.proceed_advance ledger .clean)), hp'⟩

/-- An operation whose delegates come back runs to its end. -/
theorem course_unfolds (released : ∀ holding state, P state →
      may holding (around.release holding state).1 ∧ P (around.release holding state).2)
    (closed : ∀ state, P state → P (around.closedInside state))
    (comeBack : ∀ {holding conduct}, may holding conduct → conduct.comesBack = true)
    (ledger : Ledger) {state : σ}
    (operation : Operation) (hp : P state) :
    ∃ outcome ledger' state', operation.course around ledger state =
        (some outcome, ledger', state') ∧
      Unfolds may operation ledger outcome ledger' ∧ P state' :=
  run_concludes released closed comeBack ledger state operation [] hp

end Course

/-- What the publication of a holding can rely upon at its steps, where only a release can come
between them: its term is served unless the register was closed meanwhile, and what it has come to
is so. -/
def Stands (holding : Holding) (register : Register) : Operation → Prop
  | publish mine => mine = holding
  | number mine => mine = holding ∧ register.closed = false
  | put term => term.toHolding = holding ∧ register.closed = false
  | recheck term | release _ (.recheck term) | releasing _ (.recheck term) =>
    term.toHolding = holding ∧ (register.closed = true ∨ register.current = some term)
  | retract | release _ (.finish (.published none)) | releasing _ (.finish (.published none))
  | done (.published none) => register.closed = true
  | release _ (.finish (.published (some _))) | releasing _ (.finish (.published (some _))) => False
  | done (.published (some term)) =>
    term.toHolding = holding ∧ register.closed = false ∧ register.current = some term
  | _ => True

/-- The holding that an operation has in hand. -/
def holding? : Operation → Option Holding
  | publish holding | number holding | release holding _ | releasing holding _ => some holding
  | put term => some term.toHolding
  | _ => none

/-- What is yet to be reported of the delegate that is being released, given what is reported of
each. -/
def pending (tells : Nat → Option Notice) : Operation → List Notice
  | releasing holding _ => (tells holding.delegate).toList
  | _ => []

@[simp] theorem pending_resume (tells : Nat → Option Notice) (sequel : Sequel) :
    sequel.resume.pending tells = [] := by
  cases sequel <;> rfl

@[simp] theorem pending_releaseThen (tells : Nat → Option Notice) (taken : Option Term)
    (outcome : Outcome) : (releaseThen taken outcome).pending tells = [] := by
  cases taken <;> rfl

namespace Advance

variable {operation next : Operation} {ledger ledger' : Ledger}

/-- What a publication relies upon is kept by its own steps. -/
theorem upholds {holding : Holding} (h : Advance operation ledger next ledger')
    (hs : operation.Stands holding ledger.register) : next.Stands holding ledger'.register := by
  cases h with
  | refused closed => exact closed
  | overtaken closed => exact closed
  | admitted isOpen => exact ⟨hs, isOpen⟩
  | numbered => exact hs
  | served | replaced => exact ⟨hs.1, .inr rfl⟩
  | @stands term ledger isOpen =>
    obtain ⟨hmine, hclosed | hserved⟩ := hs
    · rw [isOpen] at hclosed
      simp at hclosed
    · exact ⟨hmine, isOpen, hserved⟩
  | @retracted ledger => cases ledger.register.current <;> exact hs
  | @cleared ledger => cases ledger.register.current <;> trivial
  | @released holding sequel ledger =>
    cases sequel with
    | recheck term => exact hs
    | finish outcome =>
      match outcome with
      | .published none | .published (some _) => exact hs
      | .ended _ | .closed _ => trivial
  | @returned holding sequel ledger how =>
    cases sequel with
    | recheck term => exact hs
    | finish outcome =>
      match outcome with
      | .published none => exact hs
      | .published (some _) => exact hs.elim
      | .ended _ | .closed _ => trivial
  | rests => exact hs
  | _ => trivial

/-- An operation has in hand what it had before, or what was served. -/
theorem holdings (h : Advance operation ledger next ledger') {K : Holding → Prop}
    (hand : ∀ holding, operation.holding? = some holding → K holding)
    (served : ∀ term, ledger.register.current = some term → K term.toHolding) :
    (∀ holding, next.holding? = some holding → K holding) ∧
      ∀ term, ledger'.register.current = some term → K term.toHolding := by
  cases h with
  | @served term ledger vacant =>
    refine ⟨by simp [holding?], fun other hother => ?_⟩
    obtain rfl := Option.some.inj hother
    exact hand _ rfl
  | @replaced term old ledger occupied =>
    refine ⟨fun holding hh => ?_, fun other hother => ?_⟩
    · obtain rfl := Option.some.inj hh
      exact served old occupied
    · obtain rfl := Option.some.inj hother
      exact hand _ rfl
  | @retracted ledger | @cleared ledger =>
    refine ⟨fun holding hh => ?_, by simp⟩
    cases hs : ledger.register.current with
    | none => simp [hs, releaseThen, holding?] at hh
    | some term =>
      simp only [hs, releaseThen, holding?, Option.some.injEq] at hh
      exact hh ▸ served term hs
  | @ended term ledger isServed =>
    refine ⟨fun holding hh => ?_, by simp⟩
    obtain rfl := Option.some.inj hh
    exact served term isServed
  | refused | admitted | released => exact ⟨hand, served⟩
  | numbered =>
    refine ⟨fun holding hh => hand holding ?_, served⟩
    exact hh
  | @returned holding sequel ledger how =>
    refine ⟨fun holding hh => ?_, served⟩
    cases sequel <;> simp [Sequel.resume, holding?] at hh
  | _ => exact ⟨by simp [holding?], served⟩

/-- A step reports no failure of a delegate; it may begin a release of which one is reported. -/
theorem complaints (h : Advance operation ledger next ledger')
    (moves : operation.standing = .moves) {tells : Nat → Option Notice}
    (told : ledger.notices.filter Notice.isComplaint = ledger.released.filterMap tells) :
    ledger'.notices.filter Notice.isComplaint ++ next.pending tells =
      ledger'.released.filterMap tells := by
  cases h with
  | @released holding sequel ledger =>
    rw [told, List.filterMap_append, pending]
    cases h : tells holding.delegate <;> simp [h]
  | replaced => simpa [pending, List.filter_append, Notice.isComplaint] using told
  | retracted | cleared => simpa using told
  | returned how => simp [standing] at moves
  | _ => simpa [pending] using told

end Advance

namespace Unfolds

variable {may : Holding → Conduct → Prop} {operation : Operation} {ledger ledger' : Ledger}
  {outcome : Outcome} {holding : Holding} {sequel : Sequel} {term : Term}

/-! ### Where delegates are -/

theorem brought (h : Unfolds may operation ledger outcome ledger') :
    ledger'.brought = ledger.brought := by
  induction h with
  | done => rfl
  | moves _ advance _ ih => exact ih.trans advance.brought
  | returns _ _ _ ih => exact ih
  | closes _ _ _ ihIn ihRest => exact ihRest.trans ihIn

/-- Nothing opens a register again. -/
theorem closed (h : Unfolds may operation ledger outcome ledger')
    (hc : ledger.register.closed = true) : ledger'.register.closed = true := by
  induction h with
  | done => exact hc
  | moves _ advance _ ih => exact ih (advance.closed hc)
  | returns _ _ _ ih => exact ih hc
  | closes _ _ _ ihIn ihRest => exact ihRest (ihIn hc)

/-- A closing leaves the register closed. -/
theorem closed_of_shut (h : Unfolds may .shut ledger outcome ledger') :
    ledger'.register.closed = true := by
  cases h with
  | moves _ advance rest =>
    cases advance with
    | shut isOpen => exact rest.closed rfl
    | wasShut closed => exact rest.closed closed

/-- At the end a delegate is where it was at the beginning, in service, or released. -/
theorem custody (h : Unfolds may operation ledger outcome ledger') (delegate : Nat) :
    (ledger'.register.lends delegate).toNat + ledger'.released.count delegate =
      operation.custody delegate ledger := by
  induction h with
  | done => simp [Operation.custody, carries, owes]
  | moves _ advance _ ih => exact ih.trans (advance.custody delegate)
  | @returns holding sequel conduct how ledger ledger' outcome behaves comes rest ih =>
    exact ih.trans ((Advance.returned how).custody delegate)
  | @closes holding sequel ledger between ledger' first outcome behaves inside rest ihIn ihRest =>
    -- neither a closing that begins nor a release that returns has a delegate in hand
    have hrest : sequel.resume.custody delegate between =
        (between.register.lends delegate).toNat + between.released.count delegate := by
      cases sequel <;> simp [Sequel.resume, Operation.custody, carries, owes]
    rw [ihRest, hrest, ihIn]
    simp [Operation.custody, carries, owes]

/-- At the end a closed register serves nothing, unless it was left that way before. -/
theorem vacant (h : Unfolds may operation ledger outcome ledger')
    (hleft : ledger.register.closed = true → ledger.register.current.isSome = true →
      operation.tidies = true)
    (hc : ledger'.register.closed = true) : ledger'.register.current = none := by
  induction h with
  | @done outcome ledger =>
    cases hs : ledger.register.current with
    | none => rfl
    | some term => simpa [tidies] using hleft hc (by simp [hs])
  | moves _ advance _ ih =>
    refine ih (fun hclosed hserved => ?_) hc
    rcases advance.tidies hclosed hserved with hnext | ⟨hbefore, hsome, hnone⟩
    · exact hnext
    · rw [hleft hbefore hsome] at hnone
      simp at hnone
  | @returns holding sequel conduct how ledger ledger' outcome behaves comes rest ih =>
    refine ih (fun hclosed hserved => ?_) hc
    have htidies := hleft hclosed hserved
    cases sequel with
    | recheck term => rfl
    | finish outcome => simp [tidies] at htidies
  | @closes holding sequel ledger between ledger' first outcome behaves inside rest ihIn ihRest =>
    refine ihRest (fun hclosed hserved => ?_) hc
    cases sequel with
    | recheck term => rfl
    | finish outcome =>
      -- the release has nothing to look after, so the closing inside finds nothing left behind
      have hnone := ihIn (fun hclosed hserved => by simpa [tidies] using hleft hclosed hserved)
        hclosed
      simp [hnone] at hserved

/-! ### What a publication comes to -/

/-- What an operation comes to is what it is for. -/
theorem kind (h : Unfolds may operation ledger outcome ledger') :
    outcome.kind = operation.kind := by
  induction h with
  | done => rfl
  | moves _ advance _ ih => exact ih.trans advance.kind
  | @returns _ sequel _ _ _ _ _ _ _ _ ih => exact ih.trans (kind_resume sequel)
  | @closes _ sequel _ _ _ _ _ _ _ _ _ ih => exact ih.trans (kind_resume sequel)

/-- What a publication relies upon holds to its end. -/
theorem stands (mine : Holding) (h : Unfolds may operation ledger outcome ledger')
    (hs : operation.Stands mine ledger.register) :
    (Operation.done outcome).Stands mine ledger'.register := by
  induction h with
  | done => exact hs
  | moves _ advance _ ih => exact ih (advance.upholds hs)
  | @returns holding sequel conduct how ledger ledger' outcome behaves comes rest ih =>
    exact ih ((Advance.returned how).upholds hs)
  | @closes holding sequel ledger between ledger' first outcome behaves inside rest ihIn ihRest =>
    refine ihRest ?_
    have hclosed := inside.closed_of_shut
    cases sequel with
    | recheck term => exact ⟨hs.1, .inl hclosed⟩
    | finish outcome =>
      match outcome with
      | .published none => exact hclosed
      | .published (some _) => exact hs.elim
      | .ended _ | .closed _ => trivial

/-- A publication comes to nothing in a closed register; in an open one, to a term that is then
served. -/
theorem of_publish (h : Unfolds may (.publish holding) ledger outcome ledger') :
    (ledger'.register.closed = true ∧ outcome = .published none) ∨
      (ledger'.register.closed = false ∧ ∃ term : Term, term.toHolding = holding ∧
        outcome = .published (some term) ∧ ledger'.register.current = some term) := by
  have hkind : outcome.kind = .publication := h.kind
  have hstands := h.stands holding rfl
  match outcome with
  | .published none => exact .inl ⟨hstands, rfl⟩
  | .published (some term) =>
    obtain ⟨hmine, hopen, hserved⟩ := hstands
    exact .inr ⟨hopen, term, hmine, rfl, hserved⟩
  | .ended _ | .closed _ => simp [Outcome.kind] at hkind

theorem eq_of_done {result : Outcome} (h : Unfolds may (.done result) ledger outcome ledger') :
    outcome = result ∧ ledger' = ledger := by
  cases h with
  | done => exact ⟨rfl, rfl⟩
  | moves moves => simp [standing] at moves

/-- A closed register is closed again, and nothing happens to it. -/
theorem eq_of_shut (h : Unfolds may .shut ledger outcome ledger')
    (hc : ledger.register.closed = true) : ledger' = ledger := by
  cases h with
  | moves _ advance rest =>
    cases advance with
    | shut isOpen => simp [isOpen] at hc
    | wasShut => exact rest.eq_of_done.2

/-- A release from a closed register releases what it releases, whatever the delegate does. -/
theorem of_release {result : Outcome}
    (h : Unfolds may (.release holding (.finish result)) ledger outcome ledger')
    (hc : ledger.register.closed = true) :
    outcome = result ∧ ledger'.register = ledger.register ∧
      ledger'.released = ledger.released ++ [holding.delegate] := by
  cases h with
  | moves _ advance rest =>
    cases advance with
    | released =>
      cases rest with
      | moves moves => simp [standing] at moves
      | returns behaves comes rest =>
        obtain ⟨rfl, rfl⟩ := rest.eq_of_done
        exact ⟨rfl, rfl, rfl⟩
      | closes behaves inside rest =>
        obtain rfl := inside.eq_of_shut hc
        obtain ⟨rfl, rfl⟩ := rest.eq_of_done
        exact ⟨rfl, rfl, rfl⟩

/-- The closing of an open register releases what was served. -/
theorem of_shut (h : Unfolds may .shut ledger outcome ledger')
    (isOpen : ledger.register.closed = false) (served : ledger.register.current = some term) :
    ledger'.register.current = none ∧ ledger'.released = ledger.released ++ [term.delegate] := by
  cases h with
  | moves _ advance rest =>
    cases advance with
    | wasShut closed => simp [isOpen] at closed
    | shut =>
      cases rest with
      | moves _ advance rest =>
        cases advance with
        | cleared =>
          simp only [served, releaseThen] at rest
          obtain ⟨-, hregister, hreleased⟩ := rest.of_release rfl
          exact ⟨by rw [hregister], hreleased⟩

/-- A term that was put into service in place of another one, whose delegate closes the register:
both delegates are released, and the publication comes to nothing. -/
theorem of_replaced {old : Holding}
    (h : Unfolds may (.release old (.recheck term)) ledger outcome ledger')
    (isOpen : ledger.register.closed = false) (served : ledger.register.current = some term)
    (closes : ∀ conduct, may old conduct → conduct = .closing) :
    outcome = .published none ∧ ledger'.register.closed = true ∧
      ledger'.released = ledger.released ++ [old.delegate, term.delegate] := by
  cases h with
  | moves _ advance rest =>
    cases advance with
    | released =>
      cases rest with
      | moves moves => simp [standing] at moves
      | returns behaves comes rest =>
        obtain rfl := closes _ behaves
        simp [Conduct.return?] at comes
      | closes behaves inside rest =>
        obtain ⟨hvacant, hreleased⟩ := inside.of_shut isOpen served
        have hclosed := inside.closed_of_shut
        cases rest with
        | moves _ advance rest =>
          cases advance with
          | stands isOpen => simp [isOpen] at hclosed
          | overtaken =>
            cases rest with
            | moves _ advance rest =>
              cases advance with
              | retracted =>
                -- the closing inside has taken out what was served
                rw [hvacant] at rest
                obtain ⟨rfl, rfl⟩ := rest.eq_of_done
                exact ⟨rfl, hclosed, by simp [hreleased]⟩

/-- A publication that replaces a term whose delegate closes the register: the old delegate is
released, and inside its release the new one. -/
theorem overtaken {old : Term} (h : Unfolds may (.publish holding) ledger outcome ledger')
    (isOpen : ledger.register.closed = false) (served : ledger.register.current = some old)
    (closes : ∀ conduct, may old.toHolding conduct → conduct = .closing) :
    outcome = .published none ∧ ledger'.register.closed = true ∧
      ledger'.released = ledger.released ++ [old.delegate, holding.delegate] := by
  cases h with
  | moves _ advance rest =>
    cases advance with
    | refused closed => simp [isOpen] at closed
    | admitted =>
      cases rest with
      | moves _ advance rest =>
        cases advance with
        | numbered =>
          cases rest with
          | moves _ advance rest =>
            cases advance with
            | served vacant => simp [served] at vacant
            | @replaced _ other _ occupied =>
              obtain rfl : old = other := Option.some.inj (served.symm.trans occupied)
              exact rest.of_replaced isOpen rfl closes

/-! ### What is reported -/

/-- What may be done by a delegate goes with what is reported of it. -/
def Reported (may : Holding → Conduct → Prop) (tells : Nat → Option Notice) (holding : Holding) :
    Prop :=
  ∀ conduct, may holding conduct →
    conduct.complaint? holding.token.term = tells holding.delegate

/-- Every delegate that fails is reported once, in the order of the releases. -/
theorem complaints {tells : Nat → Option Notice} (h : Unfolds may operation ledger outcome ledger')
    (hand : ∀ holding, operation.holding? = some holding → Reported may tells holding)
    (served : ∀ term, ledger.register.current = some term → Reported may tells term.toHolding)
    (told : ledger.notices.filter Notice.isComplaint ++ operation.pending tells =
      ledger.released.filterMap tells) :
    ledger'.notices.filter Notice.isComplaint = ledger'.released.filterMap tells ∧
      ∀ term, ledger'.register.current = some term → Reported may tells term.toHolding := by
  induction h with
  | done => exact ⟨by simpa [pending] using told, served⟩
  | @moves operation next ledger between ledger' outcome moves advance rest ih =>
    obtain ⟨hhand, hserved⟩ := advance.holdings hand served
    refine ih hhand hserved (advance.complaints moves ?_)
    cases operation with
    | releasing holding sequel => simp [standing] at moves
    | _ => simpa [pending] using told
  | @returns holding sequel conduct how ledger ledger' outcome behaves comes rest ih =>
    refine ih ?_ served ?_
    · cases sequel <;> simp [Sequel.resume, holding?]
    · have htells := hand holding rfl conduct behaves
      rw [pending, ← htells] at told
      rw [pending_resume]
      cases conduct with
      | clean =>
        obtain rfl := Option.some.inj comes
        simpa [Conduct.complaint?, Ledger.note, returned] using told
      | failing failure =>
        obtain rfl := Option.some.inj comes
        simpa [Conduct.complaint?, Ledger.note, returned, List.filter_append, List.filter_cons,
          Notice.isComplaint] using told
      | closing | breaking => simp [Conduct.return?] at comes
  | @closes holding sequel ledger between ledger' first outcome behaves inside rest ihIn ihRest =>
    -- of a delegate that closes the register nothing is reported
    have htells := hand holding rfl .closing behaves
    obtain ⟨htold, hserved⟩ := ihIn (by simp [holding?]) served (by
      simpa [pending, ← htells, Conduct.complaint?] using told)
    refine ihRest ?_ hserved (by simpa using htold)
    cases sequel <;> simp [Sequel.resume, holding?]

end Unfolds

end Operation

end Tenure
