import Tenure.Proofs.Term.SharedRegister
import Tenure.Term.Traffic

/-!
# What traffic keeps

Whatever the order of their steps, the operations on a register keep a few books in balance: who
has which delegate, which closing was the first, who has had a term, and whether somebody will
still look after a closed register. Each book is kept by every single move, and so by every
schedule.

## Main definitions

* `Traffic.Shift` — what a move can do
* `Traffic.Sound` — all books together

## Main results

* `Traffic.step_shift` — every move is a shift
* `Traffic.sound_after` — the books are in balance after every schedule
-/

namespace Tenure

namespace Operation

/-- The term that a publication has come to. -/
def Outcome.term? : Outcome → Option Term
  | published term => term
  | _ => none

/-- The term that a publication goes on with after a release. -/
def Sequel.term? : Sequel → Option Term
  | recheck term => some term
  | finish outcome => outcome.term?

/-- The term that a publication has numbered. -/
def term? : Operation → Option Term
  | put term | recheck term => some term
  | release _ sequel | releasing _ sequel => sequel.term?
  | done outcome => outcome.term?
  | _ => none

@[simp] theorem term?_releaseThen (taken : Option Term) (outcome : Outcome) :
    (releaseThen taken outcome).term? = outcome.term? := by
  cases taken <;> rfl

@[simp] theorem term?_resume (sequel : Sequel) : sequel.resume.term? = sequel.term? := by
  cases sequel <;> rfl

/-- A publication goes on with a term that it has just numbered or had numbered before. -/
theorem Advance.term? {operation next : Operation} {ledger ledger' : Ledger} {term : Term}
    (h : Advance operation ledger next ledger') (ht : next.term? = some term) :
    operation.term? = some term ∨ ledger'.terms = ledger.terms ++ [term] := by
  cases h with
  | numbered => exact .inr (by simpa [Operation.term?] using ht)
  | retracted | cleared => simp [Outcome.term?] at ht
  | returned => rw [term?_resume] at ht; exact .inl ht
  | served | replaced | stands | released | rests => exact .inl ht
  | _ => simp [Operation.term?, Sequel.term?, Outcome.term?] at ht

end Operation

/-- Whether a term is, or was, an operation's to have. -/
def OperationRun.claims (term : Term) (run : OperationRun) : Bool :=
  run.now.claims term (decide (run.origin = .invalidate term))

namespace Traffic

variable {traffic traffic' : Traffic}

/-- What a move can do. -/
inductive Shift : Traffic → Traffic → Prop
  | idle {traffic : Traffic} : Shift traffic traffic
  | brought {traffic : Traffic} (token : Token) :
      Shift traffic
        { traffic with
          brought := traffic.brought + 1
          runs := traffic.runs ++
            [⟨.publish ⟨token, traffic.brought + 1⟩, .publish ⟨token, traffic.brought + 1⟩⟩] }
  | invalidate {traffic : Traffic} (term : Term) :
      Shift traffic
        { traffic with runs := traffic.runs ++ [⟨.invalidate term, .invalidate term⟩] }
  | close {traffic : Traffic} :
      Shift traffic { traffic with runs := traffic.runs ++ [⟨.shut, .shut⟩] }
  | advance {traffic : Traffic} {i : Nat} {run : OperationRun} {now : Operation} {ledger : Ledger}
      (here : traffic.runs[i]? = some run)
      (advance : run.now.Advance traffic.toLedger now ledger) :
      Shift traffic
        { toLedger := ledger, runs := traffic.runs.set i { run with now } }

/-- Every move is a shift. -/
theorem step_shift (traffic : Traffic) (move : Move) : Shift traffic (traffic.step move) := by
  cases move with
  | publish token => exact .brought token
  | invalidate term => exact .invalidate term
  | close => exact .close
  | proceed i how =>
    cases h : traffic.runs[i]? with
    | none =>
      simp only [step, h]
      exact .idle
    | some run =>
      simp only [step, h]
      exact .advance h (Operation.proceed_advance _ how _)

/-- What every shift keeps holds after every schedule. -/
theorem after_of_shift {P : Traffic → Prop} (start : P {})
    (shift : ∀ {traffic traffic'}, Shift traffic traffic' → P traffic → P traffic')
    (schedule : Nat → Move) (n : Nat) : P (after schedule n) := by
  induction n with
  | zero => exact start
  | succ n ih => exact shift (step_shift _ _) ih

/-- The operations on the register, without what they were when they were begun. -/
def shared (traffic : Traffic) : SharedRegister where
  toLedger := traffic.toLedger
  operations := traffic.runs.map (·.now)

theorem Shift.shared (h : Shift traffic traffic') :
    SharedRegister.Shifts traffic.shared traffic'.shared := by
  have hjoin (operation : Operation) (idle : operation.isIdle = true) :
      SharedRegister.Shift traffic.shared
        { traffic.shared with operations := traffic.shared.operations ++ [operation] } :=
    .join idle
  cases h with
  | idle => exact .refl
  | brought token =>
    -- whoever brings a delegate joins first
    refine (Relation.ReflTransGen.single (hjoin (.done (.published none)) rfl)).tail ?_
    have hlast : (traffic.shared.operations ++
        [Operation.done (.published none)])[traffic.runs.length]? =
          some (Operation.done (.published none)) := by
      simp [Traffic.shared]
    have hbring : SharedRegister.Shift
        { traffic.shared with
          operations := traffic.shared.operations ++ [Operation.done (.published none)] }
        { traffic.shared with
          brought := traffic.brought + 1
          operations := (traffic.shared.operations ++ [Operation.done (.published none)]).set
            traffic.runs.length (.publish ⟨token, traffic.brought + 1⟩) } :=
      .bring token hlast rfl
    simpa [Traffic.shared] using hbring
  | invalidate term => exact .single (by simpa [Traffic.shared] using hjoin (.invalidate term) rfl)
  | close => exact .single (by simpa [Traffic.shared] using hjoin .shut rfl)
  | @advance i run now ledger here advance =>
    have here' : traffic.shared.operations[i]? = some run.now := by simp [Traffic.shared, here]
    have hadvance : SharedRegister.Shift traffic.shared
        { toLedger := ledger, operations := traffic.shared.operations.set i now } :=
      .advance here' advance
    exact .single (by simpa [Traffic.shared, List.map_set] using hadvance)

/-! ### The books -/

/-- Either the register is open or there is one first closing. -/
def ClosedOnce (traffic : Traffic) : Prop :=
  (!traffic.register.closed).toNat +
    traffic.runs.countP (·.now.settled == some (.closed true)) = 1

/-- The generations are drawn in order. -/
def Numbered (traffic : Traffic) : Prop :=
  traffic.terms.map (·.generation) = List.range' 1 traffic.register.generation

/-- Every term that is served or that a publication goes on with was numbered. -/
def Known (traffic : Traffic) : Prop :=
  (∀ term, traffic.register.current = some term → term ∈ traffic.terms) ∧
    ∀ run ∈ traffic.runs, ∀ term, run.now.term? = some term → term ∈ traffic.terms

/-- Whoever is about to end a term was asked to end that term. -/
def Faithful (traffic : Traffic) : Prop :=
  ∀ run ∈ traffic.runs, ∀ term, run.now = .invalidate term →
    run.origin = .invalidate term

/-- A term is in one hand at a time: about to be served, served, or ended. A term whose
generation was not drawn yet is nowhere. -/
def Unrivalled (traffic : Traffic) : Prop :=
  ∀ term : Term, (traffic.register.serves term).toNat + traffic.runs.countP (·.claims term) ≤
    if term.generation ≤ traffic.register.generation then 1 else 0

theorem ClosedOnce.shift (h : Shift traffic traffic') (hc : traffic.ClosedOnce) :
    traffic'.ClosedOnce := by
  cases h with
  | idle => exact hc
  | brought | invalidate | close => simpa [ClosedOnce, Operation.settled] using hc
  | @advance i run now ledger here advance =>
    have hcount := Tally.countP_set_add (b := { run with now })
      (p := fun run => run.now.settled == some (.closed true)) here
    have hfirst := advance.first
    simp only [ClosedOnce] at hc hcount hfirst ⊢
    omega

theorem Numbered.shift (h : Shift traffic traffic') (hn : traffic.Numbered) :
    traffic'.Numbered :=
  SharedRegister.Numbered.shifts h.shared hn

theorem Known.shift (h : Shift traffic traffic') (hk : traffic.Known) : traffic'.Known := by
  obtain ⟨hserved, hnow⟩ := hk
  cases h with
  | idle => exact ⟨hserved, hnow⟩
  | brought | invalidate | close =>
    refine ⟨hserved, fun run he term ht => ?_⟩
    rcases List.mem_append.mp he with he | he
    · exact hnow run he term ht
    · obtain rfl := List.mem_singleton.mp he
      simp [Operation.term?] at ht
  | @advance i run now ledger here advance =>
    have hmem : run ∈ traffic.runs := List.mem_of_getElem? here
    -- the terms that were numbered stay on the list
    have hkept : ∀ term ∈ traffic.terms, term ∈ ledger.terms := by
      intro term ht
      rcases advance.terms with ⟨_, -, hterms, -⟩ | ⟨hterms, -⟩ <;> rw [hterms]
      · exact List.mem_append_left _ ht
      · exact ht
    refine ⟨fun term hs => ?_, fun other ho term ht => ?_⟩
    · rcases advance.served_or_put hs with hs | hput
      · exact hkept term (hserved term hs)
      · exact hkept term (hnow run hmem term (by rw [hput]; rfl))
    · rcases List.mem_or_eq_of_mem_set ho with ho | rfl
      · exact hkept term (hnow other ho term ht)
      · rcases advance.term? ht with ht | hterms
        · exact hkept term (hnow run hmem term ht)
        · simp [hterms]

theorem Faithful.shift (h : Shift traffic traffic') (hf : traffic.Faithful) :
    traffic'.Faithful := by
  cases h with
  | idle => exact hf
  | brought | invalidate | close =>
    intro run he term ht
    rcases List.mem_append.mp he with he | he
    · exact hf run he term ht
    · obtain rfl := List.mem_singleton.mp he
      exact ht
  | @advance i run now ledger here advance =>
    intro other ho term ht
    rcases List.mem_or_eq_of_mem_set ho with ho | rfl
    · exact hf other ho term ht
    · -- nothing that is under way turns into an ending
      exact absurd ht advance.ne_invalidate

theorem Unrivalled.shift (h : Shift traffic traffic') (hf : traffic.Faithful)
    (hu : traffic.Unrivalled) : traffic'.Unrivalled := by
  intro term
  have ht := hu term
  cases h with
  | idle => exact ht
  | brought | invalidate | close =>
    simpa [OperationRun.claims, Operation.claims, Operation.settled] using ht
  | @advance i run now ledger here advance =>
    have hcount := Tally.countP_set_add (b := { run with now })
      (p := fun run => run.claims term) here
    have hgrows := advance.generation_le
    -- one that was asked to end this term is not about to end another one
    have hasked : decide (run.origin = .invalidate term) = true →
        ∀ other, run.now = .invalidate other → other = term := by
      intro ho other hnow
      have horigin := hf run (List.mem_of_getElem? here) other hnow
      rw [of_decide_eq_true ho] at horigin
      exact (Operation.invalidate.inj horigin).symm
    simp only [OperationRun.claims] at ht hcount ⊢
    rcases advance.claims term _ hasked with hle | ⟨hterm, hdrawn, hle⟩
    · split at ht <;> split <;> omega
    · rw [if_neg (by omega)] at ht
      rw [if_pos (by omega)]
      omega

/-! ### All books together -/

/-- The books that are kept. -/
structure Sound (traffic : Traffic) : Prop where
  shared : traffic.shared.Sound
  closedOnce : traffic.ClosedOnce
  numbered : traffic.Numbered
  known : traffic.Known
  faithful : traffic.Faithful
  unrivalled : traffic.Unrivalled

theorem sound_start : Sound {} where
  shared := SharedRegister.sound_of_idle (by simp)
  closedOnce := rfl
  numbered := rfl
  known := ⟨by simp, by simp⟩
  faithful := by intro run he; simp at he
  unrivalled := by intro term; simp [Register.serves]

theorem Sound.shift (h : Shift traffic traffic') (hs : traffic.Sound) : traffic'.Sound where
  shared := hs.shared.shifts h.shared
  closedOnce := hs.closedOnce.shift h
  numbered := hs.numbered.shift h
  known := hs.known.shift h
  faithful := hs.faithful.shift h
  unrivalled := hs.unrivalled.shift h hs.faithful

/-- The books are in balance after every schedule. -/
theorem sound_after (schedule : Nat → Move) (n : Nat) : (after schedule n).Sound :=
  after_of_shift sound_start (fun h hs => hs.shift h) schedule n

end Traffic

end Tenure
