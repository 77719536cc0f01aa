import Mathlib.Logic.Relation
import Tenure.Proofs.Tally
import Tenure.Proofs.Term.Custody
import Tenure.Proofs.Term.Identity

/-!
# Who works on a register

Whatever else they do, those who work on a register are known here by the operation that each of
them is carrying out. The laws of this file hold of any company of workers: they may join at any
moment, and turn to another operation when the last one is over.

## Main definitions

* `SharedRegister` — a register with its ledger and the operations of those who work on it
* `SharedRegister.Shift`, `SharedRegister.Shifts` — what can happen to it
* `SharedRegister.Balanced`, `SharedRegister.Tidied`, `SharedRegister.Placed` — the laws;
  `SharedRegister.Sound` — all of them
* `SharedRegister.Numbered` — the generations are drawn in order
* `SharedRegister.Past` — a term is over; `SharedRegister.Quiet` — everyone is done

## Main results

* `SharedRegister.Sound.shifts`, `SharedRegister.Numbered.shifts` — the laws are kept
* `SharedRegister.Shifts.served_or_past`, `SharedRegister.Past.shifts` — a term that ceases to be
  served never comes back
* `SharedRegister.Quiet.current_eq_none`, `SharedRegister.Quiet.released` — what is left when
  everyone is done
-/

namespace Tenure

/-- Whether an operation has not begun to end a term or to close, or is over. -/
def Operation.isIdle : Operation → Bool
  | invalidate _ | shut | done _ => true
  | _ => false

theorem Operation.carries_of_isIdle {operation : Operation} (h : operation.isIdle = true)
    (delegate : Nat) : operation.carries delegate = false := by
  cases operation <;> simp_all [isIdle, carries]

theorem Operation.owes_of_isIdle {operation : Operation} (h : operation.isIdle = true)
    (delegate : Nat) : operation.owes delegate = false := by
  cases operation <;> simp_all [isIdle, owes]

theorem Operation.tidies_of_isIdle {operation : Operation} (h : operation.isIdle = true) :
    operation.tidies = false := by
  cases operation <;> simp_all [isIdle, tidies]

theorem Operation.claims_of_isIdle {operation : Operation} (h : operation.isIdle = true)
    (term : Term) : operation.claims term false = false := by
  cases operation <;> simp_all [isIdle, claims]

theorem Operation.ne_put_of_isIdle {operation : Operation} (h : operation.isIdle = true)
    (term : Term) : operation ≠ put term := by
  rintro rfl
  simp [isIdle] at h

theorem Operation.carries_publish (token : Token) (brought delegate : Nat) :
    (publish ⟨token, brought⟩).carries delegate = (brought == delegate) := rfl

theorem Operation.owes_publish (holding : Holding) (delegate : Nat) :
    (publish holding).owes delegate = false := rfl

theorem Operation.tidies_publish (holding : Holding) : (publish holding).tidies = false := rfl

theorem Operation.claims_publish (holding : Holding) (term : Term) :
    (publish holding).claims term false = false := by
  simp [claims]

/-- A register with its ledger, and the operation of each of those who work on it. -/
structure SharedRegister extends Ledger where
  operations : List Operation

namespace SharedRegister

/-- What can happen to a shared register. -/
inductive Shift : SharedRegister → SharedRegister → Prop
  | note {shared : SharedRegister} (notices : List Notice) :
      Shift shared { shared with toLedger := shared.toLedger.note notices }
  | advance {shared : SharedRegister} {i : Nat} {operation next : Operation} {ledger : Ledger}
      (here : shared.operations[i]? = some operation)
      (advance : operation.Advance shared.toLedger next ledger) :
      Shift shared { toLedger := ledger, operations := shared.operations.set i next }
  /-- Someone joins who does nothing yet. -/
  | join {shared : SharedRegister} {operation : Operation} (idle : operation.isIdle = true) :
      Shift shared { shared with operations := shared.operations ++ [operation] }
  /-- Someone turns to something else. -/
  | turn {shared : SharedRegister} {i : Nat} {operation next : Operation}
      (here : shared.operations[i]? = some operation) (idle : operation.isIdle = true)
      (idle' : next.isIdle = true) :
      Shift shared { shared with operations := shared.operations.set i next }
  /-- Someone brings a new delegate to publish it. -/
  | bring {shared : SharedRegister} {i : Nat} {operation : Operation} (token : Token)
      (here : shared.operations[i]? = some operation) (idle : operation.isIdle = true) :
      Shift shared
        { shared with
          brought := shared.brought + 1
          operations := shared.operations.set i (.publish ⟨token, shared.brought + 1⟩) }

/-- Any number of shifts, one after the other. -/
abbrev Shifts : SharedRegister → SharedRegister → Prop := Relation.ReflTransGen Shift

variable {shared shared' : SharedRegister} {term : Term} {delegate : Nat}

/-- How often a delegate is with someone, in service, or released. -/
def custody (shared : SharedRegister) (delegate : Nat) : Nat :=
  shared.operations.countP (·.carries delegate) + shared.operations.countP (·.owes delegate) +
    (shared.register.lends delegate).toNat + shared.released.count delegate

/-- Every delegate that was brought is there once, and no other is there at all. -/
def Balanced (shared : SharedRegister) : Prop :=
  ∀ delegate, shared.custody delegate = if 1 ≤ delegate ∧ delegate ≤ shared.brought then 1 else 0

/-- If a closed register serves a term, someone will look after it. -/
def Tidied (shared : SharedRegister) : Prop :=
  shared.register.closed = true → shared.register.current.isSome = true →
    0 < shared.operations.countP (·.tidies)

/-- A term is served, or about to be served, in one place at most, and only after its generation
was drawn. -/
def Placed (shared : SharedRegister) : Prop :=
  ∀ term : Term, (shared.register.serves term).toNat +
      shared.operations.countP (·.claims term false) ≤
    if term.generation ≤ shared.register.generation then 1 else 0

/-- The generations are drawn in order. -/
def Numbered (shared : SharedRegister) : Prop :=
  shared.terms.map (·.generation) = List.range' 1 shared.register.generation

/-- The laws together. -/
structure Sound (shared : SharedRegister) : Prop where
  balanced : shared.Balanced
  tidied : shared.Tidied
  placed : shared.Placed

/-- A term is over: its generation was drawn, and it is neither served nor about to be. -/
def Past (shared : SharedRegister) (term : Term) : Prop :=
  term.generation ≤ shared.register.generation ∧ shared.register.current ≠ some term ∧
    .put term ∉ shared.operations

/-- Everyone is done. -/
def Quiet (shared : SharedRegister) : Prop :=
  ∀ operation ∈ shared.operations, ∃ outcome, operation = .done outcome

theorem Balanced.shift (h : Shift shared shared') (hb : shared.Balanced) : shared'.Balanced := by
  intro delegate
  have hd := hb delegate
  cases h with
  | note notices => exact hd
  | @advance i operation next ledger here advance =>
    have hcarries := Tally.countP_set_add (b := next) (p := (·.carries delegate)) here
    have howes := Tally.countP_set_add (b := next) (p := (·.owes delegate)) here
    have hmoved := advance.custody delegate
    -- whoever advances hands the delegate on, and what it gives up the rest takes over
    simp only [custody, Operation.custody, advance.brought] at hd hmoved ⊢
    omega
  | join idle =>
    simpa [custody, Operation.carries_of_isIdle idle, Operation.owes_of_isIdle idle] using hd
  | @turn i operation next here idle idle' =>
    have hcarries := Tally.countP_set_add (b := next) (p := (·.carries delegate)) here
    have howes := Tally.countP_set_add (b := next) (p := (·.owes delegate)) here
    rw [Operation.carries_of_isIdle idle, Operation.carries_of_isIdle idle'] at hcarries
    rw [Operation.owes_of_isIdle idle, Operation.owes_of_isIdle idle'] at howes
    simp only [custody] at hd ⊢
    omega
  | @bring i operation token here idle =>
    have hcarries := Tally.countP_set_add (b := .publish ⟨token, shared.brought + 1⟩)
      (p := (·.carries delegate)) here
    have howes := Tally.countP_set_add (b := .publish ⟨token, shared.brought + 1⟩)
      (p := (·.owes delegate)) here
    rw [Operation.carries_of_isIdle idle, Operation.carries_publish] at hcarries
    rw [Operation.owes_of_isIdle idle, Operation.owes_publish] at howes
    simp only [custody] at hd ⊢
    -- the delegate that is brought was nowhere before, for its number was not given out
    by_cases heq : shared.brought + 1 = delegate
    · subst heq
      rw [beq_self_eq_true] at hcarries
      simp only [Bool.toNat_false, Bool.toNat_true] at hcarries
      rw [if_neg (by omega)] at hd
      rw [if_pos (by omega)]
      omega
    · rw [beq_eq_false_iff_ne.mpr heq] at hcarries
      split at hd <;> split <;> omega

/-- No delegate is released twice. -/
theorem Balanced.released_le_one (h : shared.Balanced) (delegate : Nat) :
    shared.released.count delegate ≤ 1 := by
  have hd := h delegate
  unfold custody at hd
  split at hd <;> omega

/-- The delegate of a term that is served was not released. -/
theorem Balanced.not_released (h : shared.Balanced) (hs : shared.register.current = some term) :
    term.delegate ∉ shared.released := by
  have hd := h term.delegate
  have hlends : shared.register.lends term.delegate = true := by simp [Register.lends, hs]
  rw [custody, hlends, Bool.toNat_true] at hd
  intro hm
  have := List.count_pos_iff.mpr hm
  split at hd <;> omega

/-- What was released stays on record. -/
theorem Shifts.released_prefix (h : Shifts shared shared') :
    shared.released <+: shared'.released := by
  induction h with
  | refl => exact List.prefix_rfl
  | tail _ shift ih =>
    refine ih.trans ?_
    cases shift with
    | advance here advance => exact advance.released_prefix
    | _ => exact List.prefix_rfl

theorem Tidied.shift (h : Shift shared shared') (ht : shared.Tidied) : shared'.Tidied := by
  intro hc hs
  cases h with
  | note notices => exact ht hc hs
  | @advance i operation next ledger here advance =>
    have hcount := Tally.countP_set_add (b := next) (p := (·.tidies)) here
    have hle := Tally.toNat_le_countP (p := (·.tidies)) here
    -- either the operation looks after the register from now on, or somebody else does
    rcases advance.tidies hc hs with hnext | ⟨hc', hs', hbefore⟩
    · simp only [hnext, Bool.toNat_true] at hcount
      simp only
      omega
    · have hpos := ht hc' hs'
      simp only [hbefore, Bool.toNat_false] at hcount
      simp only
      omega
  | join idle =>
    have hpos := ht hc hs
    rw [Tally.countP_concat]
    omega
  | @turn i operation next here idle idle' =>
    have hcount := Tally.countP_set_add (b := next) (p := (·.tidies)) here
    have hpos := ht hc hs
    rw [Operation.tidies_of_isIdle idle, Operation.tidies_of_isIdle idle'] at hcount
    simp only
    omega
  | @bring i operation token here idle =>
    have hcount := Tally.countP_set_add (b := .publish ⟨token, shared.brought + 1⟩)
      (p := (·.tidies)) here
    have hpos := ht hc hs
    rw [Operation.tidies_of_isIdle idle, Operation.tidies_publish] at hcount
    simp only
    omega

theorem Placed.shift (h : Shift shared shared') (hp : shared.Placed) : shared'.Placed := by
  intro term
  have hterm := hp term
  cases h with
  | note notices => exact hterm
  | @advance i operation next ledger here advance =>
    have hcount := Tally.countP_set_add (b := next) (p := (·.claims term false)) here
    have hgrows := advance.generation_le
    simp only
    -- a term that has just been numbered was in no hand, for its generation was not drawn
    rcases advance.claims term false (by simp) with hle | ⟨hnew, hdrawn, hle⟩
    · split at hterm <;> split <;> omega
    · rw [if_neg (by omega)] at hterm
      rw [if_pos (by omega)]
      omega
  | join idle =>
    simpa [Operation.claims_of_isIdle idle] using hterm
  | @turn i operation next here idle idle' =>
    have hcount := Tally.countP_set_add (b := next) (p := (·.claims term false)) here
    rw [Operation.claims_of_isIdle idle, Operation.claims_of_isIdle idle'] at hcount
    simp only
    omega
  | @bring i operation token here idle =>
    have hcount := Tally.countP_set_add (b := .publish ⟨token, shared.brought + 1⟩)
      (p := (·.claims term false)) here
    rw [Operation.claims_of_isIdle idle, Operation.claims_publish] at hcount
    simp only
    omega

theorem Numbered.shift (h : Shift shared shared') (hn : shared.Numbered) : shared'.Numbered := by
  cases h with
  | advance here advance =>
    rcases advance.terms with ⟨holding, -, hterms, hgeneration⟩ | ⟨hterms, hgeneration⟩
    · simp only [Numbered] at hn ⊢
      rw [hterms, hgeneration, List.map_append, hn, List.range'_concat]
      simp [Nat.add_comm]
    · simp only [Numbered] at hn ⊢
      rw [hterms, hgeneration, hn]
  | _ => exact hn

/-- No generation is taken back. -/
theorem Shift.generation_le (h : Shift shared shared') :
    shared.register.generation ≤ shared'.register.generation := by
  cases h with
  | advance here advance => exact advance.generation_le
  | _ => exact Nat.le_refl _

/-- Nothing opens a register again. -/
theorem Shift.closed (h : Shift shared shared') (hc : shared.register.closed = true) :
    shared'.register.closed = true := by
  cases h with
  | advance here advance => exact advance.closed hc
  | _ => exact hc

/-- A term that is about to be put into service was so before, or has just been numbered. -/
theorem Shift.put_mem (h : Shift shared shared') (hm : .put term ∈ shared'.operations) :
    .put term ∈ shared.operations ∨ shared.register.generation < term.generation := by
  cases h with
  | note notices => exact .inl hm
  | advance here advance =>
    rcases List.mem_or_eq_of_mem_set hm with hold | hnew
    · exact .inl hold
    · right
      have := (advance.numbered_of_put hnew.symm).1
      omega
  | join idle =>
    rcases List.mem_append.mp hm with hold | hnew
    · exact .inl hold
    · exact absurd (List.mem_singleton.mp hnew).symm (Operation.ne_put_of_isIdle idle term)
  | turn here idle idle' =>
    rcases List.mem_or_eq_of_mem_set hm with hold | hnew
    · exact .inl hold
    · exact absurd hnew.symm (Operation.ne_put_of_isIdle idle' term)
  | bring token here idle =>
    rcases List.mem_or_eq_of_mem_set hm with hold | hnew
    · exact .inl hold
    · simp at hnew

/-- A term that is served was served before, or was about to be. -/
theorem Shift.served_or_put (h : Shift shared shared')
    (hs : shared'.register.current = some term) :
    shared.register.current = some term ∨ .put term ∈ shared.operations := by
  cases h with
  | advance here advance =>
    rcases advance.served_or_put hs with hbefore | rfl
    · exact .inl hbefore
    · exact .inr (List.mem_of_getElem? here)
  | _ => exact .inl hs

/-- What is over stays over. -/
theorem Past.shift (h : Shift shared shared') (hp : shared.Past term) : shared'.Past term := by
  obtain ⟨hdrawn, hserved, hput⟩ := hp
  -- whatever brings it back would have had it in hand before, or would have drawn its generation
  refine ⟨Nat.le_trans hdrawn h.generation_le, fun hs => ?_, fun hm => ?_⟩
  · rcases h.served_or_put hs with hbefore | hbefore
    · exact hserved hbefore
    · exact hput hbefore
  · rcases h.put_mem hm with hbefore | hnew
    · exact hput hbefore
    · omega

/-- A term that is served stays in service, or is over. -/
theorem served_or_past (h : Shift shared shared') (hplaced : shared.Placed)
    (hs : shared.register.current = some term) :
    shared'.register.current = some term ∨ shared'.Past term := by
  by_cases hs' : shared'.register.current = some term
  · exact .inl hs'
  · right
    have hterm := hplaced term
    have hserves : shared.register.serves term = true := by simp [Register.serves, hs]
    rw [hserves, Bool.toNat_true] at hterm
    have hdrawn : term.generation ≤ shared.register.generation := by
      split at hterm
      · assumption
      · omega
    rw [if_pos hdrawn] at hterm
    refine ⟨Nat.le_trans hdrawn h.generation_le, hs', fun hm => ?_⟩
    rcases h.put_mem hm with hbefore | hnew
    · -- a term that is served is not about to be put into service as well
      have hpos : 0 < shared.operations.countP (·.claims term false) :=
        List.countP_pos_iff.mpr ⟨_, hbefore, by simp [Operation.claims]⟩
      omega
    · omega

theorem Sound.shift (h : Shift shared shared') (hs : shared.Sound) : shared'.Sound where
  balanced := hs.balanced.shift h
  tidied := hs.tidied.shift h
  placed := hs.placed.shift h

/-! ### Many shifts -/

/-- A shared register on which nobody has done anything yet. -/
theorem sound_of_idle {operations : List Operation}
    (idle : ∀ operation ∈ operations, operation.isIdle = true) :
    Sound { toLedger := {}, operations } where
  balanced delegate := by
    have hcarries : operations.countP (·.carries delegate) = 0 := by
      rw [List.countP_eq_zero]
      intro operation ho
      simp [Operation.carries_of_isIdle (idle operation ho)]
    have howes : operations.countP (·.owes delegate) = 0 := by
      rw [List.countP_eq_zero]
      intro operation ho
      simp [Operation.owes_of_isIdle (idle operation ho)]
    simp only [custody, hcarries, howes]
    rw [if_neg (by omega)]
    rfl
  tidied := by
    intro hc
    simp at hc
  placed term := by
    have hclaims : operations.countP (·.claims term false) = 0 := by
      rw [List.countP_eq_zero]
      intro operation ho
      simp [Operation.claims_of_isIdle (idle operation ho)]
    simp [Register.serves, hclaims]

theorem Sound.shifts (h : Shifts shared shared') (hs : shared.Sound) : shared'.Sound := by
  induction h with
  | refl => exact hs
  | tail _ shift ih => exact ih.shift shift

theorem Numbered.shifts (h : Shifts shared shared') (hn : shared.Numbered) : shared'.Numbered := by
  induction h with
  | refl => exact hn
  | tail _ shift ih => exact ih.shift shift

theorem Shifts.closed (h : Shifts shared shared') (hc : shared.register.closed = true) :
    shared'.register.closed = true := by
  induction h with
  | refl => exact hc
  | tail _ shift ih => exact shift.closed ih

theorem Past.shifts (h : Shifts shared shared') (hp : shared.Past term) : shared'.Past term := by
  induction h with
  | refl => exact hp
  | tail _ shift ih => exact ih.shift shift

/-- However much happens: a term that was served is still served, or is over. -/
theorem Shifts.served_or_past (h : Shifts shared shared') (hsound : shared.Sound)
    (hs : shared.register.current = some term) :
    shared'.register.current = some term ∨ shared'.Past term := by
  induction h with
  | refl => exact .inl hs
  | tail before shift ih =>
    -- once over, a term is out of reach of the last shift
    rcases ih with hserved | hpast
    · exact SharedRegister.served_or_past shift (hsound.shifts before).placed hserved
    · exact .inr (hpast.shift shift)

/-! ### When everyone is done -/

/-- Once everyone is done, a delegate is in service or released. -/
theorem Quiet.custody (h : shared.Quiet) (delegate : Nat) :
    shared.custody delegate =
      (shared.register.lends delegate).toNat + shared.released.count delegate := by
  have hcarries : shared.operations.countP (·.carries delegate) = 0 := by
    rw [List.countP_eq_zero]
    intro operation ho
    obtain ⟨outcome, rfl⟩ := h operation ho
    simp [Operation.carries]
  have howes : shared.operations.countP (·.owes delegate) = 0 := by
    rw [List.countP_eq_zero]
    intro operation ho
    obtain ⟨outcome, rfl⟩ := h operation ho
    simp [Operation.owes]
  rw [SharedRegister.custody, hcarries, howes]
  omega

/-- Once everyone is done, a closed register serves no term. -/
theorem Quiet.current_eq_none (h : shared.Quiet) (ht : shared.Tidied)
    (hc : shared.register.closed = true) : shared.register.current = none := by
  by_contra hs
  have hpos := ht hc (Option.isSome_iff_ne_none.mpr hs)
  obtain ⟨i, operation, hi, htidies⟩ := Tally.exists_getElem?_of_countP_pos hpos
  obtain ⟨outcome, rfl⟩ := h operation (List.mem_of_getElem? hi)
  simp [Operation.tidies] at htidies

/-- Once everyone is done, every delegate that was brought to a closed register was released
exactly once. -/
theorem Quiet.released (h : shared.Quiet) (hs : shared.Sound) (hc : shared.register.closed = true)
    (hle : 1 ≤ delegate) (hbrought : delegate ≤ shared.brought) :
    shared.released.count delegate = 1 := by
  have hd := hs.balanced delegate
  -- the delegate is in one place, and nobody has it, nor is anything in service
  rw [if_pos ⟨hle, hbrought⟩, h.custody, Register.lends, h.current_eq_none hs.tidied hc] at hd
  simpa using hd

end SharedRegister

end Tenure
