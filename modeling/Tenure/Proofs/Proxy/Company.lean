import Tenure.Proofs.Proxy.Phase
import Tenure.Proxy.Party

/-!
# A company of parties

All parties to a proxy, known by their phases, on the grounds that they share. The leadership of
a proxy is a single stake: somebody seeks it, or has a term to put into service, or a term is
served, or somebody has ended the term and has yet to start anew. While the proxy is open the
stake changes hands, and it is never doubled or dropped.

## Main definitions

* `Company`, `Company.Stride` — the parties on their grounds, and what can happen to them
* `Company.Orderly`, `Company.Halted`, `Company.Single`, `Notice.Smooth` — the laws
* `Company.Sound` — all of them

## Main results

* `Company.Stride.shared` — a company works on a shared register
* `Company.Sound.strides` — the laws are kept
-/

namespace Tenure

/-- That no notice speaks of a term that took the place of another one. -/
def Notice.Smooth (notices : List Notice) : Prop :=
  ∀ term generation, replaced term generation ∉ notices

/-- The parties to a proxy, known by their phases, on their grounds. -/
structure Company extends Grounds where
  phases : List Phase

namespace Company

/-- What can happen to a company. -/
inductive Stride : Company → Company → Prop
  | note {company : Company} (notices : List Notice) (smooth : Notice.Smooth notices) :
      Stride company { company with toGrounds := company.report notices }
  | call {company : Company} :
      Stride company { company with phases := company.phases ++ [.resting] }
  | close {company : Company} :
      Stride company { company with phases := company.phases ++ [.working .closing .shut] }
  | turn {company : Company} {i : Nat} {phase next : Phase}
      (here : company.phases[i]? = some phase)
      (turn : Phase.Turn company.register.closed company.stopped phase next) :
      Stride company { company with phases := company.phases.set i next }
  | advance {company : Company} {i : Nat} {kind : Operation.Kind} {operation next : Operation}
      {ledger : Ledger} (here : company.phases[i]? = some (.working kind operation))
      (advance : operation.Advance company.toLedger next ledger) :
      Stride company
        { company with
          toLedger := ledger
          phases := company.phases.set i (.working kind next) }
  /-- A delegate is built. -/
  | built {company : Company} {i : Nat} (token : Token)
      (here : company.phases[i]? = some .seeking) :
      Stride company
        { company with
          brought := company.brought + 1
          phases := company.phases.set i
            (.working .publication (.publish ⟨token, company.brought + 1⟩)) }
  /-- An acquisition goes on as a party of its own. -/
  | handedOver {company : Company} {i : Nat} (here : company.phases[i]? = some .seeking) :
      Stride company { company with phases := company.phases.set i .resting ++ [.seeking] }
  | stops {company : Company} {i : Nat} (here : company.phases[i]? = some .stopping) :
      Stride company { company with stopped := true, phases := company.phases.set i .stopped }

/-- Any number of strides, one after the other. -/
abbrev Strides : Company → Company → Prop := Relation.ReflTransGen Stride

variable {company company' : Company}

/-- The work of a company on its register. -/
def shared (company : Company) : SharedRegister where
  toLedger := company.toLedger
  operations := company.phases.map (·.operation)

/-- Only a closed register has its acquisition thread stopped, and every party is where it can
be. -/
def Orderly (company : Company) : Prop :=
  (company.stopped = true → company.register.closed = true) ∧
    ∀ phase ∈ company.phases, phase.Orderly company.register.closed

/-- A closing that is over has stopped the acquisition thread. -/
def Halted (company : Company) : Prop := .stopped ∈ company.phases → company.stopped = true

/-- How many have the stake, the register included. -/
def stakes (company : Company) : Nat :=
  company.register.current.isSome.toNat + company.phases.countP (·.stake)

/-- Nobody else has the stake, and while the register is open somebody has it. -/
def Single (company : Company) : Prop :=
  company.stakes ≤ 1 ∧ (company.register.closed = false → company.stakes = 1)

/-- The laws together. -/
structure Sound (company : Company) : Prop where
  shared : company.shared.Sound
  orderly : company.Orderly
  halted : company.Halted
  single : company.Single
  smooth : Notice.Smooth company.notices

theorem getElem?_shared {i : Nat} {phase : Phase} (h : company.phases[i]? = some phase) :
    company.shared.operations[i]? = some phase.operation := by
  simp [shared, h]

theorem Stride.shared (h : Stride company company') :
    SharedRegister.Shifts company.shared company'.shared := by
  cases h with
  | note notices smooth => exact .single (.note notices)
  | call =>
    have hjoin : SharedRegister.Shift company.shared
        { company.shared with
          operations := company.shared.operations ++ [.done (.ended false)] } := .join rfl
    exact .single (by simpa [Company.shared, Phase.operation] using hjoin)
  | close =>
    have hjoin : SharedRegister.Shift company.shared
        { company.shared with operations := company.shared.operations ++ [.shut] } := .join rfl
    exact .single (by simpa [Company.shared, Phase.operation] using hjoin)
  | @turn i phase next here turn =>
    have hturn : SharedRegister.Shift company.shared
        { company.shared with operations := company.shared.operations.set i next.operation } :=
      .turn (getElem?_shared here) turn.isIdle turn.isIdle_next
    exact .single (by simpa [Company.shared, List.map_set] using hturn)
  | @advance i kind operation next ledger here advance =>
    have hadvance : SharedRegister.Shift company.shared
        { toLedger := ledger, operations := company.shared.operations.set i next } :=
      .advance (getElem?_shared here) advance
    exact .single (by simpa [Company.shared, List.map_set, Phase.operation] using hadvance)
  | @built i token here =>
    have hbring : SharedRegister.Shift company.shared
        { company.shared with
          brought := company.brought + 1
          operations := company.shared.operations.set i
            (.publish ⟨token, company.brought + 1⟩) } :=
      .bring token (getElem?_shared here) rfl
    exact .single (by simpa [Company.shared, List.map_set, Phase.operation] using hbring)
  | @handedOver i here =>
    -- one party comes to rest and another one joins
    have hturn : SharedRegister.Shift company.shared
        { company.shared with
          operations := company.shared.operations.set i (.done (.ended false)) } :=
      .turn (getElem?_shared here) rfl rfl
    refine (Relation.ReflTransGen.single hturn).tail ?_
    have hjoin : SharedRegister.Shift
        { company.shared with
          operations := company.shared.operations.set i (.done (.ended false)) }
        { company.shared with
          operations := company.shared.operations.set i (.done (.ended false)) ++
            [.done (.ended false)] } := .join rfl
    simpa [Company.shared, List.map_set, Phase.operation] using hjoin
  | @stops i here =>
    have hturn : SharedRegister.Shift company.shared
        { company.shared with
          operations := company.shared.operations.set i (.done (.ended false)) } :=
      .turn (getElem?_shared here) rfl rfl
    exact .single (by simpa [Company.shared, List.map_set, Phase.operation] using hturn)

/-- A closed register stays closed. -/
theorem Stride.closed (h : Stride company company') (hc : company.register.closed = true) :
    company'.register.closed = true :=
  h.shared.closed hc

theorem Orderly.stride (h : Stride company company') (ho : company.Orderly) :
    company'.Orderly := by
  -- a closed register allows no less than an open one
  have hkept : ∀ phase ∈ company.phases, phase.Orderly company'.register.closed :=
    fun phase hp => (ho.2 phase hp).mono h.closed
  cases h with
  | note notices smooth => exact ho
  | call =>
    refine ⟨ho.1, fun phase hp => ?_⟩
    rcases List.mem_append.mp hp with hold | hnew
    · exact ho.2 phase hold
    · obtain rfl := List.mem_singleton.mp hnew
      trivial
  | close =>
    refine ⟨ho.1, fun phase hp => ?_⟩
    rcases List.mem_append.mp hp with hold | hnew
    · exact ho.2 phase hold
    · obtain rfl := List.mem_singleton.mp hnew
      exact ⟨rfl, by simp [Operation.attests]⟩
  | @turn i phase next here turn =>
    refine ⟨ho.1, fun other hp => ?_⟩
    rcases List.mem_or_eq_of_mem_set hp with hold | rfl
    · exact ho.2 other hold
    · exact turn.orderly ho.1 (ho.2 phase (List.mem_of_getElem? here))
  | @advance i kind operation next ledger here advance =>
    have hhere := ho.2 _ (List.mem_of_getElem? here)
    refine ⟨fun hs => advance.closed (ho.1 hs), fun other hp => ?_⟩
    rcases List.mem_or_eq_of_mem_set hp with hold | rfl
    · exact hkept other hold
    · exact ⟨advance.kind.trans hhere.1, advance.attests hhere.2⟩
  | @built i token here =>
    refine ⟨ho.1, fun other hp => ?_⟩
    rcases List.mem_or_eq_of_mem_set hp with hold | rfl
    · exact ho.2 other hold
    · exact ⟨rfl, by simp [Operation.attests]⟩
  | @handedOver i here =>
    refine ⟨ho.1, fun other hp => ?_⟩
    -- the party that rests is no longer what it was, and the one that joins seeks
    rcases List.mem_append.mp hp with hold | hnew
    · rcases List.mem_or_eq_of_mem_set hold with hold | rfl
      · exact ho.2 other hold
      · trivial
    · obtain rfl := List.mem_singleton.mp hnew
      trivial
  | @stops i here =>
    have hclosed : company.register.closed = true := ho.2 _ (List.mem_of_getElem? here)
    -- only a closing gets here, and it has closed the register before
    refine ⟨fun _ => hclosed, fun other hp => ?_⟩
    rcases List.mem_or_eq_of_mem_set hp with hold | rfl
    · exact ho.2 other hold
    · exact hclosed

theorem Halted.stride (h : Stride company company') (hh : company.Halted) : company'.Halted := by
  intro hm
  cases h with
  | note notices smooth => exact hh hm
  | call | close =>
    rcases List.mem_append.mp hm with hold | hnew
    · exact hh hold
    · simp at hnew
  | turn here turn =>
    rcases List.mem_or_eq_of_mem_set hm with hold | hnew
    · exact hh hold
    · exact absurd hnew.symm turn.ne_stopped
  | advance | built =>
    rcases List.mem_or_eq_of_mem_set hm with hold | hnew
    · exact hh hold
    · simp at hnew
  | handedOver here =>
    rcases List.mem_append.mp hm with hold | hnew
    · rcases List.mem_or_eq_of_mem_set hold with hold | hnew
      · exact hh hold
      · simp at hnew
    · simp at hnew
  | stops here => rfl

/-- What one party does with its stake and the register decides what becomes of the whole. -/
private theorem stakes_of_exchange {i : Nat} {phase next : Phase}
    (here : company.phases[i]? = some phase)
    (hphases : company'.phases.countP (·.stake) + phase.stake.toNat =
      company.phases.countP (·.stake) + next.stake.toNat)
    (hle : company'.register.current.isSome.toNat + next.stake.toNat ≤
      company.register.current.isSome.toNat + phase.stake.toNat)
    (heq : company.register.current.isSome.toNat + phase.stake.toNat ≤ 1 →
      company'.register.closed = false →
        company'.register.current.isSome.toNat + next.stake.toNat =
          company.register.current.isSome.toNat + phase.stake.toNat) :
    company'.stakes ≤ company.stakes ∧
      (company.stakes ≤ 1 → company'.register.closed = false →
        company'.stakes = company.stakes) := by
  have hmember := Tally.toNat_le_countP (p := (·.stake)) here
  unfold stakes
  refine ⟨by omega, fun hone isOpen => ?_⟩
  have := heq (by omega) isOpen
  omega

/-- A stake is never doubled, and while the register is open it is not dropped either. -/
theorem Stride.exchange (h : Stride company company') (ho : company.Orderly) :
    company'.stakes ≤ company.stakes ∧
      (company.stakes ≤ 1 → company'.register.closed = false →
        company'.stakes = company.stakes) := by
  cases h with
  | note notices smooth => exact ⟨Nat.le_refl _, fun _ _ => rfl⟩
  | call | close => simp [Company.stakes, Phase.stake]
  | @turn i phase next here turn =>
    have hle := turn.stake_le
    -- the register is not touched, so only the party's own stake can change
    refine stakes_of_exchange here (Tally.countP_set_add here) (by simpa using hle) ?_
    intro _ isOpen
    have := turn.stake ho.1 (ho.2 phase (List.mem_of_getElem? here)) isOpen
    simp only
    omega
  | @advance i kind operation next ledger here advance =>
    obtain ⟨hkind, hattests⟩ := ho.2 _ (List.mem_of_getElem? here)
    have hbefore := Phase.stake_working hkind
    have hafter := Phase.stake_working (advance.kind.trans hkind)
    -- an operation exchanges its stake with the register's
    refine stakes_of_exchange here (Tally.countP_set_add here) ?_ ?_
    · rw [hbefore, hafter]
      exact advance.stake_le
    · rw [hbefore, hafter]
      exact advance.stake hattests
  | @built i token here =>
    exact stakes_of_exchange here (Tally.countP_set_add here) (Nat.le_refl _) (fun _ _ => rfl)
  | @handedOver i here =>
    -- the stake goes from the party that rests to the one that joins
    refine stakes_of_exchange here ?_ (Nat.le_refl _) (fun _ _ => rfl)
    have hrests := Tally.countP_set_add (b := Phase.resting) (p := (·.stake)) here
    have hresting : Phase.resting.stake = false := rfl
    rw [hresting, Bool.toNat_false] at hrests
    rw [Tally.countP_concat]
    omega
  | @stops i here =>
    exact stakes_of_exchange here (Tally.countP_set_add here) (Nat.le_refl _) (fun _ _ => rfl)

theorem Single.stride (h : Stride company company') (ho : company.Orderly)
    (hs : company.Single) : company'.Single := by
  obtain ⟨hone, hsome⟩ := hs
  obtain ⟨hle, heq⟩ := h.exchange ho
  refine ⟨Nat.le_trans hle hone, fun isOpen => ?_⟩
  -- what is open now was open before
  have hbefore : company.register.closed = false := by
    by_contra hc
    rw [h.closed (by simpa using hc)] at isOpen
    simp at isOpen
  rw [heq hone isOpen]
  exact hsome hbefore

theorem Stride.smooth (h : Stride company company') (ho : company.Orderly) (hs : company.Single)
    (hsmooth : Notice.Smooth company.notices) : Notice.Smooth company'.notices := by
  intro term generation hm
  cases h with
  | note notices smooth =>
    rcases List.mem_append.mp hm with hold | hnew
    · exact hsmooth term generation hold
    · exact smooth term generation hnew
  | @advance i kind operation next ledger here advance =>
    rcases advance.replaced_of_notice hm with hold | ⟨hserved, hstake⟩
    · exact hsmooth term generation hold
    · -- the one who replaces a term has a stake besides the register
      have hkind := (ho.2 _ (List.mem_of_getElem? here)).1
      have hpos := Tally.countP_pos_of_getElem? (p := (·.stake)) here
        ((Phase.stake_working hkind).trans hstake)
      have hone := hs.1
      rw [stakes, hserved, Bool.toNat_true] at hone
      omega
  | _ => exact hsmooth term generation hm

theorem Sound.stride (h : Stride company company') (hs : company.Sound) : company'.Sound where
  shared := hs.shared.shifts h.shared
  orderly := hs.orderly.stride h
  halted := hs.halted.stride h
  single := hs.single.stride h hs.orderly
  smooth := h.smooth hs.orderly hs.single hs.smooth

theorem Sound.strides (h : Strides company company') (hs : company.Sound) : company'.Sound := by
  induction h with
  | refl => exact hs
  | tail _ stride ih => exact ih.stride stride

theorem Strides.stakes_le (h : Strides company company') (hs : company.Sound) :
    company'.stakes ≤ company.stakes := by
  induction h with
  | refl => exact Nat.le_refl _
  | tail before stride ih => exact Nat.le_trans (stride.exchange (hs.strides before).orderly).1 ih

theorem Strides.shared (h : Strides company company') :
    SharedRegister.Shifts company.shared company'.shared := by
  induction h with
  | refl => exact .refl
  | tail _ stride ih => exact ih.trans stride.shared

/-- A company that has only begun to seek leadership. -/
theorem sound_start : Sound { phases := [.seeking] } where
  shared := SharedRegister.sound_of_idle (by simp [Phase.operation, Operation.isIdle])
  orderly := ⟨by simp, by simp [Phase.Orderly]⟩
  halted := by simp [Halted]
  single := ⟨by decide, fun _ => by decide⟩
  smooth := by simp [Notice.Smooth]

end Company

end Tenure
