import Tenure.Proofs.Proxy.Projection

/-!
# One successor at a time

Nothing in the register keeps two publications from taking turns in it. That they never do is
the work of the parties: the one call that has ended a term starts the one next acquisition, and
nobody else starts any. Leadership has one seat, which is taken by the served term, by an
acquisition, or by a call that is about to start one.

## Main definitions

* `Acquisition.isOutstanding` — an acquisition that has not put its term into service
* `Call.isArming` — a call that has ended its term and not begun the next acquisition
* `Proxy.Seat`, `Proxy.Sits` — who has the leadership of a proxy, or is on the way to it

## Main results

* `Proxy.leadership_is_single` — while a proxy is open exactly one has the leadership, and at
  most one ever
-/

namespace Tenure

/-- Whether an acquisition goes on and has not put its term into service. -/
def Acquisition.isOutstanding : Acquisition → Bool
  | publishing operation => operation.isBid
  | finished => false
  | _ => true

/-- Whether a call has ended its term and not begun the next acquisition. -/
def Call.isArming {α : Type} : Call α → Bool
  | ending _ operation => decide (operation.settled = some (.ended true))
  | rearm _ => true
  | _ => false

/-- Whether a party carries on an acquisition that is outstanding. -/
def Party.isOutstanding {α : Type} (party : Party α) : Bool :=
  party.acquisition?.any Acquisition.isOutstanding

/-- Whether a party is a call that is about to start the next acquisition. -/
def Party.isArming {α : Type} : Party α → Bool
  | calling caller => caller.call.isArming
  | _ => false

theorem Acquisition.stake_phase (acquisition : Acquisition) :
    acquisition.phase.stake = acquisition.isOutstanding := by
  cases acquisition <;> rfl

/-- The stake of a party is that of its acquisition or of its ending, and never of both. -/
theorem Party.stake_phase {α : Type} (party : Party α) :
    party.phase.stake.toNat = party.isOutstanding.toNat + party.isArming.toNat := by
  cases party with
  | calling caller =>
    obtain ⟨style, call, term, work, validation, checks⟩ := caller
    cases call with
    | acquiring cause acquisition =>
      simp [phase, Call.phase, isOutstanding, acquisition?, Call.acquisition?, isArming,
        Call.isArming, acquisition.stake_phase]
    | ending cause operation =>
      simp [phase, Call.phase, Phase.stake, isOutstanding, acquisition?, Call.acquisition?,
        isArming, Call.isArming]
    | _ => rfl
  | acquiring acquisition =>
    simp [phase, isOutstanding, acquisition?, isArming, acquisition.stake_phase]
  | closing next => cases next <;> rfl

theorem Party.stake_iff {α : Type} (party : Party α) :
    party.phase.stake = true ↔ party.isOutstanding = true ∨ party.isArming = true := by
  have hstake := party.stake_phase
  revert hstake
  cases party.phase.stake <;> cases party.isOutstanding <;> cases party.isArming <;> simp

/-- No party has two stakes. -/
theorem Party.not_isOutstanding_of_isArming {α : Type} {party : Party α}
    (h : party.isArming = true) : party.isOutstanding = false := by
  have hstake := party.stake_phase
  have hle := Bool.toNat_le party.phase.stake
  cases ho : party.isOutstanding with
  | false => rfl
  | true =>
    rw [ho, h, Bool.toNat_true] at hstake
    omega

namespace Proxy

/-- Who can have the leadership of a proxy, or be on the way to it. -/
inductive Seat
  /-- The term that is served. -/
  | term
  /-- The acquisition that the party at a place carries on. -/
  | acquisition (i : Nat)
  /-- The call at a place, which has ended a term. -/
  | call (i : Nat)
  deriving DecidableEq, Repr

variable {α : Type}

/-- Whether a seat is taken. -/
def Sits (proxy : Proxy α) : Seat → Prop
  | .term => proxy.register.current.isSome = true
  | .acquisition i => ∃ party, proxy.parties[i]? = some party ∧ party.isOutstanding = true
  | .call i => ∃ party, proxy.parties[i]? = some party ∧ party.isArming = true

variable {proxy : Proxy α} {seat seat' : Seat}

/-- How many have the stake, told from the parties themselves. -/
theorem stakes_eq (proxy : Proxy α) :
    proxy.company.stakes = proxy.register.current.isSome.toNat +
      proxy.parties.countP (·.phase.stake) := by
  simp [Company.stakes, company, List.countP_map, Function.comp_def]

/-- A seat other than that of the served term is at the place of a party with a stake. -/
theorem Sits.place (h : proxy.Sits seat) (hne : seat ≠ .term) :
    ∃ i party, (seat = .acquisition i ∨ seat = .call i) ∧ proxy.parties[i]? = some party ∧
      party.phase.stake = true := by
  cases seat with
  | term => exact absurd rfl hne
  | acquisition i =>
    obtain ⟨party, here, ho⟩ := h
    exact ⟨i, party, .inl rfl, here, party.stake_iff.mpr (.inl ho)⟩
  | call i =>
    obtain ⟨party, here, ha⟩ := h
    exact ⟨i, party, .inr rfl, here, party.stake_iff.mpr (.inr ha)⟩

/-- Where no more than one has the stake, no two seats are taken. -/
theorem Sits.unique (hle : proxy.company.stakes ≤ 1) (h : proxy.Sits seat)
    (h' : proxy.Sits seat') : seat = seat' := by
  rw [stakes_eq] at hle
  by_cases hterm : seat = .term
  · subst hterm
    by_contra hne
    obtain ⟨i, party, -, here, hstake⟩ := h'.place (Ne.symm hne)
    have hserved : proxy.register.current.isSome = true := h
    -- a served term and a party with a stake would be two
    have hpos := Tally.countP_pos_of_getElem? (p := (·.phase.stake)) here hstake
    rw [hserved, Bool.toNat_true] at hle
    omega
  · obtain ⟨i, party, hseat, here, hstake⟩ := h.place hterm
    have hpos := Tally.countP_pos_of_getElem? (p := (·.phase.stake)) here hstake
    by_cases hterm' : seat' = .term
    · subst hterm'
      have hserved : proxy.register.current.isSome = true := h'
      rw [hserved, Bool.toNat_true] at hle
      omega
    · obtain ⟨j, other, hseat', there, hstake'⟩ := h'.place hterm'
      have hcount : proxy.parties.countP (·.phase.stake) ≤ 1 := by omega
      obtain rfl := Tally.eq_of_countP_le_one hcount here hstake there hstake'
      -- one place, so the seats can only differ in what its party is there for
      rcases hseat with rfl | rfl <;> rcases hseat' with rfl | rfl
      · rfl
      · obtain ⟨one, hone, ho⟩ := h
        obtain ⟨two, htwo, ha⟩ := h'
        obtain rfl : one = two := Option.some.inj (hone.symm.trans htwo)
        rw [Party.not_isOutstanding_of_isArming ha] at ho
        simp at ho
      · obtain ⟨one, hone, ha⟩ := h
        obtain ⟨two, htwo, ho⟩ := h'
        obtain rfl : one = two := Option.some.inj (hone.symm.trans htwo)
        rw [Party.not_isOutstanding_of_isArming ha] at ho
        simp at ho
      · rfl

/-- After every schedule: while the proxy is open exactly one seat is taken, by the served term,
by an acquisition that is outstanding, or by a call that has ended a term and not begun the next
acquisition; and once it is closed, at most one is. So no term ever takes the place of another
one, and whoever is about to put a term into service finds none served. -/
theorem leadership_is_single (profile : Profile) (schedule : Nat → Move α) (n : Nat) :
    let proxy := after profile schedule n
    (proxy.register.closed = false → ∃! seat, proxy.Sits seat) ∧
    (∀ seat seat', proxy.Sits seat → proxy.Sits seat' → seat = seat') ∧
    (∀ (i : Nat) (party : Party α), proxy.parties[i]? = some party → party.isOutstanding = true →
      proxy.register.current = none) ∧
    ∀ term generation, Notice.replaced term generation ∉ proxy.notices := by
  intro proxy
  have hsound : proxy.company.Sound := sound_after profile schedule n
  obtain ⟨hle, hopen⟩ := hsound.single
  have hunique : ∀ seat seat', proxy.Sits seat → proxy.Sits seat' → seat = seat' :=
    fun _ _ h h' => h.unique hle h'
  -- who has the one stake is found out from the parties, for the laws speak of their phases
  refine ⟨fun isOpen => ?_, hunique, fun i party here ho => ?_, hsound.smooth⟩
  · have hone : proxy.company.stakes = 1 := hopen isOpen
    rw [stakes_eq] at hone
    have hexists : ∃ seat, proxy.Sits seat := by
      cases hserved : proxy.register.current.isSome with
      | true => exact ⟨.term, hserved⟩
      | false =>
        rw [hserved, Bool.toNat_false, Nat.zero_add] at hone
        have hpos : 0 < proxy.parties.countP (·.phase.stake) := by omega
        obtain ⟨i, party, here, hstake⟩ := Tally.exists_getElem?_of_countP_pos hpos
        rcases party.stake_iff.mp hstake with ho | ha
        · exact ⟨.acquisition i, party, here, ho⟩
        · exact ⟨.call i, party, here, ha⟩
    obtain ⟨seat, hsits⟩ := hexists
    exact ⟨seat, hsits, fun other hother => hunique other seat hother hsits⟩
  · by_contra hserved
    have hterm : proxy.Sits .term := Option.isSome_iff_ne_none.mpr hserved
    have := hunique .term (.acquisition i) hterm ⟨party, here, ho⟩
    simp at this

end Proxy

end Tenure
