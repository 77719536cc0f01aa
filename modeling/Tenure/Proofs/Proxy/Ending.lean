import Tenure.Proofs.Proxy.StepEffect

/-!
# Who may end a term

Only by ending its term does a call come to do anything to the proxy: it takes the term out of
service, releases its delegate and starts the next acquisition, each of them once. Every other
call, however it ends, leaves the proxy as it has found it, so that a newer term survives a call
that still goes on with an older one.

## Main definitions

* `Proxy.Spares` — nothing was done to the proxy by a party
* `Proxy.LosesAt`, `Proxy.SwapsAt`, `Proxy.EndsAt`, `Proxy.ReleasesAt`, `Proxy.RearmsAt`,
  `Proxy.StartsAt` — the moments of a call that ends its term
* `Proxy.TouchesAt` — a call does something to the proxy

## Main results

* `Proxy.spares_or_moment` — at every other moment a call spares the proxy
* `Proxy.past_of_hasLost` — the term of a call that has lost it is over for good
* `Proxy.only_the_loser_ends_its_term` — which calls do something to the proxy, and what
-/

namespace Tenure

variable {α : Type}

namespace Proxy

variable {profile : Profile} {schedule : Nat → Move α} {i m n : Nat} {term term' : Term}
  {caller later : Caller α}

/-! ### Moments -/

/-- The party at a place does nothing to the proxy, and starts no acquisition. -/
structure Spares (i : Nat) (proxy proxy' : Proxy α) : Prop where
  grounds : proxy.toGrounds.Spares proxy'.toGrounds
  length : proxy'.parties.length = proxy.parties.length
  others : ∀ j, j ≠ i → proxy'.parties[j]? = proxy.parties[j]?
  startsNone : ∀ caller, proxy'.parties[i]? = some (.calling caller) →
    caller.call.acquisition? = none

/-- The call at a place takes its next step. -/
def StepsAt (profile : Profile) (schedule : Nat → Move α) (i : Nat) (caller : Caller α) (n : Nat) :
    Prop :=
  (after profile schedule n).parties[i]? = some (.calling caller) ∧
    ∃ answers, schedule n = .proceed i answers

/-- The call at a place is told that its term is over. -/
def LosesAt (profile : Profile) (schedule : Nat → Move α) (i : Nat) (term : Term) (n : Nat) :
    Prop :=
  ∃ caller event, (after profile schedule n).parties[i]? = some (.calling caller) ∧
    schedule n = .undergo i event ∧ caller.term = some term ∧ caller.Loses profile term event

/-- The call at a place takes its term out of service, if it is served. -/
def SwapsAt (profile : Profile) (schedule : Nat → Move α) (i : Nat) (term : Term) (n : Nat) :
    Prop :=
  ∃ caller cause, StepsAt profile schedule i caller n ∧ caller.term = some term ∧
    caller.call = .ending cause (.invalidate term)

/-- It is served. -/
def EndsAt (profile : Profile) (schedule : Nat → Move α) (i : Nat) (term : Term) (n : Nat) : Prop :=
  SwapsAt profile schedule i term n ∧ (after profile schedule n).register.current = some term

/-- The call at a place begins the release of the delegate of its term. -/
def ReleasesAt (profile : Profile) (schedule : Nat → Move α) (i : Nat) (term : Term) (n : Nat) :
    Prop :=
  ∃ caller cause, StepsAt profile schedule i caller n ∧ caller.term = some term ∧
    caller.call = .ending cause (.release term.toHolding (.finish (.ended true)))

/-- The call at a place, which has ended its term, looks whether the proxy is open. -/
def RearmsAt (profile : Profile) (schedule : Nat → Move α) (i n : Nat) : Prop :=
  ∃ caller cause, StepsAt profile schedule i caller n ∧ caller.call = .rearm cause

/-- It is open, and the call starts the next acquisition. -/
def StartsAt (profile : Profile) (schedule : Nat → Move α) (i n : Nat) : Prop :=
  RearmsAt profile schedule i n ∧ (after profile schedule n).register.closed = false

/-- The call at a place, which carries on no acquisition, does something to the proxy or starts an
acquisition. -/
def TouchesAt (profile : Profile) (schedule : Nat → Move α) (i n : Nat) : Prop :=
  ∃ caller, (after profile schedule n).parties[i]? = some (.calling caller) ∧
    (schedule n).mover = some i ∧ caller.call.acquisition? = none ∧
    ¬ Spares i (after profile schedule n) (after profile schedule (n + 1))

/-! ### From moment to moment -/

theorem devoted_after (here : (after profile schedule n).parties[i]? = some (.calling caller)) :
    caller.Devoted :=
  (calling_induction
    (P := fun caller => caller.Devoted ∧ caller.Coherent (Validation.most profile.budget))
    (fun style mayWait => ⟨Caller.devoted_make style mayWait, Caller.coherent_make style mayWait⟩)
    (fun _ _ _ h hfate => ⟨h.1.fate h.2 hfate, h.2.fate hfate⟩) n caller here).1

/-- No move takes a call back. -/
theorem stage_mono (here : (after profile schedule m).parties[i]? = some (.calling caller))
    (there : (after profile schedule n).parties[i]? = some (.calling later)) (h : m ≤ n) :
    caller.call.stage ≤ later.call.stage := by
  obtain ⟨same, hsame, hle⟩ := calling_stays
    (P := fun other => caller.call.stage ≤ other.call.stage) here (Nat.le_refl _) h
    fun _ _ _ _ _ hbefore _ hfate hle =>
      Nat.le_trans hle (hfate.stage_le (devoted_after hbefore))
  obtain rfl : same = later := Party.calling.inj (Option.some.inj (hsame.symm.trans there))
  exact hle

/-- A call that is at ending its term keeps it. -/
theorem term_stays (here : (after profile schedule m).parties[i]? = some (.calling caller))
    (hpos : 0 < caller.call.stage)
    (there : (after profile schedule n).parties[i]? = some (.calling later)) (h : m ≤ n) :
    later.term = caller.term := by
  obtain ⟨same, hsame, hterm, -⟩ := calling_stays
    (P := fun other => other.term = caller.term ∧ 0 < other.call.stage) here ⟨rfl, hpos⟩ h
    fun _ _ _ _ _ hbefore _ hfate ⟨hterm, hpos⟩ =>
      ⟨(hfate.of_stage hpos).1.trans hterm,
        Nat.lt_of_lt_of_le hpos (hfate.stage_le (devoted_after hbefore))⟩
  obtain rfl : same = later := Party.calling.inj (Option.some.inj (hsame.symm.trans there))
  exact hterm

/-- What a step of a call does to the proxy that carries on no acquisition. -/
theorem StepsAt.stepEffect (h : StepsAt profile schedule i caller n)
    (hnone : caller.call.acquisition? = none) :
    ∃ next left,
      after profile schedule (n + 1) =
        (after profile schedule n).settle i (.calling next, left, none) ∧
      (after profile schedule (n + 1)).parties[i]? = some (.calling next) ∧
      Call.StepEffect caller.term (after profile schedule n).toGrounds caller.call next.call
        left := by
  obtain ⟨here, answers, hmove⟩ := h
  obtain ⟨heffect, htask⟩ := (devoted_after here).proceed_stepEffect hnone profile
    (after profile schedule n).toGrounds answers
  have hafter : after profile schedule (n + 1) =
      (after profile schedule n).settle i
        (.calling (caller.proceed profile (after profile schedule n).toGrounds answers).1,
          (caller.proceed profile (after profile schedule n).toGrounds answers).2.1, none) := by
    rw [after, hmove, step_proceed here, ← htask]
    rfl
  exact ⟨_, _, hafter, by rw [hafter, getElem?_settle_self here], heffect⟩

/-- A step of a call that is at ending its term, and has not started an acquisition, is not taken
again. -/
theorem StepsAt.stage_lt (h : StepsAt profile schedule i caller m) (hpos : 0 < caller.call.stage)
    (hlt : caller.call.stage < 6)
    (there : (after profile schedule n).parties[i]? = some (.calling later)) (hmn : m < n) :
    caller.call.stage < later.call.stage := by
  obtain ⟨next, left, -, hnext, heffect⟩ := h.stepEffect (Call.acquisition?_of_stage (by omega))
  exact Nat.lt_of_lt_of_le (heffect.stage_lt hpos (by omega)) (stage_mono hnext there hmn)

theorem StepsAt.unique (h : StepsAt profile schedule i caller m)
    (h' : StepsAt profile schedule i later n) (hstage : later.call.stage = caller.call.stage)
    (hpos : 0 < caller.call.stage) (hlt : caller.call.stage < 6) : m = n := by
  rcases Nat.lt_trichotomy m n with hmn | hmn | hmn
  · have := h.stage_lt hpos hlt h'.1 hmn
    omega
  · exact hmn
  · have := h'.stage_lt (by omega) (by omega) h.1 hmn
    omega

/-! ### What is done at each moment -/

/-- Whoever settles leaves only what they leave. -/
theorem onlyAt_settle_left (proxy : Proxy α) (i : Nat) (party : Party α) (left : Grounds) :
    OnlyAt i { proxy with toGrounds := left } (proxy.settle i (party, left, none)) :=
  onlyAt_settle { proxy with toGrounds := left } i party

/-- A call that ends its term takes it out of service and does nothing else, and goes on to release
its delegate. -/
theorem EndsAt.left (h : EndsAt profile schedule i term n) :
    OnlyAt i
        { after profile schedule n with
          register := { (after profile schedule n).register with current := none } }
        (after profile schedule (n + 1)) ∧
      ∃ next cause, (after profile schedule (n + 1)).parties[i]? = some (.calling next) ∧
        next.term = some term ∧
        next.call = .ending cause (.release term.toHolding (.finish (.ended true))) := by
  obtain ⟨⟨caller, cause, hsteps, hterm, hcall⟩, hserved⟩ := h
  obtain ⟨next, left, hafter, hnext, heffect⟩ := hsteps.stepEffect (by rw [hcall]; rfl)
  have hkeeps : next.term = some term :=
    (term_stays hsteps.1 (by simp [hcall, Call.stage]) hnext (Nat.le_succ n)).trans hterm
  rw [hcall] at heffect
  rw [hafter]
  generalize hcalled : next.call = called at heffect
  cases heffect with
  | aside before after => simp [Call.stage] at before
  | misses hasTerm notServed => exact absurd hserved notServed
  | ends hasTerm isServed =>
    exact ⟨onlyAt_settle_left _ i _ _, next, cause, hafter ▸ hnext, hkeeps, hcalled⟩

/-- A call that releases the delegate of its term does nothing else. -/
theorem ReleasesAt.left (h : ReleasesAt profile schedule i term n) :
    OnlyAt i
        { after profile schedule n with
          released := (after profile schedule n).released ++ [term.delegate] }
        (after profile schedule (n + 1)) ∧
      ∃ next, (after profile schedule (n + 1)).parties[i]? = some (.calling next) ∧
        next.call.isArming = true := by
  obtain ⟨caller, cause, hsteps, hterm, hcall⟩ := h
  obtain ⟨next, left, hafter, hnext, heffect⟩ := hsteps.stepEffect (by rw [hcall]; rfl)
  rw [hcall] at heffect
  rw [hafter]
  generalize hcalled : next.call = called at heffect
  generalize hholding : term.toHolding = holding at heffect
  cases heffect with
  | aside before after => simp [Call.stage] at before
  | @releases _ other hasTerm =>
    obtain rfl : term = other := Option.some.inj (hterm.symm.trans hasTerm)
    exact ⟨onlyAt_settle_left _ i _ _, next, hafter ▸ hnext, by rw [hcalled]; rfl⟩

/-- A call that starts the next acquisition does nothing else. -/
theorem StartsAt.left (h : StartsAt profile schedule i n) :
    OnlyAt i (after profile schedule n) (after profile schedule (n + 1)) ∧
      ∃ next cause, (after profile schedule (n + 1)).parties[i]? = some (.calling next) ∧
        next.call = .acquiring cause .enter := by
  obtain ⟨⟨caller, cause, hsteps, hcall⟩, hopen⟩ := h
  obtain ⟨next, left, hafter, hnext, heffect⟩ := hsteps.stepEffect (by rw [hcall]; rfl)
  rw [hcall] at heffect
  rw [hafter]
  generalize hcalled : next.call = called at heffect
  cases heffect with
  | aside before after => simp [Call.stage] at before
  | starts isOpen =>
    exact ⟨onlyAt_settle _ i _, next, cause, hafter ▸ hnext, hcalled⟩
  | desists closed =>
    rw [hopen] at closed
    simp at closed

/-- At every other moment a call that carries on no acquisition spares the proxy. -/
theorem spares_or_moment (here : (after profile schedule n).parties[i]? = some (.calling caller))
    (hmover : (schedule n).mover = some i) (hnone : caller.call.acquisition? = none) :
    Spares i (after profile schedule n) (after profile schedule (n + 1)) ∨
      (∃ term, EndsAt profile schedule i term n) ∨
      (∃ term, ReleasesAt profile schedule i term n) ∨ StartsAt profile schedule i n := by
  have hspares {next : Caller α} {left : Grounds}
      (hafter : after profile schedule (n + 1) =
        (after profile schedule n).settle i (.calling next, left, none))
      (spared : (after profile schedule n).toGrounds.Spares left)
      (startsNone : next.call.acquisition? = none) :
      Spares i (after profile schedule n) (after profile schedule (n + 1)) := by
    rw [hafter]
    obtain ⟨-, hlength, hothers⟩ := onlyAt_settle_left (after profile schedule n) i
      (.calling next) left
    refine ⟨spared, hlength, hothers, fun same hsame => ?_⟩
    rw [getElem?_settle_self here] at hsame
    obtain rfl := Party.calling.inj (Option.some.inj hsame)
    exact startsNone
  generalize hmove : schedule n = move at hmover
  cases move with
  | call style mayWait | close => simp [Move.mover] at hmover
  | drop j =>
    obtain rfl : j = i := by simpa [Move.mover] using hmover
    left
    have hsame : after profile schedule (n + 1) = after profile schedule n := by
      rw [after, hmove]
      simp only [step, here]
    rw [hsame]
    refine ⟨Grounds.spares_self _, rfl, fun _ _ => rfl, fun same hsame => ?_⟩
    obtain rfl := Party.calling.inj (Option.some.inj (here.symm.trans hsame))
    exact hnone
  | undergo j event =>
    obtain rfl : j = i := by simpa [Move.mover] using hmover
    refine .inl (hspares (by rw [after, hmove, step_undergo here]) (Grounds.spares_report _ _) ?_)
    exact (caller.undergo_hears profile event).acquisition?.trans hnone
  | proceed j answers =>
    obtain rfl : j = i := by simpa [Move.mover] using hmover
    have hsteps : StepsAt profile schedule j caller n := ⟨here, answers, hmove⟩
    obtain ⟨next, left, hafter, -, heffect⟩ := hsteps.stepEffect hnone
    generalize hcall : caller.call = call at heffect
    generalize hcalled : next.call = called at heffect
    cases heffect with
    | aside before after =>
      refine .inl (hspares hafter (Grounds.spares_self _) (Call.acquisition?_of_stage ?_))
      rw [hcalled]
      omega
    | misses | rearms | yields | desists =>
      exact .inl (hspares hafter (Grounds.spares_self _) (by rw [hcalled]; rfl))
    | returns spared => exact .inl (hspares hafter spared (by rw [hcalled]; rfl))
    | ends hasTerm isServed =>
      exact .inr (.inl ⟨_, ⟨caller, _, hsteps, hasTerm, hcall⟩, isServed⟩)
    | releases hasTerm => exact .inr (.inr (.inl ⟨_, caller, _, hsteps, hasTerm, hcall⟩))
    | starts isOpen => exact .inr (.inr (.inr ⟨⟨caller, _, hsteps, hcall⟩, isOpen⟩))

/-! ### What comes before a moment -/

/-- A call that has ended its term did so at some moment. -/
theorem exists_endsAt (here : (after profile schedule n).parties[i]? = some (.calling caller))
    (harming : caller.call.isArming = true) :
    ∃ m, m < n ∧ ∃ term, EndsAt profile schedule i term m ∧ caller.term = some term := by
  obtain ⟨m, hmn, before, next, hbefore, hnext, hfate, hne, harmed⟩ := exists_change_at
    (P := fun other => other.call.isArming = true)
    (fun style mayWait h => by
      cases style <;> cases mayWait <;> simp [Caller.make, Call.isArming] at h)
    n caller here harming
  obtain ⟨answers, cause, term, hmove, hterm, hcall, hserved⟩ :=
    hfate.armed (devoted_after hbefore) harmed (by simpa using hne)
  refine ⟨m, hmn, term, ⟨⟨before, cause, ⟨hbefore, answers, hmove⟩, hterm, hcall⟩, hserved⟩, ?_⟩
  exact (term_stays hbefore (by simp [hcall, Call.stage]) here (Nat.le_of_lt hmn)).trans hterm

/-- A call that tries to end its term was told that the term is over. -/
theorem exists_losesAt (h : SwapsAt profile schedule i term n) :
    ∃ m, m < n ∧ LosesAt profile schedule i term m := by
  obtain ⟨caller, cause, ⟨here, -⟩, -, hcall⟩ := h
  obtain ⟨m, hmn, before, next, hbefore, -, hfate, hne, hnext⟩ := exists_change_at
    (P := fun other => other.call = .ending cause (.invalidate term))
    (fun style mayWait h => by cases style <;> cases mayWait <;> simp [Caller.make] at h)
    n caller here hcall
  obtain ⟨event, hmove, hloses⟩ := hfate.loses (devoted_after hbefore) hnext hne
  exact ⟨m, hmn, before, event, hbefore, hmove,
    hloses.term_eq (coherent_after profile schedule hbefore).stage, hloses⟩

/-! ### What comes after a moment -/

/-- A call that is told that its term is over tries to end it before it returns. -/
theorem LosesAt.exists_swapsAt (h : LosesAt profile schedule i term m)
    (there : (after profile schedule n).parties[i]? = some (.calling later))
    (hover : later.call.stage = 7) : ∃ k, m < k ∧ k < n ∧ SwapsAt profile schedule i term k := by
  obtain ⟨caller, event, here, hmove, hterm, hloses⟩ := h
  have hwaits : caller.call.stage = 0 := Caller.stage_of_isWaiting hloses.isWaiting
  have hmn : m < n := by
    apply Nat.lt_of_not_le
    intro hnm
    have := stage_mono there here hnm
    omega
  obtain ⟨cause, hcall⟩ := hloses.call
  have hnext : (after profile schedule (m + 1)).parties[i]? =
      some (.calling (caller.undergo profile event).1) := by
    rw [after, hmove, step_undergo here, getElem?_settle_self here]
  obtain ⟨k, hmk, hkn, before, other, hbefore, -, hfate, hswaps, hne⟩ := exists_departure
    (P := fun other => other.call = .ending cause (.invalidate term)) hnext hcall there
    (fun hcall => by simp [hcall, Call.stage] at hover) hmn
  obtain ⟨-, hsame | ⟨answers, hmove, -⟩⟩ := hfate.of_stage (by simp [hswaps, Call.stage])
  · exact absurd (hsame.trans hswaps) hne
  · refine ⟨k, hmk, hkn, before, cause, ⟨hbefore, answers, hmove⟩, ?_, hswaps⟩
    have hkeeps := term_stays hnext (by simp [hcall, Call.stage]) hbefore hmk
    exact hkeeps.trans ((caller.term_undergo profile event).trans hterm)

/-- A call that ends its term releases its delegate, and after that looks whether the proxy is
open, before it returns. -/
theorem EndsAt.exists_rearmsAt (h : EndsAt profile schedule i term m)
    (there : (after profile schedule n).parties[i]? = some (.calling later))
    (hover : later.call.stage = 7) :
    ∃ k l, m < k ∧ k < l ∧ l < n ∧ ReleasesAt profile schedule i term k ∧
      RearmsAt profile schedule i l := by
  obtain ⟨-, next, cause, hnext, hterm, hcall⟩ := h.left
  obtain ⟨⟨caller, _, hsteps, -, hends⟩, -⟩ := h
  have hone : caller.call.stage = 1 := by rw [hends]; rfl
  have hmn : m < n := by
    apply Nat.lt_of_not_le
    intro hnm
    have := stage_mono there hsteps.1 hnm
    omega
  -- the release
  obtain ⟨k, hmk, hkn, before, other, hbefore, -, hfate, howes, hne⟩ := exists_departure
    (P := fun other => other.call =
      .ending cause (.release term.toHolding (.finish (.ended true)))) hnext hcall there
    (fun hcall => by simp [hcall, Call.stage] at hover) hmn
  obtain ⟨-, hsame | ⟨answers, hmove, -⟩⟩ := hfate.of_stage (by simp [howes, Call.stage])
  · exact absurd (hsame.trans howes) hne
  have hkeeps : before.term = some term :=
    (term_stays hnext (by simp [hcall, Call.stage]) hbefore hmk).trans hterm
  have hreleases : ReleasesAt profile schedule i term k :=
    ⟨before, cause, ⟨hbefore, answers, hmove⟩, hkeeps, howes⟩
  -- the look whether the proxy is open
  obtain ⟨-, armed, harmed, harming⟩ := hreleases.left
  obtain ⟨l, hkl, hln, rearmer, after, hrearmer, -, hfate, hrearming, hdone⟩ := exists_departure
    (P := fun other => other.call.isArming = true) harmed harming there
    (fun harming => by have := Call.stage_of_isArming harming; omega) hkn
  have hstage := Call.stage_of_isArming hrearming
  obtain ⟨-, hsame | ⟨answers, hmove, rfl⟩⟩ := hfate.of_stage (by omega)
  · rw [← hsame] at hrearming
    exact absurd hrearming hdone
  have hnone : rearmer.call.acquisition? = none := Call.acquisition?_of_stage (by omega)
  obtain ⟨heffect, -⟩ := (devoted_after hrearmer).proceed_stepEffect hnone profile _ answers
  rcases heffect.isArming hrearming with hstill | ⟨cause, hrearm⟩
  · exact absurd hstill hdone
  · exact ⟨k, l, hmk, hkl, hln, hreleases, rearmer, cause, ⟨hrearmer, answers, hmove⟩, hrearm⟩

/-- The term of a call that has lost it is over for good. -/
theorem past_of_hasLost (here : (after profile schedule n).parties[i]? = some (.calling caller))
    (hlost : caller.call.hasLost = true) (hterm : caller.term = some term) (h : n ≤ m) :
    (after profile schedule m).register.current ≠ some term := by
  obtain ⟨k, hkn, before, next, hbefore, hnext, hfate, hne, hnextLost, hnextTerm⟩ :=
    exists_change_at (P := fun other => other.call.hasLost = true ∧ other.term = some term)
    (fun style mayWait h => by
      cases style <;> cases mayWait <;> simp [Caller.make] at h)
    n caller here ⟨hlost, hterm⟩
  have hbeforeLost : before.call.hasLost = false := by
    rw [Bool.eq_false_iff]
    intro hlost
    exact hne ⟨hlost, (hfate.of_stage (Call.stage_of_hasLost hlost)).1.symm.trans hnextTerm⟩
  obtain ⟨answers, hmove, hover⟩ := hfate.lost (devoted_after hbefore)
    (coherent_after profile schedule hbefore).stage hnextLost hbeforeLost hnextTerm
  have hgone : (after profile schedule (k + 1)).register.current ≠ some term := by
    rw [after, hmove, step_proceed hbefore]
    exact hover
  -- what was served before and after would have been served then
  obtain ⟨l, hlk, htakes⟩ := exists_takesAt hnext hnextTerm
  obtain ⟨_, _, -, -, -, -, hserved⟩ := htakes
  intro hback
  exact hgone (served_between profile schedule hserved hback (Nat.le_of_lt hlk) (by omega))

/-! ### The law -/

theorem SwapsAt.unique (h : SwapsAt profile schedule i term m)
    (h' : SwapsAt profile schedule i term' n) : m = n ∧ term = term' := by
  obtain ⟨caller, cause, hsteps, hterm, hcall⟩ := h
  obtain ⟨later, cause', hsteps', hterm', hcall'⟩ := h'
  have hstage : caller.call.stage = 1 := by rw [hcall]; rfl
  have hstage' : later.call.stage = 1 := by rw [hcall']; rfl
  obtain rfl := hsteps.unique hsteps' (by omega) (by omega) (by omega)
  obtain rfl := Party.calling.inj (Option.some.inj (hsteps.1.symm.trans hsteps'.1))
  exact ⟨rfl, Option.some.inj (hterm.symm.trans hterm')⟩

theorem ReleasesAt.unique (h : ReleasesAt profile schedule i term m)
    (h' : ReleasesAt profile schedule i term' n) : m = n := by
  obtain ⟨caller, cause, hsteps, -, hcall⟩ := h
  obtain ⟨later, cause', hsteps', -, hcall'⟩ := h'
  have hstage : caller.call.stage = 2 := by rw [hcall]; rfl
  have hstage' : later.call.stage = 2 := by rw [hcall']; rfl
  exact hsteps.unique hsteps' (by omega) (by omega) (by omega)

theorem RearmsAt.unique (h : RearmsAt profile schedule i m) (h' : RearmsAt profile schedule i n) :
    m = n := by
  obtain ⟨caller, cause, hsteps, hcall⟩ := h
  obtain ⟨later, cause', hsteps', hcall'⟩ := h'
  have hstage : caller.call.stage = 5 := by rw [hcall]; rfl
  have hstage' : later.call.stage = 5 := by rw [hcall']; rfl
  exact hsteps.unique hsteps' (by omega) (by omega) (by omega)

/-- A call does something to the proxy only if it has ended its term. -/
theorem TouchesAt.exists_endsAt (h : TouchesAt profile schedule i n) :
    ∃ term m, m ≤ n ∧ EndsAt profile schedule i term m ∧
      (n = m ∨ ReleasesAt profile schedule i term n ∨ StartsAt profile schedule i n) := by
  obtain ⟨caller, here, hmover, hnone, htouches⟩ := h
  rcases spares_or_moment here hmover hnone with
    hspares | ⟨term, hends⟩ | ⟨term, hreleases⟩ | hstarts
  · exact absurd hspares htouches
  · exact ⟨term, n, Nat.le_refl n, hends, .inl rfl⟩
  · have hreleasing := hreleases
    obtain ⟨same, cause, hsteps, hterm, hcall⟩ := hreleasing
    obtain ⟨m, hmn, ended, hends, hended⟩ :=
      Proxy.exists_endsAt hsteps.1 (by rw [hcall]; rfl)
    obtain rfl : ended = term := Option.some.inj (hended.symm.trans hterm)
    exact ⟨ended, m, Nat.le_of_lt hmn, hends, .inr (.inl hreleases)⟩
  · have hrearms := hstarts.1
    obtain ⟨same, cause, hsteps, hcall⟩ := hrearms
    obtain ⟨m, hmn, term, hends, -⟩ := Proxy.exists_endsAt hsteps.1 (by rw [hcall]; rfl)
    exact ⟨term, m, Nat.le_of_lt hmn, hends, .inr (.inr hstarts)⟩

/-- To end a term is to do something to the proxy. -/
theorem EndsAt.touchesAt (h : EndsAt profile schedule i term n) :
    TouchesAt profile schedule i n := by
  obtain ⟨⟨hgrounds, -, -⟩, -⟩ := h.left
  obtain ⟨⟨caller, cause, ⟨here, answers, hmove⟩, hterm, hcall⟩, hserved⟩ := h
  refine ⟨caller, here, by rw [hmove]; rfl, by rw [hcall]; rfl, fun hspares => ?_⟩
  have hsame := hspares.grounds.register
  rw [hgrounds] at hsame
  have hnone := congrArg Register.current hsame
  rw [hserved] at hnone
  simp at hnone

/-- A call does something to the proxy, or starts an acquisition, exactly if it was told that its
term is over and still found the term served when it went to end it. It then takes its term out of
service, begins the release of the term's delegate and, if it finds the proxy open when it looks,
starts one acquisition, each at a moment of its own and nothing else at any. A call that was told so
does not return without it. And once a call has returned that it could not rely on its term, that
term is never served again. -/
theorem only_the_loser_ends_its_term (profile : Profile) (schedule : Nat → Move α) (i : Nat) :
    -- who does anything, and when
    ((∃ n, TouchesAt profile schedule i n) ↔ ∃ term k m, k < m ∧
      LosesAt profile schedule i term k ∧ SwapsAt profile schedule i term m ∧
      (after profile schedule m).register.current = some term) ∧
    (∀ n, TouchesAt profile schedule i n → ∃ term m, m ≤ n ∧ EndsAt profile schedule i term m ∧
      (n = m ∨ ReleasesAt profile schedule i term n ∨ StartsAt profile schedule i n)) ∧
    -- what is done
    (∀ term n, EndsAt profile schedule i term n → OnlyAt i
      { after profile schedule n with
        register := { (after profile schedule n).register with current := none } }
      (after profile schedule (n + 1))) ∧
    (∀ term n, ReleasesAt profile schedule i term n → OnlyAt i
      { after profile schedule n with
        released := (after profile schedule n).released ++ [term.delegate] }
      (after profile schedule (n + 1))) ∧
    (∀ n, StartsAt profile schedule i n →
      OnlyAt i (after profile schedule n) (after profile schedule (n + 1)) ∧
      ∃ caller cause, (after profile schedule (n + 1)).parties[i]? = some (.calling caller) ∧
        caller.call = .acquiring cause .enter) ∧
    -- each of it once
    (∀ term term' m n, SwapsAt profile schedule i term m → SwapsAt profile schedule i term' n →
      m = n ∧ term = term') ∧
    (∀ term term' m n, ReleasesAt profile schedule i term m →
      ReleasesAt profile schedule i term' n → m = n) ∧
    (∀ m n, RearmsAt profile schedule i m → RearmsAt profile schedule i n → m = n) ∧
    -- and all of it before the call returns
    (∀ n caller, (after profile schedule n).parties[i]? = some (.calling caller) →
      caller.call.result?.isSome →
        (∀ term k, LosesAt profile schedule i term k →
          ∃ m, k < m ∧ m < n ∧ SwapsAt profile schedule i term m) ∧
        (∀ term m, EndsAt profile schedule i term m →
          ∃ k l, m < k ∧ k < l ∧ l < n ∧ ReleasesAt profile schedule i term k ∧
            RearmsAt profile schedule i l) ∧
        -- what was lost stays lost
        ∀ term failure, caller.term = some term →
          caller.call = .finished (.error (.notLeader failure)) →
          ∀ m, n ≤ m → (after profile schedule m).register.current ≠ some term) := by
  refine ⟨⟨?_, ?_⟩, fun n => TouchesAt.exists_endsAt, fun term n h => h.left.1,
    fun term n h => h.left.1, fun n h => h.left, fun _ _ _ _ => SwapsAt.unique,
    fun _ _ _ _ => ReleasesAt.unique, fun _ _ => RearmsAt.unique, ?_⟩
  · rintro ⟨n, htouches⟩
    obtain ⟨term, m, -, hends, -⟩ := htouches.exists_endsAt
    obtain ⟨k, hkm, hloses⟩ := exists_losesAt hends.1
    exact ⟨term, k, m, hkm, hloses, hends⟩
  · rintro ⟨term, k, m, -, -, hswaps, hserved⟩
    exact ⟨m, EndsAt.touchesAt ⟨hswaps, hserved⟩⟩
  · intro n caller here hover
    have hstage : caller.call.stage = 7 := by
      cases hcall : caller.call with
      | finished result => rfl
      | _ => simp [hcall, Call.result?] at hover
    refine ⟨fun term k h => h.exists_swapsAt here hstage,
      fun term m h => h.exists_rearmsAt here hstage, ?_⟩
    intro term failure hterm hcall m hnm
    exact past_of_hasLost here (by rw [hcall]; rfl) hterm hnm

/-- A proxy gains leadership at once, and a call is made whose delegate does not lead any more. -/
def deposed : List (Move Nat) :=
  List.replicate 9 (.proceed 0 { held := some ⟨1, 3⟩ }) ++
    [.call .blocking true, .proceed 1 {}, .proceed 1 {}, .proceed 1 {},
      .undergo 1 .operationBegun,
      .undergo 1 (.operationOver (.failure (.classified .notLeading "deposed"))),
      .undergo 1 .toldOperation, .proceed 1 {}]

example :
    (after ⟨"client", "shard", 1⟩ (script deposed) 16).register.current =
        some ⟨⟨⟨1, 3⟩, 1⟩, 1⟩ ∧
      (after ⟨"client", "shard", 1⟩ (script deposed) 17).register.current = none :=
  ⟨rfl, rfl⟩

end Proxy

end Tenure
