import Mathlib.Data.Nat.Init
import Tenure.Proofs.Proxy.Caller
import Tenure.Proxy.Concourse

/-!
# The fate of a party

A party keeps its place among the parties of a proxy for good. What a move makes of it depends on
the grounds and on the party alone, so what is true of a party can be followed from move to move
without regard to the others.

## Main definitions

* `Caller.Fate`, `Party.Fate` — what a move can make of a call, and of any party

## Main results

* `Proxy.step_fate`, `Proxy.step_new` — where the party at a place comes from
* `Proxy.after_stays`, `Proxy.calling_induction` — what every move leaves true stays true
* `Proxy.exists_change` — what has become true of a call became true by some move
* `Proxy.exists_departure` — what is not true of a call any more became false by some move
-/

namespace Tenure

variable {α : Type}

/-- What a move can make of the call at a place. -/
inductive Caller.Fate (profile : Profile) (grounds : Grounds) (i : Nat) :
    Proxy.Move α → Caller α → Caller α → Prop
  | unmoved {move : Proxy.Move α} {caller : Caller α} :
      Fate profile grounds i move caller caller
  | proceeds {caller : Caller α} (answers : Answers) :
      Fate profile grounds i (.proceed i answers) caller
        (caller.proceed profile grounds answers).1
  | undergoes {caller : Caller α} (event : Caller.Event α) :
      Fate profile grounds i (.undergo i event) caller (caller.undergo profile event).1

/-- What a move can make of the party at a place. -/
inductive Party.Fate (profile : Profile) (grounds : Grounds) (i : Nat) :
    Proxy.Move α → Party α → Party α → Prop
  | unmoved {move : Proxy.Move α} {party : Party α} : Fate profile grounds i move party party
  | calling {move : Proxy.Move α} {caller next : Caller α}
      (fate : caller.Fate profile grounds i move next) :
      Fate profile grounds i move (.calling caller) (.calling next)
  | acquiring {acquisition : Acquisition} (answers : Answers) :
      Fate profile grounds i (.proceed i answers) (.acquiring acquisition)
        (.acquiring (acquisition.proceed profile.client grounds answers).1)
  | closing {closing : Closing} (answers : Answers) :
      Fate profile grounds i (.proceed i answers) (.closing closing)
        (.closing (closing.proceed grounds answers).1)
  | dropped {acquisition : Acquisition} (stopped : grounds.stopped = true)
      (droppable : acquisition.isDroppable = true) :
      Fate profile grounds i (.drop i) (.acquiring acquisition) (.acquiring .finished)

/-! ### What is handed to the acquisition thread -/

/-- What an acquisition hands over comes into the queue of the acquisition thread. -/
theorem Acquisition.queued_of_proceed {client : String} {grounds : Grounds} {answers : Answers}
    {acquisition task : Acquisition}
    (h : (acquisition.proceed client grounds answers).2.2 = some task) :
    ∃ known failures, task = .queued known failures := by
  cases acquisition with
  | handOver known failures =>
    refine ⟨known, failures, ?_⟩
    cases hr : refusal client grounds.stopped with
    | none => simpa [proceed, handedOver, hr, eq_comm] using h
    | some refused => simp [proceed, handedOver, hr] at h
  | publishing operation =>
    simp only [proceed] at h
    split at h <;> simp at h
  | _ => simp [proceed] at h

theorem Call.queued_of_proceed {setting : Setting} {grounds : Grounds} {answers : Answers}
    {call : Call α} {task : Acquisition}
    (h : (call.proceed setting grounds answers).2.2 = some task) :
    ∃ known failures, task = .queued known failures := by
  cases call with
  | ending cause operation =>
    simp only [proceed] at h
    split at h <;> simp at h
  | acquiring cause acquisition =>
    have hsent (h : (acquisition.proceed setting.client grounds answers).2.2 = some task) :=
      Acquisition.queued_of_proceed h
    cases acquisition with
    | finished => simp [proceed] at h
    | _ => exact hsent h
  | _ => simp [proceed] at h

theorem Party.queued_of_proceed {profile : Profile} {grounds : Grounds} {answers : Answers}
    {party : Party α} {task : Acquisition}
    (h : (party.proceed profile grounds answers).2.2 = some task) :
    ∃ known failures, task = .queued known failures := by
  cases party with
  | calling caller =>
    have hsent : (caller.proceed profile grounds answers).2.2 = some task := h
    rw [Caller.proceed_left] at hsent
    exact Call.queued_of_proceed hsent
  | acquiring acquisition => exact Acquisition.queued_of_proceed h
  | closing next => simp [proceed] at h

namespace Proxy

variable {proxy : Proxy α} {profile : Profile} {i j : Nat} {party next : Party α}
  {move : Move α}

theorem getElem?_settle_self (here : proxy.parties[i]? = some party)
    (became : Party α × Grounds × Option Acquisition) :
    (proxy.settle i became).parties[i]? = some became.1 := by
  obtain ⟨hi, -⟩ := List.getElem?_eq_some_iff.mp here
  have hlength : i < (proxy.parties.set i became.1).length := by simpa using hi
  rw [settle, List.getElem?_append_left hlength]
  simp [hi]

theorem getElem?_settle_ne (there : proxy.parties[j]? = some party) (hne : i ≠ j)
    (became : Party α × Grounds × Option Acquisition) :
    (proxy.settle i became).parties[j]? = some party := by
  obtain ⟨hj, -⟩ := List.getElem?_eq_some_iff.mp there
  have hlength : j < (proxy.parties.set i became.1).length := by simpa using hj
  rw [settle, List.getElem?_append_left hlength, List.getElem?_set_ne hne]
  exact there

/-- A party that proceeds leaves what its next step leaves. -/
theorem step_proceed (here : proxy.parties[i]? = some party) (answers : Answers) :
    proxy.step profile (.proceed i answers) =
      proxy.settle i (party.proceed profile proxy.toGrounds answers) := by
  simp only [step, here]

theorem step_undergo {caller : Caller α} (here : proxy.parties[i]? = some (.calling caller))
    (event : Caller.Event α) :
    proxy.step profile (.undergo i event) =
      proxy.settle i (.calling (caller.undergo profile event).1,
        proxy.report (caller.undergo profile event).2, none) := by
  simp only [step, here]

/-- Nobody loses their place, and a move makes of a party what the party's fate is. -/
theorem step_fate (profile : Profile) (move : Move α) (here : proxy.parties[i]? = some party) :
    ∃ next, (proxy.step profile move).parties[i]? = some next ∧
      Party.Fate profile proxy.toGrounds i move party next := by
  -- whoever joins comes last
  have hjoin (other : Party α) : (proxy.join other).parties[i]? = some party := by
    obtain ⟨hi, -⟩ := List.getElem?_eq_some_iff.mp here
    rw [join, List.getElem?_append_left hi]
    exact here
  cases move with
  | call style mayWait => exact ⟨party, hjoin _, .unmoved⟩
  | close => exact ⟨party, hjoin _, .unmoved⟩
  | proceed j answers =>
    by_cases hij : j = i
    · subst hij
      rw [step_proceed here]
      refine ⟨_, getElem?_settle_self here _, ?_⟩
      cases party with
      | calling caller => exact .calling (.proceeds answers)
      | acquiring acquisition => exact .acquiring answers
      | closing next => exact .closing answers
    · refine ⟨party, ?_, .unmoved⟩
      simp only [step]
      split
      · exact here
      · exact getElem?_settle_ne here hij _
  | undergo j event =>
    by_cases hij : j = i
    · subst hij
      cases party with
      | calling caller =>
        rw [step_undergo here]
        exact ⟨_, getElem?_settle_self here _, .calling (.undergoes event)⟩
      | _ => exact ⟨_, by simp only [step, here], .unmoved⟩
    · refine ⟨party, ?_, .unmoved⟩
      simp only [step]
      split
      · exact getElem?_settle_ne here hij _
      · exact here
  | drop j =>
    by_cases hij : j = i
    · subst hij
      cases party with
      | acquiring acquisition =>
        simp only [step, here]
        split
        · rename_i hdrop
          obtain ⟨hstopped, hdroppable⟩ := Bool.and_eq_true_iff.mp hdrop
          exact ⟨_, getElem?_settle_self here _, .dropped hstopped hdroppable⟩
        · exact ⟨_, here, .unmoved⟩
      | _ => exact ⟨_, by simp only [step, here], .unmoved⟩
    · refine ⟨party, ?_, .unmoved⟩
      simp only [step]
      split
      · split
        · exact getElem?_settle_ne here hij _
        · exact here
      · exact here

/-- A call stays one. -/
theorem calling_step {caller : Caller α} (profile : Profile) (move : Move α)
    (here : proxy.parties[i]? = some (.calling caller)) :
    ∃ next, (proxy.step profile move).parties[i]? = some (.calling next) ∧
      caller.Fate profile proxy.toGrounds i move next := by
  obtain ⟨party, there, hfate⟩ := step_fate profile move here
  generalize hcaller : Party.calling caller = before at hfate
  cases hfate with
  | unmoved => exact ⟨caller, hcaller ▸ there, .unmoved⟩
  | calling fate =>
    obtain rfl := Party.calling.inj hcaller
    exact ⟨_, there, fate⟩
  | _ => simp at hcaller

/-- A party that was not there before has just been made, or was sent by another one into the
queue of the acquisition thread. -/
theorem step_new (profile : Profile) (move : Move α) (absent : proxy.parties[i]? = none)
    (here : (proxy.step profile move).parties[i]? = some next) :
    (∃ style mayWait, next = .calling (.make style mayWait)) ∨
      next = .closing (.shutting .shut) ∨
      ∃ known failures, next = .acquiring (.queued known failures) := by
  have hlength : proxy.parties.length ≤ i := List.getElem?_eq_none_iff.mp absent
  have hjoin {other : Party α} (h : (proxy.join other).parties[i]? = some next) :
      next = other := by
    rw [join, List.getElem?_append_right hlength] at h
    simpa using List.mem_of_getElem? h
  -- a move of another party can only bring in the work that it hands over
  have hsettle {j : Nat} {became : Party α × Grounds × Option Acquisition}
      (h : (proxy.settle j became).parties[i]? = some next) :
      ∃ task, became.2.2 = some task ∧ next = .acquiring task := by
    rw [settle, List.getElem?_append_right (by simpa using hlength)] at h
    have hmem := List.mem_of_getElem? h
    rw [Option.mem_toList, Option.map_eq_some_iff] at hmem
    obtain ⟨task, htask, rfl⟩ := hmem
    exact ⟨task, htask, rfl⟩
  -- where nothing happens, nobody comes in
  have hsame (h : proxy.parties[i]? = some next) : False := by simp [absent] at h
  cases move with
  | call style mayWait => exact .inl ⟨style, mayWait, hjoin here⟩
  | close => exact .inr (.inl (hjoin here))
  | proceed j answers =>
    simp only [step] at here
    split at here
    · exact (hsame here).elim
    · obtain ⟨task, htask, rfl⟩ := hsettle here
      obtain ⟨known, failures, rfl⟩ := Party.queued_of_proceed htask
      exact .inr (.inr ⟨known, failures, rfl⟩)
  | undergo j event =>
    simp only [step] at here
    split at here
    · obtain ⟨task, htask, -⟩ := hsettle here
      simp at htask
    · exact (hsame here).elim
  | drop j =>
    simp only [step] at here
    split at here
    · split at here
      · obtain ⟨task, htask, -⟩ := hsettle here
        simp at htask
      · exact (hsame here).elim
    · exact (hsame here).elim

variable {schedule : Nat → Move α} {m n : Nat}

/-- What every move leaves true of the party at a place stays true of it. -/
theorem after_stays {P : Party α → Prop}
    (here : (after profile schedule m).parties[i]? = some party) (hp : P party)
    (fate : ∀ n, m ≤ n → ∀ party next, P party →
      Party.Fate profile (after profile schedule n).toGrounds i (schedule n) party next → P next)
    (h : m ≤ n) : ∃ next, (after profile schedule n).parties[i]? = some next ∧ P next := by
  induction n, h using Nat.le_induction with
  | base => exact ⟨party, here, hp⟩
  | succ n hmn ih =>
    obtain ⟨party, here, hp⟩ := ih
    obtain ⟨next, there, hfate⟩ := step_fate profile (schedule n) here
    exact ⟨next, there, fate n hmn party next hp hfate⟩

/-- A call was there before, or has just been made. -/
theorem calling_before {next : Caller α}
    (here : (proxy.step profile move).parties[i]? = some (.calling next)) :
    (∃ style mayWait, next = .make style mayWait) ∨
      ∃ caller, proxy.parties[i]? = some (.calling caller) ∧
        caller.Fate profile proxy.toGrounds i move next := by
  cases hbefore : proxy.parties[i]? with
  | none =>
    rcases step_new profile move hbefore here with ⟨style, mayWait, hmake⟩ | hclose | ⟨_, _, hsent⟩
    · exact .inl ⟨style, mayWait, Party.calling.inj hmake⟩
    · simp at hclose
    · simp at hsent
  | some party =>
    right
    obtain ⟨party', here', hfate⟩ := step_fate profile move hbefore
    obtain rfl : party' = .calling next := Option.some.inj (here'.symm.trans here)
    cases hfate with
    | unmoved => exact ⟨next, rfl, .unmoved⟩
    | calling fate => exact ⟨_, rfl, fate⟩

/-- What is true of calls when they are made, and what every move leaves true of them, is true of
all calls. -/
theorem calling_induction {P : Caller α → Prop} (made : ∀ style mayWait, P (.make style mayWait))
    (fate : ∀ n caller next, P caller →
      caller.Fate profile (after profile schedule n).toGrounds i (schedule n) next → P next) :
    ∀ n caller, (after profile schedule n).parties[i]? = some (.calling caller) → P caller := by
  intro n
  induction n with
  | zero =>
    intro caller here
    have := List.mem_of_getElem? here
    simp [after, start] at this
  | succ n ih =>
    intro caller here
    rcases calling_before here with ⟨style, mayWait, rfl⟩ | ⟨before, hbefore, hfate⟩
    · exact made style mayWait
    · exact fate n before caller (ih before hbefore) hfate

/-- What is true of a call and not of calls when they are made became true of it by a move, and was
so right after it. -/
theorem exists_change_at {P : Caller α → Prop} (made : ∀ style mayWait, ¬ P (.make style mayWait)) :
    ∀ n caller, (after profile schedule n).parties[i]? = some (.calling caller) → P caller →
      ∃ m, m < n ∧ ∃ before next,
        (after profile schedule m).parties[i]? = some (.calling before) ∧
        (after profile schedule (m + 1)).parties[i]? = some (.calling next) ∧
        before.Fate profile (after profile schedule m).toGrounds i (schedule m) next ∧
        ¬ P before ∧ P next := by
  intro n
  induction n with
  | zero =>
    intro caller here
    have := List.mem_of_getElem? here
    simp [after, start] at this
  | succ n ih =>
    intro caller here hp
    rcases calling_before here with ⟨style, mayWait, rfl⟩ | ⟨before, hbefore, hfate⟩
    · exact absurd hp (made style mayWait)
    -- either it was true before, and its change lies further back, or it has changed just now
    · by_cases hq : P before
      · obtain ⟨m, hm, hchange⟩ := ih before hbefore hq
        exact ⟨m, Nat.lt_succ_of_lt hm, hchange⟩
      · exact ⟨n, Nat.lt_succ_self n, before, caller, hbefore, here, hfate, hq, hp⟩

/-- What is true of a call and not of calls when they are made became true of it by a move. -/
theorem exists_change {P : Caller α → Prop} (made : ∀ style mayWait, ¬ P (.make style mayWait))
    (n : Nat) (caller : Caller α)
    (here : (after profile schedule n).parties[i]? = some (.calling caller)) (hp : P caller) :
    ∃ m, m < n ∧ ∃ before next,
      (after profile schedule m).parties[i]? = some (.calling before) ∧
      before.Fate profile (after profile schedule m).toGrounds i (schedule m) next ∧
      ¬ P before ∧ P next := by
  obtain ⟨m, hm, before, next, hbefore, -, hchange⟩ := exists_change_at made n caller here hp
  exact ⟨m, hm, before, next, hbefore, hchange⟩

/-- What is true of the call at a place, and what every move leaves true of it, stays true of it. -/
theorem calling_stays {P : Caller α → Prop} {caller : Caller α}
    (here : (after profile schedule m).parties[i]? = some (.calling caller)) (hp : P caller)
    (h : m ≤ n)
    (fate : ∀ k, m ≤ k → k < n → ∀ before next,
      (after profile schedule k).parties[i]? = some (.calling before) →
      (after profile schedule (k + 1)).parties[i]? = some (.calling next) →
      before.Fate profile (after profile schedule k).toGrounds i (schedule k) next →
      P before → P next) :
    ∃ later, (after profile schedule n).parties[i]? = some (.calling later) ∧ P later := by
  induction n, h using Nat.le_induction with
  | base => exact ⟨caller, here, hp⟩
  | succ n hmn ih =>
    obtain ⟨before, hbefore, hq⟩ := ih fun k hmk hkn => fate k hmk (Nat.lt_succ_of_lt hkn)
    obtain ⟨next, hnext, hfate⟩ := calling_step profile (schedule n) hbefore
    exact ⟨next, hnext, fate n hmn (Nat.lt_succ_self n) before next hbefore hnext hfate hq⟩

/-- What was true of a call and is not any more became false of it by a move. -/
theorem exists_departure {P : Caller α → Prop} {caller later : Caller α}
    (here : (after profile schedule m).parties[i]? = some (.calling caller)) (hp : P caller)
    (there : (after profile schedule n).parties[i]? = some (.calling later)) (hq : ¬ P later)
    (h : m ≤ n) :
    ∃ k, m ≤ k ∧ k < n ∧ ∃ before next,
      (after profile schedule k).parties[i]? = some (.calling before) ∧
      (after profile schedule (k + 1)).parties[i]? = some (.calling next) ∧
      before.Fate profile (after profile schedule k).toGrounds i (schedule k) next ∧
      P before ∧ ¬ P next := by
  -- otherwise every move leaves it true
  apply Classical.byContradiction
  intro hnone
  obtain ⟨same, hsame, hp'⟩ := calling_stays here hp h
    fun k hmk hkn before next hbefore hnext hfate hb => Classical.byContradiction fun hn =>
      hnone ⟨k, hmk, hkn, before, next, hbefore, hnext, hfate, hb, hn⟩
  obtain rfl : same = later := Party.calling.inj (Option.some.inj (hsame.symm.trans there))
  exact hq hp'

end Proxy

end Tenure
