import Tenure.Proofs.Proxy.Shutdown
import Tenure.Proxy.Trail

/-!
# How the trail of an acquisition grows

A move makes something of an acquisition only if it is a step of the party that the acquisition is
with, and then it makes of it what the acquisition does by itself. So the trail of an acquisition
grows by what is seen of its own steps and by nothing else, whatever order they come in among those
of everyone else.

## Main results

* `Proxy.step_of_acquisition`, `Proxy.acquisition?_step_of_ne` — what a move makes of an acquisition
* `Proxy.trail_succ_cases` — what it makes of its trail
* `Proxy.exists_served` — a term on the trail has come into service
-/

namespace Tenure

variable {α : Type}

open Acquisition (Act)

/-! ### An acquisition and the party it is with -/

/-- An acquisition goes on with a call as it does by itself. -/
theorem Call.proceed_of_acquisition {call : Call α} {acquisition : Acquisition}
    (h : call.acquisition? = some acquisition) (hne : acquisition ≠ .finished) (setting : Setting)
    (grounds : Grounds) (answers : Answers) :
    (call.proceed setting grounds answers).1.acquisition? =
        some (acquisition.proceed setting.client grounds answers).1 ∧
      (call.proceed setting grounds answers).2 =
        (acquisition.proceed setting.client grounds answers).2 := by
  cases call with
  | acquiring cause other =>
    obtain rfl : other = acquisition := Option.some.inj h
    cases other with
    | finished => exact absurd rfl hne
    | _ => exact ⟨rfl, rfl⟩
  | _ => simp [Call.acquisition?] at h

/-- An acquisition goes on with any party as it does by itself. -/
theorem Party.proceed_of_acquisition {party : Party α} {acquisition : Acquisition}
    (h : party.acquisition? = some acquisition) (hne : acquisition ≠ .finished) (profile : Profile)
    (grounds : Grounds) (answers : Answers) :
    (party.proceed profile grounds answers).1.acquisition? =
        some (acquisition.proceed profile.client grounds answers).1 ∧
      (party.proceed profile grounds answers).2 =
        (acquisition.proceed profile.client grounds answers).2 := by
  cases party with
  | calling caller =>
    obtain ⟨hnext, hleft⟩ :=
      Call.proceed_of_acquisition h hne (profile.setting caller.style) grounds answers
    constructor
    · rcases caller.call_proceed profile grounds answers with hcall | ⟨term, refusal, hbegin, -⟩
      · change (caller.proceed profile grounds answers).1.call.acquisition? = _
        rw [hcall]
        exact hnext
      · -- a call that is about to begin has no acquisition
        simp [Party.acquisition?, hbegin, Call.acquisition?] at h
    · exact (caller.proceed_left profile grounds answers).trans hleft
  | acquiring other =>
    obtain rfl : other = acquisition := Option.some.inj h
    exact ⟨rfl, rfl⟩
  | closing next => simp [Party.acquisition?] at h

/-- As long as the acquisition thread runs, only a step of its own party makes anything of an
acquisition. -/
theorem Party.Fate.acquisition {profile : Profile} {grounds : Grounds} {i : Nat}
    {move : Proxy.Move α} {party next : Party α} {acquisition : Acquisition}
    (hfate : party.Fate profile grounds i move next)
    (h : party.acquisition? = some acquisition) (running : grounds.stopped = false)
    (hmove : ∀ answers, move ≠ .proceed i answers) : next.acquisition? = some acquisition := by
  cases hfate with
  | unmoved => exact h
  | @calling _ caller _ fate =>
    cases fate with
    | unmoved => exact h
    | proceeds answers => exact absurd rfl (hmove answers)
    | undergoes event =>
      -- nothing that a call can hear has to do with its acquisition
      have hheard := (Caller.undergo_hears profile caller event).acquisition?
      exact hheard.trans h
  | acquiring answers | closing answers => exact absurd rfl (hmove answers)
  | dropped stopped droppable =>
    rw [running] at stopped
    simp at stopped

namespace Proxy

theorem acquisition?_eq_some {proxy : Proxy α} {i : Nat} {acquisition : Acquisition} :
    proxy.acquisition? i = some acquisition ↔
      ∃ party, proxy.parties[i]? = some party ∧ party.acquisition? = some acquisition :=
  Option.bind_eq_some_iff

variable {config : Config} {shard : String} {schedule : Nat → Move α} {i m n k : Nat}

/-- The trail of an acquisition after a step of the party that it is with. -/
theorem Trail.step_self {proxy : Proxy α} {trail : Trail} {acquisition next : Acquisition}
    {left : Grounds} {task : Option Acquisition} {answers : Answers}
    (hplace : trail.place = some i) (here : proxy.acquisition? i = some acquisition)
    (became : acquisition.proceed config.client proxy.toGrounds answers = (next, left, task)) :
    trail.step config proxy (.proceed i answers) =
      { place := onward i proxy.parties.length next task
        acts := trail.acts ++ acquisition.acts config proxy.toGrounds left } := by
  simp only [Trail.step, here, hplace, became, ↓reduceIte]

/-- The trail of an acquisition changes only with a step of the party that it is with. -/
theorem Trail.step_eq_self {proxy : Proxy α} {move : Move α} {trail : Trail}
    (h : ∀ i answers, move = .proceed i answers → trail.place ≠ some i) :
    trail.step config proxy move = trail := by
  cases move with
  | proceed i answers =>
    have hne := h i answers rfl
    cases hhere : proxy.acquisition? i <;> simp [Trail.step, hhere, hne]
  | _ => rfl

/-- A move of another party leaves an acquisition as it is. -/
theorem acquisition?_step_of_ne {proxy : Proxy α} {profile : Profile} {move : Move α}
    {acquisition : Acquisition} (here : proxy.acquisition? i = some acquisition)
    (running : proxy.stopped = false) (hmove : ∀ answers, move ≠ .proceed i answers) :
    (proxy.step profile move).acquisition? i = some acquisition := by
  obtain ⟨party, hparty, hcarries⟩ := acquisition?_eq_some.mp here
  obtain ⟨next, hnext, hfate⟩ := step_fate profile move hparty
  exact acquisition?_eq_some.mpr ⟨next, hnext, hfate.acquisition hcarries running hmove⟩

/-- A step of an acquisition is a step of its party, which leaves what the acquisition leaves; what
it hands over joins the proxy. -/
theorem step_of_acquisition (profile : Profile) {proxy : Proxy α} {acquisition next : Acquisition}
    {left : Grounds} {task : Option Acquisition} {answers : Answers}
    (here : proxy.acquisition? i = some acquisition) (hne : acquisition ≠ .finished)
    (became : acquisition.proceed profile.client proxy.toGrounds answers = (next, left, task)) :
    (proxy.step profile (.proceed i answers)).toGrounds = left ∧
      (proxy.step profile (.proceed i answers)).acquisition? i = some next ∧
      ∀ work, task = some work →
        (proxy.step profile (.proceed i answers)).acquisition? proxy.parties.length =
          some work := by
  obtain ⟨party, hparty, hcarries⟩ := acquisition?_eq_some.mp here
  obtain ⟨hnext, hleft⟩ :=
    Party.proceed_of_acquisition hcarries hne profile proxy.toGrounds answers
  rw [became] at hnext hleft
  rw [step_proceed hparty]
  refine ⟨congrArg Prod.fst hleft, ?_, ?_⟩
  · exact acquisition?_eq_some.mpr ⟨_, getElem?_settle_self hparty _, hnext⟩
  · rintro work rfl
    refine acquisition?_eq_some.mpr ⟨.acquiring work, ?_, rfl⟩
    -- whoever joins comes last
    rw [settle, hleft, List.getElem?_append_right (by simp)]
    simp

/-- What is seen of an acquisition is seen of one of its steps. -/
theorem trail_succ_cases (config : Config) (shard : String) (schedule : Nat → Move α)
    (i m n : Nat) :
    (trail config shard schedule i m (n + 1)).acts = (trail config shard schedule i m n).acts ∨
      ∃ place answers acquisition next left task,
        schedule (m + n) = .proceed place answers ∧
        (after (config.profile shard) schedule (m + n)).acquisition? place = some acquisition ∧
        acquisition.proceed config.client
          (after (config.profile shard) schedule (m + n)).toGrounds answers = (next, left, task) ∧
        (trail config shard schedule i m (n + 1)).acts =
          (trail config shard schedule i m n).acts ++ acquisition.acts config
            (after (config.profile shard) schedule (m + n)).toGrounds left := by
  -- a step counts only if it is one of the party that the acquisition is with
  by_cases hmove : ∃ place answers, schedule (m + n) = .proceed place answers ∧
      (trail config shard schedule i m n).place = some place
  · obtain ⟨place, answers, hmove, hplace⟩ := hmove
    cases hhere : (after (config.profile shard) schedule (m + n)).acquisition? place with
    | none =>
      left
      simp only [trail, hmove, Trail.step, hhere]
    | some acquisition =>
      right
      refine ⟨place, answers, acquisition, _, _, _, hmove, hhere, rfl, ?_⟩
      rw [trail, hmove, Trail.step_self hplace hhere rfl]
  · left
    rw [trail, Trail.step_eq_self]
    intro place answers hproceed hplace
    exact hmove ⟨place, answers, hproceed, hplace⟩

/-- What has been seen of an acquisition stays seen. -/
theorem acts_isPrefix (config : Config) (shard : String) (schedule : Nat → Move α) (i m : Nat)
    (h : n ≤ k) :
    (trail config shard schedule i m n).acts <+: (trail config shard schedule i m k).acts := by
  induction k, h using Nat.le_induction with
  | base => exact List.prefix_rfl
  | succ k _ ih =>
    refine ih.trans ?_
    rcases trail_succ_cases config shard schedule i m k with hsame |
      ⟨place, answers, acquisition, next, left, task, -, -, -, hmore⟩
    · exact hsame ▸ List.prefix_rfl
    · exact hmore ▸ List.prefix_append _ _

/-- A term that is seen on a step comes into service by it. -/
theorem serves_mem_acts {acquisition : Acquisition} {grounds left : Grounds} {term : Term}
    (h : Act.serves term ∈ acquisition.acts config grounds left) :
    grounds.register.current ≠ some term ∧ left.register.current = some term := by
  have hbegins : Act.serves term ∉ acquisition.begins := by
    cases acquisition <;> simp [Acquisition.begins]
  have hreports : Act.serves term ∉ (left.notices.drop grounds.notices.length).map Act.reports := by
    simp only [List.mem_map, reduceCtorEq, and_false, exists_false, not_false_eq_true]
  by_cases hsame : left.register.current = grounds.register.current
  · simp only [Acquisition.acts, hsame, ↓reduceIte, List.mem_append, hbegins, hreports] at h
    simp at h
  · have hserved : left.register.current = some term := by
      simp only [Acquisition.acts, hsame, ↓reduceIte, List.mem_append, hbegins, hreports] at h
      simpa using h
    exact ⟨fun hbefore => hsame (hserved.trans hbefore.symm), hserved⟩

/-- A term that is seen on the trail of an acquisition has come into service. -/
theorem exists_served {term : Term}
    (h : Act.serves term ∈ (trail config shard schedule i m n).acts) :
    ∃ k, k < n ∧
      (after (config.profile shard) schedule (m + k)).register.current ≠ some term ∧
      (after (config.profile shard) schedule (m + k + 1)).register.current = some term := by
  induction n with
  | zero => simp [trail] at h
  | succ n ih =>
    rcases trail_succ_cases config shard schedule i m n with hsame |
      ⟨place, answers, acquisition, next, left, task, hmove, hhere, became, hmore⟩
    · obtain ⟨k, hk, hserved⟩ := ih (hsame ▸ h)
      exact ⟨k, Nat.lt_succ_of_lt hk, hserved⟩
    · rw [hmore, List.mem_append] at h
      rcases h with hold | hnew
      · obtain ⟨k, hk, hserved⟩ := ih hold
        exact ⟨k, Nat.lt_succ_of_lt hk, hserved⟩
      · obtain ⟨hbefore, hserved⟩ := serves_mem_acts hnew
        -- an acquisition that is over leaves everything as it is
        have hne : acquisition ≠ .finished := by
          rintro rfl
          obtain ⟨-, rfl, -⟩ := Prod.mk.injEq .. ▸ became
          exact hbefore hserved
        have hleft := (step_of_acquisition (config.profile shard) hhere hne became).1
        refine ⟨n, Nat.lt_succ_self n, hbefore, ?_⟩
        rw [after, hmove, hleft]
        exact hserved

/-- The trail of an acquisition that is over is complete. -/
theorem trail_of_over (h : (trail config shard schedule i m n).place = none) (hnk : n ≤ k) :
    trail config shard schedule i m k = trail config shard schedule i m n := by
  induction k, hnk using Nat.le_induction with
  | base => rfl
  | succ k hnk ih =>
    rw [trail, Trail.step_eq_self, ih]
    intro j answers hmove
    rw [ih, h]
    simp

end Proxy

end Tenure
