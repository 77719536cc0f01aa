import Tenure.Scenario.Elections

/-!
# What has been done to an election

Everything that an election answers can be read off what has been done to it so far. The steps of
a history stand here with the newest one first, so that what matters now is what stands in front:
the answer that checks are given is the one that was set last, and the token that is held is the one
that was granted last, unless it has been revoked since.

## Main definitions

* `minted`, `grants` — the tokens that have been struck, and how many terms have been granted
* `incumbent`, `inForce` — the token that is held, and the answer that checks are given
* `checkOf`, `standing` — the check and the wait that go by a name
* `checksBegun`, `waitsBegun` — how many checks and waits have been begun
* `since` — the watch of a new election after a history; `answer` — what the next step answers

## Main results

* `run_reverse_cons` — the reports on a history are those on its past, and one more
* `agrees_since` — an election that is watched is as its history says
* `incumbent_eq_some_iff`, `incumbent_ne_of_ne` — where the token that is held comes from, and that
  one which is not held is not held again
-/

namespace Tenure.ElectionWatch

variable {ι : Type}

/-! ## Histories, the newest step first -/

/-- How many terms have been granted. -/
def grants : List (Step ι) → Nat
  | [] => 0
  | .grant :: past => grants past + 1
  | _ :: past => grants past

/-- The tokens that have been struck, the oldest first, be it that a term was granted or that they
were forged. -/
def minted : List (Step ι) → List Token
  | [] => []
  | .grant :: past => minted past ++ [⟨(minted past).length, grants past + 1⟩]
  | .forge term :: past => minted past ++ [⟨(minted past).length, term⟩]
  | _ :: past => minted past

/-- The token that is held: the one that was granted last, unless it was revoked since. -/
def incumbent : List (Step ι) → Option Token
  | [] => none
  | .grant :: past => some ⟨(minted past).length, grants past + 1⟩
  | .revoke :: _ => none
  | _ :: past => incumbent past

/-- The answer that every check is given: the one that was set last, if there is one. -/
def inForce : List (Step ι) → Option LeadingStatus
  | [] => none
  | .force status :: _ => status
  | _ :: past => inForce past

/-- What is true of a token: the answer in force, or else whether it is the one that is held. -/
def verdict (past : List (Step ι)) (token : Token) : LeadingStatus :=
  match inForce past with
  | some status => status
  | none => if incumbent past = some token then .leading else .notLeading

/-- How many checks have been begun, of tokens that there are. -/
def checksBegun : List (Step ι) → Nat
  | [] => 0
  | .check place :: past | .beginCheck _ place :: past =>
    checksBegun past + if (minted past)[place]?.isSome then 1 else 0
  | _ :: past => checksBegun past

section

variable [DecidableEq ι]

/-- The token of the check that goes by a name, where checks have to travel: it was begun last under
this name and has not been finished since. -/
def checkOf (id : ι) : List (Step ι) → Option Token
  | [] => none
  | .beginCheck other place :: past =>
    if id = other then (minted past)[place]?.or (checkOf id past) else checkOf id past
  | .finishCheck other :: past => if id = other then none else checkOf id past
  | _ :: past => checkOf id past

/-- Where the wait that goes by a name stands: whether it is there, and then whether it has been
looked at. It is gone once it was dropped, or was looked at while a token was held. -/
def standing (id : ι) : List (Step ι) → Option Bool
  | [] => none
  | .makeWait other :: past => if id = other then some false else standing id past
  | .lookAtWait other :: past =>
    if id = other then
      if (incumbent past).isSome then none else (standing id past).map fun _ => true
    else standing id past
  | .dropWait other :: past => if id = other then none else standing id past
  | _ :: past => standing id past

/-- How many waits have been looked at: each begins with its first look. -/
def waitsBegun : List (Step ι) → Nat
  | [] => 0
  | .lookAtWait id :: past => waitsBegun past + if standing id past = some false then 1 else 0
  | _ :: past => waitsBegun past

end

/-! ## Tokens and whom they belong to -/

section

variable {past later : List (Step ι)} {token : Token}

theorem minted_prefix_cons (step : Step ι) (past : List (Step ι)) :
    minted past <+: minted (step :: past) := by
  cases step with
  | grant | forge => exact List.prefix_append _ _
  | _ => exact List.prefix_refl _

/-- Tokens stay in their places. -/
theorem minted_prefix_append (later past : List (Step ι)) :
    minted past <+: minted (later ++ past) := by
  induction later with
  | nil => exact List.prefix_refl _
  | cons step later ih => exact ih.trans (minted_prefix_cons step (later ++ past))

/-- A token bears the number of its place among all tokens, so that no two are the same. -/
theorem serials_minted (past : List (Step ι)) :
    (minted past).map Token.serial = List.range (minted past).length := by
  induction past with
  | nil => rfl
  | cons step past ih =>
    cases step with
    | grant | forge =>
      rw [minted, List.map_append, ih, List.length_append, List.length_singleton, List.range_succ]
      rfl
    | _ => exact ih

theorem serial_lt (mem : token ∈ minted past) : token.serial < (minted past).length := by
  have serial := List.mem_map_of_mem (f := Token.serial) mem
  rw [serials_minted] at serial
  exact List.mem_range.mp serial

/-- The token that is held has been struck. -/
theorem mem_of_incumbent (held : incumbent past = some token) : token ∈ minted past := by
  induction past with
  | nil => simp [incumbent] at held
  | cons step past ih =>
    cases step with
    | grant =>
      obtain rfl := Option.some.inj held
      exact List.mem_append_right _ List.mem_cons_self
    | revoke => simp [incumbent] at held
    | _ => exact (minted_prefix_cons _ past).subset (ih held)

/-- As long as no term is granted or revoked, the same token is held. -/
theorem incumbent_append (unchanged : ∀ step ∈ later, step ≠ .grant ∧ step ≠ .revoke) :
    incumbent (later ++ past) = incumbent past := by
  induction later with
  | nil => rfl
  | cons step later ih =>
    have rest := ih fun other mem => unchanged other (List.mem_cons_of_mem _ mem)
    cases step with
    | grant => exact absurd rfl (unchanged .grant List.mem_cons_self).1
    | revoke => exact absurd rfl (unchanged .revoke List.mem_cons_self).2
    | _ => exact rest

/-- The token that is held is the one that was granted last, with no revocation since. -/
theorem incumbent_eq_some_iff :
    incumbent past = some token ↔
      ∃ later earlier, past = later ++ .grant :: earlier ∧
        (∀ step ∈ later, step ≠ .grant ∧ step ≠ .revoke) ∧
        token = ⟨(minted earlier).length, grants earlier + 1⟩ := by
  constructor
  · intro held
    induction past with
    | nil => simp [incumbent] at held
    | cons step past ih =>
      cases step with
      | grant => exact ⟨[], past, rfl, by simp, (Option.some.inj held).symm⟩
      | revoke => simp [incumbent] at held
      | _ =>
        obtain ⟨later, earlier, rfl, unchanged, token_eq⟩ := ih held
        exact ⟨_ :: later, earlier, rfl,
          List.forall_mem_cons.mpr ⟨⟨nofun, nofun⟩, unchanged⟩, token_eq⟩
  · rintro ⟨later, earlier, rfl, unchanged, rfl⟩
    exact incumbent_append unchanged

/-- A grant and a revocation take a token away from its holder: a term is granted with a new one. -/
theorem incumbent_cons_ne {step : Step ι} (mem : token ∈ minted past)
    (change : step = .grant ∨ step = .revoke) : incumbent (step :: past) ≠ some token := by
  intro held
  rcases change with rfl | rfl
  · obtain rfl := Option.some.inj held
    exact Nat.lt_irrefl _ (serial_lt mem)
  · simp [incumbent] at held

/-- A token that is not held is not held again. -/
theorem incumbent_ne_of_ne (mem : token ∈ minted past) (lapsed : incumbent past ≠ some token)
    (later : List (Step ι)) : incumbent (later ++ past) ≠ some token := by
  induction later with
  | nil => exact lapsed
  | cons step later ih =>
    have struck := (minted_prefix_append later past).subset mem
    cases step with
    | grant => exact incumbent_cons_ne struck (.inl rfl)
    | revoke => exact incumbent_cons_ne struck (.inr rfl)
    | _ => exact ih

/-- A check stays open as long as none is begun under its name and it is not finished. -/
theorem checkOf_append [DecidableEq ι] {id : ι}
    (untouched : ∀ step ∈ later, step ≠ .finishCheck id ∧ ∀ place, step ≠ .beginCheck id place) :
    checkOf id (later ++ past) = checkOf id past := by
  induction later with
  | nil => rfl
  | cons step later ih =>
    obtain ⟨here, rest⟩ := List.forall_mem_cons.mp untouched
    rw [List.cons_append]
    cases step with
    | finishCheck other =>
      have apart : id ≠ other := fun same => here.1 (by rw [same])
      rw [checkOf, if_neg apart, ih rest]
    | beginCheck other place =>
      have apart : id ≠ other := fun same => here.2 place (by rw [same])
      rw [checkOf, if_neg apart, ih rest]
    | _ => exact ih rest

end

/-! ## The election after a history -/

section

variable [BEq ι]

/-- The watch of a new election after a history. -/
def since (delayed : Bool) : List (Step ι) → Watch ι
  | [] => { delayed }
  | step :: past => ((since delayed past).step step).2

/-- What a step answers after a history. -/
def answer (delayed : Bool) (past : List (Step ι)) (step : Step ι) : Reply :=
  ((since delayed past).step step).1

/-- The watch after steps that were made one after the other. -/
def Watch.after (watch : Watch ι) (steps : List (Step ι)) : Watch ι :=
  steps.foldl (fun watch step => (watch.step step).2) watch

theorem Watch.run_concat (watch : Watch ι) (steps : List (Step ι)) (step : Step ι) :
    watch.run (steps ++ [step]) = watch.run steps ++
      [((watch.after steps).step step).2.report ((watch.after steps).step step).1] := by
  induction steps generalizing watch with
  | nil => rfl
  | cons first steps ih =>
    exact congrArg (_ :: ·) (ih (watch.step first).2)

theorem after_reverse (delayed : Bool) (past : List (Step ι)) :
    ({ delayed } : Watch ι).after past.reverse = since delayed past := by
  induction past with
  | nil => rfl
  | cons step past ih =>
    rw [List.reverse_cons, Watch.after, List.foldl_append]
    exact congrArg (fun watch : Watch ι => (watch.step step).2) ih

/-- The reports on a history are those on its past, and one on its newest step. -/
theorem run_reverse_cons (delayed : Bool) (step : Step ι) (past : List (Step ι)) :
    run delayed (step :: past).reverse = run delayed past.reverse ++
      [(since delayed (step :: past)).report (answer delayed past step)] := by
  rw [List.reverse_cons, run, Watch.run_concat, after_reverse]
  rfl

end

/-! ## What the election knows -/

section

variable [DecidableEq ι] {delayed : Bool} {past : List (Step ι)} {watch : Watch ι}

/-- What is found under a name once something was put there. -/
theorem lookup_cons_eq_ite {β : Type} (id other : ι) (value : β) (l : List (ι × β)) :
    ((id, value) :: l).lookup other = if other = id then some value else l.lookup other := by
  by_cases same : other = id
  · subst same
    rw [List.lookup_cons_self, if_pos rfl]
  · rw [List.lookup_cons, beq_eq_false_iff_ne.mpr same, if_neg same]

/-- What is found under a name once everything was taken away from there. -/
theorem lookup_filter_ne {β : Type} (id other : ι) (l : List (ι × β)) :
    (l.filter (·.1 != id)).lookup other = if other = id then none else l.lookup other := by
  induction l with
  | nil => simp
  | cons first l ih =>
    obtain ⟨name, value⟩ := first
    by_cases same : name = id
    · rw [List.filter_cons_of_neg (by simpa using same), ih, lookup_cons_eq_ite, same]
      split <;> rfl
    · rw [List.filter_cons_of_pos (by simpa using same), lookup_cons_eq_ite, ih, lookup_cons_eq_ite]
      split
      case isTrue here => rw [if_neg (here ▸ same)]
      case isFalse => rfl

private theorem held_begun (election : LocalElection) (begun : Bool) :
    (if begun then election else election.beginWait).held = election.held := by
  cases begun <;> rfl

/-- An election and what is open with it are as a history says. -/
structure Agrees (delayed : Bool) (past : List (Step ι)) (watch : Watch ι) : Prop where
  travels : watch.delayed = delayed
  tokens : watch.tokens = minted past
  struck : watch.election.mint.struck = (minted past).length
  granted : watch.election.granted = grants past
  held : watch.election.held = incumbent past
  forced : watch.election.forced = inForce past
  checks : watch.election.checks = checksBegun past
  waits : watch.election.waits = waitsBegun past
  openChecks : ∀ id, watch.openChecks.lookup id = if delayed = true then checkOf id past else none
  openWaits : ∀ id, watch.openWaits.lookup id = standing id past

variable (agrees : Agrees delayed past watch)

include agrees

/-- A check that ends now is told what is true now. -/
theorem Agrees.answer_eq (token : Token) : watch.election.answer token = verdict past token := by
  cases free : inForce past <;>
    simp [LocalElection.answer, verdict, agrees.forced, agrees.held, free]

/-- The token that is struck next. -/
theorem Agrees.strike_eq (term : Nat) :
    (watch.election.mint.strike term).1 = ⟨(minted past).length, term⟩ := by
  rw [Mint.strike, agrees.struck]

theorem Agrees.grant : Agrees delayed (.grant :: past) (watch.step .grant).2 := by
  have coin : (watch.election.mint.strike (watch.election.granted + 1)).1 =
      ⟨(minted past).length, grants past + 1⟩ := by
    rw [agrees.strike_eq, agrees.granted]
  exact { agrees with
    tokens := by
      simp [Watch.step, Watch.record, LocalElection.grant, minted, agrees.tokens, coin]
    struck := by simp [Watch.step, Watch.record, LocalElection.grant, minted, agrees.struck]
    granted := congrArg (· + 1) agrees.granted
    held := by simp [Watch.step, Watch.record, LocalElection.grant, incumbent, coin] }

theorem Agrees.forge (term : Nat) :
    Agrees delayed (.forge term :: past) (watch.step (.forge term)).2 :=
  { agrees with
    tokens := by
      simp [Watch.step, Watch.record, LocalElection.forge, minted, agrees.tokens, agrees.strike_eq]
    struck := by simp [Watch.step, Watch.record, LocalElection.forge, minted, agrees.struck] }

theorem Agrees.check (place : Nat) :
    Agrees delayed (.check place :: past) (watch.step (.check place)).2 := by
  rw [Watch.step, agrees.tokens]
  cases here : (minted past)[place]? with
  | none => exact { agrees with checks := by simpa [checksBegun, here] using agrees.checks }
  | some token =>
    exact { agrees with
      tokens := rfl
      checks := by simpa [checksBegun, here, LocalElection.beginCheck] using agrees.checks }

theorem Agrees.beginCheck (id : ι) (place : Nat) :
    Agrees delayed (.beginCheck id place :: past) (watch.step (.beginCheck id place)).2 := by
  rw [Watch.step, agrees.tokens]
  cases here : (minted past)[place]? with
  | none =>
    exact { agrees with
      checks := by simpa [checksBegun, here] using agrees.checks
      openChecks := fun other => by simp [agrees.openChecks, checkOf, here] }
  | some token =>
    have checks :
        watch.election.beginCheck.checks = checksBegun (.beginCheck id place :: past) := by
      simp [checksBegun, here, LocalElection.beginCheck, agrees.checks]
    dsimp only
    split
    case isTrue travels =>
      exact { agrees with
        tokens := rfl
        checks := checks
        openChecks := fun other => by
          rw [lookup_cons_eq_ite, lookup_filter_ne, agrees.openChecks, checkOf, here,
            ← agrees.travels, if_pos travels, if_pos travels]
          split <;> rfl }
    case isFalse stays =>
      exact { agrees with
        tokens := rfl
        checks := checks
        openChecks := fun other => by
          rw [agrees.openChecks, ← agrees.travels, if_neg stays, if_neg stays] }

theorem Agrees.finishCheck (id : ι) :
    Agrees delayed (.finishCheck id :: past) (watch.step (.finishCheck id)).2 := by
  have found := agrees.openChecks id
  rw [Watch.step]
  split
  case h_1 nothing =>
    exact { agrees with
      openChecks := fun other => by
        rw [agrees.openChecks, checkOf]
        by_cases same : other = id
        · simpa [same] using found.symm.trans nothing
        · rw [if_neg same] }
  case h_2 =>
    exact { agrees with
      openChecks := fun other => by
        rw [lookup_filter_ne, agrees.openChecks, checkOf]
        split <;> simp }

theorem Agrees.makeWait (id : ι) :
    Agrees delayed (.makeWait id :: past) (watch.step (.makeWait id)).2 :=
  { agrees with
    openWaits := fun other => by
      rw [Watch.step, lookup_cons_eq_ite, lookup_filter_ne, agrees.openWaits, standing]
      split <;> rfl }

theorem Agrees.lookAtWait (id : ι) :
    Agrees delayed (.lookAtWait id :: past) (watch.step (.lookAtWait id)).2 := by
  rw [Watch.step, Watch.lookAtWait, agrees.openWaits]
  cases stands : standing id past with
  | none =>
    exact { agrees with
      waits := by simpa [waitsBegun, stands] using agrees.waits
      openWaits := fun other => by
        rw [agrees.openWaits, standing]
        by_cases same : other = id
        · simp [same, stands]
        · rw [if_neg same] }
  | some begun =>
    -- only the first look is counted; what is left open depends on what is held
    have counted (left : List (ι × Bool))
        (openWaits : ∀ other, left.lookup other = standing other (.lookAtWait id :: past)) :
        Agrees delayed (.lookAtWait id :: past) { watch with
          election := if begun then watch.election else watch.election.beginWait
          openWaits := left } := by
      cases begun with
      | false =>
        exact { agrees with
          waits := by simpa [waitsBegun, stands, LocalElection.beginWait] using agrees.waits
          openWaits := openWaits }
      | true =>
        exact { agrees with
          waits := by simpa [waitsBegun, stands] using agrees.waits
          openWaits := openWaits }
    dsimp only
    rw [held_begun, agrees.held]
    cases now : incumbent past with
    | none =>
      refine counted _ fun other => ?_
      rw [lookup_cons_eq_ite, lookup_filter_ne, agrees.openWaits, standing, now]
      by_cases same : other = id <;> simp [same, stands]
    | some token =>
      refine counted _ fun other => ?_
      rw [lookup_filter_ne, agrees.openWaits, standing, now]
      rfl

theorem Agrees.dropWait (id : ι) :
    Agrees delayed (.dropWait id :: past) (watch.step (.dropWait id)).2 :=
  { agrees with
    openWaits := fun other => by
      rw [Watch.step, lookup_filter_ne, agrees.openWaits, standing] }

/-- A step makes of an election what the history with this step says. -/
theorem Agrees.step (step : Step ι) : Agrees delayed (step :: past) (watch.step step).2 := by
  cases step with
  | grant => exact agrees.grant
  | forge term => exact agrees.forge term
  | revoke => exact { agrees with held := rfl }
  | force status => exact { agrees with forced := rfl }
  | point hint | pinged | held => exact { agrees with }
  | check place => exact agrees.check place
  | beginCheck id place => exact agrees.beginCheck id place
  | finishCheck id => exact agrees.finishCheck id
  | makeWait id => exact agrees.makeWait id
  | lookAtWait id => exact agrees.lookAtWait id
  | dropWait id => exact agrees.dropWait id

end

section

variable [DecidableEq ι] {delayed : Bool} {past : List (Step ι)}

/-- An election that is watched is as its history says. -/
theorem agrees_since (delayed : Bool) (past : List (Step ι)) :
    Agrees delayed past (since delayed past) := by
  induction past with
  | nil =>
    exact ⟨rfl, rfl, rfl, rfl, rfl, rfl, rfl, rfl, fun _ => by cases delayed <;> rfl, fun _ => rfl⟩
  | cons step past ih => exact ih.step step

/-! ## What is answered -/

theorem answer_grant (delayed : Bool) (past : List (Step ι)) :
    answer delayed past .grant = .token ⟨(minted past).length, grants past + 1⟩ := by
  have agrees := agrees_since delayed past
  exact congrArg Reply.token (by rw [← agrees.strike_eq, ← agrees.granted]; rfl)

theorem answer_forge (delayed : Bool) (past : List (Step ι)) (term : Nat) :
    answer delayed past (.forge term) = .token ⟨(minted past).length, term⟩ :=
  congrArg Reply.token ((agrees_since delayed past).strike_eq term)

theorem answer_check {place : Nat} {token : Token} (here : (minted past)[place]? = some token) :
    answer delayed past (.check place) = .status (verdict past token) := by
  have agrees := agrees_since delayed past
  rw [answer, Watch.step, agrees.tokens, here]
  exact congrArg Reply.status (agrees.answer_eq token)

theorem answer_beginCheck {place : Nat} {token : Token}
    (here : (minted past)[place]? = some token) (id : ι) :
    answer delayed past (.beginCheck id place) =
      if delayed = true then .pending else .status (verdict past token) := by
  have agrees := agrees_since delayed past
  rw [answer, Watch.step, agrees.tokens, here]
  dsimp only
  rw [agrees.travels]
  split
  · rfl
  · exact congrArg Reply.status (agrees.answer_eq token)

theorem answer_finishCheck (delayed : Bool) (past : List (Step ι)) (id : ι) :
    answer delayed past (.finishCheck id) =
      match if delayed = true then checkOf id past else none with
      | some token => .status (verdict past token)
      | none => .unknown := by
  have agrees := agrees_since delayed past
  rw [answer, Watch.step, agrees.openChecks]
  cases if delayed = true then checkOf id past else none with
  | none => rfl
  | some token => exact congrArg Reply.status (agrees.answer_eq token)

theorem answer_lookAtWait (delayed : Bool) (past : List (Step ι)) (id : ι) :
    answer delayed past (.lookAtWait id) =
      match standing id past, incumbent past with
      | none, _ => .unknown
      | some _, some token => .token token
      | some _, none => .pending := by
  have agrees := agrees_since delayed past
  rw [answer, Watch.step, Watch.lookAtWait, agrees.openWaits]
  cases standing id past with
  | none => rfl
  | some begun =>
    dsimp only
    rw [held_begun, agrees.held]
    cases incumbent past <;> rfl

theorem answer_dropWait (delayed : Bool) (past : List (Step ι)) (id : ι) :
    answer delayed past (.dropWait id) = .verdict (standing id past).isSome := by
  rw [answer, Watch.step, (agrees_since delayed past).openWaits]

end

end Tenure.ElectionWatch
