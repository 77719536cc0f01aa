import Tenure.Proofs.Proxy.Ending
import Tenure.Proofs.Proxy.Trial

/-!
# What the budget of checks decides

A call is made on a proxy that serves a term, nobody else touches what is served, its operation
comes to a value, and all that it waits for comes. Then what it comes to is settled by the answers
to its checks and their budget alone: it makes as many checks as it takes to settle the matter, or
as the budget allows, and the last answer decides.

## Main definitions

* `Proxy.Unhindered` — a call that nothing stands in the way of

## Main results

* `Proxy.Unhindered.onTrial` — such a call is on trial at every moment
* `Proxy.Unhindered.exists_finished` — it comes to its end
* `Proxy.Unhindered.exists_moments` — it ends its term on the way, if it comes to nothing
* `Proxy.quorum_budget` — what it comes to
-/

namespace Tenure

variable {α : Type}

open Validation (Answer decisive)

namespace Proxy

variable {profile : Profile} {schedule : Nat → Move α} {i m n : Nat} {style : Style} {term : Term}
  {value : α} {script : Nat → Answer} {caller : Caller α}

/-- The way in which a move makes the call at a place go on. -/
def Move.stir? (i : Nat) : Move α → Option Stir
  | .proceed j _ => if j = i then some .proceeds else none
  | .undergo j event => if j = i then event.stir? else none
  | _ => none

/-- A call that is made at some moment on an open proxy that serves a term, and that nothing stands
in the way of. -/
structure Unhindered (profile : Profile) (schedule : Nat → Move α) (i m : Nat) (style : Style)
    (term : Term) (value : α) (script : Nat → Answer) : Prop where
  made : (after profile schedule m).parties[i]? = some (.calling (.make style true))
  isOpen : (after profile schedule m).register.closed = false
  served : (after profile schedule m).register.current = some term
  /-- Until the call starts the next acquisition itself, nobody else touches the register. -/
  alone : ∀ n caller, m ≤ n → (after profile schedule n).parties[i]? = some (.calling caller) →
    caller.call.stage < 6 → (schedule n).mover ≠ some i →
      (after profile schedule (n + 1)).register = (after profile schedule n).register
  /-- The shard takes the work of the call. -/
  accepted : ∀ n answers, m ≤ n → schedule n = .proceed i answers → answers.refusal = none
  /-- The operation comes to this value and the checks are answered by the script, and no executor
  refuses or drops either of them. -/
  kept : ∀ n caller event, m ≤ n → (after profile schedule n).parties[i]? = some (.calling caller) →
    schedule n = .undergo i event → event.Keeps value (script caller.checks.length)
  /-- Everything that the call can wait for comes again and again. -/
  running : ∀ stir n, ∃ k, n ≤ k ∧ (schedule k).stir? i = some stir

namespace Unhindered

/-- A move of somebody else leaves the call where it is. -/
theorem follows_other (h : Unhindered profile schedule i m style term value script) (hmn : m ≤ n)
    (here : (after profile schedule n).parties[i]? = some (.calling caller))
    (htrial : caller.Trial profile.budget script term value)
    (hfinds : caller.call.Finds term (after profile schedule n).register)
    (hmover : (schedule n).mover ≠ some i) (hstir : (schedule n).stir? i = none) :
    ∃ next, (after profile schedule (n + 1)).parties[i]? = some (.calling next) ∧
      caller.Follows profile.budget script term value next ((schedule n).stir? i) ∧
      next.call.Finds term (after profile schedule (n + 1)).register := by
  obtain ⟨next, hnext, hfate⟩ := calling_step profile (schedule n) here
  obtain rfl : next = caller := by
    generalize schedule n = move at hfate hmover
    cases hfate with
    | unmoved => rfl
    | proceeds answers => exact absurd rfl hmover
    | undergoes event => exact absurd rfl hmover
  refine ⟨next, hnext, ⟨htrial, .inr ⟨rfl, by simp [hstir]⟩⟩, ?_⟩
  by_cases hstage : next.call.stage < 6
  · rw [h.alone n next hmn here hstage hmover]
    exact hfinds
  · exact ⟨fun hs => absurd hs hstage, fun hs => absurd (by omega) hstage⟩

/-- Every move leaves the call on its way. -/
theorem follows (h : Unhindered profile schedule i m style term value script) (hmn : m ≤ n)
    (here : (after profile schedule n).parties[i]? = some (.calling caller))
    (htrial : caller.Trial profile.budget script term value)
    (hfinds : caller.call.Finds term (after profile schedule n).register) :
    ∃ next, (after profile schedule (n + 1)).parties[i]? = some (.calling next) ∧
      caller.Follows profile.budget script term value next ((schedule n).stir? i) ∧
      next.call.Finds term (after profile schedule (n + 1)).register := by
  cases hmove : schedule n with
  | proceed j answers =>
    by_cases hij : j = i
    · subst hij
      obtain ⟨hfollows, hleft⟩ := htrial.proceed hfinds (h.accepted n answers hmn hmove)
      have hstir : (Move.proceed (α := α) j answers).stir? j = some .proceeds := if_pos rfl
      rw [after, hmove, step_proceed here, hstir]
      exact ⟨_, getElem?_settle_self here _, hfollows, hleft⟩
    · rw [← hmove]
      exact h.follows_other hmn here htrial hfinds (by simp [hmove, Move.mover, hij])
        (by simp [hmove, Move.stir?, hij])
  | undergo j event =>
    by_cases hij : j = i
    · subst hij
      have hfollows := htrial.undergo (h.kept n caller event hmn here hmove)
      have hstir : (Move.undergo j event).stir? j = event.stir? := if_pos rfl
      rw [after, hmove, step_undergo here, hstir]
      refine ⟨_, getElem?_settle_self here _, hfollows, ?_⟩
      -- what is heard may bring the call to the end of its term, but finds it as served as before
      rcases Nat.eq_zero_or_pos caller.call.stage with hzero | hpos
      · exact ⟨fun _ => hfinds.isOpen (by omega), fun _ => hfinds.served (by omega)⟩
      · have hfate : caller.Fate profile (after profile schedule n).toGrounds j (.undergo j event)
            (caller.undergo profile event).1 := .undergoes event
        obtain ⟨-, hsame | ⟨answers, hother, -⟩⟩ := hfate.of_stage hpos
        · rw [hsame]
          exact hfinds
        · simp at hother
    · rw [← hmove]
      exact h.follows_other hmn here htrial hfinds (by simp [hmove, Move.mover, hij])
        (by simp [hmove, Move.stir?, hij])
  | drop j =>
    by_cases hij : j = i
    · subst hij
      have hnone : (Move.drop (α := α) j).stir? j = none := rfl
      have hsame : after profile schedule (n + 1) = after profile schedule n := by
        simp only [after, hmove, step, here]
      rw [hsame, hnone]
      exact ⟨caller, here, ⟨htrial, .inr ⟨rfl, by simp⟩⟩, hfinds⟩
    · rw [← hmove]
      exact h.follows_other hmn here htrial hfinds (by simp [hmove, Move.mover, hij])
        (by simp [hmove, Move.stir?])
  | _ =>
    rw [← hmove]
    exact h.follows_other hmn here htrial hfinds (by simp [hmove, Move.mover])
      (by simp [hmove, Move.stir?])

/-- The call is on its way at every moment. -/
theorem onTrial (h : Unhindered profile schedule i m style term value script) (hmn : m ≤ n) :
    ∃ caller, (after profile schedule n).parties[i]? = some (.calling caller) ∧
      caller.Trial profile.budget script term value ∧
      caller.call.Finds term (after profile schedule n).register := by
  induction n, hmn using Nat.le_induction with
  | base =>
    have hmake : Caller.make (α := α) style true = { style } := by cases style <;> rfl
    refine ⟨_, h.made, ?_, ?_⟩
    · rw [hmake]
      exact .enters
    · exact ⟨fun _ => h.isOpen, fun _ => h.served⟩
  | succ n hmn ih =>
    obtain ⟨caller, here, htrial, hfinds⟩ := ih
    obtain ⟨next, hnext, hfollows, hleft⟩ := h.follows hmn here htrial hfinds
    exact ⟨next, hnext, hfollows.trial, hleft⟩

/-- From some moment to another the call has come nearer to its end, or has stayed as it was. -/
theorem nears_or_stays (h : Unhindered profile schedule i m style term value script) {k : Nat}
    (hmn : m ≤ n) (hnk : n ≤ k)
    (here : (after profile schedule n).parties[i]? = some (.calling caller)) :
    (∃ l later, n ≤ l ∧ (after profile schedule l).parties[i]? = some (.calling later) ∧
      later.rank (decisive profile.budget script) < caller.rank (decisive profile.budget script)) ∨
    (after profile schedule k).parties[i]? = some (.calling caller) := by
  induction k, hnk using Nat.le_induction with
  | base => exact .inr here
  | succ k hnk ih =>
    rcases ih with hnears | hstays
    · exact .inl hnears
    · obtain ⟨same, hsame, htrial, hfinds⟩ := h.onTrial (Nat.le_trans hmn hnk)
      obtain rfl : same = caller := Party.calling.inj (Option.some.inj (hsame.symm.trans hstays))
      obtain ⟨next, hnext, ⟨-, hless | ⟨rfl, -⟩⟩, -⟩ :=
        h.follows (Nat.le_trans hmn hnk) hsame htrial hfinds
      · exact .inl ⟨k + 1, next, Nat.le_succ_of_le hnk, hnext, hless⟩
      · exact .inr hnext

/-- The call comes to its end. -/
theorem exists_finished (h : Unhindered profile schedule i m style term value script) :
    ∃ n caller, m ≤ n ∧ (after profile schedule n).parties[i]? = some (.calling caller) ∧
      caller.call.result?.isSome = true := by
  suffices hcomes : ∀ rank n caller, m ≤ n →
      (after profile schedule n).parties[i]? = some (.calling caller) →
      caller.rank (decisive profile.budget script) = rank →
      ∃ n caller, m ≤ n ∧ (after profile schedule n).parties[i]? = some (.calling caller) ∧
        caller.call.result?.isSome = true from
    hcomes _ m _ (Nat.le_refl m) h.made rfl
  intro rank
  induction rank using Nat.strongRecOn with
  | ind rank ih =>
    rintro n caller hmn here rfl
    by_cases hover : caller.call.result?.isSome = true
    · exact ⟨n, caller, hmn, here, hover⟩
    · -- what the call waits for now comes, unless the call has gone on before
      obtain ⟨k, hnk, hstir⟩ := h.running caller.awaits n
      rcases h.nears_or_stays hmn hnk here with ⟨l, later, hnl, hlater, hless⟩ | hstays
      · exact ih _ hless l later (Nat.le_trans hmn hnl) hlater rfl
      · have hmk := Nat.le_trans hmn hnk
        obtain ⟨same, hsame, htrial, hfinds⟩ := h.onTrial hmk
        obtain rfl : same = caller := Party.calling.inj (Option.some.inj (hsame.symm.trans hstays))
        obtain ⟨next, hnext, ⟨-, hless | ⟨-, hawaits⟩⟩, -⟩ := h.follows hmk hsame htrial hfinds
        · exact ih _ hless (k + 1) next (Nat.le_succ_of_le hmk) hnext rfl
        · exact absurd (hawaits hstir) hover

/-- What the call has come to. -/
theorem of_finished (h : Unhindered profile schedule i m style term value script) (hmn : m ≤ n)
    (here : (after profile schedule n).parties[i]? = some (.calling caller))
    (hover : caller.call.result?.isSome = true) :
    caller.checks.length = decisive profile.budget script ∧ caller.term = some term ∧
      ((script (decisive profile.budget script) = .ok .leading ∧
          caller.call = .finished (.ok value)) ∨
        script (decisive profile.budget script) ≠ .ok .leading ∧ ∃ hint, caller.call =
          .finished (.error (.notLeader ⟨Call.leadershipLost, hint, none⟩))) := by
  obtain ⟨same, hsame, htrial, -⟩ := h.onTrial hmn
  obtain rfl : same = caller := Party.calling.inj (Option.some.inj (hsame.symm.trans here))
  exact htrial.of_finished hover

/-- A call that comes to nothing has ended its term, released its delegate and started the next
acquisition before it returns. -/
theorem exists_moments (h : Unhindered profile schedule i m style term value script)
    {failure : NotCurrentLeader} (hmn : m ≤ n)
    (here : (after profile schedule n).parties[i]? = some (.calling caller))
    (hterm : caller.term = some term)
    (hcall : caller.call = .finished (.error (.notLeader failure))) :
    ∃ ends releases starts, m ≤ ends ∧ ends < releases ∧ releases < starts ∧ starts < n ∧
      EndsAt profile schedule i term ends ∧ ReleasesAt profile schedule i term releases ∧
      StartsAt profile schedule i starts := by
  have hlost : caller.call.hasLost = true := by rw [hcall]; rfl
  have hmade : (Caller.make (α := α) style true).call.hasLost = false := by cases style <;> rfl
  -- the call went to end its term when it gave the term up
  obtain ⟨ends, hmends, hendsn, before, next, hbefore, hnext, hfate, hkeeps, hgives⟩ :=
    exists_departure (P := fun other => other.call.hasLost = false) h.made hmade here
      (by simp [hlost]) hmn
  have hgiven : next.call.hasLost = true := by simpa using hgives
  have hnextTerm : next.term = some term := by
    have hpos := Call.stage_of_hasLost hgiven
    exact (term_stays hnext hpos here (by omega)).symm.trans hterm
  obtain ⟨answers, hmove, -⟩ := hfate.lost (devoted_after hbefore)
    (coherent_after profile schedule hbefore).stage hgiven hkeeps hnextTerm
  obtain ⟨same, hsame, htrial, hfinds⟩ := h.onTrial hmends
  obtain rfl : same = before := Party.calling.inj (Option.some.inj (hsame.symm.trans hbefore))
  rw [hmove] at hfate
  have hproceeds : next = (same.proceed profile (after profile schedule ends).toGrounds
      answers).1 := by
    cases hfate with
    | unmoved =>
      rw [hgiven] at hkeeps
      simp at hkeeps
    | proceeds => rfl
  rw [hproceeds] at hgiven
  obtain ⟨hsameTerm, hends⟩ := htrial.eq_ending hfinds hgiven hkeeps
  have hserved := hfinds.served (by simp [hends, Call.stage])
  have hendsAt : EndsAt profile schedule i term ends :=
    ⟨⟨same, none, ⟨hbefore, answers, hmove⟩, hsameTerm, hends⟩, hserved⟩
  -- and then it went on as it has to
  obtain ⟨releases, starts, hreleases, hstarts, hstartsn, hreleasesAt, hrearmsAt⟩ :=
    hendsAt.exists_rearmsAt here (by rw [hcall]; rfl)
  obtain ⟨rearmer, cause, hsteps, hrearm⟩ := hrearmsAt
  obtain ⟨other, hother, -, hotherFinds⟩ := h.onTrial (n := starts) (by omega)
  obtain rfl : other = rearmer := Party.calling.inj (Option.some.inj (hother.symm.trans hsteps.1))
  exact ⟨ends, releases, starts, hmends, hreleases, hstarts, hstartsn, hendsAt, hreleasesAt,
    ⟨other, cause, hsteps, hrearm⟩, hotherFinds.isOpen (by simp [hrearm, Call.stage])⟩

end Unhindered

/-- The delegate of a term whose release was begun was released once. -/
theorem ReleasesAt.released_count {k : Nat} (h : ReleasesAt profile schedule i term k)
    (hkn : k < n) : (after profile schedule n).released.count term.delegate = 1 := by
  have hle : (after profile schedule n).released.count term.delegate ≤ 1 :=
    (sound_after profile schedule n).shared.balanced.released_le_one term.delegate
  have hprefix :
      (after profile schedule (k + 1)).released <+: (after profile schedule n).released :=
    (after_strides profile schedule hkn).shared.released_prefix
  have hmem : term.delegate ∈ (after profile schedule n).released := by
    apply hprefix.subset
    obtain ⟨⟨hgrounds, -, -⟩, -⟩ := h.left
    rw [hgrounds]
    simp
  have hpos := List.count_pos_iff.mpr hmem
  omega

/-- A call that is made on an open proxy that serves a term, whose operation comes to a value, whose
checks are answered by a script and that nothing stands in the way of, comes to its end. By then it
has made as many checks as it takes to settle the matter, or as the budget allows. If the last
answer is that the token is leading, the call returns the value. If it is any other, the call fails
because leadership is lost; it has ended its term, released the delegate and started the next
acquisition, each of them once. A greater budget never turns a success into a failure. -/
theorem quorum_budget (profile : Profile) (schedule : Nat → Move α) (i m : Nat) (style : Style)
    (term : Term) (value : α) (script : Nat → Answer)
    (h : Unhindered profile schedule i m style term value script) :
    (∃ n caller, m ≤ n ∧ (after profile schedule n).parties[i]? = some (.calling caller) ∧
      caller.call.result?.isSome = true) ∧
    (∀ n caller, m ≤ n → (after profile schedule n).parties[i]? = some (.calling caller) →
      caller.call.result?.isSome = true →
        caller.checks.length = decisive profile.budget script ∧
        (script (decisive profile.budget script) = .ok .leading →
          caller.call = .finished (.ok value)) ∧
        (script (decisive profile.budget script) ≠ .ok .leading →
          (∃ hint, caller.call =
            .finished (.error (.notLeader ⟨Call.leadershipLost, hint, none⟩))) ∧
          (after profile schedule n).register.current ≠ some term ∧
          (after profile schedule n).released.count term.delegate = 1 ∧
          ∃ ends releases starts, m ≤ ends ∧ ends < releases ∧ releases < starts ∧ starts < n ∧
            EndsAt profile schedule i term ends ∧ ReleasesAt profile schedule i term releases ∧
            StartsAt profile schedule i starts ∧
            (∀ term' k, SwapsAt profile schedule i term' k → k = ends) ∧
            (∀ term' k, ReleasesAt profile schedule i term' k → k = releases) ∧
            ∀ k, RearmsAt profile schedule i k → k = starts)) ∧
    ∀ (profile' : Profile) (schedule' : Nat → Move α) (i' m' : Nat) (style' : Style)
      (term' : Term) (value' : α), profile.budget ≤ profile'.budget →
      Unhindered profile' schedule' i' m' style' term' value' script →
      ∀ n n' caller caller', m ≤ n → m' ≤ n' →
        (after profile schedule n).parties[i]? = some (.calling caller) →
        caller.call = .finished (.ok value) →
        (after profile' schedule' n').parties[i']? = some (.calling caller') →
        caller'.call.result?.isSome = true → caller'.call = .finished (.ok value') := by
  refine ⟨h.exists_finished, fun n caller hmn here hover => ?_, ?_⟩
  · obtain ⟨hchecks, hterm, ⟨hleading, hcall⟩ | ⟨hstale, hint, hcall⟩⟩ :=
      h.of_finished hmn here hover
    · exact ⟨hchecks, fun _ => hcall, fun hstale => absurd hleading hstale⟩
    · refine ⟨hchecks, fun hleading => absurd hleading hstale, fun _ => ⟨⟨hint, hcall⟩, ?_⟩⟩
      obtain ⟨ends, releases, starts, hmends, hreleases, hstarts, hstartsn, hendsAt, hreleasesAt,
        hstartsAt⟩ := h.exists_moments hmn here hterm hcall
      exact ⟨past_of_hasLost here (by rw [hcall]; rfl) hterm (Nat.le_refl n),
        hreleasesAt.released_count (by omega), ends, releases, starts, hmends, hreleases, hstarts,
        hstartsn, hendsAt, hreleasesAt, hstartsAt, fun _ _ h => (h.unique hendsAt.1).1,
        fun _ _ h => h.unique hreleasesAt, fun _ h => h.unique hstartsAt.1⟩
  · intro profile' schedule' i' m' style' term' value' hbudget h' n n' caller caller' hmn hmn' here
      hcall here' hover'
    have hleading : script (decisive profile.budget script) = .ok .leading := by
      obtain ⟨-, -, ⟨hleading, -⟩ | ⟨-, hint, hother⟩⟩ :=
        h.of_finished hmn here (by rw [hcall]; rfl)
      · exact hleading
      · rw [hcall] at hother
        simp at hother
    obtain ⟨-, -, ⟨-, hcall'⟩ | ⟨hstale, -⟩⟩ := h'.of_finished hmn' here' hover'
    · exact hcall'
    · exact absurd (Validation.leading_of_le hbudget hleading) hstale

/-- All that a blocking call waits for whose checks find no majority. -/
def undecidedRound : List (Move Nat) :=
  [.proceed 1 {}, .undergo 1 .operationBegun, .undergo 1 (.operationOver (.value 7)),
    .undergo 1 (.checkHandedOver none), .undergo 1 .checkBegun,
    .undergo 1 (.checkOver (.value .noQuorum)), .undergo 1 .delayOver,
    .undergo 1 .toldOperation, .undergo 1 .toldChecks]

/-- A proxy gains leadership at once, a call is made, and all that it waits for comes in turn. -/
def undecided (n : Nat) : Move Nat :=
  if n < 9 then .proceed 0 { held := some ⟨1, 3⟩ }
  else if n = 9 then .call .blocking true
  else undecidedRound.getD ((n - 10) % 9) .close

theorem undecided_mem (h : 10 ≤ n) : undecided n ∈ undecidedRound := by
  have hlt : (n - 10) % 9 < undecidedRound.length := Nat.mod_lt _ (by decide)
  rw [undecided, if_neg (by omega), if_neg (by omega), List.getD_eq_getElem?_getD,
    List.getElem?_eq_getElem hlt]
  exact List.getElem_mem hlt

theorem undecided_unhindered :
    Unhindered ⟨"client", "shard", 2⟩ undecided 1 10 .blocking ⟨⟨⟨1, 3⟩, 1⟩, 1⟩ 7
      fun _ => .ok .noQuorum where
  made := rfl
  isOpen := rfl
  served := rfl
  alone n caller hn _ _ hmover := by
    have hall : ∀ move ∈ undecidedRound, move.mover = some 1 := by
      simp [undecidedRound, Move.mover]
    exact absurd (hall _ (undecided_mem hn)) hmover
  accepted n answers hn hmove := by
    have hmem := undecided_mem hn
    rw [hmove] at hmem
    simp [undecidedRound] at hmem
    rw [hmem]
  kept n caller event hn _ hmove := by
    have hmem := undecided_mem hn
    rw [hmove] at hmem
    simp only [undecidedRound, List.mem_cons, List.not_mem_nil, reduceCtorEq, false_or, or_false,
      Move.undergo.injEq, true_and] at hmem
    rcases hmem with rfl | rfl | rfl | rfl | rfl | rfl | rfl | rfl <;> first | rfl | trivial
  running stir n := by
    -- each way comes once in every round
    have hround (k : Nat) (hk : k < 9) :
        undecided (10 + 9 * n + k) = undecidedRound.getD k .close := by
      have hmod : (10 + 9 * n + k - 10) % 9 = k := by omega
      rw [undecided, if_neg (by omega), if_neg (by omega), hmod]
    cases stir with
    | proceeds => exact ⟨10 + 9 * n + 0, by omega, by rw [hround 0 (by omega)]; rfl⟩
    | operationBegun => exact ⟨10 + 9 * n + 1, by omega, by rw [hround 1 (by omega)]; rfl⟩
    | operationOver => exact ⟨10 + 9 * n + 2, by omega, by rw [hround 2 (by omega)]; rfl⟩
    | checkHandedOver => exact ⟨10 + 9 * n + 3, by omega, by rw [hround 3 (by omega)]; rfl⟩
    | checkBegun => exact ⟨10 + 9 * n + 4, by omega, by rw [hround 4 (by omega)]; rfl⟩
    | checkOver => exact ⟨10 + 9 * n + 5, by omega, by rw [hround 5 (by omega)]; rfl⟩
    | delayOver => exact ⟨10 + 9 * n + 6, by omega, by rw [hround 6 (by omega)]; rfl⟩
    | toldOperation => exact ⟨10 + 9 * n + 7, by omega, by rw [hround 7 (by omega)]; rfl⟩
    | toldChecks => exact ⟨10 + 9 * n + 8, by omega, by rw [hround 8 (by omega)]; rfl⟩

/-- Without a majority the call makes both of its checks, and fails. -/
theorem undecided_fails :
    Unhindered ⟨"client", "shard", 2⟩ undecided 1 10 .blocking ⟨⟨⟨1, 3⟩, 1⟩, 1⟩ 7
        (fun _ => .ok .noQuorum) ∧
      ∃ n caller, (after ⟨"client", "shard", 2⟩ undecided n).parties[1]? =
          some (.calling caller) ∧
        caller.checks.length = 2 ∧
        (∃ hint, caller.call =
          .finished (.error (.notLeader ⟨Call.leadershipLost, hint, none⟩))) ∧
        (after ⟨"client", "shard", 2⟩ undecided n).released.count 1 = 1 := by
  obtain ⟨⟨n, caller, hn, here, hover⟩, hcomes, -⟩ :=
    quorum_budget ⟨"client", "shard", 2⟩ undecided 1 10 .blocking ⟨⟨⟨1, 3⟩, 1⟩, 1⟩ 7
      (fun _ => .ok .noQuorum) undecided_unhindered
  obtain ⟨hchecks, -, hstale⟩ := hcomes n caller hn here hover
  obtain ⟨hcall, -, hreleased, -⟩ := hstale (by simp)
  exact ⟨undecided_unhindered, n, caller, here, hchecks, hcall, hreleased⟩

end Proxy

end Tenure
