import Tenure.Proofs.Election.Past

/-!
# Checks are answered truthfully

What a check of a token is told depends on what has been done to the election by the time the check
is finished, and on nothing else: the answer in force, or else whether the token is the very one
that is held. The number on a token says nothing, and a token that is not held any more is never
held again. Checks are counted as they begin, and leave no other trace.

## Main definitions

* `Step.isCheck` — what has to do with checks
* `Watch.unchecked` — an election as though there had been no checks

## Main results

* `unchecked_since` — an election without its checks has the history without them
* `checks_are_truthful` — what checks are told, and what they change
-/

namespace Tenure.ElectionWatch

variable {ι : Type}

/-- What is done has to do with checks only. -/
def Step.isCheck : Step ι → Bool
  | .check _ | .beginCheck _ _ | .finishCheck _ => true
  | _ => false

/-- The history without the checks. -/
def unchecked (past : List (Step ι)) : List (Step ι) := past.filter fun step => !step.isCheck

/-- The watch as though no check had been begun. -/
def Watch.unchecked (watch : Watch ι) : Watch ι :=
  { watch with election := { watch.election with checks := 0 }, openChecks := [] }

section

variable {past : List (Step ι)} {token : Token}

/-- With no answer in force, the token that is held leads and no other. -/
theorem verdict_eq_leading_iff (free : inForce past = none) :
    verdict past token = .leading ↔ incumbent past = some token := by
  simp [verdict, free]

theorem verdict_eq_notLeading (free : inForce past = none) (lapsed : incumbent past ≠ some token) :
    verdict past token = .notLeading := by
  simp [verdict, free, lapsed]

end

variable [DecidableEq ι]

/-- Checks count themselves and are open for a while, and nothing else comes of them. -/
theorem Watch.step_of_isCheck (watch : Watch ι) {step : Step ι} (isCheck : step.isCheck = true) :
    (watch.step step).2 = { watch with
      election := { watch.election with checks := (watch.step step).2.election.checks }
      openChecks := (watch.step step).2.openChecks } := by
  cases step with
  | check place =>
    rw [Watch.step]
    cases watch.tokens[place]? <;> rfl
  | beginCheck id place =>
    rw [Watch.step]
    cases watch.tokens[place]? with
    | none => rfl
    | some token =>
      dsimp only
      split <;> rfl
  | finishCheck id =>
    rw [Watch.step]
    cases watch.openChecks.lookup id <;> rfl
  | _ => simp [Step.isCheck] at isCheck

/-- Nothing else that is done has to do with the checks there have been. -/
theorem Watch.step_unchecked (watch : Watch ι) {step : Step ι} (isCheck : step.isCheck = false) :
    watch.unchecked.step step = ((watch.step step).1, (watch.step step).2.unchecked) := by
  cases step with
  | lookAtWait id =>
    obtain ⟨⟨mint, granted, held, forced, hint, checks, waits⟩, delayed, tokens, openChecks,
      openWaits⟩ := watch
    simp only [Watch.step, Watch.lookAtWait, Watch.unchecked]
    cases openWaits.lookup id with
    | none => rfl
    | some begun => cases begun <;> cases held <;> rfl
  | check | beginCheck | finishCheck => simp [Step.isCheck] at isCheck
  | _ => rfl

/-- An election without its checks is as it would be without them. -/
theorem unchecked_since (delayed : Bool) (past : List (Step ι)) :
    (since delayed past).unchecked = since delayed (unchecked past) := by
  induction past with
  | nil => rfl
  | cons step past ih =>
    rw [unchecked]
    -- a check is left out of the history, and of the watch what it has counted and opened
    cases isCheck : step.isCheck with
    | true =>
      rw [List.filter_cons_of_neg (by simp [isCheck]), ← unchecked, ← ih, since,
        Watch.step_of_isCheck _ isCheck]
      rfl
    | false =>
      rw [List.filter_cons_of_pos (by simp [isCheck]), ← unchecked, since, since, ← ih,
        Watch.step_unchecked _ isCheck]

/-- What is done answers the same without the checks there have been. -/
theorem answer_unchecked (delayed : Bool) (past : List (Step ι)) {step : Step ι}
    (isCheck : step.isCheck = false) :
    answer delayed (unchecked past) step = answer delayed past step := by
  rw [answer, ← unchecked_since, Watch.step_unchecked _ isCheck]
  rfl

/-- A local election answers truthfully, after any history and whether checks have to travel or
not. The term that is granted next has the next number, and its token is another one than all that
were struck before, no two of which are the same; it is held until a term is granted or revoked. A
check is told what is true of its token when it ends, which is at once unless it has to travel, and
then when it is finished, whatever has been done since it was begun. With no answer in force, no
more than one token leads. A token that was struck and is not held, be it superseded or revoked,
does not lead ever after, nor does one that was forged, whatever its number. Every check that begins
is counted once, and nothing else that is ever answered depends on checks. -/
theorem checks_are_truthful (delayed : Bool) (past : List (Step ι)) :
    let watch := since delayed past
    ((∃ token, answer delayed past .grant = .token token ∧ token.term = grants past + 1 ∧
        ∀ other ∈ watch.tokens, other.serial ≠ token.serial) ∧
      (watch.tokens.map Token.serial).Nodup) ∧
    (∀ token, incumbent past = some token ↔ ∃ later earlier, past = later ++ .grant :: earlier ∧
      (∀ step ∈ later, step ≠ .grant ∧ step ≠ .revoke) ∧
      answer delayed earlier .grant = .token token) ∧
    (∀ place token, watch.tokens[place]? = some token →
      answer delayed past (.check place) = .status (verdict past token) ∧
      ∀ id, answer delayed past (.beginCheck id place) =
        if delayed = true then .pending else .status (verdict past token)) ∧
    (∀ id place token between earlier, past = between ++ .beginCheck id place :: earlier →
      (since delayed earlier).tokens[place]? = some token →
      (∀ step ∈ between, step ≠ .finishCheck id ∧ ∀ other, step ≠ .beginCheck id other) →
      answer delayed past (.finishCheck id) =
        if delayed = true then .status (verdict past token) else .unknown) ∧
    (inForce past = none → ∀ token other,
      verdict past token = .leading → verdict past other = .leading → token = other) ∧
    (∀ token ∈ watch.tokens, incumbent past ≠ some token →
      ∀ later, inForce (later ++ past) = none → verdict (later ++ past) token = .notLeading) ∧
    (∀ term token, answer delayed past (.forge term) = .token token →
      ∀ later, inForce (later ++ .forge term :: past) = none →
        verdict (later ++ .forge term :: past) token = .notLeading) ∧
    watch.election.checks = checksBegun past ∧
    ∀ step : Step ι,
      (step.isCheck = true → (watch.step step).2 = { watch with
        election := { watch.election with checks := (watch.step step).2.election.checks }
        openChecks := (watch.step step).2.openChecks }) ∧
      (step.isCheck = false →
        answer delayed past step = answer delayed (unchecked past) step) := by
  intro watch
  have agrees := agrees_since delayed past
  have tokens : watch.tokens = minted past := agrees.tokens
  refine ⟨⟨⟨_, answer_grant delayed past, rfl, fun other mem => ?_⟩, ?_⟩, fun token => ?_,
    fun place token here => ?_, fun id place token between earlier past_eq here untouched => ?_,
    fun free token other leads leads' => ?_, fun token mem lapsed later free => ?_,
    fun term token struck later free => ?_, agrees.checks,
    fun step =>
      ⟨watch.step_of_isCheck, fun isCheck => (answer_unchecked delayed past isCheck).symm⟩⟩
  · rw [tokens] at mem
    exact Nat.ne_of_lt (serial_lt mem)
  · rw [tokens, serials_minted]
    exact List.nodup_range
  · rw [incumbent_eq_some_iff]
    simp only [answer_grant, Reply.token.injEq, eq_comm (a := token)]
  · rw [tokens] at here
    exact ⟨answer_check here, answer_beginCheck here⟩
  · -- the check is still open, and its token the one that was in its place when it was begun
    rw [(agrees_since delayed earlier).tokens] at here
    have begun : checkOf id past = some token := by
      rw [past_eq, checkOf_append untouched, checkOf, if_pos rfl, here]
      rfl
    rw [answer_finishCheck, begun]
    cases delayed <;> rfl
  · rw [verdict_eq_leading_iff free] at leads leads'
    exact Option.some.inj (leads.symm.trans leads')
  · rw [tokens] at mem
    exact verdict_eq_notLeading free (incumbent_ne_of_ne mem lapsed later)
  · obtain rfl := Reply.token.inj ((answer_forge delayed past term).symm.trans struck)
    refine verdict_eq_notLeading free (incumbent_ne_of_ne ?_ ?_ later)
    · exact List.mem_append_right _ List.mem_cons_self
    · -- the token that is held was struck before
      intro held
      have before : _ ∈ minted past := mem_of_incumbent held
      exact absurd (serial_lt before) (Nat.lt_irrefl _)

/-- A check is begun while its token is held, and finished when the term has been revoked and
another one granted; a token of the same number is forged meanwhile. -/
example :
    let past : List (Step String) := [.grant, .revoke, .forge 1, .beginCheck "slow" 0, .grant]
    answer true past (.finishCheck "slow") = .status .notLeading ∧
      answer true past (.check 1) = .status .notLeading ∧
      answer true past (.check 2) = .status .leading := by
  decide

end Tenure.ElectionWatch
