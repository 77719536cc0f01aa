import Tenure.Proofs.Proxy.StepEffect
import Tenure.Proofs.Proxy.Dispatch
import Tenure.Proofs.Proxy.Reconciliation

/-!
# What an asynchronous call can say for itself

However its executors end, an asynchronous call stands at one of a few points, and each of them
accounts for what it has heard and for what it has done to the proxy: nothing, unless it follows
the law of reconciliation to the end of its term, and then nothing by halves.

## Main definitions

* `Call.Ruling.Follows` — what was heard settles what the call does
* `Dispatch.Undergone` — what a call has done to the proxy at each point of its way
* `Dispatch.Account` — where an asynchronous call can stand

## Main results

* `Call.Ruling.result_of_course` — which of its moments decides what a call comes to
* `Dispatch.Undergone.proceed` — what a call has done is accounted for at each of its steps
-/

namespace Tenure

variable {α : Type}

namespace Call

variable {setting : Setting} {term : Term}

/-! ### What was heard settles the ruling -/

/-- What was heard is the beginning of what the call can hear, and settles what it does, whatever
it has not heard. -/
structure Ruling.Follows (setting : Setting) (heard : List (Half α)) (ruling : Ruling α) :
    Prop where
  begins : ∃ arrival outcome result, heard <+: Arrival.halves arrival setting.style outcome result
  settles : ∀ arrival outcome result,
    heard <+: Arrival.halves arrival setting.style outcome result →
      Ruling.of setting arrival outcome result = ruling

namespace Ruling

/-- An operation that comes to no value settles what the call does. -/
theorem follows_operation {outcome : Outcome α} (async : setting.style = .async)
    (noValue : ∀ value, outcome ≠ .value value) :
    (ofOperation setting.shard outcome).Follows setting [.operation outcome] where
  begins := ⟨.operationFirst, outcome, .error .cancelled, by simp [Arrival.halves]⟩
  settles arrival outcome' result h := by
    cases arrival with
    | operationFirst =>
      obtain rfl : outcome = outcome' := by simpa [Arrival.halves] using h
      cases outcome with
      | value value => exact absurd rfl (noValue value)
      | failure failure | lost => simp [of]
    | checksFirst => simp [Arrival.halves, async] at h

/-- An operation that comes to a value leaves it to the checks. -/
theorem follows_value (async : setting.style = .async) (value : α) (result : Checked) :
    ((ofChecks result).getD (.trusts value)).Follows setting
      [.operation (.value value), .checks result] where
  begins := ⟨.operationFirst, .value value, result, by simp [Arrival.halves]⟩
  settles arrival outcome result' h := by
    cases arrival with
    | operationFirst =>
      obtain ⟨rfl, rfl⟩ : Outcome.value value = outcome ∧ result = result' := by
        simpa [Arrival.halves] using h
      rfl
    | checksFirst => simp [Arrival.halves, async] at h

/-- Checks that do not confirm the token settle what the call does if they come first. -/
theorem follows_checks (async : setting.style = .async) {result : Checked} {ruling : Ruling α}
    (h : ofChecks result = some ruling) : ruling.Follows setting [.checks result] where
  begins := ⟨.checksFirst, .lost, result, by simp [Arrival.halves, async]⟩
  settles arrival outcome result' heard := by
    cases arrival with
    | operationFirst => simp [Arrival.halves] at heard
    | checksFirst =>
      obtain rfl : result = result' := by simpa [Arrival.halves, async] using heard
      cases outcome <;> simp [of, async, h]

/-- Checks that confirm the token leave it to the operation. -/
theorem follows_confirmed (async : setting.style = .async) {result : Checked}
    (h : ofChecks (α := α) result = none) (outcome : Outcome α) :
    (ofOperation setting.shard outcome).Follows setting [.checks result, .operation outcome] where
  begins := ⟨.checksFirst, outcome, result, by simp [Arrival.halves, async]⟩
  settles arrival outcome' result' heard := by
    cases arrival with
    | operationFirst => simp [Arrival.halves] at heard
    | checksFirst =>
      obtain ⟨rfl, rfl⟩ : result = result' ∧ outcome = outcome' := by
        simpa [Arrival.halves, async] using heard
      cases outcome <;> simp [of, async, h]

end Ruling

/-! ### The moment that decides -/

/-- A call that is over stays over. -/
theorem course_of_finished {moments : Nat → Moment} {call : Call α}
    {result : Except CallFailure α} {n : Nat}
    (h : call.course setting moments n = finished result) :
    ∀ {m : Nat}, n ≤ m → call.course setting moments m = finished result := by
  intro m hle
  induction hle with
  | refl => exact h
  | step _ ih => rw [course, ih]; rfl

/-- Where a call comes to depends on the moments of its steps only. -/
theorem course_congr {moments moments' : Nat → Moment} (call : Call α) {n : Nat}
    (same : ∀ k < n, moments k = moments' k) :
    call.course setting moments n = call.course setting moments' n := by
  induction n with
  | zero => rfl
  | succ n ih =>
    rw [course, course, ih fun k lt => same k (Nat.lt_succ_of_lt lt), same n (Nat.lt_succ_self n)]

/-- A call that is over has come to what its ruling says at the last of its moments. -/
theorem Ruling.result_of_course {ruling : Ruling α} {moments : Nat → Moment} {n : Nat}
    {result : Except CallFailure α}
    (h : (ruling.start term).course setting moments n = finished result) :
    ∃ last, result = ruling.result setting.client term moments last ∧ (last < n ∨ n = 0) := by
  rcases ruling.exists_last term setting moments with ⟨failure, rfl⟩ | ⟨last, unfinished, ends⟩
  · have start : ((Ruling.fails failure : Ruling α).start term).course setting moments 0 =
        finished (.error failure) := rfl
    rw [course_of_finished start (Nat.zero_le n)] at h
    obtain rfl : _ = result := finished.inj h
    exact ⟨0, rfl, by omega⟩
  · have lt : last < n := by
      by_contra hle
      rw [course_of_finished h (Nat.le_of_not_lt hle)] at unfinished
      simp [result?] at unfinished
    rw [course_of_finished ends lt] at h
    exact ⟨last, (finished.inj h).symm, .inl lt⟩

end Call

namespace Dispatch

/-! ### What a call has done -/

theorem Effect.between_of_spares {grounds left : Grounds} (h : grounds.Spares left) :
    Effect.between grounds left = [] := by
  unfold between
  rw [h.register, h.released, List.drop_length]
  cases grounds.register.current <;> simp

theorem Effect.of_stage {call next : Call α} {grounds left : Grounds} (before : call.stage ≠ 6)
    (after : next.stage ≠ 6) : Effect.of call next grounds left = between grounds left := by
  cases call with
  | acquiring => exact absurd rfl before
  | _ =>
    cases next with
    | acquiring => exact absurd rfl after
    | _ => rfl

/-- The whole loss of a term: it is taken out of service, its delegate is released, and the next
acquisition is started unless the proxy is closed. -/
def Whole (term : Term) (closed : Bool) (effects : List Effect) : Prop :=
  effects = [.removed term, .released term.delegate, .restarted] ∨
    effects = [.removed term, .released term.delegate] ∧ closed = true

/-- What a call that has taken a term has done to the proxy, by what it does next. -/
def Undergone (term : Term) (closed : Bool) (effects : List Effect) : Call α → Prop
  | .ending _ operation =>
    operation.Ends term ∧ effects = match operation with
      | .release .. => [.removed term]
      | .releasing .. | .done (.ended true) => [.removed term, .released term.delegate]
      | _ => []
  | .rearm _ => effects = [.removed term, .released term.delegate]
  | .acquiring .. => effects = [.removed term, .released term.delegate, .restarted]
  | .apologise .. | .finished _ => effects = [] ∨ Whole term closed effects
  | _ => effects = []

theorem Undergone.start (ruling : Call.Ruling α) (term : Term) (closed : Bool) :
    Undergone term closed [] (ruling.start term) := by
  cases ruling with
  | fails failure => exact .inl rfl
  | loses cause => exact ⟨.begun, rfl⟩
  | suspects failure | trusts value => rfl

theorem Undergone.of_stage {term : Term} {closed : Bool} {effects : List Effect} {call : Call α}
    (h : Undergone term closed effects call) (stage : call.stage = 0) : effects = [] := by
  cases call with
  | ending cause operation => cases operation <;> simp [Call.stage] at stage
  | rearm | acquiring | apologise | finished => simp [Call.stage] at stage
  | _ => exact h

theorem Undergone.of_stage_zero {term : Term} {closed : Bool} {call : Call α}
    (stage : call.stage = 0 ∨ call.stage = 7) : Undergone term closed [] call := by
  cases call with
  | ending cause operation => cases operation <;> simp [Call.stage] at stage
  | rearm | acquiring => simp [Call.stage] at stage
  | apologise | finished => exact .inl rfl
  | _ => rfl

/-- A proxy that is closed stays so. -/
theorem Undergone.mono {term : Term} {closed closed' : Bool} {effects : List Effect}
    {call : Call α} (h : Undergone term closed effects call)
    (mono : closed = true → closed' = true) :
    Undergone term closed' effects call := by
  have whole (h : effects = [] ∨ Whole term closed effects) :
      effects = [] ∨ Whole term closed' effects :=
    h.imp_right (Or.imp_right (And.imp_right mono))
  cases call with
  | apologise | finished => exact whole h
  | _ => exact h

/-- What a call has done is accounted for at each of its steps. -/
theorem Undergone.proceed {term : Term} {effects : List Effect} {call : Call α}
    {setting : Call.Setting} {grounds : Grounds} {answers : Answers}
    (h : Undergone term grounds.register.closed effects call) :
    Undergone term (call.proceed setting grounds answers).2.1.register.closed
      (effects ++ Effect.of call (call.proceed setting grounds answers).1 grounds
        (call.proceed setting grounds answers).2.1)
      (call.proceed setting grounds answers).1 := by
  by_cases hacquiring : call.acquisition? = none
  · have ends : ∀ cause operation, call = .ending cause operation →
        ∃ taken, some term = some taken ∧ operation.Ends taken := by
      rintro cause operation rfl
      exact ⟨term, rfl, h.1⟩
    obtain ⟨effect, -⟩ := call.proceed_stepEffect hacquiring ends setting grounds answers
    generalize (call.proceed setting grounds answers).1 = next at effect ⊢
    generalize (call.proceed setting grounds answers).2.1 = left at effect ⊢
    have nothing := Effect.between_of_spares grounds.spares_self
    cases effect with
    | aside before after =>
      rw [Effect.of_stage (by omega) (by omega), nothing, List.append_nil]
      rcases before with before | before
      · obtain rfl := h.of_stage before
        exact Undergone.of_stage_zero (by omega)
      · have last : next.stage = 7 := by omega
        cases call with
        | apologise | finished =>
          cases next with
          | apologise | finished => exact h
          | ending cause operation => cases operation <;> simp [Call.stage] at last
          | _ => simp [Call.stage] at last
        | ending cause operation => cases operation <;> simp [Call.stage] at before
        | _ => simp [Call.stage] at before
    | ends hasTerm isServed =>
      obtain rfl := Option.some.inj hasTerm
      obtain rfl : effects = [] := h.2
      exact ⟨.owed, by simp [Effect.of, Effect.between, isServed]⟩
    | misses hasTerm notServed =>
      obtain rfl : effects = [] := h.2
      exact ⟨.ended false, by simp [Effect.of, nothing]⟩
    | releases hasTerm =>
      obtain rfl := Option.some.inj hasTerm
      obtain rfl : effects = [.removed term] := h.2
      refine ⟨.returning, ?_⟩
      simp only [Effect.of, Effect.between]
      cases grounds.register.current <;> simp
    | returns spared =>
      refine ⟨.ended true, ?_⟩
      rw [Effect.of_stage (by simp [Call.stage]) (by simp [Call.stage]),
        Effect.between_of_spares spared, List.append_nil]
      exact h.2
    | rearms =>
      rw [Effect.of_stage (by simp [Call.stage]) (by simp [Call.stage]), nothing, List.append_nil]
      exact h.2
    | yields =>
      rw [Effect.of_stage (by simp [Call.stage]) (by simp [Call.stage]), nothing, List.append_nil]
      exact .inl h.2
    | starts isOpen =>
      obtain rfl : effects = [.removed term, .released term.delegate] := h
      simp [Undergone, Effect.of, nothing]
    | desists closed =>
      rw [Effect.of_stage (by simp [Call.stage]) (by simp [Call.stage]), nothing, List.append_nil]
      exact .inr (.inr ⟨h, closed⟩)
  · cases call with
    | acquiring cause acquisition =>
      -- what the acquisition does is none of the call's doing
      have silent : ∀ next : Call α, Effect.of (.acquiring cause acquisition) next grounds
          ((Call.acquiring (α := α) cause acquisition).proceed setting grounds answers).2.1 = [] :=
        fun _ => rfl
      rw [silent, List.append_nil]
      cases acquisition with
      | finished => exact .inr (.inl h)
      | _ => exact h
    | _ => exact absurd rfl hacquiring

/-- A step that adds nothing to what a call has done leaves the proxy as it is. -/
theorem Undergone.spares {term : Term} {closed : Bool} {effects : List Effect} {call : Call α}
    {setting : Call.Setting} {grounds : Grounds} {answers : Answers}
    (h : Undergone term closed effects call) (early : .restarted ∉ effects)
    (nothing : Effect.of call (call.proceed setting grounds answers).1 grounds
      (call.proceed setting grounds answers).2.1 = []) :
    grounds.Spares (call.proceed setting grounds answers).2.1 := by
  by_cases hacquiring : call.acquisition? = none
  · have ends : ∀ cause operation, call = .ending cause operation →
        ∃ taken, some term = some taken ∧ operation.Ends taken := by
      rintro cause operation rfl
      exact ⟨term, rfl, h.1⟩
    obtain ⟨effect, -⟩ := call.proceed_stepEffect hacquiring ends setting grounds answers
    generalize (call.proceed setting grounds answers).1 = next at effect nothing
    generalize (call.proceed setting grounds answers).2.1 = left at effect nothing ⊢
    cases effect with
    | ends hasTerm isServed => simp [Effect.of, Effect.between, isServed] at nothing
    | releases hasTerm => simp [Effect.of, Effect.between] at nothing
    | returns spared => exact spared
    | _ => exact grounds.spares_self
  · cases call with
    | acquiring cause acquisition =>
      obtain rfl : effects = [.removed term, .released term.delegate, .restarted] := h
      simp at early
    | _ => exact absurd rfl hacquiring

/-! ### Where a call can stand -/

/-- The moment of a step that the reconciliation has taken. -/
def momentAt (moments : List Call.Moment) (n : Nat) : Call.Moment := moments.getD n ⟨{}, {}⟩

theorem course_momentAt_concat (setting : Call.Setting) (moments : List Call.Moment)
    (moment : Call.Moment) (call : Call α) :
    call.course setting (momentAt (moments ++ [moment])) (moments.length + 1) =
      ((call.course setting (momentAt moments) moments.length).proceed setting moment.grounds
        moment.answers).1 := by
  have here : momentAt (moments ++ [moment]) moments.length = moment := by simp [momentAt]
  have before : call.course setting (momentAt (moments ++ [moment])) moments.length =
      call.course setting (momentAt moments) moments.length :=
    Call.course_congr call fun k lt => by simp [momentAt, List.getD, List.getElem?_append_left lt]
  rw [Call.course, here, before]

/-- Nothing was heard or done. -/
structure Progress.Fresh (progress : Progress α) : Prop where
  heard : progress.heard = []
  moments : progress.moments = []
  effects : progress.effects = []

/-- A call that looks for a term, or has just taken one. -/
def Progress.Seeks (progress : Progress α) : Prop :=
  match progress.call with
  | .enter | .take | .excuse | .takeAgain _ => progress.term = none
  | .begin term => progress.term = some term
  | _ => False

/-- Where an asynchronous call can stand, given whether its proxy is closed, whether its shard was
told to stop, and what the shard has lost. -/
inductive Account (profile : Profile) (closed stopping : Bool) (lost : List Piece)
    (progress : Progress α) : Prop
  | entering (stage : progress.stage = .entering) (fresh : progress.Fresh) (seeks : progress.Seeks)
  | handing {term : Term} {piece : Piece}
      (stage : progress.stage = .checking piece ∨ progress.stage = .sending piece)
      (ours : piece = .operation ∨ piece = .reconciliation) (fresh : progress.Fresh)
      (call : progress.call = .begin term) (taken : progress.term = some term)
  /-- It has found no term. -/
  | turnedAway {failure : CallFailure} (stage : progress.stage = .returned)
      (fresh : progress.Fresh) (noTerm : progress.term = none)
      (call : progress.call = .finished (.error failure))
      (why : failure = .closed profile.client ∨
        ∃ hint, failure = .notLeader ⟨Call.notLeading, hint, none⟩)
  /-- Its shard takes no more work. -/
  | refused {piece : Piece} (stage : progress.stage = .returned) (fresh : progress.Fresh)
      (mem : piece ∈ progress.refused) (told : stopping = true)
      (call : progress.call = .finished (.error (.executor (.shutDown profile.shard))))
  | underway {term : Term} (stage : progress.stage = .returned) (fresh : progress.Fresh)
      (taken : progress.term = some term) (call : progress.call = .underway term)
  | operated {term : Term} {value : α} (stage : progress.stage = .returned)
      (heard : progress.heard = [.operation (.value value)]) (moments : progress.moments = [])
      (untouched : progress.effects = []) (taken : progress.term = some term)
      (call : progress.call = .operated term value)
  | confirmed {term : Term} {result : Checked} (stage : progress.stage = .returned)
      (heard : progress.heard = [.checks result])
      (confirms : Call.Ruling.ofChecks (α := α) result = none)
      (moments : progress.moments = []) (untouched : progress.effects = [])
      (taken : progress.term = some term) (call : progress.call = .confirmed term)
  /-- Its reconciliation was dropped. -/
  | dropped (stage : progress.stage = .returned) (mem : .reconciliation ∈ lost)
      (untouched : progress.effects = [])
      (call : progress.call = .finished (.error (.executor (.taskLost profile.shard))))
  /-- It does what the law says. -/
  | ruled {term : Term} {ruling : Call.Ruling α} (stage : progress.stage = .returned)
      (taken : progress.term = some term)
      (follows : ruling.Follows (profile.setting .async) progress.heard)
      (call : progress.call = (ruling.start term).course (profile.setting .async)
        (momentAt progress.moments) progress.moments.length)
      (undergone : Undergone term closed progress.effects progress.call)

variable {profile : Profile} {closed stopping : Bool} {lost : List Piece} {progress : Progress α}

/-- A call stands where it stood while others close the proxy, stop the shard or lose work. -/
theorem Account.mono {closed' stopping' : Bool} {lost' : List Piece}
    (h : Account profile closed stopping lost progress) (closing : closed = true → closed' = true)
    (told : stopping = true → stopping' = true) (more : lost ⊆ lost') :
    Account profile closed' stopping' lost' progress := by
  cases h with
  | entering stage fresh seeks => exact .entering stage fresh seeks
  | handing stage ours fresh call taken => exact .handing stage ours fresh call taken
  | turnedAway stage fresh noTerm call why => exact .turnedAway stage fresh noTerm call why
  | refused stage fresh mem stops call => exact .refused stage fresh mem (told stops) call
  | underway stage fresh taken call => exact .underway stage fresh taken call
  | operated stage heard moments untouched taken call =>
    exact .operated stage heard moments untouched taken call
  | confirmed stage heard confirms moments untouched taken call =>
    exact .confirmed stage heard confirms moments untouched taken call
  | dropped stage mem untouched call => exact .dropped stage (more mem) untouched call
  | ruled stage taken follows call undergone =>
    exact .ruled stage taken follows call (undergone.mono closing)

/-- No step of its own makes a call wait. -/
theorem isWaiting_proceed (setting : Call.Setting) (grounds : Grounds) (answers : Answers)
    (call : Call α) : (call.proceed setting grounds answers).1.isWaiting = call.isWaiting := by
  cases call with
  | enter | lookOpen | rearm =>
    cases h : grounds.register.closed <;> simp [Call.proceed, Call.flagRead, h, Call.isWaiting]
  | take | takeAgain =>
    cases h : grounds.register.current <;> simp [Call.proceed, Call.currentRead, h, Call.isWaiting]
  | lookServed | interrupted =>
    simp only [Call.proceed, Call.currentRead]
    split <;> rfl
  | excuse => cases h : answers.hint <;> simp [Call.proceed, Call.hintRead, h, Call.isWaiting]
  | ending cause operation =>
    simp only [Call.proceed]
    split
    · rename_i won _
      cases won <;> rfl
    · rfl
  | acquiring cause acquisition => cases acquisition <;> rfl
  | _ => rfl

/-- A call that does what the law says does not wait for anything. -/
theorem isWaiting_course (setting : Call.Setting) (moments : Nat → Call.Moment)
    (ruling : Call.Ruling α) (term : Term) (n : Nat) :
    ((ruling.start term).course setting moments n).isWaiting = false := by
  induction n with
  | zero => cases ruling <;> rfl
  | succ n ih => rw [Call.course, isWaiting_proceed, ih]

/-- What a call that has heard enough is about to do is what the law says. -/
theorem Account.of_start {term : Term} {ruling : Call.Ruling α}
    (stage : progress.stage = .returned) (taken : progress.term = some term)
    (follows : ruling.Follows (profile.setting .async) progress.heard)
    (moments : progress.moments = []) (untouched : progress.effects = [])
    (call : progress.call = ruling.start term) :
    Account profile closed stopping lost progress := by
  refine .ruled stage taken follows ?_ ?_
  · rw [call, moments]
    rfl
  · rw [call, untouched]
    exact .start ruling term closed

/-- Whether a call awaits one of the halves. -/
def Awaits : Call.Half α → Call α → Prop
  | .operation _, .underway _ | .operation _, .confirmed _ => True
  | .checks _, .underway _ | .checks _, .operated .. => True
  | _, _ => False

theorem Awaits.isWaiting {half : Call.Half α} {call : Call α} (h : Awaits half call) :
    call.isWaiting = true := by
  cases call with
  | underway | operated | confirmed => rfl
  | _ => cases half <;> exact h.elim

/-- What a call that waits has heard. -/
inductive Pending (progress : Progress α) (term : Term) : Prop
  | underway (call : progress.call = .underway term) (heard : progress.heard = [])
  | operated {value : α} (call : progress.call = .operated term value)
      (heard : progress.heard = [.operation (.value value)])
  | confirmed {result : Checked} (call : progress.call = .confirmed term)
      (heard : progress.heard = [.checks result])
      (confirms : Call.Ruling.ofChecks (α := α) result = none)

/-- A call that waits has done nothing yet. -/
theorem Account.pending (h : Account profile closed stopping lost progress)
    (waiting : progress.call.isWaiting = true) :
    ∃ term, progress.term = some term ∧ progress.stage = .returned ∧ progress.moments = [] ∧
      progress.effects = [] ∧ Pending progress term := by
  cases h with
  | underway stage fresh taken call =>
    exact ⟨_, taken, stage, fresh.moments, fresh.effects, .underway call fresh.heard⟩
  | operated stage heard moments untouched taken call =>
    exact ⟨_, taken, stage, moments, untouched, .operated call heard⟩
  | confirmed stage heard confirms moments untouched taken call =>
    exact ⟨_, taken, stage, moments, untouched, .confirmed call heard confirms⟩
  | ruled stage taken follows call undergone =>
    rw [call, isWaiting_course] at waiting
    cases waiting
  | entering stage fresh seeks =>
    unfold Progress.Seeks at seeks
    cases call : progress.call <;> simp_all [Call.isWaiting]
  | handing stage ours fresh call | turnedAway stage fresh noTerm call
  | refused stage fresh mem told call | dropped stage mem untouched call =>
    rw [call] at waiting
    cases waiting

/-- A call that hears of one half waits for the other, or does what the law says. -/
theorem Account.hear (h : Account profile closed stopping lost progress) {half : Call.Half α}
    (awaits : Awaits half progress.call) :
    Account profile closed stopping lost
      { progress with
        call := (progress.call.hear (profile.setting .async) half).1
        heard := progress.heard ++ [half] } := by
  obtain ⟨term, taken, stage, moments, untouched, pending⟩ := h.pending awaits.isWaiting
  cases pending with
  | underway call heard =>
    rw [call, heard]
    cases half with
    | operation outcome =>
      have told := Call.hear_operation (profile.setting .async) term outcome
      cases outcome with
      | value value => exact .operated stage rfl moments untouched taken told
      | failure failure | lost =>
        exact .of_start stage taken (Call.Ruling.follows_operation rfl nofun) moments untouched
          told
    | checks result =>
      have told := Call.weigh_eq (profile.setting .async) term result (.confirmed (α := α) term)
      cases rules : Call.Ruling.ofChecks (α := α) result with
      | none =>
        rw [rules] at told
        exact .confirmed stage rfl rules moments untouched taken told
      | some ruling =>
        rw [rules] at told
        exact .of_start stage taken (Call.Ruling.follows_checks rfl rules) moments untouched told
  | @operated value call heard =>
    rw [call] at awaits
    rw [call, heard]
    cases half with
    | operation outcome => exact awaits.elim
    | checks result =>
      have told := Call.weigh_eq (profile.setting .async) term result (.lookOpen term value)
      refine .of_start stage taken (Call.Ruling.follows_value rfl value result) moments untouched
        (told.trans ?_)
      cases Call.Ruling.ofChecks (α := α) result <;> rfl
  | confirmed call heard confirms =>
    rw [call] at awaits
    rw [call, heard]
    cases half with
    | operation outcome =>
      exact .of_start stage taken (Call.Ruling.follows_confirmed rfl confirms outcome) moments
        untouched (Call.confirmed_operation (profile.setting .async) term outcome)
    | checks result => exact awaits.elim

/-- A call that does not wait goes on without its reconciliation. -/
theorem forsake_of_idle {call : Call α} (idle : call.isWaiting = false)
    (failure : ExecutorFailure) : forsake failure call = call := by
  cases call with
  | underway | operated | confirmed => cases idle
  | _ => rfl

/-- A call whose reconciliation is dropped is over, unless it did not wait. -/
theorem Account.forsake {lost' : List Piece} (h : Account profile closed stopping lost progress)
    (mem : .reconciliation ∈ lost') (more : lost ⊆ lost') :
    Account profile closed stopping lost'
      { progress with call := forsake (.taskLost profile.shard) progress.call } := by
  cases waiting : progress.call.isWaiting with
  | true =>
    obtain ⟨term, -, stage, -, untouched, pending⟩ := h.pending waiting
    refine .dropped stage mem untouched ?_
    cases pending with
    | underway call | operated call | confirmed call => exact congrArg (Dispatch.forsake _) call
  | false =>
    rw [forsake_of_idle waiting]
    exact h.mono id id more

/-- A step of the reconciliation follows the law. -/
theorem Account.proceed {grounds : Grounds} {answers : Answers}
    (h : Account profile grounds.register.closed stopping lost progress)
    (stage : progress.stage = .returned) (busy : progress.call.isWaiting = false)
    (unfinished : progress.call.result? = none) :
    let became := progress.call.proceed (profile.setting .async) grounds answers
    Account profile became.2.1.register.closed stopping lost
      { progress with
        call := became.1
        moments := progress.moments ++ [⟨grounds, answers⟩]
        effects := progress.effects ++ Effect.of progress.call became.1 grounds became.2.1
        queued := progress.queued ++ became.2.2.toList } := by
  intro became
  cases h with
  | ruled _ taken follows call undergone =>
    refine .ruled stage taken follows ?_ undergone.proceed
    rw [List.length_append, List.length_singleton, course_momentAt_concat, ← call]
  | entering before | handing before => simp_all
  | turnedAway _ _ _ call | refused _ _ _ _ call | dropped _ _ _ call =>
    simp [call, Call.result?] at unfinished
  | underway _ _ _ call | operated _ _ _ _ _ call | confirmed _ _ _ _ _ _ call =>
    simp [call, Call.isWaiting] at busy

end Dispatch

end Tenure
