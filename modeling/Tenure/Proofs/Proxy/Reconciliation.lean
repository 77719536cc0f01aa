import Tenure.Proofs.Proxy.Caller
import Tenure.Proofs.Term.Kind
import Tenure.Proxy.Party
import Tenure.Term.Course

/-!
# One law of reconciliation

A call that is under way hears two things, what its operation and what its checks have come to. A
blocking call looks at its checks after its operation; an asynchronous call takes whichever comes
first. What the call then does is settled by one law, in which the style and the arrival matter
only where the operation does not come to a value.

From there on the call takes its own steps, between which others may do anything to the proxy. It
is followed through a sequence of moments, each with the grounds that the call finds and the
answers that it gets at one of its steps.

## Main definitions

* `Call.Ruling`, `Call.Ruling.of` — what a call does that has heard both halves, and the law
* `Call.Ruling.result` — what it then comes to

## Main results

* `Call.hearAll_eq` — what a call has heard brings it where the law says
* `Call.reconciliation_is_one_law` — what it then comes to, and what it does to the proxy
-/

namespace Tenure

/-! ### Acquisitions that stay with their caller -/

namespace Acquisition

/-- Whether an acquisition is at a point that it can come to on the thread of its caller. -/
def isWithCaller : Acquisition → Bool
  | enter | ask | handOver .. | refused _ | finished => true
  | build .caller .. | building .caller .. => true
  | publishing operation => decide (operation.kind = .publication)
  | _ => false

/-- How much is left of an acquisition on the thread of its caller. -/
def remainder : Acquisition → Nat
  | enter => 16
  | ask => 15
  | build .. => 14
  | building .. => 13
  | publishing operation => operation.weight + 1
  | handOver .. => 2
  | refused _ => 1
  | _ => 0

/-- An acquisition stays with its caller until it is finished there, whatever it is answered. -/
theorem remainder_proceed_lt {acquisition : Acquisition} (h : acquisition.isWithCaller = true)
    (hne : acquisition ≠ finished) (client : String) (grounds : Grounds) (answers : Answers) :
    (acquisition.proceed client grounds answers).1.isWithCaller = true ∧
      (acquisition.proceed client grounds answers).1.remainder < acquisition.remainder := by
  cases acquisition with
  | enter =>
    cases hc : grounds.register.closed <;> simp [proceed, flagRead, hc, isWithCaller, remainder]
  | ask => cases hh : answers.held <;> simp [proceed, held, hh, isWithCaller, remainder]
  | handOver known failures =>
    cases hr : refusal client grounds.stopped <;>
      simp [proceed, handedOver, hr, isWithCaller, remainder]
  | refused failure => simp [proceed, flagRead, isWithCaller, remainder]
  | build site token failures =>
    cases site with
    | caller => simp [proceed, begun, isWithCaller, remainder]
    | own => simp [isWithCaller] at h
  | building site token failures =>
    cases site with
    | caller =>
      cases hc : answers.construction <;>
        simp [proceed, Grounds.construct, built, hc, isWithCaller, remainder, Operation.kind,
          Operation.weight]
    | own => simp [isWithCaller] at h
  | publishing operation =>
    have hkind : operation.kind = .publication := by simpa [isWithCaller] using h
    cases hstanding : operation.standing with
    | finished outcome =>
      obtain rfl : operation = .done outcome := by
        cases operation <;> simp_all [Operation.standing]
      cases outcome with
      | published term => simp [proceed, Operation.standing, published, isWithCaller, remainder]
      | _ => simp [Operation.kind, Operation.Outcome.kind] at hkind
    | waits holding sequel =>
      have hnext := (operation.proceed_advance grounds.toLedger answers.release).kind
      have hback := Operation.proceed_of_waits grounds.toLedger answers.release hstanding
      have hweight := Operation.weight_of_waits hstanding
      simp only [proceed, hstanding, isWithCaller, remainder, hnext, hkind, decide_true, hback.1]
      exact ⟨trivial, by omega⟩
    | moves =>
      have hnext := (operation.proceed_advance grounds.toLedger answers.release).kind
      have hmoves := Operation.proceed_of_moves grounds.toLedger answers.release hstanding
      simp only [proceed, hstanding, isWithCaller, remainder, hnext, hkind, decide_true]
      exact ⟨trivial, by omega⟩
  | finished => exact absurd rfl hne
  | _ => simp [isWithCaller] at h

end Acquisition

namespace Call

variable {α : Type}

/-! ### The law -/

/-- What a call does that has heard both. -/
inductive Ruling (α : Type)
  /-- It fails at once. -/
  | fails (failure : CallFailure)
  /-- It ends its term. -/
  | loses (cause : Option String)
  /-- It passes the failure on, unless its term has changed. -/
  | suspects (failure : DelegateFailure)
  /-- It passes the value on, unless the proxy is closed or its term has changed. -/
  | trusts (value : α)

namespace Ruling

/-- What a call does that does not rely on its term any more; one whose token is confirmed does. -/
def ofChecks : Checked → Option (Ruling α)
  | .ok .leading => none
  | .ok .notLeading | .ok .noQuorum | .error (.attempt _) => some (.loses none)
  | .error (.executor failure) => some (.fails (.executor failure))
  | .error .cancelled => some (.fails (.executor (.taskLost checkName)))

/-- What a call does that relies on its term. -/
def ofOperation (shard : String) : Outcome α → Ruling α
  | .value value => .trusts value
  | .failure failure =>
    match failure.kind with
    | .notLeading => .loses (some failure.message)
    | .interrupted => .suspects failure
    | .other => .fails (.delegate failure)
  | .lost => .fails (.executor (.taskLost shard))

/-- The law. The checks decide if the operation has come to a value, and otherwise only in an
asynchronous call in which they come first. -/
def «of» (setting : Setting) (arrival : Arrival) (outcome : Outcome α) (result : Checked) :
    Ruling α :=
  match outcome, arrival, setting.style with
  | .value _, _, _ | _, .checksFirst, .async =>
    (ofChecks result).getD (ofOperation setting.shard outcome)
  | _, _, _ => ofOperation setting.shard outcome

/-- The call that is about to do so. -/
def start (term : Term) : Ruling α → Call α
  | fails failure => finished (.error failure)
  | loses cause => ending cause (.invalidate term)
  | suspects failure => interrupted term failure
  | trusts value => lookOpen term value

end Ruling

theorem weigh_eq (setting : Setting) (term : Term) (result : Checked) (confirmed : Call α) :
    (weigh setting term result confirmed).1 =
      ((Ruling.ofChecks result).map (Ruling.start term)).getD confirmed := by
  match result with
  | .ok .leading | .ok .notLeading | .ok .noQuorum => rfl
  | .error (.attempt failure) => rfl
  | .error (.executor failure) => rfl
  | .error .cancelled => rfl

/-- What is reported of checks does not depend on how the call goes on. -/
theorem weigh_notices (setting : Setting) (term : Term) (result : Checked)
    (confirmed confirmed' : Call α) :
    (weigh setting term result confirmed).2 = (weigh setting term result confirmed').2 := by
  match result with
  | .ok .leading | .ok .notLeading | .ok .noQuorum => rfl
  | .error (.attempt failure) => rfl
  | .error (.executor failure) => rfl
  | .error .cancelled => rfl

theorem handle_eq (setting : Setting) (term : Term) (failure : DelegateFailure) :
    (handle (α := α) setting term failure).1 =
      (Ruling.ofOperation setting.shard (.failure failure)).start term := by
  simp only [handle, Ruling.ofOperation]
  cases failure.kind <;> rfl

/-- A call that has settled what it does hears nothing more. -/
theorem hear_start (setting : Setting) (term : Term) (ruling : Ruling α) (half : Half α) :
    (ruling.start term).hear setting half = (ruling.start term, []) := by
  cases ruling <;> cases half <;> rfl

/-- A call that hears first of its operation. -/
theorem hear_operation (setting : Setting) (term : Term) (outcome : Outcome α) :
    ((underway term).hear setting (.operation outcome)).1 =
      match outcome with
      | .value value => operated term value
      | outcome => (Ruling.ofOperation setting.shard outcome).start term := by
  cases outcome with
  | failure failure => exact handle_eq setting term failure
  | _ => rfl

/-- A call whose token is confirmed hears of its operation. -/
theorem confirmed_operation (setting : Setting) (term : Term) (outcome : Outcome α) :
    ((confirmed term).hear setting (.operation outcome)).1 =
      (Ruling.ofOperation setting.shard outcome).start term := by
  cases outcome with
  | failure failure => exact handle_eq setting term failure
  | _ => rfl

/-- What a call has heard brings it where the law says. -/
theorem hearAll_eq (setting : Setting) (arrival : Arrival) (term : Term) (outcome : Outcome α)
    (result : Checked) :
    ((underway term).hearAll setting (arrival.halves setting.style outcome result)).1 =
      (Ruling.of setting arrival outcome result).start term := by
  -- a value awaits the checks, and all else is settled as soon as it is heard
  have hoperation : ((underway term).hearAll setting [.operation outcome, .checks result]).1 =
      (Ruling.of setting .operationFirst outcome result).start term := by
    cases outcome with
    | value value =>
      change (weigh setting term result (lookOpen term value)).1 = _
      rw [weigh_eq]
      simp only [Ruling.of, Ruling.ofOperation]
      cases Ruling.ofChecks (α := α) result <;> rfl
    | failure failure =>
      have hfirst := hear_operation setting term (.failure failure : Outcome α)
      simp only [hearAll, hfirst, hear_start]
      rfl
    | lost => rfl
  cases arrival with
  | operationFirst => exact hoperation
  | checksFirst =>
    obtain ⟨client, shard, style⟩ := setting
    cases style with
    | blocking =>
      -- a blocking call does not look at its checks while its operation runs
      have hskip : (underway term).hearAll ⟨client, shard, .blocking⟩
          [.checks result, .operation outcome, .checks result] =
            (underway term).hearAll ⟨client, shard, .blocking⟩
              [.operation outcome, .checks result] := rfl
      rw [Arrival.halves, hskip, hoperation]
      cases outcome <;> rfl
    | async =>
      have hfirst := weigh_eq ⟨client, shard, .async⟩ term result (confirmed (α := α) term)
      change ((weigh ⟨client, shard, .async⟩ term result (confirmed term)).1.hear
        ⟨client, shard, .async⟩ (.operation outcome)).1 = _
      rw [hfirst]
      have hof : Ruling.of ⟨client, shard, .async⟩ .checksFirst outcome result =
          (Ruling.ofChecks result).getD (Ruling.ofOperation shard outcome) := by
        cases outcome <;> rfl
      rw [hof]
      cases Ruling.ofChecks (α := α) result with
      | none => exact confirmed_operation ⟨client, shard, .async⟩ term outcome
      | some ruling => exact congrArg Prod.fst (hear_start _ term ruling _)

/-- Of an operation that comes to a value, and its checks, the call reports the same in either
style and in either order. -/
theorem hearAll_value (profile : Profile) (arrival : Arrival) (style : Style) (term : Term)
    (value : α) (result : Checked) :
    (underway term).hearAll (profile.setting style)
        (arrival.halves style (.value value) result) =
      weigh (profile.setting .blocking) term result (lookOpen term value) := by
  have hweigh (confirmed : Call α) :
      weigh (profile.setting .async) term result confirmed =
        weigh (profile.setting .blocking) term result confirmed := rfl
  have hone (told : Call α × List Notice) : (told.1, told.2 ++ []) = told := by
    rw [List.append_nil]
  cases arrival with
  | operationFirst => cases style <;> exact hone _
  | checksFirst =>
    cases style with
    | blocking => exact hone _
    | async =>
      refine Prod.ext ?_ ?_
      · have hlaw := hearAll_eq (profile.setting .async) .checksFirst term (.value value) result
        have hlaw' := hearAll_eq (profile.setting .blocking) .operationFirst term (.value value)
          result
        exact hlaw.trans (hlaw'.symm.trans (congrArg Prod.fst (hone _)))
      · -- the value is heard of silently, or not at all
        have hsilent (call : Call α) (hc : call = confirmed term ∨
            ∃ ruling : Ruling α, call = ruling.start term) :
            (call.hear (profile.setting .async) (.operation (.value value))).2 = [] := by
          rcases hc with rfl | ⟨ruling, rfl⟩
          · rfl
          · rw [hear_start]
        have hcall : (weigh (profile.setting .async) term result (confirmed (α := α) term)).1 =
            confirmed term ∨ ∃ ruling : Ruling α,
              (weigh (profile.setting .async) term result (confirmed term)).1 =
                ruling.start term := by
          rw [weigh_eq]
          cases Ruling.ofChecks (α := α) result with
          | none => exact .inl rfl
          | some ruling => exact .inr ⟨ruling, rfl⟩
        change (weigh (profile.setting .async) term result (confirmed (α := α) term)).2 ++
          (((weigh (profile.setting .async) term result (confirmed term)).1.hear
            (profile.setting .async) (.operation (.value value))).2 ++ []) = _
        rw [hsilent _ hcall, List.append_nil, List.append_nil, hweigh]
        exact weigh_notices _ term result _ _

/-! ### Through the moments -/

/-- What a call comes to with a ruling, at the last of its moments. -/
def Ruling.result (client : String) (term : Term) (moments : Nat → Moment) (last : Nat) :
    Ruling α → Except CallFailure α
  | fails failure => .error failure
  | loses cause => .error (.notLeader ⟨leadershipLost, (moments last).answers.hint, cause⟩)
  | suspects failure =>
    if (moments 0).grounds.register.current = some term then .error (.delegate failure)
    else .error (.notLeader
      ⟨interruptedByElection, (moments last).answers.hint, some failure.message⟩)
  | trusts value =>
    if (moments 0).grounds.register.closed then .error (.closed client)
    else if (moments 1).grounds.register.current = some term then .ok value
    else .error (.notLeader ⟨termChanged, (moments last).answers.hint, none⟩)

variable {setting : Setting} {moments : Nat → Moment} {term : Term} {call : Call α}
  {cause : Option String}

/-- Following a call may begin one step later. -/
theorem course_succ (setting : Setting) (moments : Nat → Moment) (call : Call α) (n : Nat) :
    call.course setting moments (n + 1) =
      (call.proceed setting (moments 0).grounds (moments 0).answers).1.course setting
        (fun k => moments (k + 1)) n := by
  induction n with
  | zero => rfl
  | succ n ih => rw [course, ih, course]

/-- The steps of a call do not depend on its style. -/
theorem proceed_style (profile : Profile) (style style' : Style) (call : Call α)
    (grounds : Grounds) (answers : Answers) :
    call.proceed (profile.setting style) grounds answers =
      call.proceed (profile.setting style') grounds answers := by
  cases call <;> rfl

theorem course_style (profile : Profile) (style style' : Style) (moments : Nat → Moment)
    (call : Call α) (n : Nat) :
    call.course (profile.setting style) moments n =
      call.course (profile.setting style') moments n := by
  induction n with
  | zero => rfl
  | succ n ih => rw [course, course, ih, proceed_style profile style style']

theorem isBystander_course (h : call.isBystander = true) (setting : Setting)
    (moments : Nat → Moment) (n : Nat) :
    (call.course setting moments n).isBystander = true := by
  induction n with
  | zero => exact h
  | succ n ih => exact (isBystander_proceed ih setting _ _).1

theorem leaves_of_isBystander (h : call.isBystander = true) (setting : Setting)
    (moments : Nat → Moment) (n : Nat) :
    call.leaves setting moments n = ((moments n).grounds, none) :=
  (isBystander_proceed (isBystander_course h setting moments n) setting _ _).2

/-! ### Calls that have lost their term -/

/-- A call that is through with its term for some cause, and has yet to say so. -/
def Losing (cause : Option String) : Call α → Prop
  | ending why operation => why = cause ∧ operation.kind = .ending
  | rearm why => why = cause
  | acquiring why acquisition => why = cause ∧ acquisition.isWithCaller = true
  | _ => False

/-- How much such a call has left to do. -/
def burden : Call α → Nat
  | ending _ operation => operation.weight + 20
  | rearm _ => 19
  | acquiring _ acquisition => acquisition.remainder + 1
  | _ => 0

/-- A call that is through with its term has less and less to do, and then says so. -/
theorem Losing.proceed (h : call.Losing cause) (setting : Setting) (grounds : Grounds)
    (answers : Answers) :
    (call.proceed setting grounds answers).1 = apologise leadershipLost cause ∨
      (call.proceed setting grounds answers).1.Losing cause ∧
        (call.proceed setting grounds answers).1.burden < call.burden := by
  cases call with
  | ending why operation =>
    obtain ⟨rfl, hkind⟩ := h
    have hnext := (operation.proceed_advance grounds.toLedger answers.release).kind
    cases hstanding : operation.standing with
    | finished outcome =>
      obtain rfl : operation = .done outcome := by
        cases operation <;> simp_all [Operation.standing]
      cases outcome with
      | ended won =>
        cases won with
        | false => exact .inl rfl
        | true => exact .inr ⟨rfl, by simp [Call.proceed, Operation.standing, ended, burden]⟩
      | _ => simp [Operation.kind, Operation.Outcome.kind] at hkind
    | waits holding sequel =>
      right
      have hback := Operation.proceed_of_waits grounds.toLedger answers.release hstanding
      have hweight := Operation.weight_of_waits hstanding
      simp only [Call.proceed, hstanding, Losing, burden, hback.1]
      exact ⟨⟨trivial, hnext.trans hkind⟩, by omega⟩
    | moves =>
      right
      have hmoves := Operation.proceed_of_moves grounds.toLedger answers.release hstanding
      simp only [Call.proceed, hstanding, Losing, burden]
      exact ⟨⟨trivial, hnext.trans hkind⟩, by omega⟩
  | rearm why =>
    obtain rfl : why = cause := h
    cases hc : grounds.register.closed with
    | true => exact .inl (by simp [Call.proceed, flagRead, hc])
    | false =>
      refine .inr ?_
      simp [Call.proceed, flagRead, hc, Losing, burden, Acquisition.isWithCaller,
        Acquisition.remainder]
  | acquiring why acquisition =>
    obtain ⟨rfl, hwith⟩ := h
    by_cases hfinished : acquisition = .finished
    · subst hfinished
      exact .inl rfl
    · right
      obtain ⟨hstays, hless⟩ := Acquisition.remainder_proceed_lt hwith hfinished setting.client
        grounds answers
      have hproceed : ((acquiring (α := α) why acquisition).proceed setting grounds answers).1 =
          acquiring why (acquisition.proceed setting.client grounds answers).1 := by
        cases acquisition with
        | finished => exact absurd rfl hfinished
        | _ => rfl
      rw [hproceed]
      exact ⟨⟨rfl, hstays⟩, Nat.add_lt_add_right hless 1⟩
  | _ => exact h.elim

/-- A call that is through with its term comes to say so. -/
theorem Losing.exists_apologise (h : call.Losing cause) (setting : Setting)
    (moments : Nat → Moment) :
    ∃ n, call.course setting moments n = apologise leadershipLost cause := by
  induction hburden : call.burden using Nat.strongRecOn generalizing call moments with
  | ind burden ih =>
    subst hburden
    rcases h.proceed setting (moments 0).grounds (moments 0).answers with hover | ⟨hmore, hless⟩
    · exact ⟨1, hover⟩
    · obtain ⟨n, hn⟩ := ih _ hless hmore (fun k => moments (k + 1)) rfl
      exact ⟨n + 1, by rw [course_succ, hn]⟩

/-- The first step of a call that ends its term takes the term out of service, if it still is
served. -/
theorem leaves_invalidate (cause : Option String) (term : Term) (setting : Setting)
    (moments : Nat → Moment) :
    ((ending (α := α) cause (.invalidate term)).leaves setting moments 0).1.register =
      ((moments 0).grounds.register.takeIf term).2 ∧
    ((ending (α := α) cause (.invalidate term)).leaves setting moments 0).1.released =
      (moments 0).grounds.released ∧
    ((ending (α := α) cause (.invalidate term)).leaves setting moments 0).2 = none := by
  simp [leaves, course, proceed, Operation.standing, Operation.proceed, Operation.step,
    Operation.releases]

/-- A call that ends its term and comes too late for that does nothing to the proxy. -/
theorem leaves_of_missed (cause : Option String) (setting : Setting)
    (notServed : (moments 0).grounds.register.current ≠ some term) (n : Nat) :
    (ending (α := α) cause (.invalidate term)).leaves setting moments n =
      ((moments n).grounds, none) := by
  have hadvance := Operation.proceed_advance (moments 0).grounds.toLedger
    (moments 0).answers.release (.invalidate term)
  have hfirst : (ending (α := α) cause (.invalidate term)).proceed setting (moments 0).grounds
      (moments 0).answers =
        (ending cause (.done (.ended false)), (moments 0).grounds, none) := by
    simp only [proceed, Operation.standing]
    generalize Operation.proceed _ _ (.invalidate term) = became at hadvance
    obtain ⟨operation, ledger⟩ := became
    cases hadvance with
    | ended isServed => exact absurd isServed notServed
    | missed => rfl
  cases n with
  | zero => exact congrArg Prod.snd hfirst
  | succ n =>
    cases n with
    | zero =>
      simp only [leaves, course, hfirst]
      rfl
    | succ n =>
      -- after two steps the call has only to say why it fails
      have hrest : (apologise (α := α) leadershipLost cause).isBystander = true := rfl
      rw [leaves, course_succ, hfirst, course_succ]
      exact leaves_of_isBystander hrest setting (fun k => moments (k + 1 + 1)) n

/-- A call that does not fail at once comes to what its ruling says at the last of its moments. -/
theorem Ruling.exists_last (ruling : Ruling α) (term : Term) (setting : Setting)
    (moments : Nat → Moment) :
    (∃ failure, ruling = fails failure) ∨
      ∃ n, ((ruling.start term).course setting moments n).result? = none ∧
        (ruling.start term).course setting moments (n + 1) =
          .finished (ruling.result setting.client term moments n) := by
  cases ruling with
  | fails failure => exact .inl ⟨failure, rfl⟩
  | loses cause =>
    have hlosing : (ending (α := α) cause (.invalidate term)).Losing cause := ⟨rfl, rfl⟩
    obtain ⟨n, hn⟩ := hlosing.exists_apologise setting moments
    refine .inr ⟨n, ?_, ?_⟩
    · rw [Ruling.start, hn]
      rfl
    · rw [Ruling.start, course, hn]
      rfl
  | suspects failure =>
    refine .inr ?_
    by_cases hs : (moments 0).grounds.register.current = some term
    · refine ⟨0, rfl, ?_⟩
      simp [Ruling.start, course, proceed, currentRead, Ruling.result, hs]
    · refine ⟨1, ?_, ?_⟩ <;>
        simp [Ruling.start, course, proceed, currentRead, hintRead, Ruling.result, hs, result?]
  | trusts value =>
    refine .inr ?_
    cases hc : (moments 0).grounds.register.closed with
    | true =>
      refine ⟨0, rfl, ?_⟩
      simp [Ruling.start, course, proceed, flagRead, Ruling.result, hc]
    | false =>
      by_cases hs : (moments 1).grounds.register.current = some term
      · refine ⟨1, ?_, ?_⟩ <;>
          simp [Ruling.start, course, proceed, flagRead, currentRead, Ruling.result, hc, hs,
            result?]
      · refine ⟨2, ?_, ?_⟩ <;>
          simp [Ruling.start, course, proceed, flagRead, currentRead, hintRead, Ruling.result, hc,
            hs, result?]

/-- A call comes to what its ruling says. -/
theorem Ruling.exists_result (ruling : Ruling α) (term : Term) (setting : Setting)
    (moments : Nat → Moment) :
    ∃ n, (ruling.start term).course setting moments (n + 1) =
      .finished (ruling.result setting.client term moments n) := by
  rcases ruling.exists_last term setting moments with ⟨failure, rfl⟩ | ⟨n, -, comes⟩
  · exact ⟨0, rfl⟩
  · exact ⟨n, comes⟩

/-- Whatever a call finds at the moments of its steps:

* if its operation comes to a value, it goes the same way in either style and whichever half
  arrives first: it reports the same, takes the same steps and leaves the same behind;
* in any case it comes to its end, with the result of the ruling that the law gives;
* unless the ruling is that it loses its term, none of its steps does anything to the proxy;
* if the ruling is that it loses its term, its first step takes exactly that term out of service,
  and if the term is not served at that moment none of its steps does anything to the proxy. -/
theorem reconciliation_is_one_law (profile : Profile) (term : Term) (result : Checked)
    (moments : Nat → Moment) :
    (∀ (value : α) (style style' : Style) (arrival arrival' : Arrival),
      let told := (underway term).hearAll (profile.setting style)
        (arrival.halves style (.value value) result)
      let told' := (underway term).hearAll (profile.setting style')
        (arrival'.halves style' (.value value) result)
      told = told' ∧ ∀ n,
        told.1.course (profile.setting style) moments n =
          told'.1.course (profile.setting style') moments n ∧
        told.1.leaves (profile.setting style) moments n =
          told'.1.leaves (profile.setting style') moments n) ∧
    ∀ (outcome : Outcome α) (style : Style) (arrival : Arrival),
      let setting := profile.setting style
      let told := ((underway term).hearAll setting (arrival.halves style outcome result)).1
      let ruling := Ruling.of setting arrival outcome result
      (∃ n, told.course setting moments (n + 1) =
        .finished (ruling.result profile.client term moments n)) ∧
      ((∀ cause, ruling ≠ .loses cause) →
        ∀ n, told.leaves setting moments n = ((moments n).grounds, none)) ∧
      ∀ cause, ruling = .loses cause →
        (told.leaves setting moments 0).1.register =
          ((moments 0).grounds.register.takeIf term).2 ∧
        ((moments 0).grounds.register.current ≠ some term →
          ∀ n, told.leaves setting moments n = ((moments n).grounds, none)) := by
  refine ⟨fun value style style' arrival arrival' => ?_, fun outcome style arrival => ?_⟩
  · intro told told'
    have htold : told = told' :=
      (hearAll_value profile arrival style term value result).trans
        (hearAll_value profile arrival' style' term value result).symm
    refine ⟨htold, fun n => ⟨?_, ?_⟩⟩
    · rw [htold, course_style profile style style']
    · rw [htold, leaves, leaves, course_style profile style style',
        proceed_style profile style style']
  · intro setting told ruling
    have htold : told = ruling.start term := hearAll_eq setting arrival term outcome result
    rw [htold]
    refine ⟨ruling.exists_result term setting moments, fun hkeeps n => ?_, fun cause hloses => ?_⟩
    · refine leaves_of_isBystander ?_ setting moments n
      cases hruling : ruling with
      | loses cause => exact absurd hruling (hkeeps cause)
      | _ => rfl
    · rw [hloses]
      exact ⟨(leaves_invalidate cause term setting moments).1,
        fun notServed n => leaves_of_missed cause setting notServed n⟩

end Call

end Tenure
