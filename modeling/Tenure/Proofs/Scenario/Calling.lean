import Tenure.Proofs.Proxy.Checks
import Tenure.Proofs.Scenario.Acquiring

/-!
# Calls that nothing comes between

A call through a proxy at rest finds the proxy closed, or nothing served, or it takes the served
term. From then on its operation and its checks decide what it answers: all checks of its token are
told the same, so it does not matter how many there are, nor when they are answered. Which of the
two is taken first matters to an asynchronous call only, and only if its checks do not confirm its
token.

## Main definitions

* `Scene.lose` — the served term is ended, and the next acquisition is made
* `Scene.call` — what a call comes to, and at which scene
* `Scene.Awaits` — a call that waits for its operation
* `World.Checks` — how far the checks of a call have come
* `World.CallOperation.Yields`, `World.CallOperation.Turns` — what an operation comes to that does
  nothing else, and one that may change the delegates

## Main results

* `World.Plays.finishChecks` — the checks of a call come to what the election answers
* `World.Plays.enter_closed`, `World.Plays.enter_vacant`, `World.Plays.enter_served` — the begin
  of a call
* `World.Plays.lose`, `World.Plays.trust` — its end
* `World.Plays.blockingCall`, `World.Plays.asyncCall` — whole calls
-/

namespace Tenure.ProxyWatch

variable {δ : Type}

/-- The served term, if there is one, is ended and its delegate released. -/
def Scene.retire (scene : Scene δ) : Scene δ :=
  { scene with
    register := { scene.register with current := none }
    released := scene.released ++ (scene.register.current.map (·.delegate)).toList }

/-- The served term is ended, and the next acquisition is made on its caller's thread. -/
def Scene.lose (scene : Scene δ) : Scene δ := scene.retire.acquire

theorem Scene.pending_lose {scene : Scene δ} (hopen : scene.register.closed = false)
    (hgoing : scene.stopped = false) (htask : scene.task = none) : scene.lose.Pending :=
  pending_acquire hopen rfl hgoing htask

/-- What a call comes to that has taken a term of this token, and whose checks have not failed it,
and at which scene. -/
def Scene.finish {β : Type} (scene : Scene δ) (token : Token) (ending : Except DelegateFailure β) :
    Except CallFailure β × Scene δ :=
  match ending with
  | .error failure =>
    if failure.kind = .notLeading then
      (.error (.notLeader ⟨Call.leadershipLost, scene.election.hint, some failure.message⟩),
        scene.lose)
    else (.error (.delegate failure), scene)
  | .ok value =>
    if scene.election.answer token = .leading then (.ok value, scene)
    else (.error (.notLeader ⟨Call.leadershipLost, scene.election.hint, none⟩), scene.lose)

/-- What a call comes to, and at which scene. One that its checks have failed before its operation
begins is followed by a rest. -/
def Scene.call {β : Type} (client : String) (scene : Scene δ) (style : Style) (order : Order)
    (ending : Except DelegateFailure β) : Except CallFailure β × Scene δ :=
  if scene.register.closed then (.error (.closed client), scene)
  else
    match scene.register.current with
    | none => (.error (.notLeader ⟨Call.notLeading, scene.election.hint, none⟩), scene)
    | some term =>
      if style = .async ∧ order.first = .checksFirst ∧
          scene.election.answer term.token ≠ .leading then
        (.error (.notLeader ⟨Call.leadershipLost, scene.election.hint, none⟩),
          if order.prompt then scene.lose.settle else scene.lose)
      else scene.finish term.token ending

/-- A call waits for its operation on a term: it has not taken its checks yet, or they have
confirmed its token. -/
def Scene.Awaits {β : Type} (scene : Scene δ) (term : Term) (call : Call β) : Prop :=
  call = .underway term ∨ call = .confirmed term ∧ scene.election.answer term.token = .leading

namespace World

variable {α β : Type} {frame : Frame} {scene : Scene δ} {world : World α δ} {seat : Seat α δ}
  {token : Token} {v : Nat}

/-- An operation that comes to this and does nothing that a scene depends upon. -/
structure CallOperation.Yields (frame : Frame) (ending : Except DelegateFailure β)
    (op : CallOperation α δ β) : Prop where
  invoke : ∀ (scene : Scene δ) (world : World α δ) (delegate : Nat), world.Plays frame scene →
    (op.invoke delegate world).Plays frame scene ∧
      (op.invoke delegate world).validations = world.validations
  operate : ∀ (scene : Scene δ) (world : World α δ) (delegate : Nat), world.Plays frame scene →
    Comes frame scene (some ending) (op.operate delegate world) ∧
      (op.operate delegate world).2.validations = world.validations

/-- At a scene, an operation on a delegate comes to this, and leaves these delegates. -/
structure CallOperation.Turns (frame : Frame) (scene : Scene δ) (delegate : Nat)
    (ending : Except DelegateFailure β) (delegates : List δ) (op : CallOperation α δ β) : Prop where
  invoke : ∀ world : World α δ, world.Plays frame scene →
    (op.invoke delegate world).Plays frame scene ∧
      (op.invoke delegate world).validations = world.validations
  operate : ∀ world : World α δ, world.Plays frame scene →
    Comes frame { scene with delegates } (some ending) (op.operate delegate world) ∧
      (op.operate delegate world).2.validations = world.validations

/-- An operation that does nothing else leaves the delegates as they are. -/
theorem CallOperation.Yields.turns {op : CallOperation α δ β} {ending : Except DelegateFailure β}
    (h : op.Yields frame ending) (scene : Scene δ) (delegate : Nat) :
    op.Turns frame scene delegate ending scene.delegates :=
  ⟨fun world hplays => h.invoke scene world delegate hplays,
    fun world hplays => h.operate scene world delegate hplays⟩

/-- Of a run of checks of a token some have been answered, or it is over and has come to what the
election answers. -/
def Checks (frame : Frame) (scene : Scene δ) (token : Token) (v : Nat) (world : World α δ) : Prop :=
  (∃ attempt : UInt32, 0 < attempt.toNat ∧ attempt.toNat ≤ Validation.most frame.budget ∧
      world.validations[v]? = some (0, token, .attempting attempt)) ∨
    world.validations[v]? = some (0, token, .finished (.ok (scene.election.answer token)))

theorem Checks.congr {other : World α δ} (h : world.Checks frame scene token v)
    (hsame : other.validations = world.validations) : other.Checks frame scene token v := by
  unfold Checks at h ⊢
  rwa [hsame]

/-- A run of checks that is over stays so. -/
theorem answerChecks_finished {i : Nat} {result : Checked}
    (hrun : world.validations[v]? = some (i, token, .finished result)) (more : Nat) :
    World.answerChecks v more world = world := by
  cases more with
  | zero => rfl
  | succ more => simp only [World.answerChecks, hrun]

theorem checkResult_of_finished {i : Nat} {result : Checked}
    (hrun : world.validations[v]? = some (i, token, .finished result)) :
    world.checkResult v = some result := by
  simp only [checkResult, hrun, Option.bind_some, Run.result?]

namespace Plays

/-! ### Checks -/

/-- The shards take all work. -/
theorem shardRefusal (h : world.Plays frame scene) (seat : Seat α δ) :
    world.shardRefusal seat = none := by
  simp [World.shardRefusal, h.executors, Pool.shardFor, Pool.new, Worker.admits]

theorem shardsStopped (h : world.Plays frame scene) : world.shardsStopped = false := by
  have hfirst : 0 ∈ List.range (max frame.shards 1) := List.mem_range.mpr (by omega)
  rw [World.shardsStopped, h.executors, List.all_eq_false]
  exact ⟨{ name := Pool.shardName 0 }, List.mem_map.mpr ⟨0, hfirst, rfl⟩, Bool.false_ne_true⟩

theorem handOverCheck (h : world.Plays frame scene) (seat : Seat α δ) (run : Validation) :
    Comes frame scene (run.handOver none) (world.handOverCheck 0 seat run) ∧
      (world.handOverCheck 0 seat run).2.validations = world.validations := by
  simp only [World.handOverCheck, h.shardRefusal]
  split
  · rename_i attempt hattempt
    exact ⟨⟨hattempt.symm, h.modify_unseen _ fun other hother => { hother with }⟩, rfl⟩
  · exact ⟨⟨rfl, h⟩, rfl⟩

theorem beginChecks (h : world.Plays frame scene) (seat : Seat α δ) (token : Token) :
    ∃ begun, world.beginChecks 0 seat token = (world.validations.length, begun) ∧
      begun.Plays frame scene ∧ begun.Checks frame scene token world.validations.length := by
  obtain ⟨hcomes, hvalidations⟩ := h.handOverCheck seat .start
  obtain ⟨left, hhand, hplays⟩ := hcomes.exists
  have hsame : left.validations = world.validations := by rw [← hvalidations, hhand]
  have hbegin : world.beginChecks 0 seat token = (world.validations.length,
      { left with validations := left.validations ++ [(0, token, .attempting 1)] }) := by
    simp only [World.beginChecks, h.executors, Bool.false_eq_true, if_false, hhand]
    rfl
  refine ⟨_, hbegin, ⟨hplays.election, hplays.executors, hplays.seat⟩,
    .inl ⟨1, by decide, ?_, ?_⟩⟩
  · exact Validation.most_pos frame.budget
  · simp [← hsame]

theorem answerCheck (h : world.Plays frame scene) (hseat : seat.Plays frame scene)
    (token : Token) :
    Comes frame scene (.ok (scene.election.answer token)) (world.answerCheck 0 seat token) ∧
      (world.answerCheck 0 seat token).2.validations = world.validations := by
  have hanswer : world.election.beginCheck.answer token = scene.election.answer token := by
    rw [← h.election]
    rfl
  have hcheck : world.answerCheck 0 seat token = (.ok (scene.election.answer token),
      { world with election := world.election.beginCheck }) := by
    simp only [World.answerCheck, hseat.answers, hanswer]
  rw [hcheck]
  exact ⟨⟨rfl, h.election, h.executors, h.seat⟩, rfl⟩

/-- A check is answered: with that the run is over, or it goes on with the next attempt. -/
theorem answerChecks_succ (h : world.Plays frame scene) {attempt : UInt32}
    (hrun : world.validations[v]? = some (0, token, .attempting attempt)) (more : Nat) :
    ∃ left run, World.answerChecks v (more + 1) world = World.answerChecks v more left ∧
      left.Plays frame scene ∧ left.validations[v]? = some (0, token, run) ∧
      (run = .finished (.ok (scene.election.answer token)) ∨
        run = .attempting (attempt + 1) ∧ attempt.toNat < Validation.most frame.budget) := by
  obtain ⟨seat, hseat, hplays⟩ := h.getElem?
  obtain ⟨hanswer, hsame⟩ := h.answerCheck hplays token
  obtain ⟨answered, hcheck, hanswered⟩ := hanswer.exists
  rw [hcheck] at hsame
  let next : Validation := ((Run.attempting attempt).receive seat.retrier seat.shard
    (.value (scene.election.answer token))).1.wake
  obtain ⟨hhand, hsame'⟩ := hanswered.handOverCheck seat next
  obtain ⟨handed, hhandOver, hhanded⟩ := hhand.exists
  have hvalidations : handed.validations = world.validations := by
    rw [← hsame, ← hsame', hhandOver]
  refine ⟨handed.modifyRun v (next.handOver none), next.handOver none, ?_, ?_, ?_, ?_⟩
  · simp only [World.answerChecks, hrun, hseat, hcheck]
    rw [hhandOver]
  · exact ⟨hhanded.election, hhanded.executors, hhanded.seat⟩
  · simp [modifyRun, hvalidations, hrun]
  · cases hover : Run.isLast seat.retrier attempt ||
        seat.retrier.accepts (scene.election.answer token) with
    | true =>
      left
      simp only [next, Run.receive, hover, if_true, Run.wake, Run.handOver]
    | false =>
      right
      obtain ⟨hlast, -⟩ := Bool.or_eq_false_iff.mp hover
      rw [hplays.retrier] at hlast
      refine ⟨?_, Check.Fit.lt_of_not_isLast (Bool.eq_false_iff.mp hlast)⟩
      simp only [next, Run.receive, hover, Bool.false_eq_true, if_false, Run.wake, Run.handOver]

/-- All checks of a run are told the same, so it comes to that, or waits for a later one. -/
theorem answerChecks (h : world.Plays frame scene) {attempt : UInt32}
    (hrun : world.validations[v]? = some (0, token, .attempting attempt))
    (hle : attempt.toNat ≤ Validation.most frame.budget) (more : Nat) :
    (World.answerChecks v more world).Plays frame scene ∧
      ((World.answerChecks v more world).validations[v]? =
          some (0, token, .finished (.ok (scene.election.answer token))) ∨
        ∃ later : UInt32, later.toNat = attempt.toNat + more ∧
          later.toNat ≤ Validation.most frame.budget ∧
          (World.answerChecks v more world).validations[v]? =
            some (0, token, .attempting later)) := by
  -- on the checks that are answered
  induction more generalizing world attempt with
  | zero => exact ⟨h, .inr ⟨attempt, rfl, hle, hrun⟩⟩
  | succ more ih =>
    obtain ⟨left, run, hstep, hleft, hnext, hrest⟩ := h.answerChecks_succ hrun more
    rw [hstep]
    rcases hrest with rfl | ⟨rfl, hlt⟩
    · rw [answerChecks_finished hnext]
      exact ⟨hleft, .inl hnext⟩
    -- it was not the last attempt, and the next one is answered the same way
    · have hsucc := Run.toNat_succ hlt (Validation.most_lt frame.budget)
      obtain ⟨hplays, hover | ⟨later, hlater, hwithin, hwaits⟩⟩ := ih hleft hnext (by omega)
      · exact ⟨hplays, .inl hover⟩
      · exact ⟨hplays, .inr ⟨later, by omega, hwithin, hwaits⟩⟩

/-- Some checks of a call are answered. -/
theorem answerSome (h : world.Plays frame scene) (hchecks : world.Checks frame scene token v)
    (more : Nat) : (World.answerChecks v more world).Plays frame scene ∧
      (World.answerChecks v more world).Checks frame scene token v := by
  rcases hchecks with ⟨attempt, hpos, hle, hrun⟩ | hrun
  · obtain ⟨hplays, hover | ⟨later, hlater, hwithin, hwaits⟩⟩ := h.answerChecks hrun hle more
    · exact ⟨hplays, .inr hover⟩
    · exact ⟨hplays, .inl ⟨later, by omega, hwithin, hwaits⟩⟩
  · rw [answerChecks_finished hrun]
    exact ⟨h, .inr hrun⟩

/-- The checks of a call come to what the election answers. -/
theorem finishChecks (h : world.Plays frame scene)
    (hchecks : world.Checks frame scene token v) :
    (world.finishChecks v).Plays frame scene ∧
      (world.finishChecks v).validations[v]? =
        some (0, token, .finished (.ok (scene.election.answer token))) := by
  obtain ⟨seat, hseat, hplays⟩ := h.getElem?
  rcases hchecks with ⟨attempt, hpos, hle, hrun⟩ | hrun
  · simp only [World.finishChecks, hrun, hseat, hplays.retrier, Validation.toNat_limit]
    obtain ⟨hleft, hover | ⟨later, hlater, hwithin, -⟩⟩ :=
      h.answerChecks hrun hle (Validation.most frame.budget)
    · exact ⟨hleft, hover⟩
    -- there is no attempt after the last one
    · omega
  · simp only [World.finishChecks, hrun, hseat]
    rw [answerChecks_finished hrun]
    exact ⟨h, hrun⟩

theorem cancelChecks (h : world.Plays frame scene) (v : Nat) :
    (world.cancelChecks v).Plays frame scene := by
  unfold World.cancelChecks
  split
  · exact ⟨h.election, h.executors, h.seat⟩
  · exact h

/-- The checks of a call that come before its operation begins. -/
theorem answerEarly (h : world.Plays frame scene) (hchecks : world.Checks frame scene token v)
    (order : Order) : (world.answerEarly v order).Plays frame scene ∧
      (world.answerEarly v order).Checks frame scene token v := by
  unfold World.answerEarly
  split
  · obtain ⟨hfinished, hrun⟩ := h.finishChecks hchecks
    exact ⟨hfinished, .inr hrun⟩
  · exact h.answerSome hchecks order.early

/-- The checks of a call that come after its operation is over. -/
theorem answerLate (h : world.Plays frame scene) (hchecks : world.Checks frame scene token v)
    (order : Order) : (world.answerLate v order).Plays frame scene ∧
      (world.answerLate v order).Checks frame scene token v := by
  unfold World.answerLate
  split
  · obtain ⟨hfinished, hrun⟩ := h.finishChecks hchecks
    exact ⟨hfinished, .inr hrun⟩
  · exact h.answerSome hchecks order.late

/-! ### The begin of a call -/

theorem readHint (h : world.Plays frame scene) :
    world.readHint 0 = (scene.election.hint, world) := by
  obtain ⟨seat, hseat, hplays⟩ := h.getElem?
  have hhint : world.election.hint = scene.election.hint := by rw [← h.election]; rfl
  simp only [World.readHint, hseat, Option.bind_some, hplays.hintHook, hhint]

/-- A call that is over. -/
theorem advance_finished (h : world.Plays frame scene) (steps : Nat)
    (result : Except CallFailure β) :
    advanceWithin 0 steps (.finished result) world = (some (.finished result), world) := by
  obtain ⟨seat, hseat, hplays⟩ := h.getElem?
  cases steps <;> simp only [advanceWithin, hseat]

theorem enter_closed (h : world.Plays frame scene) (hclosed : scene.register.closed = true) :
    world.advance 0 (.enter : Call β) =
      (some (.finished (.error (.closed frame.client))), world) := by
  obtain ⟨seat, hseat, hplays⟩ := h.getElem?
  simp only [advance, advanceWithin, hseat, Call.proceed, Call.flagRead, hplays.register, hclosed,
    if_true, Seat.setting, hplays.client]

theorem enter_vacant (h : world.Plays frame scene) (hopen : scene.register.closed = false)
    (hvacant : scene.register.current = none) :
    world.advance 0 (.enter : Call β) =
      (some (.finished (.error (.notLeader ⟨Call.notLeading, scene.election.hint, none⟩))),
        world) := by
  obtain ⟨seat, hseat, hplays⟩ := h.getElem?
  cases hhint : scene.election.hint <;>
    simp [advance, advanceWithin, hseat, Call.proceed, Call.flagRead, Call.currentRead,
      Call.hintRead, hplays.register, hopen, hvacant, h.readHint, hhint]

theorem enter_served (h : world.Plays frame scene) (hopen : scene.register.closed = false)
    {term : Term} (hserved : scene.register.current = some term) :
    world.advance 0 (.enter : Call β) = (some (.begin term), world) := by
  obtain ⟨seat, hseat, hplays⟩ := h.getElem?
  simp only [advance, advanceWithin, hseat, Call.proceed, Call.flagRead, Call.currentRead,
    hplays.register, hopen, hserved, Bool.false_eq_true, if_false]

/-! ### Its end -/

/-- A call that trusts its term finds the proxy open and the term served. -/
theorem trust (h : world.Plays frame scene) (hopen : scene.register.closed = false)
    {term : Term} (hserved : scene.register.current = some term) (value : β) :
    world.advance 0 (.lookOpen term value) = (some (.finished (.ok value)), world) := by
  obtain ⟨seat, hseat, hplays⟩ := h.getElem?
  simp [advance, advanceWithin, hseat, Call.proceed, Call.flagRead, Call.currentRead,
    hplays.register, hopen, hserved]

/-- A call that was interrupted finds its term served. -/
theorem suspect (h : world.Plays frame scene) {term : Term}
    (hserved : scene.register.current = some term) (failure : DelegateFailure) :
    world.advance 0 (.interrupted term failure : Call β) =
      (some (.finished (.error (.delegate failure))), world) := by
  obtain ⟨seat, hseat, hplays⟩ := h.getElem?
  simp [advance, advanceWithin, hseat, Call.proceed, Call.currentRead, hplays.register, hserved]

/-- A call that has lost its term ends it, and starts the next acquisition. -/
theorem lose (h : world.Plays frame scene) (hopen : scene.register.closed = false)
    (hgoing : scene.stopped = false) {term : Term}
    (hserved : scene.register.current = some term) (cause : Option String) :
    Comes frame scene.lose
      (some (.finished (.error (.notLeader ⟨Call.leadershipLost, scene.election.hint, cause⟩))))
      (world.advance 0 (.ending cause (.invalidate term) : Call β)) := by
  obtain ⟨seat, hseat, hplays⟩ := h.getElem?
  obtain ⟨ledger, outcome, ledger', others, hledger, -, hreaches, hothers, hcomes⟩ :=
    h.operate (.invalidate term) rfl
  obtain ⟨rfl, hregister, hreleased⟩ := hreaches.invalidate (by rw [hledger]; exact hserved)
  obtain rfl : others = [term.delegate] := List.append_cancel_left (hothers.symm.trans hreleased)
  obtain ⟨ended, hoperate, hended⟩ := hcomes.exists
  have hretire : Scene.retire scene =
      { scene with
        register := { scene.register with current := none }
        released := scene.released ++ [term.delegate] } := by
    simp only [Scene.retire, hserved]
    rfl
  rw [hregister, hledger, ← hretire] at hended
  obtain ⟨acquired, hacquire, hacquired⟩ := (hended.acquire hopen rfl hgoing).exists
  obtain ⟨seat', hseat', hplays'⟩ := hended.getElem?
  obtain ⟨seat'', hseat'', hplays''⟩ := hacquired.getElem?
  have hopen' : seat'.register.closed = false := by
    rw [hplays'.register]
    exact hopen
  -- the hint is read after the acquisition, which leaves it alone
  have hhint : (Scene.lose scene).election.hint = scene.election.hint := by
    unfold Scene.lose Scene.acquire
    split <;> rfl
  have hreads : acquired.readHint 0 = (scene.election.hint, acquired) := by
    rw [← hhint]
    exact hacquired.readHint
  have hlost : world.advance 0 (.ending cause (.invalidate term) : Call β) =
      (some (.finished (.error (.notLeader ⟨Call.leadershipLost, scene.election.hint, cause⟩))),
        acquired) := by
    simp [advance, advanceWithin, hseat, hseat', hseat'', hoperate, hacquire, hreads, Call.proceed,
      Operation.standing, Call.ended, Call.flagRead, Call.acquired, Call.hintRead, hopen']
  rw [hlost]
  exact ⟨rfl, hacquired⟩

/-- A call that has lost its term, with what it reports. -/
theorem loseWith (h : world.Plays frame scene) (hopen : scene.register.closed = false)
    (hgoing : scene.stopped = false) {term : Term}
    (hserved : scene.register.current = some term) (cause : Option String)
    (notices : List Notice) :
    Comes frame scene.lose
      (some (.finished (.error (.notLeader ⟨Call.leadershipLost, scene.election.hint, cause⟩))))
      (world.advanceWith 0 ((.ending cause (.invalidate term) : Call β), notices)) :=
  (h.note notices).lose hopen hgoing hserved cause

/-- A call goes on whose operation has failed. -/
theorem handle (h : world.Plays frame scene) (hopen : scene.register.closed = false)
    (hgoing : scene.stopped = false) {term : Term}
    (hserved : scene.register.current = some term) (setting : Call.Setting)
    (failure : DelegateFailure) :
    Comes frame (scene.finish (β := β) term.token (.error failure)).2
      (some (.finished (scene.finish term.token (.error failure)).1))
      (world.advanceWith 0 (Call.handle (α := β) setting term failure)) := by
  cases hkind : failure.kind with
  | notLeading =>
    simp only [Scene.finish, Call.handle, hkind, if_true]
    exact h.loseWith hopen hgoing hserved _ _
  | interrupted =>
    simp only [Scene.finish, Call.handle, hkind, reduceCtorEq, if_false, advanceWith]
    rw [(h.note []).suspect hserved]
    exact ⟨rfl, h.note []⟩
  | other =>
    simp only [Scene.finish, Call.handle, hkind, reduceCtorEq, if_false, advanceWith, advance]
    rw [(h.note []).advance_finished]
    exact ⟨rfl, h.note []⟩

/-- A call goes on with what its checks have come to, given how it goes on if its token was
confirmed. -/
theorem weigh (h : world.Plays frame scene) (hopen : scene.register.closed = false)
    (hgoing : scene.stopped = false) {term : Term}
    (hserved : scene.register.current = some term) (setting : Call.Setting) (value : β) :
    Comes frame (scene.finish term.token (.ok value)).2
      (some (.finished (scene.finish term.token (.ok value)).1))
      (world.advanceWith 0 (Call.weigh setting term
        (.ok (scene.election.answer term.token)) (.lookOpen term value))) := by
  cases hanswer : scene.election.answer term.token with
  | leading =>
    simp only [Scene.finish, hanswer, if_true, Call.weigh, Call.verdict, advanceWith]
    rw [(h.note []).trust hopen hserved]
    exact ⟨rfl, h.note []⟩
  | notLeading | noQuorum =>
    simp only [Scene.finish, hanswer, reduceCtorEq, if_false, Call.weigh, Call.verdict]
    exact h.loseWith hopen hgoing hserved _ _

/-- A call goes on whose operation is over. -/
theorem reconcile (h : world.Plays frame scene) (hopen : scene.register.closed = false)
    (hgoing : scene.stopped = false) {term : Term}
    (hserved : scene.register.current = some term)
    (hchecks : world.Checks frame scene term.token v) (seat : Seat α δ) (style : Style)
    {call : Call β} (hcall : scene.Awaits term call) (ending : Except DelegateFailure β) :
    Comes frame (scene.finish term.token ending).2
      (some (.finished (scene.finish term.token ending).1))
      (world.reconcile 0 seat style v call ending) := by
  cases ending with
  | error failure =>
    have hover : call.operationOver (seat.setting style) (.failure failure) =
        Call.handle (seat.setting style) term failure := by
      rcases hcall with rfl | ⟨rfl, -⟩ <;> rfl
    simp only [World.reconcile, outcome, hover]
    exact (h.cancelChecks v).handle hopen hgoing hserved _ failure
  | ok value =>
    obtain ⟨hfinished, hrun⟩ := h.finishChecks hchecks
    have hresult := checkResult_of_finished hrun
    rcases hcall with rfl | ⟨rfl, hconfirmed⟩
    · simp only [World.reconcile, outcome, Call.operationOver, hresult, Call.checked]
      exact (hfinished.note []).weigh hopen hgoing hserved _ value
    · simp only [World.reconcile, outcome, Call.operationOver]
      rw [(hfinished.note []).trust hopen hserved]
      simp only [Scene.finish, hconfirmed, if_true]
      exact ⟨rfl, hfinished.note []⟩

/-! ### Whole calls -/

theorem takeChecks_operationFirst {order : Order} (hfirst : order.first = .operationFirst) (i : Nat)
    (seat : Seat α δ) (call : Call β) :
    world.takeChecks i seat v order call = (some call, world) := by
  simp only [World.takeChecks, hfirst]

/-- A call that finds its token confirmed, or does not take its checks first, waits for its
operation. -/
theorem takeChecks (h : world.Plays frame scene) {term : Term} {order : Order}
    (hchecks : world.Checks frame scene term.token v)
    (htrusts : order.first = .operationFirst ∨ scene.election.answer term.token = .leading)
    (seat : Seat α δ) {call : Call β} (hcall : scene.Awaits term call) :
    ∃ call' left, world.takeChecks 0 seat v order call = (some call', left) ∧
      scene.Awaits term call' ∧ left.Plays frame scene ∧
      left.Checks frame scene term.token v := by
  cases hfirst : order.first with
  | operationFirst => exact ⟨call, world, takeChecks_operationFirst hfirst .., hcall, h, hchecks⟩
  | checksFirst =>
    have hanswer : scene.election.answer term.token = .leading := by simpa [hfirst] using htrusts
    rcases id hchecks with ⟨attempt, -, -, hrun⟩ | hrun
    · have hresult : world.checkResult v = none := by
        simp only [checkResult, hrun, Option.bind_some, Run.result?]
      have htaken : world.takeChecks 0 seat v order call = (some call, world) := by
        simp only [World.takeChecks, hfirst, hresult]
      exact ⟨call, world, htaken, hcall, h, hchecks⟩
    · obtain ⟨other, hother, -⟩ := (h.note []).getElem?
      have htaken : world.takeChecks 0 seat v order call =
          (some (.confirmed term), world.note []) := by
        rcases hcall with rfl | ⟨rfl, -⟩ <;>
          simp only [World.takeChecks, hfirst, checkResult_of_finished hrun, hanswer, Call.checked,
            Seat.setting, Call.weigh, Call.verdict, advanceWith, advance, advanceWithin, hother]
      exact ⟨.confirmed term, world.note [], htaken, .inr ⟨rfl, hanswer⟩, h.note [],
        hchecks.congr rfl⟩

/-- A call that finds its token not confirmed is over. -/
theorem takeChecks_stale (h : world.Plays frame scene) (hopen : scene.register.closed = false)
    (hgoing : scene.stopped = false) {term : Term}
    (hserved : scene.register.current = some term) {order : Order}
    (hfirst : order.first = .checksFirst)
    (hrun : world.validations[v]? =
      some (0, term.token, .finished (.ok (scene.election.answer term.token))))
    (hanswer : scene.election.answer term.token ≠ .leading) (seat : Seat α δ) :
    Comes frame scene.lose
      (some (.finished (.error (.notLeader ⟨Call.leadershipLost, scene.election.hint, none⟩))))
      (world.takeChecks 0 seat v order (.underway term : Call β)) := by
  simp only [World.takeChecks, hfirst, checkResult_of_finished hrun]
  cases hstatus : scene.election.answer term.token with
  | leading => exact absurd hstatus hanswer
  | notLeading | noQuorum => exact h.loseWith hopen hgoing hserved _ _

/-- The operation of a call comes to its end, and leaves the checks alone. -/
theorem runOperation (h : world.Plays frame scene) {term : Term}
    (hchecks : world.Checks frame scene term.token v) {op : CallOperation α δ β}
    {ending : Except DelegateFailure β} {delegates : List δ}
    (hop : op.Turns frame scene term.delegate ending delegates) :
    ∃ left, op.operate term.delegate world = (some ending, left) ∧ left.shardsStopped = false ∧
      left.Plays frame { scene with delegates } ∧
      left.Checks frame { scene with delegates } term.token v := by
  obtain ⟨hoperate, hsame⟩ := hop.operate world h
  obtain ⟨left, hoperate, hleft⟩ := hoperate.exists
  rw [hoperate] at hsame
  exact ⟨left, hoperate, hleft.shardsStopped, hleft, hchecks.congr hsame⟩

theorem blockingCall_vacant (h : world.Plays frame scene) (hopen : scene.register.closed = false)
    (hvacant : scene.register.current = none) (order : Order) (op : CallOperation α δ β) :
    world.blockingCall 0 { order } op =
      (.result (.error (.notLeader ⟨Call.notLeading, scene.election.hint, none⟩)), world) := by
  obtain ⟨seat, hseat, hplays⟩ := h.getElem?
  simp only [World.blockingCall, hseat, h.enter_vacant hopen hvacant, reduceCtorEq, if_false]
  rfl

theorem blockingCall_served (h : world.Plays frame scene) (hopen : scene.register.closed = false)
    (hgoing : scene.stopped = false) {term : Term}
    (hserved : scene.register.current = some term) (order : Order) {op : CallOperation α δ β}
    {ending : Except DelegateFailure β} {delegates : List δ}
    (hop : op.Turns frame scene term.delegate ending delegates) :
    Comes frame (Scene.finish { scene with delegates } term.token ending).2
      (.result (Scene.finish { scene with delegates } term.token ending).1)
      (world.blockingCall 0 { order } op) := by
  obtain ⟨seat, hseat, hplays⟩ := h.getElem?
  obtain ⟨begun, hbegun, hbegin, hchecks⟩ := h.beginChecks seat term.token
  -- the call looks at its checks after its operation, whenever they were answered
  obtain ⟨hearly, hchecks⟩ := hbegin.answerEarly hchecks order
  obtain ⟨operated, hoperate, -, hoperated, hchecks⟩ :=
    hearly.runOperation hchecks hop
  obtain ⟨hlate, hchecks⟩ := hoperated.answerLate hchecks order
  obtain ⟨left, hreconcile, hleft⟩ :=
    (hlate.reconcile hopen hgoing hserved hchecks seat .blocking (.inl rfl) ending).exists
  simp only [World.blockingCall, hseat, h.enter_served hopen hserved, hbegun, hoperate,
    hreconcile, reduceCtorEq, if_false]
  exact ⟨rfl, hleft⟩

theorem blockingCall (h : world.Plays frame scene) (hrest : scene.AtRest) (order : Order)
    {op : CallOperation α δ β} {ending : Except DelegateFailure β} (hop : op.Yields frame ending) :
    Comes frame (scene.call frame.client .blocking order ending).2
      (.result (scene.call frame.client .blocking order ending).1)
      (world.blockingCall 0 { order } op) := by
  cases hrest with
  | shut hclosed hstopped hvacant htask =>
    obtain ⟨seat, hseat, hplays⟩ := h.getElem?
    simp only [World.blockingCall, hseat, h.enter_closed hclosed, Scene.call, hclosed, if_true,
      reduceCtorEq, if_false]
    exact ⟨rfl, h⟩
  | waiting hopen hgoing hvacant hheld htask =>
    simp only [h.blockingCall_vacant hopen hvacant, Scene.call, hopen, hvacant, if_false,
      Bool.false_eq_true]
    exact ⟨rfl, h⟩
  | serving term hopen hgoing hserved htask =>
    have hcall : scene.call frame.client .blocking order ending =
        scene.finish term.token ending := by
      simp [Scene.call, hopen, hserved]
    rw [hcall]
    exact h.blockingCall_served hopen hgoing hserved order (hop.turns scene term.delegate)

/-- The operation of an asynchronous call that its checks do not fail. -/
theorem asyncOperation (h : world.Plays frame scene) (hopen : scene.register.closed = false)
    (hgoing : scene.stopped = false) {term : Term}
    (hserved : scene.register.current = some term)
    (hchecks : world.Checks frame scene term.token v) {order : Order}
    (htrusts : order.first = .operationFirst ∨ scene.election.answer term.token = .leading)
    (seat : Seat α δ) {call : Call β} (hcall : scene.Awaits term call) {op : CallOperation α δ β}
    {ending : Except DelegateFailure β} {delegates : List δ}
    (hop : op.Turns frame scene term.delegate ending delegates) :
    Comes frame (Scene.finish { scene with delegates } term.token ending).2
      (.result (Scene.finish { scene with delegates } term.token ending).1)
      (world.asyncOperation 0 seat v order term call op) := by
  obtain ⟨operated, hoperate, hshards, hoperated, hchecks⟩ := h.runOperation hchecks hop
  obtain ⟨hlate, hchecks⟩ := hoperated.answerLate hchecks order
  obtain ⟨call', taken, htake, hcall', htaken, hchecks⟩ :=
    hlate.takeChecks hchecks htrusts seat hcall
  obtain ⟨left, hreconcile, hleft⟩ :=
    (htaken.reconcile hopen hgoing hserved hchecks seat .async hcall' ending).exists
  simp only [World.asyncOperation, hoperate, hshards, htake]
  rcases hcall' with rfl | ⟨rfl, -⟩
  all_goals
    simp only [hreconcile]
    exact ⟨rfl, hleft⟩

theorem asyncCall_served (h : world.Plays frame scene) (hopen : scene.register.closed = false)
    (hgoing : scene.stopped = false) {term : Term}
    (hserved : scene.register.current = some term) {order : Order}
    (htrusts : order.first = .operationFirst ∨ scene.election.answer term.token = .leading)
    {op : CallOperation α δ β} {ending : Except DelegateFailure β} {delegates : List δ}
    (hop : op.Turns frame scene term.delegate ending delegates) :
    Comes frame (Scene.finish { scene with delegates } term.token ending).2
      (.result (Scene.finish { scene with delegates } term.token ending).1)
      (world.asyncCall 0 { order } op) := by
  obtain ⟨seat, hseat, hplays⟩ := h.getElem?
  obtain ⟨begun, hbegun, hbegin, hchecks⟩ := h.beginChecks seat term.token
  obtain ⟨hinvoked, hsame⟩ := hop.invoke begun hbegin
  obtain ⟨hearly, hchecks⟩ := hinvoked.answerEarly (hchecks.congr hsame) order
  simp only [World.asyncCall, hseat, h.enter_served hopen hserved, hbegun, hbegin.shardRefusal,
    Call.begun]
  cases hprompt : order.prompt with
  | false => exact hearly.asyncOperation hopen hgoing hserved hchecks htrusts seat (.inl rfl) hop
  | true =>
    obtain ⟨call, taken, htake, hcall, htaken, hchecks⟩ :=
      hearly.takeChecks (β := β) hchecks htrusts seat (.inl rfl)
    have hoperation := htaken.asyncOperation hopen hgoing hserved hchecks htrusts seat hcall hop
    simp only [if_true, htake]
    rcases hcall with rfl | ⟨rfl, -⟩ <;> exact hoperation

/-- The operation of an asynchronous call that takes its checks only when both are over, and is
failed by them. -/
theorem asyncOperation_stale (h : world.Plays frame scene) (hopen : scene.register.closed = false)
    (hgoing : scene.stopped = false) {term : Term}
    (hserved : scene.register.current = some term)
    (hchecks : world.Checks frame scene term.token v) {order : Order}
    (hfirst : order.first = .checksFirst)
    (hanswer : scene.election.answer term.token ≠ .leading) (seat : Seat α δ)
    {op : CallOperation α δ β} {ending : Except DelegateFailure β} (hop : op.Yields frame ending) :
    Comes frame scene.lose
      (.result (.error (.notLeader ⟨Call.leadershipLost, scene.election.hint, none⟩)))
      (world.asyncOperation 0 seat v order term (.underway term) op) := by
  obtain ⟨operated, hoperate, hshards, hoperated, hchecks⟩ :=
    h.runOperation hchecks (hop.turns scene term.delegate)
  have hlate : operated.answerLate v order = operated.finishChecks v := if_pos hfirst
  obtain ⟨hfinished, hrun⟩ := hoperated.finishChecks hchecks
  obtain ⟨lost, hlost, hleft⟩ :=
    (hfinished.takeChecks_stale (β := β) hopen hgoing hserved hfirst hrun hanswer seat).exists
  simp only [World.asyncOperation, hoperate, hshards, hlate, hlost]
  exact ⟨rfl, hleft⟩

theorem asyncCall_stale (h : world.Plays frame scene) (hopen : scene.register.closed = false)
    (hgoing : scene.stopped = false) {term : Term}
    (hserved : scene.register.current = some term) (htask : scene.task = none) {order : Order}
    (hfirst : order.first = .checksFirst)
    (hanswer : scene.election.answer term.token ≠ .leading) {op : CallOperation α δ β}
    {ending : Except DelegateFailure β} (hop : op.Yields frame ending) :
    Comes frame (if order.prompt then scene.lose.settle else scene.lose)
      (.result (.error (.notLeader ⟨Call.leadershipLost, scene.election.hint, none⟩)))
      (world.asyncCall 0 { order } op) := by
  obtain ⟨seat, hseat, hplays⟩ := h.getElem?
  obtain ⟨begun, hbegun, hbegin, hchecks⟩ := h.beginChecks seat term.token
  obtain ⟨hinvoked, hsame⟩ := hop.invoke scene begun term.delegate hbegin
  have hchecks := hchecks.congr hsame
  simp only [World.asyncCall, hseat, h.enter_served hopen hserved, hbegun, hbegin.shardRefusal,
    Call.begun]
  cases hprompt : order.prompt with
  | false =>
    obtain ⟨hearly, hchecks⟩ := hinvoked.answerEarly hchecks order
    exact hearly.asyncOperation_stale hopen hgoing hserved hchecks hfirst hanswer seat hop
  | true =>
    have hearly : (op.invoke term.delegate begun).answerEarly world.validations.length order =
        (op.invoke term.delegate begun).finishChecks world.validations.length :=
      if_pos ⟨hfirst, hprompt⟩
    obtain ⟨hfinished, hrun⟩ := hinvoked.finishChecks hchecks
    obtain ⟨lost, hlost, hleft⟩ :=
      (hfinished.takeChecks_stale (β := β) hopen hgoing hserved hfirst hrun hanswer seat).exists
    have hsettled := hleft.settle (Scene.pending_lose hopen hgoing htask)
    obtain ⟨hoperate, -⟩ := hop.operate _ _ term.delegate hsettled
    -- the operation is run all the same, but nobody waits for what it comes to
    simp only [if_true, hearly, hlost, hsettled.shardsStopped, Bool.false_eq_true, if_false]
    exact ⟨rfl, hoperate.2⟩

theorem asyncCall (h : world.Plays frame scene) (hrest : scene.AtRest) (order : Order)
    {op : CallOperation α δ β} {ending : Except DelegateFailure β} (hop : op.Yields frame ending) :
    Comes frame (scene.call frame.client .async order ending).2
      (.result (scene.call frame.client .async order ending).1)
      (world.asyncCall 0 { order } op) := by
  obtain ⟨seat, hseat, hplays⟩ := h.getElem?
  cases hrest with
  | shut hclosed hstopped hvacant htask =>
    simp only [World.asyncCall, hseat, h.enter_closed hclosed, Scene.call, hclosed, if_true]
    exact ⟨rfl, h⟩
  | waiting hopen hgoing hvacant hheld htask =>
    simp only [World.asyncCall, hseat, h.enter_vacant hopen hvacant, Scene.call, hopen, hvacant,
      if_false, Bool.false_eq_true]
    exact ⟨rfl, h⟩
  | serving term hopen hgoing hserved htask =>
    simp only [Scene.call, hopen, hserved, Bool.false_eq_true, if_false]
    split
    case isTrue hstale =>
      exact h.asyncCall_stale hopen hgoing hserved htask hstale.2.1 hstale.2.2 hop
    case isFalse htrusts =>
      have htrusts : order.first = .operationFirst ∨
          scene.election.answer term.token = .leading := by
        cases hfirst : order.first <;> simp_all
      exact h.asyncCall_served hopen hgoing hserved htrusts (hop.turns scene term.delegate)

end Plays

end World

end Tenure.ProxyWatch
