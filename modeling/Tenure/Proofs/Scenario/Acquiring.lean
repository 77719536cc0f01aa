import Tenure.Proofs.Scenario.Scene

/-!
# Acquisitions come to rest

An open proxy that serves nothing comes to serve the token that the election holds, on whichever
thread it acquires it, or comes to wait for one on its acquisition thread. A proxy that was told to
stop gives up what it waits for. Nothing else moves a proxy at rest.

## Main definitions

* `Scene.publish` — a delegate is built for a token and served
* `Scene.acquire` — what comes of an acquisition on its caller's thread
* `Scene.AtRest` — nothing moves
* `Scene.Pending`, `Scene.settle` — what may still go on on the acquisition thread, and its outcome

## Main results

* `World.Plays.acquire` — an acquisition on its caller's thread
* `World.Plays.settle` — all that goes on comes to rest
-/

namespace Tenure.ProxyWatch

namespace Scene

variable {δ : Type}

/-- A delegate is built for a token, and the two are served. -/
def publish (scene : Scene δ) (token : Token) : Scene δ :=
  { scene with
    brought := scene.brought + 1
    delegates := scene.delegates ++ [scene.fresh]
    register :=
      { scene.register with
        current := some ⟨⟨token, scene.brought + 1⟩, scene.register.generation + 1⟩
        generation := scene.register.generation + 1 } }

/-- What comes of an acquisition on its caller's thread: the token that is held is served, or the
work is handed to the acquisition thread. -/
def acquire (scene : Scene δ) : Scene δ :=
  match scene.election.held with
  | some token => scene.publish token
  | none => { scene with task := some (.queued none 0) }

/-- A scene at which nothing moves. -/
inductive AtRest (scene : Scene δ) : Prop
  | serving (term : Term) (isOpen : scene.register.closed = false) (goes : scene.stopped = false)
      (served : scene.register.current = some term) (nothing : scene.task = none)
  | waiting (isOpen : scene.register.closed = false) (goes : scene.stopped = false)
      (vacant : scene.register.current = none) (unheld : scene.election.held = none)
      (waits : scene.task = some (.waiting 0))
  | shut (closed : scene.register.closed = true) (stopped : scene.stopped = true)
      (vacant : scene.register.current = none) (nothing : scene.task = none)

/-- A scene that comes to rest: an open proxy acquires leadership if it serves nothing, and a closed
one may still have to give up. -/
inductive Pending (scene : Scene δ) : Prop
  | serving (term : Term) (isOpen : scene.register.closed = false) (goes : scene.stopped = false)
      (served : scene.register.current = some term) (nothing : scene.task = none)
  | acquiring (isOpen : scene.register.closed = false) (goes : scene.stopped = false)
      (vacant : scene.register.current = none)
      (task : scene.task = some (.queued none 0) ∨ scene.task = some (.waiting 0))
  | shut (closed : scene.register.closed = true) (stopped : scene.stopped = true)
      (vacant : scene.register.current = none)
      (task : scene.task = none ∨ scene.task = some (.waiting 0))

theorem AtRest.pending {scene : Scene δ} (h : scene.AtRest) : scene.Pending := by
  cases h with
  | serving term isOpen goes served nothing => exact .serving term isOpen goes served nothing
  | waiting isOpen goes vacant unheld waits => exact .acquiring isOpen goes vacant (.inr waits)
  | shut closed stopped vacant nothing => exact .shut closed stopped vacant (.inl nothing)

/-- What comes of it. -/
def settle (scene : Scene δ) : Scene δ :=
  match scene.task, scene.stopped, scene.election.held with
  | none, _, _ => scene
  | some _, true, _ => { scene with task := none }
  | some _, false, some token => { scene.publish token with task := none }
  | some _, false, none => { scene with task := some (.waiting 0) }

/-- An open proxy that acquires leadership serves the token that is held. -/
theorem settle_held {scene : Scene δ} {token : Token} (hgoing : scene.stopped = false)
    (htask : scene.task = some (.queued none 0) ∨ scene.task = some (.waiting 0))
    (hheld : scene.election.held = some token) :
    scene.settle = { scene.publish token with task := none } := by
  rcases htask with htask | htask <;> simp only [settle, htask, hgoing, hheld]

/-- It waits for one where none is. -/
theorem settle_unheld {scene : Scene δ} (hgoing : scene.stopped = false)
    (htask : scene.task = some (.queued none 0) ∨ scene.task = some (.waiting 0))
    (hheld : scene.election.held = none) :
    scene.settle = { scene with task := some (.waiting 0) } := by
  rcases htask with htask | htask <;> simp only [settle, htask, hgoing, hheld]

/-- A proxy that was told to stop gives up what it does. -/
theorem settle_stopped {scene : Scene δ} (hstopped : scene.stopped = true) :
    scene.settle = { scene with task := none } := by
  cases htask : scene.task with
  | none =>
    simp only [settle, htask]
    rw [← htask]
  | some acquisition => simp only [settle, htask, hstopped]

/-- Nothing comes of a rest. -/
theorem AtRest.settle_eq {scene : Scene δ} (h : scene.AtRest) : scene.settle = scene := by
  cases h with
  | serving term isOpen goes served nothing => simp only [settle, nothing]
  | waiting isOpen goes vacant unheld waits =>
    rw [settle_unheld goes (.inr waits) unheld, ← waits]
  | shut closed stopped vacant nothing => simp only [settle, nothing]

theorem Pending.atRest_settle {scene : Scene δ} (h : scene.Pending) : scene.settle.AtRest := by
  cases h with
  | serving term isOpen goes served nothing =>
    have hrest : scene.AtRest := .serving term isOpen goes served nothing
    rwa [hrest.settle_eq]
  | acquiring isOpen goes vacant task =>
    cases hheld : scene.election.held with
    | some token =>
      rw [settle_held goes task hheld]
      exact .serving _ isOpen goes rfl rfl
    | none =>
      rw [settle_unheld goes task hheld]
      exact .waiting isOpen goes vacant hheld rfl
  | shut closed stopped vacant task =>
    rw [settle_stopped stopped]
    exact .shut closed stopped vacant rfl

theorem pending_acquire {scene : Scene δ} (hopen : scene.register.closed = false)
    (hvacant : scene.register.current = none) (hgoing : scene.stopped = false)
    (htask : scene.task = none) : scene.acquire.Pending := by
  cases hheld : scene.election.held with
  | some token =>
    simp only [acquire, hheld]
    exact .serving _ hopen hgoing rfl htask
  | none =>
    simp only [acquire, hheld]
    exact .acquiring hopen hgoing hvacant (.inl rfl)

/-- A step of an acquisition at a scene leads to another one, hands some work over, and leaves so
many delegates built. -/
def Goes (frame : Frame) (scene : Scene δ) (acquisition : Acquisition) (answers : Answers)
    (next : Acquisition) (brought : Nat) (task : Option Acquisition) : Prop :=
  ∀ grounds : Grounds, grounds.register = scene.register → grounds.brought = scene.brought →
    grounds.stopped = scene.stopped →
    (acquisition.proceed frame.client grounds answers).1 = next ∧
    (acquisition.proceed frame.client grounds answers).2.1.register = scene.register ∧
    (acquisition.proceed frame.client grounds answers).2.1.brought = brought ∧
    (acquisition.proceed frame.client grounds answers).2.1.stopped = scene.stopped ∧
    (acquisition.proceed frame.client grounds answers).2.2 = task

end Scene

namespace World

variable {α δ : Type} {frame : Frame} {scene : Scene δ} {world : World α δ} {seat : Seat α δ}
  {token : Token}

namespace Plays

/-! ### One step of an acquisition -/

/-- A step of an acquisition is done to the scene. -/
theorem proceed (h : world.Plays frame scene) {acquisition next : Acquisition} {answers : Answers}
    {brought : Nat} {task : Option Acquisition}
    (hnext : scene.Goes frame acquisition answers next brought task) :
    Comes frame { scene with brought, task := task <|> scene.task } next
      (world.proceed 0 acquisition answers) := by
  obtain ⟨seat, hseat, hplays⟩ := h.getElem?
  obtain ⟨hcall, hregister, hbrought, hstopped, htask⟩ :=
    hnext seat.toGrounds hplays.register hplays.brought hplays.stopped
  simp only [World.proceed, hseat, hplays.client]
  refine ⟨hcall, (h.ground _).modify _ rfl fun other hother => ?_⟩
  exact
    { hother with
      register := hother.register.trans hregister
      brought := hother.brought.trans hbrought
      stopped := hother.stopped.trans hstopped
      task := by simp only [htask, hother.task] }

/-- A step that hands nothing over and builds nothing. -/
theorem stride (h : world.Plays frame scene) {acquisition next : Acquisition} {answers : Answers}
    (hnext : scene.Goes frame acquisition answers next scene.brought none) :
    Comes frame scene (.to next) (world.stride 0 acquisition answers) := by
  obtain ⟨hcall, hleft⟩ := h.proceed hnext
  exact ⟨congrArg Stride.to hcall, hleft⟩

theorem election_held (h : world.Plays frame scene) :
    world.election.held = scene.election.held := by
  rw [← h.election]
  rfl

theorem progress_enter (h : world.Plays frame scene) (hopen : scene.register.closed = false) :
    Comes frame scene (.to .ask) (world.progress 0 seat .enter) := by
  simp only [progress, Acquisition.isDroppable, Bool.and_false, Bool.false_eq_true, if_false]
  refine h.stride fun grounds hregister hbrought hstopped =>
    ⟨?_, hregister, hbrought, hstopped, rfl⟩
  simp [Acquisition.proceed, Acquisition.flagRead, hregister, hopen]

theorem progress_ask (h : world.Plays frame scene) (hheld : scene.election.held = some token) :
    Comes frame scene (.to (.build .caller token 0)) (world.progress 0 seat .ask) := by
  simp only [progress, Acquisition.isDroppable, Bool.and_false, Bool.false_eq_true, if_false,
    h.election_held, hheld]
  exact h.stride fun grounds hregister hbrought hstopped =>
    ⟨rfl, hregister, hbrought, hstopped, rfl⟩

theorem progress_ask_none (h : world.Plays frame scene) (hheld : scene.election.held = none) :
    Comes frame scene (.to (.handOver none 0)) (world.progress 0 seat .ask) := by
  simp only [progress, Acquisition.isDroppable, Bool.and_false, Bool.false_eq_true, if_false,
    h.election_held, hheld]
  exact h.stride fun grounds hregister hbrought hstopped =>
    ⟨rfl, hregister, hbrought, hstopped, rfl⟩

theorem progress_handOver (h : world.Plays frame scene) (hgoing : scene.stopped = false) :
    Comes frame { scene with task := some (.queued none 0) } (.to .finished)
      (world.progress 0 seat (.handOver none 0)) := by
  have hnext : scene.Goes frame (.handOver none 0) {} .finished scene.brought
      (some (.queued none 0)) := by
    intro grounds hregister hbrought hstopped
    simp [Acquisition.proceed, Acquisition.handedOver, Acquisition.refusal, hregister, hbrought,
      hstopped, hgoing]
  obtain ⟨hcall, hleft⟩ := h.proceed hnext
  simp only [progress, Acquisition.isDroppable, Bool.and_false, Bool.false_eq_true, if_false]
  exact ⟨congrArg Stride.to hcall, hleft⟩

theorem progress_queued (h : world.Plays frame scene) (hseat : seat.Plays frame scene)
    (hgoing : scene.stopped = false) :
    Comes frame scene (.to (.again none 0)) (world.progress 0 seat (.queued none 0)) := by
  simp only [progress, hseat.stopped, hgoing, Bool.false_and, Bool.false_eq_true, if_false]
  exact h.stride fun grounds hregister hbrought hstopped =>
    ⟨rfl, hregister, hbrought, hstopped, rfl⟩

theorem progress_again (h : world.Plays frame scene) (hopen : scene.register.closed = false) :
    Comes frame scene (.to (.wait 0)) (world.progress 0 seat (.again none 0)) := by
  simp only [progress, Acquisition.isDroppable, Bool.and_false, Bool.false_eq_true, if_false]
  refine h.stride fun grounds hregister hbrought hstopped =>
    ⟨?_, hregister, hbrought, hstopped, rfl⟩
  simp [Acquisition.proceed, Acquisition.flagRead, hregister, hopen]

theorem progress_wait (h : world.Plays frame scene) (hseat : seat.Plays frame scene) :
    Comes frame scene (.to (.waiting 0)) (world.progress 0 seat (.wait 0)) := by
  have hnext : scene.Goes frame (.wait 0) {} (.waiting 0) scene.brought none :=
    fun grounds hregister hbrought hstopped => ⟨rfl, hregister, hbrought, hstopped, rfl⟩
  obtain ⟨left, hproceed, hleft⟩ := (h.proceed hnext).exists
  have hcounted := hleft.modify_unseen
    (fun seat => { seat with waits := seat.waits.tail, waitCount := seat.waitCount + 1 })
    fun other hother => { hother with waits := by simp [hother.waits] }
  simp only [progress, Acquisition.isDroppable, Bool.and_false, Bool.false_eq_true, if_false,
    hseat.waits, hproceed]
  -- only the count of waits has changed in the election
  exact ⟨rfl, hcounted.election, hcounted.executors, hcounted.seat⟩

theorem progress_waiting (h : world.Plays frame scene) (hseat : seat.Plays frame scene)
    (hgoing : scene.stopped = false) (hheld : scene.election.held = some token) :
    Comes frame scene (.to (.confirm token 0)) (world.progress 0 seat (.waiting 0)) := by
  simp only [progress, hseat.stopped, hgoing, Bool.false_and, Bool.false_eq_true, if_false,
    h.election_held, hheld]
  exact h.stride fun grounds hregister hbrought hstopped =>
    ⟨rfl, hregister, hbrought, hstopped, rfl⟩

theorem progress_waiting_none (h : world.Plays frame scene) (hseat : seat.Plays frame scene)
    (hgoing : scene.stopped = false) (hheld : scene.election.held = none) :
    world.progress 0 seat (.waiting 0) = (.rests, world) := by
  simp only [progress, hseat.stopped, hgoing, Bool.false_and, Bool.false_eq_true, if_false,
    h.election_held, hheld]

theorem progress_confirm (h : world.Plays frame scene) (hopen : scene.register.closed = false) :
    Comes frame scene (.to (.build .own token 0)) (world.progress 0 seat (.confirm token 0)) := by
  simp only [progress, Acquisition.isDroppable, Bool.and_false, Bool.false_eq_true, if_false]
  refine h.stride fun grounds hregister hbrought hstopped =>
    ⟨?_, hregister, hbrought, hstopped, rfl⟩
  simp [Acquisition.proceed, Acquisition.flagRead, hregister, hopen]

/-- A construction ends well. -/
theorem construct (h : world.Plays frame scene) (site : Site) :
    Comes frame scene (.ends none) (world.construct 0 site) := by
  obtain ⟨seat, hseat, hplays⟩ := h.getElem?
  have hworks : seat.constructions.head?.getD .works = .works := by rw [hplays.constructions]; rfl
  simp only [World.construct, hseat, hworks]
  refine ⟨rfl, h.modify_unseen _ fun other hother => ?_⟩
  exact { hother with constructions := by simp [hother.constructions] }

theorem progress_build (h : world.Plays frame scene) (site : Site) :
    Comes frame
      { scene with
        brought := scene.brought + 1
        delegates := scene.delegates ++ [scene.fresh] }
      (.to (.publishing (.publish ⟨token, scene.brought + 1⟩)))
      (world.progress 0 seat (.build site token 0)) := by
  have hbegun : scene.Goes frame (.build site token 0) {} (.building site token 0) scene.brought
      none :=
    fun grounds hregister hbrought hstopped => ⟨rfl, hregister, hbrought, hstopped, rfl⟩
  have hbuilt : scene.Goes frame (.building site token 0) { construction := none }
      (.publishing (.publish ⟨token, scene.brought + 1⟩)) (scene.brought + 1) none := by
    intro grounds hregister hbrought hstopped
    refine ⟨?_, hregister, ?_, hstopped, rfl⟩
    · simp [Acquisition.proceed, Grounds.construct, Acquisition.built, hbrought]
    · rw [← hbrought]
      rfl
  -- three changes of the world are one step of the acquisition
  obtain ⟨begun, hproceed, hplays⟩ := (h.proceed hbegun).exists
  obtain ⟨constructed, hconstruct, hplays⟩ := (hplays.construct site).exists
  obtain ⟨concluded, hconclude, hplays⟩ := (hplays.proceed hbuilt).exists
  simp only [progress, Acquisition.isDroppable, Bool.and_false, Bool.false_eq_true, if_false,
    hproceed, hconstruct, conclude, hconclude]
  refine ⟨rfl, hplays.modify _ rfl fun other hother =>
    { hother with delegates := ?_, released := ?_ }⟩
  · rw [← hother.delegates, ← hother.fresh]
    rfl
  · rw [← hother.released]
    simp [Seat.create, Seat.show, Event.released?]

/-- A publication ends well where an open proxy serves nothing. -/
theorem progress_publish (h : world.Plays frame scene) (hopen : scene.register.closed = false)
    (hvacant : scene.register.current = none) (holding : Holding) :
    Comes frame
      { scene with
        register :=
          { scene.register with
            current := some ⟨holding, scene.register.generation + 1⟩
            generation := scene.register.generation + 1 } }
      (.to .finished) (world.progress 0 seat (.publishing (.publish holding))) := by
  obtain ⟨ledger, outcome, ledger', others, hledger, -, hreaches, hothers, hcomes⟩ :=
    h.operate (.publish holding) rfl
  obtain ⟨rfl, hregister, hreleased⟩ :=
    hreaches.publish (by rw [hledger]; exact hopen) (by rw [hledger]; exact hvacant)
  obtain rfl : others = [] := List.append_right_eq_self.mp (hothers.symm.trans hreleased)
  simp only [hledger, List.append_nil] at hregister hcomes
  obtain ⟨left, hoperate, hplays⟩ := hcomes.exists
  rw [hregister, ← hopen] at hplays
  simp only [progress, Acquisition.isDroppable, Bool.and_false, Bool.false_eq_true, if_false,
    hoperate]
  exact hplays.stride fun grounds hregister hbrought hstopped =>
    ⟨rfl, hregister, hbrought, hstopped, rfl⟩

theorem progress_dropped (h : world.Plays frame scene) (hseat : seat.Plays frame scene)
    {acquisition : Acquisition} (hstopped : scene.stopped = true)
    (hdroppable : acquisition.isDroppable = true) :
    Comes frame scene (.gone false) (world.progress 0 seat acquisition) := by
  simp only [progress, hseat.stopped, hstopped, hdroppable, Bool.and_self, if_true]
  exact ⟨rfl, h⟩

theorem progress_finished (h : world.Plays frame scene) :
    Comes frame scene (.gone false) (world.progress 0 seat .finished) := by
  simp only [progress, Acquisition.isDroppable, Bool.and_false, Bool.false_eq_true, if_false]
  exact ⟨rfl, h⟩

/-! ### On the thread of the caller -/

/-- An acquisition gets on and then goes on. -/
theorem pursue_to (h : world.Plays frame scene) {steps : Nat} {acquisition next : Acquisition}
    {answer : Bool} {between left : Scene δ}
    (hto : ∀ seat, seat.Plays frame scene →
      Comes frame between (.to next) (world.progress 0 seat acquisition))
    (hrest : ∀ world : World α δ, world.Plays frame between →
      Comes frame left answer (pursue 0 steps next world)) :
    Comes frame left answer (pursue 0 (steps + 1) acquisition world) := by
  obtain ⟨seat, hseat, hplays⟩ := h.getElem?
  obtain ⟨world', hprogress, hbetween⟩ := (hto seat hplays).exists
  simp only [pursue, hseat, hprogress]
  exact hrest world' hbetween

/-- An acquisition that is over. -/
theorem pursue_finished (h : world.Plays frame scene) (steps : Nat) :
    Comes frame scene true (pursue 0 (steps + 1) .finished world) := by
  obtain ⟨seat, hseat, hplays⟩ := h.getElem?
  have hfinished : Comes frame scene (.gone false) (world.progress 0 seat .finished) :=
    h.progress_finished
  obtain ⟨world', hprogress, hleft⟩ := hfinished.exists
  simp only [pursue, hseat, hprogress]
  exact ⟨rfl, hleft⟩

/-- An acquisition for an open proxy that serves nothing comes to its end on its caller's thread. -/
theorem acquire (h : world.Plays frame scene) (hopen : scene.register.closed = false)
    (hvacant : scene.register.current = none) (hgoing : scene.stopped = false) :
    Comes frame scene.acquire true (world.acquire 0 .enter) := by
  refine h.pursue_to (fun _ _ => h.progress_enter hopen) fun world h => ?_
  cases hheld : scene.election.held with
  | some token =>
    -- the fast path: the token is there, and all is done on this thread
    refine h.pursue_to (fun _ _ => h.progress_ask hheld) fun world h => ?_
    refine h.pursue_to (fun _ _ => h.progress_build .caller) fun world h => ?_
    refine h.pursue_to (fun _ _ => h.progress_publish hopen hvacant _) fun world h => ?_
    simp only [Scene.acquire, hheld]
    exact h.pursue_finished 3
  | none =>
    -- all that is done on this thread is to hand the work over
    refine h.pursue_to (fun _ _ => h.progress_ask_none hheld) fun world h => ?_
    refine h.pursue_to (fun _ _ => h.progress_handOver hgoing) fun world h => ?_
    simpa only [Scene.acquire, hheld] using h.pursue_finished 4

/-! ### On the acquisition thread -/

/-- What is on the acquisition thread gets on and then goes on. -/
theorem settleWithin_to (h : world.Plays frame scene) {steps : Nat}
    {acquisition next : Acquisition} {between left : Scene δ}
    (htask : scene.task = some acquisition)
    (hto : ∀ seat, seat.Plays frame scene →
      Comes frame between (.to next) (world.progress 0 seat acquisition))
    (hrest : ∀ world : World α δ, world.Plays frame { between with task := some next } →
      (settleWithin steps world).Plays frame left) :
    (settleWithin (steps + 1) world).Plays frame left := by
  obtain ⟨seat, hseats, hplays⟩ := h.seat
  obtain ⟨world', hprogress, hbetween⟩ := (hto seat hplays).exists
  have hstir : world.stir (List.range world.seats.length) =
      some (world'.modify 0 fun seat => { seat with task := some next }) := by
    simp [hseats, List.range_succ, stir, hplays.task, htask, hprogress]
  simp only [settleWithin, hstir]
  exact hrest _ (hbetween.modify _ rfl fun _ hother => { hother with task := rfl })

/-- What is on the acquisition thread is over. -/
theorem settleWithin_gone (h : world.Plays frame scene) {steps : Nat}
    {acquisition : Acquisition} {broke : Bool} {between left : Scene δ}
    (htask : scene.task = some acquisition)
    (hgone : ∀ seat, seat.Plays frame scene →
      Comes frame between (.gone broke) (world.progress 0 seat acquisition))
    (hrest : ∀ world : World α δ, world.Plays frame { between with task := none } →
      (settleWithin steps world).Plays frame left) :
    (settleWithin (steps + 1) world).Plays frame left := by
  obtain ⟨seat, hseats, hplays⟩ := h.seat
  obtain ⟨world', hprogress, hbetween⟩ := (hgone seat hplays).exists
  have hstir : world.stir (List.range world.seats.length) =
      some (world'.modify 0 fun seat => { seat with task := none }) := by
    simp [hseats, List.range_succ, stir, hplays.task, htask, hprogress]
  simp only [settleWithin, hstir]
  exact hrest _ (hbetween.modify _ rfl fun _ hother => { hother with task := rfl })

/-- Nothing is on the acquisition thread. -/
theorem settleWithin_none (h : world.Plays frame scene) (htask : scene.task = none) (steps : Nat) :
    settleWithin steps world = world := by
  obtain ⟨seat, hseats, hplays⟩ := h.seat
  have hstir : world.stir (List.range world.seats.length) = none := by
    simp [hseats, List.range_succ, stir, hplays.task, htask]
  cases steps with
  | zero => rfl
  | succ steps => simp only [settleWithin, hstir]

/-- What is on the acquisition thread waits for an election that holds nothing. -/
theorem settleWithin_waiting_none (h : world.Plays frame scene)
    (htask : scene.task = some (.waiting 0)) (hgoing : scene.stopped = false)
    (hheld : scene.election.held = none) (steps : Nat) : settleWithin steps world = world := by
  obtain ⟨seat, hseats, hplays⟩ := h.seat
  have hstir : world.stir (List.range world.seats.length) = none := by
    simp [hseats, List.range_succ, stir, hplays.task, htask,
      h.progress_waiting_none hplays hgoing hheld]
  cases steps with
  | zero => rfl
  | succ steps => simp only [settleWithin, hstir]

/-- A wait for an election that holds a token comes to its being served. -/
theorem settleWithin_waiting (h : world.Plays frame scene) (htask : scene.task = some (.waiting 0))
    (hopen : scene.register.closed = false) (hvacant : scene.register.current = none)
    (hgoing : scene.stopped = false) (hheld : scene.election.held = some token) (steps : Nat) :
    (settleWithin (steps + 5) world).Plays frame { scene.publish token with task := none } := by
  refine h.settleWithin_to htask (fun _ hseat => h.progress_waiting hseat hgoing hheld)
    fun world h => ?_
  refine h.settleWithin_to rfl (fun _ _ => h.progress_confirm hopen) fun world h => ?_
  refine h.settleWithin_to rfl (fun _ _ => h.progress_build .own) fun world h => ?_
  refine h.settleWithin_to rfl (fun _ _ => h.progress_publish hopen hvacant _) fun world h => ?_
  refine h.settleWithin_gone rfl (fun _ _ => h.progress_finished) fun world h => ?_
  rw [h.settleWithin_none rfl]
  exact h

theorem stamina (h : world.Plays frame scene) : world.stamina = 16 := by
  obtain ⟨seat, hseats, hplays⟩ := h.seat
  simp [World.stamina, hseats, hplays.waits, hplays.constructions]

/-- All that goes on comes to rest. -/
theorem settle (h : world.Plays frame scene) (hpending : scene.Pending) :
    world.settle.Plays frame scene.settle := by
  rw [World.settle, h.stamina]
  cases hpending with
  | serving term hopen hgoing hserved htask =>
    rw [h.settleWithin_none htask]
    simpa only [Scene.settle, htask] using h
  | shut hclosed hstopped hvacant htask =>
    rcases htask with htask | htask
    · rw [h.settleWithin_none htask]
      simpa only [Scene.settle, htask] using h
    · -- what waits is dropped
      rw [Scene.settle_stopped hstopped]
      refine h.settleWithin_gone htask (fun _ hseat => h.progress_dropped hseat hstopped rfl)
        fun world h => ?_
      rw [h.settleWithin_none rfl]
      exact h
  | acquiring hopen hgoing hvacant htask =>
    -- what is in the queue comes to wait first
    have hwaits (world : World α δ)
        (h : world.Plays frame { scene with task := some (.waiting 0) }) (steps : Nat) :
        (settleWithin (steps + 5) world).Plays frame scene.settle := by
      cases hheld : scene.election.held with
      | some token =>
        rw [Scene.settle_held hgoing htask hheld]
        exact h.settleWithin_waiting rfl hopen hvacant hgoing hheld steps
      | none =>
        rw [h.settleWithin_waiting_none rfl hgoing hheld, Scene.settle_unheld hgoing htask hheld]
        exact h
    rcases htask with htask | htask
    · refine h.settleWithin_to htask (fun _ hseat => h.progress_queued hseat hgoing)
        fun world h => ?_
      refine h.settleWithin_to rfl (fun _ _ => h.progress_again hopen) fun world h => ?_
      refine h.settleWithin_to rfl (fun _ hseat => h.progress_wait hseat) fun world h => ?_
      exact hwaits world h 8
    · have hsame : { scene with task := some (.waiting 0) } = scene := by rw [← htask]
      exact hwaits world (hsame ▸ h) 11

end Plays

end World

end Tenure.ProxyWatch
