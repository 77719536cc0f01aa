import Tenure.Proofs.Scenario.Calling
import Tenure.Proofs.Scenario.Reference

/-!
# A proxy refines the reference machine

Every scene that a proxy at rest comes to is one that the reference machine knows: what the machine
keeps can be read off the election and the register, and what the proxy does leads to a scene that,
once it has come to rest, the machine has reached as well.

## Main definitions

* `tokenOf` — the token of a term
* `Scene.Matches` — the machine keeps what a scene shows
* `Scene.Leads` — a scene comes to rest where the machine has caught up
* `Setup.Undisturbed` — a proxy is made whose scripts hold nothing but releases

## Main results

* `Scene.Matches.change`, `Scene.Matches.call`, `Scene.Matches.close` — each step leads on
* `World.Plays.step` — a step of the proxy is a step of the machine
* `World.Plays.run_sight` — what is seen of a proxy at rest is what is seen of the machine
* `refines_reference` — so it is from the making of the proxy on
* `checks_can_come_first` — it is not so of a machine for which a call takes its operation first
-/

namespace Tenure.ProxyWatch

/-- The token of a term, of an election that strikes one for every term that it grants. -/
def tokenOf (number : Nat) : Token := ⟨number - 1, number⟩

theorem tokenOf_injective : Function.Injective tokenOf :=
  fun _ _ h => congrArg Token.term h

/-- What a step answers that was done. -/
def Acted.reply {α : Type} : Acted → Reply α
  | nothing => .nothing
  | term number => .term number
  | broke => .heard (.told .broke)

/-- What comes of a change, and the election after it. -/
def Change.apply (election : LocalElection) : Change → Acted × LocalElection
  | grant => (.term election.grant.1.term, election.grant.2)
  | revoke => (.nothing, election.revoke)
  | force status => (.nothing, election.force status)
  | point hint => (.nothing, election.point hint)

/-- A proxy is made whose thread can be named after its client, whose factory always succeeds, which
leaves all answers to the election, and whose delegates return from their releases. -/
structure Setup.Undisturbed (setup : Setup) : Prop where
  nameable : Worker.nameable setup.client = true
  waits : setup.scripts.waits = []
  answers : setup.scripts.answers = []
  constructions : setup.scripts.constructions = []
  releases : ∀ conduct ∈ setup.scripts.releases, conduct.returns = true
  hintHook : setup.scripts.hintHook = none

/-- The machine keeps what an election knows. -/
structure Reference.Knows (reference : Reference) (election : LocalElection) : Prop where
  struck : election.mint.struck = reference.granted
  granted : election.granted = reference.granted
  held : election.held = reference.held.map tokenOf
  forced : election.forced = reference.forced
  hint : election.hint = reference.hint

/-- The machine keeps what a scene shows. -/
structure Scene.Matches {δ : Type} (reference : Reference) (scene : Scene δ) : Prop where
  knows : reference.Knows scene.election
  served : scene.register.current.map (·.token) = reference.served.map tokenOf
  closed : scene.register.closed = reference.closed

/-- A scene comes to rest where the machine has caught up. -/
structure Scene.Leads {δ : Type} (reference : Reference) (scene : Scene δ) : Prop where
  pending : scene.Pending
  settle : scene.settle.Matches reference.catchUp

namespace Reference

variable {reference : Reference} {election : LocalElection}

theorem catchUp_catchUp : reference.catchUp.catchUp = reference.catchUp := by
  unfold catchUp
  by_cases hclosed : reference.closed = true
  · simp [hclosed]
  · cases reference.served <;> cases reference.held <;> simp [hclosed]

theorem catchUp_of_served {number : Nat} (h : reference.served = some number) :
    reference.catchUp = reference := by
  cases reference with
  | mk granted held forced hint served closed =>
    obtain rfl : served = some number := h
    cases closed <;> rfl

theorem catchUp_of_closed (h : reference.closed = true) : reference.catchUp = reference :=
  if_pos h

/-- The machine is told of every change. -/
theorem Knows.change {α : Type} (h : reference.Knows election) (change : Change) :
    (reference.change (α := α) change).1 = (change.apply election).1.reply ∧
      (reference.change (α := α) change).2.Knows (change.apply election).2 := by
  cases change with
  | grant =>
    have hterm : reference.granted + 1 = election.granted + 1 := by rw [h.granted]
    refine ⟨congrArg Reply.term hterm, ?_, ?_, ?_, h.forced, h.hint⟩
    · exact congrArg (· + 1) h.struck
    · exact hterm.symm
    -- the serial number of the new token is the number of its term less one
    · change some (⟨election.mint.struck, election.granted + 1⟩ : Token) = _
      rw [h.struck, h.granted]
      rfl
  | revoke => exact ⟨rfl, h.struck, h.granted, rfl, h.forced, h.hint⟩
  | force status => exact ⟨rfl, h.struck, h.granted, h.held, rfl, h.hint⟩
  | point hint => exact ⟨rfl, h.struck, h.granted, h.held, h.forced, rfl⟩

end Reference

namespace Scene

variable {α δ : Type} {reference : Reference} {scene : Scene δ}

/-- The proxy is closed, and what it served is released. -/
def close (scene : Scene δ) : Scene δ :=
  { scene.retire with
    register := { scene.register with current := none, closed := true }
    stopped := true }

/-- Nothing was seen yet. -/
def forget (scene : Scene δ) : Scene δ := { scene with released := [] }

theorem Matches.forget (h : scene.Matches reference) : scene.forget.Matches reference :=
  ⟨h.knows, h.served, h.closed⟩

theorem AtRest.forget (h : scene.AtRest) : scene.forget.AtRest := by
  cases h with
  | serving term isOpen goes served nothing => exact .serving term isOpen goes served nothing
  | waiting isOpen goes vacant unheld waits => exact .waiting isOpen goes vacant unheld waits
  | shut closed stopped vacant nothing => exact .shut closed stopped vacant nothing

/-- A rest more does no harm. -/
theorem Leads.settled (h : scene.Leads reference) : scene.settle.Leads reference := by
  have hrest := h.pending.atRest_settle
  refine ⟨hrest.pending, ?_⟩
  rw [hrest.settle_eq]
  exact h.settle

namespace Matches

theorem served_eq_none (h : scene.Matches reference) (hvacant : scene.register.current = none) :
    reference.served = none := by
  have hserved := h.served
  rw [hvacant] at hserved
  exact Option.map_eq_none_iff.mp hserved.symm

theorem served_eq_some (h : scene.Matches reference) {term : Term}
    (hserved : scene.register.current = some term) : ∃ number, reference.served = some number := by
  have hmap := h.served
  rw [hserved] at hmap
  obtain ⟨number, hnumber, -⟩ := Option.map_eq_some_iff.mp hmap.symm
  exact ⟨number, hnumber⟩

theorem catchUp_of_vacant (h : scene.Matches reference) (hopen : scene.register.closed = false)
    (hvacant : scene.register.current = none) :
    reference.catchUp = { reference with served := reference.held } := by
  simp [Reference.catchUp, ← h.closed, hopen, h.served_eq_none hvacant]

/-- The machine catches up with a publication. -/
theorem publish (h : scene.Matches reference) (hopen : scene.register.closed = false)
    (hvacant : scene.register.current = none) {token : Token}
    (hheld : scene.election.held = some token) :
    (scene.publish token).Matches reference.catchUp := by
  rw [h.catchUp_of_vacant hopen hvacant]
  exact ⟨{ h.knows with }, hheld.symm.trans h.knows.held, h.closed⟩

/-- There is nothing to catch up with where no token is held. -/
theorem unheld (h : scene.Matches reference) (hopen : scene.register.closed = false)
    (hvacant : scene.register.current = none) (hheld : scene.election.held = none) :
    scene.Matches reference.catchUp := by
  rw [h.catchUp_of_vacant hopen hvacant]
  refine ⟨{ h.knows with }, ?_, h.closed⟩
  rw [hvacant, ← h.knows.held, hheld]
  rfl

/-- The machine catches up with an acquisition. -/
theorem acquire (h : scene.Matches reference) (hopen : scene.register.closed = false)
    (hvacant : scene.register.current = none) : scene.acquire.Matches reference.catchUp := by
  cases hheld : scene.election.held with
  | some token =>
    simp only [Scene.acquire, hheld]
    exact h.publish hopen hvacant hheld
  | none =>
    simp only [Scene.acquire, hheld]
    exact { h.unheld hopen hvacant hheld with }

/-- A rest lets the machine catch up. -/
theorem leads (h : scene.Matches reference) (hpending : scene.Pending) : scene.Leads reference := by
  refine ⟨hpending, ?_⟩
  cases hpending with
  | serving term hopen hgoing hserved htask =>
    have hrest : scene.AtRest := .serving term hopen hgoing hserved htask
    obtain ⟨number, hnumber⟩ := h.served_eq_some hserved
    rw [hrest.settle_eq, Reference.catchUp_of_served hnumber]
    exact h
  | acquiring hopen hgoing hvacant htask =>
    cases hheld : scene.election.held with
    | some token =>
      rw [settle_held hgoing htask hheld]
      exact { h.publish hopen hvacant hheld with }
    | none =>
      rw [settle_unheld hgoing htask hheld]
      exact { h.unheld hopen hvacant hheld with }
  | shut hclosed hstopped hvacant htask =>
    rw [settle_stopped hstopped, Reference.catchUp_of_closed (h.closed.symm.trans hclosed)]
    exact { h with }

/-- An acquisition for an open proxy that serves nothing comes to rest where the machine has caught
up. -/
theorem leads_acquire (h : scene.Matches reference) (hopen : scene.register.closed = false)
    (hvacant : scene.register.current = none) (hgoing : scene.stopped = false)
    (htask : scene.task = none) : scene.acquire.Leads reference := by
  have hpending := pending_acquire hopen hvacant hgoing htask
  refine ⟨hpending, ?_⟩
  -- the acquisition has caught up already, and the rest does it once more
  rw [← Reference.catchUp_catchUp]
  exact ((h.acquire hopen hvacant).leads hpending).settle

/-- A check of the served term is told what the machine tells it. -/
theorem answer (h : scene.Matches reference) {term : Term}
    (hserved : scene.register.current = some term) :
    scene.election.answer term.token = reference.status := by
  -- a token is known by its term, for the election strikes one token for each
  have hsame : scene.election.held = some term.token ↔ reference.served = reference.held := by
    have hmap : some term.token = reference.served.map tokenOf := by rw [← h.served, hserved]; rfl
    rw [hmap, h.knows.held]
    exact (Option.map_injective tokenOf_injective).eq_iff.trans eq_comm
  unfold LocalElection.answer Reference.status
  rw [h.knows.forced]
  cases reference.forced with
  | some status => rfl
  | none => simp only [hsame, Option.getD_none]

/-! ### The steps -/

theorem apply (h : scene.Matches reference) (change : Change) :
    Matches (reference.change (α := α) change).2
      { scene with election := (change.apply scene.election).2 } := by
  refine ⟨(h.knows.change change).2, h.served.trans ?_, h.closed.trans ?_⟩ <;> cases change <;> rfl

theorem applyAll (h : scene.Matches reference) (changes : List Change) :
    Matches (changes.foldl (fun reference change => (reference.change (α := Unit) change).2)
        reference)
      { scene with
        election :=
          changes.foldl (fun election change => (change.apply election).2) scene.election } := by
  induction changes generalizing scene reference with
  | nil => exact h
  | cons change rest ih => exact ih (h.apply change)

/-- The machine does not keep what was counted. -/
theorem uncounted (h : scene.Matches reference) :
    Matches reference { scene with election := scene.election.uncounted } :=
  ⟨{ h.knows with }, h.served, h.closed⟩

/-- A change of the election. -/
theorem change (h : scene.Matches reference) (hrest : scene.AtRest) (change : Change) :
    Leads (reference.change (α := α) change).2
      { scene with election := (change.apply scene.election).2 } := by
  refine (h.apply change).leads ?_
  cases hrest with
  | serving term hopen hgoing hserved htask => exact .serving term hopen hgoing hserved htask
  | waiting hopen hgoing hvacant hheld htask => exact .acquiring hopen hgoing hvacant (.inr htask)
  | shut hclosed hstopped hvacant htask => exact .shut hclosed hstopped hvacant (.inl htask)

/-- A call that has lost its term. -/
theorem lose (h : scene.Matches reference) (hopen : scene.register.closed = false)
    (hgoing : scene.stopped = false) (htask : scene.task = none) (cause : Option String) :
    scene.lose.Leads (reference.lose (α := α) cause).2 := by
  have hmatches : Matches (reference.lose (α := α) cause).2 scene.retire :=
    ⟨{ h.knows with }, rfl, h.closed⟩
  exact hmatches.leads_acquire hopen rfl hgoing htask

/-- A call. -/
theorem call (h : scene.Matches reference) (hrest : scene.AtRest) (client : String) (style : Style)
    (order : Order) (ending : Except DelegateFailure α) :
    (scene.call client style order ending).1 = (reference.call client style order.first ending).1 ∧
      (scene.call client style order ending).2.Leads
        (reference.call client style order.first ending).2 := by
  have hstays := h.leads hrest.pending
  cases hrest with
  | shut hclosed hstopped hvacant htask =>
    simp only [Scene.call, Reference.call, hclosed, ← h.closed, if_true]
    exact ⟨trivial, hstays⟩
  | waiting hopen hgoing hvacant hheld htask =>
    simp only [Scene.call, Reference.call, hopen, hvacant, ← h.closed, h.served_eq_none hvacant,
      Bool.false_eq_true, if_false, if_true, h.knows.hint]
    exact ⟨trivial, hstays⟩
  | serving term hopen hgoing hserved htask =>
    obtain ⟨number, hnumber⟩ := h.served_eq_some hserved
    have hlost (cause : Option String) := h.lose (α := α) hopen hgoing htask cause
    simp only [Scene.call, Reference.call, hopen, hserved, ← h.closed, hnumber, h.answer hserved,
      Bool.false_eq_true, if_false, reduceCtorEq]
    split
    -- the checks were taken first, and the proxy has rested before the call's operation or not
    · refine ⟨by rw [h.knows.hint]; rfl, ?_⟩
      cases order.prompt
      · exact hlost none
      · exact (hlost none).settled
    · cases ending with
      | error failure =>
        simp only [Scene.finish, Reference.finish]
        split
        · exact ⟨by rw [h.knows.hint]; rfl, hlost _⟩
        · exact ⟨rfl, hstays⟩
      | ok value =>
        simp only [Scene.finish, Reference.finish, h.answer hserved]
        split
        · exact ⟨rfl, hstays⟩
        · exact ⟨by rw [h.knows.hint]; rfl, hlost none⟩

/-- The end of a closing. -/
theorem close (h : scene.Matches reference) (hrest : scene.AtRest) :
    scene.close.Leads reference.close := by
  have hmatches : scene.close.Matches reference.close := ⟨{ h.knows with }, rfl, rfl⟩
  refine hmatches.leads ?_
  cases hrest with
  | serving term hopen hgoing hserved htask => exact .shut rfl rfl rfl (.inl htask)
  | waiting hopen hgoing hvacant hheld htask => exact .shut rfl rfl rfl (.inr htask)
  | shut hclosed hstopped hvacant htask => exact .shut rfl rfl rfl (.inl htask)

end Matches

end Scene

namespace World

variable {α δ : Type} {frame : Frame} {scene : Scene δ} {reference : Reference} {world : World α δ}

theorem perform_change {δ : Type} (world : World α δ) (i : Nat) (change : Change) :
    world.perform i change.action = ((change.apply world.election).1,
      { world with election := (change.apply world.election).2 }) := by
  cases change <;> rfl

/-- What a change makes of an election does not depend on what was counted. -/
theorem apply_uncounted (election : LocalElection) (change : Change) :
    change.apply election.uncounted =
      ((change.apply election).1, (change.apply election).2.uncounted) := by
  cases change <;> rfl

theorem stepAt_act (world : World α Nat) (i : Nat) (name : String) (action : Action) :
    world.stepAt i (.act name action) =
      ((world.act i action).1.reply, (world.act i action).2) := by
  cases hact : world.act i action with
  | mk acted left => cases acted <;> simp only [World.stepAt, Acted.reply, hact]

namespace Plays

/-! ### What a step does -/

theorem performChange (h : world.Plays frame scene) (change : Change) :
    Comes frame { scene with election := (change.apply scene.election).2 }
      (change.apply scene.election).1 (world.perform 0 change.action) := by
  rw [perform_change, ← h.election, apply_uncounted]
  obtain ⟨seat, hseats, hplays⟩ := h.seat
  exact ⟨rfl, rfl, h.executors, seat, hseats, { hplays with }⟩

/-- The acquisition thread is told to stop. -/
theorem stopAcquiring (h : world.Plays frame scene) :
    (world.stopAcquiring 0).Plays frame { scene with stopped := true } := by
  obtain ⟨seat, hseat, hplays⟩ := h.getElem?
  simp only [World.stopAcquiring, hseat]
  have hgrounds := h.ground (Closing.stopping.proceed seat.toGrounds {}).2
  simp only [Closing.proceed, hplays.register, hplays.brought] at hgrounds
  exact hgrounds

theorem close (h : world.Plays frame scene) (hrest : scene.AtRest) :
    Comes frame scene.close true (world.close 0) := by
  obtain ⟨ledger, outcome, ledger', others, hledger, -, hreaches, hothers, hcomes⟩ :=
    h.operate .shut rfl
  have hleft : ledger'.register = { scene.register with current := none, closed := true } ∧
      others = (scene.register.current.map (·.delegate)).toList := by
    have hshuts (hopen : scene.register.closed = false) := by
      obtain ⟨-, hregister, hreleased⟩ := hreaches.shut (by rw [hledger]; exact hopen)
      rw [hledger] at hregister hreleased
      exact And.intro hregister (List.append_cancel_left (hothers.symm.trans hreleased))
    cases hrest with
    | serving term hopen hgoing hserved htask => exact hshuts hopen
    | waiting hopen hgoing hvacant hheld htask => exact hshuts hopen
    | shut hclosed hstopped hvacant htask =>
      obtain ⟨-, hregister, hreleased⟩ :=
        hreaches.shut_of_closed (by rw [hledger]; exact hclosed)
      obtain rfl : others = [] := List.append_right_eq_self.mp (hothers.symm.trans hreleased)
      exact ⟨by rw [hregister, hledger, ← hclosed, ← hvacant], by rw [hvacant]; rfl⟩
  obtain ⟨shut, hoperate, hshut⟩ := hcomes.exists
  rw [hleft.1, hleft.2] at hshut
  simp only [World.close, hoperate]
  exact ⟨rfl, hshut.stopAcquiring⟩

theorem performClose (h : world.Plays frame scene) (hrest : scene.AtRest) :
    Comes frame scene.close .nothing (world.perform 0 .close) := by
  obtain ⟨closed, hclose, hleft⟩ := (h.close hrest).exists
  simp only [World.perform, hclose, if_true]
  exact ⟨rfl, hleft⟩

/-- One thing done to the election or the proxy, with a rest before and after. -/
theorem act (h : world.Plays frame scene) (hrest : scene.AtRest) {action : Action}
    {acted : Acted} {left : Scene δ} (hleads : left.Pending)
    (hperform : ∀ world : World α δ, world.Plays frame scene →
      Comes frame left acted (world.perform 0 action)) :
    Comes frame left.settle acted (world.act 0 action) := by
  have hsettled := h.settle hrest.pending
  rw [hrest.settle_eq] at hsettled
  obtain ⟨performed, hperformed, hleft⟩ := (hperform _ hsettled).exists
  simp only [World.act, hperformed]
  exact ⟨rfl, hleft.settle hleads⟩

theorem find? (h : world.Plays frame scene) : world.find? frame.name = some 0 := by
  obtain ⟨seat, hseats, hplays⟩ := h.seat
  simp [World.find?, hseats, hplays.name]

theorem isGone (h : world.Plays frame scene) : world.isGone 0 = false := by
  obtain ⟨seat, hseat, hplays⟩ := h.getElem?
  simp [World.isGone, hseat, hplays.dropped]

theorem forget (h : world.Plays frame scene) : world.forget.Plays frame scene.forget := by
  obtain ⟨seat, hseats, hplays⟩ := h.seat
  refine ⟨h.election, h.executors, { seat with events := [] }, ?_, { hplays with released := rfl }⟩
  simp [World.forget, hseats]

variable {scene : Scene Nat} {world : World α Nat}

/-- An operation that only comes to something. -/
theorem yields_body (ending : Except DelegateFailure α) (style : Style) :
    ((Whole.body ending).operation 0 style).Yields frame (ending.map Value.given) where
  invoke scene world delegate h :=
    ⟨h.modify_unseen _ fun _ hplays => hplays.show rfl, rfl⟩
  operate scene world delegate h := by
    have hshown : (Body.showBegin 0 delegate world).Plays frame scene :=
      h.modify_unseen _ fun _ hplays => hplays.show rfl
    cases ending with
    | ok value => exact ⟨⟨rfl, hshown⟩, rfl⟩
    | error failure => exact ⟨⟨rfl, hshown⟩, rfl⟩

/-- A step that makes no proxy is carried out on the one that is there. -/
theorem step_eq_stepAt (h : world.Plays frame scene) {step : Step α}
    (hproxy : step.proxy = frame.name) (hmakes : ∀ name setup, step ≠ .make name setup) :
    world.step step = world.stepAt 0 step := by
  have hfind : world.find? step.proxy = some 0 := by rw [hproxy, h.find?]
  unfold World.step
  rw [hfind]
  cases step with
  | make name setup => exact absurd rfl (hmakes name setup)
  | _ => simp only [h.isGone, Bool.and_false, Bool.false_eq_true, if_false]

/-- A step is a step of the machine. -/
theorem step (h : world.Plays frame scene) (hrest : scene.AtRest)
    (hmatches : scene.Matches reference) (whole : Whole α) :
    ∃ left : Scene Nat, left.Leads (reference.answer frame.client whole).2 ∧
      Comes frame left (reference.answer frame.client whole).1
        (world.step (whole.step frame.name)) := by
  cases whole with
  | elect change =>
    have hleads := hmatches.change (α := α) hrest change
    refine ⟨_, hleads.settled, ?_⟩
    obtain ⟨changed, hact, hleft⟩ :=
      (h.act hrest hleads.pending fun _ h => h.performChange change).exists
    rw [Whole.step, h.step_eq_stepAt rfl (by simp), stepAt_act, hact]
    exact ⟨(hmatches.knows.change change).1.symm, hleft⟩
  | close =>
    have hleads := hmatches.close hrest
    refine ⟨_, hleads.settled, ?_⟩
    obtain ⟨closed, hact, hleft⟩ :=
      (h.act hrest hleads.pending fun _ h => h.performClose hrest).exists
    rw [Whole.step, h.step_eq_stepAt rfl (by simp), stepAt_act, hact]
    exact ⟨rfl, hleft⟩
  | call style order ending =>
    obtain ⟨hresult, hleads⟩ :=
      hmatches.call hrest frame.client style order (ending.map Value.given)
    refine ⟨_, hleads, ?_⟩
    simp only [Reference.answer, ← hresult]
    cases style with
    | blocking =>
      obtain ⟨called, hcall, hleft⟩ :=
        (h.blockingCall hrest order (yields_body ending .blocking)).exists
      rw [Whole.step, h.step_eq_stepAt rfl (by simp), World.stepAt, hcall]
      exact ⟨rfl, hleft⟩
    | async =>
      obtain ⟨called, hcall, hleft⟩ :=
        (h.asyncCall hrest order (yields_body ending .async)).exists
      rw [Whole.step, h.step_eq_stepAt rfl (by simp), World.stepAt, hcall]
      exact ⟨rfl, hleft⟩

/-! ### What is seen -/

theorem sight_report (h : world.Plays frame scene) (hmatches : scene.Matches reference)
    (reply : Reply α) : (world.report reply).sight = reference.sight reply := by
  obtain ⟨seat, hseats, hplays⟩ := h.seat
  have hfind : world.find? seat.name = some 0 := by rw [hplays.name, h.find?]
  have hterm : scene.register.current.map (·.token.term) = reference.served := by
    have hserved := congrArg (Option.map Token.term) hmatches.served
    rw [Option.map_map, Option.map_map] at hserved
    exact hserved.trans Option.map_id'
  simp [World.report, Report.sight, Reference.sight, hseats, hfind, World.proxyReport,
    hplays.dropped, hterm, hplays.register, hmatches.closed]

/-- What is seen of a proxy at rest is what is seen of the machine. -/
theorem run_sight (h : world.Plays frame scene) (hrest : scene.AtRest)
    (hmatches : scene.Matches reference) (wholes : List (Whole α)) :
    (world.run (wholes.map (Whole.step frame.name))).map Report.sight =
      reference.sights frame.client wholes := by
  -- on the steps, each from one rest to the next
  induction wholes generalizing world scene reference with
  | nil => rfl
  | cons whole rest ih =>
    obtain ⟨left, hleads, hcomes⟩ := h.forget.step hrest.forget hmatches.forget whole
    obtain ⟨stepped, hstep, hleft⟩ := hcomes.exists
    have hsettled := hleft.settle hleads.pending
    simp only [List.map_cons, World.run, Reference.sights, hstep]
    rw [hsettled.sight_report hleads.settle, ih hsettled hleads.pending.atRest_settle hleads.settle]

end Plays

/-! ### The making of a proxy -/

/-- What was done to the election before there was a proxy. -/
theorem foldl_perform {δ : Type} (changes : List Change) (world : World α δ) :
    (changes.map Change.action).foldl (fun world action => (world.perform 0 action).2) world =
      { world with
        election :=
          changes.foldl (fun election change => (change.apply election).2) world.election } := by
  induction changes generalizing world with
  | nil => rfl
  | cons change rest ih => simp only [List.map_cons, List.foldl_cons, perform_change, ih]

/-- A proxy is made, and acquires leadership on its maker's thread. -/
theorem make_plays {α δ : Type} {setup : Setup} (hsetup : setup.Undisturbed) (shards : Nat)
    (name : String) (fresh : δ) (election : LocalElection) :
    Comes ⟨name, setup.client, shards, setup.budget⟩
      (Scene.acquire { election := election.uncounted, fresh }) true
      (World.make ({ election, executors := { pool := Pool.new shards } } : World α δ) name fresh
        setup) := by
  obtain ⟨hnameable, hwaits, hanswers, hconstructions, hreleases, hhook⟩ := hsetup
  have hseated : Plays (α := α) ⟨name, setup.client, shards, setup.budget⟩
      { election := election.uncounted, fresh }
      { election
        executors := { pool := Pool.new shards }
        seats := [World.seatFor (α := α)
          { election, executors := { pool := Pool.new shards } } name fresh setup] } :=
    ⟨rfl, rfl, _, rfl, rfl, rfl, rfl, hwaits, hanswers, hconstructions, hreleases, hhook, rfl, rfl,
      rfl, rfl, rfl, rfl, rfl, rfl⟩
  obtain ⟨acquired, hacquire, hleft⟩ := (hseated.acquire rfl rfl rfl).exists
  have hmake : World.make ({ election, executors := { pool := Pool.new shards } } : World α δ)
      name fresh setup = (true, acquired.modify 0 fun seat => { seat with handedOut := true }) := by
    simp only [World.make, hnameable, Bool.not_true, Bool.false_eq_true, if_false, List.nil_append,
      List.length_nil, hacquire]
    rfl
  rw [hmake]
  exact ⟨rfl, hleft.modify_unseen _ fun _ hplays => { hplays with }⟩

end World

/-- What is seen of a proxy, from its making on, is what is seen of the machine: what every step
answers, whether the proxy is closed and which term it serves. However the checks of a call are
answered, all that matters of it is which half an asynchronous call takes first. -/
theorem refines_reference {α : Type} (shards : Nat) (name : String) {setup : Setup}
    (hsetup : setup.Undisturbed) (changes : List Change) (wholes : List (Whole α)) :
    (run shards (changes.map Change.action)
      (.make name setup :: wholes.map (Whole.step name))).map Report.sight =
        Reference.watch setup.client changes wholes := by
  have hfresh : Scene.Matches {} { fresh := (0 : Nat) } := ⟨⟨rfl, rfl, rfl, rfl, rfl⟩, rfl, rfl⟩
  have hbefore := hfresh.applyAll changes
  obtain ⟨made, hmake, hmade⟩ :=
    (World.make_plays (α := α) hsetup shards name 0
      (changes.foldl (fun election change => (change.apply election).2) {})).exists
  have hleads := hbefore.uncounted.leads_acquire rfl rfl rfl rfl
  have hsettled := hmade.settle hleads.pending
  simp only [run, World.foldl_perform, World.run, List.map_cons, Reference.watch]
  simp only [World.step, World.forget, List.map_nil, hmake]
  rw [hsettled.sight_report hleads.settle,
    hsettled.run_sight hleads.pending.atRest_settle hleads.settle]
  rfl

/-- A term that is lost behind the proxy's back, and two calls whose operations fail. Both of them
find both halves over: the one takes its operation first, the other one its checks. -/
theorem refines_reference_lost :
    Setup.Undisturbed { client := "a" } ∧
      (run 2 [.grant] (.make "a" { client := "a" } ::
        [Whole.elect .revoke, .call .async { early := 1 } (.error (.plain "disk full")),
          .call .async { first := .checksFirst, prompt := false } (.error (.plain "disk full")),
          .elect .grant, .call .blocking {} (.ok "done")].map (Whole.step "a"))).map
            Report.sight =
        [⟨.client "a", [(some false, some 1)]⟩, ⟨.nothing, [(some false, some 1)]⟩,
          ⟨.heard (.told (.result (.error (.delegate (.plain "disk full"))))),
            [(some false, some 1)]⟩,
          ⟨.heard (.told (.result (.error (.notLeader ⟨Call.leadershipLost, none, none⟩)))),
            [(some false, none)]⟩,
          ⟨.term 2, [(some false, some 2)]⟩,
          ⟨.heard (.told (.result (.ok (.given "done")))), [(some false, some 2)]⟩] := by
  have hsetup : Setup.Undisturbed { client := "a" } := ⟨by decide, rfl, rfl, rfl, by simp, rfl⟩
  refine ⟨hsetup, ?_⟩
  have hwatch := refines_reference 2 "a" hsetup [.grant]
    [.elect .revoke, .call .async { early := 1 } (.error (.plain "disk full")),
      .call .async { first := .checksFirst, prompt := false } (.error (.plain "disk full")),
      .elect .grant, .call .blocking {} (.ok "done")]
  exact hwatch.trans (by decide)

/-- A term is lost behind the proxy's back, and a call is made that takes its checks before its
operation fails. -/
def overhasty : List (Whole Nat) :=
  [.elect .revoke, .call .async { first := .checksFirst } (.error (.plain "disk full"))]

/-- A machine that knows nothing of checks that are taken first passes the operation's failure on
and goes on serving the term, where the proxy answers that leadership was lost. -/
theorem checks_can_come_first :
    ¬ ∀ (shards : Nat) (name : String) (setup : Setup), setup.Undisturbed →
      ∀ (changes : List Change) (wholes : List (Whole Nat)),
        (run shards (changes.map Change.action)
          (.make name setup :: wholes.map (Whole.step name))).map Report.sight =
            Reference.watch setup.client changes (wholes.map Whole.unhurried) := by
  intro hall
  have hrun : (run 1 [.grant] (.make "a" { client := "a" } ::
      overhasty.map (Whole.step "a"))).map Report.sight =
        [⟨.client "a", [(some false, some 1)]⟩, ⟨.nothing, [(some false, some 1)]⟩,
          ⟨.heard (.told (.result (.error (.notLeader ⟨Call.leadershipLost, none, none⟩)))),
            [(some false, none)]⟩] := by
    decide +kernel
  have hwatch : Reference.watch "a" [.grant] (overhasty.map Whole.unhurried) =
      [⟨.client "a", [(some false, some 1)]⟩, ⟨.nothing, [(some false, some 1)]⟩,
        ⟨.heard (.told (.result (.error (.delegate (.plain "disk full"))))),
          [(some false, some 1)]⟩] := by
    decide +kernel
  have hsetup : Setup.Undisturbed { client := "a" } := ⟨by decide, rfl, rfl, rfl, by simp, rfl⟩
  have hsame := hall 1 "a" { client := "a" } hsetup [.grant] overhasty
  -- the last answers differ, and so does the served term
  exact absurd (hrun.symm.trans (hsame.trans hwatch)) (by decide)

end Tenure.ProxyWatch
