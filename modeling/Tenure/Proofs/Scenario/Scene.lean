import Tenure.Proofs.Term.Reaches
import Tenure.Scenario.Proxies.Steps

/-!
# Scenes

What a world with a single proxy goes on to answer depends on little of it between two calls: what
the election knows, what the proxy's register serves, which acquisition goes on, and what the
delegates are. That is a scene, together with the delegates that were seen to be released, and a
world that plays it may differ from another one in everything else that was only counted, seen or
reported.

Here the factory never fails, the election is asked and not scripted, the executors run, and every
delegate returns from its release.

## Main definitions

* `Event.released?` — the delegate whose release an event shows
* `Frame` — what is fixed for the proxy and its surroundings
* `Scene` — what later answers depend upon, and what was released
* `Seat.Plays`, `World.Plays` — a proxy, and a world with that proxy alone, is at a scene
* `World.Comes` — what was done to a world gave an answer and left it at a scene

## Main results

* `World.Plays.ground`, `World.Plays.modify` — what is done to the proxy is done to the scene
* `World.Plays.operate` — an operation on the register comes to its end
-/

namespace Tenure

/-- An election but for what it has counted. -/
def LocalElection.uncounted (election : LocalElection) : LocalElection :=
  { election with checks := 0, waits := 0 }

namespace ProxyWatch

/-- The delegate whose release an event shows. -/
def Event.released? {α : Type} : Event α → Option Nat
  | .released delegate => some delegate
  | _ => none

/-- What is fixed for a proxy and its surroundings. -/
structure Frame where
  name : String
  client : String
  shards : Nat
  budget : UInt32

/-- What later answers depend upon, and which delegates were seen to be released. -/
structure Scene (δ : Type) where
  election : LocalElection := {}
  register : Register := {}
  /-- How many delegates were built. -/
  brought : Nat := 0
  stopped : Bool := false
  /-- The acquisition on the acquisition thread. -/
  task : Option Acquisition := none
  /-- A delegate as it is built. -/
  fresh : δ
  /-- The delegates, each by its number less one. -/
  delegates : List δ := []
  released : List Nat := []

variable {α β δ : Type} {frame : Frame} {scene scene' : Scene δ}

/-- A proxy that is at a scene, with nothing but good to come from its scripts. -/
structure Seat.Plays (frame : Frame) (scene : Scene δ) (seat : Seat α δ) : Prop where
  name : seat.name = frame.name
  client : seat.client = frame.client
  retrier : seat.retrier = statusRetrier frame.budget
  waits : seat.waits = []
  answers : seat.answers = []
  constructions : seat.constructions = []
  releases : ∀ conduct ∈ seat.releases, conduct.returns = true
  hintHook : seat.hintHook = none
  dropped : seat.dropped = false
  register : seat.register = scene.register
  brought : seat.brought = scene.brought
  stopped : seat.stopped = scene.stopped
  task : seat.task = scene.task
  fresh : seat.fresh = scene.fresh
  delegates : seat.delegates = scene.delegates
  released : seat.events.filterMap Event.released? = scene.released

/-- An event that is not a release is not part of the scene. -/
theorem Seat.Plays.show {seat : Seat α δ} (h : seat.Plays frame scene) {event : Event α}
    (hevent : event.released? = none) : (seat.show event).Plays frame scene :=
  { h with
    released := by
      rw [← h.released]
      simp [Seat.show, hevent] }

namespace World

/-- A world with a proxy alone, at a scene. -/
structure Plays (frame : Frame) (scene : Scene δ) (world : World α δ) : Prop where
  election : world.election.uncounted = scene.election
  executors : world.executors = { pool := Pool.new frame.shards }
  seat : ∃ seat, world.seats = [seat] ∧ seat.Plays frame scene

/-- What was done to a world gave this answer, and left it at this scene. -/
def Comes (frame : Frame) (scene : Scene δ) (answer : β) (became : β × World α δ) : Prop :=
  became.1 = answer ∧ became.2.Plays frame scene

variable {world : World α δ} {seat : Seat α δ}

theorem Comes.exists {answer : β} {became : β × World α δ} (h : Comes frame scene answer became) :
    ∃ left, became = (answer, left) ∧ left.Plays frame scene :=
  ⟨became.2, by rw [← h.1], h.2⟩

namespace Plays

theorem note (h : world.Plays frame scene) (notices : List Notice) :
    (world.note notices).Plays frame scene :=
  ⟨h.election, h.executors, h.seat⟩

/-- What is done to the proxy is done to the scene. -/
theorem modify (h : world.Plays frame scene) (change : Seat α δ → Seat α δ)
    (helection : scene'.election = scene.election)
    (hseat : ∀ seat : Seat α δ, seat.Plays frame scene → (change seat).Plays frame scene') :
    (world.modify 0 change).Plays frame scene' := by
  obtain ⟨seat, hseats, hplays⟩ := h.seat
  refine ⟨h.election.trans helection.symm, h.executors, change seat, ?_, hseat seat hplays⟩
  simp [World.modify, hseats]

/-- A change of what a scene does not depend upon. -/
theorem modify_unseen (h : world.Plays frame scene) (change : Seat α δ → Seat α δ)
    (hseat : ∀ seat : Seat α δ, seat.Plays frame scene → (change seat).Plays frame scene) :
    (world.modify 0 change).Plays frame scene :=
  h.modify change rfl hseat

theorem ground (h : world.Plays frame scene) (grounds : Grounds) :
    (world.ground 0 grounds).Plays frame
      { scene with
        register := grounds.register
        brought := grounds.brought
        stopped := grounds.stopped } :=
  (h.note grounds.notices).modify _ rfl fun _ hseat =>
    { hseat with register := rfl, brought := rfl, stopped := rfl }

theorem getElem? (h : world.Plays frame scene) :
    ∃ seat, world.seats[0]? = some seat ∧ seat.Plays frame scene := by
  obtain ⟨seat, hseats, hplays⟩ := h.seat
  exact ⟨seat, by rw [hseats]; rfl, hplays⟩

/-! ### Operations on the register -/

/-- Every delegate returns from its release, which is seen. -/
theorem release (h : world.Plays frame scene) (holding : Holding) :
    ((surroundings 0 : Surroundings (World α δ)).release holding world).1.returns = true ∧
      ((surroundings 0 : Surroundings (World α δ)).release holding world).2.Plays frame
        { scene with released := scene.released ++ [holding.delegate] } := by
  obtain ⟨seat, hseat, hplays⟩ := h.getElem?
  constructor
  · simp only [surroundings, hseat]
    cases hreleases : seat.releases with
    | nil => rfl
    | cons conduct others =>
      exact hplays.releases conduct (by rw [hreleases]; exact List.mem_cons_self)
  · refine h.modify _ rfl fun seat hplays => { hplays with releases := ?_, released := ?_ }
    · intro conduct hmem
      exact hplays.releases conduct (List.mem_of_mem_tail hmem)
    · rw [← hplays.released]
      exact List.filterMap_append

/-- An operation on the register comes to its end. -/
theorem operate (h : world.Plays frame scene) (operation : Operation)
    (hawaits : operation.awaited = []) :
    ∃ ledger outcome ledger' others, ledger.register = scene.register ∧
      ledger.brought = scene.brought ∧ Operation.Reaches operation ledger outcome ledger' ∧
      ledger'.released = ledger.released ++ others ∧
      Comes frame
        { scene with register := ledger'.register, released := scene.released ++ others }
        (some outcome) (world.operate 0 operation) := by
  obtain ⟨seat, hseat, hplays⟩ := h.getElem?
  obtain ⟨outcome, ledger', left, others, hcourse, hreaches, hothers, hleft⟩ :=
    Operation.course_reaches
      (P := fun released (world : World α δ) => world.Plays frame { scene with released })
      (fun released holding _ hplays => hplays.release holding) operation hawaits seat.toLedger h
  refine ⟨seat.toLedger, outcome, ledger', others, hplays.register, hplays.brought, hreaches,
    hothers, ?_⟩
  obtain ⟨seat', hseat', hplays'⟩ := hleft.getElem?
  have hstopped : (left.seats[0]?.map (·.stopped)).getD false = scene.stopped := by
    simp [hseat', hplays'.stopped]
  -- what was reported on the way is not part of the scene
  have hgrounds := hleft.ground { toLedger := ledger', stopped := scene.stopped }
  simp only [hreaches.brought.trans hplays.brought] at hgrounds
  simp only [World.operate, hseat, hcourse, hstopped]
  exact ⟨rfl, hgrounds⟩

end Plays

end World

end ProxyWatch

end Tenure
