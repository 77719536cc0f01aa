import Tenure.Proofs.Scenario.Refinement
import Tenure.Simulation.Rounds

/-!
# What a simulation does to its scene

The world of a simulation has one proxy, whose delegates are lock tables, so what is done in a
simulation can be told from the scene that its world plays: what it answers, which records it keeps
and at which scene it leaves the world. Such a fact is an assertion about one thing that is done,
and the assertions about two things that are done one after the other make one about both.

An assertion is total: what is done comes to its answer, and the simulation does not end early.

## Main definitions

* `Leads` — what is done has this answer and keeps these records, from one scene to another
* `Tableau`, `Tableau.closings` — the scene of a simulation, and the records of the lock tables that
  were seen to be closed at it
* `At` — the worlds that play a tableau

## Main results

* `Leads.bind` — one thing after the other
* `Leads.enact` — what is done in the world of the simulation
* `Leads.blockingCall`, `Leads.asyncCall` — a call that is served, whatever it does to its table
* `Leads.blockingCall_vacant` — a call while nothing is served
-/

namespace Tenure.Simulation

open ProxyWatch (Frame Told World)

/-- Wherever it is done from, this has this answer, keeps these records after those that are there,
and leaves the world like that. -/
def Leads {β : Type} (before : Scene → Prop) (play : Play β) (answer : β) (records : List Record)
    (after : Scene → Prop) : Prop :=
  ∀ stage : Stage, before stage.scene →
    ∃ scene, play.run stage = (.ok answer, ⟨scene, stage.records ++ records⟩) ∧ after scene

/-- A scene whose delegates are lock tables. -/
abbrev Tableau := ProxyWatch.Scene LockTable

/-- The record of a lock table that is closed. -/
def closing (table : LockTable) : Record :=
  ⟨.info, "Lock table closed", [heldField table.size]⟩

/-- The records of the lock tables that were seen to be closed. -/
def Tableau.closings (tableau : Tableau) : List Record :=
  tableau.released.filterMap fun delegate => tableau.delegates[delegate - 1]?.map closing

/-- The worlds that play a tableau. -/
def At (frame : Frame) (tableau : Tableau) (scene : Scene) : Prop := scene.Plays frame tableau

variable {β γ : Type} {before between after : Scene → Prop} {records more : List Record}

/-! ### One thing after the other -/

namespace Leads

theorem pure (answer : β) : Leads before (Pure.pure answer) answer [] before :=
  fun stage hbefore => ⟨stage.scene, by rw [List.append_nil]; rfl, hbefore⟩

theorem bind {first : Play β} {rest : β → Play γ} {answer : β} {last : γ}
    (hfirst : Leads before first answer records between)
    (hrest : Leads between (rest answer) last more after) :
    Leads before (first >>= rest) last (records ++ more) after := by
  intro stage hbefore
  obtain ⟨scene, hrun, hbetween⟩ := hfirst stage hbefore
  obtain ⟨scene', hrun', hafter⟩ := hrest ⟨scene, stage.records ++ records⟩ hbetween
  refine ⟨scene', ?_, hafter⟩
  have hbind : (first >>= rest).run stage =
      (rest answer).run ⟨scene, stage.records ++ records⟩ := by
    rw [ExceptT.run_bind]
    simp only [Bind.bind, StateT.bind, hrun]
  rw [hbind, hrun', List.append_assoc]

/-- What keeps no record before the rest does. -/
theorem follow {first : Play β} {rest : β → Play γ} {answer : β} {last : γ}
    (hfirst : Leads before first answer [] between)
    (hrest : Leads between (rest answer) last records after) :
    Leads before (first >>= rest) last records after :=
  hfirst.bind hrest

/-- What nobody does anything with. -/
theorem look {next : Stage → Play β} {answer : β}
    (h : ∀ stage : Stage, before stage.scene → Leads before (next stage) answer records after) :
    Leads before (get >>= next) answer records after :=
  fun stage hbefore => h stage hbefore stage hbefore

theorem log (level : Level) (message : String) (fields : List (String × String)) :
    Leads before (Simulation.log level message fields) () [⟨level, message, fields⟩] before :=
  fun stage hbefore => ⟨stage.scene, rfl, hbefore⟩

end Leads

/-! ### In the world of the simulation -/

variable {frame : Frame} {tableau left : Tableau} {scene : Scene}

/-- The lock tables that a world saw closed are those that its tableau saw closed. -/
theorem closings_eq (h : scene.Plays frame tableau) : closings scene = tableau.closings := by
  obtain ⟨seat, hseats, hplays⟩ := h.seat
  rw [Tableau.closings, ← hplays.released, ← hplays.delegates, List.filterMap_filterMap]
  simp only [closings, hseats, List.flatMap_cons, List.flatMap_nil, List.append_nil]
  congr 1
  funext event
  cases event <;> rfl

theorem Leads.enact {action : Scene → β × Scene} {answer : β}
    (h : ∀ scene, before scene → (action scene).1 = answer ∧ closings (action scene).2 = records ∧
      after (action scene).2.forget) :
    Leads before (Simulation.enact action) answer records after := by
  intro stage hbefore
  obtain ⟨hanswer, hclosings, hafter⟩ := h stage.scene hbefore
  refine ⟨(action stage.scene).2.forget, ?_, hafter⟩
  rw [← hanswer, ← hclosings]
  rfl

/-- What is done to the scene is done to the world, and what was seen of it is kept. -/
theorem Leads.enact_at {action : Scene → β × Scene} {answer : β}
    (h : ∀ scene : Scene, scene.Plays frame tableau →
      World.Comes frame left answer (action scene)) :
    Leads (At frame tableau) (Simulation.enact action) answer left.closings
      (At frame left.forget) := by
  refine Leads.enact fun scene hplays => ?_
  obtain ⟨hanswer, hleft⟩ := h scene hplays
  exact ⟨hanswer, closings_eq hleft, hleft.forget⟩

/-! ### Calls -/

/-- A caller is told a result, and does not break off. -/
theorem Leads.receive {call : Play (Told β)} {result : Except CallFailure β}
    (h : Leads before call (.result result) records after) :
    Leads before (call >>= Simulation.receive) result records after := by
  rw [← List.append_nil records]
  exact h.bind (Leads.pure result)

/-- Another lock table takes the place of one. -/
def Tableau.lay (tableau : Tableau) (delegate : Nat) (table : LockTable) : Tableau :=
  { tableau with delegates := tableau.delegates.modify (delegate - 1) fun _ => table }

/-- An open proxy serves a term, whose lock table is this one. -/
structure Tableau.Serves (tableau : Tableau) (term : Term) (table : LockTable) : Prop where
  isOpen : tableau.register.closed = false
  goes : tableau.stopped = false
  served : tableau.register.current = some term
  table : tableau.delegates[term.delegate - 1]? = some table

variable {term : Term} {table : LockTable}

/-- An operation on a lock table changes no other one. -/
theorem turns_tableOperation {delegate : Nat} (h : tableau.delegates[delegate - 1]? = some table)
    (use : LockTable → Except DelegateFailure β × LockTable) :
    (tableOperation use).Turns frame tableau delegate (use table).1
      (tableau.lay delegate (use table).2).delegates where
  invoke scene hplays := ⟨hplays, rfl⟩
  operate scene hplays := by
    obtain ⟨seat, hseat, hseatPlays⟩ := hplays.getElem?
    have hfound : seat.delegate? delegate = some table := by
      rw [ProxyWatch.Seat.delegate?, hseatPlays.delegates, h]
    simp only [tableOperation, hseat, Option.bind_some, hfound]
    refine ⟨⟨rfl, hplays.modify _ rfl fun seat hseatPlays => ?_⟩, rfl⟩
    exact
      { hseatPlays with
        delegates := by
          rw [ProxyWatch.Seat.modifyDelegate, hseatPlays.delegates]
          rfl }

/-- A call that has taken a term comes to what its operation and its checks come to. -/
theorem Leads.call {action : Scene → Told β × Scene} {operated : Tableau} {token : Token}
    {ending : Except DelegateFailure β} {result : Except CallFailure β}
    (hfinish : operated.finish token ending = (result, left))
    (hcall : ∀ scene : Scene, scene.Plays frame tableau →
      World.Comes frame (operated.finish token ending).2 (.result (operated.finish token ending).1)
        (action scene)) :
    Leads (At frame tableau) (Simulation.enact action >>= Simulation.receive) result left.closings
      (At frame left.forget) := by
  rw [hfinish] at hcall
  exact Leads.receive (Leads.enact_at hcall)

theorem Leads.blockingCall (h : tableau.Serves term table)
    (use : LockTable → Except DelegateFailure β × LockTable) {result : Except CallFailure β}
    (hfinish : (tableau.lay term.delegate (use table).2).finish term.token (use table).1 =
      (result, left)) :
    Leads (At frame tableau)
      (Simulation.enact (fun scene => scene.blockingCall 0 {} (tableOperation use)) >>=
        Simulation.receive) result left.closings (At frame left.forget) :=
  Leads.call hfinish fun _ hplays => hplays.blockingCall_served h.isOpen h.goes h.served
    {} (turns_tableOperation h.table use)

theorem Leads.asyncCall (h : tableau.Serves term table)
    (use : LockTable → Except DelegateFailure β × LockTable) {result : Except CallFailure β}
    (hfinish : (tableau.lay term.delegate (use table).2).finish term.token (use table).1 =
      (result, left)) :
    Leads (At frame tableau)
      (Simulation.enact (fun scene => scene.asyncCall 0 {} (tableOperation use)) >>=
        Simulation.receive) result left.closings (At frame left.forget) :=
  Leads.call hfinish fun _ hplays => hplays.asyncCall_served h.isOpen h.goes h.served
    (.inl rfl) (turns_tableOperation h.table use)

/-- A blocking call finds out that nothing is served. -/
theorem Leads.blockingCall_vacant (hopen : tableau.register.closed = false)
    (hvacant : tableau.register.current = none)
    (use : LockTable → Except DelegateFailure β × LockTable) :
    Leads (At frame tableau)
      (Simulation.enact (fun scene => scene.blockingCall 0 {} (tableOperation use)) >>=
        Simulation.receive)
      (.error (.notLeader ⟨Call.notLeading, tableau.election.hint, none⟩)) tableau.closings
      (At frame tableau.forget) := by
  refine Leads.receive (Leads.enact_at fun scene hplays => ?_)
  rw [show scene.blockingCall 0 {} (tableOperation use) = _ from
    hplays.blockingCall_vacant hopen hvacant {} _]
  exact ⟨rfl, hplays⟩

end Tenure.Simulation
