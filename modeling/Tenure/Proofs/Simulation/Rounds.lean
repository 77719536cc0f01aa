import Tenure.Proofs.Simulation.Playing

/-!
# Every round of a simulation is like the first

A simulation grants a term, uses its lock table, revokes the term and calls once more, round by
round. After a round the revoked term is found to be over, its lock table is closed, and one
acquisition waits for the next term: that is where the round began, but for one more term. So no
round knows of another one. Every term begins with an empty lock table, which is closed in the round
of its term, and no call is served under a term that was revoked.

## Main definitions

* `waiting`, `serving`, `revoked` — the scene between two rounds, and in a round before and after
  its term is revoked
* `block` — the records of a round
* `journal` — the records of a whole simulation

## Main results

* `round_leads` — a round leads from one wait to the next
* `rounds_leads` — so any number of rounds does
* `run_eq_journal` — a simulation ends well, with the records of its journal
-/

namespace Tenure.Simulation

open ProxyWatch (Frame World tokenOf)

/-! ### The scenes of a round -/

/-- A lock table that was used in a round, as it is when it is closed: the last lock was taken after
its term was revoked. -/
def doomed : LockTable := ⟨[("after-revoke", 3), ("row-1", 1)], 3⟩

/-- So many terms were granted and are over, and the next one is waited for. -/
def waiting (terms : Nat) : Tableau where
  election := { mint := ⟨terms⟩, granted := terms }
  register := { generation := terms }
  brought := terms
  task := some (.queued none 0)
  fresh := {}
  delegates := List.replicate terms doomed

/-- The term after so many terms. -/
def nextTerm (terms : Nat) : Term := ⟨⟨tokenOf (terms + 1), terms + 1⟩, terms + 1⟩

/-- After so many terms that are over, the next one is served, with this lock table. -/
def serving (terms : Nat) (table : LockTable) : Tableau where
  election :=
    { mint := ⟨terms + 1⟩, granted := terms + 1, held := some (tokenOf (terms + 1)) }
  register := { current := some (nextTerm terms), generation := terms + 1 }
  brought := terms + 1
  fresh := {}
  delegates := List.replicate terms doomed ++ [table]

/-- The election has revoked the term, which the proxy does not know yet. -/
def revoked (terms : Nat) (table : LockTable) : Tableau :=
  { serving terms table with election := (serving terms table).election.revoke }

variable {β : Type} {frame : Frame} {terms : Nat} {table left : LockTable}

/-! ### Calls in a round -/

theorem serves : (serving terms table).Serves (nextTerm terms) table :=
  ⟨rfl, rfl, rfl, by simp [serving, nextTerm]⟩

theorem modify_last : (List.replicate terms doomed ++ [table]).modify terms (fun _ => left) =
    List.replicate terms doomed ++ [left] := by
  simp [List.modify_eq_take_drop]

/-- A term that is held is confirmed, so a call comes to what its operation comes to. -/
theorem finish_serving {ending : Except DelegateFailure β}
    (hending : ∀ failure, ending = .error failure → failure.kind ≠ .notLeading) :
    ((serving terms table).lay (terms + 1) left).finish (tokenOf (terms + 1)) ending =
      (ending.mapError .delegate, serving terms left) := by
  have hlay : (serving terms table).lay (terms + 1) left = serving terms left := by
    simp only [Tableau.lay, serving, Nat.add_sub_cancel, modify_last]
  rw [hlay]
  cases ending with
  | error failure =>
    simp only [ProxyWatch.Scene.finish, hending failure rfl, if_false]
    rfl
  | ok value =>
    have hanswer : (serving terms left).election.answer (tokenOf (terms + 1)) = .leading :=
      if_pos rfl
    simp only [ProxyWatch.Scene.finish, hanswer, if_true]
    rfl

/-- A term that was revoked is not, so a call fails although its operation has come to a value. -/
theorem finish_revoked (value : β) :
    ((revoked terms table).lay (terms + 1) left).finish (tokenOf (terms + 1)) (.ok value) =
      (.error (.notLeader ⟨Call.leadershipLost, none, none⟩), (revoked terms left).lose) := by
  have hlay : (revoked terms table).lay (terms + 1) left = revoked terms left := by
    simp only [Tableau.lay, revoked, serving, Nat.add_sub_cancel, modify_last]
  have hanswer : (revoked terms left).election.answer (tokenOf (terms + 1)) = .notLeading := rfl
  simp only [hlay, ProxyWatch.Scene.finish, hanswer, reduceCtorEq, if_false]
  rfl

/-- The lock table of the term that is lost is closed. -/
theorem closings_lose : Tableau.closings (revoked terms table).lose = [closing table] := by
  simp [ProxyWatch.Scene.lose, ProxyWatch.Scene.retire, ProxyWatch.Scene.acquire, revoked, serving,
    nextTerm, LocalElection.revoke, Tableau.closings]

/-- The next term is waited for. -/
theorem forget_lose : (revoked terms doomed).lose.forget = waiting (terms + 1) := by
  simp [ProxyWatch.Scene.lose, ProxyWatch.Scene.retire, ProxyWatch.Scene.acquire,
    ProxyWatch.Scene.forget, revoked, serving, waiting, LocalElection.revoke, tokenOf,
    List.replicate_succ']

/-- What a call does that locks a name. -/
def locking (name : String) (table : LockTable) : Except DelegateFailure Nat × LockTable :=
  ((table.lock name).1.mapError LockTable.Failure.toDelegate, (table.lock name).2)

/-- A name that is held says nothing about leadership. -/
theorem kind_of_locking {name : String} {failure : DelegateFailure}
    (h : (locking name table).1 = .error failure) : failure.kind ≠ .notLeading := by
  cases hlock : (table.lock name).1 with
  | error reason =>
    rw [locking, hlock] at h
    obtain rfl : reason.toDelegate = failure := Except.error.inj h
    exact nofun
  | ok id =>
    rw [locking, hlock] at h
    exact nomatch h

theorem lock_serving (name : String) :
    Leads (At frame (serving terms table)) (lock name) ((locking name table).1.mapError .delegate)
      [] (At frame (serving terms (table.lock name).2)) :=
  Leads.blockingCall serves (locking name) (finish_serving fun _ => kind_of_locking)

theorem unlock_serving (name : String) :
    Leads (At frame (serving terms table)) (unlock name) (.ok (table.unlock name).1) []
      (At frame (serving terms (table.unlock name).2)) :=
  Leads.blockingCall serves
    (fun table => (Except.ok (table.unlock name).1, (table.unlock name).2))
    (finish_serving nofun)

theorem heldCount_serving :
    Leads (At frame (serving terms table)) heldCount (.ok table.size) []
      (At frame (serving terms table)) :=
  Leads.asyncCall serves (fun table => (Except.ok table.size, table)) (finish_serving nofun)

/-- The operation of a call is run on the lock table of a term that was revoked, which is closed
with what was done to it; the caller is told that leadership was lost. -/
theorem lock_revoked {name : String} {id : Nat} (h : table.lock name = (.ok id, doomed)) :
    Leads (At frame (revoked terms table)) (lock name)
      (.error (.notLeader ⟨Call.leadershipLost, none, none⟩)) [closing doomed]
      (At frame (waiting (terms + 1))) := by
  have hserves : (revoked terms table).Serves (nextTerm terms) table :=
    ⟨rfl, rfl, rfl, serves.table⟩
  have hlocking : locking name table = (.ok id, doomed) := by
    simp only [locking, h]
    rfl
  rw [← closings_lose, ← forget_lose]
  refine Leads.blockingCall hserves (locking name) ?_
  rw [hlocking]
  exact finish_revoked id

/-- While a term is waited for, nothing is served. -/
theorem lock_waiting (name : String) :
    Leads (At frame (waiting terms)) (lock name)
      (.error (.notLeader ⟨Call.notLeading, none, none⟩)) [] (At frame (waiting terms)) :=
  Leads.blockingCall_vacant rfl rfl (locking name)

/-! ### A round -/

/-- The next term is granted, and the proxy serves it with an empty lock table. -/
theorem grant_waiting {scene : Scene} (h : scene.Plays frame (waiting terms)) :
    World.Comes frame (serving terms {}) (tokenOf (terms + 1))
      (scene.settle.election.grant.1,
        { scene.settle with election := scene.settle.election.grant.2 }.settle) := by
  have hwaits := h.settle (.acquiring rfl rfl rfl (.inl rfl))
  have hgranted := (hwaits.performChange .grant).2
  refine ⟨?_, hgranted.settle (.acquiring rfl rfl rfl (.inr rfl))⟩
  -- what the election has counted is no part of the token
  have htoken := congrArg (·.grant.1) hwaits.election
  exact htoken

theorem takeOffice_waiting (number : Nat) :
    Leads (At frame (waiting terms)) (takeOffice number) ()
      [⟨.info, "Serving", [roundField number, ("token", (tokenOf (terms + 1)).show)]⟩]
      (At frame (serving terms {})) := by
  refine Leads.follow (Leads.enact_at fun scene => grant_waiting) ?_
  refine Leads.look fun stage hplays => ?_
  obtain ⟨seat, hseat, hseatPlays⟩ := World.Plays.getElem? hplays
  simp only [hseat, Option.bind_some, hseatPlays.register]
  exact Leads.log _ _ _

/-- The record of a lock in a round. -/
def lockRecord (number : Nat) (name : String) : Except CallFailure Nat → Record
  | .ok id => ⟨.info, "Locked", [roundField number, nameField name, idField id]⟩
  | .error failure =>
    ⟨.info, "Lock refused: " ++ failure.message, [roundField number, nameField name]⟩

/-- The records of some locks in a round, one after the other. -/
def lockRecords (number : Nat) : LockTable → List String → List Record
  | _, [] => []
  | table, name :: names =>
    lockRecord number name ((locking name table).1.mapError .delegate) ::
      lockRecords number (table.lock name).2 names

theorem lockInRound_serving (number : Nat) (name : String) :
    Leads (At frame (serving terms table)) (lockInRound number name) ()
      [lockRecord number name ((locking name table).1.mapError .delegate)]
      (At frame (serving terms (table.lock name).2)) := by
  refine Leads.follow (lock_serving name) ?_
  cases (locking name table).1.mapError CallFailure.delegate with
  | ok id => exact Leads.log _ _ _
  | error failure => exact Leads.log _ _ _

/-- Names are locked on the lock table that the locks before have left. -/
theorem forM_lockInRound_serving (number : Nat) (names : List String)
    (h : names.foldl (fun table name => (table.lock name).2) table = left) :
    Leads (At frame (serving terms table)) (names.forM (lockInRound number)) ()
      (lockRecords number table names) (At frame (serving terms left)) := by
  induction names generalizing table with
  | nil =>
    obtain rfl : table = left := h
    exact Leads.pure ()
  | cons name names ih => exact Leads.bind (lockInRound_serving number name) (ih h)

theorem releaseInRound_serving (number : Nat) {name : String} {released : Bool}
    (h : table.unlock name = (released, left)) :
    Leads (At frame (serving terms table)) (releaseInRound number name) ()
      [⟨.info, "Lock table state",
        [roundField number, ("released", toString released), heldField left.size]⟩]
      (At frame (serving terms left)) := by
  obtain ⟨rfl, rfl⟩ := Prod.mk.inj h
  refine Leads.follow (unlock_serving name) ?_
  refine Leads.follow (Leads.pure _) ?_
  refine Leads.follow heldCount_serving ?_
  refine Leads.follow (Leads.pure _) ?_
  exact Leads.log _ _ _

/-- The term is revoked behind the proxy's back. -/
theorem revoke_serving :
    Leads (At frame (serving terms table))
      (enact fun scene => ((), { scene with election := scene.election.revoke })) () []
      (At frame (revoked terms table)) := by
  have hrevoked (scene : Scene) (hplays : scene.Plays frame (serving terms table)) :
      World.Comes frame (revoked terms table) ()
        ((), { scene with election := scene.election.revoke }) :=
    ⟨rfl, (hplays.performChange .revoke).2⟩
  exact Leads.enact_at hrevoked

/-- The record of the failure of a call that has lost its term. -/
def revocation (number : Nat) : Record :=
  ⟨.info,
    "Revoked: not current leader: method invoked on a non-leader (leadership lost), leader hint: "
      ++ "None",
    [roundField number]⟩

theorem leaveOffice_serving (number : Nat) {id : Nat}
    (h : table.lock "after-revoke" = (.ok id, doomed)) :
    Leads (At frame (serving terms table)) (leaveOffice number) ()
      [closing doomed, revocation number] (At frame (waiting (terms + 1))) := by
  refine Leads.follow revoke_serving ?_
  exact Leads.bind (lock_revoked h) (Leads.log _ _ _)

/-- The records of a round: a term is served, locked, released, and lost. -/
def block (number : Nat) : List Record :=
  [⟨.info, "Serving", [roundField number, ("token", "term-" ++ toString number)]⟩,
    ⟨.info, "Locked", [roundField number, nameField "row-1", idField 1]⟩,
    ⟨.info, "Locked", [roundField number, nameField "row-2", idField 2]⟩,
    ⟨.info, "Lock refused: delegate error: lock row-1 is already held",
      [roundField number, nameField "row-1"]⟩,
    ⟨.info, "Lock table state", [roundField number, ("released", "true"), heldField 1]⟩,
    ⟨.info, "Lock table closed", [heldField 2]⟩,
    revocation number]

/-- A round leads from one wait to the next. -/
theorem round_leads :
    Leads (At frame (waiting terms)) (round (terms + 1)) () (block (terms + 1))
      (At frame (waiting (terms + 1))) := by
  -- the locks of a round leave the first two names held, of which one is let go
  have hlocked : rows.foldl (fun table name => (LockTable.lock table name).2) {} =
      ⟨[("row-2", 2), ("row-1", 1)], 2⟩ := by decide
  have hreleased : LockTable.unlock ⟨[("row-2", 2), ("row-1", 1)], 2⟩ "row-2" =
      (true, ⟨[("row-1", 1)], 2⟩) := by decide
  have hdoomed : LockTable.lock ⟨[("row-1", 1)], 2⟩ "after-revoke" = (.ok 3, doomed) := by rfl
  exact Leads.bind (takeOffice_waiting (terms + 1))
    (Leads.bind (forM_lockInRound_serving (terms + 1) rows hlocked)
      (Leads.bind (releaseInRound_serving (terms + 1) hreleased)
        (leaveOffice_serving (terms + 1) hdoomed)))

/-- So any number of rounds does. -/
theorem rounds_leads (more : Nat) :
    Leads (At frame (waiting terms)) (rounds (terms + 1) more) ()
      ((List.range' (terms + 1) more).flatMap block) (At frame (waiting (terms + more))) := by
  -- on the rounds that are still to come
  induction more generalizing terms with
  | zero => exact Leads.pure ()
  | succ more ih =>
    have hrest : Leads (At frame (waiting (terms + 1))) (rounds (terms + 1 + 1) more) ()
        ((List.range' (terms + 1 + 1) more).flatMap block)
        (At frame (waiting (terms + (more + 1)))) := by
      have hsum : terms + (more + 1) = terms + 1 + more := by omega
      rw [hsum]
      exact ih
    exact Leads.bind round_leads hrest

/-! ### A whole simulation -/

/-- How the proxy of a simulation is made. -/
def setup (config : Config) : ProxyWatch.Setup where
  client := config.client
  budget := config.maxNoQuorumAttempts
  gainPause := config.gainLeadershipBackoff.millis
  buildPause := config.constructionBackoff.millis

theorem undisturbed_setup {config : Config} (hclient : '\x00' ∉ config.client.toList) :
    (setup config).Undisturbed where
  nameable := by simpa [Worker.nameable, setup] using hclient
  waits := rfl
  answers := rfl
  constructions := rfl
  releases := nofun
  hintHook := rfl

/-- What is fixed for the proxy of a simulation. -/
def surrounding (shards : Nat) (config : Config) : Frame :=
  ⟨config.client, config.client, shards, config.maxNoQuorumAttempts⟩

theorem makeProxy_leads (shards : Nat) {config : Config} (hclient : '\x00' ∉ config.client.toList) :
    Leads (· = sceneWith shards) (makeProxy config) () []
      (At (surrounding shards config) (waiting 0)) := by
  obtain ⟨hmade, hplays⟩ := World.make_plays (α := Unit) (undisturbed_setup hclient) shards
    config.client ({} : LockTable) {}
  have hmakes : Leads (· = sceneWith shards)
      (enact fun scene => scene.make config.client {} (setup config)) true []
      (At (surrounding shards config) (waiting 0)) := by
    refine Leads.enact ?_
    rintro scene rfl
    exact ⟨hmade, closings_eq hplays, hplays.forget⟩
  exact Leads.follow hmakes (Leads.pure ())

/-- A proxy that was told to stop drops what is on its acquisition thread, whether the executors run
or not. -/
theorem settle_dropped {scene : Scene} {seat : ProxyWatch.Seat Unit LockTable}
    (hseats : scene.seats = [seat]) (hstopped : seat.stopped = true) {acquisition : Acquisition}
    (htask : seat.task = some acquisition) (hdroppable : acquisition.isDroppable = true) :
    scene.settle.seats = [{ seat with task := none }] := by
  have hfirst : scene.stir (List.range scene.seats.length) =
      some (scene.modify 0 fun seat => { seat with task := none }) := by
    simp [hseats, List.range_succ, World.stir, World.progress, htask, hstopped, hdroppable]
  have hdropped : (scene.modify 0 fun seat => { seat with task := none }).seats =
      [{ seat with task := none }] := by
    simp [World.modify, hseats]
  have hsecond : (scene.modify 0 fun seat => { seat with task := none }).stir (List.range 1) =
      none := by
    simp [hdropped, List.range_succ, World.stir]
  obtain ⟨steps, hsteps⟩ : ∃ steps, scene.stamina = steps + 2 :=
    ⟨scene.stamina - 2, by simp [World.stamina, hseats]⟩
  simp only [World.settle, hsteps, World.settleWithin, hfirst]
  rw [hdropped]
  simp only [List.length_singleton, hsecond, hdropped]

/-- The closing of a proxy that waits closes no lock table. -/
theorem shutDown_waiting :
    Leads (At frame (waiting terms)) shutDown () [] (fun _ => True) := by
  have hrest : (waiting terms).settle.AtRest := .waiting rfl rfl rfl rfl rfl
  have hcloses : Leads (At frame (waiting terms))
      (enact fun scene =>
        ((scene.settle.close 0).1,
          if (scene.settle.close 0).1 then
            (scene.settle.close 0).2.stopShards.stopScheduler.settle
          else (scene.settle.close 0).2))
      true [] (fun _ => True) := by
    refine Leads.enact fun scene hplays => ?_
    have hwaits := World.Plays.settle hplays (.acquiring rfl rfl rfl (.inl rfl))
    obtain ⟨closed, hclose, hclosed⟩ := (hwaits.close hrest).exists
    obtain ⟨seat, hseats, hseatPlays⟩ := hclosed.seat
    -- the executors have stopped, but that is nothing to the proxy
    have hdropped : closed.stopShards.stopScheduler.settle.seats = [{ seat with task := none }] :=
      settle_dropped hseats hseatPlays.stopped hseatPlays.task rfl
    have hclosings : closings closed.stopShards.stopScheduler.settle = closings closed := by
      rw [closings, closings, hdropped, hseats]
      rfl
    simp only [hclose, if_true, hclosings]
    exact ⟨trivial, closings_eq hclosed, trivial⟩
  exact Leads.follow hcloses (Leads.pure ())

/-- The record of the failure of a call before leadership was ever granted. -/
def rejection : Record :=
  ⟨.info,
    "Call before leadership rejected: not current leader: method invoked on a non-leader, "
      ++ "leader hint: None",
    []⟩

theorem callBeforeElection_waiting :
    Leads (At frame (waiting terms)) callBeforeElection () [rejection] (At frame (waiting terms)) :=
  Leads.follow (lock_waiting "before-election") (Leads.log _ _ _)

/-- The records of a whole simulation. -/
def journal (plan : Plan) : List Record :=
  ⟨.info, opening plan, []⟩ :: rejection ::
    ((List.range' 1 plan.rounds.toNat).flatMap block ++ [⟨.info, "Simulation finished", []⟩])

theorem play_leads (shards : Nat) {plan : Plan} (hclient : '\x00' ∉ plan.config.client.toList) :
    Leads (· = sceneWith shards) (play plan) () (journal plan) (fun _ => True) := by
  refine Leads.bind (Leads.log _ _ _) (Leads.follow (makeProxy_leads shards hclient) ?_)
  refine Leads.bind callBeforeElection_waiting (Leads.bind (rounds_leads _) ?_)
  exact Leads.follow shutDown_waiting (Leads.log _ _ _)

/-- No record of a simulation is a warning. -/
theorem level_of_mem_journal {plan : Plan} {record : Record} (h : record ∈ journal plan) :
    record.level = .info := by
  have hblock (number : Nat) : ∀ record ∈ block number, record.level = .info := by
    simp [block, revocation]
  simp only [journal, List.mem_cons, List.mem_append, List.mem_flatMap, List.not_mem_nil,
    or_false] at h
  rcases h with rfl | rfl | ⟨number, -, hmem⟩ | rfl
  · rfl
  · rfl
  · exact hblock number record hmem
  · rfl

theorem filter_block (number : Nat) :
    (block number).filter (·.message = "Lock table closed") =
      [⟨.info, "Lock table closed", [heldField 2]⟩] := by
  have hrevocation : (revocation number).message ≠ "Lock table closed" := by simp [revocation]
  simp [block, hrevocation]

theorem opening_ne_closed (plan : Plan) : opening plan ≠ "Lock table closed" := by
  intro h
  have hhead : (opening plan).toList.head? = some 'S' := by
    unfold opening
    simp
  rw [h] at hhead
  simp at hhead

/-- One lock table is closed in every round, and none afterwards. -/
theorem filter_journal (plan : Plan) :
    (journal plan).filter (·.message = "Lock table closed") =
      List.replicate plan.rounds.toNat ⟨.info, "Lock table closed", [heldField 2]⟩ := by
  have hblocks : ((List.range' 1 plan.rounds.toNat).flatMap block).filter
      (·.message = "Lock table closed") =
        List.replicate plan.rounds.toNat ⟨.info, "Lock table closed", [heldField 2]⟩ := by
    simp only [List.filter_flatMap, filter_block, ← List.map_eq_flatMap, List.map_const',
      List.length_range']
  have hrejection : rejection.message ≠ "Lock table closed" := by simp [rejection]
  simp [journal, opening_ne_closed, hrejection, hblocks]

theorem carryOut_eq_journal (shards : Nat) {plan : Plan}
    (hclient : '\x00' ∉ plan.config.client.toList) :
    carryOut shards plan = ⟨journal plan, none⟩ := by
  obtain ⟨scene, hplay, -⟩ := play_leads shards hclient { scene := sceneWith shards } rfl
  simp only [carryOut, hplay, List.nil_append]

/-- A simulation whose client can name a thread ends well after any number of rounds. Its records
are those of its journal, in which every round has the same block for the token of its term; none
of them is a warning, and one lock table is closed in every round and none afterwards. -/
theorem run_eq_journal (shards : Nat) {settings : Settings} {plan : Plan}
    (hplan : settings.plan = .ok plan) (hclient : '\x00' ∉ plan.config.client.toList) :
    run shards settings = ⟨journal plan, none⟩ ∧ (run shards settings).exitCode = 0 ∧
      (∀ record ∈ (run shards settings).records, record.level = .info) ∧
      (run shards settings).records.filter (·.message = "Lock table closed") =
        List.replicate plan.rounds.toNat ⟨.info, "Lock table closed", [heldField 2]⟩ := by
  have hrun : run shards settings = ⟨journal plan, none⟩ := by
    simp only [run, hplan, carryOut_eq_journal shards hclient]
  rw [hrun]
  exact ⟨rfl, rfl, fun _ => level_of_mem_journal, filter_journal plan⟩

/-- Two rounds for a client that is told by itself, with a configuration for another one. -/
def told : Settings where
  client := some "locks"
  config := some "\x7b\"client\": \"timelock\", \"max_no_quorum_attempts\": 1\x7d"
  rounds := some "2"

theorem run_eq_journal_told :
    told.plan = .ok ⟨{ Config.forClient "locks" with maxNoQuorumAttempts := 1 }, 2⟩ ∧
      '\x00' ∉ "locks".toList ∧
      run 2 told =
        ⟨journal ⟨{ Config.forClient "locks" with maxNoQuorumAttempts := 1 }, 2⟩, none⟩ := by
  have hplan : told.plan = .ok ⟨{ Config.forClient "locks" with maxNoQuorumAttempts := 1 }, 2⟩ := by
    rfl
  have hclient : '\x00' ∉ "locks".toList := by decide
  obtain ⟨hrun, -⟩ := run_eq_journal 2 hplan hclient
  exact ⟨hplan, hclient, hrun⟩

end Tenure.Simulation
