import Tenure.Proofs.Election.Past
import Tenure.Scenario.Waits

/-!
# Waits miss nothing and are not misled

A wait for leadership looks at the token that is held when it is first looked at, and then only when
its channel has news. This is as good as if it looked every time: whoever sleeps has seen that no
token is held, and anything that was sent since is news to him.

## Main definitions

* `Channel.Alert` — a wait that would not miss an accepted value
* `ChannelElection.Mirrors` — an election under observation that is in the same state
* `ChannelElection.Lives` — the wait that goes by a name is there, and not over
* `ChannelElection.solo` — a history without what was done to other waits

## Main results

* `Channel.delivers_numbered` — a channel that numbers its values delivers them
* `ChannelElection.mirrors_since` — an election is as one that is observed through the same steps
* `ChannelElection.waits_tell_what_is_held` — what those who wait are told, and what they change
-/

namespace Tenure

namespace Channel

variable {σ ρ α : Type} {channel : Channel σ ρ α} {accepts : α → Bool} {state : σ} {wait : Wait ρ}

/-- A wait would not miss an accepted value: while one is there, its reader has news. -/
def Alert (channel : Channel σ ρ α) (accepts : α → Bool) (state : σ) : Wait ρ → Prop
  | .made => True
  | .asleep reader =>
    channel.Reads state reader ∧
      (accepts (channel.latest state) = true → channel.hasNews state reader = true)

/-- Whatever is sent wakes everybody. -/
theorem Alert.send (delivers : channel.Delivers) (value : α)
    (alert : channel.Alert accepts state wait) :
    channel.Alert accepts (channel.send state value) wait := by
  cases wait with
  | made => trivial
  | asleep reader =>
    obtain ⟨reads, -⟩ := alert
    exact ⟨reads.send value, fun _ => delivers.hasNews_send value reads⟩

theorem look_of_accepted (alert : channel.Alert accepts state wait)
    (accepted : accepts (channel.latest state) = true) :
    channel.look accepts state wait = .ended (channel.latest state) := by
  cases wait with
  | made => simp only [look, inspect, accepted, if_true]
  | asleep reader => simp only [look, inspect, alert.2 accepted, accepted, if_true]

theorem look_of_refused (alert : channel.Alert accepts state wait)
    (refused : accepts (channel.latest state) = false) :
    ∃ reader, channel.look accepts state wait = .asleep reader ∧
      channel.Alert accepts state (.asleep reader) := by
  -- nothing is there to be missed, whoever the reader is
  have calm {reader : ρ} (reads : channel.Reads state reader) :
      channel.Alert accepts state (.asleep reader) := ⟨reads, by simp [refused]⟩
  cases wait with
  | made => exact ⟨_, by simp [look, inspect, refused], calm (.see (.join state))⟩
  | asleep reader =>
    obtain ⟨reads, -⟩ := alert
    cases news : channel.hasNews state reader with
    | true => exact ⟨_, by simp [look, inspect, refused, news], calm reads.see⟩
    | false => exact ⟨reader, by simp [look, news], calm reads⟩

/-- Nobody has seen a value before it is sent. -/
theorem le_of_reads_numbered {state : Nat × α} {reader : Nat}
    (reads : (numbered α).Reads state reader) : reader ≤ state.1 := by
  induction reads with
  | join state => exact Nat.le_refl _
  | see _ _ => exact Nat.le_refl _
  | send value _ ih => exact Nat.le_succ_of_le ih

theorem delivers_numbered (α : Type) : (numbered α).Delivers where
  latest_opened _ := rfl
  latest_send _ _ := rfl
  hasNews_send {_ _} _ reads :=
    bne_iff_ne.mpr (Nat.ne_of_lt (Nat.lt_succ_of_le (le_of_reads_numbered reads)))

end Channel

namespace ChannelElection

open Channel (Wait)
open ElectionWatch (Reply Watch grants minted incumbent standing waitsBegun)

variable {σ ρ ι : Type} [DecidableEq ι] {channel : Channel σ ρ (Option Token)}

/-! ## An election and what is observed -/

section

variable {election : ChannelElection σ ρ ι} {watch : Watch ι}

/-- The election is the same, the same waits are open, and none of them would miss a token. -/
structure Mirrors (channel : Channel σ ρ (Option Token)) (election : ChannelElection σ ρ ι)
    (watch : Watch ι) : Prop where
  agree : election.toLocal channel = watch.election
  openWaits : ∀ id, (election.openWaits.lookup id).map Wait.hasBegun = watch.openWaits.lookup id
  alert : ∀ id wait, election.openWaits.lookup id = some wait →
    channel.Alert Option.isSome election.leader wait

variable (mirrors : Mirrors channel election watch)

include mirrors

theorem Mirrors.grant (delivers : channel.Delivers) :
    (election.grant channel).1 = watch.election.grant.1 ∧
      Mirrors channel (election.grant channel).2 (watch.record watch.election.grant).2 where
  left := by rw [← mirrors.agree]; rfl
  right :=
    { mirrors with
      agree := by
        simp [Watch.record, ← mirrors.agree, ChannelElection.grant, LocalElection.grant,
          ChannelElection.toLocal, delivers.latest_send]
      alert := fun id wait here => (mirrors.alert id wait here).send delivers _ }

theorem Mirrors.revoke (delivers : channel.Delivers) :
    Mirrors channel (election.revoke channel) { watch with election := watch.election.revoke } :=
  { mirrors with
    agree := by
      simp [← mirrors.agree, ChannelElection.revoke, LocalElection.revoke, ChannelElection.toLocal,
        delivers.latest_send]
    alert := fun id wait here => (mirrors.alert id wait here).send delivers _ }

/-- What is open once something was put in the place of a wait. -/
theorem Mirrors.put (id : ι) {wait : Wait ρ}
    (alert : channel.Alert Option.isSome election.leader wait) :
    Mirrors channel
      { election with openWaits := (id, wait) :: election.openWaits.filter (·.1 != id) }
      { watch with openWaits := (id, wait.hasBegun) :: watch.openWaits.filter (·.1 != id) } where
  agree := mirrors.agree
  openWaits other := by
    simp only [ElectionWatch.lookup_cons_eq_ite, ElectionWatch.lookup_filter_ne,
      ← mirrors.openWaits]
    split <;> rfl
  alert other found here := by
    rw [ElectionWatch.lookup_cons_eq_ite, ElectionWatch.lookup_filter_ne] at here
    split at here
    · exact Option.some.inj here ▸ alert
    · exact mirrors.alert other found here

/-- What is open once a wait is gone. -/
theorem Mirrors.remove (id : ι) :
    Mirrors channel { election with openWaits := election.openWaits.filter (·.1 != id) }
      { watch with openWaits := watch.openWaits.filter (·.1 != id) } where
  agree := mirrors.agree
  openWaits other := by
    simp only [ElectionWatch.lookup_filter_ne, ← mirrors.openWaits]
    split <;> rfl
  alert other found here := by
    rw [ElectionWatch.lookup_filter_ne] at here
    split at here
    · cases here
    · exact mirrors.alert other found here

/-- Only the first look at a wait is counted. -/
theorem Mirrors.count (wait : Wait ρ) :
    Mirrors channel (election.count wait) { watch with
      election := if wait.hasBegun then watch.election else watch.election.beginWait } := by
  cases wait with
  | made => exact { mirrors with agree := by rw [← mirrors.agree]; rfl }
  | asleep reader => exact mirrors

theorem Mirrors.look (id : ι) :
    (election.look channel id).1 = .ok (watch.lookAtWait id).1 ∧
      Mirrors channel (election.look channel id).2 (watch.lookAtWait id).2 := by
  rw [ChannelElection.look, Watch.lookAtWait, ← mirrors.openWaits]
  cases here : election.openWaits.lookup id with
  | none => exact ⟨rfl, mirrors⟩
  | some wait =>
    have counted := mirrors.count wait
    -- to count a wait does not touch the channel
    have held : (if wait.hasBegun then watch.election else watch.election.beginWait).held =
        channel.latest election.leader := by
      rw [← election.leader_count wait]
      exact congrArg LocalElection.held counted.agree.symm
    have alert := mirrors.alert id wait here
    dsimp only [Option.map_some]
    rw [held]
    cases latest : channel.latest election.leader with
    | some token =>
      rw [Channel.look_of_accepted alert (by rw [latest]; rfl), latest]
      refine ⟨rfl, ?_⟩
      have removed := counted.remove id
      rwa [election.openWaits_count wait] at removed
    | none =>
      obtain ⟨reader, asleep, stays⟩ := Channel.look_of_refused alert (by rw [latest]; rfl)
      rw [asleep]
      refine ⟨rfl, ?_⟩
      rw [← election.leader_count wait] at stays
      have put := counted.put id stays
      rwa [election.openWaits_count wait] at put

theorem Mirrors.step (delivers : channel.Delivers) (move : Move ι) :
    (election.step channel move).1 = .ok (watch.step move.step).1 ∧
      Mirrors channel (election.step channel move).2 (watch.step move.step).2 := by
  cases move with
  | grant =>
    obtain ⟨token, granted⟩ := mirrors.grant delivers
    exact ⟨congrArg (Except.ok ∘ Reply.token) token, granted⟩
  | revoke => exact ⟨rfl, mirrors.revoke delivers⟩
  | make id => exact ⟨rfl, mirrors.put id (show channel.Alert _ _ .made from trivial)⟩
  | look id => exact mirrors.look id
  | drop id =>
    have existed : (election.openWaits.lookup id).isSome = (watch.openWaits.lookup id).isSome := by
      rw [← mirrors.openWaits, Option.isSome_map]
    exact ⟨congrArg (Except.ok ∘ Reply.verdict) existed, mirrors.remove id⟩

end

variable {past : List (Move ι)} {id : ι}

/-- An election is as the election that is observed through the same steps. -/
theorem mirrors_since (delivers : channel.Delivers) (delayed : Bool) (past : List (Move ι)) :
    Mirrors channel (since channel past) (ElectionWatch.since delayed (past.map Move.step)) := by
  induction past with
  | nil =>
    refine ⟨?_, fun _ => rfl, nofun⟩
    simp [since, opened, ChannelElection.toLocal, delivers.latest_opened, ElectionWatch.since]
  | cons move past ih => exact (ih.step delivers move).2

/-- Every move answers what it is observed to answer, and nobody is interrupted. -/
theorem answer_eq (delivers : channel.Delivers) (delayed : Bool) (past : List (Move ι))
    (move : Move ι) :
    answer channel past move =
      .ok (ElectionWatch.answer delayed (past.map Move.step) move.step) :=
  ((mirrors_since delivers delayed past).step delivers move).1

/-- The channel holds the token that is held. -/
theorem latest_since (delivers : channel.Delivers) (past : List (Move ι)) :
    channel.latest (since channel past).leader = incumbent (past.map Move.step) := by
  rw [← (ElectionWatch.agrees_since false (past.map Move.step)).held,
    ← (mirrors_since delivers false past).agree]
  rfl

theorem answer_grant (delivers : channel.Delivers) (past : List (Move ι)) :
    answer channel past .grant = .ok (.token
      ⟨(minted (past.map Move.step)).length, grants (past.map Move.step) + 1⟩) := by
  rw [answer_eq delivers false]
  exact congrArg Except.ok (ElectionWatch.answer_grant _ _)

/-- The token that is held was granted last, and not revoked since. -/
theorem latest_eq_some_iff (delivers : channel.Delivers) {token : Token} :
    channel.latest (since channel past).leader = some token ↔
      ∃ later earlier, past = later ++ .grant :: earlier ∧
        (∀ move ∈ later, move ≠ .grant ∧ move ≠ .revoke) ∧
        answer channel earlier .grant = .ok (.token token) := by
  simp only [latest_since delivers, answer_grant delivers, Except.ok.injEq, Reply.token.injEq]
  constructor
  · intro held
    -- the grant that is found among the observed steps is found among the moves
    obtain ⟨later, earlier, split, unchanged, rfl⟩ := ElectionWatch.incumbent_eq_some_iff.mp held
    obtain ⟨later, rest, rfl, rfl, rest_eq⟩ := List.map_eq_append_iff.mp split
    obtain ⟨move, earlier, rfl, isGrant, rfl⟩ := List.map_eq_cons_iff.mp rest_eq
    cases move with
    | grant =>
      refine ⟨later, earlier, rfl, fun move mem => ?_, rfl⟩
      have apart := unchanged move.step (List.mem_map_of_mem mem)
      exact ⟨fun same => apart.1 (by rw [same]; rfl), fun same => apart.2 (by rw [same]; rfl)⟩
    | revoke | make | look | drop => cases isGrant
  · rintro ⟨later, earlier, rfl, unchanged, rfl⟩
    rw [List.map_append, ElectionWatch.incumbent_append]
    · rfl
    · intro step mem
      obtain ⟨move, made, rfl⟩ := List.mem_map.mp mem
      have apart := unchanged move made
      cases move with
      | grant => exact absurd rfl apart.1
      | revoke => exact absurd rfl apart.2
      | make | look | drop => exact ⟨nofun, nofun⟩

/-! ## Waits that are there -/

/-- The wait that goes by a name is there: it was made and has not been dropped, and whenever it was
looked at, it was not over. -/
def Lives (channel : Channel σ ρ (Option Token)) (id : ι) : List (Move ι) → Prop
  | [] => False
  | .make other :: past => id = other ∨ Lives channel id past
  | .look other :: past =>
    Lives channel id past ∧ (id = other → answer channel past (.look id) = .ok .pending)
  | .drop other :: past => Lives channel id past ∧ id ≠ other
  | _ :: past => Lives channel id past

theorem answer_look (delivers : channel.Delivers) (past : List (Move ι)) (id : ι) :
    answer channel past (.look id) =
      .ok (match standing id (past.map Move.step), incumbent (past.map Move.step) with
        | none, _ => .unknown
        | some _, some token => .token token
        | some _, none => .pending) := by
  rw [answer_eq delivers false]
  exact congrArg Except.ok (ElectionWatch.answer_lookAtWait _ _ _)

theorem lives_iff (delivers : channel.Delivers) :
    Lives channel id past ↔ (standing id (past.map Move.step)).isSome = true := by
  induction past with
  | nil => simp [Lives, standing]
  | cons move past ih =>
    cases move with
    | grant | revoke => exact ih
    | make other =>
      rw [Lives, ih, List.map_cons, Move.step, standing]
      split <;> simp [*]
    | drop other =>
      rw [Lives, ih, List.map_cons, Move.step, standing]
      split <;> simp [*]
    | look other =>
      rw [Lives, ih, List.map_cons, Move.step, standing, answer_look delivers]
      by_cases same : id = other
      · -- a wait outlives a look if nothing is held, and then it is pending
        cases standing id (past.map Move.step) <;> cases incumbent (past.map Move.step) <;>
          simp [same]
      · simp [same]

/-! ## Histories without other waits -/

/-- What is done is done to this wait, or to none. -/
def Move.concerns (id : ι) (move : Move ι) : Bool := move.wait?.all (· == id)

/-- The history without what was done to other waits. -/
def solo (id : ι) (past : List (Move ι)) : List (Move ι) := past.filter (Move.concerns id)

theorem solo_cons_of_concerns {move : Move ι} (concerns : move.concerns id = true) :
    solo id (move :: past) = move :: solo id past :=
  List.filter_cons_of_pos concerns

theorem solo_cons_of_ne {move : Move ι} {other : ι} (wait : move.wait? = some other)
    (apart : id ≠ other) : solo id (move :: past) = solo id past :=
  List.filter_cons_of_neg (by simp [Move.concerns, wait, apart.symm])

/-- Neither the tokens nor where a wait stands depend on other waits. -/
theorem solo_spec (id : ι) (past : List (Move ι)) :
    minted ((solo id past).map Move.step) = minted (past.map Move.step) ∧
      grants ((solo id past).map Move.step) = grants (past.map Move.step) ∧
      incumbent ((solo id past).map Move.step) = incumbent (past.map Move.step) ∧
      standing id ((solo id past).map Move.step) = standing id (past.map Move.step) := by
  induction past with
  | nil => exact ⟨rfl, rfl, rfl, rfl⟩
  | cons move past ih =>
    obtain ⟨minted_eq, grants_eq, incumbent_eq, standing_eq⟩ := ih
    cases move with
    | grant | revoke =>
      rw [solo_cons_of_concerns rfl]
      simp [Move.step, minted, grants, incumbent, standing, minted_eq, grants_eq, standing_eq]
    | make other | look other | drop other =>
      by_cases same : id = other
      · rw [solo_cons_of_concerns (by simp [Move.concerns, Move.wait?, same])]
        simp [Move.step, minted, grants, incumbent, standing, minted_eq, grants_eq, incumbent_eq,
          standing_eq]
      · rw [solo_cons_of_ne rfl same]
        simp [Move.step, minted, grants, incumbent, standing, minted_eq, grants_eq, incumbent_eq,
          standing_eq, same]

/-- What is answered does not depend on what was done to other waits. -/
theorem answer_solo (delivers : channel.Delivers) {move : Move ι}
    (concerns : move.concerns id = true) :
    answer channel (solo id past) move = answer channel past move := by
  obtain ⟨minted_eq, grants_eq, incumbent_eq, standing_eq⟩ := solo_spec id past
  cases move with
  | grant => rw [answer_grant delivers, answer_grant delivers, minted_eq, grants_eq]
  | revoke | make => rfl
  | look other =>
    obtain rfl : other = id := by simpa [Move.concerns, Move.wait?] using concerns
    rw [answer_look delivers, answer_look delivers, standing_eq, incumbent_eq]
  | drop other =>
    obtain rfl : other = id := by simpa [Move.concerns, Move.wait?] using concerns
    simp only [answer_eq delivers false, Move.step, ElectionWatch.answer_dropWait, standing_eq]

/-- What is put in the place of one wait does not hide the others. -/
private theorem lookup_put_of_ne {β : Type} {other : ι} (apart : other ≠ id) (value : β)
    (l : List (ι × β)) :
    ((id, value) :: l.filter (·.1 != id)).lookup other = l.lookup other := by
  rw [ElectionWatch.lookup_cons_eq_ite, if_neg apart, ElectionWatch.lookup_filter_ne, if_neg apart]

/-- What is done to a wait is counted, and changes nothing else than this wait. -/
theorem step_of_wait (election : ChannelElection σ ρ ι) {move : Move ι}
    (wait : move.wait? = some id) :
    (election.step channel move).2 = { election with
      waits := (election.step channel move).2.waits
      openWaits := (election.step channel move).2.openWaits } ∧
    ∀ other, other ≠ id →
      (election.step channel move).2.openWaits.lookup other = election.openWaits.lookup other := by
  cases move with
  | grant | revoke => cases wait
  | make named =>
    obtain rfl : named = id := Option.some.inj wait
    refine ⟨rfl, fun other apart => ?_⟩
    exact lookup_put_of_ne apart .made election.openWaits
  | look named =>
    obtain rfl : named = id := Option.some.inj wait
    rw [step, look]
    cases election.openWaits.lookup named with
    | none => exact ⟨rfl, fun _ _ => rfl⟩
    | some stage =>
      dsimp only
      cases channel.look Option.isSome election.leader stage with
      | ended value =>
        refine ⟨by cases stage <;> rfl, fun other apart => ?_⟩
        rw [ElectionWatch.lookup_filter_ne, if_neg apart]
      | asleep reader =>
        refine ⟨by cases stage <;> rfl, fun other apart => ?_⟩
        exact lookup_put_of_ne apart (.asleep reader) election.openWaits
  | drop named =>
    obtain rfl : named = id := Option.some.inj wait
    refine ⟨rfl, fun other apart => ?_⟩
    rw [step, ElectionWatch.lookup_filter_ne, if_neg apart]

/-! ## What those who wait are told -/

/-- One who waits and is told of a token is told of the one that is held. -/
theorem incumbent_of_answer_look (delivers : channel.Delivers) {token : Token}
    (told : answer channel past (.look id) = .ok (.token token)) :
    incumbent (past.map Move.step) = some token := by
  rw [answer_look delivers] at told
  cases stands : standing id (past.map Move.step) <;>
    cases held : incumbent (past.map Move.step) <;> simp_all

/-- A token that was superseded or revoked is not held any more. -/
theorem incumbent_ne_of_change (delivers : channel.Delivers) {later earlier : List (Move ι)}
    {token : Token} (granted : answer channel earlier .grant = .ok (.token token))
    (change : ∃ move ∈ later, move = .grant ∨ move = .revoke) :
    incumbent ((later ++ .grant :: earlier).map Move.step) ≠ some token := by
  obtain ⟨move, mem, move_eq⟩ := change
  obtain ⟨after, before, rfl⟩ := List.append_of_mem mem
  -- struck before the change, the token is held no longer after it, and then never again
  rw [answer_grant delivers, Except.ok.injEq, Reply.token.injEq] at granted
  have struck : token ∈ minted ((.grant :: earlier : List (Move ι)).map Move.step) := by
    rw [← granted]
    exact List.mem_append_right _ List.mem_cons_self
  have before_struck : token ∈ minted ((before ++ .grant :: earlier).map Move.step) := by
    rw [List.map_append]
    exact (ElectionWatch.minted_prefix_append _ _).subset struck
  have lapsed : incumbent ((move :: (before ++ .grant :: earlier)).map Move.step) ≠ some token :=
    ElectionWatch.incumbent_cons_ne before_struck
      (move_eq.imp (fun same => by rw [same]; rfl) fun same => by rw [same]; rfl)
  rw [List.append_assoc, List.cons_append, List.map_append]
  exact ElectionWatch.incumbent_ne_of_ne
    ((ElectionWatch.minted_prefix_cons _ _).subset before_struck) lapsed _

/-- Those who wait for leadership miss nothing and are not misled, over any channel that delivers
and after any history. The token that is held is the one that was granted last, with no revocation
since. Whoever looks at a wait that is there is told of this token, and if none is held he finds the
wait pending; nobody is interrupted. A token that was superseded or revoked is reported to nobody.
Whoever sleeps while a token is held has news waiting. A wait is counted when it is first looked at.
Whatever is done to a wait leaves the election and the other waits as they are, and what is answered
is the same as if nothing had ever been done to other waits. All this is what is observed of an
election where every look at a wait is a look at the token. -/
theorem waits_tell_what_is_held (delivers : channel.Delivers) (past : List (Move ι)) :
    let election := since channel past
    let held := channel.latest election.leader
    (∀ token, held = some token ↔ ∃ later earlier, past = later ++ .grant :: earlier ∧
      (∀ move ∈ later, move ≠ .grant ∧ move ≠ .revoke) ∧
      answer channel earlier .grant = .ok (.token token)) ∧
    (∀ id, (Lives channel id past →
        answer channel past (.look id) = .ok (held.elim .pending .token)) ∧
      (¬Lives channel id past → answer channel past (.look id) = .ok .unknown)) ∧
    (∀ later earlier token, past = later ++ .grant :: earlier →
      answer channel earlier .grant = .ok (.token token) →
      (∃ move ∈ later, move = .grant ∨ move = .revoke) →
      ∀ id, answer channel past (.look id) ≠ .ok (.token token)) ∧
    (∀ id reader, election.openWaits.lookup id = some (.asleep reader) → held ≠ none →
      channel.hasNews election.leader reader = true) ∧
    election.waits = waitsBegun (past.map Move.step) ∧
    (∀ (move : Move ι) id, move.wait? = some id →
      (election.step channel move).2 = { election with
        waits := (election.step channel move).2.waits
        openWaits := (election.step channel move).2.openWaits } ∧
      ∀ other, other ≠ id →
        (election.step channel move).2.openWaits.lookup other = election.openWaits.lookup other) ∧
    (∀ (move : Move ι) id, move.concerns id = true →
      answer channel (solo id past) move = answer channel past move) ∧
    ∀ delayed,
      election.toLocal channel = (ElectionWatch.since delayed (past.map Move.step)).election ∧
      ∀ move, answer channel past move =
        .ok (ElectionWatch.answer delayed (past.map Move.step) move.step) := by
  intro election held
  have mirrors := mirrors_since delivers false past
  have held_eq : held = incumbent (past.map Move.step) := latest_since delivers past
  refine ⟨fun token => latest_eq_some_iff delivers, fun id => ⟨fun lives => ?_, fun gone => ?_⟩,
    fun later earlier token past_eq granted change id told => ?_,
    fun id reader here isHeld => ?_, ?_, fun move id wait => step_of_wait election wait,
    fun move id concerns => answer_solo delivers concerns,
    fun delayed =>
      ⟨(mirrors_since delivers delayed past).agree, answer_eq delivers delayed past⟩⟩
  · obtain ⟨begun, stands⟩ := Option.isSome_iff_exists.mp ((lives_iff delivers).mp lives)
    rw [answer_look delivers, stands, held_eq]
    cases incumbent (past.map Move.step) <;> rfl
  · rw [lives_iff delivers, Bool.not_eq_true, Option.isSome_eq_false_iff,
      Option.isNone_iff_eq_none] at gone
    rw [answer_look delivers, gone]
  · exact incumbent_ne_of_change delivers granted change
      (past_eq ▸ incumbent_of_answer_look delivers told)
  · exact (mirrors.alert id _ here).2 (Option.isSome_iff_ne_none.mpr isHeld)
  · rw [← (ElectionWatch.agrees_since false (past.map Move.step)).waits, ← mirrors.agree]
    rfl

/-- One who fell asleep before a first term and one who is not looked at before a second are both
told of the second one, over a channel that numbers what is sent. -/
theorem waits_tell_what_is_held_over_numbered :
    let channel := Channel.numbered (Option Token)
    let past : List (Move String) :=
      [.make "late", .grant, .revoke, .grant, .look "early", .make "early"]
    channel.Delivers ∧
      (Lives channel "early" past ∧
        answer channel past (.look "early") = .ok (.token ⟨1, 2⟩)) ∧
      (Lives channel "late" past ∧ answer channel past (.look "late") = .ok (.token ⟨1, 2⟩)) ∧
      answer channel past (.look "early") ≠ .ok (.token ⟨0, 1⟩) ∧
      channel.hasNews (since channel past).leader 0 = true := by
  intro channel past
  have delivers : channel.Delivers := Channel.delivers_numbered (Option Token)
  have early : Lives channel "early" past := .inr ⟨.inl rfl, fun _ => rfl⟩
  have late : Lives channel "late" past := .inl rfl
  obtain ⟨-, told, never, awake, -⟩ := waits_tell_what_is_held delivers past
  exact ⟨delivers, ⟨early, (told "early").1 early⟩, ⟨late, (told "late").1 late⟩,
    never [.make "late", .grant, .revoke] [.look "early", .make "early"] ⟨0, 1⟩ rfl rfl
      ⟨.revoke, by decide, .inr rfl⟩ "early",
    awake "early" 0 rfl (by decide)⟩

end ChannelElection

end Tenure
