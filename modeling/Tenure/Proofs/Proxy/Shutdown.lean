import Tenure.Proofs.Proxy.Coherence
import Tenure.Proofs.Proxy.Projection
import Tenure.Proofs.Proxy.Succession

/-!
# Shutdown

A proxy is closed by one flag, and nothing opens it again. Whoever looks at the flag after that
gives up: a call before it has done anything, an acquisition before it waits or builds, another
closing before it takes anything out of service. Whoever has looked before may still be on the way,
with a delegate to build, a term to publish or a delegate to release; once all of them have come to
their end, nothing is served and nothing is left unreleased.

## Main definitions

* `Party.isOver` — a party that has come to its end
* `Acquisition.isCommitted` — an acquisition that may wait or build without another look
* `Party.Desists` — a party that does not
* `Proxy.OnlyAt` — nothing has changed but the party at one place

## Main results

* `Proxy.shutdown` — what is left of a closed proxy, and who can still change it
-/

namespace Tenure

variable {α : Type}

/-- Whether a party has come to its end. -/
def Party.isOver : Party α → Bool
  | calling caller => caller.call.result?.isSome
  | acquiring acquisition => decide (acquisition = .finished)
  | closing next => decide (next = .finished)

/-- Whether an acquisition has found the proxy open and may go on to a wait or a construction
without another look, or is in a construction. -/
def Acquisition.isCommitted : Acquisition → Bool
  | ask | wait _ | build .. | building .. => true
  | _ => false

theorem Party.phase_of_isOver {party : Party α} (h : party.isOver = true) :
    party.phase = .resting ∨ party.phase = .stopped := by
  cases party with
  | calling caller =>
    obtain ⟨style, call, term, work, validation, checks⟩ := caller
    cases call with
    | finished result => exact .inl rfl
    | _ => simp [isOver, Call.result?] at h
  | acquiring acquisition =>
    obtain rfl : acquisition = .finished := of_decide_eq_true h
    exact .inl rfl
  | closing next =>
    obtain rfl : next = .finished := of_decide_eq_true h
    exact .inr rfl

/-! ### Parties that look too late -/

namespace Caller

variable {caller next : Caller α} {profile : Profile} {grounds : Grounds} {i : Nat}
  {move : Proxy.Move α}

/-- A call that has done nothing, and has failed because the proxy is closed or has yet to look
whether it is. -/
def Barred (client : String) (caller : Caller α) : Prop :=
  caller.Fresh ∧
    (caller.call = .enter ∨ caller.call = .finished (.error (.closed client)))

/-- Where the proxy is closed, such a call fails and leaves everything else as it is. -/
theorem Barred.proceed (h : caller.Barred profile.client)
    (hc : grounds.register.closed = true) (answers : Answers) :
    caller.proceed profile grounds answers =
      ({ caller with call := .finished (.error (.closed profile.client)) }, grounds, none) := by
  obtain ⟨style, call, term, work, validation, checks⟩ := caller
  -- it looks at the flag now, or has done so and rests
  rcases h.2 with rfl | rfl
  · simp [Caller.proceed, Call.proceed, Call.flagRead, hc, Profile.setting]
  · rfl

theorem Barred.party_proceed (h : caller.Barred profile.client)
    (hc : grounds.register.closed = true) (answers : Answers) :
    (Party.calling caller).proceed profile grounds answers =
      (.calling { caller with call := .finished (.error (.closed profile.client)) }, grounds,
        none) := by
  change (Party.calling (caller.proceed profile grounds answers).1,
    (caller.proceed profile grounds answers).2.1, (caller.proceed profile grounds answers).2.2) = _
  rw [h.proceed hc]

/-- Nothing happens around such a call. -/
theorem Barred.undergo (h : caller.Barred profile.client) (event : Event α) :
    caller.undergo profile event = (caller, []) := by
  obtain ⟨style, call, term, work, validation, checks⟩ := caller
  obtain ⟨⟨rfl, rfl, rfl⟩, hcall⟩ := h
  cases event with
  | operationOver outcome => cases outcome <;> cases style <;> rfl
  | dropped => cases style <;> rcases hcall with rfl | rfl <;> rfl
  | _ => rfl

theorem Barred.fate (h : caller.Barred profile.client) (hc : grounds.register.closed = true)
    (hfate : caller.Fate profile grounds i move next) : next.Barred profile.client := by
  cases hfate with
  | unmoved => exact h
  | proceeds answers =>
    rw [h.proceed hc]
    exact ⟨h.1, .inr rfl⟩
  | undergoes event =>
    rw [h.undergo event]
    exact h

end Caller

namespace Closing

/-- A closing that has come, or will come, after the flag was set. -/
def Late : Closing → Prop
  | shutting operation => operation = .shut ∨ operation = .done (.closed false)
  | stopping | finished => True

variable {next : Closing} {grounds : Grounds}

/-- Where the proxy is closed, such a closing leaves the register with its ledger as it is, and
once the acquisition thread was told to stop, everything. -/
theorem Late.proceed (h : next.Late) (hc : grounds.register.closed = true) (answers : Answers) :
    (next.proceed grounds answers).1.Late ∧
      (next.proceed grounds answers).2.toLedger = grounds.toLedger ∧
      (grounds.stopped = true → (next.proceed grounds answers).2 = grounds) := by
  cases next with
  | shutting operation =>
    -- it swaps the flag and finds it set, or has found it so
    rcases h with rfl | rfl
    · have hadvance := Operation.proceed_advance grounds.toLedger answers.release .shut
      simp only [Closing.proceed, Operation.standing]
      generalize Operation.shut.proceed grounds.toLedger answers.release = became at hadvance
      obtain ⟨operation, ledger⟩ := became
      cases hadvance with
      | shut isOpen =>
        rw [hc] at isOpen
        simp at isOpen
      | wasShut closed => exact ⟨.inr rfl, rfl, fun _ => rfl⟩
    · exact ⟨trivial, rfl, fun _ => rfl⟩
  | stopping =>
    refine ⟨trivial, rfl, fun hs => ?_⟩
    simp [Closing.proceed, ← hs]
  | finished => exact ⟨trivial, rfl, fun _ => rfl⟩

end Closing

/-! ### Acquisitions that look too late -/

/-- Where the proxy is closed, an acquisition that has yet to look at the flag before it waits or
builds does neither. -/
theorem Acquisition.isCommitted_proceed {acquisition : Acquisition} {client : String}
    {grounds : Grounds} (h : acquisition.isCommitted = false)
    (hc : grounds.register.closed = true) (answers : Answers) :
    (acquisition.proceed client grounds answers).1.isCommitted = false := by
  have hprepare (token : Token) (failures : UInt32) :
      (prepare token failures).isCommitted = false := by
    unfold prepare
    split <;> rfl
  cases acquisition with
  | again known failures => cases known <;> simp [proceed, flagRead, hc, isCommitted]
  | enter | refused failure | excuse failure failures | relax failures | confirm token failures =>
    simp [proceed, flagRead, hc, isCommitted]
  | handOver known failures =>
    simp only [proceed, handedOver]
    cases refusal client grounds.stopped <;> rfl
  | waiting failures =>
    -- a wait that was begun before may still end well; its token is not built without a look
    simp only [proceed, Acquisition.waited]
    cases answers.waited with
    | ok token => exact hprepare token failures
    | error failure => rfl
  | publishing operation =>
    simp only [proceed]
    split <;> rfl
  | queued known failures | gainPause failures | buildPause token failures | finished => rfl
  | ask | wait failures | build site token failures | building site token failures =>
    simp [isCommitted] at h

/-- A party that carries on no acquisition, or one that has yet to look whether the proxy is open
before it waits or builds. -/
def Party.Desists (party : Party α) : Prop :=
  ∀ acquisition, party.acquisition? = some acquisition → acquisition.isCommitted = false

namespace Call

/-- What a call is told of its operation starts no acquisition. -/
theorem acquisition?_operationOver (setting : Setting) (outcome : Outcome α) (call : Call α) :
    (call.operationOver setting outcome).1.acquisition? = call.acquisition? := by
  have hhandle (term : Term) (failure : DelegateFailure) :
      (handle (α := α) setting term failure).1.acquisition? = none := by
    unfold handle
    split <;> rfl
  cases call with
  | underway term | confirmed term =>
    cases outcome with
    | failure failure => exact hhandle term failure
    | _ => rfl
  | _ => rfl

/-- What a call is told of its checks starts no acquisition. -/
theorem acquisition?_checked (setting : Setting) (result : Checked) (call : Call α) :
    (call.checked setting result).1.acquisition? = call.acquisition? := by
  have hweigh (term : Term) {confirmed : Call α} (hc : confirmed.acquisition? = none) :
      (weigh setting term result confirmed).1.acquisition? = none := by
    unfold weigh
    split
    · exact hc
    · rfl
    · rfl
  cases call with
  | underway term =>
    simp only [checked]
    split
    · rfl
    · exact hweigh term rfl
  | operated term value => exact hweigh term rfl
  | _ => rfl

/-- Where the proxy is closed, a call starts no acquisition. -/
theorem acquisition?_proceed {call : Call α} {grounds : Grounds} (h : call.acquisition? = none)
    (hc : grounds.register.closed = true) (setting : Setting) (answers : Answers) :
    (call.proceed setting grounds answers).1.acquisition? = none := by
  cases call with
  | enter | lookOpen taken value | rearm cause => simp [proceed, flagRead, hc, acquisition?]
  | take | takeAgain hint =>
    simp only [proceed]
    cases grounds.register.current <;> rfl
  | lookServed taken value | interrupted taken failure =>
    simp only [proceed, currentRead]
    split <;> rfl
  | excuse =>
    simp only [proceed]
    cases answers.hint <;> rfl
  | ending cause operation =>
    simp only [proceed]
    split
    · rename_i won hover
      cases won <;> rfl
    · rfl
  | acquiring cause acquisition => simp [acquisition?] at h
  | _ => rfl

end Call

namespace Caller

variable {caller : Caller α} {profile : Profile} {grounds : Grounds}

/-- Nothing that a call hears starts an acquisition. -/
theorem Hears.acquisition? {call : Call α} {notices : List Notice}
    (h : caller.Hears profile call notices) : call.acquisition? = caller.call.acquisition? := by
  cases h with
  | nothing | check attempt delivery => rfl
  | operation outcome => exact Call.acquisition?_operationOver _ outcome _
  | checks result => exact Call.acquisition?_checked _ result _
  | lost failure waits =>
    cases hcall : caller.call with
    | underway term | operated term value | confirmed term => rfl
    | _ => simp [hcall, Call.isWaiting] at waits

/-- Where the proxy is closed, a call starts no acquisition. -/
theorem acquisition?_proceed (h : caller.call.acquisition? = none)
    (hc : grounds.register.closed = true) (answers : Answers) :
    (caller.proceed profile grounds answers).1.call.acquisition? = none := by
  rcases caller.call_proceed profile grounds answers with hcall | ⟨_, refusal, -, hcall⟩
  · rw [hcall]
    exact Call.acquisition?_proceed h hc _ answers
  · rw [hcall]
    cases refusal <;> rfl

/-- Where the proxy is closed, a call starts no acquisition, and one that it has started neither
waits nor builds unless it has looked at the flag before. -/
theorem proceed_desists (h : (Party.calling caller).Desists)
    (hc : grounds.register.closed = true) (answers : Answers) :
    (Party.calling (caller.proceed profile grounds answers).1).Desists := by
  cases hstarted : caller.call.acquisition? with
  | none =>
    intro acquisition ha
    rw [Party.acquisition?, acquisition?_proceed hstarted hc] at ha
    simp at ha
  | some started =>
    obtain ⟨style, call, term, work, validation, checks⟩ := caller
    cases call with
    | acquiring cause acquisition =>
      have hnext : (acquisition.proceed profile.client grounds answers).1.isCommitted = false :=
        Acquisition.isCommitted_proceed (h acquisition rfl) hc answers
      cases acquisition with
      | finished =>
        -- the call has its acquisition behind it, and goes on to fail
        intro acquisition ha
        simp [Party.acquisition?, proceed, Call.proceed, Call.acquired, Call.acquisition?] at ha
      | _ =>
        intro next ha
        obtain rfl := Option.some.inj ha
        exact hnext
    | _ => simp [Call.acquisition?] at hstarted

/-- A call has no acquisition when it is made. -/
theorem make_desists (style : Style) (mayWait : Bool) :
    (Party.calling (make (α := α) style mayWait)).Desists := by
  intro acquisition ha
  cases style <;> cases mayWait <;> simp [make, Party.acquisition?, Call.acquisition?] at ha

end Caller

theorem Party.Desists.fate {party next : Party α} {profile : Profile} {grounds : Grounds} {i : Nat}
    {move : Proxy.Move α} (h : party.Desists) (hc : grounds.register.closed = true)
    (hfate : party.Fate profile grounds i move next) : next.Desists := by
  cases hfate with
  | unmoved => exact h
  | calling fate =>
    cases fate with
    | unmoved => exact h
    | proceeds answers => exact Caller.proceed_desists h hc answers
    | undergoes event =>
      intro acquisition ha
      rw [Party.acquisition?, (Caller.undergo_hears _ _ event).acquisition?] at ha
      exact h acquisition ha
  | @acquiring acquisition answers =>
    intro other ho
    obtain rfl := Option.some.inj ho
    exact Acquisition.isCommitted_proceed (h acquisition rfl) hc answers
  | closing answers =>
    intro acquisition ha
    simp [Party.acquisition?] at ha
  | dropped stopped droppable =>
    intro acquisition ha
    obtain rfl := Option.some.inj ha
    rfl

namespace Proxy

variable {profile : Profile} {schedule : Nat → Move α} {i m n : Nat}

/-- Nothing has changed but the party at a place. -/
def OnlyAt (i : Nat) (proxy proxy' : Proxy α) : Prop :=
  proxy'.toGrounds = proxy.toGrounds ∧ proxy'.parties.length = proxy.parties.length ∧
    ∀ j, j ≠ i → proxy'.parties[j]? = proxy.parties[j]?

/-! ### When all have come to their end -/

/-- Nothing opens a proxy again. -/
theorem closed_mono (profile : Profile) (schedule : Nat → Move α) (h : m ≤ n)
    (hc : (after profile schedule m).register.closed = true) :
    (after profile schedule n).register.closed = true :=
  (after_strides profile schedule h).shared.closed hc

/-- A proxy some closing of which has come to its end is closed, and its acquisition thread was
told to stop. -/
theorem closed_of_finished {proxy : Proxy α} (h : proxy.company.Orderly)
    (here : proxy.parties[i]? = some (.closing .finished)) : proxy.register.closed = true :=
  h.2 _ (List.mem_of_getElem? (getElem?_company here))

/-- Where all parties have come to their end, none of them works on the register or has a
stake. -/
theorem quiet_of_isOver {proxy : Proxy α} (h : ∀ party ∈ proxy.parties, party.isOver = true) :
    proxy.company.shared.Quiet ∧ proxy.company.phases.countP (·.stake) = 0 := by
  have hphase : ∀ phase ∈ proxy.company.phases, phase = .resting ∨ phase = .stopped := by
    intro phase hp
    obtain ⟨party, hparty, rfl⟩ := List.mem_map.mp hp
    exact party.phase_of_isOver (h party hparty)
  refine ⟨fun operation ho => ?_, ?_⟩
  · obtain ⟨phase, hp, rfl⟩ := List.mem_map.mp ho
    refine ⟨.ended false, ?_⟩
    rcases hphase phase hp with rfl | rfl <;> rfl
  · rw [List.countP_eq_zero]
    intro phase hp
    rcases hphase phase hp with rfl | rfl <;> simp [Phase.stake]

/-- Once a closing and all other parties have come to their end, no term is served and every
delegate that was built was released exactly once; and no term is served ever after. -/
theorem released_of_isOver {closing : Closing} (profile : Profile) (schedule : Nat → Move α)
    (here : (after profile schedule n).parties[i]? = some (.closing closing))
    (h : ∀ party ∈ (after profile schedule n).parties, party.isOver = true) :
    (after profile schedule n).register.current = none ∧
      (∀ delegate, 1 ≤ delegate → delegate ≤ (after profile schedule n).brought →
        (after profile schedule n).released.count delegate = 1) ∧
      ∀ m, n ≤ m → (after profile schedule m).register.current = none := by
  -- nobody carries a delegate or owes a release, so what was built is in service or released;
  -- and a closed register in which nobody works serves nothing
  have hsound := sound_after profile schedule n
  obtain ⟨hquiet, hstakes⟩ := quiet_of_isOver h
  have hclosed : (after profile schedule n).register.closed = true := by
    have hover : closing = .finished := of_decide_eq_true (h _ (List.mem_of_getElem? here))
    rw [hover] at here
    exact closed_of_finished hsound.orderly here
  have hnone : (after profile schedule n).register.current = none :=
    hquiet.current_eq_none hsound.shared.tidied hclosed
  refine ⟨hnone, fun delegate hle hbrought => ?_, fun m hm => ?_⟩
  · exact hquiet.released hsound.shared hclosed hle hbrought
  · -- nobody has the stake any more, and it does not come back
    have hle := (after_strides profile schedule hm).stakes_le hsound
    have hzero : (after profile schedule n).company.stakes = 0 := by
      change (after profile schedule n).register.current.isSome.toNat + _ = 0
      rw [hnone, hstakes]
      rfl
    have hserved : (after profile schedule m).register.current.isSome = false := by
      rw [stakes_eq, hzero] at hle
      cases hs : (after profile schedule m).register.current.isSome with
      | false => rfl
      | true =>
        rw [hs, Bool.toNat_true] at hle
        omega
    simpa using hserved

/-! ### Who looks at the flag too late -/

theorem onlyAt_settle (proxy : Proxy α) (i : Nat) (party : Party α) :
    OnlyAt i proxy (proxy.settle i (party, proxy.toGrounds, none)) := by
  refine ⟨rfl, by simp [settle], fun j hj => ?_⟩
  simp [settle, List.getElem?_set_ne hj.symm]

/-- The moves of a party that leaves the grounds alone and sends nobody out change nothing but that
party. -/
theorem onlyAt_step {proxy : Proxy α} {party : Party α} {move : Move α}
    (here : proxy.parties[i]? = some party) (hmove : move.mover = some i)
    (hproceed : ∀ answers, (party.proceed profile proxy.toGrounds answers).2 =
      (proxy.toGrounds, none))
    (hundergo : ∀ caller event, party = .calling caller →
      (caller.undergo profile event).2 = []) :
    OnlyAt i proxy (proxy.step profile move) := by
  have hself : OnlyAt i proxy proxy := ⟨rfl, rfl, fun _ _ => rfl⟩
  cases move with
  | call style mayWait => simp [Move.mover] at hmove
  | close => simp [Move.mover] at hmove
  | proceed j answers =>
    obtain rfl : j = i := by simpa [Move.mover] using hmove
    have hsame := onlyAt_settle proxy j (party.proceed profile proxy.toGrounds answers).1
    rw [step_proceed here]
    rwa [← hproceed answers] at hsame
  | undergo j event =>
    obtain rfl : j = i := by simpa [Move.mover] using hmove
    cases party with
    | calling caller =>
      have hsame := onlyAt_settle proxy j (.calling (caller.undergo profile event).1)
      rw [step_undergo here, hundergo caller event rfl, Company.report_nil]
      exact hsame
    | _ => simpa only [step, here] using hself
  | drop j =>
    obtain rfl : j = i := by simpa [Move.mover] using hmove
    cases party with
    | acquiring acquisition =>
      simp only [step, here]
      split
      · exact onlyAt_settle proxy j (.acquiring .finished)
      · exact hself
    | _ => simpa only [step, here] using hself

/-- What a closed proxy leaves true of the party at a place. -/
theorem closed_stays {P : Party α → Prop} {party : Party α}
    (hc : (after profile schedule m).register.closed = true)
    (here : (after profile schedule m).parties[i]? = some party) (hp : P party)
    (fate : ∀ (grounds : Grounds) (move : Move α) party next, grounds.register.closed = true →
      P party → Party.Fate profile grounds i move party next → P next) (h : m ≤ n) :
    ∃ next, (after profile schedule n).parties[i]? = some next ∧ P next :=
  after_stays here hp
    (fun _ hk party next => fate _ _ party next (closed_mono profile schedule hk hc)) h

/-- A call that has yet to look whether a closed proxy is open fails without having done
anything. -/
theorem barred_of_closed {caller : Caller α}
    (hc : (after profile schedule m).register.closed = true)
    (here : (after profile schedule m).parties[i]? = some (.calling caller))
    (hcall : caller.call = .enter) (h : m ≤ n) :
    ∃ later, (after profile schedule n).parties[i]? = some (.calling later) ∧
      later.Barred profile.client := by
  have hfresh : caller.Fresh := by
    have hstage := (coherent_after profile schedule here).stage
    unfold Caller.AtStage at hstage
    simpa only [hcall] using hstage
  obtain ⟨next, hnext, later, rfl, hbarred⟩ := closed_stays
    (P := fun party => ∃ caller, party = .calling caller ∧ caller.Barred profile.client)
    hc here ⟨caller, rfl, hfresh, .inl hcall⟩ (fun grounds move party next hc hp hfate => by
      obtain ⟨caller, rfl, hbarred⟩ := hp
      cases hfate with
      | unmoved => exact ⟨caller, rfl, hbarred⟩
      | calling fate => exact ⟨_, rfl, hbarred.fate hc fate⟩) h
  exact ⟨later, hnext, hbarred⟩

/-- On a closed proxy a party that has yet to look at the flag before it waits or builds does
neither, ever; nor does a party that joins later. -/
theorem desists_of_closed {later : Party α}
    (hc : (after profile schedule m).register.closed = true) (h : m ≤ n)
    (before : ∀ party, (after profile schedule m).parties[i]? = some party → party.Desists)
    (here : (after profile schedule n).parties[i]? = some later) : later.Desists := by
  -- the place is followed through the schedule, from before anybody has come there if need be
  induction n, h using Nat.le_induction generalizing later with
  | base => exact before later here
  | succ n hmn ih =>
    have hclosed := closed_mono profile schedule hmn hc
    cases hparty : (after profile schedule n).parties[i]? with
    | some party =>
      obtain ⟨next, hnext, hfate⟩ := step_fate profile (schedule n) hparty
      obtain rfl : next = later := Option.some.inj (hnext.symm.trans here)
      exact (ih hparty).fate hclosed hfate
    | none =>
      -- who joins has no acquisition, or one that is queued and looks at the flag first
      rcases step_new profile (schedule n) hparty here with
        ⟨style, mayWait, rfl⟩ | rfl | ⟨known, failures, rfl⟩
      · exact Caller.make_desists style mayWait
      · intro acquisition ha
        simp [Party.acquisition?] at ha
      · intro acquisition ha
        obtain rfl := Option.some.inj ha
        rfl

/-- The moves of a closing that comes too late leave the register with its ledger as it is, and all
other parties; and once the acquisition thread was told to stop, everything. -/
theorem late_step (profile : Profile) {proxy : Proxy α} {next : Closing} {move : Move α}
    (hlate : next.Late) (hc : proxy.register.closed = true)
    (here : proxy.parties[i]? = some (.closing next)) (hmove : move.mover = some i) :
    (proxy.step profile move).toLedger = proxy.toLedger ∧
      (∀ j, j ≠ i → (proxy.step profile move).parties[j]? = proxy.parties[j]?) ∧
      (proxy.stopped = true → OnlyAt i proxy (proxy.step profile move)) := by
  refine ⟨?_, ?_, fun hs => ?_⟩
  · cases move with
    | proceed j answers =>
      obtain rfl : j = i := by simpa [Move.mover] using hmove
      rw [step_proceed here]
      exact (hlate.proceed hc answers).2.1
    | undergo j event | drop j =>
      obtain rfl : j = i := by simpa [Move.mover] using hmove
      simp only [step, here]
    | _ => simp [Move.mover] at hmove
  · intro j hj
    cases move with
    | proceed k answers =>
      obtain rfl : k = i := by simpa [Move.mover] using hmove
      rw [step_proceed here]
      simp [settle, Party.proceed, List.getElem?_set_ne hj.symm]
    | undergo k event | drop k =>
      obtain rfl : k = i := by simpa [Move.mover] using hmove
      simp only [step, here]
    | _ => simp [Move.mover] at hmove
  · refine onlyAt_step here hmove (fun answers => ?_) (fun caller event hcaller => ?_)
    · simp only [Party.proceed]
      rw [(hlate.proceed hc answers).2.2 hs]
    · simp at hcaller

/-- A closing that comes to a closed proxy comes too late. -/
theorem late_of_closed (hc : (after profile schedule m).register.closed = true)
    (here : (after profile schedule m).parties[i]? = some (.closing (.shutting .shut)))
    (h : m ≤ n) :
    ∃ next, (after profile schedule n).parties[i]? = some (.closing next) ∧ next.Late := by
  obtain ⟨party, hparty, next, rfl, hlate⟩ := closed_stays
    (P := fun party => ∃ next, party = .closing next ∧ Closing.Late next)
    hc here ⟨_, rfl, .inl rfl⟩ (fun grounds move party next hc hp hfate => by
      obtain ⟨closing, rfl, hlate⟩ := hp
      cases hfate with
      | unmoved => exact ⟨closing, rfl, hlate⟩
      | closing answers => exact ⟨_, rfl, (hlate.proceed hc answers).1⟩) h
  exact ⟨next, hparty, hlate⟩

/-- After every schedule, of a proxy that has been closed:

* once all parties have come to their end, no term is served, every delegate that was built was
  released exactly once, and no term is served ever after;
* a call that has yet to look whether the proxy is open fails because it is closed, with neither an
  operation nor a check begun, and its moves change nothing else;
* neither a wait nor a construction is begun by an acquisition, on its own or in a call, that has
  yet to look whether the proxy is open, nor by any party that joins later;
* another closing changes neither the register, nor what was released, nor any other party, and
  once the first closing has come to its end it changes nothing at all. -/
theorem shutdown (profile : Profile) (schedule : Nat → Move α) :
    (∀ (n i : Nat) (closing : Closing),
      (after profile schedule n).parties[i]? = some (.closing closing) →
      (∀ party ∈ (after profile schedule n).parties, party.isOver = true) →
      (after profile schedule n).register.current = none ∧
        (∀ delegate, 1 ≤ delegate → delegate ≤ (after profile schedule n).brought →
          (after profile schedule n).released.count delegate = 1) ∧
        ∀ m, n ≤ m → (after profile schedule m).register.current = none) ∧
    (∀ (m i : Nat) (caller : Caller α), (after profile schedule m).register.closed = true →
      (after profile schedule m).parties[i]? = some (.calling caller) → caller.call = .enter →
      ∀ n, m ≤ n →
        (∃ later, (after profile schedule n).parties[i]? = some (.calling later) ∧
          later.Barred profile.client) ∧
        ((schedule n).mover = some i →
          OnlyAt i (after profile schedule n) (after profile schedule (n + 1))) ∧
        ∀ answers, schedule n = .proceed i answers →
          ∃ last, (after profile schedule (n + 1)).parties[i]? = some (.calling last) ∧
            last.call = .finished (.error (.closed profile.client))) ∧
    (∀ m i : Nat, (after profile schedule m).register.closed = true →
      (∀ party, (after profile schedule m).parties[i]? = some party → party.Desists) →
      ∀ (n : Nat) (later : Party α), m ≤ n →
        (after profile schedule n).parties[i]? = some later → later.Desists) ∧
    ∀ m i : Nat, (after profile schedule m).register.closed = true →
      (after profile schedule m).parties[i]? = some (.closing (.shutting .shut)) →
      ∀ n, m ≤ n → (schedule n).mover = some i →
        (after profile schedule (n + 1)).toLedger = (after profile schedule n).toLedger ∧
        (∀ j, j ≠ i → (after profile schedule (n + 1)).parties[j]? =
          (after profile schedule n).parties[j]?) ∧
        ((∃ j : Nat, (after profile schedule n).parties[j]? = some (.closing .finished)) →
          OnlyAt i (after profile schedule n) (after profile schedule (n + 1))) := by
  refine ⟨fun n i closing here hover => released_of_isOver profile schedule here hover,
    fun m i caller hc here hcall n hmn => ?_, fun m i hc before n later hmn here => ?_,
    fun m i hc here n hmn hmove => ?_⟩
  · obtain ⟨later, hlater, hbarred⟩ := barred_of_closed hc here hcall hmn
    have hclosed := closed_mono profile schedule hmn hc
    refine ⟨⟨later, hlater, hbarred⟩, fun hmove => ?_, fun answers hmove => ?_⟩
    · refine onlyAt_step hlater hmove (fun answers => ?_) (fun other event hother => ?_)
      · rw [hbarred.party_proceed hclosed]
      · obtain rfl := Party.calling.inj hother
        rw [hbarred.undergo]
    · rw [after, hmove, step_proceed hlater, hbarred.party_proceed hclosed]
      exact ⟨_, getElem?_settle_self hlater _, rfl⟩
  · exact desists_of_closed hc hmn before here
  · obtain ⟨next, hnext, hlate⟩ := late_of_closed hc here hmn
    have hclosed := closed_mono profile schedule hmn hc
    obtain ⟨hledger, hothers, honly⟩ := late_step profile hlate hclosed hnext hmove
    refine ⟨hledger, hothers, fun hfirst => honly ?_⟩
    obtain ⟨j, hj⟩ := hfirst
    exact (sound_after profile schedule n).halted (List.mem_of_getElem? (getElem?_company hj))

/-- A proxy gains leadership at once and is closed twice; then a call is made. -/
def closedTwice : List (Move Nat) :=
  List.replicate 9 (.proceed 0 { held := some ⟨1, 3⟩ }) ++
    [.close, .close, .call .blocking true] ++ List.replicate 6 (.proceed 1 {}) ++
    List.replicate 3 (.proceed 2 {}) ++ [.proceed 3 {}]

/-- Once both closings and the call have come to their end, the one delegate that was built was
released, and no term is ever served again. -/
theorem closedTwice_releases :
    (after ⟨"client", "shard", 1⟩ (script closedTwice) 22).brought = 1 ∧
      (after ⟨"client", "shard", 1⟩ (script closedTwice) 22).released.count 1 = 1 ∧
      ∀ m, 22 ≤ m →
        (after ⟨"client", "shard", 1⟩ (script closedTwice) m).register.current = none := by
  have hover : (after ⟨"client", "shard", 1⟩ (script closedTwice) 22).parties.all
      Party.isOver = true := rfl
  obtain ⟨hend, -⟩ := shutdown ⟨"client", "shard", 1⟩ (script closedTwice)
  obtain ⟨-, hreleased, hnever⟩ := hend 22 1 .finished rfl (List.all_eq_true.mp hover)
  exact ⟨rfl, hreleased 1 (by decide) (by decide), hnever⟩

end Proxy

end Tenure
