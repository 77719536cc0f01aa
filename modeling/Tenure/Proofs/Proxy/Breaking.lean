import Tenure.Proofs.Proxy.Fate
import Tenure.Proofs.Proxy.Succession
import Tenure.Proxy.Brittle

/-!
# Leadership that is given up

The leadership of a proxy has one seat, and whoever sits there while the proxy is open goes on
until a term is served. A party that breaks off keeps what it had, so leadership is given up when
the seat is its own. This can happen in three places only: while the election is waited for,
while a delegate is built, and while the delegate is released whose term was ended. Nothing takes
the seat after that, though the proxy is open.

## Main definitions

* `Party.isHelpless` — a party that has the seat while it waits
* `Brittle.Pursued` — leadership is had, or somebody is on the way to it
* `Brittle.Forsaken` — a party has broken off that had the seat
* `Party.Stands` — what becomes of a party that has broken off

## Main results

* `Brittle.kept_after` — what is known of a proxy and of those who have broken off
* `Brittle.pursued_unless_forsaken` — when leadership is given up, and that it is for good
* `Brittle.forsaken_while_open` — that it can be given up in each of the three places
-/

namespace Tenure

variable {α : Type}

/-! ## Where the seat can be lost -/

/-- Whether an acquisition waits for the election or for a construction. -/
def Acquisition.isHelpless : Acquisition → Bool
  | waiting _ | building .. => true
  | _ => false

/-- Whether a call waits for the release of the delegate whose term it has ended, or carries on an
acquisition that waits. -/
def Call.isHelpless : Call α → Bool
  | ending _ (.releasing _ (.finish (.ended true))) => true
  | acquiring _ acquisition => acquisition.isHelpless
  | _ => false

/-- Whether a party has the seat while it waits. -/
def Party.isHelpless : Party α → Bool
  | calling caller => caller.call.isHelpless
  | acquiring acquisition => acquisition.isHelpless
  | closing _ => false

/-- Whether a party has the seat of an acquisition or of a call. -/
def Party.isSeated (party : Party α) : Bool := party.isOutstanding || party.isArming

theorem Party.isSeated_iff {party : Party α} :
    party.isSeated = true ↔ party.isOutstanding = true ∨ party.isArming = true := by
  simp only [isSeated, Bool.or_eq_true]

theorem Acquisition.isOutstanding_of_isHelpless {acquisition : Acquisition}
    (h : acquisition.isHelpless = true) : acquisition.isOutstanding = true := by
  cases acquisition with
  | waiting | building => rfl
  | _ => cases h

/-- An acquisition that waits for a release has put its term into service or has none. -/
theorem Acquisition.isHelpless_of_isExposed {acquisition : Acquisition}
    (exposed : acquisition.isExposed = true) (seated : acquisition.isOutstanding = true) :
    acquisition.isHelpless = true := by
  cases acquisition with
  | waiting | building => rfl
  | publishing operation =>
    cases operation with
    | releasing holding sequel => simp [isOutstanding, Operation.isBid] at seated
    | _ => cases exposed
  | _ => cases exposed

theorem Party.isSeated_of_isHelpless {party : Party α} (h : party.isHelpless = true) :
    party.isSeated = true := by
  cases party with
  | calling caller =>
    obtain ⟨style, call, term, work, validation, checks⟩ := caller
    cases call with
    | ending cause operation =>
      unfold isHelpless Call.isHelpless at h
      dsimp only at h
      split at h
      case h_1 heq =>
        obtain ⟨rfl, rfl⟩ := Call.ending.inj heq
        rfl
      case h_2 heq => cases heq
      case h_3 => cases h
    | acquiring cause acquisition =>
      exact isSeated_iff.mpr (.inl (Acquisition.isOutstanding_of_isHelpless h))
    | _ => cases h
  | acquiring acquisition =>
    exact isSeated_iff.mpr (.inl (Acquisition.isOutstanding_of_isHelpless h))
  | closing next => cases h

theorem Call.isHelpless_of_isExposed {call : Call α} (exposed : call.isExposed = true)
    (seated : call.acquisition?.any Acquisition.isOutstanding = true ∨ call.isArming = true) :
    call.isHelpless = true := by
  cases call with
  | ending cause operation =>
    rcases seated with seated | arming
    · cases seated
    · cases operation with
      | releasing holding sequel =>
        cases sequel with
        | recheck term => simp [isArming, Operation.settled] at arming
        | finish outcome =>
          obtain rfl : outcome = .ended true := by simpa [isArming, Operation.settled] using arming
          rfl
      | _ => cases exposed
  | acquiring cause acquisition =>
    rcases seated with seated | arming
    · exact Acquisition.isHelpless_of_isExposed exposed seated
    · cases arming
  | _ => cases exposed

/-- Whoever would break off in the seat is in one of the three places. -/
theorem Party.isHelpless_of_isExposed {party : Party α} (exposed : party.isExposed = true)
    (seated : party.isSeated = true) : party.isHelpless = true := by
  cases party with
  | calling caller =>
    obtain ⟨style, call, term, work, validation, checks⟩ := caller
    unfold isExposed Caller.isExposed at exposed
    dsimp only at exposed
    split at exposed
    case h_1 =>
      -- a call that runs its operation has no seat
      rcases isSeated_iff.mp seated with seated | arming
      · cases seated
      · cases arming
    case h_2 => exact Call.isHelpless_of_isExposed exposed (isSeated_iff.mp seated)
  | acquiring acquisition =>
    rcases isSeated_iff.mp seated with outstanding | arming
    · unfold isExposed at exposed
      split at exposed
      case h_3 heq =>
        cases heq
        exact Acquisition.isHelpless_of_isExposed exposed outstanding
      all_goals simp_all
    · cases arming
  | closing next =>
    rcases isSeated_iff.mp seated with seated | arming
    · cases seated
    · cases arming

/-! ## What becomes of a party that has broken off -/

/-- A party takes no step, and a call at most loses sight of its operation and its checks. -/
inductive Party.Stands : Party α → Party α → Prop
  | still {party : Party α} : Stands party party
  | calling {caller next : Caller α} (same : next.call = caller.call) :
      Stands (calling caller) (calling next)

namespace Party.Stands

variable {party next : Party α}

theorem isHelpless (h : party.Stands next) : next.isHelpless = party.isHelpless := by
  cases h with
  | still => rfl
  | calling same => simp only [Party.isHelpless, same]

theorem isSeated (h : party.Stands next) : next.isSeated = party.isSeated := by
  cases h with
  | still => rfl
  | calling same =>
    simp only [Party.isSeated, Party.isOutstanding, Party.acquisition?, Party.isArming, same]

end Party.Stands

/-- What tells a call nothing leaves it where it is. -/
theorem Caller.call_undergo (profile : Profile) (caller : Caller α) {event : Event α}
    (h : event.tells = false) : (caller.undergo profile event).1.call = caller.call := by
  cases event with
  | operationOver | checkHandedOver | delayOver | checksCalledOff => rfl
  | operationBegun =>
    simp only [undergo]
    split <;> rfl
  | checkBegun =>
    obtain ⟨checks, begun⟩ := caller.beginCheck_eq
    simp only [undergo, begun]
  | checkOver delivery =>
    obtain ⟨validation, checks, notices, finished, -⟩ := caller.finishCheck_eq profile delivery
    simp only [undergo, finished]
  | toldOperation | toldChecks | dropped => cases h

namespace Brittle

variable {profile : Profile} {brittle : Brittle α} {i : Nat} {party : Party α}

/-- Whoever has broken off stands for good. -/
theorem step_stands (mem : i ∈ brittle.broken) (here : brittle.parties[i]? = some party)
    (move : Move α) :
    ∃ next, (brittle.step profile move).parties[i]? = some next ∧ party.Stands next := by
  cases move with
  | goOn move =>
    simp only [step]
    split
    case isFalse => exact ⟨party, here, .still⟩
    case isTrue permitted =>
      obtain ⟨next, there, fate⟩ := Proxy.step_fate profile move here
      refine ⟨next, there, ?_⟩
      cases fate with
      | unmoved => exact .still
      | calling fate =>
        cases fate with
        | unmoved => exact .still
        | proceeds answers => simp [permits, mem] at permitted
        | undergoes event =>
          exact .calling (Caller.call_undergo profile _ (by simpa [permits, mem] using permitted))
      | acquiring | closing | dropped => simp [permits, mem] at permitted
  | breakOff j =>
    simp only [step]
    split <;> exact ⟨party, here, .still⟩

/-- Who has broken off is not forgotten. -/
theorem step_broken (mem : i ∈ brittle.broken) (move : Move α) :
    i ∈ (brittle.step profile move).broken := by
  cases move with
  | goOn move =>
    simp only [step]
    split <;> exact mem
  | breakOff j =>
    simp only [step]
    split
    · exact List.mem_append_left _ mem
    · exact mem

/-- What is known of a proxy and of those who have broken off. -/
structure Kept (brittle : Brittle α) : Prop where
  sound : brittle.company.Sound
  /-- Who has broken off in the seat has done so in one of the three places. -/
  helpless : ∀ i ∈ brittle.broken, ∃ party, brittle.parties[i]? = some party ∧
    (party.isSeated = true → party.isHelpless = true)

theorem kept_start : Kept ({ toProxy := .start } : Brittle α) where
  sound := Company.sound_start
  helpless := nofun

theorem Kept.step (kept : Kept brittle) (move : Move α) : Kept (brittle.step profile move) := by
  have sound : (brittle.step profile move).company.Sound := by
    cases move with
    | goOn move =>
      simp only [Brittle.step]
      split
      · exact kept.sound.strides (Proxy.step_strides profile _ move)
      · exact kept.sound
    | breakOff j =>
      simp only [Brittle.step]
      split <;> exact kept.sound
  refine ⟨sound, fun i mem => ?_⟩
  by_cases before : i ∈ brittle.broken
  · obtain ⟨party, here, helpless⟩ := kept.helpless i before
    obtain ⟨next, there, stands⟩ := step_stands before here move
    exact ⟨next, there, by rwa [stands.isSeated, stands.isHelpless]⟩
  · -- it breaks off now
    cases move with
    | goOn move =>
      simp only [Brittle.step] at mem
      split at mem <;> exact absurd mem before
    | breakOff j =>
      simp only [Brittle.step] at mem ⊢
      split at mem
      case isFalse => exact absurd mem before
      case isTrue exposed =>
        rw [if_pos exposed]
        obtain rfl := List.mem_singleton.mp ((List.mem_append.mp mem).resolve_left before)
        obtain ⟨party, here, exposed⟩ := (Option.any_eq_true _ _).mp exposed
        exact ⟨party, here, Party.isHelpless_of_isExposed exposed⟩

theorem kept_after (profile : Profile) (schedule : Nat → Move α) (n : Nat) :
    Kept (after profile schedule n) := by
  induction n with
  | zero => exact kept_start
  | succ n ih => exact ih.step (schedule n)

/-! ## Pursuing and forsaking -/

/-- A term is served, or a party that has not broken off has an acquisition outstanding or is about
to start one. -/
def Pursued (brittle : Brittle α) : Prop :=
  brittle.register.current.isSome = true ∨
    ∃ i party, brittle.parties[i]? = some party ∧ i ∉ brittle.broken ∧
      (party.isOutstanding = true ∨ party.isArming = true)

/-- A party has broken off that had the seat. -/
def Forsaken (brittle : Brittle α) : Prop :=
  ∃ i ∈ brittle.broken, ∃ party, brittle.parties[i]? = some party ∧ party.isHelpless = true

/-- A party in the seat sits there. -/
theorem exists_sits (here : brittle.parties[i]? = some party) (seated : party.isSeated = true) :
    ∃ seat, brittle.Sits seat ∧ (seat = .acquisition i ∨ seat = .call i) := by
  rcases Party.isSeated_iff.mp seated with outstanding | arming
  · exact ⟨.acquisition i, ⟨party, here, outstanding⟩, .inl rfl⟩
  · exact ⟨.call i, ⟨party, here, arming⟩, .inr rfl⟩

namespace Kept

/-- Nobody else has the seat of one who has broken off. -/
theorem not_pursued (kept : Kept brittle) (forsaken : brittle.Forsaken) : ¬ brittle.Pursued := by
  obtain ⟨i, mem, party, here, helpless⟩ := forsaken
  obtain ⟨seat, sits, at_place⟩ := exists_sits here (Party.isSeated_of_isHelpless helpless)
  have only {other : Proxy.Seat} (taken : brittle.Sits other) : other = seat :=
    taken.unique kept.sound.single.1 sits
  rintro (served | ⟨j, other, there, whole, seated⟩)
  · have same : Proxy.Seat.term = seat := only served
    rcases at_place with rfl | rfl <;> cases same
  · obtain ⟨taken, sits', at_place'⟩ := exists_sits there (Party.isSeated_iff.mpr seated)
    obtain rfl := only sits'
    have same : i = j := by
      rcases at_place with rfl | rfl <;> rcases at_place' with h | h <;> cases h <;> rfl
    exact whole (same ▸ mem)

/-- While the proxy is open, somebody has the seat. -/
theorem pursued_or_forsaken (kept : Kept brittle) (isOpen : brittle.register.closed = false) :
    brittle.Pursued ∨ brittle.Forsaken := by
  have one := kept.sound.single.2 isOpen
  rw [Proxy.stakes_eq] at one
  cases served : brittle.register.current.isSome with
  | true => exact .inl (.inl served)
  | false =>
    rw [served, Bool.toNat_false, Nat.zero_add] at one
    obtain ⟨i, party, here, stake⟩ :=
      Tally.exists_getElem?_of_countP_pos (p := (·.phase.stake)) (l := brittle.parties) (by omega)
    have seated := party.stake_iff.mp stake
    by_cases mem : i ∈ brittle.broken
    · obtain ⟨other, there, helpless⟩ := kept.helpless i mem
      obtain rfl : party = other := Option.some.inj (here.symm.trans there)
      exact .inr ⟨i, mem, party, here, helpless (Party.isSeated_iff.mpr seated)⟩
    · exact .inl (.inr ⟨i, party, here, mem, seated⟩)

end Kept

/-- What is given up is given up for good. -/
theorem Forsaken.step (forsaken : brittle.Forsaken) (move : Move α) :
    (brittle.step profile move).Forsaken := by
  obtain ⟨i, mem, party, here, helpless⟩ := forsaken
  obtain ⟨next, there, stands⟩ := step_stands mem here move
  exact ⟨i, step_broken mem move, next, there, stands.isHelpless.trans helpless⟩

theorem forsaken_stays {schedule : Nat → Move α} {m n : Nat}
    (forsaken : (after profile schedule m).Forsaken) (h : m ≤ n) :
    (after profile schedule n).Forsaken := by
  induction n, h using Nat.le_induction with
  | base => exact forsaken
  | succ n _ ih => exact ih.step (schedule n)

/-- Nothing but the seat is lost with a party that breaks off. -/
theorem forsaken_breakOff (here : brittle.parties[i]? = some party) :
    (brittle.step profile (.breakOff i)).Forsaken ↔
      brittle.Forsaken ∨ party.isExposed = true ∧ party.isHelpless = true := by
  have any : (brittle.parties[i]?).any Party.isExposed = party.isExposed := by simp [here]
  simp only [step, any]
  split
  case isTrue exposed =>
    constructor
    · rintro ⟨j, mem, other, there, helpless⟩
      rcases List.mem_append.mp mem with mem | mem
      · exact .inl ⟨j, mem, other, there, helpless⟩
      · obtain rfl := List.mem_singleton.mp mem
        obtain rfl : party = other := Option.some.inj (here.symm.trans there)
        exact .inr ⟨exposed, helpless⟩
    · rintro (⟨j, mem, other, there, helpless⟩ | ⟨-, helpless⟩)
      · exact ⟨j, List.mem_append_left _ mem, other, there, helpless⟩
      · exact ⟨i, List.mem_append_right _ (List.mem_singleton_self i), party, here, helpless⟩
  case isFalse safe => simp [safe]

/-- Leadership in surroundings that break off. In every order and at any moment the wait for
leadership, a construction, a release or the operation of a blocking call may break off instead
of coming back. While the proxy is open, a term is served or somebody is on the way to one,
unless a party has broken off while it waited for the election or for a construction, or while it
released the delegate whose term it had ended. What breaks off elsewhere, in an operation or in
any other release, makes no difference. Once leadership is given up it is for good: no term is
served any more and nobody is on the way to one. -/
theorem pursued_unless_forsaken (profile : Profile) (schedule : Nat → Move α) (n : Nat) :
    let brittle := after profile schedule n
    (brittle.register.closed = false → (brittle.Pursued ↔ ¬ brittle.Forsaken)) ∧
    (∀ (i : Nat) (party : Party α), brittle.parties[i]? = some party →
      ((brittle.step profile (.breakOff i)).Forsaken ↔
        brittle.Forsaken ∨ party.isExposed = true ∧ party.isHelpless = true)) ∧
    (brittle.Forsaken → ∀ m, n ≤ m →
      (after profile schedule m).Forsaken ∧ ¬ (after profile schedule m).Pursued) := by
  intro brittle
  have kept : Kept brittle := kept_after profile schedule n
  refine ⟨fun isOpen => ⟨fun pursued forsaken => kept.not_pursued forsaken pursued, fun held => ?_⟩,
    fun i party here => forsaken_breakOff here, fun forsaken m h => ?_⟩
  · exact (kept.pursued_or_forsaken isOpen).resolve_right held
  · have later := forsaken_stays forsaken h
    exact ⟨later, (kept_after profile schedule m).not_pursued later⟩

/-- The party at a place takes some steps and gets the same answers at each. -/
def steps (times i : Nat) (answers : Answers := {}) : List (Move Nat) :=
  List.replicate times (.goOn (.proceed i answers))

/-- The wait for leadership breaks off. -/
def brokenWait : List (Move Nat) := steps 3 0 ++ steps 3 1 ++ [.breakOff 1]

/-- The construction of the first delegate breaks off. -/
def brokenConstruction : List (Move Nat) :=
  steps 3 0 ++ steps 6 1 { waited := .ok ⟨1, 3⟩ } ++ [.breakOff 1]

/-- The release of a delegate breaks off that does not lead any more. -/
def brokenRelease : List (Move Nat) :=
  let hears (event : Caller.Event Nat) : Move Nat := .goOn (.undergo 1 event)
  steps 9 0 { held := some ⟨1, 3⟩ } ++ .goOn (.call .blocking true) :: steps 3 1 ++
    hears .operationBegun ::
    hears (.operationOver (.failure (.classified .notLeading "deposed"))) ::
    hears .toldOperation :: steps 2 1 ++ [.breakOff 1]

/-- What a list of moves has led to at a proxy with one check. -/
def outcome (run : List (Move Nat)) : Brittle Nat :=
  after ⟨"client", "shard", 1⟩ (script run) run.length

/-- Leadership is given up where the second party has broken off in the seat. -/
theorem not_pursued_outcome {run : List (Move Nat)} (broken : (outcome run).broken = [1])
    (helpless : ((outcome run).parties[1]?).any Party.isHelpless = true) :
    ¬ (outcome run).Pursued := by
  obtain ⟨party, here, helpless⟩ := (Option.any_eq_true _ _).mp helpless
  have mem : 1 ∈ (outcome run).broken := broken ▸ List.mem_singleton_self 1
  have kept : Kept (outcome run) := kept_after _ _ _
  exact kept.not_pursued ⟨1, mem, party, here, helpless⟩

/-- Each of the three leaves an open proxy that serves no term and pursues none. -/
theorem forsaken_while_open :
    ((outcome brokenWait).register.closed = false ∧ ¬ (outcome brokenWait).Pursued) ∧
    ((outcome brokenConstruction).register.closed = false ∧
      ¬ (outcome brokenConstruction).Pursued) ∧
    ((outcome brokenRelease).register.closed = false ∧ ¬ (outcome brokenRelease).Pursued) := by
  refine ⟨⟨rfl, ?_⟩, ⟨rfl, ?_⟩, ⟨rfl, ?_⟩⟩
  · exact not_pursued_outcome rfl rfl
  · exact not_pursued_outcome rfl rfl
  · exact not_pursued_outcome (by decide) (by decide)

end Brittle

end Tenure
