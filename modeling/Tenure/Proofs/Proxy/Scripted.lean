import Mathlib.Tactic.IntervalCases
import Tenure.Proofs.Proxy.Script

/-!
# An acquisition follows its script

An acquisition that begins on a proxy which stays open, and whose party takes its steps again and
again, is settled by what it is answered. Whatever everyone else does in between, nothing is seen
of it but a begin of its reference, and in the end all of it: it waits as often as it has to, builds
as often as it has to, sleeps between that, and brings one term into service.

## Main definitions

* `Proxy.Scripted` — an acquisition on an open proxy that is answered by its script
* `Proxy.Trail.Stands` — where such an acquisition stands

## Main results

* `Proxy.Scripted.exists_stands` — it is on its script at every moment
* `Proxy.Scripted.exists_over` — it comes to its end
* `Proxy.acquisition_follows_script` — what can be seen of it
-/

namespace Tenure

open Acquisition (Act waitNotice)

namespace Proxy

variable {α : Type} {config : Config} {shard : String} {schedule : Nat → Move α} {script : Script}
  {span : Nat → Duration} {i m n k : Nat} {acquisition : Acquisition}

/-- An acquisition that begins with the party at a place, at some moment, on a proxy that stays
open. -/
structure Scripted (config : Config) (shard : String) (schedule : Nat → Move α) (script : Script)
    (i m : Nat) : Prop where
  begins : (after (config.profile shard) schedule m).acquisition? i = some .enter
  isOpen : ∀ n, (after (config.profile shard) schedule (m + n)).register.closed = false
  /-- Whatever it asks, wherever it is, it is answered by its script. -/
  answered : ∀ n place answers acquisition,
    (trail config shard schedule i m n).place = some place →
    schedule (m + n) = .proceed place answers →
    (after (config.profile shard) schedule (m + n)).acquisition? place = some acquisition →
      script.Answered (trail config shard schedule i m n).acts answers acquisition
  /-- Wherever it is, the party that it is with takes another step. -/
  running : ∀ n place, (trail config shard schedule i m n).place = some place →
    ∃ k answers, n ≤ k ∧ schedule (m + k) = .proceed place answers

/-- Where an acquisition stands on its script, with its trail on a proxy. -/
structure Trail.Stands (script : Script) (config : Config) (span : Nat → Duration) (trail : Trail)
    (proxy : Proxy α) (acquisition : Acquisition) : Prop where
  here : ∀ place, trail.place = some place → proxy.acquisition? place = some acquisition
  isOver : trail.place = none ↔ acquisition = .finished
  point : script.Point config span trail.acts acquisition

/-- On an open proxy the acquisition thread runs. -/
theorem running_of_isOpen {profile : Profile}
    (isOpen : (after profile schedule n).register.closed = false) :
    (after profile schedule n).stopped = false := by
  cases hstopped : (after profile schedule n).stopped with
  | false => rfl
  | true =>
    have hclosed := (sound_after profile schedule n).orderly.1 hstopped
    exact absurd (hclosed.symm.trans isOpen) (by decide)

/-- An acquisition that has yet to bring its term into service finds none there. -/
theorem vacant_of_isOutstanding {profile : Profile}
    (here : (after profile schedule n).acquisition? i = some acquisition)
    (outstanding : acquisition.isOutstanding = true) :
    (after profile schedule n).register.current = none := by
  obtain ⟨party, hparty, hcarries⟩ := acquisition?_eq_some.mp here
  refine (leadership_is_single profile schedule n).2.2.1 i party hparty ?_
  rw [Party.isOutstanding, hcarries]
  exact outstanding

theorem Trail.onward_eq_some {place joins : Nat} {next : Acquisition} {task : Option Acquisition}
    {there : Nat} (h : Trail.onward place joins next task = some there) :
    (task = none ∧ there = place) ∨ ∃ work, task = some work ∧ there = joins := by
  cases task with
  | some work => exact .inr ⟨work, rfl, (Option.some.inj h).symm⟩
  | none =>
    cases next with
    | finished => simp [Trail.onward] at h
    | _ => exact .inl ⟨rfl, (Option.some.inj h).symm⟩

theorem Trail.onward_eq_none {place joins : Nat} {next : Acquisition} {task : Option Acquisition} :
    Trail.onward place joins next task = none ↔ task = none ∧ next = .finished := by
  cases task <;> cases next <;> simp [Trail.onward]

namespace Scripted

/-- A step of the party that the acquisition is with brings it nearer to its end. -/
theorem stands_proceed (h : Scripted config shard schedule script i m)
    (spans : script.Spans config span)
    (hstands : (trail config shard schedule i m n).Stands script config span
      (after (config.profile shard) schedule (m + n)) acquisition)
    {place : Nat} {answers : Answers}
    (hplace : (trail config shard schedule i m n).place = some place)
    (hmove : schedule (m + n) = .proceed place answers) :
    ∃ onward, (trail config shard schedule i m (n + 1)).Stands script config span
        (after (config.profile shard) schedule (m + (n + 1))) onward ∧
      script.rank config span (trail config shard schedule i m (n + 1)).acts onward <
        script.rank config span (trail config shard schedule i m n).acts acquisition := by
  have hhere := hstands.here place hplace
  have hne : acquisition ≠ .finished := by
    intro hfinished
    simp [hstands.isOver.mpr hfinished] at hplace
  obtain ⟨next, left, task, became⟩ : ∃ next left task, acquisition.proceed config.client
      (after (config.profile shard) schedule (m + n)).toGrounds answers = (next, left, task) :=
    ⟨_, _, _, rfl⟩
  have hgoes := hstands.point.goesOn hne became (h.isOpen n) (running_of_isOpen (h.isOpen n))
    (vacant_of_isOutstanding hhere)
    (h.answered n place answers acquisition hplace hmove hhere) spans
  obtain ⟨-, hnext, hwork⟩ := step_of_acquisition (config.profile shard) hhere hne became
  have htrail : trail config shard schedule i m (n + 1) =
      { place := Trail.onward place (after (config.profile shard) schedule (m + n)).parties.length
          next task
        acts := (trail config shard schedule i m n).acts ++ acquisition.acts config
          (after (config.profile shard) schedule (m + n)).toGrounds left } := by
    rw [trail, hmove, Trail.step_self hplace hhere became]
  rw [htrail, ← Nat.add_assoc, after, hmove]
  refine ⟨task.getD next, ⟨?_, ?_, hgoes.1⟩, hgoes.rank_lt⟩
  · -- the acquisition goes on where it was, or as the work that was handed over
    intro there hthere
    rcases Trail.onward_eq_some hthere with ⟨rfl, rfl⟩ | ⟨work, rfl, rfl⟩
    · exact hnext
    · exact hwork work rfl
  · rw [Trail.onward_eq_none]
    cases task with
    | none => simp
    | some work =>
      obtain ⟨known, failures, rfl⟩ := Acquisition.queued_of_proceed (congrArg (·.2.2) became)
      simp

/-- A move of anyone else leaves the acquisition where it is. -/
theorem stands_of_ne (h : Scripted config shard schedule script i m)
    (hstands : (trail config shard schedule i m n).Stands script config span
      (after (config.profile shard) schedule (m + n)) acquisition)
    (hmove : ∀ place answers, schedule (m + n) = .proceed place answers →
      (trail config shard schedule i m n).place ≠ some place) :
    trail config shard schedule i m (n + 1) = trail config shard schedule i m n ∧
      (trail config shard schedule i m (n + 1)).Stands script config span
        (after (config.profile shard) schedule (m + (n + 1))) acquisition := by
  have hsame : trail config shard schedule i m (n + 1) = trail config shard schedule i m n := by
    rw [trail, Trail.step_eq_self hmove]
  refine ⟨hsame, ?_⟩
  rw [hsame]
  refine ⟨fun place hplace => ?_, hstands.isOver, hstands.point⟩
  exact acquisition?_step_of_ne (hstands.here place hplace) (running_of_isOpen (h.isOpen n))
    fun answers hproceed => hmove place answers hproceed hplace

/-- The acquisition is on its script at every moment. -/
theorem exists_stands (h : Scripted config shard schedule script i m)
    (spans : script.Spans config span) (n : Nat) :
    ∃ acquisition, (trail config shard schedule i m n).Stands script config span
      (after (config.profile shard) schedule (m + n)) acquisition := by
  induction n with
  | zero =>
    refine ⟨.enter, ⟨?_, by simp [trail], .enters⟩⟩
    intro place hplace
    obtain rfl := Option.some.inj hplace
    exact h.begins
  | succ n ih =>
    obtain ⟨acquisition, hstands⟩ := ih
    by_cases hmove : ∃ place answers, schedule (m + n) = .proceed place answers ∧
        (trail config shard schedule i m n).place = some place
    · obtain ⟨place, answers, hmove, hplace⟩ := hmove
      obtain ⟨onward, hnext, -⟩ := h.stands_proceed spans hstands hplace hmove
      exact ⟨onward, hnext⟩
    · refine ⟨acquisition, (h.stands_of_ne hstands ?_).2⟩
      intro place answers hproceed hplace
      exact hmove ⟨place, answers, hproceed, hplace⟩

/-- From some moment to another the acquisition has come nearer to its end, or has stayed where it
was. -/
theorem nears_or_stays (h : Scripted config shard schedule script i m)
    (spans : script.Spans config span)
    (hstands : (trail config shard schedule i m n).Stands script config span
      (after (config.profile shard) schedule (m + n)) acquisition) (hnk : n ≤ k) :
    (∃ l later, (trail config shard schedule i m l).Stands script config span
        (after (config.profile shard) schedule (m + l)) later ∧
      script.rank config span (trail config shard schedule i m l).acts later <
        script.rank config span (trail config shard schedule i m n).acts acquisition) ∨
    (trail config shard schedule i m k = trail config shard schedule i m n ∧
      (trail config shard schedule i m k).Stands script config span
        (after (config.profile shard) schedule (m + k)) acquisition) := by
  -- the first step of its own party brings it nearer, and until then it stays
  induction k, hnk using Nat.le_induction with
  | base => exact .inr ⟨rfl, hstands⟩
  | succ k hnk ih =>
    rcases ih with hnears | ⟨hsame, hstays⟩
    · exact .inl hnears
    · by_cases hmove : ∃ place answers, schedule (m + k) = .proceed place answers ∧
          (trail config shard schedule i m k).place = some place
      · obtain ⟨place, answers, hmove, hplace⟩ := hmove
        obtain ⟨onward, hnext, hless⟩ := h.stands_proceed spans hstays hplace hmove
        exact .inl ⟨k + 1, onward, hnext, hsame ▸ hless⟩
      · obtain ⟨hsame', hstays'⟩ := h.stands_of_ne hstays fun place answers hproceed hplace =>
          hmove ⟨place, answers, hproceed, hplace⟩
        exact .inr ⟨hsame'.trans hsame, hstays'⟩

/-- The acquisition comes to its end. -/
theorem exists_over (h : Scripted config shard schedule script i m)
    (spans : script.Spans config span) :
    ∃ n, (trail config shard schedule i m n).place = none := by
  suffices hcomes : ∀ rank n acquisition, (trail config shard schedule i m n).Stands script config
      span (after (config.profile shard) schedule (m + n)) acquisition →
      script.rank config span (trail config shard schedule i m n).acts acquisition = rank →
      ∃ n, (trail config shard schedule i m n).place = none by
    obtain ⟨acquisition, hstands⟩ := h.exists_stands spans 0
    exact hcomes _ 0 acquisition hstands rfl
  -- the induction is on what has not been seen yet, with the steps of which nothing is seen
  intro rank
  induction rank using Nat.strongRecOn with
  | ind rank ih =>
    rintro n acquisition hstands rfl
    cases hplace : (trail config shard schedule i m n).place with
    | none => exact ⟨n, hplace⟩
    | some place =>
      -- its party takes a step at some time, and the acquisition may have gone on before
      obtain ⟨k, answers, hnk, hmove⟩ := h.running n place hplace
      rcases h.nears_or_stays spans hstands hnk with ⟨l, later, hlater, hless⟩ | ⟨hsame, hstays⟩
      · exact ih _ hless l later hlater rfl
      · obtain ⟨onward, hnext, hless⟩ := h.stands_proceed spans hstays (hsame ▸ hplace) hmove
        exact ih _ (hsame ▸ hless) (k + 1) onward hnext rfl

/-- Once the acquisition is over, all of its reference has been seen. -/
theorem acts_of_over (h : Scripted config shard schedule script i m)
    (spans : script.Spans config span)
    (hover : (trail config shard schedule i m n).place = none) :
    ∃ term, term.token = script.token ∧
      (trail config shard schedule i m n).acts = script.reference config span term := by
  obtain ⟨acquisition, hstands⟩ := h.exists_stands spans n
  have hpoint := hstands.point
  rw [hstands.isOver.mp hover] at hpoint
  generalize (trail config shard schedule i m n).acts = seen at hpoint
  cases hpoint with
  | @finished term token => exact ⟨term, token, rfl⟩

end Scripted

/-- An acquisition that begins on a proxy which stays open, that is answered by its script, and
whose party takes its steps, in whatever order they come among those of everyone else, follows its
reference, and comes to its end with all of it. There is one term that it brings into service, with
the token of the script. Unless the election holds the token from the begin, the acquisition makes a
wait for each one that fails, and one that gives the token; otherwise it makes none, and its first
construction goes on where it began. It makes a construction for each one that fails, and one more;
the failures are numbered in turn, and after each of them it sleeps as long as the configuration
says for that number. A wait that is interrupted is reported as a warning, and one that fails in
another way as an error. -/
theorem acquisition_follows_script (config : Config) (shard : String) (schedule : Nat → Move α)
    (script : Script) (span : Nat → Duration) (i m : Nat)
    (h : Scripted config shard schedule script i m) (spans : script.Spans config span)
    (few : script.constructions.length < UInt32.size) :
    (∃ term, term.token = script.token ∧
      (∀ n, (trail config shard schedule i m n).acts <+: script.reference config span term) ∧
      (∃ n, ∀ k, n ≤ k → (trail config shard schedule i m k).place = none ∧
        (trail config shard schedule i m k).acts = script.reference config span term) ∧
      ∃ n, m ≤ n ∧
        (after (config.profile shard) schedule n).register.current ≠ some term ∧
        (after (config.profile shard) schedule (n + 1)).register.current = some term) ∧
    (∀ failure ∈ script.waits, (waitNotice config.client failure).record.level =
      if failure = .interrupted then .warn else .error) ∧
    ∀ term,
      (script.reference config span term).count .waits =
        (if script.holds then 0 else script.waits.length + 1) ∧
      (script.reference config span term).filterMap Script.siteOf? =
        (List.range (script.constructions.length + 1)).map script.site ∧
      (script.reference config span term).filterMap Script.attemptOf? =
        List.range' 1 script.constructions.length ∧
      (script.reference config span term).filterMap Script.spanOf? =
        (if script.holds then [] else
          List.replicate script.waits.length config.gainLeadershipBackoff) ++
        (List.range' 1 script.constructions.length).map span ∧
      (script.reference config span term).filterMap Script.termOf? = [term] := by
  refine ⟨?_, fun failure _ => Script.level_waitNotice config.client failure, fun term => ?_⟩
  · obtain ⟨last, hover⟩ := h.exists_over spans
    obtain ⟨term, token, hacts⟩ := h.acts_of_over spans hover
    refine ⟨term, token, ?_, ?_, ?_⟩
    · intro n
      rcases Nat.le_total n last with hle | hle
      · exact hacts ▸ acts_isPrefix config shard schedule i m hle
      · exact trail_of_over hover hle ▸ hacts ▸ List.prefix_rfl
    · refine ⟨last, fun k hk => ?_⟩
      rw [trail_of_over hover hk]
      exact ⟨hover, hacts⟩
    · -- the term is among what has been seen
      have hmem : Act.serves term ∈ (trail config shard schedule i m last).acts := by
        rw [hacts, Script.reference_eq]
        simp
      obtain ⟨k, -, hbefore, hserved⟩ := exists_served hmem
      exact ⟨m + k, Nat.le_add_right m k, hbefore, hserved⟩
  · exact ⟨script.reference_waits config span term, script.reference_sites config span term,
      script.reference_attempts config span term few, script.reference_spans config span term,
      script.reference_terms config span term⟩

/-- A wait is interrupted, the next one gives the token; a construction fails, the next one
succeeds. -/
def setback : Script where
  holds := false
  token := ⟨1, 3⟩
  waits := [.interrupted]
  constructions := ["not ready"]

/-- The acquisition that a proxy begins with goes to the acquisition thread, and has its setbacks
there. -/
def delayed : List (Move Nat) :=
  List.replicate 3 (.proceed 0 {}) ++ List.replicate 9 (.proceed 1 {}) ++
    [.proceed 1 { waited := .ok ⟨1, 3⟩ }, .proceed 1 {}, .proceed 1 {},
      .proceed 1 { construction := some "not ready" }] ++ List.replicate 9 (.proceed 1 {})

/-- Every move is a step of the acquisition, with the answers of the script. -/
theorem delayed_answered (h : n < delayed.length) :
    ∃ place answers acquisition, Proxy.script delayed n = .proceed place answers ∧
      (trail {} "shard" (Proxy.script delayed) 0 0 n).place = some place ∧
      (after (Config.profile {} "shard") (Proxy.script delayed) n).acquisition? place =
        some acquisition ∧
      (after (Config.profile {} "shard") (Proxy.script delayed) n).register.closed = false ∧
      setback.Answered (trail {} "shard" (Proxy.script delayed) 0 0 n).acts answers
        acquisition := by
  have hlength : delayed.length = 25 := rfl
  rw [hlength] at h
  interval_cases n <;> exact ⟨_, _, _, rfl, rfl, rfl, rfl, by first | rfl | trivial⟩

/-- Once the moves are made, the acquisition is over and nothing happens any more. -/
theorem delayed_over (h : delayed.length ≤ n) :
    (trail {} "shard" (Proxy.script delayed) 0 0 n).place = none ∧
      after (Config.profile {} "shard") (Proxy.script delayed) n =
        after (Config.profile {} "shard") (Proxy.script delayed) delayed.length := by
  constructor
  · rw [trail_of_over rfl h]
    rfl
  · induction n, h using Nat.le_induction with
    | base => rfl
    | succ n hn ih =>
      have hmove : Proxy.script delayed n = .undergo 0 .delayOver := by
        rw [Proxy.script, List.getD_eq_getElem?_getD, List.getElem?_eq_none hn]
        rfl
      rw [after, ih, hmove]
      rfl

theorem delayed_scripted : Scripted {} "shard" (Proxy.script delayed) setback 0 0 where
  begins := rfl
  isOpen n := by
    rw [Nat.zero_add]
    rcases Nat.lt_or_ge n delayed.length with hlt | hge
    · obtain ⟨-, -, -, -, -, -, isOpen, -⟩ := delayed_answered hlt
      exact isOpen
    · rw [(delayed_over hge).2]
      rfl
  answered n place answers acquisition hplace hmove hhere := by
    rw [Nat.zero_add] at hmove hhere
    rcases Nat.lt_or_ge n delayed.length with hlt | hge
    · obtain ⟨place', answers', acquisition', hmove', -, hhere', -, hanswered⟩ :=
        delayed_answered hlt
      obtain ⟨rfl, rfl⟩ := Move.proceed.injEq .. ▸ hmove.symm.trans hmove'
      obtain rfl := Option.some.inj (hhere.symm.trans hhere')
      exact hanswered
    · rw [(delayed_over hge).1] at hplace
      simp at hplace
  running n place hplace := by
    rcases Nat.lt_or_ge n delayed.length with hlt | hge
    · obtain ⟨place', answers, -, hmove, hplace', -⟩ := delayed_answered hlt
      obtain rfl := Option.some.inj (hplace.symm.trans hplace')
      exact ⟨n, answers, Nat.le_refl n, (Nat.zero_add n).symm ▸ hmove⟩
    · rw [(delayed_over hge).1] at hplace
      simp at hplace

/-- The pause after the one construction that fails. -/
theorem setback_spans : setback.Spans {} fun _ => ⟨51850000, by decide⟩ := by
  intro k hpos hmost
  obtain rfl : k = 1 := Nat.le_antisymm hmost hpos
  decide +kernel

/-- The acquisition makes two waits and two constructions, sleeps once after each that failed, and
brings one term into service. -/
theorem delayed_follows_script :
    Scripted {} "shard" (Proxy.script delayed) setback 0 0 ∧
      setback.Spans {} (fun _ => ⟨51850000, by decide⟩) ∧
      ∃ term, term.token = ⟨1, 3⟩ ∧ ∃ n, (trail {} "shard" (Proxy.script delayed) 0 0 n).acts =
        [.waits, .reports (.waitInterrupted "default"), .sleeps (.ofMillis 500), .waits,
          .builds .own, .reports (.notBuilt "default" 3 1 "not ready"),
          .sleeps ⟨51850000, by decide⟩, .builds .own, .serves term,
          .reports (.gained "default" term.token.term term.generation)] := by
  obtain ⟨⟨term, token, -, ⟨n, hover⟩, -⟩, -⟩ := acquisition_follows_script {} "shard"
    (Proxy.script delayed) setback (fun _ => ⟨51850000, by decide⟩) 0 0 delayed_scripted
    setback_spans (by decide)
  exact ⟨delayed_scripted, setback_spans, term, token, n, (hover n (Nat.le_refl n)).2⟩

end Proxy

end Tenure
