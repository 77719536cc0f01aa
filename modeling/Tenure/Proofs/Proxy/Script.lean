import Tenure.Proofs.Proxy.Trail

/-!
# The script of an acquisition

A script says what an acquisition is answered: whether the election holds a token from the begin,
how the waits for leadership fail before one gives the token, and how the constructions fail before
one succeeds. It settles what can be seen of the acquisition, from its begin to its end. This file
says what that is, and that every step of the acquisition follows it.

## Main definitions

* `Script` — what an acquisition is answered; `Script.Answered` — that it is answered so
* `Script.reference` — what can be seen of an acquisition that follows its script
* `Script.Point` — where an acquisition stands on its script

## Main results

* `Script.Point.isPrefix` — at every point a begin of the reference has been seen
* `Script.Point.goesOn` — every step leads to another point, nearer to the end
* `Script.reference_waits`, `Script.reference_sites`, `Script.reference_attempts`,
  `Script.reference_terms` — what the reference comes to
-/

namespace Tenure

open Acquisition

/-- What an acquisition is answered. -/
structure Script where
  /-- Whether the election holds the token from the begin. -/
  holds : Bool
  token : Token
  /-- How the waits fail before one gives the token. -/
  waits : List ElectionFailure
  /-- How the constructions fail before one succeeds. -/
  constructions : List String

namespace Script

variable {script : Script} {config : Config} {span : Nat → Duration} {i k : Nat}

/-- The token that the election holds at the begin, if it holds one. -/
def held (script : Script) : Option Token := if script.holds then some script.token else none

/-- How a wait ends that so many others came before. -/
def waited (script : Script) (before : Nat) : Except ElectionFailure Token :=
  match script.waits[before]? with
  | some failure => .error failure
  | none => .ok script.token

/-- Where a construction goes on that so many others came before. Only the first one may go on where
the acquisition begins. -/
def site (script : Script) (before : Nat) : Site :=
  if script.holds = true ∧ before = 0 then .caller else .own

/-- The place that a construction was begun at, of what can be seen. -/
def siteOf? : Act → Option Site
  | .builds site => some site
  | _ => none

/-- The number of the attempt that is reported to have failed, of what can be seen. -/
def attemptOf? : Act → Option Nat
  | .reports (.notBuilt _ _ attempt _) => some attempt.toNat
  | _ => none

/-- How long the acquisition has slept, of what can be seen. -/
def spanOf? : Act → Option Duration
  | .sleeps span => some span
  | _ => none

/-- The term that comes into service, of what can be seen. -/
def termOf? : Act → Option Term
  | .serves term => some term
  | _ => none

/-- That an acquisition, of which something could be seen, is answered by its script. -/
def Answered (script : Script) (acts : List Act) (answers : Answers) : Acquisition → Prop
  | .ask => answers.held = script.held
  | .waiting _ => answers.waited = script.waited (acts.count .waits - 1)
  | .building .. =>
    answers.construction = script.constructions[(acts.filterMap siteOf?).length - 1]?
  | _ => True

/-- That the pause after each construction that fails is so long, and none is too long to be a
span. -/
def Spans (script : Script) (config : Config) (span : Nat → Duration) : Prop :=
  ∀ k, 0 < k → k ≤ script.constructions.length →
    jittered config.constructionBackoff (UInt32.ofNat k) = some (span k)

/-! ### What can be seen -/

/-- A wait that fails: the failure is reported, and a pause follows. -/
def waitRound (config : Config) (failure : ElectionFailure) : List Act :=
  [.waits, .reports (waitNotice config.client failure), .sleeps config.gainLeadershipBackoff]

/-- A construction that fails and that so many others came before: the failure is reported with the
number of the attempt, and a pause follows that depends on it. -/
def buildRound (script : Script) (config : Config) (span : Nat → Duration) :
    String × Nat → List Act
  | (failure, before) =>
    [.builds (script.site before),
      .reports (.notBuilt config.client script.token.term (UInt32.ofNat (before + 1)) failure),
      .sleeps (span (before + 1))]

/-- All that can be seen of an acquisition: the waits, unless the election holds the token from the
begin, the constructions that fail, and the one that succeeds, with the term that it leads to. -/
def reference (script : Script) (config : Config) (span : Nat → Duration) (term : Term) :
    List Act :=
  (if script.holds then [] else script.waits.flatMap (waitRound config) ++ [.waits]) ++
    script.constructions.zipIdx.flatMap (script.buildRound config span) ++
    [.builds (script.site script.constructions.length), .serves term,
      .reports (.gained config.client term.token.term term.generation)]

/-- What has been seen after so many waits that failed. -/
def waitedFor (script : Script) (config : Config) (i : Nat) : List Act :=
  (script.waits.take i).flatMap (waitRound config)

/-- What has been seen when the token is known. -/
def opening (script : Script) (config : Config) : List Act :=
  if script.holds then [] else script.waits.flatMap (waitRound config) ++ [.waits]

/-- What has been seen after so many constructions that failed, and the pauses after them. -/
def tried (script : Script) (config : Config) (span : Nat → Duration) (k : Nat) : List Act :=
  script.opening config ++
    (script.constructions.zipIdx.take k).flatMap (script.buildRound config span)

/-- What has been seen when the next construction goes on. -/
def trying (script : Script) (config : Config) (span : Nat → Duration) (k : Nat) : List Act :=
  script.tried config span k ++ [.builds (script.site k)]

/-- What has been seen when the next construction has failed too. -/
def failed (script : Script) (config : Config) (span : Nat → Duration) (k : Nat)
    (failure : String) : List Act :=
  script.trying config span k ++
    [.reports (.notBuilt config.client script.token.term (UInt32.ofNat (k + 1)) failure)]

theorem waitedFor_succ {failure : ElectionFailure} (fails : script.waits[i]? = some failure) :
    script.waitedFor config (i + 1) = script.waitedFor config i ++ waitRound config failure := by
  simp [waitedFor, List.take_add_one, fails]

theorem tried_zero (script : Script) (config : Config) (span : Nat → Duration) :
    script.tried config span 0 = script.opening config := by
  simp [tried]

theorem tried_succ {failure : String} (fails : script.constructions[k]? = some failure) :
    script.tried config span (k + 1) =
      script.failed config span k failure ++ [.sleeps (span (k + 1))] := by
  have hzip : script.constructions.zipIdx[k]? = some (failure, k) := by simp [fails]
  simp [tried, failed, trying, List.take_add_one, hzip, buildRound]

theorem opening_of_free (free : script.holds = false) :
    script.opening config = script.waitedFor config script.waits.length ++ [.waits] := by
  simp [opening, free, waitedFor]

theorem reference_eq (script : Script) (config : Config) (span : Nat → Duration) (term : Term) :
    script.reference config span term =
      script.trying config span script.constructions.length ++
        [.serves term, .reports (.gained config.client term.token.term term.generation)] := by
  simp [reference, trying, tried, opening, List.take_of_length_le]

/-! ### How much of it has been seen -/

theorem waitedFor_isPrefix (h : i ≤ k) :
    script.waitedFor config i <+: script.waitedFor config k := by
  induction k, h using Nat.le_induction with
  | base => exact List.prefix_rfl
  | succ k _ ih =>
    refine ih.trans ?_
    cases hfails : script.waits[k]? with
    | none => simp [waitedFor, List.take_add_one, hfails]
    | some failure =>
      rw [waitedFor_succ hfails]
      exact List.prefix_append _ _

theorem tried_isPrefix (h : i ≤ k) :
    script.tried config span i <+: script.tried config span k := by
  induction k, h using Nat.le_induction with
  | base => exact List.prefix_rfl
  | succ k _ ih =>
    refine ih.trans ?_
    cases hfails : script.constructions[k]? with
    | none => simp [tried, List.take_add_one, hfails]
    | some failure =>
      rw [tried_succ hfails, failed, trying, List.append_assoc, List.append_assoc]
      exact List.prefix_append _ _

theorem waitedFor_isPrefix_opening (free : script.holds = false) (most : i ≤ script.waits.length) :
    script.waitedFor config i <+: script.opening config := by
  rw [opening_of_free free]
  exact (waitedFor_isPrefix most).trans (List.prefix_append _ _)

theorem excused_isPrefix_opening (free : script.holds = false) {failure : ElectionFailure}
    (fails : script.waits[i]? = some failure) :
    script.waitedFor config i ++ [.waits, .reports (waitNotice config.client failure)] <+:
      script.opening config := by
  have most := (List.getElem?_eq_some_iff.mp fails).1
  refine List.IsPrefix.trans ?_ (waitedFor_isPrefix_opening free most)
  rw [waitedFor_succ fails, List.prefix_append_right_inj]
  exact List.prefix_append [Act.waits, _] _

theorem waiting_isPrefix_opening (free : script.holds = false) (most : i ≤ script.waits.length) :
    script.waitedFor config i ++ [.waits] <+: script.opening config := by
  rcases Nat.lt_or_eq_of_le most with hless | rfl
  · -- the wait fails, and more is seen after it
    refine List.IsPrefix.trans ?_ (excused_isPrefix_opening free (List.getElem?_eq_getElem hless))
    rw [List.prefix_append_right_inj]
    exact List.prefix_append [Act.waits] _
  · exact opening_of_free free ▸ List.prefix_rfl

theorem tried_isPrefix_trying (most : k ≤ script.constructions.length) :
    script.tried config span k <+: script.trying config span script.constructions.length :=
  (tried_isPrefix most).trans (List.prefix_append _ _)

theorem failed_isPrefix_trying {failure : String}
    (fails : script.constructions[k]? = some failure) :
    script.failed config span k failure <+:
      script.trying config span script.constructions.length := by
  refine List.IsPrefix.trans ?_ (tried_isPrefix_trying (List.getElem?_eq_some_iff.mp fails).1)
  rw [tried_succ fails]
  exact List.prefix_append _ _

theorem trying_isPrefix (most : k ≤ script.constructions.length) :
    script.trying config span k <+: script.trying config span script.constructions.length := by
  rcases Nat.lt_or_eq_of_le most with hless | rfl
  · refine List.IsPrefix.trans ?_ (failed_isPrefix_trying (List.getElem?_eq_getElem hless))
    exact List.prefix_append _ _
  · exact List.prefix_rfl

theorem count_waitedFor (h : i ≤ script.waits.length) :
    (script.waitedFor config i).count .waits = i := by
  induction i with
  | zero => simp [waitedFor]
  | succ i ih =>
    obtain ⟨failure, hfails⟩ : ∃ failure, script.waits[i]? = some failure :=
      ⟨_, List.getElem?_eq_getElem h⟩
    rw [waitedFor_succ hfails, List.count_append, ih (Nat.le_of_succ_le h)]
    simp [waitRound]

theorem sites_opening : (script.opening config).filterMap siteOf? = [] := by
  -- no construction is begun before the token is known
  have hwaits (failures : List ElectionFailure) :
      (failures.flatMap (waitRound config)).filterMap siteOf? = [] := by
    induction failures with
    | nil => rfl
    | cons failure failures ih => simpa [waitRound, siteOf?] using ih
  unfold opening
  split
  · rfl
  · rw [List.filterMap_append, hwaits]
    rfl

/-- As many constructions have been begun as have failed. -/
theorem sites_tried (h : k ≤ script.constructions.length) :
    (script.tried config span k).filterMap siteOf? = (List.range k).map script.site := by
  induction k with
  | zero => rw [tried_zero, sites_opening]; rfl
  | succ k ih =>
    obtain ⟨failure, hfails⟩ : ∃ failure, script.constructions[k]? = some failure :=
      ⟨_, List.getElem?_eq_getElem h⟩
    rw [tried_succ hfails, failed, trying, List.filterMap_append, List.filterMap_append,
      List.filterMap_append, ih (Nat.le_of_succ_le h), List.range_succ, List.map_append]
    simp [siteOf?]

theorem sites_trying (h : k ≤ script.constructions.length) :
    (script.trying config span k).filterMap siteOf? = (List.range (k + 1)).map script.site := by
  rw [trying, List.filterMap_append, sites_tried h, List.range_succ, List.map_append]
  rfl

/-! ### What the reference comes to -/

section Reference

variable (script : Script) (config : Config) (span : Nat → Duration) (term : Term)

/-- Every wait is made once, and one more that gives the token; none if the election holds it. -/
theorem reference_waits :
    (script.reference config span term).count .waits =
      if script.holds then 0 else script.waits.length + 1 := by
  have hwaits : (script.opening config).count .waits =
      if script.holds then 0 else script.waits.length + 1 := by
    cases holds : script.holds with
    | true => simp [opening, holds]
    | false => simp [opening_of_free holds, count_waitedFor (Nat.le_refl _)]
  have hrounds : (script.constructions.zipIdx.flatMap (script.buildRound config span)).count
      .waits = 0 := by
    rw [List.count_eq_zero]
    simp [buildRound]
  rw [reference_eq, trying, tried, List.take_of_length_le (by simp), List.count_append,
    List.count_append, List.count_append, hwaits, hrounds]
  simp

/-- One construction is begun for each that fails, and one more. -/
theorem reference_sites :
    (script.reference config span term).filterMap siteOf? =
      (List.range (script.constructions.length + 1)).map script.site := by
  rw [reference_eq, List.filterMap_append, sites_trying (Nat.le_refl _)]
  simp [siteOf?]

theorem filterMap_reference {β : Type} (seen? : Act → Option β) :
    (script.reference config span term).filterMap seen? =
      (if script.holds then [] else
        script.waits.flatMap (fun failure => (waitRound config failure).filterMap seen?) ++
          [Act.waits].filterMap seen?) ++
      script.constructions.zipIdx.flatMap
        (fun failure => (script.buildRound config span failure).filterMap seen?) ++
      [.builds (script.site script.constructions.length), .serves term,
        .reports (.gained config.client term.token.term term.generation)].filterMap seen? := by
  rw [reference, List.filterMap_append, List.filterMap_append, List.filterMap_flatMap]
  cases script.holds with
  | true => rfl
  | false =>
    simp only [Bool.false_eq_true, ↓reduceIte, List.filterMap_append, List.filterMap_flatMap]

/-- Every construction that fails is reported once, and the attempts are numbered in turn. -/
theorem reference_attempts (few : script.constructions.length < UInt32.size) :
    (script.reference config span term).filterMap attemptOf? =
      List.range' 1 script.constructions.length := by
  have hwaits : script.waits.flatMap
      (fun failure => (waitRound config failure).filterMap attemptOf?) = [] := by
    refine List.flatMap_eq_nil_iff.mpr fun failure _ => ?_
    cases failure <;> rfl
  have hbuild (failure : String × Nat) :
      (script.buildRound config span failure).filterMap attemptOf? =
        [(UInt32.ofNat (failure.2 + 1)).toNat] := rfl
  have hnumbers : script.constructions.zipIdx.map
      (fun failure => (UInt32.ofNat (failure.2 + 1)).toNat) =
        List.range' 1 script.constructions.length := by
    refine List.ext_getElem (by simp) fun k hk _ => ?_
    -- the numbers do not come round, for there are few enough of them
    have hsmall : k + 1 < UInt32.size := by
      have hk' : k < script.constructions.length := by simpa using hk
      omega
    have htoNat : (UInt32.ofNat (k + 1)).toNat = k + 1 := UInt32.toNat_ofNat_of_lt' hsmall
    rw [List.getElem_map, List.getElem_zipIdx, Nat.zero_add, htoNat, List.getElem_range']
    omega
  rw [filterMap_reference, hwaits]
  simp only [hbuild, ← List.map_eq_flatMap, hnumbers, List.filterMap_cons, List.filterMap_nil,
    attemptOf?, List.append_nil, ite_self, List.nil_append]

/-- A pause follows each wait that fails, and each construction that fails. -/
theorem reference_spans :
    (script.reference config span term).filterMap spanOf? =
      (if script.holds then [] else
        List.replicate script.waits.length config.gainLeadershipBackoff) ++
      (List.range' 1 script.constructions.length).map span := by
  have hwait (failure : ElectionFailure) :
      (waitRound config failure).filterMap spanOf? = [config.gainLeadershipBackoff] := rfl
  have hbuild (failure : String × Nat) :
      (script.buildRound config span failure).filterMap spanOf? = [span (failure.2 + 1)] := rfl
  have hnumbers : script.constructions.zipIdx.map (fun failure => span (failure.2 + 1)) =
      (List.range' 1 script.constructions.length).map span := by
    refine List.ext_getElem (by simp) fun k _ _ => ?_
    simp [Nat.add_comm]
  rw [filterMap_reference]
  simp only [hwait, hbuild, ← List.map_eq_flatMap, hnumbers, List.map_const', List.filterMap_cons,
    List.filterMap_nil, spanOf?, List.append_nil]

/-- One term comes into service. -/
theorem reference_terms : (script.reference config span term).filterMap termOf? = [term] := by
  have hwaits : script.waits.flatMap
      (fun failure => (waitRound config failure).filterMap termOf?) = [] :=
    List.flatMap_eq_nil_iff.mpr fun _ _ => rfl
  have hbuilds : script.constructions.zipIdx.flatMap
      (fun failure => (script.buildRound config span failure).filterMap termOf?) = [] :=
    List.flatMap_eq_nil_iff.mpr fun _ _ => rfl
  rw [filterMap_reference, hwaits, hbuilds]
  simp only [List.filterMap_cons, List.filterMap_nil, termOf?, List.append_nil, ite_self,
    List.nil_append]

end Reference

/-- A wait that is interrupted is reported with less weight than one that fails in another way. -/
theorem level_waitNotice (client : String) (failure : ElectionFailure) :
    (waitNotice client failure).record.level =
      if failure = .interrupted then .warn else .error := by
  cases failure <;> rfl

/-! ### Where an acquisition stands -/

/-- Where an acquisition stands on its script, with what could be seen of it. -/
inductive Point (script : Script) (config : Config) (span : Nat → Duration) :
    List Act → Acquisition → Prop
  | enters : Point script config span [] .enter
  | asks : Point script config span [] .ask
  /-- The election holds no token: the work goes to the acquisition thread. -/
  | sent (free : script.holds = false) : Point script config span [] (.handOver none 0)
  | queued (free : script.holds = false) : Point script config span [] (.queued none 0)
  | looks (free : script.holds = false) {i : Nat} (most : i ≤ script.waits.length) :
      Point script config span (script.waitedFor config i) (.again none 0)
  | begins (free : script.holds = false) {i : Nat} (most : i ≤ script.waits.length) :
      Point script config span (script.waitedFor config i) (.wait 0)
  | waits (free : script.holds = false) {i : Nat} (most : i ≤ script.waits.length) :
      Point script config span (script.waitedFor config i ++ [.waits]) (.waiting 0)
  /-- A wait has failed. -/
  | waited (free : script.holds = false) {i : Nat} {failure : ElectionFailure}
      (fails : script.waits[i]? = some failure) :
      Point script config span (script.waitedFor config i ++ [.waits]) (.excuse failure 0)
  | excused (free : script.holds = false) {i : Nat} {failure : ElectionFailure}
      (fails : script.waits[i]? = some failure) :
      Point script config span
        (script.waitedFor config i ++ [.waits, .reports (waitNotice config.client failure)])
        (.relax 0)
  | sleeps (free : script.holds = false) {i : Nat} {failure : ElectionFailure}
      (fails : script.waits[i]? = some failure) :
      Point script config span
        (script.waitedFor config i ++ [.waits, .reports (waitNotice config.client failure)])
        (.gainPause 0)
  /-- The first construction has failed where the acquisition began: the work goes to the
  acquisition thread, with the token. -/
  | sentOn (holds : script.holds = true) {failure : String}
      (fails : script.constructions[0]? = some failure) :
      Point script config span (script.failed config span 0 failure)
        (.handOver (some script.token) 1)
  | queuedOn (holds : script.holds = true) {failure : String}
      (fails : script.constructions[0]? = some failure) :
      Point script config span (script.failed config span 0 failure) (.queued (some script.token) 1)
  | looksOn (holds : script.holds = true) {failure : String}
      (fails : script.constructions[0]? = some failure) :
      Point script config span (script.failed config span 0 failure) (.again (some script.token) 1)
  | confirms {k : Nat} (most : k ≤ script.constructions.length) (own : script.site k = .own) :
      Point script config span (script.tried config span k)
        (.confirm script.token (UInt32.ofNat k))
  | builds {k : Nat} (most : k ≤ script.constructions.length) :
      Point script config span (script.tried config span k)
        (.build (script.site k) script.token (UInt32.ofNat k))
  | building {k : Nat} (most : k ≤ script.constructions.length) :
      Point script config span (script.trying config span k)
        (.building (script.site k) script.token (UInt32.ofNat k))
  | rests {k : Nat} {failure : String} (fails : script.constructions[k]? = some failure) :
      Point script config span (script.failed config span k failure)
        (.buildPause script.token (UInt32.ofNat (k + 1)))
  | publishes {holding : Holding} (token : holding.token = script.token) :
      Point script config span (script.trying config span script.constructions.length)
        (.publishing (.publish holding))
  | numbers {holding : Holding} (token : holding.token = script.token) :
      Point script config span (script.trying config span script.constructions.length)
        (.publishing (.number holding))
  | puts {term : Term} (token : term.token = script.token) :
      Point script config span (script.trying config span script.constructions.length)
        (.publishing (.put term))
  | rechecks {term : Term} (token : term.token = script.token) :
      Point script config span
        (script.trying config span script.constructions.length ++ [.serves term])
        (.publishing (.recheck term))
  | published {term : Term} (token : term.token = script.token) :
      Point script config span
        (script.trying config span script.constructions.length ++ [.serves term])
        (.publishing (.done (.published (some term))))
  | finished {term : Term} (token : term.token = script.token) :
      Point script config span (script.reference config span term) .finished

/-- How many steps an acquisition on its script takes at most before something is seen of it. -/
def lull : Acquisition → Nat
  | .enter => 6
  | .ask => 5
  | .handOver .. | .building .. => 4
  | .queued .. | .waiting _ | .publishing (.publish _) => 3
  | .again .. | .relax _ | .confirm .. | .publishing (.number _) | .publishing (.recheck _) => 2
  | .wait _ | .excuse .. | .gainPause _ | .buildPause .. | .build .. | .publishing _ => 1
  | _ => 0

theorem lull_le (acquisition : Acquisition) : lull acquisition ≤ 6 := by
  unfold lull
  split <;> decide

variable {seen : List Act} {acquisition : Acquisition}

/-- At every point, a begin of the reference has been seen. -/
theorem Point.isPrefix (h : script.Point config span seen acquisition) :
    ∃ term, term.token = script.token ∧ seen <+: script.reference config span term := by
  -- before the term is seen, it may be any
  have hany (hbegin : seen <+: script.trying config span script.constructions.length) :
      ∃ term, term.token = script.token ∧ seen <+: script.reference config span term := by
    refine ⟨⟨⟨script.token, 0⟩, 0⟩, rfl, hbegin.trans ?_⟩
    rw [reference_eq]
    exact List.prefix_append _ _
  have hopening : script.opening config <+:
      script.trying config span script.constructions.length := by
    rw [← tried_zero script config span]
    exact tried_isPrefix_trying (Nat.zero_le _)
  cases h with
  | enters | asks | sent | queued => exact hany List.nil_prefix
  | looks free most | begins free most =>
    exact hany ((waitedFor_isPrefix_opening free most).trans hopening)
  | waits free most => exact hany ((waiting_isPrefix_opening free most).trans hopening)
  | waited free fails =>
    have most := (List.getElem?_eq_some_iff.mp fails).1
    exact hany ((waiting_isPrefix_opening free (Nat.le_of_lt most)).trans hopening)
  | excused free fails | sleeps free fails =>
    exact hany ((excused_isPrefix_opening free fails).trans hopening)
  | sentOn holds fails | queuedOn holds fails | looksOn holds fails | rests fails =>
    exact hany (failed_isPrefix_trying fails)
  | confirms most own => exact hany (tried_isPrefix_trying most)
  | builds most => exact hany (tried_isPrefix_trying most)
  | building most => exact hany (trying_isPrefix most)
  | publishes | numbers | puts => exact hany List.prefix_rfl
  | @rechecks term token | @published term token =>
    refine ⟨term, token, ?_⟩
    rw [reference_eq]
    exact (List.prefix_append_right_inj _).mpr (List.prefix_append [Act.serves term] _)
  | @finished term token => exact ⟨term, token, List.prefix_rfl⟩

/-! ### What a step leads to -/

/-- What can be seen of a step that leaves what is served, with what it reports. -/
theorem acts_of_report (acquisition : Acquisition) (config : Config) (grounds : Grounds)
    (notices : List Notice) :
    acquisition.acts config grounds (grounds.report notices) =
      acquisition.begins ++ (acquisition.pause? config).toList.map .sleeps ++
        notices.map .reports := by
  simp [acts, Grounds.report, Ledger.note]

/-- What can be seen of a step that leaves the grounds as they are. -/
theorem acts_of_quiet (acquisition : Acquisition) (config : Config) (grounds : Grounds) :
    acquisition.acts config grounds grounds =
      acquisition.begins ++ (acquisition.pause? config).toList.map .sleeps := by
  simp [acts]

/-- A step of which these acts are seen leads to another point, and something is seen of it or will
be soon. -/
def GoesOn (script : Script) (config : Config) (span : Nat → Duration) (seen : List Act)
    (acquisition : Acquisition) (acts : List Act) (onward : Acquisition) : Prop :=
  script.Point config span (seen ++ acts) onward ∧ (acts ≠ [] ∨ lull onward < lull acquisition)

theorem GoesOn.silently {onward : Acquisition} {acts : List Act}
    (point : script.Point config span seen onward) (shown : acts = [])
    (less : lull onward < lull acquisition) :
    script.GoesOn config span seen acquisition acts onward := by
  subst shown
  refine ⟨?_, .inr less⟩
  rwa [List.append_nil]

theorem GoesOn.visibly {onward : Acquisition} {acts : List Act} {act : Act} {more seen' : List Act}
    (point : script.Point config span seen' onward) (shown : acts = act :: more)
    (all : seen' = seen ++ act :: more) :
    script.GoesOn config span seen acquisition acts onward := by
  subst shown all
  exact ⟨point, .inl (List.cons_ne_nil act more)⟩

section Steps

variable {grounds left : Grounds} {answers : Answers} {next : Acquisition}
  {task : Option Acquisition}

/-- An acquisition that is told whether the election holds the token has its first delegate built
where it is, or goes to the acquisition thread. -/
theorem goesOn_ask (held : answers.held = script.held) :
    script.GoesOn config span [] .ask (Acquisition.ask.acts config grounds grounds)
      (Acquisition.ask.held answers.held) := by
  cases holds : script.holds with
  | false =>
    have hnone : answers.held = none := by simp [held, Script.held, holds]
    rw [hnone]
    exact GoesOn.silently (.sent holds) (acts_of_quiet ..) (by decide)
  | true =>
    have hsome : answers.held = some script.token := by simp [held, Script.held, holds]
    have hopening : script.tried config span 0 = [] := by simp [tried_zero, opening, holds]
    have hsite : script.site 0 = .caller := by simp [site, holds]
    have hpoint : script.Point config span (script.tried config span 0)
        (.build (script.site 0) script.token 0) := .builds (Nat.zero_le _)
    rw [hopening, hsite] at hpoint
    rw [hsome]
    exact GoesOn.silently hpoint (acts_of_quiet ..) (by simp [lull, Acquisition.held])

/-- After a wait that fails comes the next one, and after the last one the first construction. -/
theorem goesOn_waiting (free : script.holds = false) (most : i ≤ script.waits.length)
    (waited : answers.waited = script.waited i) :
    script.GoesOn config span (script.waitedFor config i ++ [.waits]) (.waiting 0)
      ((Acquisition.waiting 0).acts config grounds grounds)
      ((Acquisition.waiting 0).waited answers.waited) := by
  cases hfails : script.waits[i]? with
  | some failure =>
    have herror : answers.waited = .error failure := by simp [waited, Script.waited, hfails]
    rw [herror]
    exact GoesOn.silently (.waited free hfails) (acts_of_quiet ..)
      (by simp [lull, Acquisition.waited])
  | none =>
    have hok : answers.waited = .ok script.token := by simp [waited, Script.waited, hfails]
    obtain rfl : i = script.waits.length := by
      have := List.getElem?_eq_none_iff.mp hfails
      omega
    -- no construction has failed yet, so nothing puts the first one off
    have hsite : script.site 0 = .own := by simp [site, free]
    rw [hok, ← opening_of_free free, ← tried_zero script config span]
    exact GoesOn.silently (.confirms (Nat.zero_le _) hsite) (acts_of_quiet ..)
      (by simp [lull, Acquisition.waited, prepare])

/-- After a construction that fails comes a pause, on the acquisition thread, and after one that
succeeds the publication. -/
theorem goesOn_building (most : k ≤ script.constructions.length)
    (built : answers.construction = script.constructions[k]?)
    (became : (Acquisition.building (script.site k) script.token (UInt32.ofNat k)).proceed
      config.client grounds answers = (next, left, task)) :
    script.GoesOn config span (script.trying config span k)
      (.building (script.site k) script.token (UInt32.ofNat k))
      ((Acquisition.building (script.site k) script.token (UInt32.ofNat k)).acts config grounds
        left) (task.getD next) := by
  have hnext : UInt32.ofNat k + 1 = UInt32.ofNat (k + 1) := (UInt32.ofNat_add k 1).symm
  cases hfails : script.constructions[k]? with
  | some failure =>
    simp only [Acquisition.proceed, Grounds.construct, built, hfails, Acquisition.built, hnext,
      Prod.mk.injEq] at became
    obtain ⟨rfl, rfl, rfl⟩ := became
    refine GoesOn.visibly ?_ (acts_of_report ..) rfl
    by_cases hfirst : script.holds = true ∧ k = 0
    · obtain ⟨holds, rfl⟩ := hfirst
      have hsite : script.site 0 = .caller := by simp [site, holds]
      rw [hsite]
      exact .sentOn holds hfails
    · have hsite : script.site k = .own := by simp [site, hfirst]
      rw [hsite]
      exact .rests hfails
  | none =>
    obtain rfl : k = script.constructions.length := by
      have := List.getElem?_eq_none_iff.mp hfails
      omega
    simp only [Acquisition.proceed, Grounds.construct, built, hfails, Acquisition.built,
      Company.report_nil, Prod.mk.injEq] at became
    obtain ⟨rfl, rfl, rfl⟩ := became
    exact GoesOn.silently (.publishes rfl) (by simp [acts, Acquisition.begins, pause?])
      (by simp [lull])

/-- Every step leads to another point, and something is seen of it or will be soon. -/
theorem Point.goesOn (h : script.Point config span seen acquisition) (hne : acquisition ≠ .finished)
    (became : acquisition.proceed config.client grounds answers = (next, left, task))
    (isOpen : grounds.register.closed = false) (running : grounds.stopped = false)
    (vacant : acquisition.isOutstanding = true → grounds.register.current = none)
    (answered : script.Answered seen answers acquisition)
    (spans : script.Spans config span) :
    script.GoesOn config span seen acquisition (acquisition.acts config grounds left)
      (task.getD next) := by
  -- no step finds the proxy closed, and every step that asks is answered by the script
  cases h with
  | enters =>
    simp only [Acquisition.proceed, flagRead, isOpen, Company.report_nil, Bool.false_eq_true,
      ↓reduceIte, Prod.mk.injEq] at became
    obtain ⟨rfl, rfl, rfl⟩ := became
    exact GoesOn.silently .asks (acts_of_quiet ..) (by simp [lull])
  | asks =>
    simp only [Acquisition.proceed, Prod.mk.injEq] at became
    obtain ⟨rfl, rfl, rfl⟩ := became
    exact goesOn_ask answered
  | sent free =>
    simp only [Acquisition.proceed, handedOver, refusal, running, Bool.false_eq_true, ↓reduceIte,
      Prod.mk.injEq] at became
    obtain ⟨rfl, rfl, rfl⟩ := became
    exact GoesOn.silently (.queued free) (acts_of_quiet ..) (by simp [lull])
  | queued free =>
    simp only [Acquisition.proceed, started, Prod.mk.injEq] at became
    obtain ⟨rfl, rfl, rfl⟩ := became
    exact GoesOn.silently (.looks free (Nat.zero_le _)) (acts_of_quiet ..) (by simp [lull])
  | looks free most =>
    simp only [Acquisition.proceed, flagRead, isOpen, Company.report_nil, Bool.false_eq_true,
      ↓reduceIte, Prod.mk.injEq] at became
    obtain ⟨rfl, rfl, rfl⟩ := became
    exact GoesOn.silently (.begins free most) (acts_of_quiet ..) (by simp [lull])
  | begins free most =>
    simp only [Acquisition.proceed, begun, Prod.mk.injEq] at became
    obtain ⟨rfl, rfl, rfl⟩ := became
    exact GoesOn.visibly (.waits free most) (acts_of_quiet ..) rfl
  | @waits free i most =>
    simp only [Acquisition.proceed, Prod.mk.injEq] at became
    obtain ⟨rfl, rfl, rfl⟩ := became
    have hcount : (script.waitedFor config i ++ [Act.waits]).count .waits - 1 = i := by
      simp [count_waitedFor most]
    exact goesOn_waiting free most (hcount ▸ answered)
  | waited free fails =>
    simp only [Acquisition.proceed, flagRead, isOpen, Bool.false_eq_true, ↓reduceIte,
      Prod.mk.injEq] at became
    obtain ⟨rfl, rfl, rfl⟩ := became
    refine GoesOn.visibly (.excused free fails) (acts_of_report ..) ?_
    simp
  | excused free fails =>
    simp only [Acquisition.proceed, flagRead, isOpen, Company.report_nil, Bool.false_eq_true,
      ↓reduceIte, Prod.mk.injEq] at became
    obtain ⟨rfl, rfl, rfl⟩ := became
    exact GoesOn.silently (.sleeps free fails) (acts_of_quiet ..) (by simp [lull])
  | sleeps free fails =>
    simp only [Acquisition.proceed, woken, Prod.mk.injEq] at became
    obtain ⟨rfl, rfl, rfl⟩ := became
    have most := (List.getElem?_eq_some_iff.mp fails).1
    refine GoesOn.visibly (.looks free most) (acts_of_quiet ..) ?_
    simp [waitedFor_succ fails, waitRound]
  | sentOn holds fails =>
    simp only [Acquisition.proceed, handedOver, refusal, running, Bool.false_eq_true, ↓reduceIte,
      Prod.mk.injEq] at became
    obtain ⟨rfl, rfl, rfl⟩ := became
    exact GoesOn.silently (.queuedOn holds fails) (acts_of_quiet ..) (by simp [lull])
  | queuedOn holds fails =>
    simp only [Acquisition.proceed, started, Prod.mk.injEq] at became
    obtain ⟨rfl, rfl, rfl⟩ := became
    exact GoesOn.silently (.looksOn holds fails) (acts_of_quiet ..) (by simp [lull])
  | looksOn holds fails =>
    simp only [Acquisition.proceed, flagRead, isOpen, Company.report_nil, Bool.false_eq_true,
      ↓reduceIte, Prod.mk.injEq] at became
    obtain ⟨rfl, rfl, rfl⟩ := became
    exact GoesOn.silently (.rests fails) (acts_of_quiet ..) (by simp [lull, prepare])
  | confirms most own =>
    simp only [Acquisition.proceed, flagRead, isOpen, Company.report_nil, Bool.false_eq_true,
      ↓reduceIte, Prod.mk.injEq] at became
    obtain ⟨rfl, rfl, rfl⟩ := became
    exact GoesOn.silently (own ▸ .builds most) (acts_of_quiet ..) (by simp [lull])
  | builds most =>
    simp only [Acquisition.proceed, begun, Prod.mk.injEq] at became
    obtain ⟨rfl, rfl, rfl⟩ := became
    exact GoesOn.visibly (.building most) (acts_of_quiet ..) rfl
  | @building k most =>
    have hcount : ((script.trying config span k).filterMap siteOf?).length - 1 = k := by
      rw [sites_trying most, List.length_map, List.length_range, Nat.add_sub_cancel]
    exact goesOn_building most (hcount ▸ answered) became
  | @rests k failure fails =>
    simp only [Acquisition.proceed, woken, Prod.mk.injEq] at became
    obtain ⟨rfl, rfl, rfl⟩ := became
    have most := (List.getElem?_eq_some_iff.mp fails).1
    have hsite : script.site (k + 1) = .own := by simp [site]
    have hspan := spans (k + 1) (Nat.succ_pos k) most
    have shown : (buildPause script.token (UInt32.ofNat (k + 1))).acts config grounds grounds =
        [.sleeps (span (k + 1))] := by
      rw [acts_of_quiet, pause?, hspan]
      rfl
    exact GoesOn.visibly (.confirms most hsite) shown (tried_succ fails)
  | publishes token =>
    simp only [Acquisition.proceed, Operation.standing, Operation.proceed, Operation.step, isOpen,
      Bool.false_eq_true, ↓reduceIte, Prod.mk.injEq] at became
    obtain ⟨rfl, rfl, rfl⟩ := became
    exact GoesOn.silently (.numbers token) (by simp [acts, Acquisition.begins, pause?])
      (by simp [lull])
  | numbers token =>
    simp only [Acquisition.proceed, Operation.standing, Operation.proceed, Operation.step,
      Register.number, Prod.mk.injEq] at became
    obtain ⟨rfl, rfl, rfl⟩ := became
    exact GoesOn.silently (.puts token) (by simp [acts, Acquisition.begins, pause?])
      (by simp [lull])
  | @puts term token =>
    -- a term that is put where none is served comes into service
    have hvacant := vacant rfl
    simp only [Acquisition.proceed, Operation.standing, Operation.proceed, Operation.step,
      Register.put, hvacant, Prod.mk.injEq] at became
    obtain ⟨rfl, rfl, rfl⟩ := became
    refine GoesOn.visibly (.rechecks token) ?_ rfl
    simp [acts, Acquisition.begins, pause?, hvacant]
  | rechecks token =>
    simp only [Acquisition.proceed, Operation.standing, Operation.proceed, Operation.step, isOpen,
      Bool.false_eq_true, ↓reduceIte, Prod.mk.injEq] at became
    obtain ⟨rfl, rfl, rfl⟩ := became
    exact GoesOn.silently (.published token) (by simp [acts, Acquisition.begins, pause?])
      (by simp [lull])
  | @published term token =>
    simp only [Acquisition.proceed, Operation.standing, Acquisition.published,
      Prod.mk.injEq] at became
    obtain ⟨rfl, rfl, rfl⟩ := became
    refine GoesOn.visibly (.finished token) (acts_of_report ..) ?_
    simp [reference_eq]
  | finished token => exact absurd rfl hne

end Steps

/-- How far an acquisition is from its end, by what has not been seen yet. -/
def rank (script : Script) (config : Config) (span : Nat → Duration) (seen : List Act)
    (acquisition : Acquisition) : Nat :=
  8 * ((script.trying config span script.constructions.length).length + 2 - seen.length) +
    lull acquisition

theorem GoesOn.rank_lt {acts : List Act} {onward : Acquisition}
    (h : script.GoesOn config span seen acquisition acts onward) :
    script.rank config span (seen ++ acts) onward < script.rank config span seen acquisition := by
  obtain ⟨point, hmore⟩ := h
  obtain ⟨term, -, hprefix⟩ := point.isPrefix
  have hlength := hprefix.length_le
  rw [reference_eq, List.length_append, List.length_append] at hlength
  -- what is seen outweighs whatever may follow unseen
  have hlull := lull_le onward
  simp only [rank, List.length_append, List.length_cons, List.length_nil] at hlength ⊢
  rcases hmore with hacts | hless
  · have hpos := List.length_pos_iff.mpr hacts
    omega
  · omega

end Script

end Tenure
