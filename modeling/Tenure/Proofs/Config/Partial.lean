import Tenure.Config
import Tenure.Proofs.Json.Records

/-!
# Configurations from parts of a record

A record of a configuration need not be complete, and may hold what no configuration knows. Each
member with a known name sets its own field and no other one; a field without a member has its
usual value; and all the rest of the record is read over, whatever it holds. So the configuration
depends on the members with known names alone: their order does not matter, nor how they are
spelled, nor what stands between them.

The record must say clearly what is meant. It is refused if a known name comes twice, and if the
value of a known name is not of the kind that belongs there: a text for the client, a natural number
that fits for the others, written with nothing but its digits.

## Main definitions

* `Config.names` — the names that are known
* `Config.Admissible` — the members that say clearly what is meant
* `Config.IsSetBy` — the configuration that members mean

## Main results

* `Config.ofJson_eq_ok_iff` — what is read off a record
* `Config.ofJson_of_isObject` — which records are read, and on what the configuration depends
-/

namespace Tenure.Config

open Json (Value Scalar Kind IsObject)

variable {members members' : List (String × Value)} {text text' : List Char}
  {config config' : Config} {name : String}

/-! ## What a record means -/

/-- The names of the pauses, which are all told in milliseconds. -/
def pauseNames : List String :=
  ["status_retry_delay_ms", "gain_leadership_backoff_ms", "construction_backoff_ms"]

/-- The names that a record of a configuration knows. -/
def names : List String := "client" :: "max_no_quorum_attempts" :: pauseNames

/-- The members say clearly what is meant. -/
structure Admissible (members : List (String × Value)) : Prop where
  /-- No known name comes twice. -/
  once : ∀ name ∈ names, (members.map Prod.fst).count name ≤ 1
  client : ∀ value, ("client", value) ∈ members → ∃ client, value = .text client
  attempts : ∀ value, ("max_no_quorum_attempts", value) ∈ members →
    ∃ n < 2 ^ 32, value = .natural n
  pauses : ∀ name ∈ pauseNames, ∀ value, (name, value) ∈ members → ∃ n < 2 ^ 64, value = .natural n

/-- The members with this name mean something, if there are any, and without them it is what it
usually is. -/
structure Decides {α : Type} (members : List (String × Value)) (name : String) (spell : α → Value)
    (usual meant : α) : Prop where
  present : ∀ value, (name, value) ∈ members → value = spell meant
  absent : (∀ value, (name, value) ∉ members) → meant = usual

/-- The members with this name mean a pause, which usually has so many milliseconds. -/
def DecidesPause (members : List (String × Value)) (name : String) (usual : UInt64)
    (pause : Duration) : Prop :=
  ∃ millis : UInt64, pause = .ofMillis millis ∧
    Decides members name (fun millis => .natural millis.toNat) usual millis

/-- The configuration that the members mean. -/
structure IsSetBy (members : List (String × Value)) (config : Config) : Prop where
  client : Decides members "client" .text "default" config.client
  attempts : Decides members "max_no_quorum_attempts" (fun attempts => .natural attempts.toNat) 10
    config.maxNoQuorumAttempts
  statusRetryDelay : DecidesPause members "status_retry_delay_ms" 700 config.statusRetryDelay
  gainLeadershipBackoff :
    DecidesPause members "gain_leadership_backoff_ms" 500 config.gainLeadershipBackoff
  constructionBackoff :
    DecidesPause members "construction_backoff_ms" 50 config.constructionBackoff

theorem Decides.unique {α : Type} {spell : α → Value} {usual meant meant' : α}
    (injective : Function.Injective spell) (h : Decides members name spell usual meant)
    (h' : Decides members name spell usual meant') : meant = meant' := by
  by_cases present : ∃ value, (name, value) ∈ members
  · obtain ⟨value, mem⟩ := present
    exact injective ((h.present value mem).symm.trans (h'.present value mem))
  · have absent : ∀ value, (name, value) ∉ members := not_exists.mp present
    rw [h.absent absent, h'.absent absent]

theorem natural_toNat_injective : Function.Injective fun n : UInt64 => Value.natural n.toNat :=
  fun _ _ same => UInt64.toNat_inj.mp (Value.natural_injective same)

theorem DecidesPause.unique {usual : UInt64} {pause pause' : Duration}
    (h : DecidesPause members name usual pause) (h' : DecidesPause members name usual pause') :
    pause = pause' := by
  obtain ⟨millis, rfl, decides⟩ := h
  obtain ⟨millis', rfl, decides'⟩ := h'
  rw [decides.unique natural_toNat_injective decides']

/-- The members mean one configuration at most. -/
theorem IsSetBy.unique (h : IsSetBy members config) (h' : IsSetBy members config') :
    config = config' := by
  have text : Function.Injective Value.text := fun _ _ => Value.text.inj
  have natural : Function.Injective fun n : UInt32 => Value.natural n.toNat :=
    fun _ _ same => UInt32.toNat_inj.mp (Value.natural_injective same)
  have client := h.client.unique text h'.client
  have attempts := h.attempts.unique natural h'.attempts
  have delay := h.statusRetryDelay.unique h'.statusRetryDelay
  have backoff := h.gainLeadershipBackoff.unique h'.gainLeadershipBackoff
  have construction := h.constructionBackoff.unique h'.constructionBackoff
  cases config
  cases config'
  simp_all only

/-! ## What is read off a record -/

theorem exists_takes_text_iff {value : Value} :
    (∃ scalar, Kind.text.Takes value scalar) ↔ ∃ s, value = .text s := by
  constructor
  · rintro ⟨scalar, ⟨⟩⟩
    exact ⟨_, rfl⟩
  · rintro ⟨s, rfl⟩
    exact ⟨_, .text⟩

theorem exists_takes_natural_iff {limit : Nat} {value : Value} (fits : limit ≤ 2 ^ 64) :
    (∃ scalar, (Kind.natural limit).Takes value scalar) ↔ ∃ n < limit, value = .natural n := by
  constructor
  · rintro ⟨scalar, takes⟩
    cases takes with
    | @natural limit n below fits => exact ⟨n, below, rfl⟩
  · rintro ⟨n, below, rfl⟩
    have word : n ≤ Json.wordMax := Nat.le_sub_one_of_lt (Nat.lt_of_lt_of_le below fits)
    exact ⟨_, .natural below word⟩

theorem distinct_names : (schema.fields.map Json.Field.name).Nodup := by decide

theorem names_eq : schema.fields.map Json.Field.name = names := rfl

/-- The members say clearly what is meant exactly if they leave no doubt about any field. -/
theorem admissible_iff : Admissible members ↔ ∀ field ∈ schema.fields, field.Fits members := by
  have attemptsFit : UInt32.size ≤ 2 ^ 64 := by decide
  have pausesFit : UInt64.size ≤ 2 ^ 64 := by decide
  constructor
  · intro h field mem
    have once := h.once field.name (names_eq ▸ List.mem_map_of_mem mem)
    refine ⟨once, ?_⟩
    intro value present
    simp only [schema, List.mem_cons, List.not_mem_nil, or_false] at mem
    rcases mem with rfl | rfl | rfl | rfl | rfl
    · exact exists_takes_text_iff.mpr (h.client value present)
    · exact (exists_takes_natural_iff attemptsFit).mpr (h.attempts value present)
    all_goals
      refine (exists_takes_natural_iff pausesFit).mpr (h.pauses _ ?_ value present)
      simp [pauseNames]
  · intro h
    simp only [schema, List.forall_mem_cons] at h
    obtain ⟨client, attempts, delay, backoff, construction, -⟩ := h
    refine ⟨?_, fun value present => ?_, fun value present => ?_, ?_⟩
    · simp only [names, pauseNames, List.forall_mem_cons]
      exact ⟨client.once, attempts.once, delay.once, backoff.once, construction.once, by simp⟩
    · exact exists_takes_text_iff.mp (client.takes value present)
    · exact (exists_takes_natural_iff attemptsFit).mp (attempts.takes value present)
    · have pause {name : String} (fits : Json.Field.Fits ⟨name, .natural UInt64.size⟩ members) :
          ∀ value, (name, value) ∈ members → ∃ n < 2 ^ 64, value = .natural n :=
        fun value present => (exists_takes_natural_iff pausesFit).mp (fits.takes value present)
      simp only [pauseNames, List.forall_mem_cons]
      exact ⟨pause delay, pause backoff, pause construction, by simp⟩

/-- What becomes of a field decides what is meant. -/
theorem decides_of_turns {α : Type} {kind : Kind} {entry : Option Scalar} {spell : α → Value}
    (meaning : Option Scalar → α)
    (meant : ∀ value scalar, kind.Takes value scalar → value = spell (meaning (some scalar)))
    (h : (⟨name, kind⟩ : Json.Field).Turns members none entry) :
    Decides members name spell (meaning none) (meaning entry) := by
  cases h with
  | stays absent =>
    refine ⟨?_, fun _ => rfl⟩
    intro value present
    exact absurd (List.mem_map_of_mem present) absent
  | @found value scalar mem once takes =>
    refine ⟨?_, fun absent => absurd mem (absent value)⟩
    intro value' present
    rw [Json.eq_of_count_eq_one once present mem]
    exact meant value scalar takes

/-- The milliseconds of a pause, as they were found. -/
def millisOfFound (usual : UInt64) : Option Scalar → UInt64
  | some (.natural n) => UInt64.ofNat n
  | _ => usual

/-- The client, as it was found. -/
def clientOfFound : Option Scalar → String
  | some (.text client) => client
  | _ => "default"

/-- The number of checks, as it was found. -/
def attemptsOfFound : Option Scalar → UInt32
  | some (.natural n) => UInt32.ofNat n
  | _ => 10

theorem pause_eq (entry : Option Scalar) (usual : UInt64) :
    pause entry (.ofMillis usual) = .ofMillis (millisOfFound usual entry) := by
  rcases entry with _ | _ | _ <;> rfl

theorem decidesPause_of_turns {entry : Option Scalar} (usual : UInt64)
    (h : (⟨name, .natural UInt64.size⟩ : Json.Field).Turns members none entry) :
    DecidesPause members name usual (pause entry (.ofMillis usual)) := by
  refine ⟨millisOfFound usual entry, pause_eq entry usual, ?_⟩
  refine decides_of_turns (millisOfFound usual) ?_ h
  intro value scalar takes
  cases takes with
  | natural below => rw [millisOfFound, UInt64.toNat_ofNat_of_lt' below]

/-- The configuration made of what was found is the one that the members mean. -/
theorem isSetBy_ofFound {found : Json.Found}
    (h : List.Forall₂ (fun field entry => field.Turns members none entry) schema.fields found) :
    IsSetBy members (ofFound found) := by
  simp only [schema, List.forall₂_cons_left_iff, List.forall₂_nil_left_iff] at h
  obtain ⟨client, _, hclient, ⟨attempts, _, hattempts, ⟨delay, _, hdelay, ⟨backoff, _, hbackoff,
    ⟨construction, _, hconstruction, rfl, rfl⟩, rfl⟩, rfl⟩, rfl⟩, rfl⟩ := h
  constructor
  · exact decides_of_turns clientOfFound (fun _ _ => by rintro ⟨⟩; rfl) hclient
  · refine decides_of_turns attemptsOfFound ?_ hattempts
    intro value scalar takes
    cases takes with
    | natural below => rw [attemptsOfFound, UInt32.toNat_ofNat_of_lt' below]
  · exact decidesPause_of_turns 700 hdelay
  · exact decidesPause_of_turns 500 hbackoff
  · exact decidesPause_of_turns 50 hconstruction

/-- What is read off a record: what its members mean, if they say it clearly. -/
theorem ofJson_eq_ok_iff (h : IsObject members text) :
    ofJson text = .ok config ↔ Admissible members ∧ IsSetBy members config := by
  have reads (found : Json.Found) : Json.readRecord schema text = .ok found ↔ _ :=
    Json.readRecord_iff distinct_names h
  have readable := Json.exists_readRecord_iff distinct_names rfl h
  constructor
  · intro read
    cases record : Json.readRecord schema text with
    | error fault =>
      rw [ofJson, record] at read
      cases read
    | ok found =>
      rw [ofJson, record] at read
      obtain rfl := Except.ok.inj read
      exact ⟨admissible_iff.mpr (readable.mp ⟨found, record⟩),
        isSetBy_ofFound ((reads found).mp record).1⟩
  · rintro ⟨admissible, isSet⟩
    obtain ⟨found, record⟩ := readable.mpr (admissible_iff.mp admissible)
    have isSet' := isSetBy_ofFound ((reads found).mp record).1
    rw [ofJson, record, isSet.unique isSet']
    rfl

/-! ## On what it depends -/

/-- The members with known names. -/
def known (members : List (String × Value)) : List (String × Value) :=
  members.filter fun member => member.1 ∈ names

theorem mem_known_iff {value : Value} (isKnown : name ∈ names) :
    (name, value) ∈ known members ↔ (name, value) ∈ members := by
  simp [known, isKnown]

theorem count_known (members : List (String × Value)) (isKnown : name ∈ names) :
    ((known members).map Prod.fst).count name = (members.map Prod.fst).count name := by
  induction members with
  | nil => rfl
  | cons member members ih =>
    by_cases kept : member.1 ∈ names
    · have keeps : known (member :: members) = member :: known members :=
        List.filter_cons_of_pos (decide_eq_true kept)
      rw [keeps, List.map_cons, List.map_cons, List.count_cons, List.count_cons, ih]
    · have drops : known (member :: members) = known members :=
        List.filter_cons_of_neg fun mem => kept (of_decide_eq_true mem)
      have ne : member.1 ≠ name := fun eq => kept (eq ▸ isKnown)
      rw [drops, List.map_cons, List.count_cons_of_ne ne, ih]

/-- The members with known names are the same, but for their order. -/
def SameKnown (members members' : List (String × Value)) : Prop :=
  (known members).Perm (known members')

theorem SameKnown.mem_iff {value : Value} (h : SameKnown members members')
    (isKnown : name ∈ names) : (name, value) ∈ members ↔ (name, value) ∈ members' := by
  rw [← mem_known_iff isKnown, List.Perm.mem_iff h, mem_known_iff isKnown]

theorem SameKnown.count_eq (h : SameKnown members members') (isKnown : name ∈ names) :
    (members.map Prod.fst).count name = (members'.map Prod.fst).count name := by
  rw [← count_known members isKnown, ← count_known members' isKnown]
  exact (List.Perm.map Prod.fst h).count_eq name

theorem Admissible.congr (h : SameKnown members members') (admissible : Admissible members) :
    Admissible members' := by
  have isKnown {name : String} (mem : name ∈ pauseNames) : name ∈ names :=
    List.mem_cons_of_mem _ (List.mem_cons_of_mem _ mem)
  constructor
  · intro name mem
    rw [← h.count_eq mem]
    exact admissible.once name mem
  · intro value present
    exact admissible.client value ((h.mem_iff (by decide)).mpr present)
  · intro value present
    exact admissible.attempts value ((h.mem_iff (by decide)).mpr present)
  · intro name mem value present
    exact admissible.pauses name mem value ((h.mem_iff (isKnown mem)).mpr present)

theorem Decides.congr {α : Type} {spell : α → Value} {usual meant : α}
    (h : SameKnown members members') (isKnown : name ∈ names)
    (decides : Decides members name spell usual meant) :
    Decides members' name spell usual meant := by
  constructor
  · intro value present
    exact decides.present value ((h.mem_iff isKnown).mpr present)
  · intro absent
    exact decides.absent fun value present => absent value ((h.mem_iff isKnown).mp present)

theorem DecidesPause.congr {usual : UInt64} {pause : Duration} (h : SameKnown members members')
    (isKnown : name ∈ names) (decides : DecidesPause members name usual pause) :
    DecidesPause members' name usual pause := by
  obtain ⟨millis, isPause, decides⟩ := decides
  exact ⟨millis, isPause, decides.congr h isKnown⟩

theorem IsSetBy.congr (h : SameKnown members members') (isSet : IsSetBy members config) :
    IsSetBy members' config where
  client := isSet.client.congr h (by decide)
  attempts := isSet.attempts.congr h (by decide)
  statusRetryDelay := isSet.statusRetryDelay.congr h (by decide)
  gainLeadershipBackoff := isSet.gainLeadershipBackoff.congr h (by decide)
  constructionBackoff := isSet.constructionBackoff.congr h (by decide)

/-- Objects with the same known members are read as the same configuration. -/
theorem ofJson_congr (h : IsObject members text) (h' : IsObject members' text')
    (same : SameKnown members members') : (ofJson text).toOption = (ofJson text').toOption := by
  have forward {members members' : List (String × Value)} {text text' : List Char} {config : Config}
      (h : IsObject members text) (h' : IsObject members' text') (same : SameKnown members members')
      (read : ofJson text = .ok config) : ofJson text' = .ok config := by
    obtain ⟨admissible, isSet⟩ := (ofJson_eq_ok_iff h).mp read
    exact (ofJson_eq_ok_iff h').mpr ⟨admissible.congr same, isSet.congr same⟩
  cases read : ofJson text with
  | ok config => rw [forward h h' same read]
  | error fault =>
    cases read' : ofJson text' with
    | ok config =>
      cases read.symm.trans (forward h' h (List.Perm.symm same) read')
    | error fault' => rfl

/-- Configurations from parts of a record. An object whose members say clearly what is meant is
read: each member with a known name sets its own field, and a field without a member has its usual
value. An object whose members do not is refused. Nothing else matters than which members with
known names there are: neither their order nor other members nor the way in which they are
spelled. -/
theorem ofJson_of_isObject (h : IsObject members text) :
    (Admissible members → ∃ config, ofJson text = .ok config ∧ IsSetBy members config) ∧
      (¬ Admissible members → ∃ fault, ofJson text = .error fault) ∧
      ∀ members' text', IsObject members' text' → (known members).Perm (known members') →
        (ofJson text').toOption = (ofJson text).toOption := by
  refine ⟨?_, ?_, ?_⟩
  · intro admissible
    have readable := Json.exists_readRecord_iff distinct_names rfl h
    obtain ⟨found, record⟩ := readable.mpr (admissible_iff.mp admissible)
    have read : ofJson text = .ok (ofFound found) := by
      rw [ofJson, record]
      rfl
    exact ⟨ofFound found, read, ((ofJson_eq_ok_iff h).mp read).2⟩
  · intro inadmissible
    cases read : ofJson text with
    | ok config => exact absurd ((ofJson_eq_ok_iff h).mp read).1 inadmissible
    | error fault => exact ⟨fault, rfl⟩
  · intro members' text' h' same
    exact (ofJson_congr h h' same).symm

/-- The client, its name written with an escape, and a list that nobody asked for. -/
theorem ofJson_of_isObject_escaped :
    ∃ config, ofJson "\x7b\"cl\\u0069ent\": \"a\",\"x\":[\x7b\x7d]\x7d".toList = .ok config ∧
      config.client = "a" := by
  have digit (n : Nat) (lt : n < 16) := Json.isHexDigit_digitChar lt
  have i : Json.SpellsChar 'i' ['\\', 'u', '0', '0', '6', '9'] :=
    .unit (.intro (digit 0 (by decide)) (digit 0 (by decide)) (digit 6 (by decide))
      (digit 9 (by decide)))
  have content : Json.SpellsContent "client".toList "cl\\u0069ent".toList :=
    .cons (Json.spellsChar_writeChar 'c') (.cons (Json.spellsChar_writeChar 'l')
      (.cons i (Json.spellsContent_written ['e', 'n', 't'])))
  have blank : Json.IsBlank [' '] := List.forall_mem_singleton.mpr rfl
  have isObject : IsObject [("client", .text "a"), ("x", .list [.object []])]
      "\x7b\"cl\\u0069ent\": \"a\",\"x\":[\x7b\x7d]\x7d".toList := by
    have client := Json.Spells.member Json.isBlank_nil ⟨_, content, rfl⟩ Json.isBlank_nil
      (.element blank (.text (Json.spellsString_writeString "a")) Json.isBlank_nil)
    have extra := Json.Spells.bareMember (Json.spellsString_writeString "x")
      (.list (.oneElement (.bare (.object (.noMembers Json.isBlank_nil)))))
    exact .intro Json.isBlank_nil (.moreMembers client (.oneMember extra)) Json.isBlank_nil
  have admissible : Admissible [("client", .text "a"), ("x", .list [.object []])] := by
    refine ⟨by decide, ?_, ?_, ?_⟩ <;> simp [pauseNames]
  obtain ⟨config, read, isSet⟩ := (ofJson_of_isObject isObject).1 admissible
  have client := isSet.client.present _ List.mem_cons_self
  exact ⟨config, read, (Value.text.inj client).symm⟩

end Tenure.Config
