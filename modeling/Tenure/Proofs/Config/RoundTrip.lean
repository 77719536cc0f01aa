import Tenure.Proofs.Config.Partial

/-!
# Configurations, written and read back

A pause is written in whole milliseconds, as far as 64 bits go, and read back as these milliseconds.
What is written is therefore read back as it was exactly if nothing of it is lost: every pause is a
whole number of milliseconds that 64 bits hold. What is lost is lost once, and to write what was
read gives the same text again. The client is read back as it was, whatever characters it has, and
so is the number of checks.

## Main definitions

* `Duration.inMillis`, `Config.inMillis` — what is left of a span and of a configuration
* `Config.members` — the members that are written

## Main results

* `Config.isObject_toJson` — what is written is an object with these members
* `Config.ofJson_toJson` — what is read back
-/

namespace Tenure

/-! ## Spans -/

namespace Duration

/-- The whole milliseconds of a span, or the most of them that 64 bits hold. -/
def inMillis (span : Duration) : Duration where
  nanos := min (span.nanos / 1000000) (2 ^ 64 - 1) * 1000000
  inRange := by simp only [UInt64.size]; omega

variable {span : Duration}

theorem toNat_wireMillis (span : Duration) :
    span.wireMillis.toNat = min (span.nanos / 1000000) (2 ^ 64 - 1) := by
  have below : min span.millis (UInt64.size - 1) < UInt64.size := by
    simp only [UInt64.size]
    omega
  rw [wireMillis, UInt64.toNat_ofNat_of_lt' below]
  rfl

theorem ofMillis_wireMillis (span : Duration) : ofMillis span.wireMillis = span.inMillis := by
  simp only [ofMillis, inMillis, toNat_wireMillis]

/-- Nothing of a span is lost exactly if it is a whole number of milliseconds that 64 bits hold. -/
theorem inMillis_eq_self_iff :
    span.inMillis = span ↔ 1000000 ∣ span.nanos ∧ span.nanos ≤ (2 ^ 64 - 1) * 1000000 := by
  cases span with
  | mk nanos inRange =>
    simp only [inMillis, mk.injEq]
    omega

/-- What is lost is lost once. -/
theorem wireMillis_inMillis (span : Duration) : span.inMillis.wireMillis = span.wireMillis := by
  apply UInt64.toNat_inj.mp
  rw [toNat_wireMillis, toNat_wireMillis, inMillis]
  simp only
  omega

end Duration

/-! ## Configurations -/

namespace Config

open Json (Value IsObject Spells)

/-- What is left of a configuration that is written and read back. -/
def inMillis (config : Config) : Config :=
  { config with
    statusRetryDelay := config.statusRetryDelay.inMillis
    gainLeadershipBackoff := config.gainLeadershipBackoff.inMillis
    constructionBackoff := config.constructionBackoff.inMillis }

/-- The member that a pause is written as. -/
def pauseMember (name : String) (pause : Duration) : String × Value :=
  (name, .natural pause.wireMillis.toNat)

/-- The members that a configuration is written as. -/
def members (config : Config) : List (String × Value) :=
  [("client", .text config.client),
    ("max_no_quorum_attempts", .natural config.maxNoQuorumAttempts.toNat),
    pauseMember "status_retry_delay_ms" config.statusRetryDelay,
    pauseMember "gain_leadership_backoff_ms" config.gainLeadershipBackoff,
    pauseMember "construction_backoff_ms" config.constructionBackoff]

variable {config : Config}

theorem spells_member {name : String} {value : Value} {text : List Char}
    (h : Spells (.value value) text) : Spells (.member (name, value)) (member name text) :=
  .bareMember (Json.spellsString_writeString name) h

theorem spells_natural (n : Nat) : Spells (.value (.natural n)) (Text.decimal n) :=
  .number (Json.isNumber_decimal n)

theorem spells_pauseMember (name : String) (pause : Duration) :
    Spells (.member (pauseMember name pause)) (member name (pauseDigits pause)) :=
  spells_member (spells_natural _)

/-- What is written is an object with these members and nothing else. -/
theorem isObject_toJson (config : Config) : IsObject config.members config.toJson := by
  have client : Spells (.member ("client", .text config.client)) _ :=
    spells_member (.text (Json.spellsString_writeString config.client))
  have attempts : Spells (.member ("max_no_quorum_attempts", _)) _ :=
    spells_member (spells_natural config.maxNoQuorumAttempts.toNat)
  have delay := spells_pauseMember "status_retry_delay_ms" config.statusRetryDelay
  have backoff := spells_pauseMember "gain_leadership_backoff_ms" config.gainLeadershipBackoff
  have construction := spells_pauseMember "construction_backoff_ms" config.constructionBackoff
  have inside := Spells.moreMembers client (.moreMembers attempts (.moreMembers delay
    (.moreMembers backoff (.oneMember construction))))
  have object := IsObject.intro Json.isBlank_nil inside Json.isBlank_nil
  simpa [toJson, members] using object

theorem map_fst_members (config : Config) : config.members.map Prod.fst = names := rfl

/-- What is written says clearly what is meant. -/
theorem admissible_members (config : Config) : Admissible config.members := by
  have attempts := config.maxNoQuorumAttempts.toNat_lt
  constructor
  · intro name _
    rw [map_fst_members]
    exact List.nodup_iff_count_le_one.mp distinct_names name
  · intro value present
    exact ⟨config.client, by simpa [members, pauseMember] using present⟩
  · intro value present
    exact ⟨_, attempts, by simpa [members, pauseMember] using present⟩
  · intro name known value present
    have isPause : ∃ pause : Duration, value = .natural pause.wireMillis.toNat := by
      simp only [pauseNames, List.mem_cons, List.not_mem_nil, or_false] at known
      rcases known with rfl | rfl | rfl
      · exact ⟨config.statusRetryDelay, by simpa [members, pauseMember] using present⟩
      · exact ⟨config.gainLeadershipBackoff, by simpa [members, pauseMember] using present⟩
      · exact ⟨config.constructionBackoff, by simpa [members, pauseMember] using present⟩
    obtain ⟨pause, rfl⟩ := isPause
    exact ⟨_, pause.wireMillis.toNat_lt, rfl⟩

/-- A name that is written decides what is meant. -/
theorem decides_of_mem {α : Type} {name : String} {spell : α → Value} {usual meant : α}
    (mem : (name, spell meant) ∈ config.members) :
    Decides config.members name spell usual meant := by
  have once : (config.members.map Prod.fst).count name = 1 := by
    rw [map_fst_members]
    exact List.count_eq_one_of_mem distinct_names (map_fst_members config ▸ List.mem_map_of_mem mem)
  refine ⟨?_, fun absent => absurd mem (absent _)⟩
  intro value present
  exact Json.eq_of_count_eq_one once present mem

theorem decidesPause_of_mem {name : String} {usual : UInt64} {pause : Duration}
    (mem : pauseMember name pause ∈ config.members) :
    DecidesPause config.members name usual pause.inMillis :=
  ⟨pause.wireMillis, pause.ofMillis_wireMillis.symm, decides_of_mem mem⟩

theorem isSetBy_members (config : Config) : IsSetBy config.members config.inMillis where
  client := decides_of_mem (by simp [members, inMillis])
  attempts := decides_of_mem (by simp [members, inMillis])
  statusRetryDelay := decidesPause_of_mem (by simp [members])
  gainLeadershipBackoff := decidesPause_of_mem (by simp [members])
  constructionBackoff := decidesPause_of_mem (by simp [members])

theorem inMillis_eq_self_iff :
    config.inMillis = config ↔
      config.statusRetryDelay.inMillis = config.statusRetryDelay ∧
      config.gainLeadershipBackoff.inMillis = config.gainLeadershipBackoff ∧
      config.constructionBackoff.inMillis = config.constructionBackoff := by
  cases config
  simp [inMillis]

theorem toJson_inMillis (config : Config) : config.inMillis.toJson = config.toJson := by
  simp only [toJson, inMillis, pauseDigits, Duration.wireMillis_inMillis]

/-- Writing and reading back. Every configuration is read back from what is written, with its pauses
in whole milliseconds as far as 64 bits go. So it is read back as it was exactly if its pauses are
whole milliseconds that 64 bits hold, and to write what was read gives the same text again. -/
theorem ofJson_toJson (config : Config) :
    ofJson config.toJson = .ok config.inMillis ∧
      (ofJson config.toJson = .ok config ↔
        ∀ pause ∈ [config.statusRetryDelay, config.gainLeadershipBackoff,
            config.constructionBackoff],
          1000000 ∣ pause.nanos ∧ pause.nanos ≤ (2 ^ 64 - 1) * 1000000) ∧
      config.inMillis.toJson = config.toJson := by
  have read : ofJson config.toJson = .ok config.inMillis :=
    (ofJson_eq_ok_iff config.isObject_toJson).mpr
      ⟨config.admissible_members, config.isSetBy_members⟩
  refine ⟨read, ?_, config.toJson_inMillis⟩
  rw [read, Except.ok.injEq, inMillis_eq_self_iff]
  simp only [Duration.inMillis_eq_self_iff, List.forall_mem_cons, List.not_mem_nil,
    false_implies, implies_true, and_true]

end Config

end Tenure
