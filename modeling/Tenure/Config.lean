import Tenure.Duration
import Tenure.Json.Record

/-!
# Configuration of a proxy

What a proxy can be told: the client it serves, how many checks it makes before an answer
without a majority counts as a no, and how long it pauses between checks, after a failed wait
and after a failed construction. Between processes a configuration is a record whose pauses are
whole milliseconds; what a record leaves out has its usual value.

## Main definitions

* `Config` — a configuration, `Config.forClient` the usual one for a client
* `Config.toJson`, `Config.ofJson` — the record, written and read
-/

namespace Tenure

/-- A configuration, `ProxyConfig`; its defaults are the usual values. -/
structure Config where
  /-- Who is served. -/
  client : String := "default"
  /-- How many checks are made before an answer without a majority counts as a no. -/
  maxNoQuorumAttempts : UInt32 := 10
  /-- The pause between two checks. -/
  statusRetryDelay : Duration := .ofMillis 700
  /-- The pause after a failed wait for leadership. -/
  gainLeadershipBackoff : Duration := .ofMillis 500
  /-- The pause after a failed construction. -/
  constructionBackoff : Duration := .ofMillis 50
  deriving DecidableEq, Repr

namespace Config

/-- The usual configuration for a client, `ProxyConfig::for_client`. -/
def forClient (client : String) : Config := { client }

/-- The record of a configuration: its fields in the order in which they are written. -/
def schema : Json.Schema where
  fields :=
    [⟨"client", .text⟩, ⟨"max_no_quorum_attempts", .natural UInt32.size⟩,
      ⟨"status_retry_delay_ms", .natural UInt64.size⟩,
      ⟨"gain_leadership_backoff_ms", .natural UInt64.size⟩,
      ⟨"construction_backoff_ms", .natural UInt64.size⟩]
  required := false

/-- A pause from its milliseconds, or its usual value, as `duration_ms::deserialize` reads it. -/
def pause (found : Option Json.Scalar) (usual : Duration) : Duration :=
  match found with
  | some (.natural n) => .ofMillis (UInt64.ofNat n)
  | _ => usual

/-- The configuration of which these fields were found. -/
def ofFound (found : Json.Found) : Config :=
  let field (place : Nat) : Option Json.Scalar := (found[place]?).join
  let usual : Config := {}
  { client := match field 0 with
      | some (.text client) => client
      | _ => usual.client
    maxNoQuorumAttempts := match field 1 with
      | some (.natural n) => UInt32.ofNat n
      | _ => usual.maxNoQuorumAttempts
    statusRetryDelay := pause (field 2) usual.statusRetryDelay
    gainLeadershipBackoff := pause (field 3) usual.gainLeadershipBackoff
    constructionBackoff := pause (field 4) usual.constructionBackoff }

/-- Reads the record of a configuration, `ProxyConfig::from_json`. -/
def ofJson (text : List Char) : Except Json.Fault Config :=
  (Json.readRecord schema text).map ofFound

/-- A field of a record behind its name. -/
def member (name : String) (value : List Char) : List Char :=
  Json.writeString name ++ ':' :: value

/-- The milliseconds of a pause, in digits. -/
def pauseDigits (pause : Duration) : List Char := Text.decimal pause.wireMillis.toNat

/-- Writes the record of a configuration. -/
def toJson (config : Config) : List Char :=
  '\x7b' :: member "client" (Json.writeString config.client)
    ++ ',' :: member "max_no_quorum_attempts" (Text.decimal config.maxNoQuorumAttempts.toNat)
    ++ ',' :: member "status_retry_delay_ms" (pauseDigits config.statusRetryDelay)
    ++ ',' :: member "gain_leadership_backoff_ms" (pauseDigits config.gainLeadershipBackoff)
    ++ ',' :: member "construction_backoff_ms" (pauseDigits config.constructionBackoff)
    ++ ['\x7d']

end Config

end Tenure
