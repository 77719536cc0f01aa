import Tenure.Host
import Tenure.Json.Record

/-!
# Hosts and ports between processes

A host and port as a record of two fields, both of them required.

## Main definitions

* `HostAndPort.toJson`, `HostAndPort.ofJson` — the record, written and read
-/

namespace Tenure.HostAndPort

/-- The record of a host and port. -/
def schema : Json.Schema where
  fields := [⟨"host", .text⟩, ⟨"port", .natural UInt16.size⟩]
  required := true

/-- Reads the record of a host and port. -/
def ofJson (text : List Char) : Except Json.Fault HostAndPort :=
  match Json.readRecord schema text with
  | .ok [some (.text host), some (.natural port)] => .ok ⟨host, UInt16.ofNat port⟩
  | .ok _ => .error .mismatch
  | .error fault => .error fault

/-- Writes the record of a host and port. -/
def toJson (peer : HostAndPort) : List Char :=
  '\x7b' :: Json.writeString "host" ++ ':' :: Json.writeString peer.host
    ++ ',' :: Json.writeString "port" ++ ':' :: Text.decimal peer.port.toNat ++ ['\x7d']

end Tenure.HostAndPort
