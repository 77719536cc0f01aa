import Tenure.Proofs.Host.Grammar

/-!
# Hosts and ports, written and read back

The written form of a host and a port puts brackets around a host that holds a colon, and the reader
drops all brackets that stand around a host. A host that has brackets of its own at its ends is
therefore not read back as it was, and every other one is; those that come from the reader are of
this kind.

## Main definitions

* `HostAndPort.spelling` — how a host and a port are written

## Main results

* `bare_of_parse` — what is read has no brackets at its ends
* `parse_shown_iff` — which hosts and ports are read back as they were
-/

namespace Tenure.HostAndPort

variable {text : String} {peer : HostAndPort}

/-- What is read is a host without brackets at its ends. -/
theorem bare_of_parse (read : parse text = .ok peer) : Bare peer.host.toList := by
  obtain ⟨spelling, -, rfl⟩ := parse_eq_ok_iff.mp read
  rw [Spelling.peer, String.toList_ofList]
  exact spelling.bare

/-- How a host and a port are written: with a pair of brackets if the host holds a colon, and with
none otherwise. -/
def spelling (peer : HostAndPort) (bare : Bare peer.host.toList) : Spelling where
  opening := if ':' ∈ peer.host.toList then 1 else 0
  host := peer.host.toList
  closing := if ':' ∈ peer.host.toList then 1 else 0
  number := Text.decimal peer.port.toNat
  port := peer.port
  bare := bare
  numeral := numeral_decimal peer.port.toNat

theorem chars_spelling (bare : Bare peer.host.toList) :
    (peer.spelling bare).chars = peer.shown.toList := by
  rw [shown, String.toList_ofList, chars, Spelling.chars, spelling]
  by_cases colon : ':' ∈ peer.host.toList
  · simp [colon]
  · simp [colon]

theorem peer_spelling (bare : Bare peer.host.toList) : (peer.spelling bare).peer = peer := by
  rw [Spelling.peer, spelling, String.ofList_toList]

/-- A host without brackets at its ends is read back as it was. -/
theorem parse_shown_of_bare (bare : Bare peer.host.toList) : parse peer.shown = .ok peer := by
  rw [parse_of_spelling (peer.spelling bare) (chars_spelling bare), peer_spelling]

/-- Writing and reading back. A host and a port are read back from their written form as they were
exactly if the host is bare: it is not empty, does not begin with an opening bracket and does not
end with a closing one. Whatever the reader comes to is of this kind, so that to write it and to
read that again changes nothing. -/
theorem parse_shown_iff :
    (∀ (host : String) (port : UInt16),
      parse (shown ⟨host, port⟩) = .ok ⟨host, port⟩ ↔ Bare host.toList) ∧
    ∀ (text : String) (peer : HostAndPort), parse text = .ok peer →
      Bare peer.host.toList ∧ parse peer.shown = .ok peer := by
  refine ⟨fun host port => ⟨fun read => ?_, fun bare => ?_⟩, fun text peer read => ⟨?_, ?_⟩⟩
  · exact bare_of_parse read
  · exact parse_shown_of_bare bare
  · exact bare_of_parse read
  · exact parse_shown_of_bare (bare_of_parse read)

/-- Brackets inside a host that holds a colon are kept; one in front of it is lost. -/
example :
    parse (shown ⟨"]:[", 80⟩) = .ok ⟨"]:[", 80⟩ ∧ parse (shown ⟨"[:", 80⟩) = .ok ⟨":", 80⟩ := by
  decide +kernel

end Tenure.HostAndPort
