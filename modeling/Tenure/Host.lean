import Tenure.Text.Decimal
import Tenure.Text.Quoted

/-!
# Hosts and ports

Where a peer can be reached: the name or address of a host and a port. A host that holds a
colon, as the numeric addresses of the newer protocol do, stands in square brackets when it is
written before its port, and brackets around a host are dropped when it is read.

## Main definitions

* `HostAndPort` — a host and a port
* `HostAndPort.shown` — the written form
* `HostAndPort.parse` — the reader; `HostAndPort.Fault` is what can be wrong with a text
* `HostAndPort.quoted` — the form for people who look for faults
-/

namespace Tenure

/-- A peer's host, by name or address, and its port. -/
structure HostAndPort where
  host : String
  port : UInt16
  deriving DecidableEq, Repr, Inhabited

namespace HostAndPort

/-- The characters of the written form: brackets are needed only around a host with a colon. -/
def chars (peer : HostAndPort) : List Char :=
  let host := peer.host.toList
  let port := Text.decimal peer.port.toNat
  if ':' ∈ host then '[' :: host ++ [']', ':'] ++ port else host ++ ':' :: port

/-- The written form of a host and port, the display of `HostAndPort`. -/
def shown (peer : HostAndPort) : String := String.ofList peer.chars

/-- What is wrong with a text that names no host and port. -/
inductive Fault
  | noColon (text : String)
  | noHost (text : String)
  | badPort (port : String)
  deriving DecidableEq, Repr

/-- What a reader is told about a fault. -/
def Fault.message : Fault → String
  | .noColon text => "expected 'host:port', got '" ++ text ++ "'"
  | .noHost text => "empty host in '" ++ text ++ "'"
  | .badPort port => "invalid port: '" ++ port ++ "'"

/-- The text before the last colon and the text after it, if there is a colon. -/
def splitAtLastColon (text : List Char) : Option (List Char × List Char) :=
  match text with
  | [] => none
  | c :: rest =>
    match splitAtLastColon rest with
    | some (host, port) => some (c :: host, port)
    | none => if c = ':' then some ([], rest) else none

/-- A host without the opening brackets before it and the closing brackets behind it. -/
def trimBrackets (host : List Char) : List Char :=
  ((host.dropWhile (· = '[')).reverse.dropWhile (· = ']')).reverse

/-- A port number: decimal digits, with or without a plus sign before them. -/
def parsePort (text : List Char) : Option UInt16 :=
  let digits := match text with
    | '+' :: rest => rest
    | _ => text
  match Text.parseDecimal digits with
  | some n => if n < 65536 then some (UInt16.ofNat n) else none
  | none => none

/-- Reads a host and a port as `HostAndPort::from_str` does, the first thing wrong deciding the
fault: no colon at all, nothing but brackets before the last one, something other than a port behind
it. -/
def parse (text : String) : Except Fault HostAndPort :=
  match splitAtLastColon text.toList with
  | none => .error (.noColon text)
  | some (before, after) =>
    let host := trimBrackets before
    if host.isEmpty then .error (.noHost text)
    else
      match parsePort after with
      | some port => .ok ⟨String.ofList host, port⟩
      | none => .error (.badPort (String.ofList after))

/-- The form for people who look for faults, with the host in quotes. -/
def quoted (peer : HostAndPort) : String :=
  "HostAndPort \x7b host: " ++ Text.quoted peer.host ++ ", port: "
    ++ String.ofList (Text.decimal peer.port.toNat) ++ " \x7d"

/-- The quoted form of a host and port that may be missing. -/
def quotedOption : Option HostAndPort → String
  | none => "None"
  | some peer => "Some(" ++ peer.quoted ++ ")"

end HostAndPort

end Tenure
