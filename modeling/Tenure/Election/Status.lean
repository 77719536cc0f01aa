/-!
# Answers to a leadership check

Asked whether a token still leads, an election answers that a majority confirmed it, that a
majority rejected it, or that no majority could be reached. Only the first two settle anything.

## Main definitions

* `LeadingStatus` — the three answers
* `LeadingStatus.isConclusive` — whether an answer settles the matter
* `LeadingStatus.wire`, `LeadingStatus.ofWire?` — the names used between processes
-/

namespace Tenure

/-- What an election says of a token, `StillLeadingStatus`. -/
inductive LeadingStatus
  | leading
  | notLeading
  | noQuorum
  deriving DecidableEq, Repr, Inhabited

namespace LeadingStatus

/-- An answer that need not be asked for again, `StillLeadingStatus::is_conclusive`. -/
def isConclusive (status : LeadingStatus) : Bool := status != .noQuorum

/-- The name of an answer between processes. -/
def wire : LeadingStatus → String
  | leading => "LEADING"
  | notLeading => "NOT_LEADING"
  | noQuorum => "NO_QUORUM"

/-- The answer that goes by a name. -/
def ofWire? (name : String) : Option LeadingStatus :=
  if name = "LEADING" then some leading
  else if name = "NOT_LEADING" then some notLeading
  else if name = "NO_QUORUM" then some noQuorum
  else none

/-- The name of an answer for people who look for faults. -/
def quoted : LeadingStatus → String
  | leading => "Leading"
  | notLeading => "NotLeading"
  | noQuorum => "NoQuorum"

@[simp] theorem ofWire?_wire (status : LeadingStatus) : ofWire? status.wire = some status := by
  cases status <;> rfl

end LeadingStatus

end Tenure
