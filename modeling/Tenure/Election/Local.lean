import Tenure.Election.Status
import Tenure.Election.Token
import Tenure.Host

/-!
# An election inside one process

Leadership is granted and revoked by whoever runs the process. The election remembers the token
it granted last, unless that was revoked; it can be told to give one answer to every check, as
though its peers were cut off, and it can be told whom to name as a likely leader.

A check is answered when it is finished and not when it is begun: the answer depends on what is
held, and on what the election was told to answer, at that later moment. A wait for leadership
is over at the first moment it is looked at while a token is held.

## Main definitions

* `LocalElection` — the state of the election
* `LocalElection.grant`, `LocalElection.revoke` — winning and losing a term
* `LocalElection.answer` — what a check of a token that finishes now is told
* `LocalElection.beginCheck`, `LocalElection.beginWait` — what is counted
-/

namespace Tenure

/-- An election that one process decides by itself, `LocalElection`. Its counters have 64 bits; they
read what is counted here as long as less than `2 ^ 64` is done to the election
(`ElectionWatch.counters_exact`). -/
structure LocalElection where
  /-- The mint that strikes this election's tokens. -/
  mint : Mint := {}
  /-- How many terms have been granted. -/
  granted : Nat := 0
  /-- The token of the term held now. -/
  held : Option Token := none
  /-- The answer that every check is given, whatever is held. -/
  forced : Option LeadingStatus := none
  /-- The peer named as a likely leader. -/
  hint : Option HostAndPort := none
  /-- How many checks have been begun. -/
  checks : Nat := 0
  /-- How many waits have been begun. -/
  waits : Nat := 0
  deriving DecidableEq, Repr, Inhabited

namespace LocalElection

/-- Wins the next term: term numbers count up from one, and the token is new:
`LocalElection::grant`. -/
def grant (election : LocalElection) : Token × LocalElection :=
  let (token, mint) := election.mint.strike (election.granted + 1)
  (token, { election with mint, granted := election.granted + 1, held := some token })

/-- Loses the term that is held, if one is: `LocalElection::revoke`. -/
def revoke (election : LocalElection) : LocalElection := { election with held := none }

/-- Strikes a token that no election granted, with any term number, as `LeadershipToken::new` does.
-/
def forge (election : LocalElection) (term : Nat) : Token × LocalElection :=
  let (token, mint) := election.mint.strike term
  (token, { election with mint })

/-- Sets the answer that every check is given; without one, checks are answered truthfully:
`LocalElection::set_status_override`. -/
def force (election : LocalElection) (status : Option LeadingStatus) : LocalElection :=
  { election with forced := status }

/-- Sets the peer named as a likely leader, `LocalElection::set_leader_hint`. -/
def point (election : LocalElection) (hint : Option HostAndPort) : LocalElection :=
  { election with hint }

/-- Whether a term is held, `LocalElection::is_leading`. -/
def isLeading (election : LocalElection) : Bool := election.held.isSome

/-- Counts a check that begins: the first step of `LocalElection::is_still_leading`. -/
def beginCheck (election : LocalElection) : LocalElection :=
  { election with checks := election.checks + 1 }

/-- What a check of a token is told if it is finished now: the rest of
`LocalElection::is_still_leading`. -/
def answer (election : LocalElection) (token : Token) : LeadingStatus :=
  match election.forced with
  | some status => status
  | none => if election.held = some token then .leading else .notLeading

/-- Counts a wait that begins: the first step of `LocalElection::block_on_becoming_leader`. -/
def beginWait (election : LocalElection) : LocalElection :=
  { election with waits := election.waits + 1 }

end LocalElection

end Tenure
