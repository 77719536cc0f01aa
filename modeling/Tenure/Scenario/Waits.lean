import Tenure.Election.Channel
import Tenure.Failure
import Tenure.Scenario.Elections

/-!
# Waits for leadership, and the channel behind them

A local election keeps the token that is held in a channel. Whoever waits for leadership reads this
channel: a wait counts itself when it is first looked at, joins the channel, and is over when its
reader looks while a token is held. Waits are made, looked at and dropped at any time between the
grants and the revocations.

`ElectionWatch` says of the same steps what comes of them without any channel, as though every look
at a wait were a look at the token.

## Main definitions

* `ChannelElection` — an election, its channel, and the waits that are open
* `ChannelElection.Move`, `ChannelElection.step` — one move and what it answers
* `ChannelElection.since`, `ChannelElection.answer` — what a history leads to, and what the next
  move answers
-/

namespace Tenure

namespace ChannelElection

/-- One thing done to an election or to a wait. -/
inductive Move (ι : Type)
  | grant
  | revoke
  | make (id : ι)
  | look (id : ι)
  | drop (id : ι)
  deriving DecidableEq, Repr

variable {ι : Type}

/-- The wait that something is done to. -/
def Move.wait? : Move ι → Option ι
  | grant | revoke => none
  | make id | look id | drop id => some id

/-- The same as a step of an election under observation. -/
def Move.step : Move ι → ElectionWatch.Step ι
  | grant => .grant
  | revoke => .revoke
  | make id => .makeWait id
  | look id => .lookAtWait id
  | drop id => .dropWait id

end ChannelElection

/-- A local election, `LocalElection`, the channel with the token that is held, and the waits that
are not over. -/
structure ChannelElection (σ ρ ι : Type) where
  mint : Mint := {}
  /-- How many terms have been granted. -/
  granted : Nat := 0
  /-- The channel with the token that is held. -/
  leader : σ
  /-- How many waits have begun. -/
  waits : Nat := 0
  openWaits : List (ι × Channel.Wait ρ) := []

namespace ChannelElection

open ElectionWatch (Reply)

variable {σ ρ ι : Type} (channel : Channel σ ρ (Option Token))

/-- The election, its token read off the channel. -/
def toLocal (election : ChannelElection σ ρ ι) : LocalElection where
  mint := election.mint
  granted := election.granted
  held := channel.latest election.leader
  waits := election.waits

/-- An election that has not been won yet. -/
def opened : ChannelElection σ ρ ι := { leader := channel.opened none }

/-- Wins the next term, `LocalElection::grant`: the new token is sent to all who wait. -/
def grant (election : ChannelElection σ ρ ι) : Token × ChannelElection σ ρ ι :=
  let (token, mint) := election.mint.strike (election.granted + 1)
  (token, { election with
    mint, granted := election.granted + 1, leader := channel.send election.leader (some token) })

/-- Loses the term, `LocalElection::revoke`: this is sent as well, whether one was held or not. -/
def revoke (election : ChannelElection σ ρ ι) : ChannelElection σ ρ ι :=
  { election with leader := channel.send election.leader none }

/-- Counts a wait when it is first looked at. -/
def count (election : ChannelElection σ ρ ι) : Channel.Wait ρ → ChannelElection σ ρ ι
  | .made => { election with waits := election.waits + 1 }
  | .asleep _ => election

@[simp] theorem leader_count (election : ChannelElection σ ρ ι) (wait : Channel.Wait ρ) :
    (election.count wait).leader = election.leader := by
  cases wait <;> rfl

@[simp] theorem openWaits_count (election : ChannelElection σ ρ ι) (wait : Channel.Wait ρ) :
    (election.count wait).openWaits = election.openWaits := by
  cases wait <;> rfl

/-- What one who waits is told of the value that ended the wait. -/
def outcome : Option Token → Except ElectionFailure Reply
  | some token => .ok (.token token)
  | none => .error .interrupted

variable [BEq ι]

/-- Looks at a wait for a token, a poll of `LocalElection::block_on_becoming_leader`. -/
def look (election : ChannelElection σ ρ ι) (id : ι) :
    Except ElectionFailure Reply × ChannelElection σ ρ ι :=
  match election.openWaits.lookup id with
  | none => (.ok .unknown, election)
  | some wait =>
    let others := election.openWaits.filter (·.1 != id)
    match channel.look Option.isSome election.leader wait with
    | .ended value => (outcome value, { election.count wait with openWaits := others })
    | .asleep reader =>
      (.ok .pending, { election.count wait with openWaits := (id, .asleep reader) :: others })

/-- Makes one move. -/
def step (election : ChannelElection σ ρ ι) :
    Move ι → Except ElectionFailure Reply × ChannelElection σ ρ ι
  | .grant => (.ok (.token (election.grant channel).1), (election.grant channel).2)
  | .revoke => (.ok .nothing, election.revoke channel)
  | .make id =>
    (.ok .created,
      { election with openWaits := (id, .made) :: election.openWaits.filter (·.1 != id) })
  | .look id => election.look channel id
  | .drop id =>
    (.ok (.verdict (election.openWaits.lookup id).isSome),
      { election with openWaits := election.openWaits.filter (·.1 != id) })

/-- What a history leads to, the newest move first. -/
def since : List (Move ι) → ChannelElection σ ρ ι
  | [] => opened channel
  | move :: past => ((since past).step channel move).2

/-- What a move answers after a history. -/
def answer (past : List (Move ι)) (move : Move ι) : Except ElectionFailure Reply :=
  ((since channel past).step channel move).1

end ChannelElection

end Tenure
