import Tenure.Config
import Tenure.Proxy.Concourse
import Tenure.Retry.Jitter

/-!
# The trail of an acquisition

An acquisition waits for leadership, has delegates built, sleeps, reports, and brings a term into
service; that is its trail. It begins with one party to the proxy, the first one or a call that has
ended a term, and may go on with another: what is handed to the acquisition thread joins the proxy
as a party of its own. The trail follows the acquisition from the one to the other, in whatever
order its steps come among those of everyone else.

## Main definitions

* `Config.profile` — what is fixed for a proxy with a configuration
* `Acquisition.pause?` — how long an acquisition sleeps
* `Acquisition.Act`, `Acquisition.acts` — what can be seen of a step of an acquisition
* `Proxy.Trail`, `Proxy.trail` — where an acquisition is, and what could be seen of it so far
-/

namespace Tenure

variable {α : Type}

/-- What is fixed for a proxy with a configuration that a shard serves. -/
def Config.profile (config : Config) (shard : String) : Profile :=
  ⟨config.client, shard, config.maxNoQuorumAttempts⟩

namespace Acquisition

/-- What can be seen of an acquisition. -/
inductive Act
  /-- It begins to wait for leadership. -/
  | waits
  /-- It has a delegate built. -/
  | builds (site : Site)
  /-- It has slept so long. -/
  | sleeps (span : Duration)
  | reports (notice : Notice)
  /-- It brings a term into service. -/
  | serves (term : Term)
  deriving DecidableEq, Repr

/-- What an acquisition begins with its next step. -/
def begins : Acquisition → List Act
  | wait _ => [.waits]
  | build site .. => [.builds site]
  | _ => []

/-- How long an acquisition sleeps, in `ProxyInner::gain_leadership_with_retry` after a failed wait
and in `ProxyInner::build_delegate` after a failed construction. -/
def pause? (config : Config) : Acquisition → Option Duration
  | gainPause _ => some config.gainLeadershipBackoff
  | buildPause _ failures => jittered config.constructionBackoff failures
  | _ => none

/-- What can be seen of a step of an acquisition that finds some grounds and leaves others. -/
def acts (config : Config) (grounds left : Grounds) (acquisition : Acquisition) : List Act :=
  acquisition.begins ++ (acquisition.pause? config).toList.map .sleeps ++
    (if left.register.current = grounds.register.current then []
      else left.register.current.toList.map .serves) ++
    (left.notices.drop grounds.notices.length).map .reports

end Acquisition

namespace Proxy

/-- The acquisition that the party at a place carries on. -/
def acquisition? (proxy : Proxy α) (i : Nat) : Option Acquisition :=
  proxy.parties[i]?.bind Party.acquisition?

/-- Where an acquisition is, and what could be seen of it so far. -/
structure Trail where
  /-- The place of the party that it is with; none once it is over. -/
  place : Option Nat
  acts : List Acquisition.Act := []
  deriving DecidableEq

/-- The place of an acquisition after a step that made it another one and handed over some work,
which joins the proxy as the party at a place. -/
def Trail.onward (place joins : Nat) (next : Acquisition) (task : Option Acquisition) :
    Option Nat :=
  match task, next with
  | some _, _ => some joins
  | none, .finished => none
  | none, _ => some place

/-- The trail of an acquisition after a move. -/
def Trail.step (config : Config) (proxy : Proxy α) (move : Move α) (trail : Trail) : Trail :=
  match move with
  | .proceed i answers =>
    match proxy.acquisition? i with
    | some acquisition =>
      if trail.place = some i then
        let (next, left, task) := acquisition.proceed config.client proxy.toGrounds answers
        { place := onward i proxy.parties.length next task
          acts := trail.acts ++ acquisition.acts config proxy.toGrounds left }
      else trail
    | none => trail
  | _ => trail

/-- The trail of the acquisition that a party carries on at some moment, so many moves later. -/
def trail (config : Config) (shard : String) (schedule : Nat → Move α) (i m : Nat) : Nat → Trail
  | 0 => { place := some i }
  | n + 1 => (trail config shard schedule i m n).step config
      (after (config.profile shard) schedule (m + n)) (schedule (m + n))

end Proxy

end Tenure
