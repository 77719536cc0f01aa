import Tenure.Election.Local

/-!
# An election under observation

Grants, revocations, checks and waits of a local election in any order, with checks and waits
that are begun at one step and finished, looked at or abandoned at a later one. A check that
has to travel first is answered when it is finished; one that has not is answered at once. A
wait that has been made but never looked at has not begun.

## Main definitions

* `ElectionWatch.Step` — what may be done
* `ElectionWatch.Watch` — the election with the checks and waits that are open
* `ElectionWatch.run` — the reports on a list of steps
-/

namespace Tenure.ElectionWatch

/-- One thing done to an election. Tokens are named by their place in the order of striking. -/
inductive Step (ι : Type)
  | grant
  | forge (term : Nat)
  | revoke
  | force (status : Option LeadingStatus)
  | point (hint : Option HostAndPort)
  | pinged
  | held
  | check (token : Nat)
  | beginCheck (id : ι) (token : Nat)
  | finishCheck (id : ι)
  | makeWait (id : ι)
  | lookAtWait (id : ι)
  | dropWait (id : ι)

/-- What a step answers. -/
inductive Reply
  | nothing
  | token (token : Token)
  | host (peer : HostAndPort)
  | status (status : LeadingStatus)
  | pending
  | created
  | unknown
  | verdict (existed : Bool)
  deriving DecidableEq, Repr

/-- What is seen after a step: its reply and the election's counts. -/
structure Report where
  reply : Reply
  leading : Bool
  checks : Nat
  waits : Nat
  deriving DecidableEq, Repr

/-- An election, whether its checks have to travel, the tokens struck so far in order, the
checks begun and not finished, and the waits made and not over: each with whether it has
begun. -/
structure Watch (ι : Type) where
  election : LocalElection := {}
  delayed : Bool := false
  tokens : List Token := []
  openChecks : List (ι × Token) := []
  openWaits : List (ι × Bool) := []

namespace Watch

variable {ι : Type} [BEq ι]

/-- Puts a newly struck token on record. -/
def record (watch : Watch ι) (struck : Token × LocalElection) : Reply × Watch ι :=
  (.token struck.1,
    { watch with election := struck.2, tokens := watch.tokens ++ [struck.1] })

/-- Looks at a wait: its first look begins it, and it is over if a token is held. -/
def lookAtWait (watch : Watch ι) (id : ι) : Reply × Watch ι :=
  match watch.openWaits.lookup id with
  | none => (.unknown, watch)
  | some begun =>
    let election := if begun then watch.election else watch.election.beginWait
    let others := watch.openWaits.filter (·.1 != id)
    match election.held with
    | some token => (.token token, { watch with election, openWaits := others })
    | none => (.pending, { watch with election, openWaits := (id, true) :: others })

/-- Carries out one step. -/
def step (watch : Watch ι) : Step ι → Reply × Watch ι
  | .grant => watch.record watch.election.grant
  | .forge term => watch.record (watch.election.forge term)
  | .revoke => (.nothing, { watch with election := watch.election.revoke })
  | .force status => (.nothing, { watch with election := watch.election.force status })
  | .point hint => (.nothing, { watch with election := watch.election.point hint })
  | .pinged =>
    (match watch.election.hint with | some peer => .host peer | none => .nothing, watch)
  | .held =>
    (match watch.election.held with | some token => .token token | none => .nothing, watch)
  | .check place =>
    match watch.tokens[place]? with
    | none => (.nothing, watch)
    | some token =>
      let election := watch.election.beginCheck
      (.status (election.answer token), { watch with election })
  | .beginCheck id place =>
    match watch.tokens[place]? with
    | none => (.nothing, watch)
    | some token =>
      let election := watch.election.beginCheck
      if watch.delayed then
        (.pending, { watch with
          election, openChecks := (id, token) :: watch.openChecks.filter (·.1 != id) })
      else (.status (election.answer token), { watch with election })
  | .finishCheck id =>
    match watch.openChecks.lookup id with
    | none => (.unknown, watch)
    | some token =>
      (.status (watch.election.answer token),
        { watch with openChecks := watch.openChecks.filter (·.1 != id) })
  | .makeWait id =>
    (.created,
      { watch with openWaits := (id, false) :: watch.openWaits.filter (·.1 != id) })
  | .lookAtWait id => watch.lookAtWait id
  | .dropWait id =>
    (.verdict (watch.openWaits.lookup id).isSome,
      { watch with openWaits := watch.openWaits.filter (·.1 != id) })

/-- What is seen of a watch after a step that answered so. -/
def report (watch : Watch ι) (reply : Reply) : Report :=
  ⟨reply, watch.election.isLeading, watch.election.checks, watch.election.waits⟩

/-- The reports on the steps, in order. -/
def run (watch : Watch ι) : List (Step ι) → List Report
  | [] => []
  | step :: rest =>
    let (reply, watch) := watch.step step
    watch.report reply :: watch.run rest

end Watch

/-- The reports on the steps from a new election, whose checks have to travel or not. -/
def run {ι : Type} [BEq ι] (delayed : Bool) (steps : List (Step ι)) : List Report :=
  Watch.run { delayed } steps

end Tenure.ElectionWatch
