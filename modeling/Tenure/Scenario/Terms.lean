import Tenure.Term.Course

/-!
# A term register under observation

Publications, endings and closings one after another on one register, with delegates that
return from their release cleanly, or with a failure, or close the register from inside it. Every
publication has a name; terms, tokens and delegates are known by the names they were published
under. A publication may carry the very token of an earlier one, refused or not.

## Main definitions

* `TermWatch.Step` — what may be done
* `TermWatch.Report` — what is seen afterwards
* `TermWatch.run` — the reports on a list of steps
-/

namespace Tenure.TermWatch

/-- One thing done to a register. -/
inductive Step (ι : Type)
  | publish (name : ι) (term : Nat) (tokenOf : Option ι) (conduct : Conduct)
  | isCurrent (name : ι)
  | invalidate (name : ι)
  | close
  | isClosed
  | tokenIs (name : ι)

/-- What a step answers. -/
inductive Reply
  | nothing
  | verdict (holds : Bool)
  | term (generation term : Nat)
  deriving DecidableEq, Repr

/-- What is seen after a step: its reply, the served term under the name it was published
under, the delegates released meanwhile and what was reported. -/
structure Report (ι : Type) where
  reply : Reply
  current : Option (ι × Term)
  closed : Bool
  released : List ι
  notices : List Notice

/-- A delegate that was handed over: the name of its publication, what it does when it is
released, and its token. -/
structure Delivery (ι : Type) where
  name : ι
  conduct : Conduct
  token : Token

/-- The register with its ledger and all that was handed over to it: deliveries in the order of
their delegates, terms by the name of their publication. -/
structure Watch (ι : Type) extends Ledger where
  mint : Mint := {}
  deliveries : List (Delivery ι) := []
  published : List (ι × Term) := []

namespace Watch

variable {ι : Type} [BEq ι]

/-- What was handed over with a delegate. -/
def delivery? (watch : Watch ι) (delegate : Nat) : Option (Delivery ι) :=
  watch.deliveries[delegate - 1]?

/-- Delegates behave as their deliveries say. -/
def surroundings : Surroundings (Watch ι) where
  release holding watch := (((watch.delivery? holding.delegate).map (·.conduct)).getD .clean, watch)
  closedInside watch := watch

/-- Runs an operation to its end. -/
def carryOut (watch : Watch ι) (operation : Operation) : Option Operation.Outcome × Watch ι :=
  let (outcome, ledger, watch) := operation.course surroundings watch.toLedger watch
  (outcome, { watch with toLedger := ledger })

/-- The token that was handed over under a name, the last one if there are several. -/
def tokenOf? (watch : Watch ι) (name : ι) : Option Token :=
  (watch.deliveries.reverse.find? (·.name == name)).map (·.token)

/-- The term that was published under a name. -/
def termOf? (watch : Watch ι) (name : ι) : Option Term := watch.published.lookup name

/-- Hands over a delegate and its token. -/
def publish (watch : Watch ι) (name : ι) (number : Nat) (source : Option ι)
    (conduct : Conduct) : Reply × Watch ι :=
  let (token, mint) := match source.bind watch.tokenOf? with
    | some token => (token, watch.mint)
    | none => watch.mint.strike number
  let delegate := watch.brought + 1
  let deliveries := watch.deliveries ++ [⟨name, conduct, token⟩]
  match { watch with mint, deliveries, brought := delegate }.carryOut
      (.publish ⟨token, delegate⟩) with
  | (some (.published (some term)), watch) =>
    (.term term.generation term.token.term,
      { watch with published := (name, term) :: watch.published })
  | (_, watch) => (.nothing, watch)

/-- Carries out one step. -/
def step (watch : Watch ι) : Step ι → Reply × Watch ι
  | .publish name number source conduct => watch.publish name number source conduct
  | .isCurrent name =>
    match watch.termOf? name with
    | some term => (.verdict (watch.register.serves term), watch)
    | none => (.nothing, watch)
  | .invalidate name =>
    match watch.termOf? name with
    | some term =>
      match watch.carryOut (.invalidate term) with
      | (some (.ended won), watch) => (.verdict won, watch)
      | (_, watch) => (.nothing, watch)
    | none => (.nothing, watch)
  | .close =>
    match watch.carryOut .shut with
    | (some (.closed first), watch) => (.verdict first, watch)
    | (_, watch) => (.nothing, watch)
  | .isClosed => (.verdict watch.register.closed, watch)
  | .tokenIs name =>
    let same := match watch.register.current, watch.tokenOf? name with
      | some term, some token => term.token == token
      | _, _ => false
    (.verdict same, watch)

/-- What is seen of a watch after a step that answered so, given how it was before the step. -/
def report (watch before : Watch ι) (reply : Reply) : Report ι where
  reply
  current := watch.register.current.bind fun term =>
    (watch.delivery? term.delegate).map fun delivery => (delivery.name, term)
  closed := watch.register.closed
  released := (watch.released.drop before.released.length).filterMap fun delegate =>
    (watch.delivery? delegate).map (·.name)
  notices := watch.notices.drop before.notices.length

/-- The reports on the steps, in order. -/
def run (watch : Watch ι) : List (Step ι) → List (Report ι)
  | [] => []
  | step :: rest =>
    let (reply, after) := watch.step step
    after.report watch reply :: after.run rest

end Watch

/-- The reports on the steps from an empty, open register. -/
def run {ι : Type} [BEq ι] (steps : List (Step ι)) : List (Report ι) := Watch.run {} steps

end Tenure.TermWatch
