import Tenure.Election.Token

/-!
# The term register

The one place where a proxy keeps what it serves: at most one term, whether the proxy is
closed, and how many terms have been numbered. Every access to it is a single indivisible step,
and everything that goes on at the same time goes through these steps.

A term is the token that won it, the delegate built for it, and its generation. The generation
is drawn from the register and never drawn twice, so two terms of one register are the same
term exactly if they are equal, whatever tokens and delegates they carry.

## Main definitions

* `Holding` — a token and the delegate built for it; `Term` — a numbered holding
* `Register` — what is kept
* `Register.number`, `Register.put`, `Register.take`, `Register.takeIf`, `Register.close` —
  the indivisible steps
-/

namespace Tenure

/-- A delegate, known by the number of its construction, and the token it was built for. -/
structure Holding where
  token : Token
  delegate : Nat
  deriving DecidableEq, Repr, Inhabited

/-- A leadership term: a holding and the generation that tells it from all others. -/
structure Term extends Holding where
  generation : Nat
  deriving DecidableEq, Repr, Inhabited

/-- What a proxy keeps, `LeadershipState`. -/
structure Register where
  /-- The term that it serves, as `LeadershipState::current` finds it. -/
  current : Option Term := none
  closed : Bool := false
  /-- The generation that was drawn last. The counter has 64 bits, and reads this number as long as
  less than `2 ^ 64` delegates are brought (`Traffic.stamps_nodup`). -/
  generation : Nat := 0
  deriving DecidableEq, Repr, Inhabited

namespace Register

/-- Draws the next generation and numbers a holding with it, as `LeadershipState::try_publish`
does. -/
def number (register : Register) (holding : Holding) : Term × Register :=
  (⟨holding, register.generation + 1⟩, { register with generation := register.generation + 1 })

/-- Puts a term into service, in exchange for the one that was served: the swap of
`LeadershipState::try_publish`. -/
def put (register : Register) (term : Term) : Option Term × Register :=
  (register.current, { register with current := some term })

/-- Takes the served term out of service, whichever it is. -/
def take (register : Register) : Option Term × Register :=
  (register.current, { register with current := none })

/-- Takes a term out of service if it is the one that is served: the compare-and-swap of
`LeadershipState::invalidate`. -/
def takeIf (register : Register) (term : Term) : Bool × Register :=
  if register.current = some term then (true, { register with current := none })
  else (false, register)

/-- Closes the register; the answer is whether it was open. This is the first step of
`LeadershipState::close`. -/
def close (register : Register) : Bool × Register :=
  (!register.closed, { register with closed := true })

/-- Whether a term is the one that is served, `LeadershipState::is_current`. -/
def serves (register : Register) (term : Term) : Bool := register.current = some term

end Register

end Tenure
