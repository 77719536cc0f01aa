import Tenure.Election.Token

/-!
# A bench for tokens

Tokens are kept on a shelf. New tokens and copies of tokens are put at its end, and tokens are
compared and read by their place.

## Main definitions

* `TokenBench.Step` — what may be done at the bench
* `TokenBench.run` — the replies to a list of steps
-/

namespace Tenure.TokenBench

/-- One thing done at the bench. -/
inductive Step
  | strike (term : Nat)
  | copy (place : Nat)
  | same (left right : Nat)
  | term (place : Nat)
  | «show» (place : Nat)
  deriving DecidableEq, Repr

/-- What a step answers. A place that holds no token has no answer. -/
inductive Reply
  | placed (place : Nat)
  | verdict (same : Bool)
  | number (term : Nat)
  | text (shown : String)
  | missing
  deriving DecidableEq, Repr

/-- The bench: the mint and the shelf. -/
structure Bench where
  mint : Mint := {}
  shelf : List Token := []

/-- Puts a token at the end of the shelf and answers its place. -/
def Bench.put (bench : Bench) (token : Token) : Reply × Bench :=
  (.placed bench.shelf.length, { bench with shelf := bench.shelf ++ [token] })

/-- Carries out one step. -/
def Bench.step (bench : Bench) : Step → Reply × Bench
  | .strike term =>
    let (token, mint) := bench.mint.strike term
    { bench with mint }.put token
  | .copy place =>
    match bench.shelf[place]? with
    | some token => bench.put token
    | none => (.missing, bench)
  | .same left right =>
    match bench.shelf[left]?, bench.shelf[right]? with
    | some a, some b => (.verdict (a == b), bench)
    | _, _ => (.missing, bench)
  | .term place =>
    match bench.shelf[place]? with
    | some token => (.number token.term, bench)
    | none => (.missing, bench)
  | .show place =>
    match bench.shelf[place]? with
    | some token => (.text token.show, bench)
    | none => (.missing, bench)

/-- The replies to the steps, in order, from an empty bench. -/
def run (steps : List Step) : List Reply :=
  go {} steps
where
  /-- The replies to the steps from a bench. -/
  go (bench : Bench) : List Step → List Reply
    | [] => []
    | step :: rest =>
      let (reply, bench) := bench.step step
      reply :: go bench rest

end Tenure.TokenBench
