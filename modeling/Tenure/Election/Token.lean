/-!
# Leadership tokens

A token stands for one leadership term of an election. Two tokens are equal only if they are
the same token: the term number an election prints on a token is information for readers, and
elections are free to print one number twice. Identity is therefore data here: every token
carries the serial number under which it was struck, and no serial number is given out twice.

## Main definitions

* `Token` — a serial number and the term number printed on it
* `Mint` — where tokens are struck, each with a serial number of its own
* `Token.show` — how a token is written
-/

namespace Tenure

/-- One leadership term, as its holder knows it, `LeadershipToken`: the serial number is its
identity, the term number is what the election printed on it. -/
structure Token where
  serial : Nat
  term : Nat
  deriving DecidableEq, Repr, Inhabited

namespace Token

/-- The written form of a token names its term number only, in the display of `LeadershipToken`. -/
def «show» (token : Token) : String := "term-" ++ toString token.term

end Token

/-- The source of tokens: how many have been struck. -/
structure Mint where
  struck : Nat := 0
  deriving DecidableEq, Repr, Inhabited

namespace Mint

/-- Strikes a token for a term number, as `LeadershipToken::new` does; its serial number has never
been used before. -/
def strike (mint : Mint) (term : Nat) : Token × Mint :=
  (⟨mint.struck, term⟩, ⟨mint.struck + 1⟩)

@[simp] theorem strike_term (mint : Mint) (term : Nat) : (mint.strike term).1.term = term := rfl

@[simp] theorem strike_serial (mint : Mint) (term : Nat) :
    (mint.strike term).1.serial = mint.struck := rfl

@[simp] theorem strike_struck (mint : Mint) (term : Nat) :
    (mint.strike term).2.struck = mint.struck + 1 := rfl

end Mint

end Tenure
