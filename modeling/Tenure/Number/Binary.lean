/-!
# Binary numbers of fixed precision

Non-negative numbers of 53 significant bits, as machines compute with: every result is the one
among them that lies nearest to the exact one, and of two that lie equally near the one with an
even last bit. Numbers too small or too large for a machine's exponent do not occur here, so the
exponent is an integer of any size.

## Main definitions

* `Number.roundDiv` — a quotient rounded to the nearest whole number, halves to the even one
* `Number.Binary` — a number `mantissa * 2 ^ exponent`
* `Number.Binary.round` — the number nearest to a quotient
* `Number.Binary.add`, `Number.Binary.mul` — rounded sum and product
-/

namespace Tenure.Number

/-- A quotient rounded to the nearest whole number; halves go to the even neighbour. -/
def roundDiv (num den : Nat) : Nat :=
  let q := num / den
  let r := num % den
  if 2 * r < den then q else if den < 2 * r then q + 1 else q + q % 2

/-- The number `mantissa * 2 ^ exponent`. -/
structure Binary where
  mantissa : Nat
  exponent : Int
  deriving DecidableEq, Repr

namespace Binary

/-- The significant bits. -/
def precision : Nat := 53

/-- The numerator of a number as a quotient of whole numbers. -/
def num (x : Binary) : Nat := x.mantissa * Nat.pow 2 x.exponent.toNat

/-- The denominator of a number as a quotient of whole numbers. -/
def den (x : Binary) : Nat := Nat.pow 2 (-x.exponent).toNat

/-- A quotient in units of a power of two, as a quotient. -/
def scaled (num den : Nat) (exponent : Int) : Nat × Nat :=
  (num * Nat.pow 2 (-exponent).toNat, den * Nat.pow 2 exponent.toNat)

/-- The exponent under which a quotient has a mantissa of full precision: the two sides' lengths
leave a choice of two, of which the lower one is taken if it leaves room. -/
def exponentOf (num den : Nat) : Int :=
  let low : Int := (num.log2 : Int) - den.log2 - precision
  let (n, d) := scaled num den low
  if n / d < Nat.pow 2 precision then low else low + 1

/-- The number nearest to a quotient. -/
def round (num den : Nat) : Binary :=
  if num = 0 then ⟨0, 0⟩
  else
    let exponent := exponentOf num den
    let (n, d) := scaled num den exponent
    ⟨roundDiv n d, exponent⟩

/-- The number nearest to a whole number. -/
def ofNat (n : Nat) : Binary := round n 1

/-- The rounded sum. -/
def add (x y : Binary) : Binary := round (x.num * y.den + y.num * x.den) (x.den * y.den)

/-- The rounded product. -/
def mul (x y : Binary) : Binary := round (x.num * y.num) (x.den * y.den)

end Binary

end Tenure.Number
