import Tenure.Duration
import Tenure.Number.Binary

/-!
# Pauses that spread

A pause that follows a failed construction is a base pause and up to a fifth of it more. How
much more depends on the number of failures alone, so that what fails together does not try
again together, and no source of chance is needed. The addition is computed in binary numbers of
fixed precision, in seconds.

## Main definitions

* `jitterFraction` — the part of the base that is added
* `jittered` — the pause, if it is not too long to be a span
-/

namespace Tenure

open Number

/-- The part of the base that is added after so many failures, in thousandths. -/
def jitterThousandths (failures : UInt32) : Nat := failures.toNat * 37 % 200

/-- The part of the base that is added after so many failures. -/
def jitterFraction (failures : UInt32) : Binary := Binary.round (jitterThousandths failures) 1000

/-- A span in seconds. -/
def Duration.inSeconds (span : Duration) : Binary :=
  (Binary.ofNat span.seconds).add (Binary.round span.subsecond 1000000000)

/-- The nanoseconds nearest to a number of seconds. -/
def nanosOfSeconds (x : Binary) : Nat := roundDiv (x.num * 1000000000) x.den

/-- The pause after so many failures, `jittered`. -/
def jittered (base : Duration) (failures : UInt32) : Option Duration :=
  (Duration.ofNanos? (nanosOfSeconds ((jitterFraction failures).mul base.inSeconds))).bind
    base.add?

end Tenure
