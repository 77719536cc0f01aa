import Tenure.Text.Decimal

/-!
# Durations

A span of time in whole nanoseconds. The longest span is one nanosecond short of `2 ^ 64`
seconds.

## Main definitions

* `Duration` — a span of time
* `Duration.ofMillis`, `Duration.ofParts?` — spans from whole milliseconds, or from seconds and
  nanoseconds
* `Duration.wireMillis` — the whole milliseconds of a span, as far as 64 bits go
* `Duration.shown` — the form for people who look for faults
-/

namespace Tenure

/-- A span of time in nanoseconds. -/
structure Duration where
  nanos : Nat
  inRange : nanos < UInt64.size * 1000000000
  deriving DecidableEq, Repr

namespace Duration

/-- A span of this many nanoseconds, if there is one. -/
def ofNanos? (nanos : Nat) : Option Duration :=
  if inRange : nanos < UInt64.size * 1000000000 then some ⟨nanos, inRange⟩ else none

/-- A span of whole milliseconds. -/
def ofMillis (millis : UInt64) : Duration where
  nanos := millis.toNat * 1000000
  inRange := by have := millis.toNat_lt_size; simp only [UInt64.size] at *; omega

instance : Inhabited Duration := ⟨ofMillis 0⟩

/-- A span of seconds and nanoseconds, of which there may be more than a second's worth. -/
def ofParts? (seconds : UInt64) (nanos : UInt32) : Option Duration :=
  ofNanos? (seconds.toNat * 1000000000 + nanos.toNat)

/-- The whole seconds of a span. -/
def seconds (span : Duration) : Nat := span.nanos / 1000000000

/-- What is left of a span beside its whole seconds. -/
def subsecond (span : Duration) : Nat := span.nanos % 1000000000

/-- The whole milliseconds of a span. -/
def millis (span : Duration) : Nat := span.nanos / 1000000

/-- The whole milliseconds of a span, or the most that 64 bits hold: what `duration_ms::serialize`
writes. -/
def wireMillis (span : Duration) : UInt64 := UInt64.ofNat (min span.millis (UInt64.size - 1))

/-- The sum of two spans, if there is one. -/
def add? (span other : Duration) : Option Duration := ofNanos? (span.nanos + other.nanos)

/-- A number of some places behind the point, with the zeros at its end left out. -/
def fraction (part : Nat) (places : Nat) : List Char :=
  let digits := Text.decimal part
  let padded := List.replicate (places - digits.length) '0' ++ digits
  match (padded.reverse.dropWhile (· = '0')).reverse with
  | [] => []
  | kept => '.' :: kept

/-- The form for people who look for faults: in the largest unit of which there is a whole one. -/
def shown (span : Duration) : String :=
  let write (unit : Nat) (places : Nat) (name : String) : String :=
    String.ofList (Text.decimal (span.nanos / unit) ++ fraction (span.nanos % unit) places) ++ name
  if 1000000000 ≤ span.nanos then write 1000000000 9 "s"
  else if 1000000 ≤ span.nanos then write 1000000 6 "ms"
  else if 1000 ≤ span.nanos then write 1000 3 "µs"
  else write 1 0 "ns"

end Duration

end Tenure
