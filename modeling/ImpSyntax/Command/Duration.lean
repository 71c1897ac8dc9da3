import ImpSyntax.Text.Digits

/-!
# Durations

A duration is a number of nanoseconds.  It is written in the largest unit of time that goes into it:
the number of whole units, and behind a point the digits of what is left over.  Zeros at the end of
these digits are not written, and neither is the point if nothing is left over.
-/

namespace ImpSyntax

/-- A unit of time that durations are written in. -/
inductive TimeUnit where
  | second
  | millisecond
  | microsecond
  | nanosecond
deriving DecidableEq, Repr

namespace TimeUnit

/-- The number of decimal places in which the unit reaches down to a nanosecond. -/
def places : TimeUnit → Nat
  | second => 9
  | millisecond => 6
  | microsecond => 3
  | nanosecond => 0

/-- The unit in nanoseconds. -/
def nanoseconds (unit : TimeUnit) : Nat :=
  Nat.pow 10 unit.places

/-- The text behind a number of such units. -/
def symbol : TimeUnit → String
  | second => "s"
  | millisecond => "ms"
  | microsecond => "µs"
  | nanosecond => "ns"

/-- The largest unit that goes into a duration. -/
def ofDuration (duration : Nat) : TimeUnit :=
  if second.nanoseconds ≤ duration then second
  else if millisecond.nanoseconds ≤ duration then millisecond
  else if microsecond.nanoseconds ≤ duration then microsecond
  else nanosecond

end TimeUnit

namespace Duration

/-- The digits of a fraction that has so many decimal places, up to the last one that is not
zero. -/
def fractionDigits : Nat → Nat → List Char
  | 0, _ => []
  | places + 1, fraction =>
    if fraction = 0 then []
    else
      Nat.digitChar (fraction / Nat.pow 10 places) ::
        fractionDigits places (fraction % Nat.pow 10 places)

/-- A number of whole units with a fraction of one. -/
def decimal (unit : TimeUnit) (duration : Nat) : List Char :=
  let fraction := duration % unit.nanoseconds
  Text.decimalDigits (duration / unit.nanoseconds) ++
    if fraction = 0 then [] else '.' :: fractionDigits unit.places fraction

/-- The text of a duration. -/
def render (duration : Nat) : String :=
  let unit := TimeUnit.ofDuration duration
  String.ofList (decimal unit duration) ++ unit.symbol

end Duration

end ImpSyntax
