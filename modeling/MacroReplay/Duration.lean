import MacroReplay.Number.Basic

/-!
# Durations

A duration is a whole number of nanoseconds. The operations stay inside the range that 64 bits of
seconds can hold.
-/

namespace MacroReplay

structure Duration where
  nanoseconds : Nat
  deriving DecidableEq, Repr, Inhabited

namespace Duration

instance : LE Duration := ⟨fun a b => a.nanoseconds ≤ b.nanoseconds⟩

instance : LT Duration := ⟨fun a b => a.nanoseconds < b.nanoseconds⟩

instance (a b : Duration) : Decidable (a ≤ b) :=
  inferInstanceAs (Decidable (a.nanoseconds ≤ b.nanoseconds))

instance (a b : Duration) : Decidable (a < b) :=
  inferInstanceAs (Decidable (a.nanoseconds < b.nanoseconds))

instance : Min Duration := ⟨fun a b => ⟨min a.nanoseconds b.nanoseconds⟩⟩

instance : Max Duration := ⟨fun a b => ⟨max a.nanoseconds b.nanoseconds⟩⟩

instance : Add Duration := ⟨fun a b => ⟨a.nanoseconds + b.nanoseconds⟩⟩

/-- What is left of a duration after another; nothing if the other is longer. -/
instance : Sub Duration := ⟨fun a b => ⟨a.nanoseconds - b.nanoseconds⟩⟩

def zero : Duration := ⟨0⟩

/-- The longest duration: one nanosecond less than `2 ^ 64` seconds. -/
def longest : Duration := ⟨Nat.pow 2 64 * 1000000000 - 1⟩

def ofMillis (ms : Nat) : Duration := ⟨ms * 1000000⟩

def toMillis (d : Duration) : Nat := d.nanoseconds / 1000000

/-- The least number of whole milliseconds that is not shorter. -/
def toMillisUp (d : Duration) : Nat := (d.nanoseconds + 999999) / 1000000

def wholeSeconds (d : Duration) : Nat := d.nanoseconds / 1000000000

def subsecondNanos (d : Duration) : Nat := d.nanoseconds % 1000000000

/-- A number of seconds, to the nearest nanosecond, a tie going to the even one. What is not positive
is no time, and what is out of range is the longest duration. -/
def ofSeconds : Number → Duration
  | .nan => zero
  | .infinite negative => if negative then zero else longest
  | .finite negative mantissa exponent _ =>
      if negative then zero
      else
        let ns := Number.divideToEven (mantissa * Nat.pow 2 exponent.toNat * 1000000000)
          (Nat.pow 2 (-exponent).toNat)
        if longest.nanoseconds < ns then longest else ⟨ns⟩

/-- The digits of a count below `10 ^ width`, without the zeros at their end. -/
def fractionDigits (width n : Nat) : List Char :=
  let digits := Nat.toDigits 10 n
  ((List.replicate (width - digits.length) '0' ++ digits).reverse.dropWhile (· == '0')).reverse

/-- A count of parts of a unit as a decimal number of units. -/
def decimalUnits (width count : Nat) (unit : String) : String :=
  let fraction := fractionDigits width (count % Nat.pow 10 width)
  toString (count / Nat.pow 10 width) ++
    (if fraction.isEmpty then "" else "." ++ String.ofList fraction) ++ unit

/-- A duration in the largest unit of which it has at least one, such as `1.5s` or `50ms`. -/
def describe (d : Duration) : String :=
  if 1000000000 ≤ d.nanoseconds then decimalUnits 9 d.nanoseconds "s"
  else if 1000000 ≤ d.nanoseconds then decimalUnits 6 d.nanoseconds "ms"
  else if 1000 ≤ d.nanoseconds then decimalUnits 3 d.nanoseconds "µs"
  else toString d.nanoseconds ++ "ns"

end Duration
end MacroReplay
