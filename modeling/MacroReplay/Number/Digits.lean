import MacroReplay.Number.Basic

/-!
# Decimal digits of a number

`Number.shortest` gives the fewest decimal digits that read back as the same number, and of those the
nearest; which of two equally near ones is taken is the writer's choice. `Decimal` is a list of digits
with the place of the decimal point; how it is laid out as text is decided by whoever writes it.
-/

namespace MacroReplay

/-- The decimal number `0.d₁d₂…dₙ · 10 ^ point`. -/
structure Decimal where
  digits : List Char
  point : Int
  deriving DecidableEq, Repr

namespace Decimal

/-- The decimal `mantissa · 10 ^ exponent`, without the zeros at its end. -/
def ofScaled (mantissa : Nat) (exponent : Int) : Decimal :=
  let all := Nat.toDigits 10 mantissa
  let digits := (all.reverse.dropWhile (· == '0')).reverse
  { digits := digits, point := all.length + exponent }

/-- Positional notation, however many zeros it takes; no fraction is written for an integer. -/
def positional (d : Decimal) : String :=
  if d.point ≤ 0 then
    String.ofList ('0' :: '.' :: (List.replicate (-d.point).toNat '0' ++ d.digits))
  else
    let whole := d.point.toNat
    if d.digits.length ≤ whole then
      String.ofList (d.digits ++ List.replicate (whole - d.digits.length) '0')
    else String.ofList (d.digits.take whole ++ '.' :: d.digits.drop whole)

end Decimal

inductive Half where
  /-- The greater one. -/
  | up
  /-- The one with an even last digit. -/
  | even
  deriving DecidableEq, Repr

namespace Number

/-- The exponent `k` with `10 ^ k ≤ num / den < 10 ^ (k + 1)`, for a positive ratio. -/
def decimalExponent (num den : Nat) : Int :=
  if den ≤ num then ((Nat.toDigits 10 (num / den)).length : Int) - 1
  else -((Nat.toDigits 10 ((num + den - 1) / num - 1)).length : Int)

/-- The points of the decimal grid with `count` digits next to `num / den`, as a mantissa and an
exponent of ten, the nearer one first. -/
def gridNeighbours (half : Half) (num den count : Nat) : List (Nat × Int) :=
  let k := decimalExponent num den - count + 1
  let n := num * Nat.pow 10 (-k).toNat
  let d := den * Nat.pow 10 k.toNat
  let low := n / d
  let above := 2 * (n % d)
  if n % d = 0 then [(low, k)]
  else if above < d ∨ (above = d ∧ half = .even ∧ low % 2 = 0) then [(low, k), (low + 1, k)]
  else [(low + 1, k), (low, k)]

def ratio (mantissa : Nat) (exponent : Int) : Nat × Nat :=
  (mantissa * Nat.pow 2 exponent.toNat, Nat.pow 2 (-exponent).toNat)

/-- All decimal digits of a mantissa and a binary exponent, as a mantissa and an exponent of ten. -/
def exactDecimal (mantissa : Nat) (exponent : Int) : Nat × Int :=
  (mantissa * Nat.pow 2 exponent.toNat * Nat.pow 5 (-exponent).toNat, -((-exponent).toNat : Int))

/-- The first point of the grids with `count`, `count + 1`, … digits, `grids` of them, that reads
back as `x`. -/
def firstReadingBack (half : Half) (x : Number) (num den : Nat) :
    (count grids : Nat) → Option (Nat × Int)
  | _, 0 => none
  | count, grids + 1 =>
      match (gridNeighbours half num den count).find? fun (m, k) => ofDecimal false m k = x with
      | some found => some found
      | none => firstReadingBack half x num den (count + 1) grids

/-- The fewest digits that read back as `mantissa · 2 ^ exponent`. Seventeen digits always do; all
digits of the number stand behind them. -/
def shortest (half : Half) (mantissa : Nat) (exponent : Int) : Decimal :=
  let (num, den) := ratio mantissa exponent
  let (m, k) := (firstReadingBack half (scaled false mantissa exponent) num den 1 17).getD
    (exactDecimal mantissa exponent)
  Decimal.ofScaled m k

end Number
end MacroReplay
