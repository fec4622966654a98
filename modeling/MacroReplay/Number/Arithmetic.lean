import MacroReplay.Number.Basic

/-!
# Arithmetic on binary64 numbers

Each operation is the exact result, rounded once. `Arithmetic` collects the primitives that the
expression language is built on, so that its meaning can be stated over any interpretation of them;
`Number.binary64` is the one in use.
-/

namespace MacroReplay
namespace Number

def neg : Number → Number
  | .nan => .nan
  | .infinite negative => .infinite (!negative)
  | .finite negative mantissa exponent h => .finite (!negative) mantissa exponent h

def abs : Number → Number
  | .nan => .nan
  | .infinite _ => .infinite false
  | .finite _ mantissa exponent h => .finite false mantissa exponent h

/-- `± mantissa · 2 ^ (exponent - base)` as an integer, for a `base` not above `exponent`. -/
def aligned (base : Int) (negative : Bool) (mantissa : Nat) (exponent : Int) : Int :=
  let size : Int := (mantissa * Nat.pow 2 (exponent - base).toNat : Nat)
  if negative then -size else size

/-- The sum. A zero that is the sum of opposite numbers is positive. -/
def add : Number → Number → Number
  | .nan, _ => .nan
  | _, .nan => .nan
  | .infinite a, .infinite b => if a = b then .infinite a else .nan
  | .infinite a, _ => .infinite a
  | _, .infinite b => .infinite b
  | .finite a m e _, .finite b n f _ =>
      let base := min e f
      let sum := aligned base a m e + aligned base b n f
      if sum = 0 then zero (a && b) else scaled (sum < 0) sum.natAbs base

def sub (x y : Number) : Number :=
  add x y.neg

def mul : Number → Number → Number
  | .nan, _ => .nan
  | _, .nan => .nan
  | .infinite a, .infinite b => .infinite (a != b)
  | .infinite a, .finite b n _ _ => if n = 0 then .nan else .infinite (a != b)
  | .finite a m _ _, .infinite b => if m = 0 then .nan else .infinite (a != b)
  | .finite a m e _, .finite b n f _ => scaled (a != b) (m * n) (e + f)

/-- The quotient. Dividing by zero gives an infinity, and zero by zero is not a number. -/
def div : Number → Number → Number
  | .nan, _ => .nan
  | _, .nan => .nan
  | .infinite _, .infinite _ => .nan
  | .infinite a, .finite b _ _ _ => .infinite (a != b)
  | .finite a _ _ _, .infinite b => zero (a != b)
  | .finite a m e _, .finite b n f _ =>
      if n = 0 then if m = 0 then .nan else .infinite (a != b)
      else nearest (a != b) (m * Nat.pow 2 (e - f).toNat) (n * Nat.pow 2 (f - e).toNat)

/-- The remainder of the division that rounds its quotient toward zero; it has the sign of the
dividend. -/
def rem : Number → Number → Number
  | .nan, _ => .nan
  | _, .nan => .nan
  | .infinite _, _ => .nan
  | .finite a m e h, .infinite _ => .finite a m e h
  | .finite a m e _, .finite _ n f _ =>
      if n = 0 then .nan
      else
        let base := min e f
        scaled a ((m * Nat.pow 2 (e - base).toNat) % (n * Nat.pow 2 (f - base).toNat)) base

/-- The size of a finite number cut to an integer, and whether anything was cut off. -/
def wholePart (mantissa : Nat) (exponent : Int) : Nat × Bool :=
  let unit := Nat.pow 2 (-exponent).toNat
  (mantissa / unit, mantissa % unit != 0)

/-- The greatest integer not above the number. -/
def floor : Number → Number
  | .finite negative mantissa exponent h =>
      if 0 ≤ exponent then .finite negative mantissa exponent h
      else
        let (whole, cut) := wholePart mantissa exponent
        nearest negative (if negative && cut then whole + 1 else whole) 1
  | x => x

/-- The least integer not below the number. -/
def ceil : Number → Number
  | .finite negative mantissa exponent h =>
      if 0 ≤ exponent then .finite negative mantissa exponent h
      else
        let (whole, cut) := wholePart mantissa exponent
        nearest negative (if !negative && cut then whole + 1 else whole) 1
  | x => x

/-- The greatest natural number whose square is at most `n`. -/
def squareRootFloor (n : Nat) : Nat :=
  if n = 0 then 0
  else
    let r := 2 * squareRootFloor (n / 4)
    if (r + 1) * (r + 1) ≤ n then r + 1 else r
termination_by n
decreasing_by omega

/-- The square root. The integer root has more than 53 bits, and one more bit tells whether it is
exact, so that rounding it is rounding the real root. -/
def sqrt : Number → Number
  | .nan => .nan
  | .infinite negative => if negative then .nan else .infinite false
  | .finite negative mantissa exponent _ =>
      if mantissa = 0 then zero negative
      else if negative then .nan
      else
        let shift : Nat := if exponent % 2 = 0 then 120 else 121
        let n := mantissa * Nat.pow 2 shift
        let root := squareRootFloor n
        let sticky := if root * root = n then 0 else 1
        scaled false (2 * root + sticky) ((exponent - shift) / 2 - 1)

def pow (x y : Number) : Number :=
  ofBits ((Float.ofBits x.toBits).pow (Float.ofBits y.toBits)).toBits

def half : Number :=
  scaled false 1 (-1)

end Number

/-- The primitives of arithmetic that expressions are built on. -/
structure Arithmetic where
  add : Number → Number → Number
  sub : Number → Number → Number
  mul : Number → Number → Number
  div : Number → Number → Number
  rem : Number → Number → Number
  pow : Number → Number → Number
  floor : Number → Number
  ceil : Number → Number
  abs : Number → Number
  sqrt : Number → Number
  /-- The text of a number. -/
  render : Number → String
  /-- The number that a text writes. -/
  read : String → Option Number

end MacroReplay
