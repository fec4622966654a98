/-!
# Binary64 numbers

A number of the macro language is a binary64 number: not-a-number, an infinity, or a finite
`± mantissa · 2 ^ exponent`. A finite number is kept in its one canonical form, so equal numbers of
equal sign are equal terms and nothing has to be decoded before it can be reasoned about.

- `Number.nearest` rounds an exact ratio to the nearest number, ties to the even mantissa
- `Number.toBits`, `Number.ofBits` are the interchange format
- `Number.toInt?` is the integer that a number equals, if there is one
-/

namespace MacroReplay

/-- The form of a finite number: at most 53 mantissa bits, an exponent in range, and all 53 bits in
use unless the exponent is the least one. -/
def Number.Canonical (mantissa : Nat) (exponent : Int) : Prop :=
  mantissa < Nat.pow 2 53 ∧ -1074 ≤ exponent ∧ exponent ≤ 971 ∧
    (Nat.pow 2 52 ≤ mantissa ∨ exponent = -1074)

instance (mantissa : Nat) (exponent : Int) : Decidable (Number.Canonical mantissa exponent) :=
  inferInstanceAs (Decidable (_ ∧ _ ∧ _ ∧ (_ ∨ _)))

inductive Number where
  | nan
  | infinite (negative : Bool)
  | finite (negative : Bool) (mantissa : Nat) (exponent : Int)
      (canonical : Number.Canonical mantissa exponent)
  deriving DecidableEq

namespace Number

def zero (negative : Bool) : Number :=
  .finite negative 0 (-1074) (by decide)

instance : Inhabited Number := ⟨zero false⟩

/-- The number of a canonical pair; a pair that is out of range is beyond every finite number. -/
def make (negative : Bool) (mantissa : Nat) (exponent : Int) : Number :=
  if h : Canonical mantissa exponent then .finite negative mantissa exponent h
  else .infinite negative

/-! ## Rounding -/

/-- The integer nearest to `n / d`, a tie going to the even one. -/
def divideToEven (n d : Nat) : Nat :=
  let q := n / d
  let r := n % d
  if d < 2 * r ∨ (2 * r = d ∧ q % 2 = 1) then q + 1 else q

/-- The exponent at which `num / den` has a mantissa of 53 bits, or the least exponent if the ratio
is too small for that. -/
def exponentFor (num den : Nat) : Int :=
  let guess : Int := (num.log2 : Int) - (den.log2 : Int) - 52
  let exact :=
    if num * Nat.pow 2 (-guess).toNat < Nat.pow 2 52 * (den * Nat.pow 2 guess.toNat) then guess - 1
    else guess
  max exact (-1074)

def nearest (negative : Bool) (num den : Nat) : Number :=
  if num = 0 then zero negative
  else
    let e := exponentFor num den
    let m := divideToEven (num * Nat.pow 2 (-e).toNat) (den * Nat.pow 2 e.toNat)
    if m = Nat.pow 2 53 then make negative (Nat.pow 2 52) (e + 1) else make negative m e

/-- The number nearest to `± mantissa · 2 ^ exponent`. -/
def scaled (negative : Bool) (mantissa : Nat) (exponent : Int) : Number :=
  nearest negative (mantissa * Nat.pow 2 exponent.toNat) (Nat.pow 2 (-exponent).toNat)

def ofInt (n : Int) : Number :=
  nearest (n < 0) n.natAbs 1

def ofNat (n : Nat) : Number :=
  nearest false n 1

/-- The number nearest to `± mantissa · 10 ^ exponent`. Far outside the range of the finite numbers
the power of ten is not computed. -/
def ofDecimal (negative : Bool) (mantissa : Nat) (exponent : Int) : Number :=
  if mantissa = 0 then zero negative
  else
    let size : Int := (Nat.toDigits 10 mantissa).length + exponent
    if 310 < size then .infinite negative
    else if size < -330 then zero negative
    else nearest negative (mantissa * Nat.pow 10 exponent.toNat) (Nat.pow 10 (-exponent).toNat)

/-! ## Views -/

def isNegative : Number → Bool
  | .nan => false
  | .infinite negative => negative
  | .finite negative _ _ _ => negative

def isFinite : Number → Bool
  | .finite _ _ _ _ => true
  | _ => false

def isPositive : Number → Bool
  | .nan => false
  | .infinite negative => !negative
  | .finite negative mantissa _ _ => !negative && mantissa != 0

def isBelowZero : Number → Bool
  | .nan => false
  | .infinite negative => negative
  | .finite negative mantissa _ _ => negative && mantissa != 0

def toInt? : Number → Option Int
  | .finite negative mantissa exponent _ =>
      let size? :=
        if 0 ≤ exponent then some (mantissa * Nat.pow 2 exponent.toNat)
        else if mantissa % Nat.pow 2 (-exponent).toNat = 0 then
          some (mantissa / Nat.pow 2 (-exponent).toNat)
        else none
      size?.map fun size : Nat => if negative then -(size : Int) else (size : Int)
  | _ => none

def signBit (negative : Bool) : UInt64 :=
  if negative then 0x8000000000000000 else 0

/-- The interchange format: sign, biased exponent, mantissa without its leading bit. -/
def toBits : Number → UInt64
  | .nan => 0x7FF8000000000000
  | .infinite negative => signBit negative ||| 0x7FF0000000000000
  | .finite negative mantissa exponent _ =>
      if mantissa < Nat.pow 2 52 then signBit negative ||| UInt64.ofNat mantissa
      else
        signBit negative ||| (UInt64.ofNat (exponent + 1075).toNat <<< 52) |||
          UInt64.ofNat (mantissa - Nat.pow 2 52)

def ofBits (word : UInt64) : Number :=
  let negative := word >>> 63 == 1
  let biased := ((word >>> 52) &&& 0x7FF).toNat
  let fraction := (word &&& 0xFFFFFFFFFFFFF).toNat
  if biased = 0x7FF then if fraction = 0 then .infinite negative else .nan
  else if biased = 0 then make negative fraction (-1074)
  else make negative (fraction + Nat.pow 2 52) ((biased : Int) - 1075)

end Number
end MacroReplay
