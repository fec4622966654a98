import MacroReplay.Number.Arithmetic
import MacroReplay.Number.Digits
import MacroReplay.Text.Ascii
import MacroReplay.Text.Blank

/-!
# Numbers as text

Writing: an integer below `10 ^ 21` in all its digits and without a sign on zero, any other finite
number in the fewest digits that read back, never with an exponent. Reading: decimal notation with an
optional fraction and an optional exponent, or one of the three spellings of infinity.
-/

namespace MacroReplay
namespace Number

/-- A text behind a minus sign, if there is one. -/
def withSign (negative : Bool) (text : String) : String :=
  if negative then "-" ++ text else text

def render : Number → String
  | .nan => "NaN"
  | .infinite negative => withSign negative "Infinity"
  | x@(.finite negative mantissa exponent _) =>
      match x.toInt? with
      | some n =>
          if n.natAbs < Nat.pow 10 21 then toString n
          else withSign negative (shortest .up mantissa exponent).positional
      | none => withSign negative (shortest .up mantissa exponent).positional

def spanDigits (cs : List Char) : List Char × List Char :=
  (cs.takeWhile Text.isDigit, cs.dropWhile Text.isDigit)

/-- An exponent as written behind its mark: an optional sign and at least one digit, up to the end
of the text. -/
def readExponent (cs : List Char) : Option Int :=
  let (negative, rest) := match cs with
    | '-' :: rest => (true, rest)
    | '+' :: rest => (false, rest)
    | rest => (false, rest)
  if rest.isEmpty || !rest.all Text.isDigit then none
  else
    let n : Int := Text.digitsValue rest
    some (if negative then -n else n)

/-- A decimal number without its sign: digits, a point with more digits, an exponent. At least one
digit stands before or behind the point. -/
def readUnsigned (negative : Bool) (cs : List Char) : Option Number :=
  let (whole, rest) := spanDigits cs
  let (fraction, rest) := match rest with
    | '.' :: rest => spanDigits rest
    | rest => ([], rest)
  if whole.isEmpty && fraction.isEmpty then none
  else
    let exponent? := match rest with
      | [] => some 0
      | c :: rest => if c == 'e' || c == 'E' then readExponent rest else none
    exponent?.map fun exponent =>
      ofDecimal negative (Text.digitsValue (whole ++ fraction)) (exponent - fraction.length)

def readDecimal (cs : List Char) : Option Number :=
  match cs with
  | '-' :: rest => readUnsigned true rest
  | '+' :: rest => readUnsigned false rest
  | rest => readUnsigned false rest

def isNotation (c : Char) : Bool :=
  Text.isDigit c || c == '.' || c == '-' || c == '+' || c == 'e' || c == 'E'

/-- The number that a text writes, blanks around it aside. -/
def read (s : String) : Option Number :=
  let cs := Text.trimChars s.toList
  if cs = "Infinity".toList ∨ cs = "+Infinity".toList then some (.infinite false)
  else if cs = "-Infinity".toList then some (.infinite true)
  else if cs.all isNotation then readDecimal cs
  else none

def binary64 : Arithmetic where
  add := add
  sub := sub
  mul := mul
  div := div
  rem := rem
  pow := pow
  floor := floor
  ceil := ceil
  abs := abs
  sqrt := sqrt
  render := render
  read := read

end Number
end MacroReplay
