import MacroReplay.Text.Ascii

/-!
# Integers as text

Decimal digits with an optional sign in front and nothing else, within a range.
-/

namespace MacroReplay.Text

/-- The natural number that a list of characters writes, if all of them are digits. -/
def digitsNat? (cs : List Char) : Option Nat :=
  if cs.isEmpty || !cs.all isDigit then none else some (digitsValue cs)

/-- The natural number up to `greatest` that a text writes; a plus sign may stand in front. -/
def readNat? (greatest : Nat) (s : String) : Option Nat :=
  let digits := match s.toList with
    | '+' :: cs => cs
    | cs => cs
  (digitsNat? digits).filter (· ≤ greatest)

/-- The integer from `least` to `greatest` that a text writes. -/
def readInt? (least greatest : Int) (s : String) : Option Int :=
  let n? : Option Int := match s.toList with
    | '+' :: cs => (digitsNat? cs).map fun n => (n : Int)
    | '-' :: cs => (digitsNat? cs).map fun n => -(n : Int)
    | cs => (digitsNat? cs).map fun n => (n : Int)
  n?.filter fun n => least ≤ n && n ≤ greatest

end MacroReplay.Text
