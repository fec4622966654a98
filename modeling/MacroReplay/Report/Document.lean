import MacroReplay.Number.Digits
import MacroReplay.Value

/-!
# Report documents

What a command reports, before it is written in some format: a tree of lists and named fields with
texts, numbers and truth values at its leaves.
-/

namespace MacroReplay.Report

inductive Document where
  | null
  | bool (b : Bool)
  | int (n : Int)
  | number (x : Number)
  | text (s : String)
  | list (items : List Document)
  | fields (entries : List (String × Document))

namespace Document

def nat (n : Nat) : Document := .int n

/-- Something that may be absent. -/
def optional {α : Type} (f : α → Document) : Option α → Document
  | none => .null
  | some a => f a

def ofValue : Value → Document
  | .number x => .number x
  | .text s => .text s

end Document

/-! ## Numbers -/

structure NumberStyle where
  notANumber : String
  infinity : String
  negativeInfinity : String
  /-- What stands between the mark of an exponent that is not negative and its digits. -/
  plus : String

/-- A decimal with a digit on both sides of its point. -/
def positional (d : Decimal) : String :=
  if d.point ≤ 0 ∨ d.point.toNat < d.digits.length then d.positional else d.positional ++ ".0"

/-- A decimal with one digit before its point and an exponent. -/
def scientific (plus : String) (d : Decimal) : String :=
  let exponent := d.point - 1
  let mantissa := match d.digits with
    | [] => ['0']
    | [digit] => [digit]
    | digit :: digits => digit :: '.' :: digits
  String.ofList mantissa ++ "e" ++ (if exponent < 0 then "" else plus) ++ toString exponent

/-- The text of a number: the fewest digits that read back, in positional notation if the first digit
stands at most sixteen places before the point or five behind it. Of two equally near the one with an
even last digit is taken. -/
def NumberStyle.render (style : NumberStyle) : Number → String
  | .nan => style.notANumber
  | .infinite negative => if negative then style.negativeInfinity else style.infinity
  | .finite negative mantissa exponent _ =>
      let sign := if negative then "-" else ""
      if mantissa = 0 then sign ++ "0.0"
      else
        let d := Number.shortest .even mantissa exponent
        sign ++ (if -5 < d.point ∧ d.point ≤ 16 then positional d else scientific style.plus d)

end MacroReplay.Report
