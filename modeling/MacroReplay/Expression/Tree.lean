import MacroReplay.Value

/-!
# Expression trees and their meaning

`Tree` is what an expression says, `Tree.value` what it is worth under an interpretation of the
arithmetic primitives. `+` adds two numbers and otherwise joins texts; every other operator and
function takes its operands as numbers.
-/

namespace MacroReplay.Expression

inductive Binary where
  | add
  | sub
  | mul
  | div
  | rem
  | pow
  deriving DecidableEq, Repr

inductive Function where
  | floor
  | ceil
  | round
  | abs
  | sqrt
  deriving DecidableEq, Repr

/-- An expression. `join` puts the texts of two values behind each other. -/
inductive Tree where
  | number (n : Number)
  | text (s : String)
  | positive (operand : Tree)
  | negative (operand : Tree)
  | binary (op : Binary) (left right : Tree)
  | apply (f : Function) (argument : Tree)
  | join (left right : Tree)
  deriving DecidableEq

/-- The sum of two values: a number if both are, else their texts joined. -/
def addValues (arith : Arithmetic) : Value → Value → Value
  | .number x, .number y => .number (arith.add x y)
  | x, y => .text (x.renderWith arith ++ y.renderWith arith)

def Binary.value (arith : Arithmetic) (x y : Value) : Binary → Value
  | .add => addValues arith x y
  | .sub => .number (arith.sub (x.toNumberWith arith) (y.toNumberWith arith))
  | .mul => .number (arith.mul (x.toNumberWith arith) (y.toNumberWith arith))
  | .div => .number (arith.div (x.toNumberWith arith) (y.toNumberWith arith))
  | .rem => .number (arith.rem (x.toNumberWith arith) (y.toNumberWith arith))
  | .pow => .number (arith.pow (x.toNumberWith arith) (y.toNumberWith arith))

/-- A function of one number. Rounding goes up from the half. -/
def Function.value (arith : Arithmetic) (x : Number) : Function → Number
  | .floor => arith.floor x
  | .ceil => arith.ceil x
  | .round => arith.floor (arith.add x Number.half)
  | .abs => arith.abs x
  | .sqrt => arith.sqrt x

def Tree.value (arith : Arithmetic) : Tree → Value
  | .number n => .number n
  | .text s => .text s
  | .positive e => .number ((e.value arith).toNumberWith arith)
  | .negative e => .number ((e.value arith).toNumberWith arith).neg
  | .binary op l r => op.value arith (l.value arith) (r.value arith)
  | .apply f e => .number (f.value arith ((e.value arith).toNumberWith arith))
  | .join l r => .text ((l.value arith).renderWith arith ++ (r.value arith).renderWith arith)

def Tree.joinAll : List Tree → Tree
  | [] => .text ""
  | e :: es => .join e (joinAll es)

end MacroReplay.Expression
