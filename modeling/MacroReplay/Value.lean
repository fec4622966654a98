import MacroReplay.Number.Text

/-!
# Values

A variable of the macro language holds a number or a text. A number has a text, its rendering; a text
has a number if it writes one.
-/

namespace MacroReplay

inductive Value where
  | number (n : Number)
  | text (s : String)
  deriving DecidableEq

namespace Value

instance : Inhabited Value := ⟨.text ""⟩

def empty : Value := .text ""

/-- The value as text, numbers written by `arith`. -/
def renderWith (arith : Arithmetic) : Value → String
  | .number n => arith.render n
  | .text s => s

def render : Value → String :=
  renderWith Number.binary64

/-- The number that the value is or writes. -/
def toNumber? : Value → Option Number
  | .number n => some n
  | .text s => Number.read s

/-- The value where a number is needed: a blank text is zero, and a text that writes no number is
not a number. -/
def toNumberWith (arith : Arithmetic) : Value → Number
  | .number n => n
  | .text s => if Text.isAllBlank s then Number.zero false else (arith.read s).getD .nan

def toNumber : Value → Number :=
  toNumberWith Number.binary64

def isEmpty : Value → Bool
  | .number _ => false
  | .text s => s.isEmpty

def text? : Value → Option String
  | .number _ => none
  | .text s => some s

end Value
end MacroReplay
