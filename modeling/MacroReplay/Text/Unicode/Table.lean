/-!
# Tables of characters

A property of characters is given by the points at which it changes. To keep the tables short they are
written as texts of hexadecimal numbers, each point by its distance from the one before.
-/

namespace MacroReplay.Unicode

def digitValue (c : Char) : Nat :=
  if c.toNat < 0x3A then c.toNat - 0x30 else c.toNat - 0x57

/-- The numbers read so far, last first, and the one that is being read. -/
abbrev HexProgress := List Nat × Option Nat

def HexProgress.finish : HexProgress → List Nat
  | (numbers, none) => numbers
  | (numbers, some n) => n :: numbers

/-- Reads a digit, or the space behind a number. -/
def HexProgress.step (p : HexProgress) (c : Char) : HexProgress :=
  if c == ' ' || c == '\n' then (p.finish, none)
  else (p.1, some (16 * p.2.getD 0 + digitValue c))

/-- The numbers that a text writes in hexadecimal, with spaces or line ends between them. -/
def hexNumbers (s : String) : List Nat :=
  (s.toList.foldl HexProgress.step ([], none)).finish.reverse

/-- The points of which the distances are given, from a point on. -/
def turnsFrom (start : Nat) : List Nat → List Nat
  | [] => []
  | gap :: gaps => (start + gap) :: turnsFrom (start + gap) gaps

def turnsOf (gaps : List Nat) : List Nat :=
  turnsFrom 0 gaps

/-- Whether an odd number of turns is at or before a point. -/
def isInside (turns : List Nat) (n : Nat) : Bool :=
  (turns.takeWhile (· ≤ n)).length % 2 == 1

/-- Characters in a row with a value in common. -/
structure Run where
  start : Nat
  length : Nat
  value : Nat

namespace Run

/-- Runs from gaps, lengths and values, from a point on. -/
def ofNumbersFrom (start : Nat) : List Nat → List Run
  | gap :: length :: value :: rest =>
      ⟨start + gap, length, value⟩ :: ofNumbersFrom (start + gap) rest
  | _ => []

def ofNumbers (numbers : List Nat) : List Run :=
  ofNumbersFrom 0 numbers

def find? (runs : List Run) (n : Nat) : Option Run :=
  runs.find? fun r => r.start ≤ n && n < r.start + r.length

def value? (runs : List Run) (n : Nat) : Option Nat :=
  (find? runs n).map Run.value

end Run
end MacroReplay.Unicode
