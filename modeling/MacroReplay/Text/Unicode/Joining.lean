import MacroReplay.Text.Unicode.Table

/-!
# Joining letters

In some scripts the shape of a letter depends on the sides on which it joins its neighbours. The table
covers the characters that may stand in a domain name.
-/

namespace MacroReplay.Unicode

/-- The sides on which a character joins. -/
inductive Joining where
  | none
  | transparent
  | left
  | right
  | both
  deriving DecidableEq, Repr

/-- The characters that join: gap, length and kind of each run. -/
def joiningText : String :=
  "300 70 1 183 7 1 10e 2d 1 2e 1 1 2 2 1 3 2 1 3 2 1 49 b 1 10 1 4 2 4 3 4 1 4 1 1 3 1 1 4 1 1
    3 1 5 4 5 4 3 4 d 4 e 7 4 7 1 3 1 2 4 2 15 1 23 2 4 2 1 1 1 3 3 8 f 4 f 12 3 12 26 4 26 1 3
    1 2 4 2 9 3 9 1 4 1 1 3 1 1 4 1 1 3 1 2 4 2 2 3 3 1 3 1 7 1 9 6 1 8 2 1 3 4 1 4 2 3 c 3 4 5
    1 4 11 1 3 1 1 1 1 3 4 3 5 3 5 4 4 4 1 3 1 9 4 9 1 3 1 1 4 1 1 3 1 1 4 1 1 3 1 2 4 2 1 3 1
    1b 1 1d 1 3 1 b 4 b 3 3 3 f 4 f 2 3 2 4 4 4 1 3 1 1 4 1 2 3 2 3 4 3 2 3 2 6 4 2c b 1 24 21 4
    21 9 1 12 1 1 19 4 1 5 9 1 a 3 1 4 5 1 17 1 3 1 5 4 5 2 3 2 1 4 1 1 3 1 a 4 a 1 3 1 1 4 1 3
    3 3 3 1 7 1 4 2 4 4 5 1 3 1 1 4 1 1a 3 1d 1 4 3 5 4 5 1 3 1 1 4 8 9 1 9 a 4 a 3 3 4 1 3 1 2
    4 2 2 3 2 6 4 6 1 3 1 f 4 10 39 1 70 1 1 2 1 1 5 8 1 c 1 1 4 7 1 11 2 1 1f 1 1 3b 1 1 5 4 1
    c 1 1 15 2 1 1c 5 1 3e 1 1 5 11 1 2f 2 1 5 1 1 c 2 1 3b 1 1 5 8 1 c 1 1 15 2 1 18 8 1 42 1 1
    3 1 1 2 4 1 c a 1 15 2 1 20 1 1 3e 1 1 d 1 1 33 1 1 4 1 1 38 1 1 2 3 1 8 11 1 1c 2 1 1f 1 1
    3b 1 1 3 1 1 7 1 1 6 2 1 16 2 1 1e 2 1 3b 2 1 6 4 1 c 1 1 15 2 1 1f 1 1 49 1 1 8 5 1 5f 1 1
    3 7 1 13 8 1 6a 1 1 3 9 1 14 7 1 50 2 1 1d 1 1 2 1 1 2 1 1 38 e 1 f 5 1 6 2 1 7 30 1 39 1 1
    67 4 1 5 6 1 7 2 1 4 2 1 1b 2 1 6 3 1 13 4 1 11 1 1 3 2 1 8 1 1 10 1 1 2c0 3 1 3b5 3 1 20 2
    1 20 2 1 20 2 1 45 7 1 f 1 1 3 b 1 14 1 1 2a 1 4 19 59 4 65 2 1 2 22 4 22 1 1 1 1 4 76 3 1 7
    2 1 b 1 1 7 3 1 de 2 1 4 1 1 3b 1 1 2 9 1 a 1 1 3 8 1 e d 1 3d 54 1 84 1 1 2 4 1 6 1 1 6 1 1
    29 9 1 15 2 1 22 4 1 6 2 1 3 3 1 3b 1 1 2 2 1 5 1 1 2 3 1 3d 8 1 a 2 1 9a 3 1 4 d 1 e 7 1 b
    1 1 7 1 1 4 2 1 c8 40 1 310 21 1 c1f 3 1 90 1 1 61 20 1 24a 4 1 6f 2 1 75d6 4 1 5 a 1 2a 2 1
    52 2 1 112 1 1 4 1 1 5 1 1 1a 2 1 7 1 1 14 32 4 32 1 2 52 2 1 1c 12 1 1f 1 1 27 8 1 21 b 1
    39 3 1 33 1 1 3 4 1 6 2 1 29 1 1 44 6 1 8 2 1 4 2 1 e 1 1 9 1 1 30 1 1 34 1 1 2 3 1 5 2 1 7
    2 1 3 1 1 2b 2 1 a 1 1 ef 1 1 3 1 1 5 1 1 4f31 1 1 302 10 1 3dd 1 1 e3 1 1 96 5 1 68b f 1 37
    8 1 88 5 4 5 1 3 2 1 3 2 2 3 4 1 2 1 5 3 5 4 4 4 1 2 1 5 4 5 1 3 1 3 4 3 1 3 3 1 3 1 2 1 6 4
    4 4 1 3 91 1 4 1 1 3 1 1 4 1 3 3 3 3 4 3 1 3 1 2 4 2 1 3 1 1 4 1 2 3 2 1 4 1 1 3 18 4 3 4 2
    4 153 1 2 1 21 4 21 1 3 1 1 4 1 4 1 45 5 1 142 2 1 17 1 3 1 2 4 3 2 4 34 6 1 36 3 4 3 1 3 1
    11 4 12 b 1 b 3 4 3 1 3 1c 4 4 4 2 3 2 c 4 c 4 1 2e 1 4 2 2 4 2 3 3 4 1 4 1 2 3 2 2 4 2 1 3
    1 2 4 3 1 4 1 2 3 2 1 4 5 1 3 1 1 4 1 1 2 36 1 1 37 f 1 38 1 1 3 2 1 c 3 1 34 4 1 6 2 1 9 1
    1 3e 3 1 27 5 1 6 8 1 46 1 1 d 2 1 36 9 1 13 4 1 6 1 1 60 3 1 5 1 1 2 2 1 8 1 1 3 1 1 9e 1 1
    4 8 1 1d 2 1 3b 2 1 5 1 1 26 f 1 55 6 1 13 1 1 2 1 1 2 1 1 f 2 1 57 8 1 a 3 1 4 1 1 18 1 1
    55 6 1 7 1 1 5 2 1 3 2 1 f0 4 1 a 2 1 3 2 1 1d 2 1 57 8 1 a 1 1 2 2 1 6c 1 1 2 1 1 3 6 1 7 1
    1 66 1 1 2 1 1 3 4 1 5 5 1 108 9 1 a 2 1 102 2 1 3 1 1 5 1 1 91 8 1 c 1 1 21 a 1 32 6 1 8 4
    1 c 1 1 a 6 1 8 3 1 31 d 1 e 2 1 c8 1 1 2 3 1 4 1 1 ca e 1 f 1 1 53 16 1 18 7 1 8 2 1 3 2 1
    7c 15 1 16 1 1 49 2 1 5 1 1 2 1 1 15c 2 1 d 2 1 36 5 1 a 1 1 2 1 1 18 1 1 14e6 1 1 7 f 1
    2cd7 c 1 f 3 1 9c3 5 1 40 7 1 41f 1 1 40 4 1 55 1 1 4cb9 2 1 1263 47 1 267 3 1 14 8 1 a 7 1
    25 4 1 98 3 1 7be 37 1 3b 32 1 3a 1 1 f 1 1 17 15 1 565 90 1 130 7 1 17e 1 1 3e 4 1 200 4 1
    102 2 1 f5 1 1 3 1 1 8 2 1 7 1 1 1db 7 1 52 22 4 22 8 1"

def joiningRuns : List Run :=
  Run.ofNumbers (hexNumbers joiningText)

def Joining.ofNumber : Nat → Joining
  | 1 => .transparent
  | 2 => .left
  | 3 => .right
  | 4 => .both
  | _ => .none

def joining (c : Char) : Joining :=
  .ofNumber ((Run.value? joiningRuns c.toNat).getD 0)

end MacroReplay.Unicode
