import MacroReplay.Text.Unicode.Table

/-!
# Writing direction

The classes of characters that matter for the rule on names in scripts that run from right to left. The
table covers the characters that may stand in a domain name.
-/

namespace MacroReplay.Unicode

inductive Direction where
  | leftToRight
  | rightToLeft
  | arabicNumber
  | europeanNumber
  | mark
  | neutral
  | other
  deriving DecidableEq, Repr

/-- The characters that do not run from left to right: gap, length and direction of each run. -/
def directionText : String :=
  "0 9 5 9 5 6 5 e 5 e 5 6 5 f 5 f a 3 a 7 5 21 6 5 20 5d 5 7c 1 5 1c2 2 5 9 e 5 10 1c 5 1d 11
    5 11 70 4 75 1 5 81 1 5 8d 7 4 107 6 5 7 2d 4 2d 1 1 1 1 4 1 1 1 1 2 4 2 1 1 1 2 4 2 1 1 1 2
    4 9 25 1 36 2 5 2 1 1 1 2 5 2 1 1 1 1 5 1 1 1 1 2 5 2 b 4 b 30 1 30 15 4 15 a 2 a 1 5 1 2 2
    2 3 1 3 1 4 1 65 1 65 7 4 8 1 5 1 6 4 6 2 1 2 2 4 2 1 5 1 4 4 4 2 1 2 a 3 a 17 1 17 1 4 1 1e
    1 1e 1b 4 1d 59 1 59 b 4 b 3a 1 3a 9 4 9 2 1 2 4 5 4 1 1 3 1 4 1 18 1 18 4 4 4 1 1 1 9 4 9 1
    1 1 3 4 3 1 1 1 5 4 7 29 1 29 3 4 5 32 1 39 9 4 9 2a 1 2a 39 4 70 1 4 2 1 4 5 8 4 c 1 4 4 7
    4 11 2 4 1f 1 4 3b 1 4 5 4 4 c 1 4 15 2 4 10 2 5 9 1 5 3 5 4 3e 1 4 5 11 4 2f 2 4 5 1 4 c 2
    4 3b 1 4 5 8 4 c 1 4 15 2 4 f 1 5 9 8 4 42 1 4 3 1 4 2 4 4 c a 4 15 2 4 20 1 4 3e 1 4 d 1 4
    26 8 5 d 1 4 4 1 4 38 1 4 2 3 4 8 11 4 1c 2 4 16 7 5 9 1 4 3b 1 4 10 2 4 16 2 4 1e 2 4 3b 2
    4 6 4 4 c 1 4 15 2 4 1f 1 4 49 1 4 8 5 4 5f 1 4 3 7 4 b 1 5 8 8 4 6a 1 4 3 9 4 14 7 4 50 2 4
    1d 1 4 2 1 4 2 1 4 1 4 5 37 e 4 f 5 4 6 2 4 7 30 4 39 1 4 67 4 4 5 6 4 7 2 4 4 2 4 1b 2 4 6
    3 4 13 4 4 11 1 4 3 2 4 8 1 4 10 1 4 2c0 3 4 33 a 5 70 1 5 29b 2 5 77 3 4 20 2 4 20 2 4 20 2
    4 45 7 4 f 1 4 3 b 4 12 1 5 2 1 4 13 1b 5 95 2 4 24 1 4 77 3 4 7 2 4 b 1 4 7 3 4 7 6 5 9e 22
    5 39 2 4 4 1 4 3b 1 4 2 9 4 a 1 4 3 8 4 e d 4 3d 54 4 84 1 4 2 4 4 6 1 4 6 1 4 29 9 4 15 2 4
    22 4 4 6 2 4 3 3 4 3b 1 4 2 2 4 5 1 4 2 3 4 3d 8 4 a 2 4 9a 3 4 4 d 4 e 7 4 b 1 4 7 1 4 4 2
    4 c8 40 4 24c b8 5 c4 21 4 34 4a 5 86 1ac 5 1f1 1a 5 1b 316 5 317 153 5 253 300 5 3e5 6 5 a
    3 4 a 7 5 86 1 4 61 20 4 20 205 5 208 19 5 22 4 4 6 1 5 7 1 5 6 3 5 5c 2 4 7 1 5 5b 1 5 c5
    26 5 1c00 40 5 56d0 37 5 17d 3 5 62 4 4 4 1 5 1 a 4 a 2 5 20 2 4 52 2 4 10 22 5 88 1 5 7a 1
    4 4 1 4 5 1 4 1a 2 4 3 4 5 4 1 4 c 2 5 3c 4 5 50 2 4 1c 12 4 1f 1 4 27 8 4 21 b 4 39 3 4 33
    1 4 3 4 4 6 2 4 29 1 4 44 6 4 8 2 4 4 2 4 e 1 4 9 1 4 30 1 4 34 1 4 2 3 4 5 2 4 7 2 4 3 1 4
    2b 2 4 a 1 4 74 2 5 7b 1 4 3 1 4 5 1 4 4f31 1 4 94 11 1 11 23d 5 25d 10 4 25 2 5 2e 1 1 28e
    1 5 3f 4d 5 50 11 5 6d 1 4 e3 1 4 1 1b 3 95 5 4 48a 11c 1 11f 1 5 1 e1 1 e1 f 4 f 26 1 28 8
    4 8 a5 1 a5 2 4 6 4b 1 4e 7 5 7 1e4 1 1e4 4 4 c 1a 2 1a 6 1 1f 5 4 5 1 5 1 21 1 f1 1f 2 20
    2a 1 2b 2 4 2 24 1 24 8 5 29 6 4 6 46 1 46 b 4 b 31 1 31 4 4 4 71 1 7b 1 4 37 f 4 1a 14 5 1e
    1 4 3 2 4 c 3 4 34 4 4 6 2 4 9 1 4 3e 3 4 27 5 4 6 8 4 46 1 4 d 2 4 36 9 4 13 4 4 6 1 4 60 3
    4 5 1 4 2 2 4 8 1 4 3 1 4 9e 1 4 4 8 4 1d 2 4 3b 2 4 5 1 4 26 f 4 55 6 4 13 1 4 2 1 4 2 1 4
    f 2 4 57 8 4 a 3 4 4 1 4 18 1 4 55 6 4 7 1 4 5 2 4 3 2 4 f0 4 4 a 2 4 3 2 4 1d 2 4 57 8 4 a
    1 4 2 2 4 21 d 5 4b 1 4 2 1 4 3 6 4 7 1 4 66 1 4 2 1 4 3 4 4 5 5 4 108 9 4 a 2 4 102 2 4 3 1
    4 5 1 4 91 8 4 c 1 4 21 6 4 8 2 4 2a 6 4 8 4 4 c 1 4 a 6 4 8 3 4 31 d 4 e 2 4 c8 1 4 2 3 4 4
    1 4 ca e 4 62 16 4 18 7 4 8 2 4 3 2 4 7c 15 4 16 1 4 49 2 4 5 1 4 2 1 4 15c 2 4 d 2 4 36 5 4
    a 1 4 2 1 4 18 1 4 7b 1d 5 146b 1 4 7 f 4 2cd7 c 4 f 3 4 9c3 5 4 40 7 4 41f 1 4 40 4 4 53 1
    5 2 1 4 4cb9 2 4 f63 2f1 5 300 47 4 267 3 4 14 8 4 a 7 4 25 4 4 3f 59 5 59 3 4 3 1 5 bb 57 5
    700 37 4 3b 32 4 3a 1 4 f 1 4 17 15 4 565 90 4 130 7 4 17e 1 4 3e 4 4 13 1 5 1ed 4 4 102 2 4
    f5 1 4 3 1 4 8 2 4 7 1 4 10b d0 1 d0 7 4 52 22 1 22 7 4 7 3f3 1 5a5 240 5 27d 3 5 40 1 5 b3
    99b 5"

def directionRuns : List Run :=
  Run.ofNumbers (hexNumbers directionText)

def Direction.ofNumber : Nat → Direction
  | 0 => .leftToRight
  | 1 => .rightToLeft
  | 2 => .arabicNumber
  | 3 => .europeanNumber
  | 4 => .mark
  | 5 => .neutral
  | _ => .other

def direction (c : Char) : Direction :=
  .ofNumber ((Run.value? directionRuns c.toNat).getD 0)

end MacroReplay.Unicode
