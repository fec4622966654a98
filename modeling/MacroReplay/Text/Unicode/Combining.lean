import MacroReplay.Text.Unicode.Table

/-!
# Combining characters

The canonical combining class of a character says in which order the marks on a letter are kept. The
tables cover the characters that may stand in a domain name.
-/

namespace MacroReplay.Unicode

/-- The combining classes other than zero: gap, length and class of each run. -/
def combiningText : String :=
  "300 15 e6 15 1 e8 1 4 dc 4 1 e8 1 1 d8 1 5 dc 5 2 ca 2 4 dc 4 2 ca 2 b dc b 5 1 5 4 dc 4 a
    e6 a 3 dc 3 3 e6 3 2 dc 3 3 e6 3 4 dc 4 1 e6 1 1 e8 1 2 dc 2 1 e6 1 1 e9 1 2 ea 2 1 e9 1 2
    ea 2 1 e9 1 d e6 120 5 e6 10e 1 dc 1 4 e6 4 1 dc 1 3 e6 3 1 de 1 1 dc 1 6 e6 6 6 dc 6 2 e6 2
    1 dc 1 2 e6 2 1 de 1 1 e4 1 1 e6 1 1 a 1 1 b 1 1 c 1 1 d 1 1 e 1 1 f 1 1 10 1 1 11 1 1 12 1
    2 13 2 1 14 1 1 15 1 1 16 2 1 17 2 1 18 1 1 19 2 1 e6 1 1 dc 2 1 12 1 1 e6 48 8 e6 8 1 1e 1
    1 1f 1 1 20 31 1 1b 1 1 1c 1 1 1d 1 1 1e 1 1 1f 1 1 20 1 1 21 1 1 22 1 2 e6 2 2 dc 2 5 e6 5
    1 dc 1 2 e6 2 1 dc 11 1 23 66 7 e6 9 4 e6 4 1 dc 1 1 e6 3 2 e6 3 1 dc 1 2 e6 2 1 dc 24 1 24
    1f 1 e6 1 1 dc 1 2 e6 2 1 dc 1 2 e6 2 3 dc 3 1 e6 1 2 dc 2 1 e6 1 1 dc 1 3 e6 3 1 dc 1 1 e6
    1 1 dc 1 1 e6 1 1 dc 1 1 e6 1 1 dc 1 2 e6 a2 7 e6 7 1 dc 1 1 e6 a 1 dc 19 4 e6 5 9 e6 a 3 e6
    4 5 e6 30 3 dc 3e 2 e6 2 3 dc 3 4 e6 2e 5 e6 5 5 dc 5 e e6 f 1 dc 1 2 e6 2 1 dc 1 2 e6 2 1
    dc 1 3 e6 3 3 dc 3 1 1b 1 1 1c 1 1 1d 1 3 e6 3 1 dc 1 2 e6 2 2 dc 2 5 e6 41 1 7 11 1 9 4 1
    e6 1 1 dc 1 2 e6 69 1 7 11 1 9 31 1 e6 3e 1 7 11 1 9 6f 1 7 11 1 9 6f 1 7 11 1 9 80 1 9 6f 1
    7 11 1 9 8 1 54 1 1 5b 66 1 7 11 1 9 6e 2 9 12 1 9 7d 1 9 6e 2 67 2 1 9 e 4 6b 70 2 76 2 1 9
    e 4 7a 50 2 dc 1d 1 dc 2 1 dc 2 1 d8 38 1 81 1 1 82 2 1 84 6 4 82 6 1 82 2 2 e6 2 1 9 2 2 e6
    40 1 dc 71 1 7 2 2 9 54 1 dc 2d0 3 e6 3b7 2 9 20 1 9 9e 1 9 b 1 e6 cc 1 e4 90 1 de 1 1 e6 1
    1 dc dc 1 e6 1 1 dc 48 1 9 15 8 e6 a 1 dc 31 5 e6 5 6 dc 6 2 e6 2 1 dc 2 2 dc 2 2 e6 2 2 dc
    2 5 e6 5 1 dc 1 12 e6 12 1 dc 1 8 e6 8 1 dc 1 4 e6 4 1 ea 49 1 7 10 1 9 27 1 e6 1 1 dc 1 7
    e6 3d 2 9 3c 1 7 c 2 9 45 1 7 99 3 e6 4 1 1 1 5 dc 5 2 e6 2 4 dc 4 1 e6 2 7 1 b 1 dc 7 1 e6
    4 2 e6 c8 2 e6 2 1 dc 1 7 e6 7 1 dc 1 2 e6 2 1 ea 1 1 d6 1 1 dc 1 1 ca 1 25 e6 25 1 e8 1 2
    e4 2 1 dc 1 1 da 1 1 e6 1 1 e9 1 1 dc 1 1 e6 1 1 dc 2d1 2 e6 2 2 1 2 4 e6 4 3 1 3 2 e6 6 1
    e6 4 2 1 2 1 e6 1 1 dc 1 1 e6 1 2 1 2 4 dc 4 1 e6 bff 3 e6 90 1 9 61 20 e6 24a 1 da 1 1 e4 1
    1 e8 1 1 de 1 2 e0 6b 2 8 75d6 1 e6 5 a e6 2a 2 e6 52 2 e6 116 1 9 26 1 9 98 1 9 1c 12 e6 4b
    3 dc 28 1 9 60 1 7 d 1 9 f0 1 e6 2 2 e6 2 1 dc 3 2 e6 7 2 e6 3 1 e6 35 1 9 f7 1 9 4f31 1 1a
    302 7 e6 7 7 dc 7 2 e6 3cf 1 dc e3 1 dc 96 5 e6 697 1 dc 2 1 e6 29 1 e6 1 1 1 1 1 dc 5 1 9
    a6 1 e6 1 1 dc 23e 4 e6 45 5 e6 142 2 e6 4f 2 dc 3 3 dc 49 2 dc 2 3 e6 3 1 dc 1 1 e6 1 4 dc
    35 1 e6 1 1 dc 1 1 e6 1 1 dc c1 1 9 2a 1 9 f 1 9 3a 1 9 1 1 7 46 3 e6 33 2 9 40 1 7 4d 1 9 a
    1 7 6b 1 9 1 1 7 b3 1 7 1 1 9 51 2 7 12 1 9 19 f e6 68 3 9 74 1 9 4 1 7 18 1 e6 64 1 9 1 1 7
    fc 1 9 1 1 7 7f 1 9 77 1 9 1 1 7 74 1 9 10e 1 9 1 1 7 103 2 9 6 1 7 9d 1 9 54 1 9 13 1 9 52
    1 9 1a6 1 9 103 1 7 2 2 9 53 1 9 1aa 2 9 41ee 1 9 9c1 5 1 40 7 e6 4c0 2 6 4cae 1 1 14c7 2 d8
    2 3 1 6 1 e2 1 5 d8 d 8 dc a 5 e6 5 2 dc 20 4 e6 98 3 e6 dbe 90 e6 130 7 e6 17e 1 e6 3e 4 e6
    200 2 e8 2 1 dc 1 1 e6 ff 1 e6 1 1 dc f4 1 e6 3 1 e6 8 2 e6 7 1 e6 1db 7 dc 74 6 e6 6 1 7"

def combiningRuns : List Run :=
  Run.ofNumbers (hexNumbers combiningText)

def combiningClass (c : Char) : Nat :=
  if c.toNat < 0x300 then 0 else (Run.value? combiningRuns c.toNat).getD 0

/-- The class of the marks that join the letters around them. -/
def viramaClass : Nat := 9

/-- The gaps between the points at which marks begin and end. -/
def markText : String :=
  "300 71 112 8 106 2d 1 1 1 2 1 2 1 9 40 b 30 15 10 1 65 8 1 6 2 2 1 4 23 1 1e 1d 59 b 3a 9 9
    1 18 4 1 9 1 3 1 7 29 5 39 9 2a 3a 36 3 1 12 1 f 2 2 1d 4 37 1 1 10 9 9 2 4 18 7 37 20 14 2
    3 1 b 4 37 1 1 12 12 4 14 b 37 1 1 21 3 4 1c 1 3b 12 7 f 1a 5 37 1 1 1a a 4 1b 3 38 1 1 1e 6
    4 d 11 37 2 1 10 9 1 a 4 1b 4 45 1c c 2 3d 1 2 b 8 8 62 1 2 9 b 8 48 2 1b 1 1 1 1 1 4 2 31
    14 1 2 5 31 8 1 64 14 17 4 4 3 1 3 2 7 3 4 d c 1 1 a 4 2bf 3 3b2 d 13 3 1d e 12 e 36 1e 9 3
    a5 2 22 1 76 20 d7 7 37 2b 30 55 2f 11 26 9 c 3 1e d 38 16 28 17 95 3 1 15 4 1 6 1 2 3 c6 41
    2cf 34 beb 4 8c 1 60 20 22a 6 69 4 75d2 4 1 a 20 2 50 2 110 1 3 1 4 1 17 5 4 4 50 2 32 1a 12
    12 d 1 26 8 19 18 21 4 2f e 24 1 43 17 3 1 8 4 2b 3 32 1 1 3 2 2 5 2 1 1 29 5 5 c e2 8 1 4
    4f2e 94 26e 25 3b8 83 60 1 95 a 681 f 28 8 a5 6 239 c 39 5 13d 2 4d 6 46 b 31 4 7a 3 35 f 29
    1 2 2 a 4 2d b 7 e 30 3 24 f f 2 2c 1 c 3 30 e 8 4 1 2 5c c 6 1 2 3f 5f 11 10 5 36 2 1 12 7
    6 5 1e 38 19 1 1 e 1f 35 12 17 1 51 14 eb 12 1b 24 30 11 6a d 65 13 fc f f5 f 1 1 1 2 8d 10
    3 1c 1 a 28 7 1 4 8 9 1 b 2e 10 c6 60 6f 11 52 6e 31 15 1 9 3a e 15b 4 9 2 1 1 30 f 17 56
    1490 1 6 19 2cbe 12 9c0 5 3b 7 418 1 1 42 51 e 4cab 2 1261 50 215 5 3 16 2 7 1e 4 94 3 7bb
    37 4 32 8 1 e 1 16 465 100 100 30 7 177 12 2c 4 1fc 4 fe 2 f3 1 2 1 7 2 5 9 1d2 52 22 7"

def markTurns : List Nat :=
  turnsOf (hexNumbers markText)

/-- A character that is put on the one before it. -/
def isMark (c : Char) : Bool :=
  isInside markTurns c.toNat

end MacroReplay.Unicode
