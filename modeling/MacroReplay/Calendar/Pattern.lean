import MacroReplay.Calendar.Date

/-!
# Date patterns

A pattern is a text in which some words stand for parts of a date-time, in any letter case. At each
place the first word of `Field.words` that fits is taken, so that `yyyy` is one year and not two; any
other character stands for itself.
-/

namespace MacroReplay.Calendar

/-- The parts of a date-time that a pattern can ask for. -/
inductive Field where
  | longYear
  | shortYear
  | month
  | weekday
  | ordinal
  | day
  | hour
  | minute
  | second
  deriving DecidableEq, Repr

/-- The words for the parts, in the order in which they are tried. -/
def Field.words : List (List Char × Field) :=
  [("yyyy".toList, .longYear), ("yy".toList, .shortYear), ("mm".toList, .month),
    ("dow".toList, .weekday), ("doy".toList, .ordinal), ("dd".toList, .day),
    ("hh".toList, .hour), ("nn".toList, .minute), ("ss".toList, .second)]

/-- An integer with zeros between its sign and its digits up to a width. -/
def zeroPadded (width : Nat) (n : Int) : String :=
  let digits := Nat.toDigits 10 n.natAbs
  let sign := if n < 0 then ['-'] else []
  String.ofList (sign ++ List.replicate (width - sign.length - digits.length) '0' ++ digits)

def Field.render (t : DateTime) : Field → String
  | .longYear => zeroPadded 4 t.year
  | .shortYear => zeroPadded 2 (Int.tmod t.year 100)
  | .month => zeroPadded 2 t.month
  | .weekday => toString t.weekday
  | .ordinal => toString t.ordinal
  | .day => zeroPadded 2 t.day
  | .hour => zeroPadded 2 t.hour
  | .minute => zeroPadded 2 t.minute
  | .second => zeroPadded 2 t.second

/-- The part that the front of a text stands for, and the length of its word. -/
def Field.atFront? (cs : List Char) : Option (Nat × Field) :=
  (words.find? fun (word, _) => word.isPrefixOf (cs.map Char.toLower)).map fun (word, field) =>
    (word.length, field)

inductive PatternItem where
  | field (f : Field)
  | char (c : Char)
  deriving DecidableEq, Repr

def patternItems : List Char → List PatternItem
  | [] => []
  | c :: cs =>
      match Field.atFront? ((c :: cs).take 4) with
      | some (length, field) => .field field :: patternItems (cs.drop (length - 1))
      | none => .char c :: patternItems cs
termination_by cs => cs.length
decreasing_by
  all_goals simp only [List.length_drop, List.length_cons]
  all_goals omega

def PatternItem.render (t : DateTime) : PatternItem → String
  | .field f => f.render t
  | .char c => String.singleton c

def DateTime.format (t : DateTime) (pattern : String) : String :=
  String.join ((patternItems pattern.toList).map (PatternItem.render t))

def defaultPattern : String := "yyyymmdd_hhnnss"

end MacroReplay.Calendar
