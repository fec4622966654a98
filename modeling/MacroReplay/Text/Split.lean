/-!
# Cutting texts

Cuts of a list of characters at a character or at a fixed text, and the replacement of every
occurrence of a fixed text. A cut keeps everything: the parts and the separators together are the
whole.
-/

namespace MacroReplay.Text

/-- The parts before and after the first character that satisfies `p`. -/
def cutAt (p : Char → Bool) : List Char → Option (List Char × List Char)
  | [] => none
  | c :: cs => if p c then some ([], cs) else (cutAt p cs).map fun (a, b) => (c :: a, b)

/-- The parts before and after the first occurrence of `sep`. -/
def cutAtText (sep : List Char) : List Char → Option (List Char × List Char)
  | [] => if sep.isEmpty then some ([], []) else none
  | c :: cs =>
      if sep.isPrefixOf (c :: cs) then some ([], (c :: cs).drop sep.length)
      else (cutAtText sep cs).map fun (a, b) => (c :: a, b)

def cutAtLast (p : Char → Bool) (cs : List Char) : Option (List Char × List Char) :=
  (cutAt p cs.reverse).map fun (a, b) => (b.reverse, a.reverse)

/-- All parts between the characters that satisfy `p`; there is always at least one. -/
def splitAt (p : Char → Bool) : List Char → List (List Char)
  | [] => [[]]
  | c :: cs =>
      if p c then [] :: splitAt p cs
      else match splitAt p cs with
        | [] => [[c]]
        | part :: rest => (c :: part) :: rest

/-- All parts between the occurrences of the two-character separator `a b`, found from the left. -/
def splitAtPair (a b : Char) : List Char → List (List Char)
  | [] => [[]]
  | [c] => [[c]]
  | c :: d :: cs =>
      if c == a && d == b then [] :: splitAtPair a b cs
      else match splitAtPair a b (d :: cs) with
        | [] => [[c]]
        | part :: rest => (c :: part) :: rest

/-- A line without one carriage return at its end. -/
def stripReturn (line : List Char) : List Char :=
  if line.getLast? == some '\r' then line.dropLast else line

/-- The lines of a text. A line feed ends a line, a carriage return right before it belongs to the
line end, and a text that ends with a line feed has no line after it. -/
def lines (cs : List Char) : List (List Char) :=
  let parts := splitAt (· == '\n') cs
  let ended := parts.dropLast.map stripReturn
  match parts.getLast? with
  | none => ended
  | some [] => ended
  | some last => ended ++ [last]

/-- Every occurrence of `old`, found from the left, replaced by `new`. An empty `old` replaces
nothing. -/
def replaceChars (old new : List Char) : List Char → List Char
  | [] => []
  | c :: cs =>
      if !old.isEmpty && old.isPrefixOf (c :: cs) then
        new ++ replaceChars old new (cs.drop (old.length - 1))
      else c :: replaceChars old new cs
termination_by cs => cs.length
decreasing_by
  all_goals simp only [List.length_drop, List.length_cons]
  all_goals omega

def replace (old new s : String) : String :=
  String.ofList (replaceChars old.toList new.toList s.toList)

end MacroReplay.Text
