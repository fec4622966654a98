import MacroReplay.Address.Domain.Mapping
import MacroReplay.Address.Domain.Punycode
import MacroReplay.Text.Unicode.Composition
import MacroReplay.Text.Unicode.Direction
import MacroReplay.Text.Unicode.Joining

/-!
# Labels of domain names

A label is what stands between two dots. A label with characters outside ASCII has a written form that
begins with `xn--`. Its characters have to be in composed form and mapped to themselves, it may not
begin with a mark, and the two characters that join or separate letters stand only where they change
something. Where one label of a name runs from right to left, all of them follow the rule on direction.
-/

namespace MacroReplay.Address.Domain

open Unicode

/-- What the written form of a label outside ASCII begins with. -/
def writtenMark : List Char := ['x', 'n', '-', '-']

def isAscii (cs : List Char) : Bool :=
  cs.all (·.toNat < 0x80)

/-! ## Joiners -/

def separator : Char := '\u200c'

def joiner : Char := '\u200d'

/-- Whether a character that joins to the right comes next, transparent ones aside. -/
def joinsNext (cs : List Char) : Bool :=
  (cs.dropWhile (joining · == .transparent)).head?.any fun c =>
    joining c == .right || joining c == .both

/-- Whether a character that joins to the left came last, transparent ones aside; the characters before
are given last first. -/
def joinsLast (before : List Char) : Bool :=
  (before.dropWhile (joining · == .transparent)).head?.any fun c =>
    joining c == .left || joining c == .both

/-- Whether joiners and separators stand where they may, given the characters before, last first. -/
def joinersFit (before : List Char) : List Char → Bool
  | [] => true
  | c :: cs =>
      let afterVirama := before.head?.any (combiningClass · == viramaClass)
      let fits :=
        if c == joiner then afterVirama
        else if c == separator then afterVirama || (joinsLast before && joinsNext cs)
        else true
      fits && joinersFit (c :: before) cs

/-! ## Labels -/

def isValidLabel (cs : List Char) : Bool :=
  cs.all isFixed && !(cs.head?.any isMark) && joinersFit [] cs

def maxLabel : Nat := 1000

def maxWritten : Nat := 2000

/-- The name that a written form stands for. -/
def readWritten? (cs : List Char) : Option (List Char) :=
  if cs.isEmpty || maxWritten < cs.length || cs.getLast? == some '-' then none
  else
    (Punycode.decode cs).filter fun name =>
      !isAscii name && normalForm name == name && isValidLabel name

/-- The characters of a label, read from its written form if it is in that. -/
def label? (cs : List Char) : Option (List Char) :=
  if writtenMark.isPrefixOf cs then readWritten? (cs.drop writtenMark.length)
  else if isAscii cs then some cs
  else if isValidLabel cs && cs.length ≤ maxLabel then some cs
  else none

def writeLabel (cs : List Char) : List Char :=
  if isAscii cs then cs else writtenMark ++ Punycode.encode cs

/-! ## Direction -/

def hasRightToLeft (cs : List Char) : Bool :=
  cs.any fun c => direction c == .rightToLeft || direction c == .arabicNumber

/-- The direction of the last character that is no mark. -/
def lastDirection? (cs : List Char) : Option Direction :=
  ((cs.reverse.map direction).dropWhile (· == .mark)).head?

def followsDirection (cs : List Char) : Bool :=
  let directions := cs.map direction
  match directions.head?, lastDirection? cs with
  | some .rightToLeft, some last =>
      directions.all (fun d => d != .leftToRight && d != .other) &&
        (last == .rightToLeft || last == .europeanNumber || last == .arabicNumber) &&
        !(directions.contains .europeanNumber && directions.contains .arabicNumber)
  | some .leftToRight, some last =>
      directions.all (fun d => d != .rightToLeft && d != .arabicNumber && d != .other) &&
        (last == .leftToRight || last == .europeanNumber)
  | none, _ => true
  | _, _ => false

end MacroReplay.Address.Domain
