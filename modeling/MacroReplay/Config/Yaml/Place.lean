import MacroReplay.Text.Ascii

/-!
# Places in a YAML text

A place knows what follows it, and where it stands: its line and column, and whether only blanks stand
before it on its line. Lines end with `'\n'` only.

- `Place.next` goes one character on
- `Place.skipToLineEnd` goes over blanks and a comment
-/

namespace MacroReplay.Config.Yaml

/-! ## Characters -/

def isBlank (c : Char) : Bool :=
  c == ' ' || c == '\t'

def isGap (c : Char) : Bool :=
  isBlank c || c == '\n'

/-- The marks of lists and maps in brackets. -/
def isFlowMark (c : Char) : Bool :=
  c == ',' || c == '[' || c == ']' || c == '\x7b' || c == '\x7d'

def isNameChar (c : Char) : Bool :=
  Text.isLetter c || Text.isDigit c || c == '_' || c == '-'

def wordOver : List Char → Bool
  | [] => true
  | c :: _ => isGap c

def lineOver : List Char → Bool
  | [] => true
  | c :: _ => c == '\n'

def flowMarkAhead : List Char → Bool
  | [] => false
  | c :: _ => isFlowMark c

/-- Whether three characters and then no more of the word stand here. -/
def isThrice (mark : Char) : List Char → Bool
  | a :: b :: c :: rest => a == mark && b == mark && c == mark && wordOver rest
  | _ => false

/-! ## Places -/

/-- A place in a text. -/
structure Place where
  /-- The number of characters before it. -/
  index : Nat
  /-- The number of lines before its own. -/
  line : Nat
  /-- The number of characters before it on its line. -/
  column : Nat
  /-- Whether only blanks stand before it on its line. -/
  fresh : Bool
  /-- What follows. -/
  rest : List Char

namespace Place

def front (cs : List Char) : Place := ⟨0, 0, 0, true, cs⟩

def next (p : Place) : Place :=
  match p.rest with
  | [] => p
  | '\n' :: rest => ⟨p.index + 1, p.line + 1, 0, true, rest⟩
  | c :: rest => ⟨p.index + 1, p.line, p.column + 1, p.fresh && isBlank c, rest⟩

def skip (p : Place) : Nat → Place
  | 0 => p
  | n + 1 => p.next.skip n

/-- The characters that pass a test, each with what follows it, and the place behind them. -/
def takeRun (test : List Char → Bool) : (cs : List Char) → Place → List Char × Place
  | [], p => ([], p)
  | c :: cs, p =>
      if test (c :: cs) then
        let (run, q) := takeRun test cs p.next
        (c :: run, q)
      else ([], p)

def takeWhile (test : Char → Bool) (p : Place) : List Char × Place :=
  takeRun (fun cs => cs.head?.any test) p.rest p

def skipWhile (test : Char → Bool) (p : Place) : Place :=
  (p.takeWhile test).2

def atEnd (p : Place) : Bool :=
  p.rest.isEmpty

def atLineEnd (p : Place) : Bool :=
  lineOver p.rest

def sees (p : Place) (c : Char) : Bool :=
  p.rest.head? == some c

def atDocumentStart (p : Place) : Bool :=
  p.column = 0 && isThrice '-' p.rest

def atDocumentEnd (p : Place) : Bool :=
  p.column = 0 && isThrice '.' p.rest

def atDocumentMark (p : Place) : Bool :=
  p.atDocumentStart || p.atDocumentEnd

def skipComment (p : Place) : Place :=
  if p.sees '#' then p.skipWhile (· != '\n') else p

/-- The place behind blanks and a comment, which has to be kept apart by a blank. -/
def skipToLineEnd (p : Place) : Option Place :=
  let q := p.skipWhile isBlank
  if q.sees '#' && q.index = p.index then none else some q.skipComment

def blanks (p : Place) : List Char :=
  p.rest.takeWhile isBlank

/-- The next place at which something stands. Where a block is indented, no tab may stand before what is
on a line. -/
def skipGap (fuel : Nat) (inBlock : Bool) (indent : Int) (p : Place) : Option Place :=
  match fuel with
  | 0 => none
  | fuel + 1 =>
      match p.rest with
      | '\t' :: _ =>
          if inBlock && p.fresh && p.column < indent then do
            let q ← p.skipToLineEnd
            if q.atLineEnd then skipGap fuel inBlock indent q else none
          else skipGap fuel inBlock indent p.next
      | ' ' :: _ => skipGap fuel inBlock indent p.next
      | '\n' :: _ => skipGap fuel inBlock indent p.next
      | '#' :: _ => skipGap fuel inBlock indent p.skipComment
      | _ => some p

end Place
end MacroReplay.Config.Yaml
