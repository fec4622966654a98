import MacroReplay.Config.Json
import MacroReplay.Config.Yaml.Place

/-!
# Texts in YAML

A text is plain, stands between quotes, or is written line by line behind a bar or an angle. In plain and
quoted texts a line end counts as a space, and each empty line as a line end.

- `readPlain`, `readQuoted`, `readBlock` read a text of each kind
-/

namespace MacroReplay.Config.Yaml

/-- What stands between two words of a text. -/
structure Gap where
  /-- Blanks, if there is no line end. -/
  blanks : List Char
  /-- The number of line ends. -/
  breaks : Nat
  /-- Whether the first line end is escaped, so that it does not count. -/
  escaped : Bool

namespace Gap

def none : Gap := ⟨[], 0, false⟩

def hasBreak (g : Gap) : Bool :=
  g.escaped || g.breaks != 0

/-- The gap with one more blank; blanks at the front of a line do not count. -/
def addBlank (g : Gap) (c : Char) : Gap :=
  if g.hasBreak then g else { g with blanks := g.blanks ++ [c] }

def addBreak (g : Gap) : Gap :=
  { g with blanks := [], breaks := g.breaks + 1 }

def text (g : Gap) : List Char :=
  if g.escaped then List.replicate g.breaks '\n'
  else
    match g.breaks with
    | 0 => g.blanks
    | 1 => [' ']
    | n + 1 => List.replicate n '\n'

end Gap

/-! ## Plain texts -/

def plainGoesOn (inFlow : Bool) : List Char → Bool
  | [] => false
  | c :: rest =>
      if isGap c then false
      else if c == ':' then !(wordOver rest || (inFlow && flowMarkAhead rest))
      else !(inFlow && isFlowMark c)

/-- The gap between words of a plain text, and the place behind it. A tab may stand in an indentation
only if the line holds nothing else or a comment, and then the end of the comment does not count. -/
def readPlainGap (fuel : Nat) (indent : Int) (g : Gap) (p : Place) : Option (Gap × Place) :=
  match fuel with
  | 0 => none
  | fuel + 1 =>
      match p.rest with
      | '\n' :: _ => readPlainGap fuel indent g.addBreak p.next
      | c :: _ =>
          if !isBlank c then some (g, p)
          else if c == '\t' && p.fresh && p.column < indent then do
            let q ← p.skipToLineEnd
            if !q.sees '\n' then none
            else readPlainGap fuel indent g (if q.fresh then q else q.next)
          else readPlainGap fuel indent (if p.fresh then g else g.addBlank c) p.next
      | [] => some (g, p)

/-- A plain text behind a gap, and the place behind the text. -/
def readPlain (fuel : Nat) (inFlow : Bool) (indent : Int) (g : Gap) (p : Place) :
    Option (List Char × Place) :=
  match fuel with
  | 0 => none
  | fuel + 1 =>
      if p.atDocumentMark || p.sees '#' then some ([], p)
      else if inFlow && p.sees '-' && flowMarkAhead (p.rest.drop 1) then none
      else
        let (run, q) := p.takeRun (plainGoesOn inFlow) p.rest
        let here := if run.isEmpty then [] else g.text ++ run
        if !q.rest.head?.any isGap then some (here, q)
        else do
          let (g, r) ← readPlainGap (q.rest.length + 1) indent .none q
          if !inFlow && r.column < indent then some (here, r)
          else
            let (text, s) ← readPlain fuel inFlow indent g r
            some (here ++ text, s)

/-! ## Quoted texts -/

def simpleEscape? : Char → Option Char
  | '0' => some '\x00'
  | 'a' => some '\x07'
  | 'b' => some '\x08'
  | 't' => some '\t'
  | '\t' => some '\t'
  | 'n' => some '\n'
  | 'v' => some '\x0b'
  | 'f' => some '\x0c'
  | 'r' => some '\r'
  | 'e' => some '\x1b'
  | ' ' => some ' '
  | '"' => some '"'
  | '/' => some '/'
  | '\\' => some '\\'
  | 'N' => some '\u0085'
  | '_' => some '\u00a0'
  | 'L' => some '\u2028'
  | 'P' => some '\u2029'
  | _ => none

def codeOf? (width : Nat) (cs : List Char) : Option Char := do
  let digits := cs.take width
  if digits.length < width then none
  let n ← digits.foldlM (fun n c => (Json.hexValue? c).map (16 * n + ·)) 0
  if n.isValidChar then some (Char.ofNat n) else none

/-- The character that stands behind a backslash, and the number of characters it takes there. -/
def readEscape (cs : List Char) : Option (Char × Nat) :=
  match cs with
  | 'x' :: rest => (codeOf? 2 rest).map (·, 3)
  | 'u' :: rest => (codeOf? 4 rest).map (·, 5)
  | 'U' :: rest => (codeOf? 8 rest).map (·, 9)
  | c :: _ => (simpleEscape? c).map (·, 1)
  | [] => none

/-- The characters of a quoted text up to a gap or the closing quote, whether an escaped line end follows
them, and the place behind. Between single quotes a quote is written twice; between double quotes a
backslash begins an escape. -/
def readQuotedRun (fuel : Nat) (quote : Char) (p : Place) : Option (List Char × Bool × Place) :=
  match fuel with
  | 0 => none
  | fuel + 1 =>
      match p.rest with
      | [] => some ([], false, p)
      | c :: rest =>
          if isGap c then some ([], false, p)
          else if c == quote then
            if quote == '\x27' && rest.head? == some quote then
              (readQuotedRun fuel quote p.next.next).map fun (run, q) => (c :: run, q)
            else some ([], false, p)
          else if c == '\\' && quote == '"' then
            if rest.head? == some '\n' then some ([], true, p.next.next)
            else do
              let (c, width) ← readEscape rest
              let (run, q) ← readQuotedRun fuel quote (p.skip (1 + width))
              some (c :: run, q)
          else (readQuotedRun fuel quote p.next).map fun (run, q) => (c :: run, q)

def readQuotedGap (fuel : Nat) (indent : Int) (g : Gap) (p : Place) : Option (Gap × Place) :=
  match fuel with
  | 0 => none
  | fuel + 1 =>
      match p.rest with
      | '\n' :: _ => readQuotedGap fuel indent g.addBreak p.next
      | c :: _ =>
          if !isBlank c then some (g, p)
          else if g.hasBreak && c == '\t' && p.column < indent then none
          else readQuotedGap fuel indent (g.addBlank c) p.next
      | [] => some (g, p)

/-- A quoted text up to its closing quote, and the place of the quote. -/
def readQuotedBody (fuel : Nat) (quote : Char) (indent : Int) (p : Place) :
    Option (List Char × Place) :=
  match fuel with
  | 0 => none
  | fuel + 1 =>
      if p.atDocumentMark || p.atEnd || p.column < indent then none
      else do
        let (run, escaped, q) ← readQuotedRun (p.rest.length + 1) quote p
        if q.sees quote then some (run, q)
        else
          let (g, r) ← readQuotedGap (q.rest.length + 1) indent ⟨[], 0, escaped⟩ q
          let (text, s) ← readQuotedBody fuel quote indent r
          some (run ++ g.text ++ text, s)

/-- Whether a quoted text that began on a line may be followed by what stands here. -/
def mayFollowQuoted (inFlow : Bool) (line : Nat) (p : Place) : Bool :=
  match p.rest with
  | [] => true
  | '\n' :: _ => true
  | ':' :: _ => inFlow || p.line = line
  | c :: _ => inFlow && (c == ',' || c == ']' || c == '\x7d')

/-- A quoted text, from its opening quote on, and the place behind it and the blanks that follow. -/
def readQuoted (inFlow : Bool) (indent : Int) (p : Place) : Option (List Char × Place) := do
  let quote ← p.rest.head?
  let (text, q) ← readQuotedBody (p.rest.length + 1) quote indent p.next
  let q ← q.next.skipToLineEnd
  if mayFollowQuoted inFlow p.line q then some (text, q) else none

/-! ## Texts by lines -/

/-- What becomes of the line ends at the end of a text by lines. -/
inductive Ending where
  /-- One stays. -/
  | clip
  /-- None stays. -/
  | strip
  /-- All stay. -/
  | keep
  deriving DecidableEq, Repr

def ending? : List Char → Option Ending
  | '+' :: _ => some .keep
  | '-' :: _ => some .strip
  | _ => none

/-- The signs behind a bar: the ending, the number of columns of indentation if it is given, and the
number of signs. -/
def readHeader (cs : List Char) : Option (Ending × Nat × Nat) :=
  let width (cs : List Char) : Option Nat :=
    cs.head?.bind fun c => if Text.isDigit c then some (Text.digitValue c) else none
  match ending? cs, width cs with
  | some ending, _ =>
      match width (cs.drop 1) with
      | some n => if n = 0 then none else some (ending, n, 2)
      | none => some (ending, 0, 1)
  | none, some n =>
      if n = 0 then none
      else
        match ending? (cs.drop 1) with
        | some ending => some (ending, n, 2)
        | none => some (.clip, n, 1)
  | none, none => some (.clip, 0, 0)

/-- The place behind the indentation of a line, and behind empty lines before it, and their number. -/
def skipIndent (fuel indent : Nat) (p : Place) : Nat × Place :=
  match fuel with
  | 0 => (0, p)
  | fuel + 1 =>
      let spaces := (p.rest.takeWhile (· == ' ')).length
      let q := p.skip (min spaces (indent - p.column))
      if q.sees '\n' then
        let (breaks, r) := skipIndent fuel indent q.next
        (breaks + 1, r)
      else (0, q)

/-- The greatest indentation of empty lines and the line behind them, the number of empty lines, and the
place behind that indentation. -/
def measureIndent (fuel widest : Nat) (p : Place) : Nat × Nat × Place :=
  match fuel with
  | 0 => (widest, 0, p)
  | fuel + 1 =>
      let q := p.skipWhile (· == ' ')
      let widest := max widest q.column
      if q.sees '\n' then
        let (widest, breaks, r) := measureIndent fuel widest q.next
        (widest, breaks + 1, r)
      else (widest, 0, q)

/-- What joins two lines. Behind an angle a line end counts as a space unless a line around it begins
with a blank. -/
def lineJoin (literal afterBreak blankBefore blankHere : Bool) (breaks : Nat) : List Char :=
  if !literal && afterBreak && !blankBefore && !blankHere then
    if breaks = 0 then [' '] else List.replicate breaks '\n'
  else (if afterBreak then ['\n'] else []) ++ List.replicate breaks '\n'

/-- The lines of a text: the text so far, whether it stands behind a line end, the number of empty lines
behind that, and the place. -/
structure Lines where
  text : List Char
  afterBreak : Bool
  blankBefore : Bool
  breaks : Nat
  place : Place

/-- Reads lines at an indentation as long as there are any. -/
def Lines.read (fuel : Nat) (literal : Bool) (indent : Nat) (l : Lines) : Lines :=
  match fuel with
  | 0 => l
  | fuel + 1 =>
      if l.place.column ≠ indent || l.place.atEnd || (indent = 0 && l.place.atDocumentEnd) then l
      else
        let blankHere := l.place.rest.head?.any isBlank
        let (line, q) := l.place.takeWhile (· != '\n')
        let text :=
          l.text ++ lineJoin literal l.afterBreak l.blankBefore blankHere l.breaks ++ line
        if q.atEnd then ⟨text, false, blankHere, 0, q⟩
        else
          let (breaks, r) := skipIndent (q.rest.length + 1) indent q.next
          Lines.read fuel literal indent ⟨text, true, blankHere, breaks, r⟩

/-- The text of lines, with the line ends that its ending leaves. A last line without end counts as one
that has it. -/
def Lines.finish (ending : Ending) (indent : Nat) (l : Lines) : List Char :=
  let last := if l.afterBreak then ['\n'] else []
  let missing := if l.place.atEnd && max indent 1 ≤ l.place.column then ['\n'] else []
  match ending with
  | .strip => l.text
  | .clip => l.text ++ last ++ missing
  | .keep => l.text ++ last ++ missing ++ List.replicate l.breaks '\n'

/-- A text by lines, from behind the bar or the angle on, inside a block of an indentation; and the place
behind it. -/
def readBlock (literal : Bool) (outer : Int) (p : Place) : Option (List Char × Place) := do
  let (ending, width, signs) ← readHeader p.rest
  let q ← (p.skip signs).skipToLineEnd
  if !q.atLineEnd then none
  let r := q.next
  if r.sees '\t' then none
  let (indent, breaks, s) :=
    if width = 0 then
      let (widest, breaks, s) := measureIndent (r.rest.length + 1) 0 r
      let indent := max widest (outer + 1).toNat
      (if 0 < outer then max indent 1 else indent, breaks, s)
    else
      let indent := outer.toNat + width
      let (breaks, s) := skipIndent (r.rest.length + 1) indent r
      (indent, breaks, s)
  if s.atEnd then
    let text := match ending with
      | .strip => []
      | .clip => if s.line = p.line then [] else ['\n']
      | .keep => if s.line = p.line then [] else List.replicate (max breaks 1) '\n'
    some (text, s)
  else if s.column < indent && outer < s.column then none
  else
    let l := Lines.read (s.rest.length + 1) literal indent ⟨[], false, false, breaks, s⟩
    some (l.finish ending indent, l.place)

end MacroReplay.Config.Yaml
