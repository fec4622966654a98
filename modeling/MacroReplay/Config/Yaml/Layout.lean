import MacroReplay.Config.Yaml.Token

/-!
# Layout of a YAML text

Which tokens a text has depends on what stands around them: on the indentation, on the brackets that are
open, and on whether a key may begin here.

- `Layout` is the state of the reading: indentation, brackets, and what may still turn out to be a key
- `Token.scan` gives the tokens of a text
-/

namespace MacroReplay.Config.Yaml

/-- Something that may turn out to be a key. -/
structure KeyStart where
  possible : Bool
  /-- Whether nothing else can stand here. -/
  required : Bool
  /-- The number of tokens before it. -/
  token : Nat
  index : Nat
  line : Nat
  column : Nat
  deriving DecidableEq, Repr

def KeyStart.none : KeyStart := ⟨false, false, 0, 0, 0, 0⟩

structure Indent where
  /-- The indentation around it. -/
  outer : Int
  /-- Whether a block goes with it, or only the rule that what follows has to be indented. -/
  isBlock : Bool
  deriving DecidableEq, Repr

/-- The state of the reading. -/
structure Layout where
  place : Place
  /-- The tokens so far, the last one first. -/
  tokens : List Token := []
  /-- Whether the last token is an anchor or a tag at the front of a line. -/
  markAtFront : Bool := false
  /-- Whether a key may begin here. -/
  keyAllowed : Bool := true
  /-- What may be a key, for each level of brackets, the innermost one first. -/
  keys : List KeyStart := [KeyStart.none]
  indent : Int := -1
  /-- The indentations, the innermost one first. -/
  indents : List Indent := []
  /-- The number of brackets that are open. -/
  level : Nat := 0
  /-- Where a colon needs no blank behind it. -/
  adjacent : Nat := 0
  /-- Whether a map in brackets was opened. -/
  mapOpened : Bool := false
  /-- For each list in brackets, the innermost one first, whether it is in the middle of an entry with a
  key. -/
  pairs : List Bool := []

namespace Layout

/-! ## Tokens -/

def push (s : Layout) (t : Token) : Layout :=
  { s with tokens := t :: s.tokens, markAtFront := false }

def insertAt (s : Layout) (n : Nat) (t : Token) : Layout :=
  let later := s.tokens.length - n
  { s with tokens := s.tokens.take later ++ t :: s.tokens.drop later }

/-! ## Keys -/

def inFlow (s : Layout) : Bool :=
  s.level != 0

/-- Remembers that a key may begin here. -/
def saveKey (s : Layout) : Layout :=
  if s.keyAllowed then
    let p := s.place
    let required := !s.inFlow && s.indent = p.column && (s.indents.head?.any (·.isBlock))
    { s with keys := ⟨true, required, s.tokens.length, p.index, p.line, p.column⟩ :: s.keys.drop 1 }
  else s

def removeKey (s : Layout) : Option Layout :=
  match s.keys with
  | [] => some s
  | k :: ks =>
      if k.possible && k.required then none
      else some { s with keys := { k with possible := false } :: ks }

/-- Forgets what can no longer be a key: outside brackets a key is at most a thousand characters long and
ends on its line. -/
def dropStaleKeys (s : Layout) : Option Layout :=
  let isStale (k : KeyStart) : Bool :=
    k.possible && !s.inFlow && (k.line < s.place.line || k.index + 1024 < s.place.index)
  if s.keys.any fun k => isStale k && k.required then none
  else some { s with keys := s.keys.map fun k => if isStale k then { k with possible := false } else k }

/-! ## Indentation -/

/-- Ends the blocks that are indented further than a column. -/
def unroll (column : Int) : List Indent → Layout → Layout
  | [], s => { s with indents := [] }
  | i :: is, s =>
      if column < s.indent then
        let s := { s with indent := i.outer, indents := is }
        unroll column is (if i.isBlock then s.push .blockEnd else s)
      else s

/-- Ends the blocks that are indented further than a column, outside brackets. -/
def unrollTo (s : Layout) (column : Int) : Layout :=
  if s.inFlow then s else unroll column s.indents s

/-- Begins a block at a column, behind so many tokens, unless it is open. -/
def rollTo (s : Layout) (column : Nat) (token : Nat) (start : Token) : Layout :=
  if s.inFlow then s
  else
    let s : Layout := match s.indents with
      | i :: is =>
          if s.indent ≤ (column : Int) && !i.isBlock then { s with indent := i.outer, indents := is }
          else s
      | [] => s
    if s.indent < column then
      let s := { s with indents := ⟨s.indent, true⟩ :: s.indents, indent := column }
      if token = s.tokens.length then s.push start else s.insertAt token start
    else s

/-- Asks for one more column of indentation in the block. -/
def rollOne (s : Layout) : Layout :=
  if !s.inFlow && (s.indents.head?.any (·.isBlock)) then
    { s with indents := ⟨s.indent, false⟩ :: s.indents, indent := s.indent + 1 }
  else s

/-- The indentation of the innermost block, and the indentations up to it. -/
def blockIndent (indent : Int) : List Indent → Int × List Indent
  | [] => (indent, [])
  | i :: is => if i.isBlock then (indent, i :: is) else blockIndent i.outer is

/-- Asks for no more indentation than that of the block. -/
def unrollOnes (s : Layout) : Layout :=
  let (indent, indents) := blockIndent s.indent s.indents
  { s with indent := indent, indents := indents }

/-! ## Gaps -/

/-- Goes over blanks and a comment. -/
def skipToLineEnd (s : Layout) : Option Layout :=
  s.place.skipToLineEnd.map fun p => { s with place := p }

/-- Goes on to where something stands. Outside brackets a key may begin on a new line. -/
def skipGap (s : Layout) : Option Layout :=
  (s.place.skipGap (2 * s.place.rest.length + 1) (!s.indents.isEmpty) s.indent).map fun p =>
    { s with place := p, keyAllowed := s.keyAllowed || (!s.inFlow && s.place.line < p.line) }

/-! ## Steps -/

def fetchDirective (s : Layout) : Option Layout := do
  let s ← (s.unrollTo (-1)).removeKey
  let (t, p) ← Token.readDirective s.place
  let s ← { s with place := p, keyAllowed := false }.skipToLineEnd
  if s.place.atLineEnd then some ({ s with place := s.place.next }.push t) else none

def fetchDocumentMark (s : Layout) (t : Token) : Option Layout := do
  let s ← (s.unrollTo (-1)).removeKey
  some ({ s with place := s.place.skip 3, keyAllowed := false }.push t)

/-- Reads the end of a document, behind which its line may hold only a comment. -/
def fetchDocumentEnd (s : Layout) : Option Layout := do
  let s ← s.fetchDocumentMark .documentEnd
  let s ← s.skipToLineEnd
  if s.place.atLineEnd then some s else none

def fetchFlowStart (s : Layout) (t : Token) : Option Layout := do
  let s := s.saveKey.rollOne
  if 255 ≤ s.level then none
  let s := { s with
    level := s.level + 1
    keys := KeyStart.none :: s.keys
    keyAllowed := true
    place := s.place.next
    mapOpened := s.mapOpened || t = Token.flowMapStart
    pairs := if t = Token.flowMapStart then s.pairs else false :: s.pairs }
  let s ← s.skipToLineEnd
  some (s.push t)

/-- Ends an entry with a key in a list in brackets. -/
def endPair (s : Layout) : Layout :=
  match s.pairs with
  | true :: ps => { s with mapOpened := false, pairs := false :: ps }.push .flowMapEnd
  | _ => s

def fetchFlowEnd (s : Layout) (t : Token) : Option Layout := do
  let s ← s.removeKey
  let s := if s.inFlow then { s with level := s.level - 1, keys := s.keys.drop 1 } else s
  let s := { s with keyAllowed := false }
  let s := if t = .flowListEnd then { s.endPair with pairs := s.pairs.drop 1 } else s
  let s ← { s with place := s.place.next }.skipToLineEnd
  let s := if s.inFlow then { s with adjacent := s.place.index } else s
  some (s.push t)

def fetchComma (s : Layout) : Option Layout := do
  let s ← s.removeKey
  let s := { s with keyAllowed := true }.endPair
  let s ← { s with place := s.place.next }.skipToLineEnd
  some (s.push .comma)

def fetchDash (s : Layout) : Option Layout := do
  if s.inFlow || !s.keyAllowed then none
  if s.markAtFront && s.place.column = 0 && -1 < s.indent then none
  let p := s.place
  let s := { s with place := p.next }.rollTo p.column s.tokens.length .blockListStart
  let tabbed := s.place.blanks.contains '\t'
  let s ← s.skipToLineEnd
  if tabbed && s.place.sees '-' && wordOver (s.place.rest.drop 1) then none
  let s := if s.place.sees '\n' || flowMarkAhead s.place.rest then s.rollOne else s
  let s ← s.removeKey
  some ({ s with keyAllowed := true }.push .dash)

/-- The place behind what may stand between the mark of a key and the key. -/
def skipAfterKeyMark (fuel : Nat) (p : Place) : Place :=
  match fuel with
  | 0 => p
  | fuel + 1 =>
      match p.rest with
      | ' ' :: _ => skipAfterKeyMark fuel p.next
      | '\n' :: _ => skipAfterKeyMark fuel p.next
      | '#' :: _ => skipAfterKeyMark fuel p.skipComment
      | _ => p

def fetchKey (s : Layout) : Option Layout := do
  if !s.inFlow && !s.keyAllowed then none
  let p := s.place
  let s := if s.inFlow then { s with mapOpened := true }
    else s.rollTo p.column s.tokens.length .blockMapStart
  let s ← s.removeKey
  let q := skipAfterKeyMark (p.rest.length + 1) p.next
  if !p.next.rest.head?.any (fun c => c == ' ' || c == '\n') || q.sees '\t' then none
  some ({ s with keyAllowed := !s.inFlow, place := q }.push .key)

/-- Reads the colon of a value. What may be a key before it is one now. -/
def fetchValue (s : Layout) : Option Layout := do
  let p := s.place
  let isPair := !s.pairs.isEmpty && !s.mapOpened
  let s := if isPair then { s with pairs := true :: s.pairs.drop 1 } else s
  let behind := p.next
  let behind ← if behind.sees '\t' then do
      let q ← behind.skipToLineEnd
      if !behind.blanks.contains ' ' && q.rest.head?.any isNameChar then none else some q
    else some behind
  let s := { s with place := behind }
  let k := s.keys.head?.getD KeyStart.none
  if k.possible then
    let s := s.insertAt k.token .key
    if isPair && k.line < p.line then none
    let s := if isPair then s.insertAt k.token .flowMapStart else s
    let s := (s.rollTo k.column k.token .blockMapStart).rollOne
    let s := { s with keys := { k with possible := false } :: s.keys.drop 1, keyAllowed := false }
    some (s.push .value)
  else
    let s := if isPair then s.push .flowMapStart else s
    if !s.inFlow && !s.keyAllowed then none
    let s := (s.rollTo p.column s.tokens.length .blockMapStart).rollOne
    some ({ s with keyAllowed := !s.inFlow }.push .value)

/-- Adds an anchor or a tag, given the column it stands at. -/
def pushMark (s : Layout) (column : Nat) (t : Token) : Layout :=
  { s.push t with markAtFront := column = 0 }

def isAnchorChar (c : Char) : Bool :=
  !isGap c && !isFlowMark c && c != '\ufeff'

def fetchAnchor (s : Layout) (isAlias : Bool) : Option Layout := do
  let s := { s.saveKey with keyAllowed := false }
  let (name, q) := s.place.next.takeWhile isAnchorChar
  if name.isEmpty then none
  let column := s.place.column
  let s := { s with place := q }
  some (if isAlias then s.push (.alias name) else s.pushMark column (.anchor name))

def fetchTag (s : Layout) : Option Layout := do
  let s := { s.saveKey with keyAllowed := false }
  let (t, q) ← Token.readTag s.place
  if wordOver q.rest || (s.inFlow && flowMarkAhead q.rest) then
    some ({ s with place := q }.pushMark s.place.column t)
  else none

def fetchBlock (s : Layout) (literal : Bool) : Option Layout := do
  let s := { s.saveKey with keyAllowed := true }.unrollOnes
  let (text, q) ← readBlock literal s.indent s.place.next
  some ({ s with place := q }.push (.scalar false text))

/-- Reads a quoted text. In brackets a colon right behind it needs no blank. -/
def fetchQuoted (s : Layout) : Option Layout := do
  let s := { s.saveKey with keyAllowed := false }
  let (text, q) ← readQuoted s.inFlow s.indent s.place
  let s ← { s with place := q }.skipGap
  some ({ s with adjacent := s.place.index }.push (.scalar false text))

def fetchPlain (s : Layout) : Option Layout := do
  let s := s.saveKey.unrollOnes
  let indent := s.indent + 1
  if s.inFlow && s.place.column < indent then none
  let (text, q) ← readPlain (s.place.rest.length + 1) s.inFlow indent .none s.place
  some ({ s with place := q, keyAllowed := q.fresh }.push (.scalar true text))

def fetchFrom (s : Layout) (c : Char) (rest : List Char) : Option Layout :=
  let ended := wordOver rest
  match c with
  | '[' => s.fetchFlowStart .flowListStart
  | '\x7b' => s.fetchFlowStart .flowMapStart
  | ']' => s.fetchFlowEnd .flowListEnd
  | '\x7d' => s.fetchFlowEnd .flowMapEnd
  | ',' => s.fetchComma
  | '*' => s.fetchAnchor true
  | '&' => s.fetchAnchor false
  | '!' => s.fetchTag
  | '\x27' => s.fetchQuoted
  | '"' => s.fetchQuoted
  | '%' => none
  | '@' => none
  | '\x60' => none
  | '-' => if ended then s.fetchDash else s.fetchPlain
  | '?' => if ended then s.fetchKey else s.fetchPlain
  | ':' =>
      if ended || (s.inFlow && (flowMarkAhead rest || s.place.index = s.adjacent)) then s.fetchValue
      else s.fetchPlain
  | '|' => if s.inFlow then s.fetchPlain else s.fetchBlock true
  | '>' => if s.inFlow then s.fetchPlain else s.fetchBlock false
  | _ => s.fetchPlain

def run (fuel : Nat) (s : Layout) : Option (List Token) :=
  match fuel with
  | 0 => none
  | fuel + 1 => do
      let s ← (← s.skipGap).dropStaleKeys
      let s := s.unrollTo s.place.column
      match s.place.rest with
      | [] =>
          if s.keys.any fun k => k.possible && k.required then none
          else some (s.unrollTo (-1)).tokens.reverse
      | c :: rest =>
          if s.place.column = 0 && c == '%' then run fuel (← s.fetchDirective)
          else if s.place.atDocumentStart then run fuel (← s.fetchDocumentMark .documentStart)
          else if s.place.atDocumentEnd then run fuel (← s.fetchDocumentEnd)
          else if s.place.column < s.indent then none
          else run fuel (← s.fetchFrom c rest)

end Layout

def Token.scan (cs : List Char) : Option (List Token) :=
  Layout.run (cs.length + 1) { place := Place.front cs }

end MacroReplay.Config.Yaml
