import MacroReplay.Config.Yaml.Scalar

/-!
# Tokens of a YAML text

The tokens of a text make its structure explicit: where indentation opens a block there is a token for
it, and one where the block ends. That something is a key shows only at the colon behind it; its token is
put in front of it then.

- `Token.readTag` and `Token.readDirective` read the tokens that look alike everywhere
-/

namespace MacroReplay.Config.Yaml

inductive Token where
  /-- The directive that gives a version. -/
  | version
  /-- The directive that gives a meaning to the handle of tags. -/
  | handle (name target : List Char)
  | documentStart
  | documentEnd
  | blockListStart
  | blockMapStart
  | blockEnd
  | flowListStart
  | flowListEnd
  | flowMapStart
  | flowMapEnd
  /-- The dash of an item. -/
  | dash
  /-- The comma between entries in brackets. -/
  | comma
  | key
  | value
  | alias (name : List Char)
  | anchor (name : List Char)
  | tag (handle suffix : List Char)
  | scalar (isPlain : Bool) (text : List Char)
  deriving DecidableEq, Repr

namespace Token

/-! ## Directives and tags -/

def isUriChar (c : Char) : Bool :=
  isNameChar c || "#;/?:@&=+$,.!~*\x27()[]%".toList.contains c

def isTagChar (c : Char) : Bool :=
  isUriChar c && !isFlowMark c && c != '!'

def byteCount? (byte : Nat) : Option Nat :=
  if byte < 0x80 then some 1
  else if 0xC0 ≤ byte && byte < 0xE0 then some 2
  else if 0xE0 ≤ byte && byte < 0xF0 then some 3
  else if 0xF0 ≤ byte && byte < 0xF8 then some 4
  else none

def readByte (cs : List Char) : Option Nat :=
  match cs with
  | '%' :: a :: b :: _ => do some (16 * (← Json.hexValue? a) + (← Json.hexValue? b))
  | _ => none

/-- The number that so many more bytes make with those before. -/
def readMoreBytes (code : Nat) : (count : Nat) → List Char → Option Nat
  | 0, _ => some code
  | count + 1, cs => do
      let byte ← readByte cs
      if 0x80 ≤ byte && byte < 0xC0 then readMoreBytes (256 * code + byte) count (cs.drop 3) else none

/-- The character that bytes behind percent signs stand for, and their number. -/
def readUriEscape (cs : List Char) : Option (Char × Nat) := do
  let first ← readByte cs
  let count ← byteCount? first
  let code ← readMoreBytes first (count - 1) (cs.drop 3)
  if code.isValidChar then some (Char.ofNat code, count) else none

def readUri (fuel : Nat) (test : Char → Bool) (p : Place) : Option (List Char × Place) :=
  match fuel with
  | 0 => none
  | fuel + 1 =>
      match p.rest with
      | [] => some ([], p)
      | c :: _ =>
          if !test c then some ([], p)
          else do
            let (c, width) ← if c == '%' then
                (readUriEscape p.rest).map fun (c, count) => (c, 3 * count)
              else some (c, 1)
            let (name, q) ← readUri fuel test (p.skip width)
            some (c :: name, q)

/-- The handle of a tag, with its exclamation marks, and the place behind it. -/
def readHandle (p : Place) : Option (List Char × Place) :=
  if !p.sees '!' then none
  else
    let (name, q) := p.next.takeWhile isNameChar
    if q.sees '!' then some ('!' :: name ++ ['!'], q.next) else some ('!' :: name, q)

/-- Whether a text has an exclamation mark at both ends. -/
def isHandle (cs : List Char) : Bool :=
  2 ≤ cs.length && cs.head? == some '!' && cs.getLast? == some '!'

def readTag (p : Place) : Option (Token × Place) := do
  let fuel := p.rest.length + 1
  if p.rest[1]? == some '<' then
    let (name, q) ← readUri fuel isUriChar (p.skip 2)
    if q.sees '>' then some (.tag [] name, q.next) else none
  else
    let (name, q) ← readHandle p
    let (suffix, r) ← readUri fuel isTagChar q
    if isHandle name then
      if suffix.isEmpty then none else some (.tag name suffix, r)
    else
      let suffix := name.drop 1 ++ suffix
      if suffix.isEmpty then some (.tag [] ['!'], r) else some (.tag ['!'] suffix, r)

/-- A number of a version, and the place behind it. -/
def skipVersionNumber (p : Place) : Option Place :=
  let (digits, q) := p.takeWhile Text.isDigit
  if digits.isEmpty || 9 < digits.length then none else some q

def readVersion (p : Place) : Option (Token × Place) := do
  let q ← skipVersionNumber (p.skipWhile isBlank)
  if !q.sees '.' then none
  let r ← skipVersionNumber q.next
  some (.version, r)

/-- The handle and its meaning behind their directive, and the place behind them. -/
def readHandleMeaning (p : Place) : Option (Token × Place) := do
  let (name, q) ← readHandle (p.skipWhile isBlank)
  if !isHandle name && name != ['!'] then none
  let r := q.skipWhile isBlank
  let (first, r) ← match r.rest with
    | '!' :: _ => some (['!'], r.next)
    | c :: _ => if isTagChar c then some ([], r) else none
    | [] => none
  let (target, r) ← readUri (r.rest.length + 1) isUriChar r
  if wordOver r.rest then some (.handle name (first ++ target), r) else none

/-- A directive, and the place behind it. One that is not known has no meaning. -/
def readDirective (p : Place) : Option (Token × Place) := do
  let (name, q) := p.next.takeWhile isNameChar
  if name.isEmpty || !wordOver q.rest then none
  if name = "YAML".toList then readVersion q
  else if name = "TAG".toList then readHandleMeaning q
  else some (.handle [] [], q.skipWhile (· != '\n'))

end Token
end MacroReplay.Config.Yaml
