import MacroReplay.Config.Setting
import MacroReplay.Config.Yaml.Layout

/-!
# Nodes of a YAML text

A node is a plain word, a text, a list or a map. Whether a plain word is a number is read off the word
itself unless a tag says it. A node with an anchor stands wherever an alias names the anchor.

- `Node.ofPlain` and `Node.ofTagged` say what a plain word stands for
- `Node.ofTokens?` reads the one node of a text
-/

namespace MacroReplay.Config.Yaml

inductive Node where
  /-- A word that is not what its tag says, or an alias inside the node that it names. -/
  | bad
  | nothing
  | flag (b : Bool)
  | integer (n : Int)
  /-- A number as it is written. -/
  | real (word : String)
  | text (s : String)
  | list (items : List Node)
  | map (entries : List (Node × Node))

/-! ## Words -/

/-- The value of digits of a base with an optional sign, if sixty-four bits can hold it. -/
def integerOf? (base : Nat) (cs : List Char) : Option Int := do
  let (negative, digits) := match cs with
    | '-' :: rest => (true, rest)
    | '+' :: rest => (false, rest)
    | rest => (false, rest)
  if digits.isEmpty then none
  let size ← digits.foldlM (fun n c =>
    (Json.hexValue? c).bind fun v => if v < base then some (base * n + v) else none) 0
  let n : Int := if negative then -(size : Int) else size
  if -Int.pow 2 63 ≤ n ∧ n < Int.pow 2 63 then some n else none

/-- The integer that a word without tag stands for. -/
def integer? (cs : List Char) : Option Int :=
  match cs with
  | '0' :: 'x' :: rest => integerOf? 16 rest
  | '0' :: 'o' :: rest => integerOf? 8 rest
  | '+' :: rest => integerOf? 10 rest <|> integerOf? 10 cs
  | _ => integerOf? 10 cs

def endlessWords : List String :=
  [".inf", ".Inf", ".INF", "+.inf", "+.Inf", "+.INF", "-.inf", "-.Inf", "-.INF", ".nan", ".NaN", ".NAN"]

def isReal (word : String) : Bool :=
  endlessWords.contains word || (word.toList.any Text.isDigit && (readReal? word).isSome)

namespace Node

def ofPlain (cs : List Char) : Node :=
  let word := String.ofList cs
  match integer? cs with
  | some n => .integer n
  | none =>
      if word = "~" ∨ word = "null" then .nothing
      else if word = "true" ∨ word = "True" ∨ word = "TRUE" then .flag true
      else if word = "false" ∨ word = "False" ∨ word = "FALSE" then .flag false
      else if isReal word then .real word
      else .text word

/-- What a plain word stands for of which a tag gives the kind. -/
def ofTagged (kind : String) (cs : List Char) : Node :=
  let word := String.ofList cs
  if kind = "bool" then
    if word = "true" then .flag true else if word = "false" then .flag false else .bad
  else if kind = "int" then ((integerOf? 10 cs).map Node.integer).getD .bad
  else if kind = "float" then if isReal word then .real word else .bad
  else if kind = "null" then if word = "~" ∨ word = "null" then .nothing else .bad
  else .text word

/-- A tag with its handle replaced by what that stands for. -/
structure Tag where
  space : List Char
  name : List Char

/-- The space of the tags that give the kind of a word. -/
def kinds : List Char := "tag:yaml.org,2002:".toList

def ofScalar (isPlain : Bool) (tag : Option Tag) (cs : List Char) : Node :=
  if !isPlain then .text (String.ofList cs)
  else
    match tag with
    | none => ofPlain cs
    | some t =>
        if t.space = kinds then ofTagged (String.ofList t.name) cs else .text (String.ofList cs)

/-! ## Maps -/

/-- Keys and values in turn, as entries. A key that is bad counts as left out. -/
def pairUp : List Node → List (Node × Node)
  | [] => []
  | .bad :: rest => pairUp rest
  | [_] => []
  | key :: value :: rest => (key, value) :: pairUp rest

def isSameKey : Node → Node → Bool
  | .text s, .text t => s == t
  | .integer m, .integer n => m == n
  | _, _ => false

def hasTwice : List (Node × Node) → Bool
  | [] => false
  | (key, _) :: rest => (rest.any fun (other, _) => isSameKey key other) || hasTwice rest

/-- The map of keys and values in turn. No key may stand twice. -/
def mapOf? (parts : List Node) : Option Node :=
  let entries := pairUp parts
  if hasTwice entries then none else some (.map entries)

end Node

/-! ## Reading -/

/-- What is left to read, and what is known. -/
structure Source where
  tokens : List Token
  /-- The anchors so far, the latest one first, each with its node once that is complete. -/
  anchors : List (List Char × Option Node) := []
  /-- The handle that has been given a meaning, and that. -/
  handle : Option (List Char × List Char) := none

structure Properties where
  /-- The number of anchors before its own. -/
  anchor : Option Nat := none
  tag : Option Node.Tag := none

namespace Source

def find? (s : Source) (name : List Char) : Option Node :=
  (s.anchors.lookup name).map (·.getD .bad)

def addAnchor (s : Source) (name : List Char) : Source :=
  { s with anchors := (name, none) :: s.anchors }

def complete (s : Source) (anchor : Option Nat) (n : Node) : Source :=
  match anchor with
  | none => s
  | some i =>
      { s with anchors := s.anchors.modify (s.anchors.length - 1 - i) fun (name, _) => (name, some n) }

/-- The tag of a handle that has been given no meaning. One between exclamation marks needs one, except
the handle of the kinds of words. -/
def usualTag? (handle suffix : List Char) : Option Node.Tag :=
  if handle = ['!', '!'] then some ⟨Node.kinds, suffix⟩
  else if Token.isHandle handle then none
  else some ⟨handle, suffix⟩

/-- The tag that a handle and a suffix make. -/
def tag? (s : Source) (handle suffix : List Char) : Option Node.Tag :=
  match s.handle with
  | some (name, meaning) => if name = handle then some ⟨meaning, suffix⟩ else usualTag? handle suffix
  | none => usualTag? handle suffix

/-- The anchor and the tag of a node, in either order, and what follows. -/
def readProperties (s : Source) : Option (Properties × Source) :=
  let number := s.anchors.length
  match s.tokens with
  | .anchor name :: .tag handle suffix :: rest => do
      let tag ← s.tag? handle suffix
      some (⟨some number, some tag⟩, { s.addAnchor name with tokens := rest })
  | .anchor name :: rest => some (⟨some number, none⟩, { s.addAnchor name with tokens := rest })
  | .tag handle suffix :: .anchor name :: rest => do
      let tag ← s.tag? handle suffix
      some (⟨some number, some tag⟩, { s.addAnchor name with tokens := rest })
  | .tag handle suffix :: rest => do
      let tag ← s.tag? handle suffix
      some (⟨none, some tag⟩, { s with tokens := rest })
  | _ => some ({}, s)

def sees (s : Source) (ts : List Token) : Bool :=
  s.tokens.head?.any ts.contains

def next (s : Source) : Source :=
  { s with tokens := s.tokens.drop 1 }

mutual

/-- A node, and what follows. Blocks are read only if `block` says so, and items without an
indentation of their own only if `loose` does. -/
def readNode (fuel : Nat) (block loose : Bool) (s : Source) : Option (Node × Source) :=
  match fuel with
  | 0 => none
  | fuel + 1 =>
      match s.tokens with
      | .alias name :: _ => (s.find? name).map fun n => (n, s.next)
      | _ => do
          let (given, s) ← s.readProperties
          let (n, s) ← readContent fuel block loose given s
          some (n, s.complete given.anchor n)

def readContent (fuel : Nat) (block loose : Bool) (given : Properties) (s : Source) :
    Option (Node × Source) :=
  match fuel with
  | 0 => none
  | fuel + 1 =>
      match s.tokens with
      | .scalar isPlain text :: _ => some (Node.ofScalar isPlain given.tag text, s.next)
      | .flowListStart :: _ => do
          let (items, s) ← readFlowItems fuel true s.next
          some (.list items, s)
      | .flowMapStart :: _ => do
          let (parts, s) ← readFlowParts fuel true s.next
          some (← Node.mapOf? parts, s)
      | t :: _ =>
          if loose && t = .dash then do
            let (items, s) ← readLooseItems fuel s
            some (.list items, s)
          else if block && t = .blockListStart then do
            let (items, s) ← readBlockItems fuel s.next
            some (.list items, s)
          else if block && t = .blockMapStart then do
            let (parts, s) ← readBlockParts fuel s.next
            some (← Node.mapOf? parts, s)
          else readEmpty given s
      | [] => readEmpty given s

/-- The empty node that an anchor or a tag makes. -/
def readEmpty (given : Properties) (s : Source) : Option (Node × Source) :=
  if given.anchor.isNone && given.tag.isNone then none
  else some (Node.ofScalar true given.tag [], s)

/-- A node, or nothing if one of some tokens comes next. -/
def readUnless (fuel : Nat) (ends : List Token) (block loose : Bool) (s : Source) :
    Option (Node × Source) :=
  match fuel with
  | 0 => none
  | fuel + 1 => if s.sees ends then some (.nothing, s) else readNode fuel block loose s

def readBlockItems (fuel : Nat) (s : Source) : Option (List Node × Source) :=
  match fuel with
  | 0 => none
  | fuel + 1 =>
      match s.tokens with
      | .blockEnd :: _ => some ([], s.next)
      | .dash :: _ => do
          let (n, s) ← readUnless fuel [.dash, .blockEnd] true false s.next
          let (items, s) ← readBlockItems fuel s
          some (n :: items, s)
      | _ => none

/-- The items that stand in a map without an indentation of their own. -/
def readLooseItems (fuel : Nat) (s : Source) : Option (List Node × Source) :=
  match fuel with
  | 0 => none
  | fuel + 1 =>
      match s.tokens with
      | .dash :: _ => do
          let (n, s) ← readUnless fuel [.dash, .key, .value, .blockEnd] true false s.next
          let (items, s) ← readLooseItems fuel s
          some (n :: items, s)
      | _ => some ([], s)

/-- The value behind a key, or nothing. -/
def readValue (fuel : Nat) (ends : List Token) (block : Bool) (s : Source) : Option (Node × Source) :=
  match fuel with
  | 0 => none
  | fuel + 1 =>
      match s.tokens with
      | .value :: _ => readUnless fuel ends block block s.next
      | _ => some (.nothing, s)

/-- The keys and values of a block in turn, up to its end. -/
def readBlockParts (fuel : Nat) (s : Source) : Option (List Node × Source) :=
  match fuel with
  | 0 => none
  | fuel + 1 => do
      let ends := [.key, .value, .blockEnd]
      match s.tokens with
      | .blockEnd :: _ => some ([], s.next)
      | .key :: _ =>
          let (key, s) ← readUnless fuel ends true true s.next
          let (value, s) ← readValue fuel ends true s
          let (parts, s) ← readBlockParts fuel s
          some (key :: value :: parts, s)
      | .value :: _ =>
          let (value, s) ← readValue fuel ends true s
          let (parts, s) ← readBlockParts fuel s
          some (.nothing :: value :: parts, s)
      | _ => none

/-- The keys and values of a map in brackets in turn, up to its end. -/
def readFlowParts (fuel : Nat) (first : Bool) (s : Source) : Option (List Node × Source) :=
  match fuel with
  | 0 => none
  | fuel + 1 => do
      if s.sees [.flowMapEnd] then some ([], s.next)
      else if !first && !s.sees [.comma] then none
      else
        let s := if first then s else s.next
        match s.tokens with
        | .flowMapEnd :: _ => some ([], s.next)
        | .key :: _ =>
            let (key, s) ← readUnless fuel [.value, .comma, .flowMapEnd] false false s.next
            let (value, s) ← readValue fuel [.comma, .flowMapEnd] false s
            let (parts, s) ← readFlowParts fuel false s
            some (key :: value :: parts, s)
        | .value :: _ =>
            let (value, s) ← readValue fuel [.comma, .flowMapEnd] false s
            let (parts, s) ← readFlowParts fuel false s
            some (.nothing :: value :: parts, s)
        | _ =>
            let (key, s) ← readNode fuel false false s
            let (parts, s) ← readFlowParts fuel false s
            some (key :: .nothing :: parts, s)

def readFlowItems (fuel : Nat) (first : Bool) (s : Source) : Option (List Node × Source) :=
  match fuel with
  | 0 => none
  | fuel + 1 => do
      if s.sees [.flowListEnd] then some ([], s.next)
      else if !first && !s.sees [.comma] then none
      else
        let s := if first then s else s.next
        match s.tokens with
        | .flowListEnd :: _ => some ([], s.next)
        | .key :: _ =>
            let (n, s) ← readPair fuel s.next
            let (items, s) ← readFlowItems fuel false s
            some (n :: items, s)
        | _ =>
            let (n, s) ← readNode fuel false false s
            let (items, s) ← readFlowItems fuel false s
            some (n :: items, s)

/-- A map of one entry in a list in brackets. What stands in the place of its key is passed over. -/
def readPair (fuel : Nat) (s : Source) : Option (Node × Source) :=
  match fuel with
  | 0 => none
  | fuel + 1 => do
      let (key, s) ← if s.sees [.value, .comma, .flowListEnd] then some (.nothing, s.next)
        else readNode fuel false false s
      let (value, s) ← readValue fuel [.comma, .flowListEnd] false s
      some (← Node.mapOf? [key, value], s)

end

/-- The source behind directives, at most one of which gives a version. Of those that give a meaning to
a handle the last one counts. -/
def skipDirectives (versioned : Bool) : List Token → Source → Option Source
  | .version :: rest, s =>
      if versioned then none else skipDirectives true rest { s with tokens := rest, handle := none }
  | .handle name meaning :: rest, s =>
      skipDirectives versioned rest { s with tokens := rest, handle := some (name, meaning) }
  | _, s => some s

/-- The front of a document: what is left to read of it, and whether nothing more than a mark stands
there. Behind directives a mark has to begin it. -/
def readFront (s : Source) : Option (Bool × Source) := do
  let s' ← skipDirectives false s.tokens s
  match s'.tokens with
  | .documentStart :: rest =>
      let s := s'.next
      let ended := match rest with
        | [] => true
        | .version :: _ => true
        | .handle _ _ :: _ => true
        | .documentStart :: _ => true
        | .documentEnd :: _ => true
        | _ => false
      some (ended, s)
  | _ => if s'.tokens.length = s.tokens.length then some (false, s') else none

end Source

/-- The node of the one document that tokens make, if there is one. -/
def Node.ofTokens? (ts : List Token) : Option (Option Node) :=
  match ts.dropWhile (· = .documentEnd) with
  | [] => some none
  | ts => do
      let (ended, s) ← Source.readFront { tokens := ts }
      let (n, s) ← if ended then some (.nothing, s) else s.readNode (4 * ts.length + 4) true false
      if s.tokens.all (· = .documentEnd) then some (some n) else none

end MacroReplay.Config.Yaml
