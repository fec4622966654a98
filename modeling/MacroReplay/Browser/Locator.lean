import MacroReplay.Text.Blank
import MacroReplay.Text.Integer
import MacroReplay.Text.Split

/-!
# Elements, frames and tabs

What the browser commands point at, and how that is written in their parameters.
-/

namespace MacroReplay.Browser

/-- Which of the matching elements is meant. -/
inductive Position where
  /-- The `n`-th of the page, from 1. -/
  | absolute (n : Nat)
  /-- The `n`-th after the element located before. -/
  | relative (n : Int)
  deriving DecidableEq, Repr

/-- The relative position that an offset other than zero writes. -/
def Position.relative? (offset : List Char) : Option Position :=
  (Text.readInt? (-2147483648) 2147483647 (String.ofList offset)).bind fun n =>
    if n = 0 then none else some (.relative n)

/-- The absolute position that a number from 1 writes. -/
def Position.absolute? (index : List Char) : Option Position :=
  (Text.readNat? 4294967295 (String.ofList index)).bind fun n =>
    if n = 0 then none else some (.absolute n)

/-- The position that a text writes: a number, or `R` and an offset. -/
def Position.parse? (text : String) : Option Position :=
  match Text.trimChars text.toList with
  | 'R' :: offset => relative? offset
  | 'r' :: offset => relative? offset
  | index => absolute? index

/-- An element described by its kind and attributes. -/
structure Query where
  position : Position
  /-- The upper-case name of the element. -/
  element : String
  /-- The upper-case kind of an input element. -/
  inputType : Option String
  /-- Attributes by upper-case name. -/
  attributes : List (String × String)
  deriving DecidableEq, Repr

namespace Query

/-- The element and the kind of input that a text writes, such as `INPUT:TEXT`. -/
def parseType (text : String) : String × Option String :=
  let name (cs : List Char) : String := Text.upper (Text.trim (String.ofList cs))
  match Text.cutAt (· == ':') text.toList with
  | some (element, sub) => (name element, some (name sub))
  | none => (name text.toList, none)

/-- The attribute that a text writes: a name that is not blank, a colon and a value. -/
def parseAttribute? (part : List Char) : Option (String × String) :=
  match Text.cutAt (· == ':') part with
  | some (name, value) =>
      if (Text.trimChars name).isEmpty then none
      else some (Text.upper (Text.trim (String.ofList name)), String.ofList value)
  | none => none

/-- The attributes that a text writes, with `&&` between them; none for a blank text or `*`. -/
def parseAttributes? (text : String) : Option (List (String × String)) :=
  let cs := Text.trimChars text.toList
  if cs.isEmpty || cs == ['*'] then some []
  else (Text.splitAtPair '&' '&' cs).mapM parseAttribute?

end Query

inductive Locator where
  | tag (q : Query)
  | xpath (path : String)
  | selector (pattern : String)
  deriving DecidableEq, Repr

def Locator.describe : Locator → String
  | .tag q =>
      let sub := match q.inputType with
        | some kind => ":" ++ kind
        | none => ""
      q.element ++ sub ++ String.join (q.attributes.map fun (name, value) => " " ++ name ++ "=" ++ value)
  | .xpath path => "xpath " ++ path
  | .selector pattern => "selector " ++ pattern

inductive ExtractKind where
  | text
  | html
  | href
  | title
  | alt
  | attribute (name : String)
  deriving DecidableEq, Repr

def ExtractKind.parse (text : String) : ExtractKind :=
  match Text.upper (Text.trim text) with
  | "TXT" => .text
  | "HTM" => .html
  | "HREF" => .href
  | "TITLE" => .title
  | "ALT" => .alt
  | name => .attribute name

inductive TagAction where
  | click
  | fill (content : String)
  | extract (kind : ExtractKind)
  deriving DecidableEq, Repr

inductive FrameTarget where
  /-- By number; 0 is the page itself. -/
  | index (n : Nat)
  | name (name : String)
  deriving DecidableEq, Repr

inductive TabAction where
  /-- Selects a tab by its number, from 1. -/
  | select (n : Nat)
  | openNew
  | close
  | closeAllOthers
  deriving DecidableEq, Repr

structure ProxySettings where
  /-- Host and port; without an address the connection is direct. -/
  address : Option String
  bypass : List String
  deriving DecidableEq, Repr

def ProxySettings.direct : ProxySettings := ⟨none, []⟩

def ProxySettings.describe (p : ProxySettings) : String :=
  p.address.getD "direct"

end MacroReplay.Browser
