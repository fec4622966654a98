import MacroReplay.Number.Digits
import MacroReplay.Number.Text
import MacroReplay.Text.Integer
import MacroReplay.Text.Split

/-!
# Settings

Settings come from several places, in layers: what a later one says replaces what an earlier one said,
key by key. Keys are compared without regard to letter case. A setting is of whatever kind its source
could tell, and is taken for what is wanted where that makes sense.

- `Table.overlay` puts a layer on top of others
- `Setting.toNat?`, `Setting.toText?` take a setting for a number or a text
-/

namespace MacroReplay.Config

inductive Setting where
  | nothing
  | flag (b : Bool)
  | integer (n : Int)
  | real (x : Number)
  | text (s : String)
  | list (items : List Setting)
  | table (entries : List (String × Setting))

abbrev Table := List (String × Setting)

namespace Table

def find? (t : Table) (key : String) : Option Setting :=
  match t with
  | [] => none
  | (k, v) :: rest => if k = key then some v else find? rest key

def put (t : Table) (key : String) (v : Setting) : Table :=
  match t with
  | [] => [(key, v)]
  | (k, w) :: rest => if k = key then (k, v) :: rest else (k, w) :: put rest key v

/-- The settings of entries, of which the last of each key counts. -/
def ofEntries (entries : List (String × Setting)) : Table :=
  entries.foldl (fun t (key, v) => t.put key v) []

end Table

def Setting.entries : Setting → Table
  | .table entries => entries
  | _ => []

/-! ## Layers -/

mutual

/-- Settings with one more for a key. A table is merged into what is there, and a table without
entries leaves it as it is. -/
def Table.merge (t : Table) (key : String) : Setting → Table
  | .table entries =>
      let key := Text.lower key
      t.put key (mergeAll ((t.find? key).getD (.table [])) entries)
  | v => t.put (Text.lower key) v

def mergeAll (old : Setting) : List (String × Setting) → Setting
  | [] => old
  | (key, v) :: entries => mergeAll (.table (Table.merge old.entries key v)) entries

end

/-- A step from a setting to one inside it. -/
inductive Step where
  /-- To the setting of a key. -/
  | key (name : String)
  /-- To an item of a list, counted from its end if the number is negative. -/
  | place (index : Int)
  deriving DecidableEq, Repr

def Setting.items : Setting → List Setting
  | .list items => items
  | _ => []

/-- The place in a list that an index means; there is none before the first. -/
def placeOf? (length : Nat) (index : Int) : Option Nat :=
  if 0 ≤ index then some index.toNat
  else if -index ≤ length then some (length - index.natAbs)
  else none

/-- Items with another one at a place, and nothing at the places before it that are missing. -/
def setItem (items : List Setting) (n : Nat) (v : Setting) : List Setting :=
  (items ++ List.replicate (n + 1 - items.length) Setting.nothing).set n v

/-- A setting with one more inside it, at the end of some steps. What stands in the way of a step gives
way. -/
def Setting.mergeAt (old : Setting) : List Step → Setting → Setting
  | [], v => v
  | [.key name], v => .table (old.entries.merge name v)
  | .key name :: steps, v =>
      let key := Text.lower name
      .table (old.entries.put key (mergeAt ((old.entries.find? key).getD .nothing) steps v))
  | .place index :: steps, v =>
      match placeOf? old.items.length index with
      | none => old
      | some n => .list (setItem old.items n (mergeAt (old.items[n]?.getD .nothing) steps v))

def isKeyChar (c : Char) : Bool :=
  Text.isLetter c || Text.isDigit c || c == '_' || c == '-' || c == ' '

/-- The number of an item as it stands between brackets. -/
def readIndex (cs : List Char) : Option Int :=
  let isGap (c : Char) : Bool := c == ' ' || c == '\t'
  let cs := ((cs.dropWhile isGap).reverse.dropWhile isGap).reverse
  if cs.head? == some '+' then none
  else Text.readInt? (-Int.pow 2 63) (Int.pow 2 63 - 1) (String.ofList cs)

/-- The steps that a text behind a key writes: keys behind dots, and places between brackets. -/
def readSteps (cs : List Char) : Option (List Step) :=
  match cs with
  | [] => some []
  | '.' :: rest =>
      let name := rest.takeWhile isKeyChar
      have : (rest.dropWhile isKeyChar).length ≤ rest.length := (List.dropWhile_sublist _).length_le
      if name.isEmpty then none
      else (readSteps (rest.dropWhile isKeyChar)).map (.key (String.ofList name) :: ·)
  | '[' :: rest =>
      match h : rest.dropWhile (· != ']') with
      | [] => none
      | _ :: after => do
          have : after.length < rest.length := by
            have bound := (List.dropWhile_sublist (· != ']') (l := rest)).length_le
            simp only [h, List.length_cons] at bound
            omega
          let index ← readIndex (rest.takeWhile (· != ']'))
          (readSteps after).map (.place index :: ·)
  | _ => none
termination_by cs.length

/-- The steps that a key stands for; one that writes none is a step by itself. -/
def keyPath (key : String) : List Step :=
  let name := key.toList.takeWhile isKeyChar
  match name.isEmpty, readSteps (key.toList.dropWhile isKeyChar) with
  | false, some steps => .key (String.ofList name) :: steps
  | _, _ => [.key key]

/-- Settings with a layer on top. -/
def Table.overlay (t layer : Table) : Table :=
  layer.foldl (fun t (key, v) => (Setting.mergeAt (.table t) (keyPath key) v).entries) t

/-! ## Kinds -/

def maxWord : Nat := Nat.pow 2 64 - 1

/-- The integer nearest to a number, a half going up, as far as sixty-four bits can hold it. -/
def roundToWord : Number → Nat
  | .nan => 0
  | .infinite negative => if negative then 0 else maxWord
  | .finite negative mantissa exponent _ =>
      if negative then 0
      else
        let (num, den) := Number.ratio mantissa exponent
        min ((2 * num + den) / (2 * den)) maxWord

/-- The words for the truth values. -/
def wordFlag? (s : String) : Option Bool :=
  let word := Text.lower s
  if word = "true" ∨ word = "on" ∨ word = "yes" then some true
  else if word = "false" ∨ word = "off" ∨ word = "no" then some false
  else none

/-- A setting taken for a natural number of any size. -/
def Setting.toWord? : Setting → Option Nat
  | .flag b => some b.toNat
  | .integer n => if 0 ≤ n then some n.toNat else none
  | .real x => some (roundToWord x)
  | .text s =>
      match wordFlag? s with
      | some b => some b.toNat
      | none => Text.readNat? maxWord s
  | _ => none

/-- A setting taken for a natural number up to a greatest one. -/
def Setting.toNat? (greatest : Nat) (s : Setting) : Option Nat :=
  s.toWord?.filter (· ≤ greatest)

def realText : Number → String
  | .nan => "NaN"
  | .infinite negative => if negative then "-inf" else "inf"
  | .finite negative mantissa exponent _ =>
      Number.withSign negative
        (if mantissa = 0 then "0" else (Number.shortest .up mantissa exponent).positional)

def Setting.toText? : Setting → Option String
  | .flag b => some (toString b)
  | .integer n => some (toString n)
  | .real x => some (realText x)
  | .text s => some s
  | _ => none

/-! ## Words -/

/-- A number in decimal notation, or one of the words for infinity and not-a-number. -/
def readReal? (s : String) : Option Number :=
  let cs := s.toList
  let (negative, body) := match cs with
    | '-' :: rest => (true, rest)
    | '+' :: rest => (false, rest)
    | rest => (false, rest)
  let word := Text.lower (String.ofList body)
  if word = "inf" ∨ word = "infinity" then some (.infinite negative)
  else if word = "nan" then some .nan
  else Number.readDecimal cs

/-- The setting that a bare word stands for: a truth value, an integer, a number, or else itself. -/
def Setting.ofWord (s : String) : Setting :=
  if Text.lower s = "true" then .flag true
  else if Text.lower s = "false" then .flag false
  else
    match Text.readInt? (-Int.pow 2 63) (Int.pow 2 63 - 1) s with
    | some n => .integer n
    | none =>
        match readReal? s with
        | some x => .real x
        | none => .text s

end MacroReplay.Config
