import MacroReplay.Calendar.Pattern
import MacroReplay.Variable.Rule

/-!
# The variable store

The store holds a value for every variable that was ever assigned, the texts extracted so far, and
whether the script has taken over the loop counter. Assigning `!TIMEOUT` also sets `!TIMEOUT_TAG` to a
tenth of it; assigning `!EXTRACT` collects the text, and the word `NULL` empties the collection.
`!EXTRACTADD` and `!NOW` are computed when read.
-/

namespace MacroReplay

open Calendar (DateTime)

/-! ## Bindings -/

/-- Values by name, each name at most once. -/
abbrev Bindings := List (String × Value)

namespace Bindings

def find? (b : Bindings) (name : String) : Option Value :=
  match b with
  | [] => none
  | (key, v) :: rest => if key = name then some v else find? rest name

def put (b : Bindings) (name : String) (v : Value) : Bindings :=
  match b with
  | [] => [(name, v)]
  | (key, w) :: rest => if key = name then (key, v) :: rest else (key, w) :: put rest name v

@[simp]
theorem find?_put_self (b : Bindings) (name : String) (v : Value) :
    (b.put name v).find? name = some v := by
  induction b with
  | nil => simp [put, find?]
  | cons entry rest ih =>
      by_cases h : entry.1 = name <;> simp [put, find?, h, ih]

theorem find?_put_of_ne (b : Bindings) {name other : String} (v : Value) (h : other ≠ name) :
    (b.put name v).find? other = b.find? other := by
  induction b with
  | nil => simp [put, find?, h.symm]
  | cons entry rest ih =>
      by_cases hk : entry.1 = name
      · subst hk
        simp [put, find?, h.symm]
      · simp [put, find?, hk, ih]

end Bindings

/-! ## The store -/

structure Store where
  /-- Values by canonical name. -/
  values : Bindings
  /-- The texts extracted in this run, in order. -/
  extracted : List String
  /-- Whether the script assigned `!LOOP` in this run. -/
  loopAssigned : Bool
  deriving DecidableEq

/-- What an assignment changed. -/
structure Assignment where
  name : String
  previous : Value
  current : Value
  deriving DecidableEq

namespace Store

/-- The text between extracted texts when they are shown as one. -/
def extractSeparator : String := "[EXTRACT]"

def initial : Store where
  values := (Variable.definitions.filter (·.rule ≠ .readOnly)).map fun d => (d.name, d.initial)
  extracted := []
  loopAssigned := false

instance : Inhabited Store := ⟨initial⟩

def extractText (s : Store) : String :=
  extractSeparator.intercalate s.extracted

def has (name : String) : Bool :=
  (Variable.rule? (Variable.canonical name)).isSome

/-- The value of a canonical name, the clock aside: a variable that was never assigned holds the
empty text, and a name that is none of a variable has no value. -/
def lookup (s : Store) (name : String) : Option Value :=
  if name = "!EXTRACTADD" then some (.text s.extractText)
  else
    match s.values.find? name with
    | some v => some v
    | none => if (Variable.rule? name).isSome then some Value.empty else none

/-- The value of a variable at a moment. -/
def get (s : Store) (now : DateTime) (name : String) : Option Value :=
  let key := Variable.canonical name
  if key = "!NOW" then some (.text (now.format Calendar.defaultPattern)) else s.lookup key

/-- The text of a variable at a moment; a name that is none of a variable has the empty text. -/
def getText (s : Store) (now : DateTime) (name : String) : String :=
  ((s.get now name).map Value.render).getD ""

/-- The text of a variable that does not depend on the clock. -/
def textOf (s : Store) (name : String) : String :=
  ((s.lookup (Variable.canonical name)).map Value.render).getD ""

def numberOf (s : Store) (name : String) : Option Number :=
  (s.lookup (Variable.canonical name)).bind Value.toNumber?

def isYes (s : Store) (name : String) : Bool :=
  Text.sameLetters (s.textOf name) "YES"

/-! ## Assignment -/

/-- The `!TIMEOUT_TAG` that goes with a `!TIMEOUT`: a tenth of it, but at least 1. -/
def tagTimeout (timeout : Number) : Number :=
  Number.ofNat (max 1 ((timeout.toInt?.getD 0).toNat / 10))

/-- Whether a text is the word that empties the extracted texts. -/
def isNullWord (text : String) : Bool :=
  Text.sameLetters text "NULL"

/-- The store after a canonical name was given a value that its rule accepts, and the value kept. -/
def keep (s : Store) (name : String) (v : Value) : Store × Value :=
  if name = "!EXTRACT" then
    if isNullWord v.render then
      ({ s with values := s.values.put name Value.empty, extracted := [] }, Value.empty)
    else ({ s with values := s.values.put name v, extracted := s.extracted ++ [v.render] }, v)
  else if name = "!TIMEOUT" then
    match v with
    | .number n =>
        ({ s with values := (s.values.put "!TIMEOUT_TAG" (.number (tagTimeout n))).put name v }, v)
    | v => ({ s with values := s.values.put name v }, v)
  else if name = "!LOOP" then
    ({ s with values := s.values.put name v, loopAssigned := true }, v)
  else ({ s with values := s.values.put name v }, v)

/-- Assigns a variable, if there is one of this name and its rule accepts the value. -/
def set (s : Store) (name : String) (v : Value) : Except Variable.Error (Assignment × Store) :=
  let key := Variable.canonical name
  match Variable.rule? key with
  | none => .error (.unknown key)
  | some rule =>
      match rule.accept key v with
      | .error e => .error e
      | .ok accepted =>
          let previous := (s.lookup key).getD Value.empty
          let (after, current) := s.keep key accepted
          .ok (⟨key, previous, current⟩, after)

/-- Sets the loop counter without taking it over. -/
def setLoopCounter (s : Store) (n : Nat) : Store :=
  { s with values := s.values.put "!LOOP" (.number (Number.ofNat n)) }

/-- Forgets what belongs to the run before. -/
def beginRun (s : Store) : Store :=
  { s with
    values := s.values.put "!EXTRACT" Value.empty
    extracted := []
    loopAssigned := false }.setLoopCounter 1

/-! ## Snapshots -/

def sortedByName (b : Bindings) : Bindings :=
  b.mergeSort fun x y => x.1 ≤ y.1

/-- All values held, in the order of their names, with the extracted texts as one. -/
def snapshot (s : Store) : Bindings :=
  sortedByName (s.values.put "!EXTRACTADD" (.text s.extractText))

end Store
end MacroReplay
