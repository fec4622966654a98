import MacroReplay.Text.Ascii
import MacroReplay.Value

/-!
# Variable names and rules

Every variable has a name that starts with `!` and a rule for what it may hold. The names are fixed,
apart from the columns `!COL1`, `!COL2`, … of a datasource. A name is matched in any letter case and
with blanks around it; `canonical` is the one spelling under which its value is kept.
-/

namespace MacroReplay.Variable

/-- What a variable may hold. -/
inductive Rule where
  | free
  | yesNo
  | integer (least : Nat)
  | keyword (allowed : List String)
  | readOnly
  deriving DecidableEq, Repr

def greatestInteger : Nat := 4294967295

/-- What a rule asks for, in words. -/
def Rule.expected : Rule → String
  | .free => "any value"
  | .readOnly => "any value"
  | .yesNo => "YES or NO"
  | .integer least =>
      "an integer from " ++ toString least ++ " to " ++ toString greatestInteger
  | .keyword _ => "one of the listed keywords"

inductive Error where
  | unknown (name : String)
  | readOnly (name : String)
  | invalidValue (name value expected : String)
  deriving DecidableEq, Repr

def Error.message : Error → String
  | .unknown name => "Unknown variable: " ++ name
  | .readOnly name => "Variable " ++ name ++ " is read-only"
  | .invalidValue name value expected =>
      "Invalid value '" ++ value ++ "' for " ++ name ++ ": expected " ++ expected

/-! ## Names -/

/-- The spelling under which a variable is kept. -/
def canonical (name : String) : String :=
  Text.upper (Text.trim name)

/-- A variable with its rule and the value it starts with. -/
structure Definition where
  name : String
  rule : Rule
  initial : Value

def Definition.ofInteger (name : String) (least initial : Nat) : Definition :=
  ⟨name, .integer least, .number (Number.ofNat initial)⟩

/-- A variable that is `YES` or `NO`, and `NO` at first. -/
def Definition.flag (name : String) : Definition :=
  ⟨name, .yesNo, .text "NO"⟩

def Definition.free (name : String) (initial : String) : Definition :=
  ⟨name, .free, .text initial⟩

def definitions : List Definition :=
  [.ofInteger "!TIMEOUT" 0 60, .ofInteger "!TIMEOUT_TAG" 0 6, .ofInteger "!TIMEOUT_STEP" 0 6,
    .ofInteger "!TIMEOUT_PAGE" 0 60, .ofInteger "!TIMEOUT_DOWNLOAD" 0 60,
    .flag "!ERRORIGNORE", .flag "!ERRORLOOP", .flag "!SINGLESTEP", .flag "!WAITPAGECOMPLETE",
    .ofInteger "!LOOP" 1 1,
    ⟨"!REPLAYSPEED", .keyword ["SLOW", "MEDIUM", "FAST"], .text "FAST"⟩,
    .ofInteger "!DATASOURCE_LINE" 1 1,
    .free "!DATASOURCE" "", .free "!DATASOURCE_COLUMNS" "", .free "!DATASOURCE_DELIMITER" ",",
    .free "!FOLDER_DATASOURCE" "", .free "!FOLDER_DOWNLOAD" "", .free "!URLCURRENT" "",
    .free "!ENCRYPTION" "", .free "!CLIPBOARD" "", .free "!FILE_PROFILER" "",
    .free "!VAR0" "", .free "!VAR1" "", .free "!VAR2" "", .free "!VAR3" "", .free "!VAR4" "",
    .free "!VAR5" "", .free "!VAR6" "", .free "!VAR7" "", .free "!VAR8" "", .free "!VAR9" "",
    .free "!EXTRACT" "",
    ⟨"!EXTRACTADD", .readOnly, Value.empty⟩, ⟨"!NOW", .readOnly, Value.empty⟩]

/-- The name of a datasource column: `!COL` and digits other than a single zero. -/
def isColumn (name : String) : Bool :=
  let cs := name.toList
  let digits := cs.drop 4
  cs.take 4 == "!COL".toList && !digits.isEmpty && digits.all Text.isDigit && digits != ['0']

/-- The rule of a canonical name, if it is one of a variable. -/
def rule? (name : String) : Option Rule :=
  match definitions.find? (·.name == name) with
  | some d => some d.rule
  | none => if isColumn name then some .free else none

/-! ## Values under a rule -/

/-- The number of a value if it is an integer from `least` to the greatest one allowed. -/
def integerValue? (least : Nat) (v : Value) : Option Number := do
  let n ← v.toNumber?
  let k ← n.toInt?
  if (least : Int) ≤ k ∧ k ≤ (greatestInteger : Int) then some n else none

/-- The keyword of a value if it is one of `allowed`, in any letter case. -/
def keywordValue? (allowed : List String) (v : Value) : Option String :=
  let word := canonical v.render
  if allowed.contains word then some word else none

/-- The value as a variable of this name and rule keeps it, or why it may not hold it. -/
def Rule.accept (name : String) (rule : Rule) (v : Value) : Except Error Value :=
  let refused := Error.invalidValue name v.render rule.expected
  match rule with
  | .free => .ok v
  | .readOnly => .error (.readOnly name)
  | .yesNo =>
      match keywordValue? ["YES", "NO"] v with
      | some word => .ok (.text word)
      | none => .error refused
  | .keyword allowed =>
      match keywordValue? allowed v with
      | some word => .ok (.text word)
      | none => .error refused
  | .integer least =>
      match integerValue? least v with
      | some n => .ok (.number n)
      | none => .error refused

end MacroReplay.Variable
