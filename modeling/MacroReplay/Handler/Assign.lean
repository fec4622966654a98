import MacroReplay.Handler.Basic

/-!
# Assignment commands

`SET name value` assigns a variable; `ADD name value` adds to it. Both compute `EVAL(...)`; in any
other value `<SP>` stands for a space and `<BR>` for a line break.
-/

namespace MacroReplay.Assign

variable {ι : Interface} {μ : Type}

def operands (i : Invocation) : Except CommandError (String × String) :=
  match i.arg? 0, i.arg? 1 with
  | none, _ => .error (.missingParameter "VARIABLE")
  | some _, none => .error (.missingParameter "VALUE")
  | some name, some value => .ok (name, value)

/-- A text with the marks for spaces and line breaks replaced. -/
def unescape (text : String) : String :=
  Text.replace "<br>" "\n" (Text.replace "<BR>" "\n"
    (Text.replace "<sp>" " " (Text.replace "<SP>" " " text)))

def literalValue (text : String) : Value :=
  match Expression.argument? text with
  | some inner => Expression.evaluate inner
  | none => .text (unescape text)

/-- The sum of the value of a variable and an addend: a number if both are numbers, where an empty
variable counts as zero, else the texts put together. -/
def sum (current addend : Value) : Value :=
  let left := if current.isEmpty then some (Number.zero false) else current.toNumber?
  match left, addend.toNumber? with
  | some a, some b => .number (a.add b)
  | _, _ => .text (current.render ++ addend.render)

def set (vars : Store) (i : Invocation) : Except CommandError Store := do
  let (name, value) ← operands i
  match vars.set name (literalValue value) with
  | .ok (_, vars) => .ok vars
  | .error e => .error (.variable e)

/-- The variables after `ADD`: extracted texts are collected, all else is added up. -/
def add (vars : Store) (date : Calendar.DateTime) (i : Invocation) : Except CommandError Store := do
  let (name, value) ← operands i
  let addend := literalValue value
  let sum? :=
    if Variable.canonical name = "!EXTRACT" then some addend
    else (vars.get date name).map fun current => sum current addend
  match sum? with
  | none => .error (.variable (.unknown (Variable.canonical name)))
  | some v =>
      match vars.set name v with
      | .ok (_, vars) => .ok vars
      | .error e => .error (.variable e)

def setHandler : Handler ι μ := fun ctx =>
  ctx.withValue (set ctx.memory.vars ctx.invocation) fun vars => ctx.finishWith vars .ok

def addHandler : Handler ι μ := fun ctx =>
  ctx.withValue (add ctx.memory.vars ctx.date ctx.invocation) fun vars => ctx.finishWith vars .ok

end MacroReplay.Assign
