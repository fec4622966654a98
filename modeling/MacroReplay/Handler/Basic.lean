import MacroReplay.Command.Invocation
import MacroReplay.Retry

/-!
# Command handlers

A handler carries out one kind of command. It sees the invocation, the pace of retries and the memory:
the variables, and whatever the handlers share among themselves. Commands without a handler do
nothing. Whatever a handler does, dispatching a command gives a result.
-/

namespace MacroReplay

/-- What outlives a command. -/
structure Memory (μ : Type) where
  vars : Store
  /-- What the handlers share beside the variables. -/
  shared : μ

inductive Report where
  | finished (r : CommandResult)
  | failed (e : CommandError)
  | faulted (f : Fault)
  deriving DecidableEq, Repr

structure Context (μ : Type) where
  invocation : Invocation
  pacing : Pacing
  date : Calendar.DateTime
  memory : Memory μ

/-- A handler: what it does and the memory it leaves. -/
abbrev Handler (ι : Interface) (μ : Type) :=
  Context μ → Proc (Timed ι) (Report × Memory μ)

def Report.result : Report → CommandResult
  | .finished r => r
  | .failed e => .ofError e
  | .faulted f => .failure .scriptError (f.text.getD "Handler panicked")

namespace Context

variable {ι : Interface} {μ : Type}

def finish (ctx : Context μ) (r : CommandResult) : Proc (Timed ι) (Report × Memory μ) :=
  .done (.finished r, ctx.memory)

def fail (ctx : Context μ) (e : CommandError) : Proc (Timed ι) (Report × Memory μ) :=
  .done (.failed e, ctx.memory)

def fault (ctx : Context μ) (f : Fault) : Proc (Timed ι) (Report × Memory μ) :=
  .done (.faulted f, ctx.memory)

/-- Ends with a result and new variables. -/
def finishWith (ctx : Context μ) (vars : Store) (r : CommandResult) :
    Proc (Timed ι) (Report × Memory μ) :=
  .done (.finished r, { ctx.memory with vars := vars })

/-- Goes on with a value, or ends with the failure in its place. -/
def withValue {α : Type} (ctx : Context μ) (v : Except CommandError α)
    (next : α → Proc (Timed ι) (Report × Memory μ)) : Proc (Timed ι) (Report × Memory μ) :=
  match v with
  | .ok a => next a
  | .error e => ctx.fail e

end Context

/-! ## The registry -/

/-- Handlers by upper-case name, each name at most once. -/
structure Registry (ι : Interface) (μ : Type) where
  entries : List (String × Handler ι μ)

namespace Registry

variable {ι : Interface} {μ : Type}

def empty : Registry ι μ := ⟨[]⟩

/-- Registers a handler, in place of the one of the same name if there is one. -/
def register (r : Registry ι μ) (name : String) (h : Handler ι μ) : Registry ι μ :=
  let key := Variable.canonical name
  if r.entries.any (·.1 == key) then
    ⟨r.entries.map fun entry => if entry.1 == key then (key, h) else entry⟩
  else ⟨r.entries ++ [(key, h)]⟩

def find? (r : Registry ι μ) (name : String) : Option (Handler ι μ) :=
  (r.entries.find? (·.1 == Text.upper name)).map (·.2)

def contains (r : Registry ι μ) (name : String) : Bool :=
  r.entries.any (·.1 == Variable.canonical name)

def names (r : Registry ι μ) : List String :=
  (r.entries.map (·.1)).mergeSort

/-- Carries out a command. A line with a flaw and a command without a handler end at once. -/
def dispatch (r : Registry ι μ) (ctx : Context μ) : Proc (Timed ι) (CommandResult × Memory μ) :=
  let command := ctx.invocation.command
  match command.flaw with
  | some flaw =>
      let message := "Line " ++ toString command.line ++ ": " ++ flaw.message
      .done (.failure .syntaxError message, ctx.memory)
  | none =>
      match r.find? command.name with
      | some h => (h ctx).bind fun (report, memory) => .done (report.result, memory)
      | none => .done (.ok, ctx.memory)

end Registry
end MacroReplay
