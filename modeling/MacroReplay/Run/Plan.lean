import MacroReplay.Cleanup
import MacroReplay.Datasource
import MacroReplay.Profile

/-!
# Runs

A run plays the commands of a script in order, as many times as asked. After a command failed,
`!ERRORIGNORE` lets the run go on with the next command, `!ERRORLOOP` with the next iteration;
otherwise the run is aborted. A request to stop is heeded before each iteration, before each command
and after each failure. When the run has ended, the cleanup hooks run, and the profile is written.

The run is a process whose calls hand out the work: to load a row, to dispatch a command, to run a
hook. So it says what a run does whatever the commands do.
-/

namespace MacroReplay

inductive RunState where
  /-- All iterations were played, or the datasource ran out. -/
  | completed
  /-- A failure ended it. -/
  | aborted
  /-- A request to stop ended it. -/
  | stopped
  deriving DecidableEq, Repr

def RunState.name : RunState → String
  | .completed => "Completed"
  | .aborted => "Aborted"
  | .stopped => "Stopped"

structure RunResult where
  macroName : String
  state : RunState
  code : ErrorCode
  message : Option String
  failedLine : Option Nat
  /-- The variables at the end. -/
  bindings : Bindings
  loops : Nat
  extracted : List String
  /-- The timed commands, if any were. -/
  profile : Option (List Profile.Record)
  durationMs : Nat
  deriving DecidableEq

namespace RunResult

def success (r : RunResult) : Bool :=
  r.state == .completed

def extractText (r : RunResult) : String :=
  Store.extractSeparator.intercalate r.extracted

def finalValue? (r : RunResult) (name : String) : Option Value :=
  r.bindings.find? (Text.upper name)

end RunResult

structure Dispatched (μ : Type) where
  result : CommandResult
  memory : Memory μ
  /-- When it began, in milliseconds since the start of 1970. -/
  startedMs : Int
  took : Duration

namespace Run

inductive Call (μ : Type) where
  | stopRequested
  | load (iteration : Nat) (vars : Store)
  | dispatch (c : Command) (m : Memory μ)
  | cleanUp (hook : String) (shared : μ)
  | append (target contents : String)

end Run

abbrev Run (μ : Type) : Interface where
  Call := Run.Call μ
  Reply
    | .stopRequested => Bool
    | .load _ _ => LoadReport × Store
    | .dispatch _ _ => Dispatched μ
    | .cleanUp _ _ => HookReport × μ
    | .append _ _ => Unit

namespace Run

variable {μ η : Type}

/-! ## The tally -/

/-- What a run has come to. -/
structure Tally where
  state : RunState
  code : ErrorCode
  message : Option String
  failedLine : Option Nat
  loops : Nat
  records : List Profile.Record
  deriving DecidableEq, Repr

namespace Tally

def start : Tally := ⟨.completed, .ok, none, none, 0, []⟩

/-- The tally of a run that a request to stop ended. -/
def stop (t : Tally) : Tally :=
  { t with state := .stopped, code := .stopped, message := some CommandError.stopped.message }

/-- The tally of a run that a failure ended. -/
def abort (t : Tally) (code : ErrorCode) (message : String) (line : Option Nat) : Tally :=
  { t with state := .aborted, code := code, message := some message, failedLine := line }

/-- The tally with the record of a command, if commands were recorded when it began. -/
def record (t : Tally) (before : Store) (c : Command) (d : Dispatched μ) : Tally :=
  if Profile.isEnabled before then
    { t with
      records := t.records ++ [⟨c.line, c.name, c.raw, d.took.toMillis, d.startedMs⟩] }
  else t

end Tally

/-! ## Failures -/

inductive Policy where
  | nextCommand
  | nextIteration
  | abort
  deriving DecidableEq, Repr

/-- The policy that the variables ask for. -/
def policy (s : Store) : Policy :=
  if s.isYes "!ERRORIGNORE" then .nextCommand
  else if s.isYes "!ERRORLOOP" then .nextIteration
  else .abort

/-- The message of a failure: that of its result, or else the name of its code. -/
def failureMessage (r : CommandResult) : String :=
  if r.text.isEmpty then r.code.name else r.text

/-! ## Iterations -/

/-- Where a run stands after an iteration. -/
inductive Stage (μ : Type) where
  /-- The next iteration may begin. -/
  | goesOn (t : Tally) (m : Memory μ)
  /-- The run is over. -/
  | over (t : Tally) (m : Memory μ)

def playCommands (iteration : Nat) : List Command → Tally → Memory μ → Proc (Run μ) (Stage μ)
  | [], t, m => .done (.goesOn { t with loops := iteration } m)
  | c :: rest, t, m =>
      .call .stopRequested fun (stop : Bool) =>
        if stop then .done (.over t.stop m)
        else .call (.dispatch c m) fun (d : Dispatched μ) =>
          let t := t.record m.vars c d
          if d.result.success then playCommands iteration rest t d.memory
          else if d.result.code = .stopped then .done (.over t.stop d.memory)
          else .call .stopRequested fun (stop : Bool) =>
            if stop then .done (.over t.stop d.memory)
            else if d.result.code = .datasourceEnd then .done (.over t d.memory)
            else
              let message := failureMessage d.result
              match policy d.memory.vars with
              | .nextCommand =>
                  playCommands iteration rest { t with message := some message } d.memory
              | .nextIteration =>
                  .done (.goesOn { t with message := some message, loops := iteration } d.memory)
              | .abort => .done (.over (t.abort d.result.code message (some c.line)) d.memory)

/-- The variables with the loop counter of an iteration after the first: one more than it was if the
script has assigned it, else the number of the iteration. -/
def advanceLoop (iteration : Nat) (s : Store) : Store :=
  if s.loopAssigned then
    let previous :=
      match (s.numberOf "!LOOP").bind Number.toInt? with
      | some n => if 1 ≤ n then n.toNat else iteration - 1
      | none => iteration - 1
    s.setLoopCounter (min Variable.greatestInteger (previous + 1))
  else s.setLoopCounter iteration

/-- Loads the row of an iteration, if there is a datasource, and goes on with `next`. -/
def withRow (hasDatasource : Bool) (iteration : Nat) (t : Tally) (m : Memory μ)
    (next : Memory μ → Proc (Run μ) (Stage μ)) : Proc (Run μ) (Stage μ) :=
  if hasDatasource then
    .call (.load iteration m.vars) fun ((report, vars) : LoadReport × Store) =>
      let m := { m with vars := vars }
      match report with
      | .loaded => next m
      | .exhausted => .done (.over t m)
      | .failed .datasourceEnd => .done (.over t m)
      | .failed e => .done (.over (t.abort e.code e.message none) m)
      | .faulted _ => .done (.over (t.abort .scriptError "Internal engine fault" none) m)
  else next m

def playIteration (commands : List Command) (hasDatasource : Bool) (iteration : Nat) (t : Tally)
    (m : Memory μ) : Proc (Run μ) (Stage μ) :=
  .call .stopRequested fun (stop : Bool) =>
    if stop then .done (.over t.stop m)
    else
      let m := if 1 < iteration then { m with vars := advanceLoop iteration m.vars } else m
      withRow hasDatasource iteration t m (playCommands iteration commands t)

def playIterations (commands : List Command) (hasDatasource : Bool) :
    (left iteration : Nat) → Tally → Memory μ → Proc (Run μ) (Tally × Memory μ)
  | 0, _, t, m => .done (t, m)
  | left + 1, iteration, t, m =>
      (playIteration commands hasDatasource iteration t m).bind fun stage =>
        match stage with
        | .goesOn t m => playIterations commands hasDatasource left (iteration + 1) t m
        | .over t m => .done (t, m)

/-! ## Whole runs -/

structure Setup (η : Type) where
  script : Script
  /-- The number of iterations asked for. -/
  loops : Nat
  hasDatasource : Bool
  hasSink : Bool
  cleanup : Cleanup η

/-- Writes the profile of a run, if there is one and a place for it. -/
def writeProfile (hasSink : Bool) (name : String) (t : Tally) (vars : Store) :
    Proc (Run μ) Unit :=
  match Profile.target? vars name with
  | some target =>
      if hasSink && !t.records.isEmpty then
        .call (.append target (Profile.render name t.code.describe t.records)) .done
      else .done ()
  | none => .done ()

/-- Hands out a cleanup hook. -/
def invokeHook (name : String) (_hook : η) (shared : μ) : Proc (Run μ) (HookReport × μ) :=
  .call (.cleanUp name shared) .done

/-- The result of a run with this tally and these variables at its end. -/
def Tally.result (t : Tally) (name : String) (vars : Store) : RunResult where
  macroName := name
  state := t.state
  code := t.code
  message := t.message
  failedLine := t.failedLine
  bindings := vars.snapshot
  loops := t.loops
  extracted := vars.extracted
  profile := if t.records.isEmpty then none else some t.records
  durationMs := 0

def plan (setup : Setup η) (m : Memory μ) : Proc (Run μ) (RunResult × Memory μ) :=
  let begun := { m with vars := m.vars.beginRun }
  (playIterations setup.script.commands setup.hasDatasource (max 1 setup.loops) 1 .start begun).bind
    fun (t, m) =>
      (setup.cleanup.reset.runAll invokeHook m.shared).bind fun (_, shared, _) =>
        (writeProfile setup.hasSink setup.script.name t m.vars).bind fun _ =>
          .done (t.result setup.script.name m.vars, { m with shared := shared })

end Run
end MacroReplay
