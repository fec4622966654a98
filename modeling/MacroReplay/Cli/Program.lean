import MacroReplay.Browser.Module
import MacroReplay.Cli.Arguments
import MacroReplay.Config.Load
import MacroReplay.Expression.Grammar
import MacroReplay.Profile.Sink
import MacroReplay.Report.Json
import MacroReplay.Report.Yaml
import MacroReplay.Session

/-!
# The program

What the command line does, as a process that calls a browser, the clock and files: it reads its
arguments and the configuration, carries out one command, and ends with what to print.
-/

namespace MacroReplay.Cli

open Report (Document)

/-- What the program finds when it starts. -/
structure Surroundings where
  /-- The variables of the environment. -/
  environment : List (String × String)
  /-- The usual place of the configuration file, up to its ending. -/
  configStem : Option String
  runId : String
  gitHash : String
  buildDate : String
  deriving DecidableEq, Repr

structure Completion where
  exitCode : Nat
  /-- What goes to standard output. -/
  output : String
  /-- The failure to report. -/
  error : Option String
  deriving DecidableEq, Repr

def version : String := "0.1.0"

def packageName : String := "soulmacro-cli"

abbrev Calls := Browser.Host Files

abbrev Program := Proc (Timed Calls) Completion

def succeed (output : String) : Completion := ⟨0, output, none⟩

def failWith (output message : String) : Completion := ⟨1, output, some message⟩

/-- Calls on files, made by the program. -/
def onFiles {α : Type} (p : Proc Files α) : Proc (Timed Calls) α :=
  p.bindCalls fun c =>
    (Timed.await (ι := Calls) (.inr c)).bind fun ending =>
      .done (match ending.outcome with
        | .replied reply => reply
        | _ => Files.failed "interrupted" c)

/-- A result as text: for readers, or as a document in some format. -/
def present (format : OutputFormat) (d : Document) (human : List String) : String :=
  match format with
  | .human => String.join (human.map (· ++ "\n"))
  | .json => Report.Json.write d
  | .yaml => Report.Yaml.write d

/-! ## Checking and evaluating -/

/-- The line of a command in a check: flawed ones are marked. -/
def checkLine (c : Command) : String :=
  let number := toString c.line
  (if c.flaw.isSome then "!" else " ") ++ "".pushn ' ' (4 - number.length) ++ number ++ "  " ++ c.raw

def checkDocument (s : Script) : Document :=
  .fields
    [("macro_name", .text s.name), ("commands", .nat s.commands.length),
      ("malformed", .list (s.flawed.map fun c =>
        .fields
          [("line", .nat c.line), ("text", .text c.raw),
            ("reason", .text ((c.flaw.map Flaw.message).getD ""))]))]

def check (format : OutputFormat) (s : Script) : Completion :=
  let flaws := s.flawed.length
  let summary := toString s.commands.length ++ " command(s), " ++ toString flaws ++ " malformed"
  let output := present format (checkDocument s) (s.commands.map checkLine ++ [summary])
  if flaws = 0 then succeed output
  else failWith output (toString flaws ++ " malformed line(s)")

def eval (format : OutputFormat) (expression : String) : Completion :=
  match Expression.evaluate? expression with
  | .error e => failWith "" ("Cannot evaluate '" ++ expression ++ "': " ++ e.message)
  | .ok v =>
      let d : Document := .fields
        [("expression", .text expression), ("value", .ofValue v), ("text", .text v.render)]
      succeed (present format d [v.render])

def info (format : OutputFormat) (s : Surroundings) (c : Config) : Completion :=
  let d : Document := .fields
    [("version", .text version), ("git_hash", .text s.gitHash), ("build_date", .text s.buildDate),
      ("max_loops", .nat c.engine.maxLoops), ("retry_interval_ms", .nat c.engine.retryIntervalMs)]
  succeed (present format d
    ["SoulMacro v" ++ version, "Git hash:   " ++ s.gitHash, "Build date: " ++ s.buildDate,
      "Max loops:  " ++ toString c.engine.maxLoops])

/-! ## Playing -/

def recordDocument (r : Profile.Record) : Document :=
  .fields
    [("line", .nat r.line), ("command_name", .text r.commandName), ("raw_command", .text r.raw),
      ("duration_ms", .nat r.durationMs), ("timestamp_ms", .int r.timestampMs)]

def runDocument (runId : String) (r : RunResult) : Document :=
  .fields
    [("status", .int (Session.status r)), ("run_id", .text runId), ("macro_name", .text r.macroName),
      ("state", .text r.state.name), ("success", .bool r.success), ("error_code", .int r.code.value),
      ("error_message", .optional .text r.message), ("failed_line", .optional .nat r.failedLine),
      ("variables", .fields (r.bindings.map fun (name, v) => (name, .ofValue v))),
      ("loops_completed", .nat r.loops), ("extract_data", .list (r.extracted.map .text)),
      ("profiler_records", .optional (fun records => .list (records.map recordDocument)) r.profile),
      ("duration_ms", .nat r.durationMs)]

def runErrorLine (r : RunResult) : List String :=
  match r.message, r.failedLine with
  | none, _ => []
  | some message, some line => ["Error:    line " ++ toString line ++ ": " ++ message]
  | some message, none => ["Error:    " ++ message]

def runLines (runId : String) (r : RunResult) : List String :=
  ["Macro:    " ++ r.macroName, "Run:      " ++ runId, "State:    " ++ r.state.name,
    "Status:   " ++ r.code.describe] ++ runErrorLine r ++
    ["Loops:    " ++ toString r.loops, "Duration: " ++ toString r.durationMs ++ " ms"] ++
    (if r.extracted.isEmpty then [] else ["Extract:  " ++ r.extractText])

def reportRun (format : OutputFormat) (runId : String) (r : RunResult) : Completion :=
  let output := present format (runDocument runId r) (runLines runId r)
  if Session.status r = Session.statusOk then succeed output
  else if r.state = .stopped then failWith output "Macro stopped"
  else
    failWith output ("Macro failed with " ++ r.code.describe ++ ": " ++ r.message.getD "")

def assignAll (s : Store) : List (String × String) → Except String Store
  | [] => .ok s
  | (name, value) :: rest =>
      match s.set name (.text value) with
      | .ok (_, s) => assignAll s rest
      | .error e => .error ("Cannot set " ++ name ++ ": " ++ e.message)

/-- The variables that a script is played with. -/
def initialStore (o : PlayOptions) : Except String Store := do
  let s ← assignAll .initial o.assignments
  if o.profile then
    match s.set "!FILE_PROFILER" (.text "YES") with
    | .ok (_, s) => .ok s
    | .error e => .error e.message
  else .ok s

/-- The wording of a datasource that cannot be read. It says what is wrong twice, as the fault of the
datasource and as a fault of its own, and then gives the reasons for it. -/
def datasourceMessage (path fault : String) (reasons : List String) : String :=
  ": ".intercalate (("Failed to read datasource " ++ path) :: fault :: fault :: reasons)

/-- The rows of the datasource, if one is asked for. -/
def loadRows (o : PlayOptions) : Proc Files (Except String (Option (List (List String)))) :=
  match o.datasource with
  | none => .done (.ok none)
  | some path =>
      if 0xFF < o.delimiter.toNat then
        .done (.error ("Datasource delimiter must be a single-byte character: " ++
          "unicode code point out of range"))
      else
        (Files.load path).bind fun
          | .error e => .done (.error (datasourceMessage path e.message [e.message]))
          | .ok bytes =>
              match Csv.readTable (UInt8.ofNat o.delimiter.toNat) bytes with
              | .ok rows => .done (.ok (some rows))
              | .error e => .done (.error (datasourceMessage path e.message []))

def engine (c : Config) (rows : Option (List (List String))) : Engine Calls Browser.Backup :=
  Browser.install
    { settings := c.engine
      registry := .builtin
      cleanup := .empty
      datasource := rows.map Datasource.ofRows
      sink := some fun target contents =>
        (onFiles (Profile.store c.outputDir target contents)).bind fun _ => .done () }

/-- A script from a file, named for the file. -/
def loadScript (path : String) : Proc Files (Except String Script) :=
  (Files.loadText path).bind fun
    | .error e => .done (.error ("Failed to read macro " ++ path ++ ": " ++ e.message))
    | .ok text => .done (.ok (Script.parse ((Path.stem? path).getD "macro") text))

/-- Goes on with a value, or ends with the failure in its place. -/
def withValue {α : Type} (p : Proc (Timed Calls) (Except String α)) (next : α → Program) : Program :=
  p.bind fun
    | .error message => .done (failWith "" message)
    | .ok a => next a

def play (format : OutputFormat) (runId : String) (c : Config) (o : PlayOptions) : Program :=
  withValue (onFiles (loadScript o.file)) fun script =>
    withValue (onFiles (loadRows o)) fun rows =>
      withValue (.done (initialStore o)) fun vars =>
        ((engine c rows).run script o.loops { vars := vars, shared := none }).bind fun (result, _) =>
          .done (reportRun format runId result)

/-! ## The program as a whole -/

def logLevels : List String := ["error", "warn", "info", "debug", "trace"]

/-- Whether a text names a log level, by a word or by its place from 1 to 5. -/
def isLogLevel (s : String) : Bool :=
  (Text.readNat? Config.maxWord s).any (fun n => 1 ≤ n && n ≤ 5) ||
    logLevels.any (Text.sameLetters s)

def perform (s : Surroundings) (c : Config) (a : Arguments) : Program :=
  match a.action with
  | .play options => play a.output s.runId c options
  | .check file => withValue (onFiles (loadScript file)) fun script => .done (check a.output script)
  | .eval expression => .done (eval a.output expression)
  | .info => .done (info a.output s c)

def versionText (command : Option CommandName) : String :=
  packageName ++ ((command.map fun c => "-" ++ c.text).getD "") ++ " " ++ version ++ "\n"

def helpText : String :=
  "SoulMacro - replay recorded browser macros from the command line\n\n" ++
    "Usage: soulmacro [OPTIONS] <COMMAND>\n\n" ++
    "Commands:\n" ++
    "  play   Run a macro file\n" ++
    "  check  Parse a macro file and report malformed lines\n" ++
    "  eval   Evaluate an EVAL expression\n" ++
    "  info   Show build information\n" ++
    "  help   Print this message or the help of the given subcommand(s)\n"

/-- What becomes of arguments that name no command to carry out. -/
def refuse : Refusal → Completion
  | .usage => ⟨2, "", none⟩
  | .help => succeed helpText
  | .version command => succeed (versionText command)

def program (s : Surroundings) (args : List String) : Program :=
  match Arguments.parse args with
  | .error refusal => .done (refuse refusal)
  | .ok a =>
      (onFiles (Config.load a.config s.configStem s.environment)).bind fun
        | .error _ => .done (failWith "" ConfigError.unreadable.message)
        | .ok c =>
            if a.debug || isLogLevel (a.logLevel.getD c.logLevel) then perform s c a
            else .done (failWith "" "Invalid log level")

end MacroReplay.Cli
