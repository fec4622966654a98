import MacroReplay.Browser.DryRun
import MacroReplay.Cli.Program
import Std.Time.Zoned

/-!
# The executable

Answers the calls of the program from the machine it runs on: its clock and its files. The browser is a
dry run.

Interrupts are not handled: `Terminal.run` answers every question for a stop with no and never cuts a
pause short, so that an interrupt from the keyboard ends the process and does not stop the run. What a
run does when it is stopped is a matter of the answers, see `Run` and `Session.stop`.
-/

namespace MacroReplay.Terminal

def reading : IO Reading := do
  let nanoseconds ← IO.monoNanosNow
  let epoch ← Std.Time.Timestamp.now
  let date ← Std.Time.PlainDateTime.now
  return {
    elapsed := ⟨nanoseconds⟩
    epochMs := epoch.toMillisecondsSinceUnixEpoch.val
    date :=
      { year := date.year
        month := date.month.val.toNat
        day := date.day.val.toNat
        hour := date.hour.val.toNat
        minute := date.minute.val.toNat
        second := date.second.val.toNat } }

/-- Why a file could not be read, by the number that the system gives, which may be negated. -/
def codedError (code : UInt32) (details : String) : FileError :=
  match code.toNat, (0 - code).toNat with
  | 2, _ => .notFound
  | 20, _ => .notFolder
  | _, 20 => .notFolder
  | 21, _ => .isFolder
  | _, 21 => .isFolder
  | number, negated => .other (details ++ " (os error " ++ toString (min number negated) ++ ")")

def fileError : IO.Error → FileError
  | .noFileOrDirectory _ _ _ => .notFound
  | .inappropriateType _ code details => codedError code details
  | .otherError code details => codedError code details
  | .illegalOperation code details => codedError code details
  | .permissionDenied _ code details => codedError code details
  | .resourceExhausted _ code details => codedError code details
  | .invalidArgument _ code details => codedError code details
  | .noSuchThing _ code details => codedError code details
  | e => .other (toString e)

def load (path : String) : IO (Except FileError (List UInt8)) := do
  try
    let bytes ← IO.FS.readBinFile path
    return .ok bytes.toList
  catch e => return .error (fileError e)

/-- Writes at the end of a file, and makes the folders on the way to it. -/
def append (path contents : String) : IO Bool := do
  try
    match Text.cutAtLast (· == '/') path.toList with
    | some (folder, _) =>
        if !folder.isEmpty then IO.FS.createDirAll (String.ofList folder)
    | none => pure ()
    IO.FS.withFile path .append fun file => file.putStr contents
    return true
  catch _ => return false

def answerFiles : (c : Files.Call) → IO (Files.Reply c)
  | .load path => load path
  | .isFile path => do return (← load path).toOption.isSome
  | .append path contents => append path contents

def answer (browser : Browser.DryRun) :
    (c : Cli.Calls.Call) → IO (Cli.Calls.Reply c × Browser.DryRun)
  | .inl c =>
      let (v, browser) := browser.answer c
      return (.ok v, browser)
  | .inr c => do return (← answerFiles c, browser)

/-- The longest pause at a time, in milliseconds. -/
def longestPause : Nat := 1000000000

/-- Runs the program. -/
def run (browser : Browser.DryRun) : Cli.Program → IO Cli.Completion
  | .done c => return c
  | .call .clock next => do run browser (next (← reading))
  | .call .stopRequested next => run browser (next false)
  | .call (.pause d) next => do
      IO.sleep (min d.toMillisUp longestPause).toUInt32
      run browser (next ⟨d, false⟩)
  | .call (.ask c _ _) next => do
      let (reply, browser) ← answer browser c
      run browser (next ⟨.zero, .replied reply⟩)

/-- The variables of the environment that the configuration looks at. -/
def variableNames : List String :=
  ["SOULMACRO_ENGINE", "SOULMACRO_ENGINE__MAX_LOOPS", "SOULMACRO_ENGINE__RETRY_INTERVAL_MS",
    "SOULMACRO_ENGINE__MIN_RETRY_INTERVAL_MS", "SOULMACRO_PROFILER",
    "SOULMACRO_PROFILER__OUTPUT_DIR", "SOULMACRO_LOG_LEVEL"]

def configFolder : IO (Option String) := do
  match (← IO.getEnv "XDG_CONFIG_HOME").filter Path.isAbsolute with
  | some folder => return some folder
  | none => return (← IO.getEnv "HOME").map (Path.join · ".config")

def newRunId : IO String := do
  let digits ← (List.range 32).mapM fun i => do
    let digit ← IO.rand 0 15
    return Nat.digitChar (if i = 12 then 4 else if i = 16 then 8 + digit % 4 else digit)
  let part (start length : Nat) : String := String.ofList ((digits.drop start).take length)
  return "-".intercalate [part 0 8, part 8 4, part 12 4, part 16 4, part 20 12]

def surroundings : IO Cli.Surroundings := do
  let environment ← variableNames.filterMapM fun name => do
    return (← IO.getEnv name).map fun value => (name, value)
  return {
    environment := environment
    configStem := (← configFolder).map (Path.join · "soulmacro/config")
    runId := ← newRunId
    gitHash := "unknown"
    buildDate := "unknown" }

end MacroReplay.Terminal

def main (args : List String) : IO UInt32 := do
  let program := MacroReplay.Cli.program (← MacroReplay.Terminal.surroundings) args
  let completion ← MacroReplay.Terminal.run .start program
  IO.print completion.output
  match completion.error with
  | some message => IO.eprintln ("Error: " ++ message)
  | none => pure ()
  return completion.exitCode.toUInt32
