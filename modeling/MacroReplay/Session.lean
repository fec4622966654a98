import MacroReplay.Engine
import MacroReplay.Proc.Timeline

/-!
# Sessions

A session lets clients play scripts on one engine, one run at a time, and use the variables between
runs. While a run is in flight, it moves only when a client waits. A request to stop concerns the run
in flight and no other.

- `Session.start` begins a run, `Session.join` waits for its end, `Session.play` does both
- `Session.wait` lets time pass
- `Session.exit` stops the run in flight, waits for its end and forgets everything; it is a fault to
  leave with a timeout that goes beyond what the clock can show
-/

namespace MacroReplay

structure LastRun where
  result : Option RunResult
  error : Option String
  deriving DecidableEq

inductive SessionError where
  | alreadyRunning
  | variable (e : Variable.Error)
  | exitTimeout (limit : Duration)
  deriving DecidableEq, Repr

def SessionError.message : SessionError → String
  | .alreadyRunning => "A macro is already running"
  | .variable e => e.message
  | .exitTimeout limit => "Run did not stop within " ++ limit.describe

structure Flight (ι : Interface) (μ σ : Type) where
  waiting : Timeline.Waiting ι σ (RunResult × Memory μ)
  /-- Whether the session keeps its result. -/
  kept : Bool

inductive Phase (ι : Interface) (μ σ : Type) where
  | idle (m : Memory μ)
  | running (f : Flight ι μ σ)

structure Session (ι : Interface) (μ σ : Type) where
  engine : Engine ι μ
  world : World ι σ
  scene : Scene σ
  phase : Phase ι μ σ
  last : LastRun
  /-- The result of the last run that ended. -/
  ended : Option RunResult
  exitTimeout : Duration

namespace Session

variable {ι : Interface} {μ σ : Type}

def statusOk : Int := 1

def statusAlreadyRunning : Int := -3

/-- The name of a script that is given as bare text. -/
def inlineName : String := "inline"

/-- The time between two looks at a run that was asked to stop, in milliseconds. -/
def pollMillis : Nat := 10

def create (engine : Engine ι μ) (world : World ι σ) (start : σ) (m : Memory μ)
    (exitTimeout : Duration) : Session ι μ σ where
  engine := engine
  world := world
  scene := { now := 0, stopRequested := false, world := start }
  phase := .idle m
  last := ⟨none, none⟩
  ended := none
  exitTimeout := exitTimeout

def isRunning (s : Session ι μ σ) : Bool :=
  match s.phase with
  | .idle _ => false
  | .running _ => true

def status (r : RunResult) : Int :=
  if r.success then statusOk else r.code.value

def LastRun.ofResult (r : RunResult) : LastRun :=
  ⟨some r, if r.success then none else r.message⟩

/-- The session where its run stands so. -/
def arrive (s : Session ι μ σ) (kept : Bool) :
    Timeline.Status ι σ (RunResult × Memory μ) → Session ι μ σ
  | .waiting p scene => { s with scene := scene, phase := .running ⟨p, kept⟩ }
  | .finished (result, m) scene =>
      { s with
        scene := scene
        phase := .idle m
        ended := some result
        last := if kept then LastRun.ofResult result else s.last }

/-! ## Runs -/

/-- Begins a run and plays it up to a horizon. A run begins with no stop requested. -/
def launch (s : Session ι μ σ) (script : Script) (loops : Option Nat) (kept : Bool)
    (horizon : Option Nat) : Except SessionError (Session ι μ σ) :=
  match s.phase with
  | .running _ => .error .alreadyRunning
  | .idle m =>
      let scene := { s.scene with stopRequested := false }
      .ok (s.arrive kept (Timeline.proceed s.world horizon (s.engine.run script loops m) scene))

/-- Lets the run in flight go on up to a horizon. -/
def goOn (s : Session ι μ σ) (horizon : Option Nat) : Session ι μ σ :=
  match s.phase with
  | .idle _ => s
  | .running f => s.arrive f.kept (Timeline.resume s.world horizon f.waiting s.scene)

/-- Waits for some milliseconds. A run in flight that would go on at the very end of them has not done
so yet. -/
def wait (s : Session ι μ σ) (ms : Nat) : Session ι μ σ :=
  let horizon := s.scene.now + ms
  let s := s.goOn (some horizon)
  { s with scene := { s.scene with now := horizon } }

def join (s : Session ι μ σ) : Session ι μ σ :=
  s.goOn none

/-- Begins a run whose result the session keeps, and plays it as far as it goes at once. -/
def start (s : Session ι μ σ) (script : Script) (loops : Option Nat) :
    Except SessionError (Session ι μ σ) :=
  s.launch script loops true (some (s.scene.now + 1))

/-- Plays a script to its end and gives its status. -/
def play (s : Session ι μ σ) (script : Script) (loops : Option Nat) : Int × Session ι μ σ :=
  match s.launch script loops true none with
  | .error _ => (statusAlreadyRunning, s)
  | .ok s => ((s.ended.map status).getD statusAlreadyRunning, s)

/-- Plays a script to its end and gives its result, which the session does not keep. -/
def execute (s : Session ι μ σ) (script : Script) (loops : Option Nat) :
    Except SessionError (Option RunResult × Session ι μ σ) :=
  match s.launch script loops false none with
  | .error e => .error e
  | .ok s => .ok (s.ended, s)

def stop (s : Session ι μ σ) : Session ι μ σ :=
  match s.phase with
  | .idle _ => s
  | .running _ => { s with scene := { s.scene with stopRequested := true } }

/-! ## Variables between runs -/

def setVariable (s : Session ι μ σ) (name : String) (v : Value) :
    Except SessionError (Assignment × Session ι μ σ) :=
  match s.phase with
  | .running _ => .error .alreadyRunning
  | .idle m =>
      match m.vars.set name v with
      | .ok (a, vars) => .ok (a, { s with phase := .idle { m with vars := vars } })
      | .error e => .error (.variable e)

def getVariable (s : Session ι μ σ) (name : String) : Except SessionError (Option Value) :=
  match s.phase with
  | .running _ => .error .alreadyRunning
  | .idle m => .ok (m.vars.get (s.world.reading s.scene.now).date name)

def resetVariables (s : Session ι μ σ) : Except SessionError (Session ι μ σ) :=
  match s.phase with
  | .running _ => .error .alreadyRunning
  | .idle m => .ok { s with phase := .idle { m with vars := .initial } }

/-- The message of the last run that the session kept; empty after a success. -/
def lastError (s : Session ι μ σ) : String :=
  s.last.error.getD ""

/-- The extracted texts of the last run that the session kept, as one text. -/
def lastExtract (s : Session ι μ σ) : String :=
  (s.last.result.map RunResult.extractText).getD ""

/-! ## Leaving -/

/-- Looks whether the run has ended, and forgets everything when it has. There is nothing to say while it
goes on and has time left since the moment `began`. -/
def look (s : Session ι μ σ) (began : Nat) : Option (Except SessionError Unit × Session ι μ σ) :=
  match s.phase with
  | .idle m => some (.ok (), { s with last := ⟨none, none⟩, phase := .idle { m with vars := .initial } })
  | .running _ =>
      if s.exitTimeout ≤ Duration.ofMillis (s.scene.now - began) then
        some (.error (.exitTimeout s.exitTimeout), s)
      else none

/-- Looks at most `polls` times whether the run has ended. -/
def pollExit (began : Nat) :
    (polls : Nat) → Session ι μ σ → Except SessionError Unit × Session ι μ σ
  | 0, s => (.error (.exitTimeout s.exitTimeout), s)
  | polls + 1, s =>
      match s.look began with
      | some answer => answer
      | none => pollExit began polls (s.wait pollMillis)

/-- The fault of adding a duration to a moment when the clock cannot show the sum. -/
def clockOverflow : Fault :=
  ⟨some "overflow when adding duration to instant"⟩

/-- Whether the clock can show the moment at which a client that leaves now runs out of time. -/
def hasDeadline (s : Session ι μ σ) : Bool :=
  (s.world.reading s.scene.now).reaches s.exitTimeout

/-- Stops the run in flight, waits for its end and forgets variables and results; fails if the run
takes longer to end than the session allows. The run is stopped before the deadline is reckoned, so a
fault there leaves it stopped. -/
def exit (s : Session ι μ σ) : Except Fault (Except SessionError Unit) × Session ι μ σ :=
  let stopped := s.stop
  if stopped.hasDeadline then
    let (answer, left) :=
      pollExit s.scene.now (s.exitTimeout.nanoseconds / 10000000 + 2) stopped
    (.ok answer, left)
  else (.error clockOverflow, stopped)

end Session
end MacroReplay
