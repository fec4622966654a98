import MacroReplay.Config.Ini
import MacroReplay.Config.Json5
import MacroReplay.Config.Ron
import MacroReplay.Config.Toml
import MacroReplay.Config.Yaml
import MacroReplay.Engine
import MacroReplay.Files.Basic
import MacroReplay.Files.Path

/-!
# Configuration

The configuration is made of three layers: what holds by default, a file, and variables of the
environment. Its parts are read from the settings by name.

- `Config.validate` says what a configuration must satisfy
- `Config.ofTable?` takes settings for a configuration
- `Config.load` reads the layers
-/

namespace MacroReplay

structure Config where
  engine : EngineSettings := {}
  /-- Where profiles with a relative target go. -/
  outputDir : Option String := none
  logLevel : String := "info"
  deriving DecidableEq, Repr

inductive ConfigError where
  /-- A layer cannot be read, or a setting is of a kind that makes no sense. -/
  | unreadable
  /-- No iterations are allowed. -/
  | noLoops
  /-- The shortest pause is longer than the usual one. -/
  | crossedIntervals
  deriving DecidableEq, Repr

def ConfigError.message : ConfigError → String
  | .unreadable => "Failed to load configuration"
  | .noLoops => "Invalid configuration: engine.max_loops must be at least 1"
  | .crossedIntervals =>
      "Invalid configuration: engine.min_retry_interval_ms exceeds engine.retry_interval_ms"

namespace Config

def validate (c : Config) : Except ConfigError Unit :=
  if c.engine.maxLoops = 0 then .error .noLoops
  else if c.engine.retryIntervalMs < c.engine.minRetryIntervalMs then .error .crossedIntervals
  else .ok ()

/-! ## From settings -/

/-- A part of a section, by its name or by its place; fails if the section is no section. -/
def part (section? : Option Setting) (name : String) (position : Nat) : Option (Option Setting) :=
  match section? with
  | none => some none
  | some (.table entries) => some (Table.find? entries name)
  | some (.list items) => some items[position]?
  | some _ => none

/-- A part that is a number, with the number that holds if there is none. -/
def numberPart (section? : Option Setting) (name : String) (position greatest default : Nat) :
    Option Nat :=
  (part section? name position).bind fun
    | none => some default
    | some v => v.toNat? greatest

def engine? (section? : Option Setting) : Option EngineSettings := do
  let usual : EngineSettings := {}
  let maxLoops ← numberPart section? "max_loops" 0 (Nat.pow 2 32 - 1) usual.maxLoops
  let retry ← numberPart section? "retry_interval_ms" 1 maxWord usual.retryIntervalMs
  let least ← numberPart section? "min_retry_interval_ms" 2 maxWord usual.minRetryIntervalMs
  some ⟨maxLoops, retry, least⟩

def outputDir? (section? : Option Setting) : Option (Option String) :=
  (part section? "output_dir" 0).bind fun
    | none => some none
    | some .nothing => some none
    | some v => v.toText?.map some

/-- The configuration that settings make. -/
def ofTable? (t : Table) : Option Config := do
  let engine ← engine? (t.find? "engine")
  let outputDir ← outputDir? (t.find? "profiler")
  let logLevel ← match t.find? "log_level" with
    | none => some ({} : Config).logLevel
    | some v => v.toText?
  some ⟨engine, outputDir, logLevel⟩

def toTable (c : Config) : Table :=
  [("engine", .table
      [("max_loops", .integer c.engine.maxLoops),
        ("retry_interval_ms", .integer c.engine.retryIntervalMs),
        ("min_retry_interval_ms", .integer c.engine.minRetryIntervalMs)]),
    ("profiler", .table [("output_dir", (c.outputDir.map Setting.text).getD .nothing)]),
    ("log_level", .text c.logLevel)]

/-! ## The environment -/

/-- What the names of the variables begin with. -/
def envStart : List Char := "soulmacro_".toList

/-- The settings that variables of the environment make. Two underscores lead one level down. -/
def envLayer (environment : List (String × String)) : Table :=
  environment.filterMap fun (name, value) =>
    let name := name.toList.map Char.toLower
    if envStart.isPrefixOf name then
      let key := Text.replaceChars ['_', '_'] ['.'] (name.drop envStart.length)
      some (String.ofList key, Setting.ofWord value)
    else none

/-! ## Files -/

def formats : List (String × (List Char → Option Setting)) :=
  [("toml", Toml.read), ("json", Json.read), ("yaml", Yaml.read), ("yml", Yaml.read),
    ("ini", Ini.read), ("json5", Json5.read), ("ron", Ron.read)]

def format? (path : String) : Option (List Char → Option Setting) :=
  (formats.find? fun (extension, _) => (Path.extension? path).getD "" == extension).map Prod.snd

/-- The first of some paths at which there is a file. -/
def firstFile : List String → Proc Files (Option String)
  | [] => .done none
  | path :: paths =>
      (Files.isFile path).bind fun
        | true => .done (some path)
        | false => firstFile paths

/-- The file that a path means: one at the path itself, or with the ending of a format behind it. -/
def findFile (path : String) : Proc Files (Option String) :=
  firstFile (path :: formats.filterMap fun (extension, _) => Path.withEnding? path ("." ++ extension))

/-- The settings that a file holds, if they can be read. -/
def layerOf (path text : String) : Option Table := do
  let read ← format? path
  match ← read text.toList with
  | .table entries => some entries
  | _ => none

/-- The settings of the file that a path means. Nothing is required to be there if the file is
optional, but what is there has to make sense. -/
def fileLayer (path : String) (required : Bool) : Proc Files (Option Table) :=
  let absent : Option Table := if required then none else some []
  (findFile path).bind fun
    | none => .done absent
    | some found =>
        if (format? found).isNone then .done absent
        else
          (Files.loadText found).bind fun
            | .error _ => .done absent
            | .ok text => .done (layerOf found text)

/-- The layer of a file: the one asked for, or else an optional one in the usual place. -/
def anyFileLayer (path? stem? : Option String) : Proc Files (Option Table) :=
  match path?, stem? with
  | some path, _ => fileLayer path true
  | none, some stem => fileLayer stem false
  | none, none => .done (some [])

/-- The configuration of three layers. -/
def ofLayers (file env : Table) : Except ConfigError Config :=
  match ofTable? (((Table.overlay [] (toTable {})).overlay file).overlay env) with
  | none => .error .unreadable
  | some c => c.validate.map fun _ => c

def load (path? stem? : Option String) (environment : List (String × String)) :
    Proc Files (Except ConfigError Config) :=
  (anyFileLayer path? stem?).bind fun
    | none => .done (.error .unreadable)
    | some file => .done (ofLayers file (envLayer environment))

end Config
end MacroReplay
