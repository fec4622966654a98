import MacroReplay.Text.Blank
import MacroReplay.Text.Integer
import MacroReplay.Text.Split

/-!
# The arguments of the command line

A command is named after the options that hold for all commands, and followed by its own; the common
ones may stand there too, and then win. An option is given once at each place, except for assignments.
Behind `--` everything is an argument, whatever it looks like.

- `Switch` lists the options, `Switch.shapes` how they are written
- `Arguments.parse` reads the arguments one by one
-/

namespace MacroReplay.Cli

inductive OutputFormat where
  | human
  | json
  | yaml
  deriving DecidableEq, Repr

inductive CommandName where
  | play
  | check
  | eval
  | info
  deriving DecidableEq, Repr

inductive Switch where
  | config
  | logLevel
  | debug
  | logFormat
  | output
  | loops
  | assign
  | profile
  | bridge
  | datasource
  | delimiter
  | help
  | version
  deriving DecidableEq, Repr

/-- How an option is written. -/
structure Shape where
  switch : Switch
  long : String
  short : Option Char
  takesValue : Bool

def commonShapes : List Shape :=
  [⟨.config, "config", some 'c', true⟩, ⟨.logLevel, "log-level", some 'l', true⟩,
    ⟨.debug, "debug", some 'd', false⟩, ⟨.logFormat, "log-format", none, true⟩,
    ⟨.output, "output", some 'o', true⟩, ⟨.help, "help", some 'h', false⟩,
    ⟨.version, "version", some 'V', false⟩]

def playShapes : List Shape :=
  [⟨.loops, "loops", none, true⟩, ⟨.assign, "var", none, true⟩,
    ⟨.profile, "profile", none, false⟩, ⟨.bridge, "bridge", none, true⟩,
    ⟨.datasource, "datasource", none, true⟩, ⟨.delimiter, "delimiter", none, true⟩]

namespace CommandName

def ofText? : String → Option CommandName
  | "play" => some .play
  | "check" => some .check
  | "eval" => some .eval
  | "info" => some .info
  | _ => none

def text : CommandName → String
  | .play => "play"
  | .check => "check"
  | .eval => "eval"
  | .info => "info"

def arity : CommandName → Nat
  | .info => 0
  | _ => 1

end CommandName

/-- The options that may stand before or behind the name of a command. -/
def shapes : Option CommandName → List Shape
  | some .play => commonShapes ++ playShapes
  | _ => commonShapes

/-! ## What was given -/

structure Given where
  config : Option String := none
  logLevel : Option String := none
  debug : Bool := false
  logFormat : Option String := none
  output : Option OutputFormat := none
  loops : Option Nat := none
  assignments : List (String × String) := []
  profile : Bool := false
  bridge : Option String := none
  datasource : Option String := none
  delimiter : Option Char := none
  words : List String := []
  deriving DecidableEq, Repr

inductive Refusal where
  | usage
  | help
  | version (command : Option CommandName)
  deriving DecidableEq, Repr

def OutputFormat.ofText? : String → Option OutputFormat
  | "human" => some .human
  | "json" => some .json
  | "yaml" => some .yaml
  | _ => none

/-- A name with a value: the name without blanks around it, the value as it is. -/
def assignment? (s : String) : Option (String × String) := do
  let (name, value) ← Text.cutAt (· == '=') s.toList
  let name := Text.trimChars name
  if name.isEmpty then none else some (String.ofList name, String.ofList value)

/-- A path, which is never empty. -/
def path? (s : String) : Option String :=
  if s.isEmpty then none else some s

def oneOf? (words : List String) (s : String) : Option String :=
  if words.contains s then some s else none

def char? (s : String) : Option Char :=
  match s.toList with
  | [c] => some c
  | _ => none

/-- The value of an option that was not given before. -/
def once {α : Type} (old new : Option α) : Option (Option α) :=
  match old, new with
  | none, some a => some (some a)
  | _, _ => none

/-- Notes an option with its value. Nothing comes of an option that was given before, or of a value
that it cannot have. -/
def Given.set? (g : Given) (value : String) : Switch → Option Given
  | .config => (once g.config (path? value)).map fun v => { g with config := v }
  | .logLevel => (once g.logLevel (some value)).map fun v => { g with logLevel := v }
  | .debug => if g.debug then none else some { g with debug := true }
  | .logFormat =>
      (once g.logFormat (oneOf? ["text", "json"] value)).map fun v => { g with logFormat := v }
  | .output => (once g.output (OutputFormat.ofText? value)).map fun v => { g with output := v }
  | .loops =>
      (once g.loops ((Text.readInt? 0 4294967295 value).map Int.toNat)).map fun v =>
        { g with loops := v }
  | .assign => (assignment? value).map fun v => { g with assignments := g.assignments ++ [v] }
  | .profile => if g.profile then none else some { g with profile := true }
  | .bridge => (once g.bridge (oneOf? ["dry-run"] value)).map fun v => { g with bridge := v }
  | .datasource => (once g.datasource (path? value)).map fun v => { g with datasource := v }
  | .delimiter => (once g.delimiter (char? value)).map fun v => { g with delimiter := v }
  | .help => none
  | .version => none

/-! ## Reading -/

/-- Where the reading of the arguments stands. -/
structure Progress where
  /-- What was given before the name of the command. -/
  outer : Given := {}
  command : Option CommandName := none
  /-- What was given behind it. -/
  inner : Given := {}
  /-- The option that waits for its value. -/
  awaiting : Option Switch := none
  /-- Whether everything that follows is an argument. -/
  verbatim : Bool := false

namespace Progress

def set (p : Progress) (switch : Switch) (value : String) : Except Refusal Progress :=
  let p := { p with awaiting := none }
  match switch with
  | .help => .error .help
  | .version => .error (.version p.command)
  | switch =>
      match p.command with
      | none =>
          match p.outer.set? value switch with
          | some g => .ok { p with outer := g }
          | none => .error .usage
      | some _ =>
          match p.inner.set? value switch with
          | some g => .ok { p with inner := g }
          | none => .error .usage

/-- An argument that is no option: the name of the command, or an argument of it. -/
def word (p : Progress) (s : String) : Except Refusal Progress :=
  match p.command with
  | some command =>
      if p.inner.words.length < command.arity then
        .ok { p with inner := { p.inner with words := p.inner.words ++ [s] } }
      else .error .usage
  | none =>
      if p.verbatim then .error .usage
      else if s = "help" then .error .help
      else
        match CommandName.ofText? s with
        | some command => .ok { p with command := some command }
        | none => .error .usage

/-- An option by its long name, with the value behind its equals sign. -/
def long (p : Progress) (cs : List Char) : Except Refusal Progress :=
  let (name, value?) := match Text.cutAt (· == '=') cs with
    | some (name, value) => (String.ofList name, some (String.ofList value))
    | none => (String.ofList cs, none)
  match (shapes p.command).find? (·.long == name), value? with
  | none, _ => .error .usage
  | some shape, some value => if shape.takesValue then p.set shape.switch value else .error .usage
  | some shape, none =>
      if shape.takesValue then .ok { p with awaiting := some shape.switch }
      else p.set shape.switch ""

/-- Options by their letters; the letters behind one that takes a value are its value. -/
def short (p : Progress) : List Char → Except Refusal Progress
  | [] => .ok p
  | c :: rest =>
      match (shapes p.command).find? (·.short == some c) with
      | none => .error .usage
      | some shape =>
          if !shape.takesValue then (p.set shape.switch "").bind fun p => p.short rest
          else
            match rest with
            | [] => .ok { p with awaiting := some shape.switch }
            | '=' :: value => p.set shape.switch (String.ofList value)
            | value => p.set shape.switch (String.ofList value)

def step (p : Progress) (s : String) : Except Refusal Progress :=
  if p.verbatim then p.word s
  else
    match p.awaiting, s.toList with
    | some switch, ['-'] => p.set switch s
    | some _, '-' :: _ => .error .usage
    | some switch, _ => p.set switch s
    | none, ['-'] => p.word s
    | none, ['-', '-'] => .ok { p with verbatim := true }
    | none, '-' :: '-' :: cs => p.long cs
    | none, '-' :: cs => p.short cs
    | none, _ => p.word s

end Progress

/-! ## Requests -/

structure PlayOptions where
  file : String
  loops : Option Nat
  assignments : List (String × String)
  profile : Bool
  datasource : Option String
  delimiter : Char
  deriving DecidableEq, Repr

inductive Action where
  | play (options : PlayOptions)
  | check (file : String)
  | eval (expression : String)
  | info
  deriving DecidableEq, Repr

structure Arguments where
  config : Option String
  logLevel : Option String
  debug : Bool
  output : OutputFormat
  action : Action
  deriving DecidableEq, Repr

namespace Arguments

def action? (g : Given) : CommandName → Option Action
  | .info => some .info
  | .eval => g.words.head?.map .eval
  | .check => (g.words.head?.bind path?).map .check
  | .play =>
      (g.words.head?.bind path?).map fun file =>
        .play
          { file := file, loops := g.loops, assignments := g.assignments, profile := g.profile,
            datasource := g.datasource, delimiter := g.delimiter.getD ',' }

def ofProgress (p : Progress) : Except Refusal Arguments :=
  match p.awaiting, p.command.bind (action? p.inner) with
  | none, some action =>
      .ok
        { config := p.inner.config <|> p.outer.config
          logLevel := p.inner.logLevel <|> p.outer.logLevel
          debug := p.inner.debug || p.outer.debug
          output := (p.inner.output <|> p.outer.output).getD .human
          action := action }
  | _, _ => .error .usage

/-- What the arguments of the command line ask for. -/
def parse (args : List String) : Except Refusal Arguments :=
  (args.foldlM Progress.step {}).bind ofProgress

end Arguments
end MacroReplay.Cli
