import MacroReplay.Command.Line
import MacroReplay.Command.Result
import MacroReplay.Variable.Expansion

/-!
# Invocations

Before a command runs, the placeholders in its parameters are replaced once, from the variables as the
command before left them. An invocation is the command with its arguments after that.
-/

namespace MacroReplay

open Calendar (DateTime)

/-- A parameter with its placeholders replaced. -/
structure Argument where
  written : Parameter
  /-- The value after replacement. -/
  value : String
  /-- The whole parameter after replacement. -/
  token : String
  deriving DecidableEq, Repr

namespace Argument

def ofParameter (s : Store) (now : DateTime) (p : Parameter) : Argument :=
  { written := p, value := s.expand now p.value, token := s.expand now p.token }

/-- The text of the argument by its place: a keyed parameter counts with its key. -/
def text (a : Argument) : String :=
  if a.written.isPositional then a.value else a.token

end Argument

structure Invocation where
  command : Command
  arguments : List Argument
  deriving DecidableEq, Repr

namespace Invocation

def ofCommand (s : Store) (now : DateTime) (c : Command) : Invocation :=
  { command := c, arguments := c.parameters.map (Argument.ofParameter s now) }

/-- The value of the first argument keyed by `key`. -/
def param? (i : Invocation) (key : String) : Option String :=
  (i.arguments.find? (·.written.hasKey key)).map Argument.value

def required (i : Invocation) (key : String) : Except CommandError String :=
  match i.param? key with
  | some v => .ok v
  | none => .error (.missingParameter (Text.upper key))

/-- The text of the argument at a place, from 0. -/
def arg? (i : Invocation) (index : Nat) : Option String :=
  i.arguments[index]?.map Argument.text

/-- Whether a positional argument is the word `flag`, in any letter case. -/
def hasFlag (i : Invocation) (flag : String) : Bool :=
  i.arguments.any fun a => a.written.isPositional && Text.sameLetters a.value flag

end Invocation

/-- The value that an argument text stands for: `EVAL(...)` is computed, all else is text. -/
def argumentValue (text : String) : Value :=
  match Expression.argument? text with
  | some inner => Expression.evaluate inner
  | none => .text text

end MacroReplay
