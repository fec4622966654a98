import MacroReplay.Text.Ascii
import MacroReplay.Text.Blank
import MacroReplay.Text.Split

/-!
# Command lines

A line of a script is a command name followed by parameters, separated by blanks. Blanks inside double
quotes do not separate; inside quotes a backslash protects the next character. A parameter with an
unquoted `=` behind at least one character is keyed, any other is positional. Reading a line never
fails: a line with a flaw becomes a command that carries it.
-/

namespace MacroReplay

/-! ## Quoting -/

/-- Where a scan of a line stands with respect to quotes. -/
inductive Quoting where
  | outside
  | inside
  | escaped
  deriving DecidableEq, Repr

/-- Where the scan stands behind a character. -/
def Quoting.next : Quoting → Char → Quoting
  | .outside, c => if c = '"' then .inside else .outside
  | .inside, c => if c = '"' then .outside else if c = '\\' then .escaped else .inside
  | .escaped, _ => .inside

/-- Where a scan that begins outside quotes stands at the end of a text. -/
def Quoting.after (cs : List Char) : Quoting :=
  cs.foldl Quoting.next .outside

/-- The escapes inside quotes resolved: `\"`, `\\`, `\n` and `\t`. Any other backslash stands for
itself. -/
def resolveEscapes : List Char → List Char
  | '\\' :: '"' :: cs => '"' :: resolveEscapes cs
  | '\\' :: '\\' :: cs => '\\' :: resolveEscapes cs
  | '\\' :: 'n' :: cs => '\n' :: resolveEscapes cs
  | '\\' :: 't' :: cs => '\t' :: resolveEscapes cs
  | '\\' :: c :: cs => '\\' :: c :: resolveEscapes cs
  | c :: cs => c :: resolveEscapes cs
  | [] => []

/-- A value without the quotes around it, its escapes resolved; a value that is not quoted as a whole
is left as it is. -/
def unquoteChars (cs : List Char) : List Char :=
  match cs with
  | '"' :: tail => if tail.getLast? = some '"' then resolveEscapes tail.dropLast else cs
  | cs => cs

def unquote (s : String) : String :=
  String.ofList (unquoteChars s.toList)

/-! ## Parameters -/

structure Parameter where
  /-- The key as written, for a keyed parameter. -/
  key : Option String
  /-- The value, without the quotes around it. -/
  value : String
  /-- The parameter as written. -/
  token : String
  deriving DecidableEq, Repr

namespace Parameter

def isPositional (p : Parameter) : Bool :=
  p.key.isNone

/-- Whether the parameter is keyed by `key`, in any letter case. -/
def hasKey (p : Parameter) (key : String) : Bool :=
  p.key.any (Text.sameLetters · key)

/-- The text that names the parameter: its key, or its value if it has none. -/
def label (p : Parameter) : String :=
  p.key.getD p.value

end Parameter

/-- The parts of a token before and behind its first `=` outside quotes. -/
def cutAtEquals (q : Quoting) : List Char → Option (List Char × List Char)
  | [] => none
  | c :: cs =>
      if q = .outside ∧ c = '=' then some ([], cs)
      else (cutAtEquals (q.next c) cs).map fun (a, b) => (c :: a, b)

def Parameter.ofToken (token : List Char) : Parameter :=
  match cutAtEquals .outside token with
  | some (k :: key, rest) =>
      { key := some (String.ofList (k :: key)), value := String.ofList (unquoteChars rest),
        token := String.ofList token }
  | _ => { key := none, value := String.ofList (unquoteChars token), token := String.ofList token }

/-! ## Commands -/

inductive Flaw where
  | unterminatedQuote
  | invalidName (written : String)
  deriving DecidableEq, Repr

def Flaw.message : Flaw → String
  | .unterminatedQuote => "Unterminated quoted value"
  | .invalidName written => "Invalid command name '" ++ written ++ "'"

structure Command where
  /-- The name, in upper case. -/
  name : String
  parameters : List Parameter
  /-- The line without the blanks around it. -/
  raw : String
  /-- The number of the line, from 1. -/
  line : Nat
  /-- What is wrong with the line, if anything. -/
  flaw : Option Flaw
  deriving DecidableEq, Repr

namespace Command

def param? (c : Command) (key : String) : Option Parameter :=
  c.parameters.find? (·.hasKey key)

/-- Whether a positional parameter is the word `flag`, in any letter case. -/
def hasFlag (c : Command) (flag : String) : Bool :=
  c.parameters.any fun p => p.isPositional && Text.sameLetters p.value flag

end Command

/-- The characters between the blanks of a text that stand outside quotes. The first part continues a
token that was begun where the scan stands at `q`. -/
def wordsFrom (q : Quoting) : List Char → List (List Char)
  | [] => [[]]
  | c :: cs =>
      if q = .outside ∧ Text.isBlank c then [] :: wordsFrom .outside cs
      else match wordsFrom (q.next c) cs with
        | [] => [[c]]
        | word :: words => (c :: word) :: words

def tokens (cs : List Char) : List (List Char) :=
  (wordsFrom .outside cs).filter (· ≠ [])

def isNameChar (c : Char) : Bool :=
  Text.isLetter c || Text.isDigit c || c == '_' || c == '-'

/-- What is wrong with a line, given its name as written. -/
def flaw? (line name : List Char) : Option Flaw :=
  if Quoting.after line ≠ .outside then some .unterminatedQuote
  else if !name.all isNameChar then some (.invalidName (String.ofList name))
  else none

/-- The command of a line; a blank line and a comment have none. -/
def Command.ofLine? (text : List Char) (line : Nat) : Option Command :=
  let trimmed := Text.trimChars text
  if trimmed.head? = some '\x27' then none
  else
    match tokens trimmed with
    | [] => none
    | name :: rest =>
        some
          { name := String.ofList (name.map Char.toUpper)
            parameters := rest.map Parameter.ofToken
            raw := String.ofList trimmed
            line := line
            flaw := flaw? trimmed name }

/-! ## Scripts -/

/-- A script: its name and its commands. -/
structure Script where
  name : String
  commands : List Command
  deriving DecidableEq, Repr

namespace Script

/-- The commands of a list of lines, numbered from `n`. -/
def commandsFrom (n : Nat) : List (List Char) → List Command
  | [] => []
  | text :: texts =>
      match Command.ofLine? text n with
      | some c => c :: commandsFrom (n + 1) texts
      | none => commandsFrom (n + 1) texts

def parse (name text : String) : Script :=
  { name := name, commands := commandsFrom 1 (Text.lines text.toList) }

def flawed (s : Script) : List Command :=
  s.commands.filter (·.flaw.isSome)

end Script
end MacroReplay
