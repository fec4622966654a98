import MacroReplay.Config.Toml.Item
import MacroReplay.Config.Toml.Moment
import MacroReplay.Config.Toml.Text

/-!
# Settings in TOML

Lines of keys with values, under headings that name the table they belong to.

- `Toml.read` reads settings
-/

namespace MacroReplay.Config.Toml

/-! ## Lines -/

def skipComment (cs : List Char) : List Char :=
  match cs with
  | '#' :: rest => rest.dropWhile isPlainChar
  | cs => cs

def lineEnd? (cs : List Char) : Option (List Char) :=
  match skipComment (skip cs) with
  | [] => some []
  | rest => afterBreak? rest

/-- A text without space, comments and so many line ends at its front. -/
def skipLines (fuel : Nat) (cs : List Char) : List Char :=
  match fuel with
  | 0 => cs
  | fuel + 1 =>
      let rest := skipComment (skip cs)
      match afterBreak? rest with
      | some rest => skipLines fuel rest
      | none => rest

/-! ## Numbers -/

/-- Digits with single underscores between them, without the underscores, and what follows. -/
def moreDigits (isDigit : Char → Bool) : List Char → List Char × List Char
  | '_' :: c :: cs =>
      if isDigit c then
        let (digits, rest) := moreDigits isDigit cs
        (c :: digits, rest)
      else ([], '_' :: c :: cs)
  | c :: cs =>
      if isDigit c then
        let (digits, rest) := moreDigits isDigit cs
        (c :: digits, rest)
      else ([], c :: cs)
  | [] => ([], [])

/-- At least one digit, and more with single underscores between them, and what follows. -/
def readDigits (isDigit : Char → Bool) (cs : List Char) : Option (List Char × List Char) :=
  match cs with
  | c :: rest =>
      if isDigit c then
        let (digits, rest) := moreDigits isDigit rest
        some (c :: digits, rest)
      else none
  | [] => none

def readSign (cs : List Char) : Option Bool × List Char :=
  match cs with
  | '-' :: rest => (some true, rest)
  | '+' :: rest => (some false, rest)
  | rest => (none, rest)

/-- The digits before the point of a number, and what follows. A zero stands alone. -/
def readWhole (cs : List Char) : Option (List Char × List Char) :=
  match cs with
  | '0' :: rest => some (['0'], rest)
  | cs => readDigits Text.isDigit cs

def readExponent (cs : List Char) : Option (Int × List Char) :=
  match cs with
  | c :: rest =>
      if c == 'e' || c == 'E' then
        let (sign, rest) := readSign rest
        (readDigits Text.isDigit rest).map fun (digits, rest) =>
          let n : Int := Text.digitsValue digits
          (if sign = some true then -n else n, rest)
      else none
  | [] => none

/-- A number with a fraction or an exponent, and what follows. It may be too small for the finite
numbers, but not too great. -/
def readDecimal (cs : List Char) : Option (Number × List Char) := do
  let (sign, rest) := readSign cs
  let (whole, rest) ← readWhole rest
  let (fraction, rest) ← match rest with
    | '.' :: rest => readDigits Text.isDigit rest
    | rest => some ([], rest)
  let (exponent, rest) ← match readExponent rest with
    | some found => some found
    | none => if fraction.isEmpty then none else some (0, rest)
  let x := Number.ofDecimal (sign = some true) (Text.digitsValue (whole ++ fraction))
    (exponent - fraction.length)
  if x = .infinite false then none else some (x, rest)

/-- One of the words for numbers without a value, and what follows. -/
def readNumberWord (cs : List Char) : Option (Number × List Char) :=
  let (sign, rest) := readSign cs
  match rest with
  | 'i' :: 'n' :: 'f' :: rest => some (.infinite (sign = some true), rest)
  | 'n' :: 'a' :: 'n' :: rest => some (.nan, rest)
  | _ => none

def integer? (n : Int) : Option Setting :=
  if -Int.pow 2 63 ≤ n ∧ n < Int.pow 2 63 then some (.integer n) else none

/-- An integer in a base, from behind the mark of the base, and what follows. -/
def readBased (base : Nat) (cs : List Char) : Option (Setting × List Char) := do
  let isDigit (c : Char) : Bool := (Json.hexValue? c).any (· < base)
  let (digits, rest) ← readDigits isDigit cs
  let n := digits.foldl (fun n c => base * n + (Json.hexValue? c).getD 0) 0
  (integer? n).map fun v => (v, rest)

def readInteger (cs : List Char) : Option (Setting × List Char) :=
  match cs with
  | '0' :: 'x' :: rest => readBased 16 rest
  | '0' :: 'o' :: rest => readBased 8 rest
  | '0' :: 'b' :: rest => readBased 2 rest
  | cs => do
      let (sign, rest) := readSign cs
      let (digits, rest) ← readWhole rest
      let n : Int := Text.digitsValue digits
      (integer? (if sign = some true then -n else n)).map fun v => (v, rest)

def readBare (cs : List Char) : Option (Setting × List Char) :=
  match cs with
  | 't' :: 'r' :: 'u' :: 'e' :: rest => some (.flag true, rest)
  | 'f' :: 'a' :: 'l' :: 's' :: 'e' :: rest => some (.flag false, rest)
  | cs =>
      match Moment.read cs with
      | some (m, rest) => some (.text m.render, rest)
      | none =>
          match (readDecimal cs).or (readNumberWord cs) with
          | some (x, rest) => some (.real x, rest)
          | none => readInteger cs

/-! ## Values -/

mutual

def readValue (fuel depth : Nat) (cs : List Char) : Option (Setting × List Char) :=
  match fuel with
  | 0 => none
  | fuel + 1 =>
      match cs with
      | '"' :: _ => (readText cs).map fun (text, rest) => (.text (String.ofList text), rest)
      | '\x27' :: _ => (readText cs).map fun (text, rest) => (.text (String.ofList text), rest)
      | '[' :: rest =>
          if depth = 0 then none
          else (readItems fuel (depth - 1) rest).map fun (items, rest) => (.list items, rest)
      | '\x7b' :: rest =>
          if depth = 0 then none
          else
            match skip rest with
            | '\x7d' :: rest => some (.table [], rest)
            | rest =>
                (readInline fuel (depth - 1) [] rest).map fun (entries, rest) =>
                  (.table (entriesTable entries), rest)
      | cs => readBare cs

/-- The items of a list up to its end, and what follows; a comma may stand behind the last one. -/
def readItems (fuel depth : Nat) (cs : List Char) : Option (List Setting × List Char) :=
  match fuel with
  | 0 => none
  | fuel + 1 =>
      match skipLines cs.length cs with
      | ']' :: rest => some ([], rest)
      | cs => do
          let (v, rest) ← readValue fuel depth cs
          match skipLines rest.length rest with
          | ']' :: rest => some ([v], rest)
          | ',' :: rest =>
              let (items, rest) ← readItems fuel depth rest
              some (v :: items, rest)
          | _ => none

/-- The entries of a table inside a line, and what follows. -/
def readInline (fuel depth : Nat) (entries : Entries) (cs : List Char) :
    Option (Entries × List Char) :=
  match fuel with
  | 0 => none
  | fuel + 1 => do
      let (keys, rest) ← readKeys cs
      let rest ← afterMark '=' rest
      let (v, rest) ← readValue fuel depth (skip rest)
      let entries ← entries.insert keys v
      match skip rest with
      | '\x7d' :: rest => some (entries, rest)
      | ',' :: rest => readInline fuel depth entries rest
      | _ => none

end

/-! ## Files -/

def maxDepth : Nat := 79

/-- The keys of a heading up to its closing brackets, and what follows the line. -/
def readHeading (closing cs : List Char) : Option (List String × List Char) := do
  let (keys, rest) ← readKeys cs
  if closing.isPrefixOf rest then (lineEnd? (rest.drop closing.length)).map fun rest => (keys, rest)
  else none

/-- The entries with those of lines, given the heading in force. -/
def readLines (fuel : Nat) (entries : Entries) (heading : List String) (cs : List Char) :
    Option Entries :=
  match fuel with
  | 0 => none
  | fuel + 1 =>
      match skip cs with
      | [] => some entries
      | '[' :: '[' :: rest => do
          let (keys, rest) ← readHeading [']', ']'] rest
          readLines fuel (← entries.pushTable keys) keys rest
      | '[' :: rest => do
          let (keys, rest) ← readHeading [']'] rest
          readLines fuel (← entries.openTable keys) keys rest
      | c :: rest =>
          if c == '#' || c == '\n' || c == '\r' then do
            readLines fuel entries heading (← lineEnd? (c :: rest))
          else do
            let (keys, rest) ← readKeys (c :: rest)
            let rest ← afterMark '=' rest
            let (v, rest) ← readValue (2 * rest.length + 2) maxDepth (skip rest)
            let rest ← lineEnd? rest
            readLines fuel (← entries.insertBelow heading keys v) heading rest

/-- The setting that a text writes. A mark that it is encoded text may stand at its front. -/
def read (cs : List Char) : Option Setting :=
  let cs := if cs.head? == some '\ufeff' then cs.drop 1 else cs
  (readLines (cs.length + 1) [] [] cs).map fun entries => .table (entriesTable entries)

end MacroReplay.Config.Toml
