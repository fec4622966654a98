import MacroReplay.Config.Json
import MacroReplay.Text.Ascii

/-!
# Texts and keys in TOML

A text stands between quotes, one or three on each side. Between double quotes a backslash begins an
escape. With three quotes a text may have several lines, and one or two quotes more at its end belong to
it.

- `Toml.readText` reads a text in any kind of quotes
- `Toml.readKeys` reads keys with dots between them
-/

namespace MacroReplay.Config.Toml

def isSpace (c : Char) : Bool :=
  c == ' ' || c == '\t'

def skip (cs : List Char) : List Char :=
  cs.dropWhile isSpace

/-- The characters that may stand in texts and comments as they are. -/
def isPlainChar (c : Char) : Bool :=
  c == '\t' || (0x20 ≤ c.toNat && c.toNat != 0x7F)

def afterBreak? (cs : List Char) : Option (List Char) :=
  match cs with
  | '\n' :: rest => some rest
  | '\r' :: '\n' :: rest => some rest
  | _ => none

/-! ## Characters -/

/-- A character given by its number, in so many hexadecimal digits. -/
def readCode (width : Nat) (cs : List Char) : Option (Char × List Char) := do
  let digits := cs.take width
  if digits.length < width then none
  let n ← digits.foldlM (fun n c => (Json.hexValue? c).map (16 * n + ·)) 0
  if n.isValidChar then some (Char.ofNat n, cs.drop width) else none

def readEscape (cs : List Char) : Option (Char × List Char) :=
  match cs with
  | 'b' :: rest => some ('\x08', rest)
  | 'f' :: rest => some ('\x0c', rest)
  | 'n' :: rest => some ('\n', rest)
  | 'r' :: rest => some ('\r', rest)
  | 't' :: rest => some ('\t', rest)
  | '\\' :: rest => some ('\\', rest)
  | '"' :: rest => some ('"', rest)
  | 'u' :: rest => readCode 4 rest
  | 'U' :: rest => readCode 8 rest
  | _ => none

/-! ## Texts of one line -/

/-- A text up to its closing quote, and what follows. A backslash begins an escape between double
quotes. -/
def readShort (fuel : Nat) (quote : Char) (cs : List Char) : Option (List Char × List Char) :=
  match fuel, cs with
  | 0, _ => none
  | _, [] => none
  | fuel + 1, c :: rest =>
      if c == quote then some ([], rest)
      else do
        let (c, rest) ← if c == '\\' && quote == '"' then readEscape rest
          else if isPlainChar c then some (c, rest) else none
        let (text, rest) ← readShort fuel quote rest
        some (c :: text, rest)

/-! ## Texts of several lines -/

/-- A text without space and so many line ends at its front. -/
def skipBreaks (fuel : Nat) (cs : List Char) : List Char :=
  match fuel with
  | 0 => skip cs
  | fuel + 1 =>
      match afterBreak? (skip cs) with
      | some rest => skipBreaks fuel rest
      | none => skip cs

/-- What follows a backslash at the end of a line, without the space and the line ends there. -/
def afterContinuation? (cs : List Char) : Option (List Char) :=
  (afterBreak? (skip cs)).map fun rest => skipBreaks rest.length rest

/-- A text up to its three closing quotes, and what follows. One or two quotes before those belong to
the text. -/
def readLong (fuel : Nat) (quote : Char) (cs : List Char) : Option (List Char × List Char) :=
  match fuel, cs with
  | 0, _ => none
  | _, [] => none
  | fuel + 1, c :: rest =>
      if c == quote then
        let quotes := cs.takeWhile (· == quote)
        if quotes.length < 3 then do
          let (text, rest) ← readLong fuel quote (cs.drop quotes.length)
          some (quotes ++ text, rest)
        else
          let inside := min (quotes.length - 3) 2
          some (quotes.take inside, cs.drop (inside + 3))
      else if c == '\\' && quote == '"' then
        match afterContinuation? rest with
        | some rest => readLong fuel quote rest
        | none => do
            let (c, rest) ← readEscape rest
            let (text, rest) ← readLong fuel quote rest
            some (c :: text, rest)
      else
        match afterBreak? cs with
        | some rest => (readLong fuel quote rest).map fun (text, rest) => ('\n' :: text, rest)
        | none =>
            if isPlainChar c then
              (readLong fuel quote rest).map fun (text, rest) => (c :: text, rest)
            else none

/-- A text in any kind of quotes, and what follows. A line end right behind three opening quotes is
dropped. -/
def readText (cs : List Char) : Option (List Char × List Char) :=
  match cs with
  | '"' :: '"' :: '"' :: rest => readLong cs.length '"' ((afterBreak? rest).getD rest)
  | '\x27' :: '\x27' :: '\x27' :: rest => readLong cs.length '\x27' ((afterBreak? rest).getD rest)
  | '"' :: rest => readShort cs.length '"' rest
  | '\x27' :: rest => readShort cs.length '\x27' rest
  | _ => none

/-! ## Keys -/

def isBareKeyChar (c : Char) : Bool :=
  Text.isLetter c || Text.isDigit c || c == '_' || c == '-'

/-- One key, and what follows. Quotes stand one on each side. -/
def readKey (cs : List Char) : Option (String × List Char) :=
  let named (p : List Char × List Char) : String × List Char := (String.ofList p.1, p.2)
  match cs with
  | '"' :: rest => (readShort cs.length '"' rest).map named
  | '\x27' :: rest => (readShort cs.length '\x27' rest).map named
  | cs =>
      let key := cs.takeWhile isBareKeyChar
      if key.isEmpty then none else some (String.ofList key, cs.drop key.length)

/-- Keys with dots between them, and what follows; their number is limited. -/
def readKeysFor (limit : Nat) (cs : List Char) : Option (List String × List Char) :=
  match limit with
  | 0 => none
  | limit + 1 => do
      let (key, rest) ← readKey (skip cs)
      match skip rest with
      | '.' :: rest =>
          let (keys, rest) ← readKeysFor limit rest
          some (key :: keys, rest)
      | rest => some ([key], rest)

/-- Keys with dots between them, fewer than eighty, and what follows. -/
def readKeys (cs : List Char) : Option (List String × List Char) :=
  readKeysFor 79 cs

end MacroReplay.Config.Toml
