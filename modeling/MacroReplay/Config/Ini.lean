import MacroReplay.Config.Json
import MacroReplay.Config.Setting
import MacroReplay.Text.Blank

/-!
# Settings in INI files

Keys with texts, under headings that name the section they belong to. A key ends at an equals sign or a
colon and a text at the end of its line; between them line ends mean nothing. A comment takes a whole
line. A backslash makes a character out of those behind it, in headings, keys and texts alike.

- `Ini.read` reads settings; a section that comes back begins anew
-/

namespace MacroReplay.Config.Ini

/-! ## Characters -/

/-- The character that four characters stand for in hexadecimal notation. -/
def codeOf? (cs : List Char) : Option Char := do
  let digits := match cs with
    | '+' :: rest => rest
    | cs => cs
  let n ← digits.foldlM (fun n c => (Json.hexValue? c).map (16 * n + ·)) 0
  if n.isValidChar then some (Char.ofNat n) else none

/-- What a backslash makes of the characters behind it, and what follows. A line end is dropped, and a
character without a meaning of its own stands for itself. -/
def readEscape (cs : List Char) : Option (List Char × List Char) :=
  match cs with
  | [] => none
  | '0' :: rest => some (['\x00'], rest)
  | 'a' :: rest => some (['\x07'], rest)
  | 'b' :: rest => some (['\x08'], rest)
  | 't' :: rest => some (['\t'], rest)
  | 'r' :: rest => some (['\r'], rest)
  | 'n' :: rest => some (['\n'], rest)
  | '\n' :: rest => some ([], rest)
  | 'x' :: a :: b :: c :: d :: rest => (codeOf? [a, b, c, d]).map fun e => ([e], rest)
  | 'x' :: _ => none
  | c :: rest => some ([c], rest)

/-- The characters up to one at which to stop, or up to the end, and what follows. -/
def readUpTo (fuel : Nat) (stop : Char → Bool) (cs : List Char) : Option (List Char × List Char) :=
  match fuel, cs with
  | _, [] => some ([], [])
  | 0, _ => none
  | fuel + 1, c :: rest =>
      if stop c then some ([], c :: rest)
      else do
        let (here, rest) ← if c == '\\' then readEscape rest else some ([c], rest)
        let (text, rest) ← readUpTo fuel stop rest
        some (here ++ text, rest)

/-- The characters up to one at which to stop, which has to be there, and what follows. -/
def readClosed (stop : Char → Bool) (cs : List Char) : Option (List Char × Char × List Char) := do
  match ← readUpTo cs.length stop cs with
  | (text, c :: rest) => some (text, c, rest)
  | (_, []) => none

def readLine (cs : List Char) : Option (List Char × List Char) :=
  readUpTo cs.length (fun c => c == '\n' || c == '\r') cs

/-! ## Texts -/

/-- A text, which may begin between quotes and then goes on up to the end of the line, and what
follows. -/
def readText (cs : List Char) : Option (List Char × List Char) :=
  match cs.dropWhile fun c => Text.isBlank c && c != '\n' && c != '\r' with
  | [] => some ([], [])
  | c :: rest =>
      if c == '"' || c == '\x27' then do
        let (quoted, _, rest) ← readClosed (· == c) rest
        let (text, rest) ← readLine rest
        some (quoted ++ text, rest)
      else readLine (c :: rest)

def trimmed (cs : List Char) : String :=
  String.ofList (Text.trimChars cs)

/-! ## Files -/

/-- Whether what stands behind some blanks is at the front of its line, and what stands there. -/
def skipBlanks (atFront : Bool) : List Char → Bool × List Char
  | [] => (atFront, [])
  | c :: cs => if Text.isBlank c then skipBlanks (c == '\n') cs else (atFront, c :: cs)

/-- The settings with one more, in a section or in none. -/
def putEntry (t : Table) (section? : Option String) (key : String) (v : Setting) : Table :=
  match section? with
  | none => t.put key v
  | some name => t.put name (.table (((t.find? name).getD .nothing).entries.put key v))

/-- The settings with those of a text, given the section that it is in and whether it begins at the
front of a line. -/
def readFrom (fuel : Nat) (t : Table) (section? : Option String) (atFront : Bool) (cs : List Char) :
    Option Table :=
  match fuel with
  | 0 => none
  | fuel + 1 =>
      match skipBlanks atFront cs with
      | (_, []) => some t
      | (atFront, c :: rest) =>
          if c == ';' || c == '#' then
            if atFront then readFrom fuel t section? true ((rest.dropWhile (· != '\n')).drop 1)
            else none
          else if c == '[' then do
            let (name, _, rest) ← readClosed (· == ']') rest
            readFrom fuel (t.put (trimmed name) (.table [])) (some (trimmed name)) false rest
          else do
            let (key, _, rest) ← readClosed (fun c => c == '=' || c == ':') (c :: rest)
            if (trimmed key).isEmpty then none
            else
              let (text, rest) ← readText rest
              readFrom fuel (putEntry t section? (trimmed key) (.text (trimmed text))) section? false
                rest

def read (cs : List Char) : Option Setting :=
  (readFrom (cs.length + 1) [] none true cs).map .table

end MacroReplay.Config.Ini
