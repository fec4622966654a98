import MacroReplay.Config.Json

/-!
# Settings in RON

Structures in round brackets, with or without names in front of them, lists, maps with any keys that are
texts, and values that may be absent. Comments nest.
-/

namespace MacroReplay.Config.Ron

/-! ## Space -/

/-- What follows a comment of which so many openings are to be closed. -/
def afterComment (level : Nat) : List Char → Option (List Char)
  | [] => none
  | '/' :: '*' :: rest => afterComment (level + 1) rest
  | '*' :: '/' :: rest => if level ≤ 1 then some rest else afterComment (level - 1) rest
  | _ :: rest => afterComment level rest

/-- A text without space and so many comments at its front. A comment without end stays. -/
def skipFor (fuel : Nat) (cs : List Char) : List Char :=
  match fuel with
  | 0 => cs
  | fuel + 1 =>
      match cs.dropWhile Json.isSpace with
      | '/' :: '/' :: rest => skipFor fuel (rest.dropWhile (· != '\n'))
      | '/' :: '*' :: rest =>
          match afterComment 1 rest with
          | some rest => skipFor fuel rest
          | none => '/' :: '*' :: rest
      | rest => rest

def skip (cs : List Char) : List Char :=
  skipFor (cs.length + 1) cs

/-- What follows a symbol and the space around it. -/
def after? (symbol : List Char) (cs : List Char) : Option (List Char) :=
  let cs := skip cs
  if symbol.isPrefixOf cs then some (skip (cs.drop symbol.length)) else none

/-! ## Names -/

def isNameStart (c : Char) : Bool :=
  Text.isLetter c || c == '_'

def isNameChar (c : Char) : Bool :=
  isNameStart c || Text.isDigit c

/-- The characters of a name that is marked as one. -/
def isMarkedChar (c : Char) : Bool :=
  isNameChar c || c == '.' || c == '+' || c == '-'

/-- A name, and what follows. A name that would go on with the characters of marked names has to be
marked, with an `r` and a hash. -/
def readName (cs : List Char) : Option (List Char × List Char) :=
  match cs with
  | 'r' :: '#' :: rest =>
      let name := rest.takeWhile isMarkedChar
      if name.isEmpty then none else some (name, rest.drop name.length)
  | 'r' :: '"' :: _ => none
  | ['r'] => none
  | c :: _ =>
      let name := cs.takeWhile isNameChar
      let rest := cs.drop name.length
      if !isNameStart c then none
      else if c != 'r' && (rest.head?.any isMarkedChar) then none
      else some (name, rest)
  | [] => none

/-- Whether a text starts with a word that does not go on. -/
def startsWithWord (word cs : List Char) : Bool :=
  word.isPrefixOf cs && !(cs.drop word.length).head?.any isNameChar

/-! ## Texts -/

/-- The character of a number in hexadecimal digits up to a closing brace, and what follows. -/
def readCode (cs : List Char) : Option (Char × List Char) := do
  let digits := (cs.take 6).takeWhile fun c => (Json.hexValue? c).isSome
  let n := digits.foldl (fun n c => 16 * n + (Json.hexValue? c).getD 0) 0
  match cs.drop digits.length with
  | '\x7d' :: rest =>
      if !digits.isEmpty && n.isValidChar then some (Char.ofNat n, rest) else none
  | _ => none

def readEscape (cs : List Char) : Option (Char × List Char) :=
  match cs with
  | '\x27' :: rest => some ('\x27', rest)
  | '"' :: rest => some ('"', rest)
  | '\\' :: rest => some ('\\', rest)
  | 'n' :: rest => some ('\n', rest)
  | 'r' :: rest => some ('\r', rest)
  | 't' :: rest => some ('\t', rest)
  | '0' :: rest => some ('\x00', rest)
  | 'x' :: a :: b :: rest => do
      some (Char.ofNat ((← Json.hexValue? a) * 16 + (← Json.hexValue? b)), rest)
  | 'u' :: '\x7b' :: rest => readCode rest
  | _ => none

def readText (fuel : Nat) (cs : List Char) : Option (List Char × List Char) :=
  match fuel, cs with
  | 0, _ => none
  | _, [] => none
  | _, '"' :: rest => some ([], rest)
  | fuel + 1, '\\' :: rest => do
      let (c, rest) ← readEscape rest
      let (text, rest) ← readText fuel rest
      some (c :: text, rest)
  | fuel + 1, c :: rest => (readText fuel rest).map fun (text, rest) => (c :: text, rest)

/-- A text without escapes, which ends at a quote with as many hashes as it began with, and what
follows. -/
def readPlainText (cs : List Char) : Option (List Char × List Char) :=
  let hashes := cs.takeWhile (· == '#')
  match cs.drop hashes.length with
  | '"' :: rest => Text.cutAtText ('"' :: hashes) rest
  | _ => none

def readChar (cs : List Char) : Option (Char × List Char) := do
  let (c, rest) ← match cs with
    | '\\' :: rest => readEscape rest
    | '\x27' :: _ => none
    | c :: rest => some (c, rest)
    | [] => none
  match rest with
  | '\x27' :: rest => some (c, rest)
  | _ => none

/-! ## Numbers -/

def isIntegerChar (c : Char) : Bool :=
  (Json.hexValue? c).isSome || c == '_'

def isRealChar (c : Char) : Bool :=
  Number.isNotation c || c == '_'

def readReal (cs : List Char) : Option (Setting × List Char) := do
  let (negative, body) := match cs with
    | '-' :: rest => (true, rest)
    | '+' :: rest => (false, rest)
    | rest => (false, rest)
  if startsWithWord "inf".toList body then some (.real (.infinite negative), body.drop 3)
  else if startsWithWord "NaN".toList body then some (.real .nan, body.drop 3)
  else
    let digits := cs.takeWhile isRealChar
    let x ← Number.readDecimal digits
    some (.real x, cs.drop digits.length)

def digitsOf (base : Nat) (cs : List Char) : Option Nat :=
  if cs.isEmpty || cs.head? == some '_' then none
  else
    (cs.filter (· != '_')).foldlM (fun n c =>
      (Json.hexValue? c).bind fun v => if v < base then some (base * n + v) else none) 0

def readSize (cs : List Char) : Option (Nat × List Char) :=
  let (base, body) := match cs with
    | '0' :: 'x' :: rest => (16, rest)
    | '0' :: 'b' :: rest => (2, rest)
    | '0' :: 'o' :: rest => (8, rest)
    | rest => (10, rest)
  let digits := body.takeWhile isIntegerChar
  (digitsOf base digits).map fun n => (n, body.drop digits.length)

/-- An integer, and what follows. With a sign it has to fit in sixty-four bits, and so it has without
one, but then there is no bit for a sign. -/
def readInteger (cs : List Char) : Option (Int × List Char) := do
  match cs with
  | '-' :: rest =>
      let (n, rest) ← readSize rest
      if n ≤ Nat.pow 2 63 then some (-n, rest) else none
  | '+' :: rest =>
      let (n, rest) ← readSize rest
      if n < Nat.pow 2 63 then some (n, rest) else none
  | rest =>
      let (n, rest) ← readSize rest
      if n ≤ maxWord then some (n, rest) else none

/-- A number, and what follows. What is no integer is taken for a real number, and so is an integer
that needs the bit of the sign. -/
def readNumber (cs : List Char) : Option (Setting × List Char) :=
  let body := match cs with
    | '-' :: rest => rest
    | '+' :: rest => rest
    | rest => rest
  if (body.takeWhile isIntegerChar).length < (body.takeWhile isRealChar).length then readReal cs
  else
    match readInteger cs with
    | some (n, rest) =>
        if n < Nat.pow 2 63 then some (.integer n, rest)
        else some (.real (Number.ofDecimal false n.toNat 0), rest)
    | none => readReal cs

/-! ## Values -/

/-- Whether what stands behind an opening bracket is a name with a colon. -/
def hasFields (cs : List Char) : Bool :=
  match readName (skip cs) with
  | some (_, rest) => (skip rest).head? == some ':'
  | none => false

/-- The key of a map, which is a text or a character. -/
def keyOf? : Setting → Option String
  | .text s => some s
  | _ => none

mutual

/-- A value, and what follows. Nesting is limited: whatever holds others takes one level for itself and
one for what it holds. -/
def readValue (fuel depth : Nat) (cs : List Char) : Option (Setting × List Char) :=
  match fuel with
  | 0 => none
  | fuel + 1 =>
      if startsWithWord "true".toList cs then some (.flag true, cs.drop 4)
      else if startsWithWord "false".toList cs then some (.flag false, cs.drop 5)
      else if startsWithWord "None".toList cs then some (.nothing, cs.drop 4)
      else if startsWithWord "inf".toList cs || startsWithWord "NaN".toList cs then readReal cs
      else if startsWithWord "Some".toList cs then do
        let rest ← after? ['('] (cs.drop 4)
        if depth = 0 then none
        let (v, rest) ← readValue fuel (depth - 1) rest
        let rest := (after? [','] rest).getD (skip rest)
        match rest with
        | ')' :: rest => some (v, rest)
        | _ => none
      else
        match readName cs with
        | some (_, rest) => readStructure fuel depth (skip rest)
        | none =>
            match cs with
            | '(' :: ')' :: rest => some (.nothing, rest)
            | '(' :: _ => readStructure fuel depth cs
            | '[' :: rest =>
                if depth = 0 then none
                else
                  (readItems fuel (depth - 1) ']' true rest).map fun (items, rest) =>
                    (.list items, rest)
            | '\x7b' :: rest =>
                if depth = 0 then none
                else
                  (readEntries fuel (depth - 1) '\x7d' true rest).map fun (entries, rest) =>
                    (.table (Table.ofEntries entries), rest)
            | '"' :: rest =>
                (readText (rest.length + 1) rest).map fun (text, rest) =>
                  (.text (String.ofList text), rest)
            | 'r' :: rest =>
                (readPlainText rest).map fun (text, rest) => (.text (String.ofList text), rest)
            | '\x27' :: rest =>
                (readChar rest).map fun (c, rest) => (.text (String.singleton c), rest)
            | '.' :: _ => readReal cs
            | c :: _ => if Text.isDigit c || c == '+' || c == '-' then readNumber cs else none
            | [] => none

/-- What follows the name of a structure: its fields, its parts, or nothing. -/
def readStructure (fuel depth : Nat) (cs : List Char) : Option (Setting × List Char) :=
  match fuel with
  | 0 => none
  | fuel + 1 =>
      match cs with
      | '(' :: rest =>
          if depth = 0 then none
          else if hasFields rest then
            (readEntries fuel (depth - 1) ')' true rest).map fun (entries, rest) =>
              (.table (Table.ofEntries entries), rest)
          else
            (readItems fuel (depth - 1) ')' true rest).map fun (items, rest) => (.list items, rest)
      | rest => some (.nothing, rest)

/-- The items up to a closing bracket, and what follows. An item may follow at the front and behind a
comma. -/
def readItems (fuel depth : Nat) (closing : Char) (mayFollow : Bool) (cs : List Char) :
    Option (List Setting × List Char) :=
  match fuel with
  | 0 => none
  | fuel + 1 =>
      match skip cs with
      | [] => none
      | c :: cs =>
          if c == closing then some ([], cs)
          else if !mayFollow || depth = 0 then none
          else do
            let (v, rest) ← readValue fuel (depth - 1) (c :: cs)
            let (items, rest) ← match after? [','] rest with
              | some rest => readItems fuel depth closing true rest
              | none => readItems fuel depth closing false rest
            some (v :: items, rest)

/-- The entries up to a closing bracket, and what follows. The keys are names in a structure, and texts
that may not be absent in a map. -/
def readEntries (fuel depth : Nat) (closing : Char) (mayFollow : Bool) (cs : List Char) :
    Option (Table × List Char) :=
  match fuel with
  | 0 => none
  | fuel + 1 =>
      match skip cs with
      | [] => none
      | c :: cs =>
          if c == closing then some ([], cs)
          else if !mayFollow || depth = 0 then none
          else do
            let (key, rest) ← if closing == ')' then
                (readName (c :: cs)).map fun (name, rest) => (String.ofList name, rest)
              else do
                if startsWithWord "Some".toList (c :: cs) then none
                let (v, rest) ← readValue fuel (depth - 1) (c :: cs)
                let key ← keyOf? v
                some (key, rest)
            let rest ← after? [':'] rest
            let (v, rest) ← readValue fuel (depth - 1) rest
            let (entries, rest) ← match after? [','] rest with
              | some rest => readEntries fuel depth closing true rest
              | none => readEntries fuel depth closing false rest
            some ((key, v) :: entries, rest)

end

/-! ## Extensions -/

/-- The extensions that a text may ask for. They change nothing in settings. -/
def extensions : List String :=
  ["unwrap_newtypes", "implicit_some", "unwrap_variant_newtypes"]

/-- What follows the names of extensions. -/
def afterExtensions (fuel : Nat) (cs : List Char) : Option (List Char) :=
  match fuel with
  | 0 => none
  | fuel + 1 => do
      let (name, rest) ← readName cs
      if !extensions.contains (String.ofList name) then none
      match after? [','] rest with
      | some rest => if rest.head?.any isNameChar then afterExtensions fuel rest else some rest
      | none => some rest

/-- What follows the requests for extensions at the front of a text. -/
def skipExtensions (fuel : Nat) (cs : List Char) : Option (List Char) :=
  match fuel, cs with
  | fuel + 1, '#' :: rest => do
      let rest ← after? ['!'] rest
      let rest ← after? ['['] rest
      let rest ← after? "enable".toList rest
      let rest ← after? ['('] rest
      let rest ← afterExtensions (rest.length + 1) rest
      let rest ← after? [')'] rest
      let rest ← after? [']'] rest
      skipExtensions fuel rest
  | _, cs => some cs

def read (cs : List Char) : Option Setting := do
  let cs ← skipExtensions (cs.length + 1) (skip cs)
  let (v, rest) ← readValue (3 * cs.length + 4) 128 cs
  if (skip rest).isEmpty then some v else none

end MacroReplay.Config.Ron
