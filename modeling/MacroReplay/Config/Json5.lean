import MacroReplay.Config.Json
import MacroReplay.Text.Unicode.Letter

/-!
# Settings in JSON5

JSON for people: comments, keys without quotes, texts in either kind of quotes, more ways to write a
number, and a comma behind the last item.
-/

namespace MacroReplay.Config.Json5

def isLineEnd (c : Char) : Bool :=
  c == '\n' || c == '\r' || c == '\u2028' || c == '\u2029'

/-- The characters between symbols. -/
def isSpace (c : Char) : Bool :=
  isLineEnd c || c == '\t' || c == '\x0b' || c == '\x0c' || c == ' ' || c == '\u00a0' ||
    c == '\u1680' || ('\u2000' ≤ c && c ≤ '\u200a') || c == '\u202f' || c == '\u205f' ||
    c == '\u3000' || c == '\ufeff'

/-- A text without space and so many comments at its front. A comment without end stays. -/
def skipFor (fuel : Nat) (cs : List Char) : List Char :=
  match fuel with
  | 0 => cs
  | fuel + 1 =>
      match cs.dropWhile isSpace with
      | '/' :: '/' :: rest => skipFor fuel (rest.dropWhile (!isLineEnd ·))
      | '/' :: '*' :: rest =>
          match Text.cutAtText ['*', '/'] rest with
          | some (_, rest) => skipFor fuel rest
          | none => '/' :: '*' :: rest
      | rest => rest

def skip (cs : List Char) : List Char :=
  skipFor (cs.length + 1) cs

/-! ## Texts -/

/-- The character that a backslash and a character stand for: most stand for themselves. -/
def simpleEscape? (c : Char) : Option Char :=
  match c with
  | 'b' => some '\x08'
  | 'f' => some '\x0c'
  | 'n' => some '\n'
  | 'r' => some '\r'
  | 't' => some '\t'
  | 'v' => some '\x0b'
  | '0' => some '\x00'
  | 'x' => none
  | 'u' => none
  | c => if Text.isDigit c then none else some c

/-- The character that units in hexadecimal digits make, and what follows. -/
def readUnits (cs : List Char) : Option (Char × List Char) :=
  match cs with
  | a :: b :: c :: d :: rest => do
      let n ← Json.unit? a b c d
      if Json.isLowUnit n then none
      else if Json.isHighUnit n then
        match rest with
        | '\\' :: 'u' :: e :: f :: g :: h :: rest =>
            let low ← Json.unit? e f g h
            if Json.isLowUnit low then
              some (Char.ofNat (0x10000 + (n - 0xD800) * 0x400 + (low - 0xDC00)), rest)
            else none
        | _ => none
      else some (Char.ofNat n, rest)
  | _ => none

/-- What stands behind a backslash: a character, or nothing if it is a line end; and what follows. -/
def readEscape (cs : List Char) : Option (Option Char × List Char) :=
  match cs with
  | 'u' :: rest => (readUnits rest).map fun (c, rest) => (some c, rest)
  | 'x' :: a :: b :: rest => do
      some (some (Char.ofNat ((← Json.hexValue? a) * 16 + (← Json.hexValue? b))), rest)
  | '\r' :: '\n' :: rest => some (none, rest)
  | c :: rest =>
      if isLineEnd c then some (none, rest) else (simpleEscape? c).map fun c => (some c, rest)
  | [] => none

def readText (fuel : Nat) (quote : Char) (cs : List Char) : Option (List Char × List Char) :=
  match fuel, cs with
  | 0, _ => none
  | _, [] => none
  | fuel + 1, '\\' :: rest => do
      let (c?, rest) ← readEscape rest
      let (text, rest) ← readText fuel quote rest
      some (c?.toList ++ text, rest)
  | fuel + 1, c :: rest =>
      if c == quote then some ([], rest)
      else if isLineEnd c then none
      else (readText fuel quote rest).map fun (text, rest) => (c :: text, rest)

/-! ## Keys -/

def isNameStart (c : Char) : Bool :=
  Unicode.isLetter c || c == '$' || c == '_'

def readNameEnd (fuel : Nat) (cs : List Char) : Option (List Char × List Char) :=
  match fuel, cs with
  | 0, _ => none
  | _, [] => some ([], [])
  | fuel + 1, '\\' :: rest =>
      match rest with
      | 'u' :: rest => do
          let (c, rest) ← readUnits rest
          let (name, rest) ← readNameEnd fuel rest
          some (c :: name, rest)
      | _ => none
  | fuel + 1, c :: rest =>
      if isNameStart c || Unicode.isInner c then
        (readNameEnd fuel rest).map fun (name, rest) => (c :: name, rest)
      else some ([], c :: rest)

def readKey (cs : List Char) : Option (String × List Char) :=
  let named (p : List Char × List Char) : String × List Char := (String.ofList p.1, p.2)
  match cs with
  | [] => none
  | c :: rest =>
      if c == '"' || c == '\x27' then (readText (cs.length + 1) c rest).map named
      else if isNameStart c || c == '\\' then (readNameEnd (cs.length + 1) cs).map named
      else none

/-! ## Numbers -/

/-- An integer in hexadecimal digits, which has to fit in thirty-two bits, and what follows. -/
def readHex (cs : List Char) : Option (Setting × List Char) := do
  let digits := cs.takeWhile fun c => (Json.hexValue? c).isSome
  if digits.isEmpty then none
  let n := digits.foldl (fun n c => 16 * n + (Json.hexValue? c).getD 0) 0
  if n < Nat.pow 2 32 then some (.integer n, cs.drop digits.length) else none

/-- A number in decimal digits, and what follows. An integer has to fit in sixty-four bits. -/
def readDecimal (negative : Bool) (cs : List Char) : Option (Setting × List Char) := do
  let body := cs.takeWhile Number.isNotation
  let (whole, fraction) := Number.spanDigits body
  if !whole.isEmpty && !Json.isWhole whole then none
  if fraction.isEmpty then
    let n : Int := Text.digitsValue whole
    let n := if negative then -n else n
    if !whole.isEmpty && -Int.pow 2 63 ≤ n && n < Int.pow 2 63 then
      some (.integer n, cs.drop body.length)
    else none
  else
    let x ← Number.readUnsigned negative body
    if x.isFinite then some (.real x, cs.drop body.length) else none

/-- A number, and what follows. A plus sign goes with decimal digits only, and so does a minus sign,
but for the words. -/
def readNumber (cs : List Char) : Option (Setting × List Char) :=
  let (sign?, body) := match cs with
    | '+' :: rest => (some '+', rest)
    | '-' :: rest => (some '-', rest)
    | rest => (none, rest)
  let negative := sign? == some '-'
  match body with
  | 'I' :: 'n' :: 'f' :: 'i' :: 'n' :: 'i' :: 't' :: 'y' :: rest =>
      if sign? == some '+' then none else some (.real (.infinite negative), rest)
  | 'N' :: 'a' :: 'N' :: rest => if sign? == some '+' then none else some (.real .nan, rest)
  | '0' :: 'x' :: rest => if sign?.isSome then none else readHex rest
  | '0' :: 'X' :: rest => if sign?.isSome then none else readHex rest
  | body => readDecimal negative body

/-! ## Values -/

mutual

def readValue (fuel : Nat) (cs : List Char) : Option (Setting × List Char) :=
  match fuel with
  | 0 => none
  | fuel + 1 =>
      match cs with
      | 'n' :: 'u' :: 'l' :: 'l' :: rest => some (.nothing, rest)
      | 't' :: 'r' :: 'u' :: 'e' :: rest => some (.flag true, rest)
      | 'f' :: 'a' :: 'l' :: 's' :: 'e' :: rest => some (.flag false, rest)
      | '[' :: rest => (readItems fuel true rest).map fun (items, rest) => (.list items, rest)
      | '\x7b' :: rest =>
          (readEntries fuel true rest).map fun (entries, rest) =>
            (.table (Table.ofEntries entries), rest)
      | c :: rest =>
          if c == '"' || c == '\x27' then
            (readText (cs.length + 1) c rest).map fun (text, rest) =>
              (.text (String.ofList text), rest)
          else readNumber cs
      | [] => none

/-- The items of a list up to its end, and what follows. An item may follow at the front of the list
and behind a comma. -/
def readItems (fuel : Nat) (mayFollow : Bool) (cs : List Char) :
    Option (List Setting × List Char) :=
  match fuel with
  | 0 => none
  | fuel + 1 =>
      match skip cs with
      | ']' :: rest => some ([], rest)
      | cs =>
          if !mayFollow then none
          else do
            let (v, rest) ← readValue fuel cs
            let (items, rest) ← match skip rest with
              | ',' :: rest => readItems fuel true rest
              | rest => readItems fuel false rest
            some (v :: items, rest)

def readEntries (fuel : Nat) (mayFollow : Bool) (cs : List Char) : Option (Table × List Char) :=
  match fuel with
  | 0 => none
  | fuel + 1 =>
      match skip cs with
      | '\x7d' :: rest => some ([], rest)
      | cs =>
          if !mayFollow then none
          else do
            let (key, rest) ← readKey cs
            match skip rest with
            | ':' :: rest =>
                let (v, rest) ← readValue fuel (skip rest)
                let (entries, rest) ← match skip rest with
                  | ',' :: rest => readEntries fuel true rest
                  | rest => readEntries fuel false rest
                some ((key, v) :: entries, rest)
            | _ => none

end

def read (cs : List Char) : Option Setting := do
  let (v, rest) ← readValue (2 * cs.length + 4) (skip cs)
  if (skip rest).isEmpty then some v else none

end MacroReplay.Config.Json5
