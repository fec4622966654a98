import MacroReplay.Config.Setting
import MacroReplay.Number.Arithmetic

/-!
# Settings in JSON
-/

namespace MacroReplay.Config.Json

/-- The characters between symbols. -/
def isSpace (c : Char) : Bool :=
  c == ' ' || c == '\t' || c == '\n' || c == '\r'

def skip (cs : List Char) : List Char :=
  cs.dropWhile isSpace

def hexValue? (c : Char) : Option Nat :=
  if Text.isDigit c then some (Text.digitValue c)
  else if 'a' ≤ c.toLower ∧ c.toLower ≤ 'f' then some (c.toLower.toNat - 'a'.toNat + 10)
  else none

def unit? (a b c d : Char) : Option Nat := do
  some ((((← hexValue? a) * 16 + (← hexValue? b)) * 16 + (← hexValue? c)) * 16 + (← hexValue? d))

/-- The character that a backslash and a letter stand for. -/
def simpleEscape? : Char → Option Char
  | '"' => some '"'
  | '\\' => some '\\'
  | '/' => some '/'
  | 'b' => some '\x08'
  | 'f' => some '\x0c'
  | 'n' => some '\n'
  | 'r' => some '\r'
  | 't' => some '\t'
  | _ => none

/-- The first half of a character that is written as two units. -/
def isHighUnit (n : Nat) : Bool := 0xD800 ≤ n && n < 0xDC00

/-- The second half of a character that is written as two units. -/
def isLowUnit (n : Nat) : Bool := 0xDC00 ≤ n && n < 0xE000

def readText : List Char → Option (List Char × List Char)
  | [] => none
  | '"' :: rest => some ([], rest)
  | '\\' :: 'u' :: a :: b :: c :: d :: '\\' :: 'u' :: e :: f :: g :: h :: rest =>
      match unit? a b c d, unit? e f g h with
      | some high, some low =>
          if isHighUnit high && isLowUnit low then
            (readText rest).map fun (text, rest) =>
              (Char.ofNat (0x10000 + (high - 0xD800) * 0x400 + (low - 0xDC00)) :: text, rest)
          else if isHighUnit high || isLowUnit high then none
          else
            (readText ('\\' :: 'u' :: e :: f :: g :: h :: rest)).map fun (text, rest) =>
              (Char.ofNat high :: text, rest)
      | _, _ => none
  | '\\' :: 'u' :: a :: b :: c :: d :: rest =>
      match unit? a b c d with
      | some n =>
          if isHighUnit n || isLowUnit n then none
          else (readText rest).map fun (text, rest) => (Char.ofNat n :: text, rest)
      | none => none
  | '\\' :: c :: rest =>
      match simpleEscape? c with
      | some c => (readText rest).map fun (text, rest) => (c :: text, rest)
      | none => none
  | c :: rest =>
      if c.toNat < 0x20 then none
      else (readText rest).map fun (text, rest) => (c :: text, rest)

/-- Digits without a zero in front of others. -/
def isWhole (digits : List Char) : Bool :=
  match digits with
  | [] => false
  | '0' :: rest => rest.isEmpty
  | _ => true

def readFraction (cs : List Char) : Option (List Char × List Char) :=
  match cs with
  | '.' :: rest =>
      let (digits, rest) := Number.spanDigits rest
      if digits.isEmpty then none else some (digits, rest)
  | rest => some ([], rest)

def readExponent (cs : List Char) : Option (Option Int × List Char) :=
  match cs with
  | c :: rest =>
      if c == 'e' || c == 'E' then
        let (negative, rest) := match rest with
          | '-' :: rest => (true, rest)
          | '+' :: rest => (false, rest)
          | rest => (false, rest)
        let (digits, rest) := Number.spanDigits rest
        if digits.isEmpty then none
        else
          let n : Int := Text.digitsValue digits
          some (some (if negative then -n else n), rest)
      else some (none, cs)
  | [] => some (none, [])

/-- A word with as many digits behind it as it can take, and the digits left over. -/
def fillWord (word : Nat) : List Char → Nat × List Char
  | [] => (word, [])
  | c :: cs =>
      let longer := word * 10 + Text.digitValue c
      if longer ≤ maxWord then fillWord longer cs else (word, c :: cs)

def powerOfTen (n : Nat) : Number :=
  Number.ofDecimal false 1 n

/-- A number divided by a power of ten, in steps if the power itself is no number. -/
def shiftDown (x : Number) (places : Nat) : Number :=
  if places ≤ 308 then x.div (powerOfTen places)
  else if x.isPositive then shiftDown (x.div (powerOfTen 308)) (places - 308)
  else x
termination_by places

/-- The number of a word and an exponent of ten. The word is rounded first and the result once more;
there is none beyond the finite numbers. -/
def wordNumber? (word : Nat) (exponent : Int) : Option Number :=
  let x := Number.ofNat word
  if exponent < 0 then some (shiftDown x (-exponent).toNat)
  else if 308 < exponent then if word = 0 then some x else none
  else some (x.mul (powerOfTen exponent.toNat)) |>.filter Number.isFinite

/-- A number, and what follows. As many of its digits count as a word can hold. An integer that does
not fit in sixty-four bits is a real number. -/
def readNumber (cs : List Char) : Option (Setting × List Char) := do
  let (negative, cs) := match cs with
    | '-' :: rest => (true, rest)
    | rest => (false, rest)
  let (whole, cs) := Number.spanDigits cs
  if !isWhole whole then none
  let (fraction, cs) ← readFraction cs
  let (exponent, cs) ← readExponent cs
  let (word, beyond) := fillWord 0 whole
  let n : Int := if negative then -(word : Int) else word
  if fraction.isEmpty && exponent.isNone && beyond.isEmpty &&
      -Int.pow 2 63 ≤ n && n < Int.pow 2 63 &&
      !(negative && word == 0) then
    some (.integer n, cs)
  else
    let (word, unused) := fillWord word fraction
    let places : Int := (beyond.length : Int) - ((fraction.length : Int) - unused.length)
    let x ← wordNumber? word (exponent.getD 0 + places)
    some (.real (if negative then x.neg else x), cs)

mutual

/-- A value, and what follows; nesting is limited. -/
def readValue (fuel depth : Nat) (cs : List Char) : Option (Setting × List Char) :=
  match fuel with
  | 0 => none
  | fuel + 1 =>
      match cs with
      | 'n' :: 'u' :: 'l' :: 'l' :: rest => some (.nothing, rest)
      | 't' :: 'r' :: 'u' :: 'e' :: rest => some (.flag true, rest)
      | 'f' :: 'a' :: 'l' :: 's' :: 'e' :: rest => some (.flag false, rest)
      | '"' :: rest => (readText rest).map fun (text, rest) => (.text (String.ofList text), rest)
      | '[' :: rest =>
          if depth ≤ 1 then none
          else
            match skip rest with
            | ']' :: rest => some (.list [], rest)
            | rest => (readItems fuel (depth - 1) rest).map fun (items, rest) => (.list items, rest)
      | '\x7b' :: rest =>
          if depth ≤ 1 then none
          else
            match skip rest with
            | '\x7d' :: rest => some (.table [], rest)
            | rest =>
                (readEntries fuel (depth - 1) rest).map fun (entries, rest) =>
                  (.table (Table.ofEntries entries), rest)
      | cs => readNumber cs

def readItems (fuel depth : Nat) (cs : List Char) : Option (List Setting × List Char) :=
  match fuel with
  | 0 => none
  | fuel + 1 => do
      let (v, rest) ← readValue fuel depth (skip cs)
      match skip rest with
      | ']' :: rest => some ([v], rest)
      | ',' :: rest =>
          let (items, rest) ← readItems fuel depth rest
          some (v :: items, rest)
      | _ => none

def readEntries (fuel depth : Nat) (cs : List Char) : Option (Table × List Char) :=
  match fuel with
  | 0 => none
  | fuel + 1 =>
      match skip cs with
      | '"' :: rest => do
          let (key, rest) ← readText rest
          match skip rest with
          | ':' :: rest =>
              let (v, rest) ← readValue fuel depth (skip rest)
              match skip rest with
              | '\x7d' :: rest => some ([(String.ofList key, v)], rest)
              | ',' :: rest =>
                  let (entries, rest) ← readEntries fuel depth rest
                  some ((String.ofList key, v) :: entries, rest)
              | _ => none
          | _ => none
      | _ => none

end

def read (cs : List Char) : Option Setting := do
  let (v, rest) ← readValue (2 * cs.length + 2) 128 (skip cs)
  if (skip rest).isEmpty then some v else none

end MacroReplay.Config.Json
