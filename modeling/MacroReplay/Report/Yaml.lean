import MacroReplay.Number.Text
import MacroReplay.Report.Document
import MacroReplay.Text.Integer
import MacroReplay.Text.Split

/-!
# Reports in YAML

Block style throughout. A text stands as it is unless it would be taken for something else; then it is
put in single quotes. A text of several lines is written line by line behind a bar. A text that neither
can hold is put in double quotes, with escapes.
-/

namespace MacroReplay.Report.Yaml

/-- Numbers without a value have words of their own. -/
def numberStyle : NumberStyle := ⟨".nan", ".inf", "-.inf", ""⟩

/-! ## Texts that would be read as something else -/

def dropPlus : List Char → List Char
  | '+' :: cs => cs
  | cs => cs

def dropSign : List Char → List Char
  | '+' :: cs => cs
  | '-' :: cs => cs
  | cs => cs

/-- Digits behind a leading zero, which make no number. -/
def isZeroPadded (cs : List Char) : Bool :=
  match dropSign cs with
  | '0' :: rest => !rest.isEmpty && rest.all Text.isDigit
  | _ => false

/-- Digits of a base, of which a hundred and twenty-eight bits can hold the value. -/
def isDigitsOf (base : Nat) (cs : List Char) : Bool :=
  let value? (c : Char) : Option Nat :=
    if Text.isDigit c then some (Text.digitValue c)
    else if 'a' ≤ c.toLower ∧ c.toLower ≤ 'f' then some (c.toLower.toNat - 'a'.toNat + 10)
    else none
  let step (n? : Option Nat) (c : Char) : Option Nat := do
    let n ← n?
    let v ← value? c
    if v < base then some (base * n + v) else none
  !cs.isEmpty && ((cs.foldl step (some 0)).any (· < Nat.pow 2 128))

/-- A number with the mark of a base. -/
def isBased (cs : List Char) : Bool :=
  match dropSign cs with
  | '0' :: 'x' :: rest => isDigitsOf 16 rest
  | '0' :: 'o' :: rest => isDigitsOf 8 rest
  | '0' :: 'b' :: rest => isDigitsOf 2 rest
  | _ => false

def numberWords : List String :=
  [".inf", ".Inf", ".INF", "+.inf", "+.Inf", "+.INF", "-.inf", "-.Inf", "-.INF", ".nan", ".NaN", ".NAN"]

def isDecimal (cs : List Char) : Bool :=
  let body := match cs with
    | '+' :: '-' :: _ => []
    | '+' :: '+' :: _ => []
    | cs => dropPlus cs
  (Number.readDecimal body).any Number.isFinite

def reservedWords : List String :=
  ["", "~", "null", "Null", "NULL", "true", "True", "TRUE", "false", "False", "FALSE"]

/-- A text that would not be read as a text. -/
def isAmbiguous (s : String) : Bool :=
  reservedWords.contains s || isZeroPadded s.toList || isBased s.toList || numberWords.contains s ||
    isDecimal s.toList

/-! ## Texts that cannot stand as they are -/

def isBreak (c : Char) : Bool :=
  c == '\n' || c == '\r' || c.toNat == 0x85 || c.toNat == 0x2028 || c.toNat == 0x2029

/-- The characters that separate words, and what stands for the end of a text. -/
def isSeparator (c : Char) : Bool :=
  c == ' ' || c == '\t' || c == '\x00' || isBreak c

/-- The characters that need no escape. -/
def isPrintable (c : Char) : Bool :=
  let n := c.toNat
  n == 0x0A || (0x20 ≤ n && n ≤ 0x7E) || (0xA0 ≤ n && n ≤ 0xFFFD && n != 0xFEFF) || 0x10000 ≤ n

def isIndicator (c : Char) : Bool :=
  "#,[]\x7b\x7d&*!|>\x27\"%@\x60".toList.contains c

def separatorAhead : List Char → Bool
  | [] => true
  | c :: _ => isSeparator c

/-- A mark inside a text: a colon before a separator, or a hash behind one. -/
def hasInnerMark (afterSeparator : Bool) : List Char → Bool
  | [] => false
  | c :: cs =>
      (c == ':' && separatorAhead cs) || (c == '#' && afterSeparator) ||
        hasInnerMark (isSeparator c) cs

/-- A text that begins or goes on with something that has a meaning of its own. -/
def hasMark (cs : List Char) : Bool :=
  "---".toList.isPrefixOf cs || "...".toList.isPrefixOf cs ||
    match cs with
    | [] => false
    | c :: rest =>
        isIndicator c || ((c == '?' || c == ':' || c == '-') && separatorAhead rest) ||
          hasInnerMark (isSeparator c) rest

def hasSpaceBeforeBreak : List Char → Bool
  | c :: d :: cs => (c == ' ' && isBreak d) || hasSpaceBeforeBreak (d :: cs)
  | _ => false

def hasSpaceAfterBreak : List Char → Bool
  | c :: d :: cs => (isBreak c && d == ' ') || hasSpaceAfterBreak (d :: cs)
  | _ => false

/-- A text of which no line can stand as it is. -/
def needsEscapes (cs : List Char) : Bool :=
  !cs.all isPrintable || hasSpaceBeforeBreak cs

/-- A text that can stand as it is. -/
def isPlain (cs : List Char) : Bool :=
  !needsEscapes cs && !cs.any isBreak && cs.head? != some ' ' && cs.getLast? != some ' ' && !hasMark cs

def isQuotable (cs : List Char) : Bool :=
  !needsEscapes cs && !hasSpaceAfterBreak cs

/-! ## Styles -/

def hexText (width n : Nat) : List Char :=
  let digits := (Nat.toDigits 16 n).map Char.toUpper
  List.replicate (width - digits.length) '0' ++ digits

/-- A character by its number. -/
def numericEscape (n : Nat) : List Char :=
  if n ≤ 0xFF then '\\' :: 'x' :: hexText 2 n
  else if n ≤ 0xFFFF then '\\' :: 'u' :: hexText 4 n
  else '\\' :: 'U' :: hexText 8 n

def escape (c : Char) : List Char :=
  match c with
  | '"' => ['\\', '"']
  | '\\' => ['\\', '\\']
  | c =>
      if isPrintable c && !isBreak c then [c]
      else
        match c.toNat with
        | 0x00 => ['\\', '0']
        | 0x07 => ['\\', 'a']
        | 0x08 => ['\\', 'b']
        | 0x09 => ['\\', 't']
        | 0x0A => ['\\', 'n']
        | 0x0B => ['\\', 'v']
        | 0x0C => ['\\', 'f']
        | 0x0D => ['\\', 'r']
        | 0x1B => ['\\', 'e']
        | 0x85 => ['\\', 'N']
        | 0x2028 => ['\\', 'L']
        | 0x2029 => ['\\', 'P']
        | n => numericEscape n

def doubleQuoted (cs : List Char) : List Char :=
  '"' :: cs.flatMap escape ++ ['"']

/-- A text of which every line that holds something is indented one level further. The first line
counts as begun if `inside` says so. -/
def indentFrom (inside : Bool) : List Char → List Char
  | [] => []
  | c :: cs =>
      if isBreak c then c :: indentFrom false cs
      else if inside then c :: indentFrom true cs
      else ' ' :: ' ' :: c :: indentFrom true cs

/-- A text with every line that holds something one level further in. -/
def deeper (cs : List Char) : List Char :=
  indentFrom false cs

/-- A text in single quotes, its own doubled. A line end keeps its character, and the next line stands
one level further in. -/
def singleQuoted (cs : List Char) : List Char :=
  indentFrom true
    ('\x27' :: cs.flatMap (fun c => if c == '\x27' then ['\x27', '\x27'] else [c]) ++ ['\x27'])

/-- A text of one line. -/
def inline (s : String) : List Char :=
  let cs := s.toList
  if !isAmbiguous s && isPlain cs then cs
  else if isQuotable cs then singleQuoted cs
  else doubleQuoted cs

/-- What stands behind the bar: a digit if the text begins with a space or an empty line, and a sign
that says what becomes of the line ends at the end. -/
def blockHeader (cs : List Char) : List Char :=
  let width := match cs with
    | [] => []
    | c :: _ => if c == ' ' || isBreak c then ['2'] else []
  let ending := match cs.reverse with
    | [] => ['-']
    | [c] => if isBreak c then ['+'] else ['-']
    | c :: d :: _ => if !isBreak c then ['-'] else if isBreak d then ['+'] else []
  '|' :: width ++ ending

/-- Whether a text is written line by line. -/
def isBlock (cs : List Char) : Bool :=
  cs.contains '\n' && !needsEscapes cs && cs.getLast? != some ' '

/-- A text as a value: what stands behind its name or dash, and the lines that follow. -/
def textValue (s : String) : List Char :=
  let cs := s.toList
  if isBlock cs then blockHeader cs ++ '\n' :: deeper cs
  else if cs.contains '\n' then doubleQuoted cs
  else inline s

/-! ## Documents -/

def endLine (cs : List Char) : List Char :=
  if cs.getLast?.any isBreak then cs else cs ++ ['\n']

inductive Written where
  /-- What stands behind a name or a dash, the lines that follow included. -/
  | beside (text : List Char)
  /-- The lines of a list. -/
  | items (lines : List Char)
  /-- The lines of fields. -/
  | fields (lines : List Char)

def asItem : Written → List Char
  | .beside text => '-' :: ' ' :: endLine text
  | .items [] => "- []\n".toList
  | .fields [] => "- \x7b\x7d\n".toList
  | .items lines => '-' :: ' ' :: (deeper lines).drop 2
  | .fields lines => '-' :: ' ' :: (deeper lines).drop 2

/-- A name, and the mark behind it. A name of more than a hundred and twenty-eight bytes has a mark of
its own, and the other mark begins the next line. -/
def nameMark (name : String) : List Char :=
  if 128 < name.utf8ByteSize then '?' :: ' ' :: (inline name ++ ['\n', ':'])
  else inline name ++ [':']

def asField (name : String) : Written → List Char
  | .beside text => nameMark name ++ ' ' :: endLine text
  | .items [] => nameMark name ++ " []\n".toList
  | .fields [] => nameMark name ++ " \x7b\x7d\n".toList
  | .items lines => nameMark name ++ '\n' :: lines
  | .fields lines => nameMark name ++ '\n' :: deeper lines

def asWhole : Written → List Char
  | .beside text => endLine text
  | .items [] => "[]\n".toList
  | .fields [] => "\x7b\x7d\n".toList
  | .items lines => lines
  | .fields lines => lines

mutual

def written : Document → Written
  | .null => .beside "null".toList
  | .bool b => .beside (toString b).toList
  | .int n => .beside (toString n).toList
  | .number x => .beside (numberStyle.render x).toList
  | .text s => .beside (textValue s)
  | .list items => .items (itemLines items)
  | .fields entries => .fields (fieldLines entries)

def itemLines : List Document → List Char
  | [] => []
  | d :: ds => asItem (written d) ++ itemLines ds

def fieldLines : List (String × Document) → List Char
  | [] => []
  | (name, d) :: entries => asField name (written d) ++ fieldLines entries

end

def write (d : Document) : String :=
  String.ofList (asWhole (written d))

end MacroReplay.Report.Yaml
