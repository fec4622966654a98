/-!
# Comma-separated tables

Rows of fields, as text. A field may be quoted; inside quotes a doubled quote stands for one, and
delimiters and line ends stand for themselves. Writing quotes a field only if it has to. Reading takes
any mix of line ends, skips empty lines, and lets rows differ in width.

The reader works on any symbols, given which of them are special, because a file is read by bytes.
-/

namespace MacroReplay.Csv

/-- The special symbols of a table. -/
structure Dialect (α : Type) where
  isQuote : α → Bool
  isDelimiter : α → Bool
  isLineEnd : α → Bool

/-- Where the reader stands. -/
inductive Place where
  /-- Before a row. -/
  | rowStart
  /-- Before a field of a row that has begun. -/
  | fieldStart
  /-- In a field, outside quotes. -/
  | plain
  /-- Inside quotes. -/
  | quoted
  /-- Behind a quote inside quotes, which ends them unless another follows. -/
  | quoteSeen
  deriving DecidableEq, Repr

/-- What the reader has gathered: the rows before, the fields of this row before, and this field, each
last first. -/
structure Gathered (α : Type) where
  rows : List (List (List α))
  fields : List (List α)
  field : List α

namespace Gathered

variable {α : Type}

def nothing : Gathered α := ⟨[], [], []⟩

def push (g : Gathered α) (a : α) : Gathered α :=
  { g with field := a :: g.field }

def endField (g : Gathered α) : Gathered α :=
  { g with fields := g.field.reverse :: g.fields, field := [] }

def endRow (g : Gathered α) : Gathered α :=
  { rows := (g.field.reverse :: g.fields).reverse :: g.rows, fields := [], field := [] }

end Gathered

variable {α : Type}

/-- A symbol outside quotes, in a field that has begun. -/
def plainStep (d : Dialect α) (g : Gathered α) (a : α) : Place × Gathered α :=
  if d.isDelimiter a then (.fieldStart, g.endField)
  else if d.isLineEnd a then (.rowStart, g.endRow)
  else (.plain, g.push a)

/-- A symbol at the start of a field. -/
def fieldStep (d : Dialect α) (g : Gathered α) (a : α) : Place × Gathered α :=
  if d.isQuote a then (.quoted, g) else plainStep d g a

def step (d : Dialect α) (g : Gathered α) (a : α) : Place → Place × Gathered α
  | .rowStart => if d.isLineEnd a then (.rowStart, g) else fieldStep d g a
  | .fieldStart => fieldStep d g a
  | .plain => plainStep d g a
  | .quoted => if d.isQuote a then (.quoteSeen, g) else (.quoted, g.push a)
  | .quoteSeen => if d.isQuote a then (.quoted, g.push a) else plainStep d g a

def readFrom (d : Dialect α) : Place → Gathered α → List α → List (List (List α))
  | .rowStart, g, [] => g.rows.reverse
  | _, g, [] => g.endRow.rows.reverse
  | place, g, a :: rest =>
      let (place, g) := step d g a place
      readFrom d place g rest

def read (d : Dialect α) (symbols : List α) : List (List (List α)) :=
  readFrom d .rowStart .nothing symbols

/-! ## Files -/

/-- The dialect of a file with a delimiter of one byte. -/
def byteDialect (delimiter : UInt8) : Dialect UInt8 where
  isQuote b := b == 34
  isDelimiter b := b == delimiter
  isLineEnd b := b == 10 || b == 13

/-- The contents of a file without the mark that it is encoded text. -/
def dropMark (bytes : List UInt8) : List UInt8 :=
  match bytes with
  | 0xEF :: 0xBB :: 0xBF :: rest => rest
  | bytes => bytes

def decode (bytes : List UInt8) : Option String :=
  String.fromUTF8? ⟨bytes.toArray⟩

/-- A field of a file that is not text: where its row starts, which of the row's fields it is, and how
many of its bytes are text before the first that is not. -/
structure EncodingFault where
  row : Nat
  line : Nat
  byte : Nat
  field : Nat
  index : Nat
  deriving DecidableEq, Repr

namespace EncodingFault

def reason (e : EncodingFault) : String :=
  "invalid utf-8: invalid UTF-8 in field " ++ toString e.field ++ " near byte index " ++
    toString e.index

def message (e : EncodingFault) : String :=
  "CSV parse error: record " ++ toString e.row ++ " (line " ++ toString e.line ++ ", field: " ++
    toString e.field ++ ", byte: " ++ toString e.byte ++ "): " ++ e.reason

end EncodingFault

/-- How many symbols there are up to the end of each row, with the line end that ends it. A row that
the table ends in has no such end. -/
def rowEnds (d : Dialect α) : Place → Nat → List α → List Nat
  | _, _, [] => []
  | place, n, a :: rest =>
      let next := (step d .nothing a place).1
      if next = .rowStart ∧ place ≠ .rowStart then (n + 1) :: rowEnds d next (n + 1) rest
      else rowEnds d next (n + 1) rest

/-- The length of the longest front of some bytes that is text. -/
def textFront (bytes : List UInt8) : Nat :=
  (((List.range (bytes.length + 1)).filter fun n => (decode (bytes.take n)).isSome).getLast?).getD 0

/-- The number of bytes in front of a row of a file: all up to the line end of the row before. -/
def rowOffset (delimiter : UInt8) (bytes : List UInt8) (row : Nat) : Nat :=
  let contents := dropMark bytes
  match row with
  | 0 => 0
  | row + 1 =>
      ((rowEnds (byteDialect delimiter) .rowStart 0 contents)[row]?).getD contents.length +
        (bytes.length - contents.length)

/-- The texts of a row's fields, or the number and bytes of the first that is none. -/
def decodeRow (n : Nat) : List (List UInt8) → Except (Nat × List UInt8) (List String)
  | [] => .ok []
  | field :: rest =>
      match decode field with
      | some text => (decodeRow (n + 1) rest).map (text :: ·)
      | none => .error (n, field)

/-- The texts of some rows, or the first field that is none, with the number of its row. -/
def decodeRows (n : Nat) :
    List (List (List UInt8)) → Except (Nat × Nat × List UInt8) (List (List String))
  | [] => .ok []
  | row :: rest =>
      match decodeRow 0 row with
      | .ok texts => (decodeRows (n + 1) rest).map (texts :: ·)
      | .error fault => .error (n, fault)

/-- The rows of a file, unless some field is not text. -/
def readTable (delimiter : UInt8) (bytes : List UInt8) :
    Except EncodingFault (List (List String)) :=
  (decodeRows 0 (read (byteDialect delimiter) (dropMark bytes))).mapError fun (row, field, b) =>
    let offset := rowOffset delimiter bytes row
    { row
      line := (bytes.take offset).count 10 + 1
      byte := offset
      field
      index := textFront b }

/-! ## Writing -/

/-- The characters that a field may hold only inside quotes. -/
def isSpecial (c : Char) : Bool :=
  c == ',' || c == '"' || c == '\n' || c == '\r'

/-- A text inside quotes, its own quotes doubled. -/
def quote (cs : List Char) : List Char :=
  '"' :: cs.flatMap (fun c => if c == '"' then ['"', '"'] else [c]) ++ ['"']

def writeField (s : String) : String :=
  if s.toList.any isSpecial then String.ofList (quote s.toList) else s

/-- A row; a row of one empty field is quoted, since an empty line is no row. -/
def writeRow (row : List String) : String :=
  (if row = [""] then "\"\"" else ",".intercalate (row.map writeField)) ++ "\n"

def write (rows : List (List String)) : String :=
  String.join (rows.map writeRow)

end MacroReplay.Csv
