import MacroReplay.Report.Document

/-!
# Reports in JSON

Every item and every field stands on a line of its own, indented by two spaces for each level.
-/

namespace MacroReplay.Report.Json

/-- Numbers without a value are null. -/
def numberStyle : NumberStyle := ⟨"null", "null", "null", "+"⟩

def hexDigit (n : Nat) : Char := Nat.digitChar (n % 16)

def escape (c : Char) : List Char :=
  match c with
  | '"' => ['\\', '"']
  | '\\' => ['\\', '\\']
  | '\x08' => ['\\', 'b']
  | '\x0c' => ['\\', 'f']
  | '\n' => ['\\', 'n']
  | '\r' => ['\\', 'r']
  | '\t' => ['\\', 't']
  | c =>
      if c.toNat < 0x20 then
        ['\\', 'u', '0', '0', hexDigit (c.toNat / 16), hexDigit c.toNat]
      else [c]

def quote (s : String) : String :=
  String.ofList ('"' :: s.toList.flatMap escape ++ ['"'])

def indent (level : Nat) : String :=
  String.ofList (List.replicate (2 * level) ' ')

/-- Lines between two brackets; without lines the brackets stand together. -/
def bracketed (opening closing : String) (level : Nat) (lines : List String) : String :=
  if lines.isEmpty then opening ++ closing
  else
    opening ++ "\n" ++ ",\n".intercalate (lines.map (indent (level + 1) ++ ·)) ++ "\n" ++
      indent level ++ closing

mutual

def writeAt (level : Nat) : Document → String
  | .null => "null"
  | .bool b => toString b
  | .int n => toString n
  | .number x => numberStyle.render x
  | .text s => quote s
  | .list items => bracketed "[" "]" level (writeItems (level + 1) items)
  | .fields entries => bracketed "\x7b" "\x7d" level (writeFields (level + 1) entries)

def writeItems (level : Nat) : List Document → List String
  | [] => []
  | d :: ds => writeAt level d :: writeItems level ds

def writeFields (level : Nat) : List (String × Document) → List String
  | [] => []
  | (name, d) :: entries => (quote name ++ ": " ++ writeAt level d) :: writeFields level entries

end

def write (d : Document) : String :=
  writeAt 0 d ++ "\n"

end MacroReplay.Report.Json
