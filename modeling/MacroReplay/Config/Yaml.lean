import MacroReplay.Config.Yaml.Node

/-!
# Settings in YAML

A text holds one document, and that a table. A text is over where a null character stands, and lines may
end with either or both of the two characters for it.
-/

namespace MacroReplay.Config.Yaml

/-- A text with one character for every line end. -/
def unifyBreaks : List Char → List Char
  | [] => []
  | '\r' :: '\n' :: rest => '\n' :: unifyBreaks rest
  | '\r' :: rest => '\n' :: unifyBreaks rest
  | c :: rest => c :: unifyBreaks rest

def Node.keyText? : Node → Option String
  | .text s => some s
  | .integer n => some (toString n)
  | _ => none

mutual

/-- The setting that a node is. Words for infinities are no settings. -/
def Node.toSetting? : Node → Option Setting
  | .bad => some .nothing
  | .nothing => some .nothing
  | .flag b => some (.flag b)
  | .integer n => some (.integer n)
  | .real word => (readReal? word).map .real
  | .text s => some (.text s)
  | .list items => (itemSettings items).map .list
  | .map entries => (entrySettings entries).map fun t => .table (Table.ofEntries t)

def itemSettings : List Node → Option (List Setting)
  | [] => some []
  | n :: rest => do some ((← n.toSetting?) :: (← itemSettings rest))

def entrySettings : List (Node × Node) → Option (List (String × Setting))
  | [] => some []
  | (key, n) :: rest => do some ((← key.keyText?, ← n.toSetting?) :: (← entrySettings rest))

end

/-- The setting that a text writes. A text without document is a table without entries. -/
def read (cs : List Char) : Option Setting := do
  let ts ← Token.scan (unifyBreaks (cs.takeWhile (· != '\x00')))
  match ← Node.ofTokens? ts with
  | none => some (.table [])
  | some n => n.toSetting?

end MacroReplay.Config.Yaml
