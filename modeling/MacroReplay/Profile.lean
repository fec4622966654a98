import MacroReplay.Calendar.Timestamp
import MacroReplay.ErrorCode
import MacroReplay.Table.Csv
import MacroReplay.Variable.Store

/-!
# Profiles

While `!FILE_PROFILER` holds something other than blanks or `NO`, every command is recorded with the
time it took. The records of a run make one table.
-/

namespace MacroReplay.Profile

structure Record where
  line : Nat
  commandName : String
  raw : String
  durationMs : Nat
  /-- When it began, in milliseconds since the start of 1970. -/
  timestampMs : Int
  deriving DecidableEq, Repr

/-- What `!FILE_PROFILER` holds, without the blanks around it. -/
def setting (s : Store) : String :=
  Text.trim (s.textOf "!FILE_PROFILER")

def isEnabled (s : Store) : Bool :=
  !(setting s).isEmpty && !Text.sameLetters (setting s) "NO"

/-- Where the profile of a macro goes: `YES` means a file named for the macro. -/
def target? (s : Store) (macroName : String) : Option String :=
  if !isEnabled s then none
  else if Text.sameLetters (setting s) "YES" then some (macroName ++ ".profile.csv")
  else some (setting s)

def Record.row (r : Record) : List String :=
  [toString r.line, r.raw, toString r.durationMs, Calendar.timestampText r.timestampMs]

def columns : List String := ["Line", "Command", "Duration_ms", "Timestamp"]

/-- The rows of a profile: macro and status, the headings, the records. -/
def rows (macroName status : String) (records : List Record) : List (List String) :=
  ["Macro: " ++ macroName, "Status: " ++ status] :: columns :: records.map Record.row

def render (macroName status : String) (records : List Record) : String :=
  Csv.write (rows macroName status records)

end MacroReplay.Profile
