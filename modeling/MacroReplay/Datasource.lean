import MacroReplay.Handler.Basic

/-!
# Datasources

A datasource gives a row for each iteration of a run; its fields go to `!COL1`, `!COL2`, ….
-/

namespace MacroReplay

inductive LoadReport where
  /-- The row is loaded. -/
  | loaded
  /-- There are no more rows. -/
  | exhausted
  | failed (e : CommandError)
  | faulted (f : Fault)
  deriving DecidableEq, Repr

/-- A datasource: loads the row of an iteration, counted from 1, into the variables. -/
abbrev Datasource (ι : Interface) :=
  (iteration : Nat) → Store → Proc (Timed ι) (LoadReport × Store)

namespace Datasource

/-- The variables with the fields of a row from a column on. -/
def setColumns (s : Store) (column : Nat) : List String → Except Variable.Error Store
  | [] => .ok s
  | field :: fields => do
      let (_, s) ← s.set ("!COL" ++ toString column) (.text field)
      setColumns s (column + 1) fields

def setRow (s : Store) (iteration : Nat) (row : List String) : Except Variable.Error Store := do
  let (_, s) ← s.set "!DATASOURCE_LINE" (.number (Number.ofNat iteration))
  setColumns s 1 row

def loadRow (rows : List (List String)) (iteration : Nat) (s : Store) : LoadReport × Store :=
  match rows[iteration - 1]? with
  | none => (.exhausted, s)
  | some row =>
      match setRow s iteration row with
      | .ok s => (.loaded, s)
      | .error e => (.failed (.variable e), s)

def ofRows {ι : Interface} (rows : List (List String)) : Datasource ι := fun iteration s =>
  .done (loadRow rows iteration s)

end Datasource
end MacroReplay
