import MacroReplay.Proofs.Datasource.Row
import MacroReplay.Proofs.Variable.Assignment

/-!
# What a row leaves of the rows before it

A row is written to as many columns as it has fields. The columns behind them are not cleared: they go on
showing what they showed before, and so the field of the last row that was wide enough.

* `Datasource.getText_of_loaded` — one row;
* `Datasource.Loads` — rows that are loaded one after the other;
* `Datasource.Loads.getText_column` — what a column shows behind them;
* `Datasource.columns_of_loads` — the last row and what is left of the others.
-/

namespace MacroReplay

/-! ## Columns that are not written -/

namespace Store

open Datasource (column)

/-- A column shows what is stored under its name, and nothing if it was never given. -/
theorem getText_column (s : Store) (now : Calendar.DateTime) (j : Nat) :
    s.getText now (column (j + 1)) =
      ((s.values.find? (column (j + 1))).map Value.render).getD "" := by
  have hj : 1 ≤ j + 1 := Nat.succ_le_succ (Nat.zero_le j)
  have hrule := Variable.rule?_column hj
  have hnow : column (j + 1) ≠ "!NOW" := Variable.ne_column (by decide) hj
  have hadd : column (j + 1) ≠ "!EXTRACTADD" := Variable.ne_column (by decide) hj
  cases hfind : s.values.find? (column (j + 1)) with
  | some v => simp [getText, get_of_find? hrule hnow hadd hfind now]
  | none =>
      -- A column that was never written is a variable all the same, and holds the empty text.
      have hempty : Value.empty.render = "" := rfl
      simp [getText, get, lookup, Variable.canonical_eq_self hrule, hnow, hadd, hfind, hrule, hempty]

end Store

namespace Datasource

/-! ## One row -/

/-- The fields of a row go to the columns from `k` on; columns behind the last field keep what they
held. -/
theorem find?_setColumns {s s' : Store} {k : Nat} (hk : 1 ≤ k) {fields : List String}
    (hset : setColumns s k fields = .ok s') (j : Nat) :
    s'.values.find? (column (k + j)) =
      (fields[j]?.map Value.text).or (s.values.find? (column (k + j))) := by
  induction fields generalizing s k j with
  | nil =>
      cases hset
      simp
  | cons field fields ih =>
      obtain ⟨a, hfirst⟩ := s.set_column hk field
      have hname : "!COL" ++ toString k = column k := rfl
      rw [setColumns, hname, hfirst] at hset
      cases j with
      | zero =>
          -- The fields behind the first one go to columns with other names.
          obtain ⟨s'', hset', -, hothers⟩ := setColumns_eq_ok
            { s with values := s.values.put (column k) (.text field) } (Nat.le_succ_of_le hk) fields
          cases hset'.symm.trans hset
          have hkept := hothers (column k) fun i hi hsame => by
            have := Variable.column_injective hsame
            omega
          rw [Nat.add_zero, hkept, Bindings.find?_put_self]
          rfl
      | succ j =>
          have hrest := ih (Nat.le_succ_of_le hk) hset j
          have hindex : k + 1 + j = k + (j + 1) := by omega
          have hne : column (k + (j + 1)) ≠ column k := by
            intro hsame
            have := Variable.column_injective hsame
            omega
          rw [hindex] at hrest
          rw [hrest, Bindings.find?_put_of_ne _ _ hne, List.getElem?_cons_succ]

/-- The field that the row of an iteration has in a column, counted from 0. -/
def field? (rows : List (List String)) (j iteration : Nat) : Option String :=
  rows[iteration - 1]?.bind (·[j]?)

/-- A row is loaded only if the list has one for the iteration. -/
theorem exists_row_of_loaded {rows : List (List String)} {i : Nat} {s s' : Store}
    (hload : loadRow rows i s = (.loaded, s')) :
    ∃ row, rows[i - 1]? = some row ∧ setRow s i row = .ok s' := by
  cases hrow : rows[i - 1]? with
  | none => simp [loadRow, hrow] at hload
  | some row =>
      cases hset : setRow s i row with
      | error e => simp [loadRow, hrow, hset] at hload
      | ok t =>
          simp only [loadRow, hrow, hset, Prod.mk.injEq, true_and] at hload
          exact ⟨row, rfl, hset.trans (congrArg Except.ok hload)⟩

/-- A row writes the columns of its fields and no others. -/
theorem getText_of_loaded {rows : List (List String)} {i : Nat} {s s' : Store}
    (hload : loadRow rows i s = (.loaded, s')) (now : Calendar.DateTime) (j : Nat) :
    s'.getText now (column (j + 1)) = (field? rows j i).getD (s.getText now (column (j + 1))) := by
  obtain ⟨row, hrow, hset⟩ := exists_row_of_loaded hload
  -- The number of the iteration is written first, and is not a column.
  rw [setRow] at hset
  cases hline : s.set "!DATASOURCE_LINE" (.number (Number.ofNat i)) with
  | error e =>
      rw [hline] at hset
      cases hset
  | ok written =>
      obtain ⟨a, t⟩ := written
      rw [hline] at hset
      have hname : Variable.canonical "!DATASOURCE_LINE" = "!DATASOURCE_LINE" := by decide
      have hother : column (j + 1) ≠ Variable.canonical "!DATASOURCE_LINE" := by
        rw [hname]
        exact Variable.ne_column (by decide) (Nat.succ_le_succ (Nat.zero_le j))
      have htimeout : ¬Variable.SameName "!DATASOURCE_LINE" "!TIMEOUT" := by decide
      have hkept : t.values.find? (column (j + 1)) = s.values.find? (column (j + 1)) :=
        (Store.assigns_of_set hline).bindings _ hother fun htag => htimeout htag.1
      have hcolumn := find?_setColumns (Nat.le_refl 1) hset j
      rw [Nat.add_comm 1 j, hkept] at hcolumn
      rw [Store.getText_column, Store.getText_column, hcolumn, field?, hrow, Option.bind_some]
      cases row[j]? with
      | none => rfl
      | some field => rfl

/-! ## One row after the other -/

/-- The rows of some iterations are loaded one after the other. -/
inductive Loads (rows : List (List String)) : List Nat → Store → Store → Prop where
  | nil (s : Store) : Loads rows [] s s
  | concat {before : List Nat} {i : Nat} {s t s' : Store} :
      Loads rows before s t → loadRow rows i t = (.loaded, s') → Loads rows (before ++ [i]) s s'

/-- What is left in a column by the rows of some iterations: the field of the last row that has one
there, or what the column showed before them. -/
def leftover (rows : List (List String)) (before : List Nat) (s : Store) (now : Calendar.DateTime)
    (j : Nat) : String :=
  (before.filterMap (field? rows j)).getLast?.getD (s.getText now (column (j + 1)))

/-- What a column shows after some rows is the field of the last of them that reaches it. -/
theorem Loads.getText_column {rows : List (List String)} {loaded : List Nat} {s s' : Store}
    (hloads : Loads rows loaded s s') (now : Calendar.DateTime) (j : Nat) :
    s'.getText now (column (j + 1)) = leftover rows loaded s now j := by
  induction hloads with
  | nil s => rw [leftover, List.filterMap_nil, List.getLast?_nil, Option.getD_none]
  | @concat before i s t s' _ hload ih =>
      rw [getText_of_loaded hload now j, ih, leftover, leftover, List.filterMap_append]
      -- A row with the column is the last one that has it; a row without it leaves things as they are.
      cases hfield : field? rows j i with
      | none => simp [hfield]
      | some field => simp [hfield]

/-- The last of the loaded rows is loaded into what the others left. -/
theorem Loads.last {rows : List (List String)} {before : List Nat} {k : Nat} {s s' : Store}
    (hloads : Loads rows (before ++ [k]) s s') :
    ∃ row t, rows[k - 1]? = some row ∧ Loads rows before s t ∧ loadRow rows k t = (.loaded, s') := by
  generalize hall : before ++ [k] = loaded at hloads
  cases hloads with
  | nil => simp at hall
  | concat hbefore hload =>
      obtain ⟨rfl, hk⟩ := List.append_inj' hall rfl
      cases hk
      obtain ⟨row, hrow, -⟩ := exists_row_of_loaded hload
      exact ⟨row, _, hrow, hbefore, hload⟩

/-- Where no row was wider, nothing is left behind its columns. -/
theorem leftover_of_narrow {rows : List (List String)} {before : List Nat} {width j : Nat}
    (hnarrow : ∀ i ∈ before, ∀ row, rows[i - 1]? = some row → row.length ≤ width) (hj : width ≤ j)
    (s : Store) (now : Calendar.DateTime) :
    leftover rows before s now j = s.getText now (column (j + 1)) := by
  have hnone : before.filterMap (field? rows j) = [] := by
    rw [List.filterMap_eq_nil_iff]
    intro i hi
    rw [field?, Option.bind_eq_none_iff]
    intro row hrow
    exact List.getElem?_eq_none (Nat.le_trans (hnarrow i hi row hrow) hj)
  rw [leftover, hnone, List.getLast?_nil, Option.getD_none]

/-- However rows of different widths were loaded before it, a row shows each of its own fields, and
behind them what the others left. Only if they left nothing does what the columns show depend on the row
alone; and that is so if none of them was wider and the columns were empty at first. -/
theorem columns_of_loads {rows : List (List String)} {before : List Nat} {k : Nat} {s s' : Store}
    (hloads : Loads rows (before ++ [k]) s s') (now : Calendar.DateTime) :
    ∃ row, rows[k - 1]? = some row ∧
      (∀ j, s'.getText now (column (j + 1)) = row[j]?.getD (leftover rows before s now j)) ∧
      ((∀ j, s'.getText now (column (j + 1)) = row[j]?.getD "") ↔
        ∀ j, row.length ≤ j → leftover rows before s now j = "") ∧
      ((∀ i ∈ before, ∀ earlier, rows[i - 1]? = some earlier → earlier.length ≤ row.length) →
        (∀ j, row.length ≤ j → s.getText now (column (j + 1)) = "") →
          ∀ j, s'.getText now (column (j + 1)) = row[j]?.getD "") := by
  obtain ⟨row, t, hrow, hbefore, hload⟩ := hloads.last
  have hshown : ∀ j, s'.getText now (column (j + 1)) = row[j]?.getD (leftover rows before s now j) := by
    intro j
    rw [getText_of_loaded hload now j, hbefore.getText_column now j, field?, hrow, Option.bind_some]
  -- Within the width there is nothing to show; behind it the row has no field to hide what is left.
  have halone : (∀ j, s'.getText now (column (j + 1)) = row[j]?.getD "") ↔
      ∀ j, row.length ≤ j → leftover rows before s now j = "" := by
    constructor
    · intro hempty j hj
      have hsame := (hshown j).symm.trans (hempty j)
      simpa [List.getElem?_eq_none hj] using hsame
    · intro hempty j
      rw [hshown j]
      by_cases hj : j < row.length
      · simp [hj]
      · have hout : row.length ≤ j := Nat.le_of_not_lt hj
        simp [List.getElem?_eq_none hout, hempty j hout]
  refine ⟨row, hrow, hshown, halone, ?_⟩
  intro hnarrow hfirst
  refine halone.2 fun j hj => ?_
  rw [leftover_of_narrow hnarrow hj, hfirst j hj]

def raggedRows : List (List String) := [["a", "b"], ["c"]]

/-- Both rows can be loaded. -/
theorem exists_loads_raggedRows : ∃ s', Loads raggedRows ([1] ++ [2]) .initial s' := by
  obtain ⟨-, t, -, hfirst, -⟩ := @loadRow_of_le raggedRows 1 (by decide) (by decide) (by decide) .initial
  obtain ⟨-, s', -, hsecond, -⟩ := @loadRow_of_le raggedRows 2 (by decide) (by decide) (by decide) t
  exact ⟨s', .concat (.concat (.nil _) hfirst) hsecond⟩

/-- The second row has no second field, and the first one shows through. -/
theorem columns_of_loads_raggedRows :
    ∃ s', Loads raggedRows ([1] ++ [2]) .initial s' ∧ ∀ now,
      s'.getText now (column 1) = "c" ∧ leftover raggedRows [1] .initial now 1 = "b" ∧
        s'.getText now (column 2) = leftover raggedRows [1] .initial now 1 := by
  obtain ⟨s', hloads⟩ := exists_loads_raggedRows
  refine ⟨s', hloads, ?_⟩
  intro now
  obtain ⟨row, hrow, hshown, -⟩ := columns_of_loads hloads now
  obtain rfl : ["c"] = row := Option.some.inj hrow
  have hleft : [1].filterMap (field? raggedRows 1) = ["b"] := by decide
  refine ⟨hshown 0, ?_, hshown 1⟩
  rw [leftover, hleft, List.getLast?_singleton, Option.getD_some]

/-- The row of one field is shown with a field of the row before it. -/
theorem stale_column_shown :
    ∃ s', Loads raggedRows [1, 2] .initial s' ∧ raggedRows[1]? = some ["c"] ∧
      ∀ now, s'.getText now "!COL2" = "b" := by
  obtain ⟨s', hloads⟩ := exists_loads_raggedRows
  refine ⟨s', hloads, rfl, ?_⟩
  intro now
  have hname : "!COL2" = column (1 + 1) := by decide
  have hleft : [1, 2].filterMap (field? raggedRows 1) = ["b"] := by decide
  rw [hname, Loads.getText_column hloads now 1, leftover, List.cons_append, List.nil_append, hleft,
    List.getLast?_singleton, Option.getD_some]

end Datasource
end MacroReplay
