import MacroReplay.Datasource
import MacroReplay.Proofs.Variable.Rule

/-!
# A row in the variables

The fields of a row go to `!COL1`, `!COL2`, …, and the number of its iteration to `!DATASOURCE_LINE`.

* `Variable.rule?_column` — every column is a variable that may hold anything;
* `Store.Shows` — the variables show a row;
* `Datasource.loadRow_of_le` — a row that is there is loaded, whatever the variables held before;
* `Datasource.loadRow_of_lt` — behind the last row nothing is changed;
* `Datasource.fst_loadRow` — nothing else can happen.
-/

namespace MacroReplay

/-! ## Columns -/

/-- The name of a column, counted from 1. -/
def Datasource.column (j : Nat) : String :=
  "!COL" ++ toString j

namespace Variable

open Datasource (column)

theorem toList_column (j : Nat) : (column j).toList = "!COL".toList ++ Nat.toDigits 10 j := by
  simp [column]

/-- Different columns have different names. -/
theorem column_injective {i j : Nat} (h : column i = column j) : i = j := by
  have hdigits : Nat.toDigits 10 i = Nat.toDigits 10 j := by
    have hlists := congrArg String.toList h
    rw [toList_column, toList_column] at hlists
    exact List.append_cancel_left hlists
  calc
    i = Nat.ofDigitChars 10 (Nat.toDigits 10 i) 0 := Nat.ofDigitChars_ten_toDigits.symm
    _ = Nat.ofDigitChars 10 (Nat.toDigits 10 j) 0 := by rw [hdigits]
    _ = j := Nat.ofDigitChars_ten_toDigits

/-- The name of a column is one. -/
theorem isColumn_column {j : Nat} (hj : 1 ≤ j) : isColumn (column j) = true := by
  have hfront : (column j).toList.take 4 = "!COL".toList := by
    simp [toList_column]
  have hdigits : (column j).toList.drop 4 = Nat.toDigits 10 j := by
    simp [toList_column]
  have hall : ∀ c ∈ Nat.toDigits 10 j, Text.isDigit c = true := by
    intro c hc
    have hdigit : c.isDigit = true := Nat.isDigit_of_mem_toDigits (by decide) (by decide) hc
    exact hdigit
  -- A single zero is the only number that no column has.
  have hzero : Nat.toDigits 10 j ≠ ['0'] := by
    intro hzero
    have hvalue := Nat.ofDigitChars_ten_toDigits (n := j)
    rw [hzero] at hvalue
    have hj' : j = 0 := hvalue.symm
    omega
  simp only [isColumn, hfront, hdigits, Bool.and_eq_true, bne_iff_ne, beq_self_eq_true, true_and]
  exact ⟨⟨by simp, List.all_eq_true.2 hall⟩, hzero⟩

/-- A column may hold anything: its name is none of the fixed ones. -/
theorem rule?_of_isColumn {name : String} (h : isColumn name = true) : rule? name = some .free := by
  have hfixed : definitions.all (fun d => !isColumn d.name) = true := by decide +kernel
  have hnone : definitions.find? (·.name == name) = none := by
    rw [List.find?_eq_none]
    intro d hd hname
    have hd' : isColumn d.name = false := by simpa using List.all_eq_true.1 hfixed d hd
    rw [beq_iff_eq.1 hname, h] at hd'
    cases hd'
  rw [rule?, hnone]
  exact if_pos h

theorem rule?_column {j : Nat} (hj : 1 ≤ j) : rule? (column j) = some .free :=
  rule?_of_isColumn (isColumn_column hj)

theorem rule?_datasourceLine : rule? "!DATASOURCE_LINE" = some (.integer 1) := by decide

/-- No variable with a fixed name is a column. -/
theorem ne_column {name : String} (hname : isColumn name = false) {j : Nat} (hj : 1 ≤ j) :
    column j ≠ name := by
  rintro rfl
  rw [isColumn_column hj] at hname
  cases hname

end Variable

/-! ## Assignments -/

namespace Store

/-- A variable that is bound shows its value at any moment. -/
theorem get_of_find? {s : Store} {name : String} {rule : Variable.Rule} {v : Value}
    (hrule : Variable.rule? name = some rule) (hnow : name ≠ "!NOW") (hadd : name ≠ "!EXTRACTADD")
    (hfind : s.values.find? name = some v) (now : Calendar.DateTime) : s.get now name = some v := by
  simp [get, lookup, Variable.canonical_eq_self hrule, hnow, hadd, hfind]

/-- Assigning a column changes its value and nothing else. -/
theorem set_column (s : Store) {j : Nat} (hj : 1 ≤ j) (field : String) :
    ∃ a, s.set (Datasource.column j) (.text field) =
      .ok (a, { s with values := s.values.put (Datasource.column j) (.text field) }) := by
  have hrule := Variable.rule?_column hj
  have hextract : Datasource.column j ≠ "!EXTRACT" := Variable.ne_column (by decide) hj
  have htimeout : Datasource.column j ≠ "!TIMEOUT" := Variable.ne_column (by decide) hj
  have hloop : Datasource.column j ≠ "!LOOP" := Variable.ne_column (by decide) hj
  refine ⟨⟨Datasource.column j, (s.lookup (Datasource.column j)).getD .empty, .text field⟩, ?_⟩
  simp only [set, Variable.canonical_eq_self hrule, hrule, Variable.Rule.accept, keep, hextract,
    htimeout, hloop, if_false]

/-- Assigning `!DATASOURCE_LINE` changes its value and nothing else. -/
theorem set_datasourceLine (s : Store) {i : Nat} (hpos : 1 ≤ i) (hle : i ≤ Variable.greatestInteger) :
    ∃ a, s.set "!DATASOURCE_LINE" (.number (Number.ofNat i)) =
      .ok (a, { s with
        values := s.values.put "!DATASOURCE_LINE" (.number (Number.ofNat i)) }) := by
  have hrule := Variable.rule?_datasourceLine
  have haccepted : Variable.integerValue? 1 (.number (Number.ofNat i)) = some (Number.ofNat i) :=
    Variable.integerValue?_eq_some_iff.2 ⟨rfl, Variable.isInteger_ofNat hpos hle⟩
  refine ⟨⟨"!DATASOURCE_LINE", (s.lookup "!DATASOURCE_LINE").getD .empty, .number (.ofNat i)⟩, ?_⟩
  simp only [set, Variable.canonical_eq_self hrule, hrule, Variable.Rule.accept, haccepted]
  rfl

/-- The variables show the row of an iteration: its number, and each of its fields. -/
structure Shows (s : Store) (i : Nat) (row : List String) : Prop where
  line : ∀ now, ∃ n, s.get now "!DATASOURCE_LINE" = some (.number n) ∧ n.toInt? = some (i : Int)
  columns : ∀ now j field, row[j]? = some field →
    s.get now ("!COL" ++ toString (j + 1)) = some (.text field)

end Store

/-! ## Rows -/

namespace Datasource

/-- The fields of a row are bound to its columns, and nothing else is changed. -/
theorem setColumns_eq_ok (s : Store) {k : Nat} (hk : 1 ≤ k) (fields : List String) :
    ∃ s', setColumns s k fields = .ok s' ∧
      (∀ j field, fields[j]? = some field →
        s'.values.find? (column (k + j)) = some (.text field)) ∧
      ∀ name, (∀ j, k ≤ j → column j ≠ name) → s'.values.find? name = s.values.find? name := by
  induction fields generalizing s k with
  | nil => exact ⟨s, rfl, by simp, fun _ _ => rfl⟩
  | cons field fields ih =>
      obtain ⟨a, hset⟩ := s.set_column hk field
      obtain ⟨s', hrest, hfields, hothers⟩ :=
        ih { s with values := s.values.put (column k) (.text field) } (k := k + 1) (by omega)
      refine ⟨s', ?_, ?_, ?_⟩
      · have hname : "!COL" ++ toString k = column k := rfl
        rw [setColumns, hname, hset]
        exact hrest
      · intro j value hvalue
        cases j with
        | zero =>
            -- The columns behind the first one have other names.
            have hkept := hothers (column k) fun j hj hsame => by
              have := Variable.column_injective hsame
              omega
            have hfield : field = value := by simpa using hvalue
            rw [Nat.add_zero, hkept, Bindings.find?_put_self, hfield]
        | succ j =>
            have hnext := hfields j value (by simpa using hvalue)
            rwa [Nat.add_assoc, Nat.add_comm 1 j] at hnext
      · intro name hname
        rw [hothers name fun j hj => hname j (by omega)]
        exact Bindings.find?_put_of_ne _ _ (hname k (Nat.le_refl k)).symm

/-- Every row can be put into the variables, which show it then. -/
theorem setRow_eq_ok (s : Store) {i : Nat} (hpos : 1 ≤ i) (hle : i ≤ Variable.greatestInteger)
    (row : List String) : ∃ s', setRow s i row = .ok s' ∧ s'.Shows i row := by
  obtain ⟨a, hset⟩ := s.set_datasourceLine hpos hle
  obtain ⟨s', hcolumns, hfields, hothers⟩ := setColumns_eq_ok
    { s with values := s.values.put "!DATASOURCE_LINE" (.number (Number.ofNat i)) } (Nat.le_refl 1) row
  have hline : s'.values.find? "!DATASOURCE_LINE" = some (.number (Number.ofNat i)) := by
    rw [hothers _ fun j hj => Variable.ne_column (by decide) hj]
    exact Bindings.find?_put_self ..
  have hexact : i < Nat.pow 2 53 := Nat.lt_of_le_of_lt hle (by decide)
  refine ⟨s', ?_, ?_, ?_⟩
  · rw [setRow, hset]
    exact hcolumns
  · intro now
    exact ⟨_, Store.get_of_find? Variable.rule?_datasourceLine (by decide) (by decide) hline now,
      Number.toInt?_ofNat hexact⟩
  · intro now j field hfield
    have hj : 1 ≤ j + 1 := Nat.succ_le_succ (Nat.zero_le j)
    have hbound : s'.values.find? (column (j + 1)) = some (.text field) := by
      rw [Nat.add_comm]
      exact hfields j field hfield
    exact Store.get_of_find? (Variable.rule?_column hj) (Variable.ne_column (by decide) hj)
      (Variable.ne_column (by decide) hj) hbound now

/-- A row that is there is loaded, whatever the variables held before. -/
theorem loadRow_of_le {rows : List (List String)} {i : Nat} (hpos : 1 ≤ i) (hthere : i ≤ rows.length)
    (hle : i ≤ Variable.greatestInteger) (s : Store) :
    ∃ row s', rows[i - 1]? = some row ∧ loadRow rows i s = (.loaded, s') ∧ s'.Shows i row := by
  have hrow : rows[i - 1]? = some (rows[i - 1]) := List.getElem?_eq_getElem (by omega)
  obtain ⟨s', hset, hshows⟩ := setRow_eq_ok s hpos hle rows[i - 1]
  refine ⟨rows[i - 1], s', hrow, ?_, hshows⟩
  simp only [loadRow, hrow, hset]

/-- Behind the last row the variables are left as they are. -/
theorem loadRow_of_lt {rows : List (List String)} {i : Nat} (hlast : rows.length < i) (s : Store) :
    loadRow rows i s = (.exhausted, s) := by
  have hnone : rows[i - 1]? = none := List.getElem?_eq_none (by omega)
  simp only [loadRow, hnone]

/-- To load a row never fails: it is there, or the rows are used up. -/
theorem fst_loadRow {rows : List (List String)} {i : Nat} (hpos : 1 ≤ i)
    (hle : i ≤ Variable.greatestInteger) (s : Store) :
    (loadRow rows i s).1 = if i ≤ rows.length then .loaded else .exhausted := by
  by_cases hthere : i ≤ rows.length
  · obtain ⟨row, s', -, hload, -⟩ := loadRow_of_le hpos hthere hle s
    rw [if_pos hthere, hload]
  · rw [if_neg hthere, loadRow_of_lt (Nat.lt_of_not_le hthere) s]

end Datasource
end MacroReplay
