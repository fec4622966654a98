import MacroReplay.Config.Setting

/-!
# Tables in TOML

A table is written piece by piece: by headings, by keys with dots, or at once between braces. Each piece
may be given once, so a table remembers how it came to be. One that was only passed on the way to another
may still get a heading of its own; one that was written with dots may get more entries with dots, but no
heading; one between braces is finished.

- `Entries.insert` adds an entry
- `Entries.openTable`, `Entries.pushTable` open the table of a heading
-/

namespace MacroReplay.Config.Toml

/-- What a key stands for. -/
inductive Item where
  /-- A finished value. -/
  | value (v : Setting)
  /-- A table: whether it was only passed so far, and whether with dots. -/
  | table (passed dotted : Bool) (entries : List (String × Item))
  /-- A list of tables, the last one first. -/
  | tables (elements : List (List (String × Item)))

abbrev Entries := List (String × Item)

namespace Entries

def find? (es : Entries) (key : String) : Option Item :=
  match es with
  | [] => none
  | (k, item) :: rest => if k = key then some item else find? rest key

def put (es : Entries) (key : String) (item : Item) : Entries :=
  match es with
  | [] => [(key, item)]
  | (k, old) :: rest => if k = key then (k, item) :: rest else (k, old) :: put rest key item

/-- Changes the entries at the end of a path, given whether the table there was written with dots. The
path passes through tables, which it may create, and through the last one of a list of tables. With dots
it does not pass through a table that has a heading. -/
def change (byDots : Bool) (f : Bool → Entries → Option Entries) :
    (path : List String) → (dotted : Bool) → Entries → Option Entries
  | [], dotted, es => f dotted es
  | key :: path, _, es =>
      match es.find? key with
      | none => (change byDots f path byDots []).map fun inner => es.put key (.table true byDots inner)
      | some (.table passed dotted inner) =>
          if byDots && !passed then none
          else
            (change byDots f path dotted inner).map fun inner =>
              es.put key (.table passed dotted inner)
      | some (.tables (last :: before)) =>
          (change byDots f path false last).map fun last => es.put key (.tables (last :: before))
      | some _ => none

/-- The entries with a value for a path of keys. -/
def insert (es : Entries) (keys : List String) (v : Setting) : Option Entries :=
  let path := keys.dropLast
  let add (dotted : Bool) (es : Entries) : Option Entries := do
    let key ← keys.getLast?
    if dotted == path.isEmpty || (es.find? key).isSome then none
    else some (es.put key (.value v))
  change true add path false es

def insertBelow (es : Entries) (heading keys : List String) (v : Setting) : Option Entries :=
  change false (fun _ es => es.insert keys v) heading false es

def openTable (es : Entries) (heading : List String) : Option Entries :=
  let start (es : Entries) : Option Entries := do
    let key ← heading.getLast?
    match es.find? key with
    | none => some (es.put key (.table false false []))
    | some (.table true false inner) => some (es.put key (.table false false inner))
    | some _ => none
  change false (fun _ es => start es) heading.dropLast false es

/-- The entries with one more table in the list of a heading. -/
def pushTable (es : Entries) (heading : List String) : Option Entries :=
  let start (es : Entries) : Option Entries := do
    let key ← heading.getLast?
    match es.find? key with
    | none => some (es.put key (.tables [[]]))
    | some (.tables elements) => some (es.put key (.tables ([] :: elements)))
    | some _ => none
  change false (fun _ es => start es) heading.dropLast false es

end Entries

/-! ## Settings -/

mutual

def Item.toSetting : Item → Setting
  | .value v => v
  | .table _ _ entries => .table (entriesTable entries)
  | .tables elements => .list (elementSettings elements).reverse

def entriesTable : List (String × Item) → Table
  | [] => []
  | (key, item) :: entries => (key, item.toSetting) :: entriesTable entries

def elementSettings : List (List (String × Item)) → List Setting
  | [] => []
  | entries :: elements => .table (entriesTable entries) :: elementSettings elements

end

end MacroReplay.Config.Toml
