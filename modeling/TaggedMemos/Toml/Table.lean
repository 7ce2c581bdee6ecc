import TaggedMemos.Toml.Scalar

/-!
# TOML Tables

A document builds one table out of statements that open a table, open one more table of an array
of tables, or set a key. Every key is set once and every table is opened once. A table that came
about by the way can still be opened: one that was passed through on the way to a table below it.
One that came about through a key with dots cannot, but can be added to through such keys.
-/

namespace TaggedMemos.Toml

/-- How a table came about. -/
inductive Origin where
  /-- It was passed through when a table below it was opened. -/
  | passed
  /-- It was opened. -/
  | opened
  /-- It was passed through when a key with dots was set. -/
  | dotted
  deriving DecidableEq, Repr

/-- What a key stands for. -/
inductive Entry where
  /-- A value that nothing can be added to. -/
  | value (v : Value)
  /-- A table. -/
  | table (origin : Origin) (entries : List (String × Entry))
  /-- An array of tables; the last one of them. -/
  | tables (last : List (String × Entry))
  deriving Repr

/-- The entries of a table. -/
abbrev Table := List (String × Entry)

namespace Table

/-- The entry of a key. -/
def find? (table : Table) (key : String) : Option Entry :=
  (List.find? (fun entry => entry.1 == key) table).map (·.2)

/-- The table with an entry set or replaced. -/
def put (table : Table) (key : String) (entry : Entry) : Table :=
  match table with
  | [] => [(key, entry)]
  | (other, old) :: rest =>
    if other == key then (key, entry) :: rest else (other, old) :: put rest key entry

/-- Sets a key that may have dots. The table is one of those in which a value can be set if
`settable`. -/
def setBelow? (settable : Bool) (table : Table) (path : List String) (v : Value) :
    Option Table :=
  match path with
  | [] => none
  | [key] =>
    match find? table key with
    | none => if settable then some (put table key (.value v)) else none
    | some _ => none
  | key :: rest =>
    match find? table key with
    | none => (setBelow? true [] rest v).map fun below => put table key (.table .dotted below)
    | some (.table .dotted below) =>
      (setBelow? true below rest v).map fun below => put table key (.table .dotted below)
    | some (.table .passed below) =>
      (setBelow? false below rest v).map fun below => put table key (.table .passed below)
    | some (.tables last) =>
      (setBelow? false last rest v).map fun last => put table key (.tables last)
    | some (.table .opened _) | some (.value _) => none

/-- Sets a key that may have dots in a table that was opened. -/
def set? (table : Table) (path : List String) (v : Value) : Option Table :=
  setBelow? true table path v

/-- Opens a table. -/
def begin? (table : Table) (path : List String) : Option Table :=
  match path with
  | [] => none
  | [key] =>
    match find? table key with
    | none => some (put table key (.table .opened []))
    | some (.table .passed below) => some (put table key (.table .opened below))
    | some _ => none
  | key :: rest =>
    match find? table key with
    | none => (begin? [] rest).map fun below => put table key (.table .passed below)
    | some (.table origin below) =>
      (begin? below rest).map fun below => put table key (.table origin below)
    | some (.tables last) => (begin? last rest).map fun last => put table key (.tables last)
    | some (.value _) => none

/-- Opens one more table of an array of tables. -/
def beginNext? (table : Table) (path : List String) : Option Table :=
  match path with
  | [] => none
  | [key] =>
    match find? table key with
    | none | some (.tables _) => some (put table key (.tables []))
    | some _ => none
  | key :: rest =>
    match find? table key with
    | none => (beginNext? [] rest).map fun below => put table key (.table .passed below)
    | some (.table origin below) =>
      (beginNext? below rest).map fun below => put table key (.table origin below)
    | some (.tables last) => (beginNext? last rest).map fun last => put table key (.tables last)
    | some (.value _) => none

/-- Sets a key in the table that was opened last, which has the given path. -/
def setIn? (table : Table) (opened path : List String) (v : Value) : Option Table :=
  match opened with
  | [] => set? table path v
  | key :: rest =>
    match find? table key with
    | some (.table origin below) =>
      (setIn? below rest path v).map fun below => put table key (.table origin below)
    | some (.tables last) =>
      (setIn? last rest path v).map fun last => put table key (.tables last)
    | _ => none

end Table

end TaggedMemos.Toml
