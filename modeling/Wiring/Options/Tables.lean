import Wiring.Options.Setting

/-!
# Tables of a file

The values of a file stand in tables, which may stand in tables themselves. A table is there for
its own header, for the header of a table within it, or for the dots in a key. A header in double
brackets opens the next one of a list of tables, and a path through the list leads into its last
table. The names that lead to a value, a table or a list are its path, and no path is given twice:
only a table that is there for another one can still have its own header, and only a list can have
a further one.
-/

namespace Wiring

/-- What a table is there for. -/
inductive TableCause where
  /-- Its own header. -/
  | header
  /-- The header of a table within it. -/
  | inner
  /-- The dots in a key. -/
  | dots
deriving DecidableEq, Repr

/-- What a path leads to. -/
inductive TableItem where
  | value (setting : Setting)
  | table (cause : TableCause)
  /-- Tables one after the other, of which the last one is open. -/
  | list
deriving DecidableEq, Repr

/-- What has been read of a file: the table that keys belong to, and what each path leads to. Of
several items of a path the first one counts. -/
structure Tables where
  current : List String := []
  items : List (List String × TableItem) := []

namespace Tables

/-- What a path leads to. -/
def item? (tables : Tables) (path : List String) : Option TableItem :=
  tables.items.lookup path

/-- A path leads to an item from now on. -/
def put (tables : Tables) (path : List String) (item : TableItem) : Tables :=
  { tables with items := (path, item) :: tables.items }

/-- Nothing stands at a path or below it any more. -/
def clear (tables : Tables) (path : List String) : Tables :=
  { tables with items := tables.items.filter fun (other, _) => !path.isPrefixOf other }

/-- A table is there for the given cause, unless it was there before. A table with a header of its
own is closed to keys from elsewhere. -/
def enter? (cause : TableCause) (tables : Tables) (path : List String) : Option Tables :=
  match tables.item? path with
  | none => some (tables.put path (.table cause))
  | some (.value _) => none
  | some .list => some tables
  | some (.table .header) => if cause = .dots then none else some tables
  | some (.table _) => some tables

/-- All tables between a table and an item below it are there. -/
def enterAll? (cause : TableCause) (tables : Tables) (table below : List String) : Option Tables :=
  (List.range (below.length - 1)).foldlM
    (fun tables n => tables.enter? cause (table ++ below.take (n + 1))) tables

/-- A header opens the table that keys belong to from now on. -/
def open? (tables : Tables) (path : List String) : Option Tables := do
  let tables ← tables.enterAll? .inner [] path
  match tables.item? path with
  | none | some (.table .inner) => some { tables.put path (.table .header) with current := path }
  | _ => none

/-- A header opens the next table of a list. What stood in the table before it is out of reach. -/
def append? (tables : Tables) (path : List String) : Option Tables := do
  let tables ← tables.enterAll? .inner [] path
  match tables.item? path with
  | none | some .list => some { (tables.clear path).put path .list with current := path }
  | _ => none

/-- A key gets a value. A key with dots in it goes into a table that is there for such dots. -/
def set? (tables : Tables) (key : List String) (setting : Setting) : Option Tables := do
  let path := tables.current ++ key
  let tables ← tables.enterAll? .dots tables.current key
  if key.length ≤ 1 ∨ tables.item? path.dropLast = some (.table .dots) then
    match tables.item? path with
    | none => some (tables.put path (.value setting))
    | some _ => none
  else
    none

/-- The settings at the top, tables among them as values of another kind. -/
def settings (tables : Tables) : Settings :=
  tables.items.filterMap fun
    | ([name], .value setting) => some (name, setting)
    | ([name], .table _) => some (name, .other)
    | ([name], .list) => some (name, .other)
    | _ => none

end Tables

end Wiring
