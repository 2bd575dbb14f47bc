import ImageGateway.Settings.Value

/-!
# Tables of TOML files

A table may be written in several places, but only in ways that agree: `Origin` says how a table
came about, and the functions that put something into a tree refuse what contradicts it.
-/

namespace ImageGateway

namespace Settings

namespace Toml

/-- How a table came about. -/
inductive Origin where
  /-- It lies on the way to a table with a heading. -/
  | onTheWay
  /-- It has a heading of its own. -/
  | heading
  /-- It lies on the way to an entry with a dotted key, or such a key has put an entry into it. -/
  | dottedKey
deriving DecidableEq, Repr

/-- What a key stands for. -/
inductive Node where
  | value (v : Value)
  | table (origin : Origin) (entries : List (String × Node))
  /-- A list of tables, each with a heading of its own. -/
  | tables (items : List (List (String × Node)))

/-- The entries of a table, in the order in which they came about. -/
abbrev Entries := List (String × Node)

namespace Entries

/-- The entries with a new node for a key. -/
def put (entries : Entries) (key : String) (node : Node) : Entries :=
  match entries with
  | [] => [(key, node)]
  | (k, old) :: rest => if k == key then (k, node) :: rest else (k, old) :: put rest key node

/-- Changes the last member of a list. -/
def changeLast {α : Type} (f : α → Option α) (l : List α) : Option (List α) := do
  let last ← l.getLast?
  some (l.dropLast ++ [← f last])

/-- Puts a value under a dotted key.  The tables on the way to it must not have headings of their
own, except that the way may go through the last table of a list.  The table right above the value
counts as written by dotted keys from now on. -/
def addValue (v : Value) : List String → Entries → Option Entries
  | [], _ => none
  | [key], entries =>
    if (entries.lookup key).isSome then none else some (entries.put key (.value v))
  | key :: path, entries =>
    let isLast := path.length == 1
    match entries.lookup key with
    | none => do some (entries.put key (.table .dottedKey (← addValue v path [])))
    | some (.table .heading _) => none
    | some (.table origin inner) => do
      -- a heading for this table is an error from now on
      let origin := if isLast then .dottedKey else origin
      some (entries.put key (.table origin (← addValue v path inner)))
    | some (.tables items) => do
      if isLast then none
      else some (entries.put key (.tables (← changeLast (addValue v path) items)))
    | some (.value _) => none

/-- Changes what lies under the keys before the last one of a heading, and there `f` decides. -/
def atHeading (f : String → Entries → Option Entries) : List String → Entries → Option Entries
  | [], _ => none
  | [key], entries => f key entries
  | key :: path, entries =>
    match entries.lookup key with
    | none => do some (entries.put key (.table .onTheWay (← atHeading f path [])))
    | some (.table origin inner) => do
      some (entries.put key (.table origin (← atHeading f path inner)))
    | some (.tables items) => do
      some (entries.put key (.tables (← changeLast (atHeading f path) items)))
    | some (.value _) => none

/-- Opens the table of a heading. -/
def openTable : List String → Entries → Option Entries :=
  atHeading fun key entries =>
    match entries.lookup key with
    | none => some (entries.put key (.table .heading []))
    | some (.table .onTheWay inner) => some (entries.put key (.table .heading inner))
    | some _ => none

/-- Opens a new table in the list of a heading. -/
def openItem : List String → Entries → Option Entries :=
  atHeading fun key entries =>
    match entries.lookup key with
    | none => some (entries.put key (.tables [[]]))
    | some (.tables items) => some (entries.put key (.tables (items ++ [[]])))
    | some _ => none

/-- Changes the table that was opened last under a heading; without a heading, the whole tree. -/
def atOpen (f : Entries → Option Entries) : List String → Entries → Option Entries
  | [], entries => f entries
  | key :: path, entries =>
    match entries.lookup key with
    | some (.table origin inner) => do
      some (entries.put key (.table origin (← atOpen f path inner)))
    | some (.tables items) => do
      some (entries.put key (.tables (← changeLast (atOpen f path) items)))
    | _ => none

end Entries

mutual

/-- The value that a node is. -/
def Node.toValue : Node → Value
  | .value v => v
  | .table _ entries => .table (entryValues entries)
  | .tables items => .list (tableValues items)

/-- The values of entries. -/
def entryValues : List (String × Node) → Table
  | [] => []
  | (key, node) :: rest => (key, node.toValue) :: entryValues rest

/-- The values of a list of tables. -/
def tableValues : List (List (String × Node)) → List Value
  | [] => []
  | entries :: rest => .table (entryValues entries) :: tableValues rest

end

end Toml

end Settings

end ImageGateway
