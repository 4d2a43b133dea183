/-
  VersionedStore.Toml.Table

  Tables as they grow while a TOML text is read, line by line.

  A table comes about in one of three ways: by its own header, because a header
  below it implies it, or by a key with points in it.  Each may be extended in
  its own way only: an implied table may still get a header, once, and then
  moves to the end; a dotted table takes further dotted keys; and a value takes
  nothing.  A header that names an array of tables on the way means its last
  table.
-/
import VersionedStore.Document.Basic
import VersionedStore.Toml.Quoted

namespace VersionedStore.Toml

/-- How a table came about. -/
inductive Origin where
  /-- By its own header. -/
  | header
  /-- By the header of a table below it. -/
  | implied
  /-- By a key with points. -/
  | dotted
deriving DecidableEq, Repr

/-- What a name in a table stands for. -/
inductive Node where
  | value (d : Document)
  | table (origin : Origin) (entries : List (String × Node))
  /-- Tables that were each opened by a header of their own. -/
  | tables (elements : List (List (String × Node)))

/-- The entries of a table in the order in which they were made. -/
abbrev Entries := List (String × Node)

namespace Entries

/-- The entries with one of them replaced where it stands. -/
def set (entries : Entries) (name : String) (node : Node) : Entries :=
  entries.map fun e => if e.1 = name then (name, node) else e

/-- The entries without one of them. -/
def without (entries : Entries) (name : String) : Entries :=
  entries.filter (·.1 ≠ name)

/-- Enter a value at a key.  Only dotted tables may lie on the way. -/
def put (d : Document) (name : String) : List String → Entries → Option Entries
  | [], entries =>
    match entries.lookup name with
    | some _ => none
    | none => some (entries ++ [(name, .value d)])
  | step :: path, entries =>
    match entries.lookup step with
    | none => do
      let inner ← put d name path []
      some (entries ++ [(step, .table .dotted inner)])
    | some (.table origin inner) => do
      -- An implied table can be passed but takes no value itself.
      if origin = .header ∨ (origin = .implied ∧ path = []) then none
      let inner ← put d name path inner
      some (entries.set step (.table origin inner))
    | some (.tables elements) => do
      if path = [] then none
      let inner ← put d name path (← elements.getLast?)
      some (entries.set step (.tables (elements.dropLast ++ [inner])))
    | some (.value _) => none

/-- Act on the table that the names on the way lead to, and imply the tables that are missing. -/
def within (act : Entries → Option Entries) : List String → Entries → Option Entries
  | [], entries => act entries
  | step :: path, entries =>
    match entries.lookup step with
    | none => do
      let inner ← within act path []
      some (entries ++ [(step, .table .implied inner)])
    | some (.table origin inner) => do
      let inner ← within act path inner
      some (entries.set step (.table origin inner))
    | some (.tables elements) => do
      let inner ← within act path (← elements.getLast?)
      some (entries.set step (.tables (elements.dropLast ++ [inner])))
    | some (.value _) => none

/-- Enter values at keys, one after the other. -/
def putAll (pairs : List (Key × Document)) (entries : Entries) : Option Entries :=
  pairs.foldlM (fun entries (key, d) => entries.put d key.name key.path) entries

end Entries

/-- What a header opens. -/
inductive Opening where
  | table
  /-- One more table of an array. -/
  | element
deriving DecidableEq, Repr

/-- A header and the lines below it, up to the next header. -/
structure Section where
  key : Key
  opening : Opening
  pairs : List (Key × Document)

namespace Section

/-- Enter a section under its last name. -/
def place (s : Section) (entries : Entries) : Option Entries :=
  let name := s.key.name
  match s.opening, entries.lookup name with
  | .table, none => do
    some (entries ++ [(name, .table .header (← Entries.putAll s.pairs []))])
  | .table, some (.table .implied inner) => do
    some (entries.without name ++ [(name, .table .header (← Entries.putAll s.pairs inner))])
  | .table, some _ => none
  | .element, none => do
    some (entries ++ [(name, .tables [← Entries.putAll s.pairs []])])
  | .element, some (.tables elements) => do
    some (entries.set name (.tables (elements ++ [← Entries.putAll s.pairs []])))
  | .element, some _ => none

/-- Enter a section into the table at the top. -/
def enter (s : Section) (top : Entries) : Option Entries :=
  Entries.within s.place s.key.path top

end Section

-- ============================================================================
-- The finished document
-- ============================================================================

mutual

/-- The document that a node stands for. -/
def Node.document : Node → Document
  | .value d => d
  | .table _ entries => .object (members entries) .closed
  | .tables elements => .array (tableDocuments elements) .closed

/-- The members that entries stand for. -/
def members : List (String × Node) → List (String × Document)
  | [] => []
  | (name, node) :: rest => (name, node.document) :: members rest

/-- The documents that tables stand for. -/
def tableDocuments : List (List (String × Node)) → List Document
  | [] => []
  | entries :: rest => .object (members entries) .closed :: tableDocuments rest

end

/-- The document that the entries of a table stand for. -/
def Entries.document (entries : Entries) : Document :=
  .object (members entries) .closed

end VersionedStore.Toml
