import FinanceGateway.Toml.Statement

/-!
# TOML documents

The table that a list of statements defines. Pairs go to the table of the latest header; that table
is put in its place when the next header comes, so a header after those below it moves its table
behind the tables defined in between.
-/

namespace FinanceGateway.Toml

/-- A document half read: the tables in place, and the table of the latest header. -/
structure Draft where
  root : Branch := {}
  current : Branch := {}
  /-- The path and key of the latest header, and whether it is that of an array. -/
  header : Option (List String × String × Bool) := none

namespace Draft

/-- Puts the table of the latest header in its place. -/
def close (d : Draft) : Option Branch :=
  match d.header with
  | none => some d.current
  | some (path, key, false) =>
    d.root.modifyAt false path fun table =>
      match table.find? key with
      | none => some (table.put key d.current.node)
      | some _ => none
  | some (path, key, true) =>
    let element := (d.current.isImplicit, d.current.isDotted, d.current.entries)
    d.root.modifyAt false path fun table =>
      match table.find? key with
      | none => some (table.put key (.tables [element]))
      | some (.tables others) => some (table.put key (.tables (element :: others)))
      | some _ => none

/-- Opens the table of a header; only a table that headers below it have made may be there. -/
def openTable (root : Branch) (path : List String) (key : String) : Option Draft := do
  let (root, entries) ← root.descend false path fun table =>
    match table.find? key with
    | none => some (table, [])
    | some (.table true false entries) => some (table.remove key, entries)
    | some _ => none
  some { root, current := { entries }, header := some (path, key, false) }

/-- Opens one more table of an array. -/
def openElement (root : Branch) (path : List String) (key : String) : Option Draft := do
  let root ← root.modifyAt false path fun table =>
    match table.find? key with
    | none => some (table.put key (.tables []))
    | some (.tables _) => some table
    | some _ => none
  some { root, header := some (path, key, true) }

/-- The document after a statement. -/
def add (d : Draft) : Statement → Option Draft
  | .pair path key value => do
    let current ← d.current.define path key value
    some { d with current }
  | .table path key => do openTable (← d.close) path key
  | .element path key => do openElement (← d.close) path key

end Draft

/-- The table that statements define. -/
def ofStatements (statements : List Statement) : Option Toml := do
  let draft ← statements.foldlM Draft.add {}
  let root ← draft.close
  some root.node.value

/-- Reads a document; a byte order mark at its front does not count. -/
def parse? (s : String) : Option Toml := do
  let cs := match s.toList with
    | '\uFEFF' :: rest => rest
    | cs => cs
  ofStatements (← readStatements (cs.length + 1) cs)

end FinanceGateway.Toml
