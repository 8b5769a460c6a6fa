import FinanceGateway.Toml.Value

/-!
# Tables under construction

While a document is read, a table remembers how it came about: by a header of its own, as the way to
another header, or by a dotted key. This decides what may still be added to it. A key is defined
once; dotted keys go only through tables that dotted keys have made; a header may come after the
headers below it, but only once.
-/

namespace FinanceGateway.Toml

/-- An entry under construction; the flags of a table are those of `Branch`. -/
inductive Node
  | leaf (value : Toml)
  | table (isImplicit isDotted : Bool) (entries : List (String × Node))
  /-- The tables of an array, each with its flags, the latest first. -/
  | tables (elements : List (Bool × Bool × List (String × Node)))

/-- A table under construction: whether it has no header of its own, and whether a dotted key has
made it. -/
structure Branch where
  isImplicit : Bool := false
  isDotted : Bool := false
  entries : List (String × Node) := []

/-- The entry of a branch. -/
def Branch.node (b : Branch) : Node :=
  .table b.isImplicit b.isDotted b.entries

mutual

/-- The value of an entry. -/
def Node.value : Node → Toml
  | .leaf value => value
  | .table _ _ entries => .table (entryValues entries)
  | .tables elements => .array (elementValues elements).reverse

/-- `Node.value` over the entries of a table. -/
def entryValues : List (String × Node) → List (String × Toml)
  | [] => []
  | (key, node) :: rest => (key, node.value) :: entryValues rest

/-- `Node.value` over the tables of an array. -/
def elementValues : List (Bool × Bool × List (String × Node)) → List Toml
  | [] => []
  | (_, _, entries) :: rest => .table (entryValues entries) :: elementValues rest

end

namespace Branch

/-- The entry of a key. -/
def find? (b : Branch) (key : String) : Option Node :=
  (b.entries.find? (·.1 == key)).map (·.2)

/-- The branch with an entry in its place, or at the end. -/
def put (b : Branch) (key : String) (node : Node) : Branch :=
  if b.entries.any (·.1 == key) then
    { b with entries := b.entries.map fun e => if e.1 == key then (key, node) else e }
  else { b with entries := b.entries ++ [(key, node)] }

/-- The branch without an entry. -/
def remove (b : Branch) (key : String) : Branch :=
  { b with entries := b.entries.filter (·.1 != key) }

/-- Changes the table at the end of a path, making the tables on the way that are not there;
`dotted` is whether the path is that of a dotted key. The change may bring out something of the
table. -/
def descend {α : Type} (dotted : Bool) :
    List String → (Branch → Option (Branch × α)) → Branch → Option (Branch × α)
  | [], change, b => change b
  | key :: path, change, b =>
    match b.find? key with
    | none => do
      let (inner, a) ← descend dotted path change { isImplicit := true, isDotted := dotted }
      some (b.put key inner.node, a)
    | some (.table isImplicit isDotted entries) =>
      if dotted && !isImplicit then none
      else do
        let (inner, a) ← descend dotted path change ⟨isImplicit, isDotted, entries⟩
        some (b.put key inner.node, a)
    | some (.tables ((isImplicit, isDotted, entries) :: others)) => do
      let (inner, a) ← descend dotted path change ⟨isImplicit, isDotted, entries⟩
      let element := (inner.isImplicit, inner.isDotted, inner.entries)
      some (b.put key (.tables (element :: others)), a)
    | _ => none

/-- Changes the table at the end of a path and nothing else. -/
def modifyAt (dotted : Bool) (path : List String) (change : Branch → Option Branch) (b : Branch) :
    Option Branch :=
  (b.descend dotted path fun table => (change table).map (·, ())).map (·.1)

/-- Adds a value under a dotted key: `path` and then `key`. -/
def define (path : List String) (key : String) (value : Toml) (b : Branch) : Option Branch :=
  b.modifyAt true path fun table =>
    if table.isDotted == path.isEmpty then none
    else if (table.find? key).isSome then none
    else some (table.put key (.leaf value))

end Branch

end FinanceGateway.Toml
