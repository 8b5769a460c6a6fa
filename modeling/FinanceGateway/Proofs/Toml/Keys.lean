import FinanceGateway.Toml.Document
import Mathlib

/-!
# Keys of tables

A document that is read is a table, and in it as in every table below it each key is there once
(`isKeyed_of_parse?`). The values of single pairs have that property because an inline table is
built like a document (`isKeyed_of_readValue`), and the tables under construction keep it from one
statement to the next (`Draft.IsKeyed.add`).
-/

namespace FinanceGateway.Toml

/-- Every table in a value has each of its keys once. -/
inductive IsKeyed : Toml → Prop
  | text (s : String) : IsKeyed (.text s)
  | integer (i : Int) : IsKeyed (.integer i)
  | real (x : Float) : IsKeyed (.real x)
  | flag (b : Bool) : IsKeyed (.flag b)
  | moment : IsKeyed .moment
  | array {items : List Toml} : (∀ v ∈ items, IsKeyed v) → IsKeyed (.array items)
  | table {entries : List (String × Toml)} : (entries.map (·.1)).Nodup →
      (∀ e ∈ entries, IsKeyed e.2) → IsKeyed (.table entries)

/-! ## Tables under construction -/

/-- Every table in an entry has each of its keys once. -/
inductive Node.IsKeyed : Node → Prop
  | leaf {value : Toml} : value.IsKeyed → Node.IsKeyed (.leaf value)
  | table {isImplicit isDotted : Bool} {entries : List (String × Node)} :
      (entries.map (·.1)).Nodup → (∀ e ∈ entries, Node.IsKeyed e.2) →
      Node.IsKeyed (.table isImplicit isDotted entries)
  | tables {elements : List (Bool × Bool × List (String × Node))} :
      (∀ element ∈ elements, (element.2.2.map (·.1)).Nodup) →
      (∀ element ∈ elements, ∀ e ∈ element.2.2, Node.IsKeyed e.2) →
      Node.IsKeyed (.tables elements)

theorem entryValues_eq_map (entries : List (String × Node)) :
    entryValues entries = entries.map fun e => (e.1, e.2.value) := by
  induction entries with
  | nil => rfl
  | cons e entries ih => rw [entryValues, ih, List.map_cons]

theorem elementValues_eq_map (elements : List (Bool × Bool × List (String × Node))) :
    elementValues elements = elements.map fun element => .table (entryValues element.2.2) := by
  induction elements with
  | nil => rfl
  | cons element elements ih => rw [elementValues, ih, List.map_cons]

theorem isKeyed_table_entryValues {entries : List (String × Node)}
    (hnodup : (entries.map (·.1)).Nodup) (hvalues : ∀ e ∈ entries, e.2.value.IsKeyed) :
    (table (entryValues entries)).IsKeyed := by
  rw [entryValues_eq_map]
  refine .table ?_ fun e he => ?_
  · rwa [List.map_map]
  · obtain ⟨e', he', rfl⟩ := List.mem_map.1 he
    exact hvalues e' he'

theorem Node.IsKeyed.value {node : Node} (h : node.IsKeyed) : node.value.IsKeyed := by
  induction h with
  | leaf h =>
    rw [Node.value]
    exact h
  | table hnodup _ ih =>
    rw [Node.value]
    exact isKeyed_table_entryValues hnodup ih
  | tables hnodup _ ih =>
    rw [Node.value, elementValues_eq_map]
    refine .array fun v hv => ?_
    obtain ⟨element, helement, rfl⟩ := List.mem_map.1 (List.mem_reverse.1 hv)
    exact isKeyed_table_entryValues (hnodup element helement) (ih element helement)

/-- A branch has each key once, and so has every table in it. -/
structure Branch.IsKeyed (b : Branch) : Prop where
  nodup : (b.entries.map (·.1)).Nodup
  nodes : ∀ e ∈ b.entries, e.2.IsKeyed

namespace Branch.IsKeyed

variable {α : Type} {b b' : Branch} {key : String} {entry : Node} {dotted : Bool}
  {path : List String}

theorem empty (isImplicit isDotted : Bool) : Branch.IsKeyed ⟨isImplicit, isDotted, []⟩ :=
  ⟨List.nodup_nil, nofun⟩

theorem node (h : b.IsKeyed) : b.node.IsKeyed :=
  .table h.nodup h.nodes

theorem of_find? (h : b.IsKeyed) (hfind : b.find? key = some entry) :
    entry.IsKeyed := by
  obtain ⟨e, he, rfl⟩ := Option.map_eq_some_iff.1 hfind
  exact h.nodes e (List.mem_of_find?_eq_some he)

theorem put (h : b.IsKeyed) (hentry : entry.IsKeyed) : (b.put key entry).IsKeyed := by
  unfold Branch.put
  split
  · -- An entry in its place leaves the keys as they are.
    have hkeys : (b.entries.map fun e => if e.1 == key then (key, entry) else e).map (·.1) =
        b.entries.map (·.1) := by
      rw [List.map_map]
      refine List.map_congr_left fun e _ => ?_
      dsimp only [Function.comp_apply]
      split
      · next hkey => exact (beq_iff_eq.1 hkey).symm
      · rfl
    refine ⟨hkeys ▸ h.nodup, fun e he => ?_⟩
    obtain ⟨e', he', rfl⟩ := List.mem_map.1 he
    split
    · exact hentry
    · exact h.nodes e' he'
  · next hnew =>
    have hnew : key ∉ b.entries.map (·.1) := by
      simpa [List.any_eq_true] using hnew
    refine ⟨?_, fun e he => ?_⟩
    · rw [List.map_append, List.nodup_append_comm]
      exact List.nodup_cons.2 ⟨hnew, h.nodup⟩
    · rcases List.mem_append.1 he with he | he
      · exact h.nodes e he
      · cases List.mem_singleton.1 he
        exact hentry

theorem remove (h : b.IsKeyed) : (b.remove key).IsKeyed :=
  ⟨h.nodup.sublist (List.filter_sublist.map _), fun e he => h.nodes e (List.mem_of_mem_filter he)⟩

/-- One more table in an array of tables. -/
theorem tables {others : List (Bool × Bool × List (String × Node))} (h : b.IsKeyed)
    (hothers : (Node.tables others).IsKeyed) :
    (Node.tables ((b.isImplicit, b.isDotted, b.entries) :: others)).IsKeyed := by
  cases hothers with
  | tables hnodup hnodes =>
    exact .tables (List.forall_mem_cons.2 ⟨h.nodup, hnodup⟩)
      (List.forall_mem_cons.2 ⟨h.nodes, hnodes⟩)

/-- A change of the table at the end of a path does to the branch what it does to the table. -/
theorem of_descend {P : α → Prop} {change : Branch → Option (Branch × α)} {a : α}
    (hchange : ∀ table table' a, Branch.IsKeyed table → change table = some (table', a) →
      table'.IsKeyed ∧ P a)
    (hb : b.IsKeyed) (h : b.descend dotted path change = some (b', a)) : b'.IsKeyed ∧ P a := by
  induction path generalizing b b' a with
  | nil => exact hchange _ _ _ hb h
  | cons key path ih =>
    unfold descend at h
    split at h
    · obtain ⟨⟨inner, a'⟩, hinner, heq⟩ := Option.bind_eq_some_iff.1 h
      cases heq
      obtain ⟨hinner, ha⟩ := ih (empty true dotted) hinner
      exact ⟨hb.put hinner.node, ha⟩
    · next isImplicit isDotted entries hfind =>
      split at h
      · cases h
      · obtain ⟨⟨inner, a'⟩, hinner, heq⟩ := Option.bind_eq_some_iff.1 h
        cases heq
        cases hb.of_find? hfind with
        | table hnodup hnodes =>
          obtain ⟨hinner, ha⟩ := ih ⟨hnodup, hnodes⟩ hinner
          exact ⟨hb.put hinner.node, ha⟩
    · next isImplicit isDotted entries others hfind =>
      obtain ⟨⟨inner, a'⟩, hinner, heq⟩ := Option.bind_eq_some_iff.1 h
      cases heq
      cases hb.of_find? hfind with
      | tables hnodup hnodes =>
        obtain ⟨hfirst, hnodup⟩ := List.forall_mem_cons.1 hnodup
        obtain ⟨hnodes', hnodes⟩ := List.forall_mem_cons.1 hnodes
        obtain ⟨hinner, ha⟩ := ih ⟨hfirst, hnodes'⟩ hinner
        exact ⟨hb.put (hinner.tables (.tables hnodup hnodes)), ha⟩
    · cases h

theorem of_modifyAt {change : Branch → Option Branch}
    (hchange : ∀ table table', Branch.IsKeyed table → change table = some table' → table'.IsKeyed)
    (hb : b.IsKeyed) (h : b.modifyAt dotted path change = some b') : b'.IsKeyed := by
  obtain ⟨⟨b', a⟩, hdescend, rfl⟩ := Option.map_eq_some_iff.1 h
  have hkept : ∀ table table' (a : Unit), Branch.IsKeyed table →
      (change table).map (·, ()) = some (table', a) → table'.IsKeyed ∧ True := by
    intro table table' a htable h
    obtain ⟨table', hchanged, heq⟩ := Option.map_eq_some_iff.1 h
    cases heq
    exact ⟨hchange _ _ htable hchanged, trivial⟩
  exact (of_descend hkept hb hdescend).1

theorem define {value : Toml} (hb : b.IsKeyed) (hvalue : value.IsKeyed)
    (h : b.define path key value = some b') : b'.IsKeyed := by
  refine hb.of_modifyAt (fun table table' htable h => ?_) h
  split at h
  · cases h
  · split at h
    · cases h
    · cases h
      exact htable.put (.leaf hvalue)

end Branch.IsKeyed

/-! ## Values -/

section Values

variable {cs rest : List Char} {v : Toml}

theorem isKeyed_of_integer? {i : Int} (h : integer? i = some v) : v.IsKeyed := by
  unfold integer? at h
  split at h
  · cases h
    exact .integer i
  · cases h

theorem isKeyed_of_real? {negative : Bool} {digits : List Char} {exponent : Int}
    (h : real? negative digits exponent = some v) : v.IsKeyed := by
  unfold real? at h
  dsimp only at h
  split at h
  · cases h
    exact .real _
  · split at h
    · cases h
    · cases h
      exact .real _

theorem isKeyed_of_readRadix {radix : Nat} (h : readRadix radix cs = some (v, rest)) :
    v.IsKeyed := by
  obtain ⟨⟨digits, rest⟩, -, h⟩ := Option.bind_eq_some_iff.1 h
  obtain ⟨value, hvalue, h⟩ := Option.bind_eq_some_iff.1 h
  cases h
  exact isKeyed_of_integer? hvalue

theorem isKeyed_of_readDecimal (h : readDecimal cs = some (v, rest)) : v.IsKeyed := by
  obtain ⟨⟨whole, rest⟩, -, h⟩ := Option.bind_eq_some_iff.1 h
  obtain ⟨⟨fraction, rest⟩, -, h⟩ := Option.bind_eq_some_iff.1 h
  obtain ⟨⟨scale, rest⟩, -, h⟩ := Option.bind_eq_some_iff.1 h
  dsimp only at h
  split at h
  · obtain ⟨value, hvalue, h⟩ := Option.bind_eq_some_iff.1 h
    cases h
    exact isKeyed_of_integer? hvalue
  · obtain ⟨value, hvalue, h⟩ := Option.bind_eq_some_iff.1 h
    cases h
    exact isKeyed_of_real? hvalue

theorem isKeyed_of_readSpecial (h : readSpecial cs = some (v, rest)) : v.IsKeyed := by
  unfold readSpecial at h
  dsimp only at h
  split at h
  · cases h
    exact .real _
  · cases h
    exact .real _
  · cases h

theorem isKeyed_of_readNumber (h : readNumber cs = some (v, rest)) : v.IsKeyed := by
  unfold readNumber at h
  split at h
  · cases h
    exact .moment
  · split at h
    · exact isKeyed_of_readRadix h
    · exact isKeyed_of_readRadix h
    · exact isKeyed_of_readRadix h
    · rcases Option.or_eq_some_iff.1 h with h | ⟨-, h⟩
      · exact isKeyed_of_readSpecial h
      · exact isKeyed_of_readDecimal h

mutual

theorem isKeyed_of_readValue : ∀ {fuel depth : Nat} {cs : List Char} {v : Toml} {rest : List Char},
    readValue fuel depth cs = some (v, rest) → v.IsKeyed
  | 0, _, _, _, _, h => by cases h
  | _ + 1, _, [], _, _, h => by cases h
  | fuel + 1, depth, c :: tail, v, rest, h => by
    unfold readValue at h
    split_ifs at h
    · obtain ⟨found, -, heq⟩ := Option.map_eq_some_iff.1 h
      cases heq
      exact .text _
    · split at h
      · cases h
      · split at h
        · cases h
          exact .array nofun
        · obtain ⟨⟨items, after⟩, hitems, heq⟩ := Option.map_eq_some_iff.1 h
          cases heq
          exact .array (isKeyed_of_readItems hitems)
    · split at h
      · cases h
      · split at h
        · cases h
          exact .table List.nodup_nil nofun
        · obtain ⟨⟨b, after⟩, hpairs, heq⟩ := Option.map_eq_some_iff.1 h
          cases heq
          exact (isKeyed_of_readPairs (.empty false false) hpairs).node.value
    · obtain ⟨after, -, heq⟩ := Option.map_eq_some_iff.1 h
      cases heq
      exact .flag true
    · obtain ⟨after, -, heq⟩ := Option.map_eq_some_iff.1 h
      cases heq
      exact .flag false
    · exact isKeyed_of_readNumber h

theorem isKeyed_of_readItems : ∀ {fuel depth : Nat} {cs : List Char} {items : List Toml}
    {rest : List Char}, readItems fuel depth cs = some (items, rest) → ∀ v ∈ items, v.IsKeyed
  | 0, _, _, _, _, h => by cases h
  | fuel + 1, depth, cs, items, rest, h => by
    rw [readItems] at h
    obtain ⟨⟨item, after⟩, hitem, h⟩ := Option.bind_eq_some_iff.1 h
    have hitem := isKeyed_of_readValue hitem
    dsimp only at h
    split at h
    · cases h
      exact List.forall_mem_singleton.2 hitem
    · split at h
      · cases h
        exact List.forall_mem_singleton.2 hitem
      · obtain ⟨⟨others, after⟩, hothers, h⟩ := Option.bind_eq_some_iff.1 h
        cases h
        exact List.forall_mem_cons.2 ⟨hitem, isKeyed_of_readItems hothers⟩
    · cases h

theorem isKeyed_of_readPairs : ∀ {fuel depth : Nat} {b : Branch} {cs : List Char} {b' : Branch}
    {rest : List Char}, b.IsKeyed → readPairs fuel depth b cs = some (b', rest) → b'.IsKeyed
  | 0, _, _, _, _, _, _, h => by cases h
  | fuel + 1, depth, b, cs, b', rest, hb, h => by
    rw [readPairs] at h
    obtain ⟨⟨⟨path, key⟩, after⟩, -, h⟩ := Option.bind_eq_some_iff.1 h
    obtain ⟨after, -, h⟩ := Option.bind_eq_some_iff.1 h
    obtain ⟨⟨value, after⟩, hvalue, h⟩ := Option.bind_eq_some_iff.1 h
    obtain ⟨b, hdefine, h⟩ := Option.bind_eq_some_iff.1 h
    have hb := hb.define (isKeyed_of_readValue hvalue) hdefine
    split at h
    · cases h
      exact hb
    · exact isKeyed_of_readPairs hb h
    · cases h

end

end Values

/-! ## Documents -/

/-- Every table in the value of a statement has each of its keys once. -/
def Statement.IsKeyed : Statement → Prop
  | .pair _ _ value => value.IsKeyed
  | .table _ _ | .element _ _ => True

theorem isKeyed_of_readStatement {cs rest : List Char} {statement : Statement}
    (h : readStatement cs = some (statement, rest)) : statement.IsKeyed := by
  unfold readStatement at h
  split at h
  · obtain ⟨key, -, h⟩ := Option.bind_eq_some_iff.1 h
    obtain ⟨after, -, h⟩ := Option.bind_eq_some_iff.1 h
    obtain ⟨after, -, h⟩ := Option.bind_eq_some_iff.1 h
    obtain ⟨after, -, h⟩ := Option.bind_eq_some_iff.1 h
    cases h
    trivial
  · obtain ⟨key, -, h⟩ := Option.bind_eq_some_iff.1 h
    obtain ⟨after, -, h⟩ := Option.bind_eq_some_iff.1 h
    obtain ⟨after, -, h⟩ := Option.bind_eq_some_iff.1 h
    cases h
    trivial
  · obtain ⟨key, -, h⟩ := Option.bind_eq_some_iff.1 h
    obtain ⟨after, -, h⟩ := Option.bind_eq_some_iff.1 h
    obtain ⟨⟨value, after⟩, hvalue, h⟩ := Option.bind_eq_some_iff.1 h
    obtain ⟨after, -, h⟩ := Option.bind_eq_some_iff.1 h
    cases h
    exact isKeyed_of_readValue hvalue

theorem isKeyed_of_readStatements {fuel : Nat} {cs : List Char} {statements : List Statement}
    (h : readStatements fuel cs = some statements) : ∀ s ∈ statements, s.IsKeyed := by
  induction fuel generalizing cs statements with
  | zero => cases h
  | succ fuel ih =>
    rw [readStatements] at h
    split at h
    · cases h
      exact nofun
    · split at h
      · obtain ⟨after, -, h⟩ := Option.bind_eq_some_iff.1 h
        exact ih h
      · obtain ⟨⟨statement, after⟩, hstatement, h⟩ := Option.bind_eq_some_iff.1 h
        obtain ⟨others, hothers, h⟩ := Option.bind_eq_some_iff.1 h
        cases h
        exact List.forall_mem_cons.2 ⟨isKeyed_of_readStatement hstatement, ih hothers⟩

/-- Both tables of a document half read have each key once, and so have the tables in them. -/
structure Draft.IsKeyed (d : Draft) : Prop where
  root : d.root.IsKeyed
  current : d.current.IsKeyed

namespace Draft.IsKeyed

variable {d d' : Draft} {root : Branch} {path : List String} {key : String}

theorem close (h : d.IsKeyed) (hclose : d.close = some root) : root.IsKeyed := by
  unfold Draft.close at hclose
  split at hclose
  · cases hclose
    exact h.current
  · refine h.root.of_modifyAt (fun table table' htable h' => ?_) hclose
    split at h'
    · cases h'
      exact htable.put h.current.node
    · cases h'
  · refine h.root.of_modifyAt (fun table table' htable h' => ?_) hclose
    split at h'
    · cases h'
      exact htable.put (h.current.tables (.tables nofun nofun))
    · next others hothers =>
      cases h'
      exact htable.put (h.current.tables (htable.of_find? hothers))
    · cases h'

theorem openTable (h : root.IsKeyed) (hopen : openTable root path key = some d) : d.IsKeyed := by
  obtain ⟨⟨root', entries⟩, hdescend, hd⟩ := Option.bind_eq_some_iff.1 hopen
  cases hd
  obtain ⟨hroot, hcurrent⟩ : root'.IsKeyed ∧ Branch.IsKeyed { entries } := by
    refine h.of_descend (P := fun entries => Branch.IsKeyed { entries })
      (fun table table' entries htable h' => ?_) hdescend
    split at h'
    · cases h'
      exact ⟨htable, .empty false false⟩
    · next hfind =>
      cases h'
      cases htable.of_find? hfind with
      | table hnodup hnodes => exact ⟨htable.remove, hnodup, hnodes⟩
    · cases h'
  exact ⟨hroot, hcurrent⟩

theorem openElement (h : root.IsKeyed) (hopen : openElement root path key = some d) :
    d.IsKeyed := by
  obtain ⟨root', hmodify, hd⟩ := Option.bind_eq_some_iff.1 hopen
  cases hd
  refine ⟨h.of_modifyAt (fun table table' htable h' => ?_) hmodify, .empty false false⟩
  split at h'
  · cases h'
    exact htable.put (.tables nofun nofun)
  · cases h'
    exact htable
  · cases h'

/-- A statement leaves each key once. -/
theorem add (h : d.IsKeyed) {statement : Statement} (hstatement : statement.IsKeyed)
    (hadd : d.add statement = some d') : d'.IsKeyed := by
  cases statement with
  | pair path key value =>
    obtain ⟨current, hdefine, hd⟩ := Option.bind_eq_some_iff.1 hadd
    cases hd
    exact ⟨h.root, h.current.define hstatement hdefine⟩
  | table path key =>
    obtain ⟨root, hclose, hopen⟩ := Option.bind_eq_some_iff.1 hadd
    exact openTable (h.close hclose) hopen
  | element path key =>
    obtain ⟨root, hclose, hopen⟩ := Option.bind_eq_some_iff.1 hadd
    exact openElement (h.close hclose) hopen

/-- Statements leave each key once. -/
theorem foldlM_add (h : d.IsKeyed) {statements : List Statement}
    (hstatements : ∀ s ∈ statements, s.IsKeyed) (hadd : statements.foldlM Draft.add d = some d') :
    d'.IsKeyed := by
  induction statements generalizing d with
  | nil =>
    cases hadd
    exact h
  | cons statement statements ih =>
    obtain ⟨hstatement, hstatements⟩ := List.forall_mem_cons.1 hstatements
    rw [List.foldlM_cons] at hadd
    obtain ⟨between, hbetween, hadd⟩ := Option.bind_eq_some_iff.1 hadd
    exact ih (h.add hstatement hbetween) hstatements hadd

end Draft.IsKeyed

/-- A document that is read is a table, and it has each key once, as has every table in it. -/
theorem isKeyed_of_parse? {s : String} {t : Toml} (h : parse? s = some t) :
    t.IsKeyed ∧ ∃ entries, t = .table entries := by
  obtain ⟨statements, hstatements, h⟩ := Option.bind_eq_some_iff.1 h
  obtain ⟨draft, hdraft, h⟩ := Option.bind_eq_some_iff.1 h
  obtain ⟨root, hroot, h⟩ := Option.bind_eq_some_iff.1 h
  cases h
  have hempty : Draft.IsKeyed {} := ⟨.empty false false, .empty false false⟩
  have hkeyed := hempty.foldlM_add (isKeyed_of_readStatements hstatements) hdraft
  refine ⟨(hkeyed.close hroot).node.value, entryValues root.entries, ?_⟩
  rw [Branch.node, Node.value]

end FinanceGateway.Toml
