import FinanceGateway.Proofs.Json.Records

/-!
# What is written again is what was given

A codec that gives back (`Codec.GivesBack`) encodes what it has read from a JSON value as that
value, changed at most in how it is put: a float is always written as one, and a variant by its
name. A required field gives back its member, and an optional field that is left out when absent
gives back its member unless that is null (`Field.GivesBack`). The members of an encoding are those
that the fields write, under their names (`Record.Lawful.get?_ordered`).
-/

namespace FinanceGateway.Json

/-- A number as it is written for a float. -/
def asReal : Json → Json
  | .number (.int i) => .number (.real (Float.ofInt i))
  | j => j

/-- A variant as it is written: by its name. -/
def asName : Json → Json
  | .object [(name, .null)] => .text name
  | j => j

/-- A value, unless it is null. -/
def given? : Json → Option Json
  | .null => none
  | j => some j

theorem given?_eq_some_iff {j k : Json} : j.given? = some k ↔ j ≠ .null ∧ j = k := by
  cases j with
  | null => exact ⟨nofun, fun h => absurd rfl h.1⟩
  | _ => exact ⟨fun h => ⟨nofun, Option.some.inj h⟩, fun h => congrArg some h.2⟩

namespace Codec

variable {α : Type} {c : Codec α} {change : Json → Json}

/-- What is read from a JSON value is encoded as that value, up to a change of how it is put. -/
class GivesBack (c : Codec α) (change : outParam (Json → Json)) : Prop where
  sorted_encode : ∀ {j a}, Legal j → c.decodeJson j = .ok a → (c.encode a).sorted = change j

instance : GivesBack text id where
  sorted_encode _ h := by
    obtain rfl := decodeJson_text_iff.1 h
    exact sorted_text _

instance : GivesBack flag id where
  sorted_encode _ h := by
    obtain rfl := decodeJson_flag_iff.1 h
    exact sorted_bool _

instance : GivesBack real asReal where
  sorted_encode {j x} hlegal h := by
    have hencode : x.isFinite = true → (real.encode x).sorted = .number (.real x) := by
      intro hfinite
      change (Json.real x).sorted = _
      rw [Json.real, if_pos hfinite, sorted_number]
    rcases decodeJson_real_iff.1 h with rfl | ⟨i, rfl, rfl⟩
    · exact hencode hlegal
    · exact hencode (Decimal.isFinite_ofInt hlegal)

instance {expected : String} {bits : Nat} : GivesBack (natural expected bits) id where
  sorted_encode _ h := by
    obtain ⟨rfl, -⟩ := decodeJson_natural_iff.1 h
    exact sorted_number _

instance : GivesBack nat8 id := inferInstanceAs (GivesBack (natural _ _) id)

instance [c.GivesBack id] : GivesBack c.list id where
  sorted_encode {j xs} hlegal h := by
    obtain ⟨items, rfl, hall⟩ := decodeJson_list_iff.1 h
    rw [legal_array_iff] at hlegal
    change (Json.array (xs.map c.encode)).sorted = .array items
    rw [sorted_array, List.map_map]
    congr 1
    clear h
    induction hall with
    | nil => rfl
    | cons hread _ ih =>
      obtain ⟨hitem, hitems⟩ := List.forall_mem_cons.1 hlegal
      rw [List.map_cons, ih hitems, Function.comp_apply,
        GivesBack.sorted_encode hitem hread, id]

/-- An enumeration gives back names if each variant is found by its own name only. -/
theorem givesBack_enumeration {variants : List (String × α)} {name : α → String}
    (h : ∀ v ∈ variants, name v.2 = v.1) : GivesBack (enumeration variants name) asName where
  sorted_encode {j a} _ ha := by
    obtain ⟨s, hs, hj⟩ := decodeJson_enumeration_iff.1 ha
    have hname : name a = s := by
      unfold variant at hs
      split at hs
      · next s' a' hfind =>
        cases hs
        have hs' : s' = s := by simpa using List.find?_some hfind
        rw [← hs']
        exact h _ (List.mem_of_find?_eq_some hfind)
      · cases hs
    change (Json.text (name a)).sorted = asName j
    rw [sorted_text, hname]
    rcases hj with rfl | rfl <;> rfl

end Codec

namespace Field

variable {σ α : Type} {c : Codec α} {initial : σ} {name : String} {change : Json → Json}

/-- The member from which a field is read is what the field writes, unless it is null. -/
def GivesBack (f : Field σ) (initial : σ) (change : Json → Json) : Prop :=
  ∀ {x member}, (∀ j, member = some j → Legal j) → f.Reads initial x member →
    (f.encode x).map sorted = (member.bind given?).map change

theorem givesBack_required [c.RejectsNull] [c.GivesBack change] {get : σ → α}
    {set : α → σ → σ} : (required name c get set).GivesBack initial change := by
  intro x member hlegal hreads
  cases member with
  | none => exact absurd rfl (hreads.2 rfl)
  | some j =>
    have hread : c.decodeJson j = .ok (get x) := hreads.1
    have hj : j ≠ .null := by
      rintro rfl
      obtain ⟨e, he⟩ := Codec.RejectsNull.rejects (c := c)
      cases he.symm.trans hread
    have hencode : (required name c get set).encode x = some (c.encode (get x)) := rfl
    rw [hencode, Option.map_some, Codec.GivesBack.sorted_encode (hlegal j rfl) hread,
      Option.bind_some, given?_eq_some_iff.2 ⟨hj, rfl⟩, Option.map_some]

theorem givesBack_sparse [c.GivesBack change] {get : σ → Option α} {set : Option α → σ → σ}
    (hinitial : get initial = none) : (sparse name c get set).GivesBack initial change := by
  intro x member hlegal hreads
  have hnone : get x = none → (sparse name c get set).encode x = none := by
    intro h
    change (if (get x).isNone then _ else _) = _
    rw [h]
    rfl
  cases member with
  | none =>
    have hsame : get x = get initial := hreads.1
    rw [hnone (hsame.trans hinitial)]
    rfl
  | some j =>
    have hread : c.optional.decodeJson j = .ok (get x) := hreads.1
    rcases Codec.decodeJson_optional_iff.1 hread with ⟨rfl, hx⟩ | ⟨hj, a, ha, hx⟩
    · rw [hnone hx]
      rfl
    · have hencode : (sparse name c get set).encode x = some (c.encode a) := by
        change (if (get x).isNone then _ else some (c.optional.encode (get x))) = _
        rw [hx]
        rfl
      rw [hencode, Option.map_some, Codec.GivesBack.sorted_encode (hlegal j rfl) ha,
        Option.bind_some, given?_eq_some_iff.2 ⟨hj, rfl⟩, Option.map_some]

end Field

namespace Record

variable {σ : Type} {r : Record σ}

/-- The members of the encoding of a record, in order. -/
def ordered (r : Record σ) (x : σ) : Dictionary Json :=
  Dictionary.ofList ((r.encodeFields x).map fun m => (m.1, m.2.sorted))

theorem codec_ordered (x : σ) : r.codec.ordered x = .object (r.ordered x) :=
  sorted_object _

/-- Under a name stands what the field of that name writes. -/
theorem Lawful.get?_ordered (h : r.Lawful) (x : σ) (name : String) :
    Dictionary.get? (r.ordered x) name =
      (r.field? name).bind fun f => (f.encode x).map sorted := by
  have hcount : (((r.encodeFields x).map fun m => (m.1, m.2.sorted)).map (·.1)).count name ≤ 1 := by
    rw [List.map_map]
    exact h.count_encodeFields x name
  rw [ordered, Dictionary.get?_ofList hcount, Dictionary.get?_map]
  cases hfield : r.field? name with
  | some f =>
    obtain ⟨hf, rfl⟩ := mem_of_field? hfield
    rw [h.get?_encodeFields hf]
    rfl
  | none =>
    have hnone : Dictionary.get? (r.encodeFields x) name = none := by
      rw [Dictionary.get?_eq_none_iff]
      intro hmem
      obtain ⟨member, hmember, rfl⟩ := List.mem_map.1 hmem
      obtain ⟨g, hg, hencoded⟩ := List.mem_filterMap.1 hmember
      obtain ⟨j, -, rfl⟩ := Option.map_eq_some_iff.1 hencoded
      exact name_ne_of_field? hfield hg rfl
    rw [hnone]
    rfl

end Record

end FinanceGateway.Json
