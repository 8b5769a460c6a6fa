import FinanceGateway.Proofs.Json.Numbers
import FinanceGateway.Proofs.Json.Records

/-!
# What a text is read as, its value is read as

Texts are read from drafts, which may be flawed where nothing looks. A codec that reads a value
(`Codec.ReadsValue`) reads from the draft of a text what it reads from the JSON value that stands
there. A record is read from a text as from the JSON values of those members that it has a field
for, whatever the other members are (`Record.Lawful.reads_of_decode`).
-/

namespace FinanceGateway.Json

theorem mismatch_ne_ok {α : Type} {expected : String} {d : Draft} {a : α} :
    mismatch expected d ≠ .ok a := by
  unfold mismatch
  split <;> exact nofun

theorem Decoded.at_eq_ok_iff {α : Type} {segment : Segment} {x : Decoded α} {a : α} :
    Decoded.at segment x = .ok a ↔ x = .ok a := by
  cases x with
  | ok b => rfl
  | error e => exact ⟨nofun, nofun⟩

/-- A text that may open more than one bracket may open one. -/
theorem Reading.enter_text (depth : Nat) :
    Reading.enter ⟨.text, depth + 2⟩ = .ok ⟨.text, depth + 1⟩ := by
  simp [enter]

/-- The place of the members of an object that is a whole text. -/
abbrev Reading.inObject : Reading :=
  ⟨.text, Codec.depthLimit - 1⟩

namespace Codec

variable {α : Type} {c : Codec α} {depth : Nat}

theorem any_decode_array {items : Items} :
    any.decode ⟨.text, depth + 2⟩ (.array items) =
      (decodeAnyItems ⟨.text, depth + 1⟩ items).map .array := by
  change decodeAny _ _ = _
  rw [decodeAny, Reading.enter_text]

theorem any_decode_object {members : Members} :
    any.decode ⟨.text, depth + 2⟩ (.object members) =
      (decodeAnyMembers ⟨.text, depth + 1⟩ members []).map .object := by
  change decodeAny _ _ = _
  rw [decodeAny, Reading.enter_text]

/-- What the codec reads from a text at a depth is what it reads from the JSON value there. -/
class ReadsValue (c : Codec α) (depth : Nat) : Prop where
  exists_value : ∀ {d x}, c.decode ⟨.text, depth⟩ d = .ok x →
    ∃ j, any.decode ⟨.text, depth⟩ d = .ok j ∧ c.decodeJson j = .ok x

instance : ReadsValue text depth where
  exists_value {d x} h := by
    unfold text at h
    dsimp only at h
    split at h
    · next s => exact ⟨.text s, rfl, h⟩
    · exact absurd h mismatch_ne_ok

instance : ReadsValue flag depth where
  exists_value {d x} h := by
    unfold flag at h
    dsimp only at h
    split at h
    · next b => exact ⟨.bool b, rfl, h⟩
    · exact absurd h mismatch_ne_ok

instance : ReadsValue real depth where
  exists_value {d x} h := by
    unfold real at h
    dsimp only at h
    split at h
    · next y => exact ⟨.number (.real y), rfl, h⟩
    · next i => exact ⟨.number (.int i), rfl, h⟩
    · exact absurd h mismatch_ne_ok

instance {expected : String} {low high : Int} : ReadsValue (integer expected low high) depth where
  exists_value {d x} h := by
    have hread := h
    unfold integer at h
    dsimp only at h
    split at h
    · next i => exact ⟨.number (.int i), rfl, hread⟩
    · exact absurd h mismatch_ne_ok

instance {expected : String} {bits : Nat} : ReadsValue (natural expected bits) depth where
  exists_value h := by
    obtain ⟨i, hi, rfl⟩ := map_eq_ok_iff.1 h
    obtain ⟨j, hany, hj⟩ := ReadsValue.exists_value hi
    exact ⟨j, hany, map_eq_ok_iff.2 ⟨i, hj, rfl⟩⟩

instance : ReadsValue nat8 depth := inferInstanceAs (ReadsValue (natural _ _) depth)

instance [c.ReadsValue depth] [c.RejectsNull] : ReadsValue c.optional depth where
  exists_value {d x} h := by
    have hsome : (c.decode ⟨.text, depth⟩ d).map some = .ok x →
        ∃ j, any.decode ⟨.text, depth⟩ d = .ok j ∧ c.optional.decodeJson j = .ok x := by
      intro h
      obtain ⟨a, ha, rfl⟩ := map_eq_ok_iff.1 h
      obtain ⟨j, hany, hj⟩ := ReadsValue.exists_value ha
      refine ⟨j, hany, decodeJson_optional_iff.2 (.inr ⟨?_, a, hj, rfl⟩)⟩
      rintro rfl
      obtain ⟨e, he⟩ := RejectsNull.rejects (c := c)
      cases he.symm.trans hj
    match d with
    | .null => exact ⟨.null, rfl, h⟩
    | .broken .null _ _ => cases h
    | .broken .text _ _ | .broken .other _ _ | .bool _ | .number _ | .text _ | .array _
    | .object _ | .absent => exact hsome h

theorem exists_values_of_decodeItems [c.ReadsValue depth] :
    ∀ {items : Items} {i : Nat} {xs : List α}, decodeItems c ⟨.text, depth⟩ i items = .ok xs →
      ∃ js, decodeAnyItems ⟨.text, depth⟩ items = .ok js ∧
        List.Forall₂ (fun j x => c.decodeJson j = .ok x) js xs
  | .close, _, _, h => by
    cases h
    exact ⟨[], rfl, .nil⟩
  | .broken _ _, _, _, h => by cases h
  | .cons head tail, i, xs, h => by
    rw [decodeItems] at h
    cases hhead : c.decode ⟨.text, depth⟩ head with
    | error e =>
      rw [hhead] at h
      cases h
    | ok x =>
      rw [hhead] at h
      obtain ⟨xs, hxs, rfl⟩ := map_eq_ok_iff.1 h
      obtain ⟨j, hany, hj⟩ := ReadsValue.exists_value hhead
      obtain ⟨js, hanys, hjs⟩ := exists_values_of_decodeItems hxs
      have hany' : decodeAny ⟨.text, depth⟩ head = .ok j := hany
      refine ⟨j :: js, ?_, .cons hj hjs⟩
      rw [decodeAnyItems, hany', hanys]
      rfl

instance [c.ReadsValue (depth + 1)] : ReadsValue c.list (depth + 2) where
  exists_value {d x} h := by
    unfold list at h
    dsimp only at h
    split at h
    · next items =>
      rw [Reading.enter_text] at h
      obtain ⟨js, hanys, hjs⟩ := exists_values_of_decodeItems h
      refine ⟨.array js, ?_, decodeJson_list_iff.2 ⟨js, rfl, hjs⟩⟩
      rw [any_decode_array, hanys]
      rfl
    · exact absurd h mismatch_ne_ok

/-- The unit value is read from null only. -/
theorem eq_null_of_unit {place : Reading} {d : Draft} (h : unit.decode place d = .ok ()) :
    d = .null := by
  unfold unit at h
  dsimp only at h
  split at h
  · rfl
  · exact absurd h mismatch_ne_ok

/-- An object that names a variant has its name as the only member, with null. -/
theorem eq_of_variantMember {variants : List (String × α)} {place : Reading} {members : Members}
    {a : α} (h : variantMember variants place members = .ok a) :
    ∃ name, variant variants name = .ok a ∧ members = .cons (.ok name) .null .close := by
  unfold variantMember at h
  repeat' split at h
  all_goals first | exact absurd h mismatch_ne_ok | cases h
  next name value _ _ _ hvalue hvariant =>
    obtain rfl := eq_null_of_unit (Decoded.at_eq_ok_iff.1 hvalue)
    exact ⟨name, hvariant, rfl⟩

instance {variants : List (String × α)} {name : α → String} :
    ReadsValue (enumeration variants name) (depth + 2) where
  exists_value {d x} h := by
    unfold enumeration at h
    dsimp only at h
    split at h
    case h_1 s => exact ⟨.text s, rfl, decodeJson_enumeration_iff.2 ⟨s, h, .inl rfl⟩⟩
    case h_5 members =>
      obtain ⟨s, hvariant, rfl⟩ := eq_of_variantMember h
      refine ⟨.object [(s, .null)], ?_, decodeJson_enumeration_iff.2 ⟨s, hvariant, .inr rfl⟩⟩
      rw [any_decode_object]
      rfl
    all_goals contradiction

end Codec

theorem Field.readsValue_required {σ α : Type} {c : Codec α} {depth : Nat} [c.ReadsValue depth]
    {name : String} {get : σ → α} {set : α → σ → σ} :
    (required name c get set).codec.ReadsValue depth := ‹_›

theorem Field.readsValue_sparse {σ α : Type} {c : Codec α} {depth : Nat} [c.ReadsValue depth]
    [c.RejectsNull] {name : String} {get : σ → Option α} {set : Option α → σ → σ} :
    (sparse name c get set).codec.ReadsValue depth :=
  inferInstanceAs (c.optional.ReadsValue depth)

/-! ## Members -/

/-- The draft of the first member of a name. -/
def Members.get? : Members → String → Option Draft
  | .cons (.ok key) value tail, name => if key = name then some value else tail.get? name
  | .cons (.error _) _ tail, name => tail.get? name
  | .close, _ | .keyless _, _ | .bare _ _, _ | .broken _ _, _ => none

theorem Members.get?_cons (key : String) (value : Draft) (tail : Members) (name : String) :
    (Members.cons (.ok key) value tail).get? name =
      if key = name then some value else tail.get? name := rfl

/-- The JSON value of the first member of a name. -/
def Members.value? (place : Reading) (members : Members) (name : String) : Option Json :=
  (members.get? name).bind fun d => (Codec.any.decode place d).toOption

namespace Record

variable {σ : Type} {r : Record σ} {depth : Nat}

/-- Members are read from a text as those of them that the record type has a field for are read,
each of which has a JSON value. -/
theorem exists_known (hfields : ∀ f ∈ r.fields, f.codec.ReadsValue depth) {members : Members}
    {seen seen' : List String} {s x : σ}
    (h : r.decodeMembers ⟨.text, depth⟩ members seen s = .ok (seen', x)) :
    ∃ known, r.decodeMembers .root (Members.ofList known) seen s = .ok (seen', x) ∧
      ∀ f ∈ r.fields, (members.get? f.name).map (Codec.any.decode ⟨.text, depth⟩) =
        (Dictionary.get? known f.name).map .ok := by
  fun_induction decodeMembers r ⟨.text, depth⟩ members seen s with
  | case1 seen s =>
    cases h
    exact ⟨[], rfl, fun _ _ => rfl⟩
  | case9 key value tail seen s hfield hskim ih =>
    obtain ⟨known, hknown, hvalues⟩ := ih h
    refine ⟨known, hknown, fun f hf => ?_⟩
    rw [Members.get?_cons, if_neg (name_ne_of_field? hfield hf)]
    exact hvalues f hf
  | case12 key value tail seen s g hfield hseen set hset ih =>
    obtain ⟨known, hknown, hvalues⟩ := ih h
    obtain ⟨v, hv, rfl⟩ := map_eq_ok_iff.1 (Decoded.at_eq_ok_iff.1 hset)
    have := hfields g (mem_of_field? hfield).1
    obtain ⟨j, hany, hj⟩ := Codec.ReadsValue.exists_value hv
    refine ⟨(key, j) :: known, ?_, fun f hf => ?_⟩
    · rw [decodeMembers_of_ok hfield hseen hj, hknown]
    · rw [Members.get?_cons, Dictionary.get?_cons]
      split
      · rw [Option.map_some, hany, Option.map_some]
      · exact hvalues f hf
  | _ => cases h

theorem decode_object {place inner : Reading} {members : Members} (h : place.enter = .ok inner) :
    r.codec.decode place (.object members) = r.decodeObject inner members := by
  simp only [codec, h]

/-- An object in a text is read field by field, as the JSON values of its members. -/
theorem Lawful.reads_of_decode (h : r.Lawful)
    (hfields : ∀ f ∈ r.fields, f.codec.ReadsValue (depth + 1)) {members : Members} {x : σ}
    (hx : r.codec.decode ⟨.text, depth + 2⟩ (.object members) = .ok x) :
    ∀ f ∈ r.fields, f.Reads r.initial x (members.value? ⟨.text, depth + 1⟩ f.name) ∧
      ∀ d, members.get? f.name = some d → ∃ j, Codec.any.decode ⟨.text, depth + 1⟩ d = .ok j := by
  obtain ⟨known, hknown, hvalues⟩ :
      ∃ known, r.codec.decodeJson (.object known) = .ok x ∧ ∀ f ∈ r.fields,
        (members.get? f.name).map (Codec.any.decode ⟨.text, depth + 1⟩) =
          (Dictionary.get? known f.name).map .ok := by
    have hobject : r.decodeObject ⟨.text, depth + 1⟩ members = .ok x := by
      rwa [decode_object (Reading.enter_text depth)] at hx
    unfold decodeObject at hobject
    split at hobject
    · cases hobject
    · next seen s hmembers =>
      obtain ⟨known, hknown, hvalues⟩ := exists_known hfields hmembers
      refine ⟨known, ?_, hvalues⟩
      change r.decodeObject .root (Members.ofList known) = .ok x
      rw [decodeObject, hknown]
      exact hobject
  intro f hf
  have hvalue := hvalues f hf
  have hreads := (h.decodeJson_object_iff.1 hknown f hf).2
  cases hdraft : members.get? f.name with
  | none =>
    rw [hdraft, Option.map_none, eq_comm, Option.map_eq_none_iff] at hvalue
    rw [Members.value?, hdraft]
    rw [hvalue] at hreads
    refine ⟨hreads, fun d hd => ?_⟩
    cases hd
  | some d =>
    rw [hdraft, Option.map_some, eq_comm, Option.map_eq_some_iff] at hvalue
    obtain ⟨j, hj, hany⟩ := hvalue
    rw [Members.value?, hdraft, Option.bind_some, ← hany]
    rw [hj] at hreads
    refine ⟨hreads, fun d' hd' => ⟨j, ?_⟩⟩
    cases hd'
    exact hany.symm

end Record

/-- The JSON values of members have JSON numbers if the members have. -/
theorem Members.legal_of_value? {place : Reading} {name : String} {j : Json} :
    ∀ {members : Members}, members.Legal → members.value? place name = some j → j.Legal
  | .close, _, h | .keyless _, _, h | .bare _ _, _, h | .broken _ _, _, h => by cases h
  | .cons (.error _) _ tail, hlegal, h => legal_of_value? hlegal.2 h
  | .cons (.ok key) value tail, hlegal, h => by
    by_cases hkey : key = name
    · rw [value?, get?_cons, if_pos hkey, Option.bind_some] at h
      cases hany : Codec.any.decode place value with
      | error e =>
        rw [hany] at h
        cases h
      | ok j' =>
        rw [hany] at h
        cases h
        exact Codec.legal_of_decodeAny hlegal.1 hany
    · rw [value?, get?_cons, if_neg hkey] at h
      exact legal_of_value? hlegal.2 h

end FinanceGateway.Json
