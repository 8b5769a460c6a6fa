import FinanceGateway.Json.Record
import FinanceGateway.Proofs.Json.Codecs

/-!
# Laws of records

The fields of a lawful record type are its coordinates: each is set by itself and seen by itself,
and all of them together make the record. Then an object is read field by field, whatever the order
of its members and whatever other members it has (`Record.Lawful.decodeJson_object_iff`). From this
follow that the codec of a record type is lawful if those of its fields are (`Record.Lawful.codec`),
and what is read when members are taken away (`Record.Lawful.decodeJson_of_lacking`).
-/

namespace FinanceGateway.Json

/-! ## Values that are passed over -/

mutual

/-- A value that is no text has no flaw. -/
theorem Draft.skim_ofJson : ∀ j, (Draft.ofJson j).skim = .ok ()
  | .null | .bool _ | .number _ | .text _ => rfl
  | .array items => Items.skim_ofList items
  | .object members => Members.skim_ofList members

theorem Items.skim_ofList : ∀ items, (Items.ofList items).skim = .ok ()
  | [] => rfl
  | item :: rest => by rw [Items.ofList, Items.skim, Draft.skim_ofJson item, Items.skim_ofList rest]

theorem Members.skim_ofList : ∀ members, (Members.ofList members).skim = .ok ()
  | [] => rfl
  | (_, value) :: rest => by
    rw [Members.ofList, Members.skim, Draft.skim_ofJson value, Members.skim_ofList rest]

end

variable {σ : Type}

namespace Field

/-- Neither of two fields sees what the other sets. -/
def Apart (f g : Field σ) : Prop :=
  (∀ v s, f.get (g.set v s) = f.get s) ∧ ∀ v s, g.get (f.set v s) = g.get s

/-- Read onto a record, the member of a field gives the value of the field, and none leaves it. -/
def Follows (f : Field σ) (s x : σ) : Option Json → Prop
  | some j => f.codec.decodeJson j = .ok (f.get x)
  | none => f.get x = f.get s

/-- The member of a field gives its value, and where it has none the value is the initial one. -/
def Reads (f : Field σ) (initial x : σ) (member : Option Json) : Prop :=
  f.Follows initial x member ∧ (member = none → f.missing ≠ .required)

/-- A field does not occur more often among members than it may, given the names seen before. -/
def Once (f : Field σ) (seen : List String) (members : List (String × Json)) : Prop :=
  (members.map (·.1)).count f.name ≤ if f.name ∈ seen then 0 else 1

end Field

namespace Record

variable {r : Record σ} {f g : Field σ}

/-- The fields of a record type are its coordinates. -/
structure Lawful (r : Record σ) : Prop where
  names : (r.fields.map (·.name)).Nodup
  get_set : ∀ f ∈ r.fields, ∀ v s, f.get (f.set v s) = v
  apart : r.fields.Pairwise Field.Apart
  ext : ∀ {s t}, (∀ f ∈ r.fields, f.get s = f.get t) → s = t

/-! ## Coordinates -/

/-- A field does not see what another sets. -/
theorem Lawful.get_set_of_ne (h : r.Lawful) (hf : f ∈ r.fields) (hg : g ∈ r.fields)
    (hne : f.name ≠ g.name) (v : g.Value) (s : σ) : f.get (g.set v s) = f.get s := by
  have : Std.Symm (Field.Apart (σ := σ)) := ⟨fun _ _ happart => happart.symm⟩
  exact (h.apart.forall hf hg fun heq => hne (congrArg Field.name heq)).1 v s

/-- A field that is found by a name is one of the record type, with that name. -/
theorem mem_of_field? {key : String} (h : r.field? key = some f) : f ∈ r.fields ∧ f.name = key :=
  ⟨List.mem_of_find?_eq_some h, by simpa using List.find?_some h⟩

/-- No field is found by a name that no field has. -/
theorem name_ne_of_field? {key : String} (h : r.field? key = none) (hf : f ∈ r.fields) :
    key ≠ f.name := by
  rintro rfl
  have := List.find?_eq_none.1 h f hf
  simp at this

/-! ## Objects -/

section Members

variable {key : String} {value : Json} {members : List (String × Json)} {seen : List String} {s : σ}

/-- A member that no field has is passed over. -/
theorem decodeMembers_of_unknown (hfield : r.field? key = none) :
    r.decodeMembers .root (Members.ofList ((key, value) :: members)) seen s =
      r.decodeMembers .root (Members.ofList members) seen s := by
  simp only [Members.ofList, decodeMembers, hfield, Draft.skim_ofJson]

/-- A field that occurs again is a fault. -/
theorem decodeMembers_of_seen (hfield : r.field? key = some f) (hseen : key ∈ seen) :
    r.decodeMembers .root (Members.ofList ((key, value) :: members)) seen s =
      failure (.duplicateField key) := by
  simp only [Members.ofList, decodeMembers, hfield, hseen, if_true]

/-- A field whose value is not read is a fault. -/
theorem decodeMembers_of_error {e : DecodeError} (hfield : r.field? key = some f)
    (hseen : key ∉ seen) (hvalue : f.codec.decodeJson value = .error e) :
    r.decodeMembers .root (Members.ofList ((key, value) :: members)) seen s =
      .error ⟨.field key :: e.path, e.cause⟩ := by
  have hread : f.codec.decode .root (Draft.ofJson value) = .error e := hvalue
  simp only [Members.ofList, decodeMembers, hfield, hseen, if_false, Field.decode, hread,
    Except.map, Decoded.at]

/-- A field whose value is read is set. -/
theorem decodeMembers_of_ok {v : f.Value} (hfield : r.field? key = some f) (hseen : key ∉ seen)
    (hvalue : f.codec.decodeJson value = .ok v) :
    r.decodeMembers .root (Members.ofList ((key, value) :: members)) seen s =
      r.decodeMembers .root (Members.ofList members) (key :: seen) (f.set v s) := by
  have hread : f.codec.decode .root (Draft.ofJson value) = .ok v := hvalue
  simp only [Members.ofList, decodeMembers, hfield, hseen, if_false, Field.decode, hread,
    Except.map, Decoded.at]

end Members

/-- What members that follow say of the field that was just set: they do not have it, and it keeps
the value that it was given. -/
theorem Lawful.follows_set_self (h : r.Lawful) (hf : f ∈ r.fields) {value : Json} {v : f.Value}
    {members : List (String × Json)} {seen : List String} {s x : σ} (hseen : f.name ∉ seen)
    (hvalue : f.codec.decodeJson value = .ok v) :
    f.Once (f.name :: seen) members ∧
        f.Follows (f.set v s) x (Dictionary.get? members f.name) ↔
      f.Once seen ((f.name, value) :: members) ∧ f.Follows s x (some value) := by
  rw [Field.Once, Field.Once, if_pos (List.mem_cons_self ..), if_neg hseen, List.map_cons,
    List.count_cons_self, Nat.add_le_add_iff_right]
  refine and_congr_right fun hzero => ?_
  have hnone : Dictionary.get? members f.name = none :=
    Dictionary.get?_eq_none_iff.2 (List.count_eq_zero.1 (Nat.le_zero.1 hzero))
  rw [hnone, Field.Follows, Field.Follows, h.get_set f hf, hvalue, Except.ok.injEq, eq_comm]

/-- What members say of a field is the same before and after another field was set. -/
theorem Lawful.follows_set_of_ne (h : r.Lawful) (hf : f ∈ r.fields) (hg : g ∈ r.fields)
    (hne : f.name ≠ g.name) {value : Json} {v : g.Value} {members : List (String × Json)}
    {seen : List String} {s x : σ} {member : Option Json} :
    f.Once (g.name :: seen) members ∧ f.Follows (g.set v s) x member ↔
      f.Once seen ((g.name, value) :: members) ∧ f.Follows s x member := by
  have hsame : f.name ∈ g.name :: seen ↔ f.name ∈ seen := by simp [hne]
  rw [Field.Once, Field.Once, List.map_cons, List.count_cons_of_ne hne.symm,
    if_congr hsame rfl rfl]
  cases member with
  | none => rw [Field.Follows, Field.Follows, h.get_set_of_ne hf hg hne]
  | some j => rfl

/-- Members are read onto a record field by field. -/
theorem Lawful.decodeMembers_iff (h : r.Lawful) {members : List (String × Json)}
    {seen : List String} {s x : σ} :
    (∃ seen', r.decodeMembers .root (Members.ofList members) seen s = .ok (seen', x)) ↔
      ∀ f ∈ r.fields, f.Once seen members ∧ f.Follows s x (Dictionary.get? members f.name) := by
  induction members generalizing seen s with
  | nil =>
    constructor
    · rintro ⟨seen', hx⟩
      cases hx
      exact fun f hf => ⟨Nat.zero_le _, rfl⟩
    · intro hall
      exact ⟨seen, by rw [h.ext fun f hf => (hall f hf).2]; rfl⟩
  | cons member members ih =>
    obtain ⟨key, value⟩ := member
    cases hfield : r.field? key with
    | none =>
      rw [decodeMembers_of_unknown hfield, ih]
      refine forall₂_congr fun f hf => ?_
      have hne := name_ne_of_field? hfield hf
      rw [Dictionary.get?_cons, if_neg hne, Field.Once, Field.Once, List.map_cons,
        List.count_cons_of_ne hne]
    | some g =>
      obtain ⟨hg, rfl⟩ := mem_of_field? hfield
      by_cases hseen : g.name ∈ seen
      · -- The field occurs again, which is a fault and more than it may.
        rw [decodeMembers_of_seen hfield hseen]
        refine ⟨nofun, fun hall => ?_⟩
        have honce := (hall g hg).1
        rw [Field.Once, if_pos hseen, List.map_cons, List.count_cons_self] at honce
        exact absurd honce (Nat.not_succ_le_zero _)
      · cases hvalue : g.codec.decodeJson value with
        | error e =>
          rw [decodeMembers_of_error hfield hseen hvalue]
          refine ⟨nofun, fun hall => ?_⟩
          have hfollows := (hall g hg).2
          rw [Dictionary.get?_cons, if_pos rfl, Field.Follows, hvalue] at hfollows
          cases hfollows
        | ok v =>
          rw [decodeMembers_of_ok hfield hseen hvalue, ih]
          refine forall₂_congr fun f hf => ?_
          rw [Dictionary.get?_cons]
          by_cases hname : f.name = g.name
          · obtain rfl := List.inj_on_of_nodup_map h.names hf hg hname
            rw [if_pos rfl]
            exact h.follows_set_self hf hseen hvalue
          · rw [if_neg (Ne.symm hname)]
            exact h.follows_set_of_ne hf hg hname

/-- The names that are seen are those of fields that occur. -/
theorem mem_seen_iff {members : List (String × Json)} {seen seen' : List String} {s x : σ}
    (hf : f ∈ r.fields)
    (hx : r.decodeMembers .root (Members.ofList members) seen s = .ok (seen', x)) :
    f.name ∈ seen' ↔ f.name ∈ seen ∨ f.name ∈ members.map (·.1) := by
  induction members generalizing seen s with
  | nil =>
    cases hx
    simp
  | cons member members ih =>
    obtain ⟨key, value⟩ := member
    rw [List.map_cons, List.mem_cons]
    cases hfield : r.field? key with
    | none =>
      rw [decodeMembers_of_unknown hfield] at hx
      rw [ih hx, eq_false (name_ne_of_field? hfield hf).symm, false_or]
    | some g =>
      by_cases hseen : key ∈ seen
      · rw [decodeMembers_of_seen hfield hseen] at hx
        cases hx
      cases hvalue : g.codec.decodeJson value with
      | error e =>
        rw [decodeMembers_of_error hfield hseen hvalue] at hx
        cases hx
      | ok v =>
        rw [decodeMembers_of_ok hfield hseen hvalue] at hx
        rw [ih hx, List.mem_cons]
        tauto

/-- No required field is missing among the names that are seen. -/
theorem missing?_eq_none_iff {seen : List String} :
    r.missing? seen = none ↔ ∀ f ∈ r.fields, f.name ∉ seen → f.missing ≠ .required := by
  rw [missing?, List.find?_eq_none]
  refine forall₂_congr fun f _ => ?_
  rw [Bool.and_eq_true, beq_iff_eq, Bool.not_eq_true', List.contains_eq_mem,
    decide_eq_false_iff_not]
  tauto

/-- An object is read field by field: no field occurs twice, and each is what its member says. -/
theorem Lawful.decodeJson_object_iff (h : r.Lawful) {members : List (String × Json)} {x : σ} :
    r.codec.decodeJson (.object members) = .ok x ↔
      ∀ f ∈ r.fields, (members.map (·.1)).count f.name ≤ 1 ∧
        f.Reads r.initial x (Dictionary.get? members f.name) := by
  change r.decodeObject .root (Members.ofList members) = .ok x ↔ _
  have hunseen : ∀ {seen s}, r.decodeMembers .root (Members.ofList members) [] r.initial =
      .ok (seen, s) → ∀ f ∈ r.fields, f.name ∉ seen ↔ Dictionary.get? members f.name = none := by
    intro seen s hm f hf
    rw [mem_seen_iff hf hm, Dictionary.get?_eq_none_iff]
    simp
  constructor
  · intro hx f hf
    unfold decodeObject at hx
    split at hx
    · cases hx
    · next seen s hm =>
      split at hx
      · cases hx
      · next hmissing =>
        cases hx
        obtain ⟨honce, hfollows⟩ := h.decodeMembers_iff.1 ⟨seen, hm⟩ f hf
        rw [Field.Once, if_neg List.not_mem_nil] at honce
        refine ⟨honce, hfollows, fun hnone => ?_⟩
        exact missing?_eq_none_iff.1 hmissing f hf ((hunseen hm f hf).2 hnone)
  · intro hall
    obtain ⟨seen, hm⟩ := h.decodeMembers_iff.2 fun f hf =>
      ⟨by rw [Field.Once, if_neg List.not_mem_nil]; exact (hall f hf).1, (hall f hf).2.1⟩
    have hmissing : r.missing? seen = none := missing?_eq_none_iff.2 fun f hf hnot =>
      (hall f hf).2.2 ((hunseen hm f hf).1 hnot)
    rw [decodeObject, hm]
    simp only [hmissing]

/-! ## Arrays -/

/-- From an array, each field is left as it was or read from an item. -/
theorem Lawful.get_of_decodeItems (h : r.Lawful) {fields : List (Field σ)} {items : List Json}
    {i : Nat} {s x : σ} (hfields : ∀ g ∈ fields, g ∈ r.fields) (hf : f ∈ r.fields)
    (hx : r.decodeItems .root fields i (Items.ofList items) s = .ok x) :
    f.get x = f.get s ∨ ∃ item ∈ items, f.codec.decodeJson item = .ok (f.get x) := by
  induction fields generalizing items i s with
  | nil =>
    cases items with
    | nil =>
      cases hx
      exact .inl rfl
    | cons => cases hx
  | cons g fields ih =>
    obtain ⟨hg, hfields⟩ := List.forall_mem_cons.1 hfields
    cases items with
    | nil =>
      rw [Items.ofList, decodeItems] at hx
      split at hx
      · have hrest : r.decodeItems .root fields (i + 1) (Items.ofList []) s = .ok x := hx
        exact ih hfields hrest
      · cases hx
    | cons item items =>
      have hread : g.decode .root (Draft.ofJson item) = (g.codec.decodeJson item).map g.set := rfl
      rw [Items.ofList, decodeItems, hread] at hx
      cases hitem : g.codec.decodeJson item with
      | error e =>
        rw [hitem] at hx
        cases hx
      | ok v =>
        rw [hitem] at hx
        rcases ih hfields hx with hsame | ⟨item', hitem', hdecode⟩
        · by_cases hname : f.name = g.name
          · obtain rfl := List.inj_on_of_nodup_map h.names hf hg hname
            rw [h.get_set f hf] at hsame
            exact .inr ⟨item, .head _, by rw [hitem, hsame]⟩
          · exact .inl (hsame.trans (h.get_set_of_ne hf hg hname v s))
        · exact .inr ⟨item', .tail _ hitem', hdecode⟩

/-- An array is read as well when the members of objects in its items are put in order. -/
theorem decodeItems_sorted {fields : List (Field σ)} {items : List Json} {i : Nat} {s x : σ}
    (hlawful : ∀ g ∈ fields, g.codec.Lawful)
    (hx : r.decodeItems .root fields i (Items.ofList items) s = .ok x) :
    r.decodeItems .root fields i (Items.ofList (items.map sorted)) s = .ok x := by
  induction fields generalizing items i s with
  | nil =>
    cases items with
    | nil => exact hx
    | cons => cases hx
  | cons g fields ih =>
    obtain ⟨hg, hlawful⟩ := List.forall_mem_cons.1 hlawful
    cases items with
    | nil => exact hx
    | cons item items =>
      have hread : ∀ item, g.decode .root (Draft.ofJson item) =
          (g.codec.decodeJson item).map g.set := fun _ => rfl
      rw [Items.ofList, decodeItems, hread] at hx
      rw [List.map_cons, Items.ofList, decodeItems, hread]
      cases hitem : g.codec.decodeJson item with
      | error e =>
        rw [hitem] at hx
        cases hx
      | ok v =>
        rw [hitem] at hx
        rw [hg.sorted hitem]
        exact ih hlawful hx

/-! ## Encodings -/

/-- The members that an encoding has are fields of the record type, each once. -/
theorem Lawful.count_encodeFields (h : r.Lawful) (x : σ) (name : String) :
    ((r.encodeFields x).map (·.1)).count name ≤ 1 := by
  have hsublist : ∀ fields : List (Field σ),
      ((fields.filterMap fun f => (f.encode x).map fun j => (f.name, j)).map (·.1)).Sublist
        (fields.map (·.name)) := by
    intro fields
    induction fields with
    | nil => exact .slnil
    | cons g fields ih =>
      rw [List.filterMap_cons]
      cases g.encode x with
      | none => exact ih.cons _
      | some j => exact ih.cons_cons _
  exact List.nodup_iff_count_le_one.1 (h.names.sublist (hsublist r.fields)) name

/-- The member of a field in an encoding is the encoding of its value, unless it is left out. -/
theorem Lawful.get?_encodeFields (h : r.Lawful) (hf : f ∈ r.fields) (x : σ) :
    Dictionary.get? (r.encodeFields x) f.name = f.encode x := by
  have hnodup := List.nodup_iff_count_le_one.2 (h.count_encodeFields x)
  cases hencode : f.encode x with
  | some j =>
    refine Dictionary.get?_of_mem hnodup (List.mem_filterMap.2 ⟨f, hf, ?_⟩)
    rw [hencode]
    rfl
  | none =>
    rw [Dictionary.get?_eq_none_iff]
    intro hmem
    obtain ⟨member, hmember, hname⟩ := List.mem_map.1 hmem
    obtain ⟨g, hg, hencoded⟩ := List.mem_filterMap.1 hmember
    obtain ⟨j, hj, rfl⟩ := Option.map_eq_some_iff.1 hencoded
    obtain rfl := List.inj_on_of_nodup_map h.names hg hf hname
    rw [hencode] at hj
    cases hj

end Record

/-- A field whose value goes through the wire: its codec is lawful, the initial value goes through
its encoding, and a value is left out only if it is the initial one and the field may be missing. -/
structure Field.Sound (initial : σ) (f : Field σ) : Prop where
  lawful : f.codec.Lawful
  roundTrips : f.codec.RoundTrips (f.get initial)
  omits : ∀ v, f.absent v = true → v = f.get initial ∧ f.missing ≠ .required

namespace Field

variable {α : Type} {c : Codec α} {initial : σ} {missing : Missing} {name : String}

/-- The value of a field goes through its encoding. -/
def Carries (f : Field σ) (x : σ) : Prop :=
  f.codec.RoundTrips (f.get x)

section Carries

variable {absent : α → Bool} {get : σ → α} {set : α → σ → σ} {get' : σ → Option α}
  {set' : Option α → σ → σ} {x : σ}

@[simp] theorem carries_omitting :
    (omitting absent missing name c get set).Carries x ↔ c.RoundTrips (get x) := Iff.rfl

@[simp] theorem carries_required :
    (required name c get set).Carries x ↔ c.RoundTrips (get x) := Iff.rfl

@[simp] theorem carries_defaulted :
    (defaulted name c get set).Carries x ↔ c.RoundTrips (get x) := Iff.rfl

@[simp] theorem carries_optional :
    (optional name c get' set').Carries x ↔ c.optional.RoundTrips (get' x) := Iff.rfl

@[simp] theorem carries_nullable :
    (nullable name c get' set').Carries x ↔ c.optional.RoundTrips (get' x) := Iff.rfl

@[simp] theorem carries_sparse :
    (sparse name c get' set').Carries x ↔ c.optional.RoundTrips (get' x) := Iff.rfl

@[simp] theorem carries_sparseDefaulted :
    (sparseDefaulted name c get' set').Carries x ↔ c.optional.RoundTrips (get' x) := Iff.rfl

end Carries

/-- The value of a field goes through the wire if it is the initial one or was read from JSON. -/
theorem Sound.carries {f : Field σ} {x : σ} {member : Option Json} (h : f.Sound initial)
    (hlegal : ∀ j, member = some j → Legal j) (hfollows : f.Follows initial x member) :
    f.Carries x := by
  cases member with
  | none =>
    have hsame : f.get x = f.get initial := hfollows
    rw [Carries, hsame]
    exact h.roundTrips
  | some j => exact h.lawful.again (hlegal j rfl) hfollows

/-- A field that is always written. -/
theorem sound_written [c.Lawful] {get : σ → α} {set : α → σ → σ} (h : c.RoundTrips (get initial)) :
    (written missing name c get set).Sound initial :=
  ⟨‹_›, h, nofun⟩

/-- An optional field that is left out when absent. -/
theorem sound_sparse [c.Lawful] [c.RejectsNull] {get : σ → Option α} {set : Option α → σ → σ}
    (hmissing : missing ≠ .required) (h : get initial = none) :
    (omitting Option.isNone missing name c.optional get set).Sound initial where
  lawful := inferInstanceAs c.optional.Lawful
  roundTrips := by
    change c.optional.RoundTrips (get initial)
    rw [h]
    exact Codec.roundTrips_optional_iff.2 fun _ hnone => by cases hnone
  omits v hv := ⟨(Option.isNone_iff_eq_none.1 hv).trans h.symm, hmissing⟩

/-- A map that is left out when empty. -/
theorem sound_map [c.Lawful] {get : σ → Dictionary α} {set : Dictionary α → σ → σ}
    (hmissing : missing ≠ .required) (h : get initial = []) :
    (omitting List.isEmpty missing name c.map get set).Sound initial where
  lawful := inferInstanceAs c.map.Lawful
  roundTrips := by
    change c.map.RoundTrips (get initial)
    rw [h]
    exact Codec.roundTrips_map .nil nofun
  omits v hv := ⟨(List.isEmpty_iff.1 hv).trans h.symm, hmissing⟩

end Field

namespace Record

variable {r : Record σ} {f : Field σ}

/-- A record goes through its encoding if the values of its fields do. -/
theorem Lawful.roundTrips (h : r.Lawful) (hsound : ∀ f ∈ r.fields, f.Sound r.initial) {x : σ}
    (hx : ∀ f ∈ r.fields, f.Carries x) : r.codec.RoundTrips x := by
  refine h.decodeJson_object_iff.2 fun f hf => ⟨h.count_encodeFields x f.name, ?_⟩
  rw [h.get?_encodeFields hf, Field.encode]
  split
  · next habsent =>
    obtain ⟨hinitial, hmissing⟩ := (hsound f hf).omits _ habsent
    exact ⟨hinitial, fun _ => hmissing⟩
  · exact ⟨hx f hf, nofun⟩

/-- The codec of a record type is lawful if those of its fields are. -/
theorem Lawful.codec (h : r.Lawful) (hsound : ∀ f ∈ r.fields, f.Sound r.initial) :
    r.codec.Lawful where
  again := by
    intro j x hlegal hx
    refine h.roundTrips hsound fun f hf => ?_
    -- The value of a field is the initial one or was read from a JSON value.
    obtain ⟨member, hmember, hfollows⟩ : ∃ member, (∀ v, member = some v → Legal v) ∧
        f.Follows r.initial x member := by
      cases j with
      | array items =>
        rw [legal_array_iff] at hlegal
        rcases h.get_of_decodeItems (fun _ hg => hg) hf hx with hsame | ⟨item, hitem, hread⟩
        · exact ⟨none, nofun, hsame⟩
        · refine ⟨some item, ?_, hread⟩
          rintro _ ⟨⟩
          exact hlegal item hitem
      | object members =>
        rw [legal_object_iff] at hlegal
        refine ⟨Dictionary.get? members f.name, fun v hv => ?_, ?_⟩
        · exact hlegal _ (Dictionary.mem_of_get? hv)
        · exact (h.decodeJson_object_iff.1 hx f hf).2.1
      | _ => cases hx
    exact (hsound f hf).carries hmember hfollows
  sorted := by
    intro j x hx
    cases j with
    | array items =>
      rw [sorted_array]
      exact decodeItems_sorted (fun f hf => (hsound f hf).lawful) hx
    | object members =>
      rw [sorted_object, h.decodeJson_object_iff]
      intro f hf
      obtain ⟨honce, hfollows, hmissing⟩ := h.decodeJson_object_iff.1 hx f hf
      have hnodup := (Dictionary.sorted_ofList (members.map fun m => (m.1, m.2.sorted))).nodup
      have honce' : ((members.map fun m => (m.1, m.2.sorted)).map (·.1)).count f.name ≤ 1 := by
        rwa [List.map_map]
      refine ⟨List.nodup_iff_count_le_one.1 hnodup f.name, ?_⟩
      rw [Dictionary.get?_ofList honce', Dictionary.get?_map]
      cases hget : Dictionary.get? members f.name with
      | none =>
        rw [hget] at hfollows hmissing
        exact ⟨hfollows, fun _ => hmissing rfl⟩
      | some v =>
        rw [hget] at hfollows
        exact ⟨(hsound f hf).lawful.sorted hfollows, nofun⟩
    | _ => cases hx

instance : r.codec.RejectsNull := ⟨_, rfl⟩

/-! ## Members that are taken away -/

/-- A record with the initial values in the fields whose names are lacking. -/
def reset (r : Record σ) (lacking : String → Bool) (x : σ) : σ :=
  r.fields.foldl (fun s f => if lacking f.name then f.set (f.get r.initial) s else s) x

/-- A field keeps its value while others are reset, and if its own name is not lacking. -/
theorem Lawful.get_foldl_kept (h : r.Lawful) (hf : f ∈ r.fields) {lacking : String → Bool}
    {fields : List (Field σ)} (hfields : ∀ g ∈ fields, g ∈ r.fields)
    (hkept : lacking f.name = false ∨ f ∉ fields) (s : σ) :
    f.get (fields.foldl (fun s f => if lacking f.name then f.set (f.get r.initial) s else s) s) =
      f.get s := by
  induction fields generalizing s with
  | nil => rfl
  | cons g fields ih =>
    obtain ⟨hg, hfields⟩ := List.forall_mem_cons.1 hfields
    rw [List.foldl_cons, ih hfields (hkept.imp_right fun hnot hmem => hnot (.tail _ hmem))]
    split
    · next hlacking =>
      refine h.get_set_of_ne hf hg (fun hname => ?_) _ _
      obtain rfl := List.inj_on_of_nodup_map h.names hf hg hname
      rcases hkept with hkept | hkept
      · rw [hkept] at hlacking
        cases hlacking
      · exact hkept (.head _)
    · rfl

/-- A field whose name is lacking is reset, and any other is as it was. -/
theorem Lawful.get_reset (h : r.Lawful) (lacking : String → Bool) (x : σ) (hf : f ∈ r.fields) :
    f.get (r.reset lacking x) = if lacking f.name then f.get r.initial else f.get x := by
  split
  · next hlacking =>
    -- When its turn comes the field gets the initial value, and keeps it while those after it are
    -- reset, which are other fields.
    obtain ⟨front, back, hsplit⟩ := List.append_of_mem hf
    have hnot : f ∉ back := by
      have hnames := h.names
      rw [hsplit, List.map_append, List.map_cons] at hnames
      exact fun hmem => (List.nodup_cons.1 hnames.of_append_right).1 (List.mem_map_of_mem hmem)
    have hback : ∀ g ∈ back, g ∈ r.fields := fun g hg => by
      rw [hsplit]
      exact List.mem_append_right _ (.tail _ hg)
    have hinitial : ∀ s, f.get (f.set (f.get r.initial) s) = f.get r.initial := h.get_set f hf _
    rw [reset, hsplit, List.foldl_append, List.foldl_cons,
      h.get_foldl_kept hf hback (.inr hnot), if_pos hlacking, hinitial]
  · next hlacking =>
    exact h.get_foldl_kept hf (fun _ hg => hg) (.inl (Bool.eq_false_iff.2 hlacking)) x

/-- An object that lacks members of another, and is otherwise the same in all fields, is read as the
other with the initial values in the lacking fields. -/
theorem Lawful.decodeJson_of_lacking (h : r.Lawful)
    (hoptional : ∀ f ∈ r.fields, f.missing ≠ .required)
    {members members' : List (String × Json)} {x : σ}
    (hx : r.codec.decodeJson (.object members) = .ok x)
    (honce : ∀ f ∈ r.fields, (members'.map (·.1)).count f.name ≤ 1)
    (hless : ∀ f ∈ r.fields, Dictionary.get? members' f.name = Dictionary.get? members f.name ∨
      Dictionary.get? members' f.name = none) :
    r.codec.decodeJson (.object members') =
      .ok (r.reset (fun name => (Dictionary.get? members' name).isNone) x) := by
  refine h.decodeJson_object_iff.2 fun f hf => ⟨honce f hf, ?_, fun _ => hoptional f hf⟩
  have hreset := h.get_reset (fun name => (Dictionary.get? members' name).isNone) x hf
  cases hget : Dictionary.get? members' f.name with
  | none =>
    rw [hget] at hreset
    exact hreset
  | some j =>
    rw [hget] at hreset
    have hfollows := (h.decodeJson_object_iff.1 hx f hf).2.1
    rw [← (hless f hf).resolve_right (by rw [hget]; nofun), hget] at hfollows
    rw [Field.Follows, hreset]
    exact hfollows

end Record

end FinanceGateway.Json
