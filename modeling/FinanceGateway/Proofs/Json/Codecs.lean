import FinanceGateway.Json.Codec
import FinanceGateway.Proofs.Decimal.Whole
import FinanceGateway.Proofs.Dictionary
import FinanceGateway.Proofs.Outcome

/-!
# Laws of codecs

Each basic codec has an equivalence that says which JSON values it reads, and as what
(`Codec.decodeJson_text_iff` and its like). The laws follow from these. A `Codec.Lawful` codec reads
what it has read from a JSON value again from its own encoding, and does not mind the order of the
members of objects. Which values go through their encoding unchanged is said by
`Codec.roundTrips_text` and its like: all that are in the range of their type, floats if finite.
-/

namespace FinanceGateway

/-- A JSON number: an integer of 64 bits, signed or not, or a finite binary64 number. -/
def Number.Legal : Number → Prop
  | .int i => -2 ^ 63 ≤ i ∧ i < 2 ^ 64
  | .real x => x.isFinite = true

namespace Json

/-! ## Numbers and members of values -/

mutual

/-- The numbers in a value are JSON numbers. -/
def Legal : Json → Prop
  | .number n => n.Legal
  | .array items => LegalItems items
  | .object members => LegalMembers members
  | .null | .bool _ | .text _ => True

/-- `Legal` over the items of an array. -/
def LegalItems : List Json → Prop
  | [] => True
  | item :: rest => Legal item ∧ LegalItems rest

/-- `Legal` over the members of an object. -/
def LegalMembers : List (String × Json) → Prop
  | [] => True
  | (_, value) :: rest => Legal value ∧ LegalMembers rest

end

theorem legal_array_iff {items : List Json} :
    Legal (.array items) ↔ ∀ item ∈ items, Legal item := by
  rw [Legal]
  induction items with
  | nil => simp [LegalItems]
  | cons item items ih => rw [LegalItems, ih, List.forall_mem_cons]

theorem legal_object_iff {members : List (String × Json)} :
    Legal (.object members) ↔ ∀ member ∈ members, Legal member.2 := by
  rw [Legal]
  induction members with
  | nil => simp [LegalMembers]
  | cons member members ih => rw [LegalMembers, ih, List.forall_mem_cons]

@[simp] theorem sorted_null : sorted .null = .null := by simp [sorted]

@[simp] theorem sorted_bool (b : Bool) : sorted (.bool b) = .bool b := by simp [sorted]

@[simp] theorem sorted_number (n : Number) : sorted (.number n) = .number n := by simp [sorted]

@[simp] theorem sorted_text (s : String) : sorted (.text s) = .text s := by simp [sorted]

theorem sorted_array (items : List Json) : sorted (.array items) = .array (items.map sorted) := by
  have hitems : sortedItems items = items.map sorted := by
    induction items with
    | nil => rfl
    | cons item items ih => rw [sortedItems, ih, List.map_cons]
  rw [sorted, hitems]

theorem sorted_object (members : List (String × Json)) :
    sorted (.object members) =
      .object (Dictionary.ofList (members.map fun m => (m.1, sorted m.2))) := by
  have hmembers : sortedMembers members = members.map fun m => (m.1, sorted m.2) := by
    induction members with
    | nil => rfl
    | cons member members ih => rw [sortedMembers, ih, List.map_cons]
  rw [sorted, hmembers, ofMembers]

/-! ## Which values are read -/

/-- The place of a value that is no text. -/
abbrev Reading.root : Reading :=
  ⟨.value, Codec.depthLimit⟩

namespace Codec

variable {α : Type} {c : Codec α} {j : Json}

theorem decodeJson_text_iff {s : String} : text.decodeJson j = .ok s ↔ j = .text s := by
  cases j with
  | text t => exact ⟨fun h => by cases h; rfl, fun h => by cases h; rfl⟩
  | _ => exact ⟨nofun, nofun⟩

theorem decodeJson_flag_iff {b : Bool} : flag.decodeJson j = .ok b ↔ j = .bool b := by
  cases j with
  | bool a => exact ⟨fun h => by cases h; rfl, fun h => by cases h; rfl⟩
  | _ => exact ⟨nofun, nofun⟩

theorem decodeJson_real_iff {x : Float} :
    real.decodeJson j = .ok x ↔
      j = .number (.real x) ∨ ∃ i, j = .number (.int i) ∧ x = Float.ofInt i := by
  cases j with
  | number n =>
    cases n with
    | real y =>
      constructor
      · intro h
        cases h
        exact .inl rfl
      · rintro (h | ⟨i, h, -⟩) <;> cases h
        rfl
    | int i =>
      constructor
      · intro h
        cases h
        exact .inr ⟨i, rfl, rfl⟩
      · rintro (h | ⟨i, h, rfl⟩) <;> cases h
        rfl
  | _ => exact ⟨nofun, by rintro (h | ⟨i, h, -⟩) <;> cases h⟩

theorem decodeJson_integer_iff {expected : String} {low high i : Int} :
    (integer expected low high).decodeJson j = .ok i ↔ j = .int i ∧ low ≤ i ∧ i ≤ high := by
  cases j with
  | number n =>
    cases n with
    | real y => exact ⟨nofun, by rintro ⟨h, -⟩; cases h⟩
    | int k =>
      change (if low ≤ k && k ≤ high then (.ok k : Decoded Int) else
        failure (.outOfRange k expected)) = .ok i ↔ _
      constructor
      · intro h
        split at h
        · next hrange =>
          cases h
          exact ⟨rfl, by simpa using hrange⟩
        · cases h
      · rintro ⟨h, hrange⟩
        cases h
        exact if_pos (by simpa using hrange)
  | _ => exact ⟨nofun, by rintro ⟨h, -⟩; cases h⟩

theorem decodeJson_natural_iff {expected : String} {bits n : Nat} :
    (natural expected bits).decodeJson j = .ok n ↔ j = .int n ∧ n < 2 ^ bits := by
  change ((integer expected 0 (Nat.pow 2 bits - 1)).decodeJson j).map Int.toNat = .ok n ↔ _
  have hpow : ((Nat.pow 2 bits : Nat) : Int) = ((2 ^ bits : Nat) : Int) := rfl
  rw [map_eq_ok_iff]
  constructor
  · rintro ⟨i, hi, rfl⟩
    obtain ⟨rfl, hlow, hhigh⟩ := decodeJson_integer_iff.1 hi
    exact ⟨by rw [Int.toNat_of_nonneg hlow], by omega⟩
  · rintro ⟨rfl, hlt⟩
    exact ⟨n, decodeJson_integer_iff.2 ⟨rfl, by omega, by omega⟩, rfl⟩

theorem decodeJson_optional_iff {x : Option α} :
    c.optional.decodeJson j = .ok x ↔
      j = .null ∧ x = none ∨ j ≠ .null ∧ ∃ a, c.decodeJson j = .ok a ∧ x = some a := by
  have hother : j ≠ .null → c.optional.decodeJson j = (c.decodeJson j).map some := by
    intro hj
    cases j with
    | null => exact absurd rfl hj
    | _ => rfl
  by_cases hj : j = .null
  · subst hj
    constructor
    · intro h
      cases h
      exact .inl ⟨rfl, rfl⟩
    · rintro (⟨-, rfl⟩ | ⟨h, -⟩)
      · rfl
      · exact absurd rfl h
  · rw [hother hj, map_eq_ok_iff]
    constructor
    · rintro ⟨a, ha, rfl⟩
      exact .inr ⟨hj, a, ha, rfl⟩
    · rintro (⟨h, -⟩ | ⟨-, a, ha, rfl⟩)
      · exact absurd h hj
      · exact ⟨a, ha, rfl⟩

theorem decodeItems_ofList_iff {items : List Json} {i : Nat} {xs : List α} :
    decodeItems c .root i (Items.ofList items) = .ok xs ↔
      List.Forall₂ (fun item x => c.decodeJson item = .ok x) items xs := by
  induction items generalizing i xs with
  | nil =>
    rw [List.forall₂_nil_left_iff]
    exact ⟨fun h => by cases h; rfl, fun h => by cases h; rfl⟩
  | cons item items ih =>
    have hread : c.decode .root (Draft.ofJson item) = c.decodeJson item := rfl
    rw [List.forall₂_cons_left_iff, Items.ofList, decodeItems, hread]
    cases hitem : c.decodeJson item with
    | error e => exact ⟨nofun, by rintro ⟨a, -, h, -⟩; cases h⟩
    | ok a =>
      simp only [Decoded.at]
      rw [map_eq_ok_iff]
      constructor
      · rintro ⟨rest, hrest, rfl⟩
        exact ⟨a, rest, rfl, ih.1 hrest, rfl⟩
      · rintro ⟨b, rest, hb, hrest, rfl⟩
        cases hb
        exact ⟨rest, ih.2 hrest, rfl⟩

theorem decodeJson_list_iff {xs : List α} :
    c.list.decodeJson j = .ok xs ↔
      ∃ items, j = .array items ∧
        List.Forall₂ (fun item x => c.decodeJson item = .ok x) items xs := by
  cases j with
  | array items =>
    refine decodeItems_ofList_iff.trans ⟨fun h => ⟨items, rfl, h⟩, ?_⟩
    rintro ⟨items', h, hall⟩
    cases h
    exact hall
  | _ => exact ⟨nofun, by rintro ⟨items, h, -⟩; cases h⟩

/-- A member of an object is read as an entry of a map. -/
def ReadsEntry (c : Codec α) (member : String × Json) (entry : String × α) : Prop :=
  member.1 = entry.1 ∧ c.decodeJson member.2 = .ok entry.2

theorem decodeEntries_ofList_iff {members : List (String × Json)} {acc d : Dictionary α} :
    decodeEntries c .root (Members.ofList members) acc = .ok d ↔
      ∃ entries, List.Forall₂ c.ReadsEntry members entries ∧
        d = entries.foldl (fun d e => Dictionary.insert e.1 e.2 d) acc := by
  induction members generalizing acc with
  | nil =>
    simp only [List.forall₂_nil_left_iff, exists_eq_left, List.foldl_nil]
    exact ⟨fun h => by cases h; rfl, fun h => by rw [h]; rfl⟩
  | cons member members ih =>
    obtain ⟨key, value⟩ := member
    have hread : c.decode .root (Draft.ofJson value) = c.decodeJson value := rfl
    simp only [List.forall₂_cons_left_iff, Members.ofList, decodeEntries, hread]
    cases hvalue : c.decodeJson value with
    | error e =>
      refine ⟨nofun, ?_⟩
      rintro ⟨entries, ⟨e, rest, ⟨-, h⟩, -⟩, -⟩
      rw [hvalue] at h
      cases h
    | ok a =>
      simp only [Decoded.at]
      rw [ih]
      constructor
      · rintro ⟨rest, hrest, rfl⟩
        exact ⟨_, ⟨(key, a), rest, ⟨rfl, hvalue⟩, hrest, rfl⟩, rfl⟩
      · rintro ⟨_, ⟨⟨key', a'⟩, rest, ⟨hkey, h⟩, hrest, rfl⟩, rfl⟩
        obtain rfl : key = key' := hkey
        rw [hvalue] at h
        cases h
        exact ⟨rest, hrest, rfl⟩

theorem decodeJson_map_iff {d : Dictionary α} :
    c.map.decodeJson j = .ok d ↔
      ∃ members entries, j = .object members ∧ List.Forall₂ c.ReadsEntry members entries ∧
        d = Dictionary.ofList entries := by
  cases j with
  | object members =>
    refine decodeEntries_ofList_iff.trans ⟨fun ⟨entries, h⟩ => ⟨members, entries, rfl, h⟩, ?_⟩
    rintro ⟨members', entries, h, hall⟩
    cases h
    exact ⟨entries, hall⟩
  | _ => exact ⟨nofun, by rintro ⟨members, entries, h, -⟩; cases h⟩

theorem decodeJson_enumeration_iff {variants : List (String × α)} {name : α → String} {a : α} :
    (enumeration variants name).decodeJson j = .ok a ↔
      ∃ s, variant variants s = .ok a ∧ (j = .text s ∨ j = .object [(s, .null)]) := by
  have hsingle : ∀ s v, (enumeration variants name).decodeJson (.object [(s, v)]) = .ok a ↔
      variant variants s = .ok a ∧ v = .null := by
    intro s v
    change variantMember variants .root (.cons (.ok s) (Draft.ofJson v) .close) = .ok a ↔ _
    rw [variantMember]
    cases variant variants s with
    | error e => exact ⟨nofun, nofun⟩
    | ok b =>
      cases v with
      | null => exact ⟨fun h => ⟨h, rfl⟩, fun h => h.1⟩
      | _ => exact ⟨nofun, nofun⟩
  cases j with
  | text s =>
    refine Iff.trans (b := variant variants s = .ok a) Iff.rfl ⟨fun h => ⟨s, h, .inl rfl⟩, ?_⟩
    rintro ⟨s', h, hs | hs⟩ <;> cases hs
    exact h
  | object members =>
    rcases members with - | ⟨⟨s, v⟩, - | ⟨second, rest⟩⟩
    · exact ⟨nofun, by rintro ⟨s, -, h | h⟩ <;> cases h⟩
    · rw [hsingle]
      constructor
      · rintro ⟨h, rfl⟩
        exact ⟨s, h, .inr rfl⟩
      · rintro ⟨s', h, hs | hs⟩ <;> cases hs
        exact ⟨h, rfl⟩
    · exact ⟨nofun, by rintro ⟨s, -, h | h⟩ <;> cases h⟩
  | _ => exact ⟨nofun, by rintro ⟨s, -, h | h⟩ <;> cases h⟩

/-! ## Null -/

/-- Null is no value of the type. -/
class RejectsNull (c : Codec α) : Prop where
  rejects : ∃ e, c.decodeJson .null = .error e

instance : RejectsNull text := ⟨_, rfl⟩

instance : RejectsNull flag := ⟨_, rfl⟩

instance : RejectsNull real := ⟨_, rfl⟩

instance {expected : String} {low high : Int} : RejectsNull (integer expected low high) := ⟨_, rfl⟩

instance {expected : String} {bits : Nat} : RejectsNull (natural expected bits) := ⟨_, rfl⟩

instance : RejectsNull nat8 := ⟨_, rfl⟩

instance : RejectsNull int32 := ⟨_, rfl⟩

instance : RejectsNull c.list := ⟨_, rfl⟩

instance : RejectsNull c.map := ⟨_, rfl⟩

instance {variants : List (String × α)} {name : α → String} :
    RejectsNull (enumeration variants name) := ⟨_, rfl⟩

/-- What goes through its encoding is not encoded as null where null is no value. -/
theorem RoundTrips.encode_ne_null [c.RejectsNull] {a : α} (h : c.RoundTrips a) :
    c.encode a ≠ .null := by
  intro hnull
  obtain ⟨e, he⟩ := RejectsNull.rejects (c := c)
  rw [RoundTrips, hnull, he] at h
  cases h

/-! ## What goes through its encoding -/

@[simp] theorem roundTrips_text (s : String) : text.RoundTrips s :=
  decodeJson_text_iff.2 rfl

@[simp] theorem roundTrips_flag (b : Bool) : flag.RoundTrips b :=
  decodeJson_flag_iff.2 rfl

@[simp] theorem roundTrips_real_iff {x : Float} : real.RoundTrips x ↔ x.isFinite = true := by
  rw [RoundTrips, decodeJson_real_iff]
  change (Json.real x = _ ∨ ∃ i, Json.real x = _ ∧ _) ↔ _
  rw [Json.real]
  split
  · next h => exact iff_of_true (.inl rfl) h
  · next h => exact iff_of_false (by rintro (h | ⟨i, h, -⟩) <;> cases h) h

@[simp] theorem roundTrips_integer_iff {expected : String} {low high i : Int} :
    (integer expected low high).RoundTrips i ↔ low ≤ i ∧ i ≤ high :=
  decodeJson_integer_iff.trans (and_iff_right rfl)

@[simp] theorem roundTrips_natural_iff {expected : String} {bits n : Nat} :
    (natural expected bits).RoundTrips n ↔ n < 2 ^ bits :=
  decodeJson_natural_iff.trans (and_iff_right rfl)

@[simp] theorem roundTrips_nat8_iff {n : Nat} : nat8.RoundTrips n ↔ n < 2 ^ 8 :=
  roundTrips_natural_iff

@[simp] theorem roundTrips_nat16_iff {n : Nat} : nat16.RoundTrips n ↔ n < 2 ^ 16 :=
  roundTrips_natural_iff

@[simp] theorem roundTrips_nat32_iff {n : Nat} : nat32.RoundTrips n ↔ n < 2 ^ 32 :=
  roundTrips_natural_iff

@[simp] theorem roundTrips_int32_iff {i : Int} : int32.RoundTrips i ↔ -2 ^ 31 ≤ i ∧ i < 2 ^ 31 :=
  roundTrips_integer_iff.trans (and_congr_right fun _ => by omega)

@[simp] theorem roundTrips_optional_iff [c.RejectsNull] {x : Option α} :
    c.optional.RoundTrips x ↔ ∀ a ∈ x, c.RoundTrips a := by
  rw [RoundTrips, decodeJson_optional_iff]
  cases x with
  | none => exact iff_of_true (.inl ⟨rfl, rfl⟩) nofun
  | some a =>
    constructor
    · rintro (⟨-, h⟩ | ⟨-, b, hb, h⟩) <;> cases h
      exact fun _ ha => Option.some.inj ha ▸ hb
    · intro h
      have ha := h a rfl
      exact .inr ⟨ha.encode_ne_null, a, ha, rfl⟩

@[simp] theorem roundTrips_list_iff {xs : List α} :
    c.list.RoundTrips xs ↔ ∀ x ∈ xs, c.RoundTrips x := by
  rw [RoundTrips, decodeJson_list_iff]
  constructor
  · rintro ⟨items, h, hall⟩
    cases h
    rwa [List.forall₂_map_left_iff, List.forall₂_same] at hall
  · intro h
    refine ⟨_, rfl, ?_⟩
    rwa [List.forall₂_map_left_iff, List.forall₂_same]

theorem roundTrips_map {d : Dictionary α} (hsorted : Dictionary.Sorted d)
    (h : ∀ e ∈ d, c.RoundTrips e.2) : c.map.RoundTrips d := by
  refine decodeJson_map_iff.2 ⟨_, d, rfl, ?_, (Dictionary.ofList_of_sorted hsorted).symm⟩
  rw [List.forall₂_map_left_iff, List.forall₂_same]
  exact fun e he => ⟨rfl, h e he⟩

theorem roundTrips_enumeration {variants : List (String × α)} {name : α → String} {a : α}
    (h : variant variants (name a) = .ok a) : (enumeration variants name).RoundTrips a :=
  decodeJson_enumeration_iff.2 ⟨_, h, .inl rfl⟩

/-! ## Lawful codecs -/

/-- What is read from a JSON value goes through its encoding, and is read as well when the members
of all objects in the value are put in order. -/
class Lawful (c : Codec α) : Prop where
  again : ∀ {j x}, Legal j → c.decodeJson j = .ok x → c.RoundTrips x
  sorted : ∀ {j x}, c.decodeJson j = .ok x → c.decodeJson j.sorted = .ok x

instance : Lawful text where
  again _ _ := roundTrips_text _
  sorted h := by
    obtain rfl := decodeJson_text_iff.1 h
    rwa [sorted_text]

instance : Lawful flag where
  again _ _ := roundTrips_flag _
  sorted h := by
    obtain rfl := decodeJson_flag_iff.1 h
    rwa [sorted_bool]

instance : Lawful real where
  again hlegal h := by
    rcases decodeJson_real_iff.1 h with rfl | ⟨i, rfl, rfl⟩
    · exact roundTrips_real_iff.2 hlegal
    · exact roundTrips_real_iff.2 (Decimal.isFinite_ofInt hlegal)
  sorted h := by
    rcases decodeJson_real_iff.1 h with rfl | ⟨i, rfl, rfl⟩ <;> rwa [sorted_number]

instance {expected : String} {low high : Int} : Lawful (integer expected low high) where
  again _ h := roundTrips_integer_iff.2 (decodeJson_integer_iff.1 h).2
  sorted h := by
    obtain ⟨rfl, -⟩ := decodeJson_integer_iff.1 h
    rwa [Json.int, sorted_number]

instance {expected : String} {bits : Nat} : Lawful (natural expected bits) where
  again _ h := roundTrips_natural_iff.2 (decodeJson_natural_iff.1 h).2
  sorted h := by
    obtain ⟨rfl, -⟩ := decodeJson_natural_iff.1 h
    rwa [Json.int, sorted_number]

instance : Lawful nat8 := inferInstanceAs (Lawful (natural _ _))

instance : Lawful nat16 := inferInstanceAs (Lawful (natural _ _))

instance : Lawful nat32 := inferInstanceAs (Lawful (natural _ _))

instance : Lawful int32 := inferInstanceAs (Lawful (integer _ _ _))

/-- Only null becomes null when members are put in order. -/
theorem sorted_eq_null_iff : j.sorted = .null ↔ j = .null := by
  cases j <;> simp [sorted_array, sorted_object]

instance [c.Lawful] [c.RejectsNull] : Lawful c.optional where
  again hlegal h := by
    rcases decodeJson_optional_iff.1 h with ⟨-, rfl⟩ | ⟨-, a, ha, rfl⟩
    · exact roundTrips_optional_iff.2 nofun
    · refine roundTrips_optional_iff.2 fun b hb => ?_
      cases hb
      exact Lawful.again hlegal ha
  sorted h := by
    refine decodeJson_optional_iff.2 ?_
    rw [sorted_eq_null_iff, Ne, sorted_eq_null_iff]
    refine (decodeJson_optional_iff.1 h).imp_right ?_
    rintro ⟨hj, a, ha, rfl⟩
    exact ⟨hj, a, Lawful.sorted ha, rfl⟩

instance [c.Lawful] : Lawful c.list where
  again hlegal h := by
    obtain ⟨items, rfl, hall⟩ := decodeJson_list_iff.1 h
    rw [legal_array_iff] at hlegal
    refine roundTrips_list_iff.2 fun x hx => ?_
    obtain ⟨item, hitem, hread⟩ := exists_of_forall₂_of_mem hall hx
    exact Lawful.again (hlegal item hitem) hread
  sorted h := by
    obtain ⟨items, rfl, hall⟩ := decodeJson_list_iff.1 h
    refine decodeJson_list_iff.2 ⟨_, sorted_array items, ?_⟩
    rw [List.forall₂_map_left_iff]
    exact hall.imp fun _ _ => Lawful.sorted

instance [c.Lawful] : Lawful c.map where
  again hlegal h := by
    obtain ⟨members, entries, rfl, hall, rfl⟩ := decodeJson_map_iff.1 h
    rw [legal_object_iff] at hlegal
    refine roundTrips_map (Dictionary.sorted_ofList entries) fun e he => ?_
    obtain ⟨member, hmember, -, hread⟩ :=
      exists_of_forall₂_of_mem hall (Dictionary.mem_of_mem_ofList he)
    exact Lawful.again (hlegal member hmember) hread
  sorted h := by
    obtain ⟨members, entries, rfl, hall, rfl⟩ := decodeJson_map_iff.1 h
    have hsorted : List.Forall₂ c.ReadsEntry (members.map fun m => (m.1, m.2.sorted)) entries := by
      rw [List.forall₂_map_left_iff]
      exact hall.imp fun _ _ hread => ⟨hread.1, Lawful.sorted hread.2⟩
    refine decodeJson_map_iff.2 ⟨_, _, sorted_object members,
      Dictionary.forall₂_ofList (fun _ _ hread => hread.1) hsorted, ?_⟩
    exact (Dictionary.ofList_of_sorted (Dictionary.sorted_ofList entries)).symm

/-- The encoding of a value, with the members of all objects in order. -/
def ordered (c : Codec α) (a : α) : Json :=
  (c.encode a).sorted

/-- A JSON value as it is encoded again after it was read. -/
def rewrite (c : Codec α) (j : Json) : Decoded Json :=
  (c.decodeJson j).map c.ordered

/-- What goes through its encoding goes through it whatever the order of the members. -/
theorem Lawful.decodeJson_ordered [c.Lawful] {a : α} (h : c.RoundTrips a) :
    c.decodeJson (c.ordered a) = .ok a :=
  Lawful.sorted h

/-- What is encoded after it was read is read as the same, and encoded as it is. -/
theorem Lawful.rewrite_fixed [c.Lawful] {k : Json} (hlegal : Legal j) (h : c.rewrite j = .ok k) :
    c.decodeJson k = c.decodeJson j ∧ c.rewrite k = .ok k := by
  obtain ⟨a, ha, rfl⟩ := map_eq_ok_iff.1 h
  have hagain := Lawful.decodeJson_ordered (Lawful.again hlegal ha)
  rw [rewrite, hagain]
  exact ⟨ha.symm, rfl⟩

/-- An enumeration is lawful if its names are those of its variants. -/
theorem lawful_enumeration {variants : List (String × α)} {name : α → String}
    (h : ∀ a, variant variants (name a) = .ok a) : Lawful (enumeration variants name) where
  again _ _ := roundTrips_enumeration (h _)
  sorted h := by
    obtain ⟨s, -, rfl | rfl⟩ := decodeJson_enumeration_iff.1 h
    · rwa [sorted_text]
    · rwa [sorted_object, List.map_cons, sorted_null]

end Codec

end Json

end FinanceGateway
