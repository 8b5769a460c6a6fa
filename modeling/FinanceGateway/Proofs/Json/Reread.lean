import FinanceGateway.Proofs.Json.Printing
import FinanceGateway.Proofs.Json.Texts

/-!
# Values that are read from their own text

A binary64 number need not be read back from its text (`IsReadBack`). A codec that rereads
(`Codec.Rereads`) reads from the text of a value what it reads from the value, unless the value is
such a number. So a record is read from the text of an object as from the object exactly when every
binary64 number among the members is read back (`Record.Lawful.decode_ofPrinted_iff`).
-/

namespace FinanceGateway.Json

/-- The number is what its own text is read as. -/
def IsReadBack (x : Float) : Prop :=
  Codec.real.decodeText (Utf8.encode (Json.number (.real x)).compact) = .ok x

namespace Codec

variable {α : Type} {c : Codec α} {depth : Nat}

/-- The text of a value is read as its draft. -/
theorem decodeText_compact (c : Codec α) (j : Json) :
    c.decodeText (Utf8.encode j.compact) =
      c.decode ⟨.text, depthLimit⟩ (Draft.ofPrinted j) := by
  rw [decodeText, Draft.ofBytes_compact]
  dsimp only
  split
  · next h => exact h.symm
  · next h => exact h.symm

/-- No binary64 number is a value of the type. -/
class RejectsReal (c : Codec α) : Prop where
  rejects : ∀ {y v}, c.decodeJson (.number (.real y)) ≠ .ok v

/-- What the codec reads from a value it reads from the text of the value at a depth, unless that is
a binary64 number that is not read back. -/
class Rereads (c : Codec α) (depth : Nat) : Prop where
  decode_iff : ∀ {j v}, Legal j → c.decodeJson j = .ok v →
    (c.decode ⟨.text, depth⟩ (Draft.ofPrinted j) = .ok v ↔
      ∀ y, j = .number (.real y) → IsReadBack y)

/-- A codec that rejects binary64 numbers rereads what it reads. -/
theorem rereads_of_rejectsReal [c.RejectsReal]
    (h : ∀ {j v}, Legal j → c.decodeJson j = .ok v →
      c.decode ⟨.text, depth⟩ (Draft.ofPrinted j) = .ok v) : c.Rereads depth where
  decode_iff hlegal hj := by
    refine iff_of_true (h hlegal hj) ?_
    rintro y rfl
    exact absurd hj RejectsReal.rejects

theorem Rereads.decode_eq [c.Rereads depth] [c.RejectsReal] {j : Json} {v : α} (hlegal : Legal j)
    (hj : c.decodeJson j = .ok v) : c.decode ⟨.text, depth⟩ (Draft.ofPrinted j) = .ok v := by
  refine (decode_iff hlegal hj).2 ?_
  rintro y rfl
  exact absurd hj RejectsReal.rejects

instance : RejectsReal text where
  rejects := nofun

instance : RejectsReal flag where
  rejects := nofun

instance {expected : String} {low high : Int} : RejectsReal (integer expected low high) where
  rejects := nofun

instance {expected : String} {bits : Nat} : RejectsReal (natural expected bits) where
  rejects := nofun

instance : RejectsReal c.list where
  rejects := nofun

instance {variants : List (String × α)} {name : α → String} :
    RejectsReal (enumeration variants name) where
  rejects := nofun

instance : Rereads text depth :=
  rereads_of_rejectsReal fun {j s} _ h => by
    obtain rfl := decodeJson_text_iff.1 h
    rfl

instance : Rereads flag depth :=
  rereads_of_rejectsReal fun {j b} _ h => by
    obtain rfl := decodeJson_flag_iff.1 h
    rfl

instance {expected : String} {bits : Nat} : Rereads (natural expected bits) depth :=
  rereads_of_rejectsReal fun {j n} hlegal h => by
    obtain ⟨rfl, -⟩ := decodeJson_natural_iff.1 h
    have hprinted : Draft.ofPrinted (Json.int n) = .number (.ok (.int n)) :=
      Draft.ofPrinted_int hlegal
    rw [hprinted]
    exact h

instance : Rereads nat8 depth := inferInstanceAs (Rereads (natural _ _) depth)

instance : Rereads real depth where
  decode_iff {j x} hlegal h := by
    rcases decodeJson_real_iff.1 h with rfl | ⟨i, rfl, rfl⟩
    · have hread : IsReadBack x ↔
          real.decode ⟨.text, depth⟩ (Draft.ofPrinted (.number (.real x))) = .ok x := by
        rw [IsReadBack, decodeText_compact]
        rfl
      rw [← hread]
      refine ⟨?_, fun hall => hall x rfl⟩
      rintro hx _ ⟨⟩
      exact hx
    · rw [Draft.ofPrinted_int hlegal]
      exact iff_of_true rfl nofun

/-- An optional value is there if the value is read. -/
theorem decode_optional_some_iff [c.ReadsValue depth] [c.RejectsNull] {d : Draft} {a : α} :
    c.optional.decode ⟨.text, depth⟩ d = .ok (some a) ↔ c.decode ⟨.text, depth⟩ d = .ok a := by
  have hsome : (c.decode ⟨.text, depth⟩ d).map some = .ok (some a) ↔
      c.decode ⟨.text, depth⟩ d = .ok a := by
    rw [map_eq_ok_iff]
    refine ⟨?_, fun h => ⟨a, h, rfl⟩⟩
    rintro ⟨_, h, ⟨⟩⟩
    exact h
  match d with
  | .null =>
    refine ⟨nofun, fun h => ?_⟩
    obtain ⟨j, ⟨⟩, hj⟩ := ReadsValue.exists_value h
    obtain ⟨e, he⟩ := RejectsNull.rejects (c := c)
    cases he.symm.trans hj
  | .broken .null _ _ =>
    refine ⟨nofun, fun h => ?_⟩
    obtain ⟨j, hany, -⟩ := ReadsValue.exists_value h
    cases hany
  | .broken .text _ _ | .broken .other _ _ | .bool _ | .number _ | .text _ | .array _
  | .object _ | .absent => exact hsome

instance [c.Rereads depth] [c.ReadsValue depth] [c.RejectsNull] : Rereads c.optional depth where
  decode_iff {j x} hlegal h := by
    rcases decodeJson_optional_iff.1 h with ⟨rfl, rfl⟩ | ⟨hnull, a, ha, rfl⟩
    · exact iff_of_true rfl nofun
    · rw [decode_optional_some_iff, Rereads.decode_iff hlegal ha]

theorem decodeItems_ofPrinted [c.Rereads depth] [c.RejectsReal] {items : List Json} {xs : List α}
    (hlegal : ∀ item ∈ items, Legal item)
    (h : List.Forall₂ (fun item x => c.decodeJson item = .ok x) items xs) (i : Nat) :
    decodeItems c ⟨.text, depth⟩ i (Items.ofPrinted items) = .ok xs := by
  induction h generalizing i with
  | nil => rfl
  | cons hread _ ih =>
    obtain ⟨hitem, hitems⟩ := List.forall_mem_cons.1 hlegal
    rw [Items.ofPrinted, decodeItems, Rereads.decode_eq hitem hread, Decoded.at, ih hitems]
    rfl

instance [c.Rereads (depth + 1)] [c.RejectsReal] : Rereads c.list (depth + 2) :=
  rereads_of_rejectsReal fun {j xs} hlegal h => by
    obtain ⟨items, rfl, hitems⟩ := decodeJson_list_iff.1 h
    rw [Draft.ofPrinted, list]
    dsimp only
    rw [Reading.enter_text]
    exact decodeItems_ofPrinted (legal_array_iff.1 hlegal) hitems 0

instance {variants : List (String × α)} {name : α → String} :
    Rereads (enumeration variants name) depth :=
  rereads_of_rejectsReal fun {j a} _ h => by
    obtain ⟨s, hs, rfl | rfl⟩ := decodeJson_enumeration_iff.1 h
    · exact hs
    · change variantMember variants ⟨.text, depth⟩ (.cons (.ok s) .null .close) = .ok a
      rw [variantMember, hs]
      rfl

end Codec

theorem Field.rereads_required {σ α : Type} {c : Codec α} {depth : Nat} [c.Rereads depth]
    {name : String} {get : σ → α} {set : α → σ → σ} :
    (required name c get set).codec.Rereads depth := ‹_›

theorem Field.rereads_sparse {σ α : Type} {c : Codec α} {depth : Nat} [c.Rereads depth]
    [c.ReadsValue depth] [c.RejectsNull] {name : String} {get : σ → Option α}
    {set : Option α → σ → σ} : (sparse name c get set).codec.Rereads depth :=
  inferInstanceAs (c.optional.Rereads depth)

namespace Record

variable {σ : Type} {r : Record σ} {f : Field σ} {depth : Nat} {members : List (String × Json)}
  {seen seen' : List String} {s x : σ}

/-- A field that was seen is not set again. -/
theorem Lawful.get_of_seen (h : r.Lawful) (hf : f ∈ r.fields) {place : Reading} {drafts : Members}
    (hseen : f.name ∈ seen) (hx : r.decodeMembers place drafts seen s = .ok (seen', x)) :
    f.get x = f.get s := by
  fun_induction decodeMembers r place drafts seen s with
  | case1 seen s =>
    cases hx
    rfl
  | case9 key value tail seen s hfield hskim ih => exact ih hseen hx
  | case12 key value tail seen s g hfield hkey change hchange ih =>
    obtain ⟨hg, rfl⟩ := mem_of_field? hfield
    obtain ⟨v, -, rfl⟩ := map_eq_ok_iff.1 (Decoded.at_eq_ok_iff.1 hchange)
    have hne : f.name ≠ g.name := fun heq => hkey (heq ▸ hseen)
    rw [ih (.tail _ hseen) hx, h.get_set_of_ne hf hg hne]
  | _ => cases hx

/-- Members of which each is reread by its field are read from their text as they are. -/
theorem decodeMembers_ofPrinted
    (hfields : ∀ m ∈ members, ∃ f, r.field? m.1 = some f ∧ ∀ v, f.codec.decodeJson m.2 = .ok v →
      f.codec.decode ⟨.text, depth⟩ (Draft.ofPrinted m.2) = .ok v)
    (hx : r.decodeMembers .root (Members.ofList members) seen s = .ok (seen', x)) :
    r.decodeMembers ⟨.text, depth⟩ (Members.ofPrinted members) seen s = .ok (seen', x) := by
  induction members generalizing seen s with
  | nil => exact hx
  | cons member members ih =>
    obtain ⟨key, value⟩ := member
    obtain ⟨⟨f, hfield, hreread⟩, hmembers⟩ := List.forall_mem_cons.1 hfields
    by_cases hseen : key ∈ seen
    · rw [decodeMembers_of_seen hfield hseen] at hx
      cases hx
    · cases hvalue : f.codec.decodeJson value with
      | error e =>
        rw [decodeMembers_of_error hfield hseen hvalue] at hx
        cases hx
      | ok v =>
        rw [decodeMembers_of_ok hfield hseen hvalue] at hx
        rw [← ih hmembers hx]
        simp only [Members.ofPrinted, decodeMembers, hfield, hseen, if_false, Field.decode,
          hreread v hvalue, Except.map, Decoded.at]

/-- Members that are read from their text as they are are each reread by its field. -/
theorem Lawful.decode_of_ofPrinted (h : r.Lawful) {seen₁ : List String}
    (hknown : ∀ m ∈ members, ∃ f, r.field? m.1 = some f)
    (hx : r.decodeMembers .root (Members.ofList members) seen s = .ok (seen₁, x))
    (hprinted :
      r.decodeMembers ⟨.text, depth⟩ (Members.ofPrinted members) seen s = .ok (seen', x)) :
    ∀ m ∈ members, ∃ f ∈ r.fields, ∃ v, f.codec.decodeJson m.2 = .ok v ∧
      f.codec.decode ⟨.text, depth⟩ (Draft.ofPrinted m.2) = .ok v := by
  induction members generalizing seen s with
  | nil => exact nofun
  | cons member members ih =>
    obtain ⟨key, value⟩ := member
    obtain ⟨⟨f, hfield⟩, hmembers⟩ := List.forall_mem_cons.1 hknown
    obtain ⟨hf, rfl⟩ := mem_of_field? hfield
    by_cases hseen : f.name ∈ seen
    · rw [decodeMembers_of_seen hfield hseen] at hx
      cases hx
    · cases hvalue : f.codec.decodeJson value with
      | error e =>
        rw [decodeMembers_of_error hfield hseen hvalue] at hx
        cases hx
      | ok v =>
        rw [decodeMembers_of_ok hfield hseen hvalue] at hx
        simp only [Members.ofPrinted, decodeMembers, hfield, hseen, if_false] at hprinted
        split at hprinted
        · cases hprinted
        · next change hchange =>
          obtain ⟨w, hreread, rfl⟩ := map_eq_ok_iff.1 (Decoded.at_eq_ok_iff.1 hchange)
          -- Both values stand in the record that is read in the end.
          have hv : f.get x = v := (h.get_of_seen hf (.head _) hx).trans (h.get_set f hf v s)
          have hw := (h.get_of_seen hf (.head _) hprinted).trans (h.get_set f hf w s)
          obtain rfl := hv.symm.trans hw
          exact List.forall_mem_cons.2 ⟨⟨f, hf, v, hvalue, hreread⟩, ih hmembers hx hprinted⟩

/-- An object of known members is read from its text as it is exactly when every binary64 number
among the members is read back. -/
theorem Lawful.decode_ofPrinted_iff (h : r.Lawful)
    (hfields : ∀ f ∈ r.fields, f.codec.Rereads (depth + 1)) (hlegal : Legal (.object members))
    (hknown : ∀ m ∈ members, ∃ f, r.field? m.1 = some f)
    (hx : r.codec.decodeJson (.object members) = .ok x) :
    r.codec.decode ⟨.text, depth + 2⟩ (Draft.ofPrinted (.object members)) = .ok x ↔
      ∀ m ∈ members, ∀ y, m.2 = .number (.real y) → IsReadBack y := by
  have hread : r.codec.decode ⟨.text, depth + 2⟩ (Draft.ofPrinted (.object members)) =
      r.decodeObject ⟨.text, depth + 1⟩ (Members.ofPrinted members) :=
    decode_object (Reading.enter_text depth)
  have hroot : r.decodeObject .root (Members.ofList members) = .ok x := hx
  rw [legal_object_iff] at hlegal
  rw [hread]
  unfold decodeObject at hroot ⊢
  split at hroot
  · cases hroot
  · next seen s hmembers =>
    split at hroot
    · cases hroot
    · next hmissing =>
      cases hroot
      constructor
      · intro hprinted
        split at hprinted
        · cases hprinted
        · next hdrafts =>
          split at hprinted
          · cases hprinted
          · cases hprinted
            intro m hm
            obtain ⟨f, hf, v, hv, hreread⟩ := h.decode_of_ofPrinted hknown hmembers hdrafts m hm
            have := hfields f hf
            exact (Codec.Rereads.decode_iff (hlegal m hm) hv).1 hreread
      · intro hback
        rw [decodeMembers_ofPrinted (fun m hm => ?_) hmembers]
        · simp only [hmissing]
        · obtain ⟨f, hfield⟩ := hknown m hm
          have := hfields f (mem_of_field? hfield).1
          exact ⟨f, hfield, fun v hv =>
            (Codec.Rereads.decode_iff (hlegal m hm) hv).2 (hback m hm)⟩

end Record

end FinanceGateway.Json
