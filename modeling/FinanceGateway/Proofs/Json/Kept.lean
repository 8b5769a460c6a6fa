import FinanceGateway.Proofs.Json.Texts

/-!
# What is kept while a record is read

A record is read by changes, one for each field that is given, from an object as from an array. So a
property of records that every such change keeps (`Field.Keeps`) holds of whatever is read, if it
holds of the record before any field is read (`Record.of_decode`). A map is read by insertions, and
is in order (`Codec.sorted_of_decode_map`).
-/

namespace FinanceGateway.Json

variable {σ : Type} {r : Record σ} {f : Field σ} {kept : σ → Prop} {place : Reading} {s x : σ}

/-- Whatever value a field is read as, setting it does not lose the property. -/
def Field.Keeps (f : Field σ) (kept : σ → Prop) : Prop :=
  ∀ place d v, f.codec.decode place d = .ok v → ∀ s, kept s → kept (f.set v s)

theorem Field.Keeps.of_decode (h : f.Keeps kept) {d : Draft} {change : σ → σ}
    (hchange : f.decode place d = .ok change) (hs : kept s) : kept (change s) := by
  obtain ⟨v, hv, rfl⟩ := map_eq_ok_iff.1 hchange
  exact h place d v hv s hs

namespace Record

/-- The members of an object keep what the fields keep. -/
theorem of_decodeMembers (hkeeps : ∀ f ∈ r.fields, f.Keeps kept) {members : Members}
    {seen seen' : List String} (h : r.decodeMembers place members seen s = .ok (seen', x))
    (hs : kept s) : kept x := by
  fun_induction decodeMembers r place members seen s with
  | case1 seen s =>
    cases h
    exact hs
  | case9 key value tail seen s hfield hskim ih => exact ih h hs
  | case12 key value tail seen s f hfield hseen change hchange ih =>
    have hf := hkeeps f (mem_of_field? hfield).1
    exact ih h (hf.of_decode (Decoded.at_eq_ok_iff.1 hchange) hs)
  | _ => cases h

/-- After the last field nothing is read any more. -/
theorem eq_of_trailing {count : Nat} {rest : Items} (h : trailing place count rest s = .ok x) :
    x = s := by
  unfold trailing at h
  split at h
  · cases h
    rfl
  all_goals cases h

/-- The items of an array keep what the fields keep. -/
theorem of_decodeItems {fields : List (Field σ)} (hkeeps : ∀ f ∈ fields, f.Keeps kept)
    {i : Nat} {items : Items} (h : r.decodeItems place fields i items s = .ok x) (hs : kept s) :
    kept x := by
  fun_induction decodeItems r place fields i items s with
  | case1 i rest s =>
    cases eq_of_trailing h
    exact hs
  | case3 f fields i head tail s change hchange ih =>
    obtain ⟨hf, hfields⟩ := List.forall_mem_cons.1 hkeeps
    exact ih hfields h (hf.of_decode (Decoded.at_eq_ok_iff.1 hchange) hs)
  | case5 f fields i s hmissing ih => exact ih (List.forall_mem_cons.1 hkeeps).2 h hs
  | _ => cases h

/-- What the fields keep holds of the record that is read. -/
theorem of_decode (hkeeps : ∀ f ∈ r.fields, f.Keeps kept) (hinitial : kept r.initial) {d : Draft}
    (h : r.codec.decode place d = .ok x) : kept x := by
  unfold codec at h
  dsimp only at h
  split at h
  · next members =>
    split at h
    · cases h
    · unfold decodeObject at h
      split at h
      · cases h
      · next hmembers =>
        split at h
        · cases h
        · cases h
          exact of_decodeMembers hkeeps hmembers hinitial
  · split at h
    · cases h
    · exact of_decodeItems hkeeps h hinitial
  · exact absurd h mismatch_ne_ok

end Record

namespace Codec

variable {α : Type} {c : Codec α}

/-- The entries of a map are inserted in order. -/
theorem sorted_of_decodeEntries {members : Members} {acc d : Dictionary α}
    (h : decodeEntries c place members acc = .ok d) (hacc : Dictionary.Sorted acc) :
    Dictionary.Sorted d := by
  fun_induction decodeEntries c place members acc with
  | case1 acc =>
    cases h
    exact hacc
  | case8 key value tail acc a hvalue ih => exact ih h (Dictionary.sorted_insert hacc)
  | _ => cases h

/-- A map that is read is in order. -/
theorem sorted_of_decode_map {draft : Draft} {d : Dictionary α}
    (h : c.map.decode place draft = .ok d) : Dictionary.Sorted d := by
  unfold map at h
  dsimp only at h
  split at h
  · split at h
    · cases h
    · exact sorted_of_decodeEntries h .nil
  · exact absurd h mismatch_ne_ok

end Codec

end FinanceGateway.Json
