import FinanceGateway.Dictionary
import Mathlib

/-!
# Laws of dictionaries

What is inserted is found, and of several entries of a key the last one (`get?_ofList_eq_reverse`).
The entries stay in ascending order of their keys (`sorted_insert`), so a dictionary is known by
what is found in it (`Sorted.ext`), and a list of entries in that order is the dictionary of itself
(`ofList_of_sorted`): one that was made by insertions is made again from its own entries.
-/

namespace FinanceGateway.Dictionary

variable {α β : Type} {key : String} {value : α} {d : Dictionary α}

/-- The entries are in ascending order of their keys, one for each key. -/
def Sorted (d : Dictionary α) : Prop :=
  d.Pairwise fun e e' => e.1 < e'.1

/-! ## What is found -/

@[simp] theorem get?_nil (key : String) : get? ([] : Dictionary α) key = none := rfl

theorem get?_cons (e : String × α) (d : Dictionary α) (key : String) :
    get? (e :: d) key = if e.1 = key then some e.2 else get? d key := by
  rw [get?, List.find?_cons]
  by_cases h : e.1 = key
  · rw [beq_iff_eq.2 h, if_pos h]
    rfl
  · rw [beq_eq_false_iff_ne.2 h, if_neg h]
    rfl

/-- A change of the values shows in what is found. -/
theorem get?_map (f : α → β) (d : Dictionary α) (key : String) :
    get? (d.map fun e => (e.1, f e.2)) key = (get? d key).map f := by
  induction d with
  | nil => rfl
  | cons e d ih =>
    rw [List.map_cons, get?_cons, get?_cons, ih]
    split <;> rfl

/-- What is found is an entry. -/
theorem mem_of_get? (h : get? d key = some value) : (key, value) ∈ d := by
  obtain ⟨e, he, rfl⟩ := Option.map_eq_some_iff.1 h
  have hkey : e.1 = key := by simpa using List.find?_some he
  rw [← hkey]
  exact List.mem_of_find?_eq_some he

/-- Nothing is found under a key that no entry has. -/
theorem get?_eq_none_iff : get? d key = none ↔ key ∉ d.map (·.1) := by
  rw [get?, Option.map_eq_none_iff, List.find?_eq_none, List.mem_map, not_exists]
  exact forall_congr' fun e => by rw [beq_iff_eq, not_and]

/-- A single entry of a key is what is found under it. -/
theorem get?_of_mem (hnodup : (d.map (·.1)).Nodup) (h : (key, value) ∈ d) :
    get? d key = some value := by
  induction d with
  | nil => cases h
  | cons e d ih =>
    rw [List.map_cons, List.nodup_cons] at hnodup
    rw [get?_cons]
    rcases List.mem_cons.1 h with rfl | h
    · exact if_pos rfl
    · rw [if_neg, ih hnodup.2 h]
      rintro rfl
      exact hnodup.1 (List.mem_map.2 ⟨_, h, rfl⟩)

/-- What is inserted is found under its key, and what was found under other keys still is. -/
theorem get?_insert (key : String) (value : α) (d : Dictionary α) (key' : String) :
    get? (insert key value d) key' = if key = key' then some value else get? d key' := by
  induction d with
  | nil => rw [insert, get?_cons]
  | cons e d ih =>
    rw [insert]
    split
    · rw [get?_cons]
    · split
      · next heq =>
        subst heq
        rw [get?_cons, get?_cons]
        split <;> rfl
      · next hne =>
        rw [get?_cons, ih, get?_cons]
        split
        · next heq =>
          subst heq
          rw [if_neg hne]
        · rfl

theorem get?_append (d d' : Dictionary α) (key : String) :
    get? (d ++ d') key = (get? d key).or (get? d' key) := by
  rw [get?, List.find?_append, Option.map_or]
  rfl

/-- Of entries that are inserted one after the other, the last one of a key is found. -/
theorem get?_foldl_insert (entries : List (String × α)) (d : Dictionary α) (key : String) :
    get? (entries.foldl (fun d e => insert e.1 e.2 d) d) key =
      (get? entries.reverse key).or (get? d key) := by
  induction entries generalizing d with
  | nil => rfl
  | cons e entries ih =>
    rw [List.foldl_cons, ih, get?_insert, List.reverse_cons, get?_append, Option.or_assoc,
      get?_cons, get?_nil]
    split <;> rfl

/-- In the dictionary of a list the last entry of a key is found. -/
theorem get?_ofList_eq_reverse (entries : List (String × α)) (key : String) :
    get? (ofList entries) key = get? entries.reverse key := by
  rw [ofList, get?_foldl_insert, get?_nil, Option.or_none]

/-- A single entry of a key is found in the dictionary of a list of entries. -/
theorem get?_ofList {entries : List (String × α)}
    (hcount : (entries.map (·.1)).count key ≤ 1) :
    get? (ofList entries) key = get? entries key := by
  rw [get?_ofList_eq_reverse]
  induction entries with
  | nil => rfl
  | cons e entries ih =>
    rw [List.map_cons, List.count_cons] at hcount
    rw [List.reverse_cons, get?_append, ih (Nat.le_of_add_right_le hcount), get?_cons, get?_nil,
      get?_cons]
    split
    · next heq =>
      have hnone : get? entries key = none := by
        rw [get?_eq_none_iff, ← List.count_eq_zero]
        simp only [heq, BEq.rfl, if_true] at hcount
        exact Nat.le_zero.1 (Nat.le_of_succ_le_succ hcount)
      rw [hnone]
      rfl
    · exact Option.or_none

/-! ## Entries -/

/-- An entry after an insertion is the inserted one or was there before. -/
theorem mem_of_mem_insert {e : String × α} (h : e ∈ insert key value d) :
    e = (key, value) ∨ e ∈ d := by
  induction d with
  | nil => exact .inl (List.mem_singleton.1 h)
  | cons e' d ih =>
    rw [insert] at h
    split at h
    · exact List.mem_cons.1 h
    · split at h
      · exact (List.mem_cons.1 h).imp_right (List.mem_cons_of_mem _)
      · rcases List.mem_cons.1 h with rfl | h
        · exact .inr (.head _)
        · exact (ih h).imp_right (List.mem_cons_of_mem _)

/-- The entries of the dictionary of a list are of that list. -/
theorem mem_of_mem_ofList {entries : List (String × α)} {e : String × α}
    (h : e ∈ ofList entries) : e ∈ entries := by
  have hfold : ∀ d, e ∈ entries.foldl (fun d e => insert e.1 e.2 d) d → e ∈ d ∨ e ∈ entries := by
    clear h
    induction entries with
    | nil => exact fun d h => .inl h
    | cons e' entries ih =>
      intro d h
      rcases ih _ h with h | h
      · rcases mem_of_mem_insert h with rfl | h
        · exact .inr (.head _)
        · exact .inl h
      · exact .inr (.tail _ h)
  exact (hfold [] h).resolve_left List.not_mem_nil

/-- The entries of two dictionaries stay related one by one when related entries are inserted. -/
theorem forall₂_insert {R : String × α → String × β → Prop} {d' : Dictionary β} {value' : β}
    (hkeys : ∀ e e', R e e' → e.1 = e'.1) (h : List.Forall₂ R d d')
    (hvalue : R (key, value) (key, value')) :
    List.Forall₂ R (insert key value d) (insert key value' d') := by
  induction h with
  | nil => exact .cons hvalue .nil
  | @cons e e' d d' he h ih =>
    have hkey := hkeys e e' he
    obtain ⟨k, v⟩ := e
    obtain ⟨k', v'⟩ := e'
    obtain rfl : k = k' := hkey
    rw [insert, insert]
    split
    · exact .cons hvalue (.cons he h)
    · split
      · exact .cons hvalue h
      · exact .cons he ih

/-- Lists of entries that are related one by one have dictionaries that are so too. -/
theorem forall₂_ofList {R : String × α → String × β → Prop} {entries : List (String × α)}
    {entries' : List (String × β)} (hkeys : ∀ e e', R e e' → e.1 = e'.1)
    (h : List.Forall₂ R entries entries') : List.Forall₂ R (ofList entries) (ofList entries') := by
  have hfold : ∀ d d', List.Forall₂ R d d' →
      List.Forall₂ R (entries.foldl (fun d e => insert e.1 e.2 d) d)
        (entries'.foldl (fun d e => insert e.1 e.2 d) d') := by
    induction h with
    | nil => exact fun d d' hd => hd
    | @cons e e' entries entries' he h ih =>
      intro d d' hd
      have hkey := hkeys e e' he
      obtain ⟨k, v⟩ := e
      obtain ⟨k', v'⟩ := e'
      obtain rfl : k = k' := hkey
      exact ih _ _ (forall₂_insert hkeys hd he)
  exact hfold [] [] .nil

/-! ## Order -/

/-- An insertion keeps the entries in order. -/
theorem sorted_insert (h : Sorted d) : Sorted (insert key value d) := by
  induction d with
  | nil => exact List.pairwise_singleton _ _
  | cons e d ih =>
    have hrest := List.pairwise_cons.1 h
    rw [insert]
    split
    · next hlt =>
      refine List.pairwise_cons.2 ⟨?_, h⟩
      exact List.forall_mem_cons.2 ⟨hlt, fun e' he' => hlt.trans (hrest.1 e' he')⟩
    · split
      · next heq =>
        subst heq
        exact List.pairwise_cons.2 hrest
      · next hlt hne =>
        refine List.pairwise_cons.2 ⟨fun e' he' => ?_, ih hrest.2⟩
        rcases mem_of_mem_insert he' with rfl | he'
        · exact lt_of_le_of_ne (not_lt.1 hlt) (Ne.symm hne)
        · exact hrest.1 e' he'

/-- The dictionary of a list is in order. -/
theorem sorted_ofList (entries : List (String × α)) : Sorted (ofList entries) := by
  have hfold : ∀ d, Sorted d → Sorted (entries.foldl (fun d e => insert e.1 e.2 d) d) := by
    induction entries with
    | nil => exact fun d h => h
    | cons e entries ih => exact fun d h => ih _ (sorted_insert h)
  exact hfold [] .nil

/-- In a dictionary in order, each key has one entry. -/
theorem Sorted.nodup (h : Sorted d) : (d.map (·.1)).Nodup :=
  List.pairwise_map.2 (h.imp fun hlt => ne_of_lt hlt)

/-- Dictionaries in order in which the same is found are the same. -/
theorem Sorted.ext {d' : Dictionary α} (h : Sorted d) (h' : Sorted d')
    (hget : ∀ key, get? d key = get? d' key) : d = d' := by
  have hmem {d : Dictionary α} (h : Sorted d) (e : String × α) :
      e ∈ d ↔ get? d e.1 = some e.2 := ⟨get?_of_mem h.nodup, mem_of_get?⟩
  have hperm : d.Perm d' := (List.perm_ext_iff_of_nodup (h.nodup.of_map _) (h'.nodup.of_map _)).2
    fun e => by rw [hmem h, hmem h', hget]
  exact hperm.eq_of_pairwise (fun e e' _ _ hlt hlt' => absurd hlt' hlt.asymm) h h'

/-- What comes after all entries is inserted at the end. -/
theorem insert_of_forall_lt (h : ∀ e ∈ d, e.1 < key) :
    insert key value d = d ++ [(key, value)] := by
  induction d with
  | nil => rfl
  | cons e d ih =>
    obtain ⟨he, hd⟩ := List.forall_mem_cons.1 h
    rw [insert, if_neg (not_lt.2 he.le), if_neg he.ne', ih hd]
    rfl

/-- Entries in order are the dictionary of themselves. -/
theorem ofList_of_sorted (h : Sorted d) : ofList d = d := by
  have hfold : ∀ front rest : Dictionary α, Sorted (front ++ rest) →
      rest.foldl (fun d e => insert e.1 e.2 d) front = front ++ rest := by
    intro front rest
    induction rest generalizing front with
    | nil => exact fun _ => (List.append_nil front).symm
    | cons e rest ih =>
      intro hsorted
      have hlt : ∀ e' ∈ front, e'.1 < e.1 := fun e' he' =>
        (List.pairwise_append.1 hsorted).2.2 e' he' e (.head _)
      rw [List.foldl_cons, insert_of_forall_lt hlt, ih, List.append_assoc]
      · rfl
      · rwa [List.append_assoc]
  exact hfold [] d h

end FinanceGateway.Dictionary
