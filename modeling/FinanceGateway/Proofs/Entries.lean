import Mathlib

/-!
# First entries

Of the entries of a key in a list, the first one counts. `IsFirst` says which value that is, and
`find?_eq_some_iff_isFirst` that it is the one found. An entry after one of its key can be left out,
and so can the entries of keys that nobody looks for (`find?_leave_out`).
-/

namespace FinanceGateway

variable {κ α : Type} {entries : List (κ × α)} {key : κ} {value : α}

/-- The first entry of a key has a value. -/
def IsFirst (entries : List (κ × α)) (key : κ) (value : α) : Prop :=
  ∃ before after, entries = before ++ (key, value) :: after ∧ ∀ e ∈ before, e.1 ≠ key

/-- The first entry of a key is one of the entries. -/
theorem IsFirst.mem (h : IsFirst entries key value) : (key, value) ∈ entries := by
  obtain ⟨before, after, rfl, -⟩ := h
  simp

variable [BEq κ] [LawfulBEq κ]

/-- What is found under a key is the value of its first entry. -/
theorem find?_eq_some_iff_isFirst :
    (entries.find? (·.1 == key)).map (·.2) = some value ↔ IsFirst entries key value := by
  simp only [Option.map_eq_some_iff, List.find?_eq_some_iff_append]
  constructor
  · rintro ⟨⟨k, v⟩, ⟨hkey, before, after, rfl, hbefore⟩, rfl⟩
    obtain rfl : k = key := by simpa using hkey
    exact ⟨before, after, rfl, fun e he => by simpa using hbefore e he⟩
  · rintro ⟨before, after, rfl, hbefore⟩
    exact ⟨(key, value), ⟨by simp, before, after, rfl, fun e he => by simpa using hbefore e he⟩,
      rfl⟩

/-- Nothing is found under a key exactly when no entry has it. -/
theorem find?_eq_none_iff_forall_ne :
    (entries.find? (·.1 == key)).map (·.2) = none ↔ ∀ e ∈ entries, e.1 ≠ key := by
  simp

/-- There is one value at most in the first entry of a key. -/
theorem IsFirst.unique {value' : α} (h : IsFirst entries key value)
    (h' : IsFirst entries key value') : value = value' := by
  rw [← find?_eq_some_iff_isFirst] at h h'
  exact Option.some.inj (h.symm.trans h')

/-- A key that some entry has, has a first entry. -/
theorem exists_isFirst (h : (key, value) ∈ entries) : ∃ first, IsFirst entries key first := by
  cases hfound : (entries.find? (·.1 == key)).map (·.2) with
  | none => exact absurd rfl (find?_eq_none_iff_forall_ne.1 hfound _ h)
  | some first => exact ⟨first, find?_eq_some_iff_isFirst.1 hfound⟩

/-- An entry of another key, or after one of its own key, makes no difference to what is found. -/
theorem find?_leave_out {before after : List (κ × α)} {entry : κ × α}
    (h : entry.1 ≠ key ∨ ∃ earlier ∈ before, earlier.1 = entry.1) :
    (before ++ entry :: after).find? (·.1 == key) = (before ++ after).find? (·.1 == key) := by
  rw [List.find?_append, List.find?_append]
  by_cases hkey : entry.1 = key
  · -- The entry has the key, so one before it has it too, and that one is found.
    obtain ⟨earlier, hmem, hearlier⟩ := h.resolve_left (not_not_intro hkey)
    have hsome : (before.find? (·.1 == key)).isSome = true := by
      rw [List.find?_isSome]
      exact ⟨earlier, hmem, by simp [hearlier, hkey]⟩
    obtain ⟨found, hfound⟩ := Option.isSome_iff_exists.1 hsome
    rw [hfound, Option.some_or, Option.some_or]
  · rw [List.find?_cons_of_neg (by simpa using hkey)]

end FinanceGateway
