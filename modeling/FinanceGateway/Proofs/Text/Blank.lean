import FinanceGateway.Text.Blank
import Mathlib

/-!
# Trimming

`Trims` says what it is to trim a text: what is left out around it is blank, and what stays begins
and ends with a character that is not. There is one such text, and `trim` finds it (`trims_iff`). A
text that is not blank keeps, when it is trimmed, a character that is not blank, so what `nonBlank?`
gives is never blank: it is the trimmed text, when that is not empty (`nonBlank?_eq_some_iff`).
-/

namespace FinanceGateway.Text

/-- One text is another without the blank characters around it. -/
structure Trims (s t : String) : Prop where
  around : ∃ lead trail, s.toList = lead ++ t.toList ++ trail ∧
    ∀ c ∈ lead ++ trail, isBlankChar c = true
  ends : ∀ c, t.toList.head? = some c ∨ t.toList.getLast? = some c → isBlankChar c = false

/-- What is left from the first character on that is not of a kind begins with it. -/
theorem eq_false_of_head?_dropWhile {p : Char → Bool} {cs : List Char} {c : Char}
    (h : (cs.dropWhile p).head? = some c) : p c = false := by
  have := List.head?_dropWhile_not p cs
  rwa [h] at this

/-- What is around a trimmed text is blank, and its own ends are not. -/
theorem trims_trim (s : String) : Trims s (trim s) := by
  let rest := s.toList.dropWhile isBlankChar
  let trail := (rest.reverse.takeWhile isBlankChar).reverse
  have htrim : (trim s).toList = (rest.reverse.dropWhile isBlankChar).reverse :=
    String.toList_ofList
  have hrest : (trim s).toList ++ trail = rest := by
    rw [htrim, ← List.reverse_append, List.takeWhile_append_dropWhile, List.reverse_reverse]
  have hall {cs : List Char} : ∀ c ∈ cs.takeWhile isBlankChar, isBlankChar c = true :=
    List.all_eq_true.1 List.all_takeWhile
  refine ⟨⟨s.toList.takeWhile isBlankChar, trail, ?_, fun c hc => ?_⟩, fun c hc => ?_⟩
  · rw [List.append_assoc, hrest, List.takeWhile_append_dropWhile]
  · rcases List.mem_append.1 hc with hc | hc
    · exact hall c hc
    · exact hall c (List.mem_reverse.1 hc)
  · rcases hc with hc | hc
    · have hhead : rest.head? = some c := by
        rw [← hrest, List.head?_append, hc, Option.some_or]
      exact eq_false_of_head?_dropWhile hhead
    · rw [htrim, List.getLast?_reverse] at hc
      exact eq_false_of_head?_dropWhile hc

/-- A trimmed text is blank when the text is. -/
theorem Trims.isBlank_eq {s t : String} (h : Trims s t) : isBlank t = isBlank s := by
  obtain ⟨lead, trail, hs, hblank⟩ := h.around
  have hlead : lead.all isBlankChar = true :=
    List.all_eq_true.2 fun c hc => hblank c (List.mem_append_left _ hc)
  have htrail : trail.all isBlankChar = true :=
    List.all_eq_true.2 fun c hc => hblank c (List.mem_append_right _ hc)
  rw [isBlank, isBlank, hs, List.all_append, List.all_append, hlead, htrail, Bool.true_and,
    Bool.and_true]

/-- Blank characters before others are dropped, and no more. -/
theorem dropWhile_isBlankChar_append {more cs : List Char}
    (hmore : ∀ c ∈ more, isBlankChar c = true)
    (hcs : ∀ c, cs.head? = some c → isBlankChar c = false) :
    (more ++ cs).dropWhile isBlankChar = cs := by
  rw [List.dropWhile_append_of_pos hmore]
  cases cs with
  | nil => rfl
  | cons c cs => rw [List.dropWhile_cons_of_neg (Bool.eq_false_iff.1 (hcs c rfl))]

/-- There is one way to trim a text. -/
theorem trims_iff {s t : String} : Trims s t ↔ trim s = t := by
  refine ⟨fun h => ?_, fun h => h ▸ trims_trim s⟩
  obtain ⟨⟨lead, trail, hs, hblank⟩, hends⟩ := h
  have hlead : ∀ c ∈ lead, isBlankChar c = true := fun c hc => hblank c (List.mem_append_left _ hc)
  have htrail : ∀ c ∈ trail.reverse, isBlankChar c = true := fun c hc =>
    hblank c (List.mem_append_right _ (List.mem_reverse.1 hc))
  have hchars : trimChars s.toList = t.toList := by
    rw [hs, List.append_assoc, trimChars, trimEndChars]
    cases ht : t.toList with
    | nil =>
      have hnone : (lead ++ trail).dropWhile isBlankChar = [] := List.dropWhile_eq_nil_iff.2 hblank
      rw [List.nil_append, hnone]
      rfl
    | cons c cs =>
      rw [ht] at hends
      have hhead : ∀ d, (c :: cs ++ trail).head? = some d → isBlankChar d = false := fun d hd =>
        hends d (.inl hd)
      rw [dropWhile_isBlankChar_append hlead hhead, List.reverse_append,
        dropWhile_isBlankChar_append htrail fun d hd => hends d (.inr (List.head?_reverse ▸ hd)),
        List.reverse_reverse]
  rw [trim, hchars, String.ofList_toList]

/-- The trimmed text of a text that is not blank is not blank either. -/
theorem isBlank_of_nonBlank? {s t : String} (h : nonBlank? s = some t) : isBlank t = false := by
  rw [nonBlank?] at h
  split at h
  · cases h
  · next hs =>
    cases h
    rw [(trims_trim s).isBlank_eq, Bool.eq_false_iff]
    exact hs

/-- No blank character stands at either end of the text. -/
def IsTrimmed (t : String) : Prop :=
  ∀ c, t.toList.head? = some c ∨ t.toList.getLast? = some c → isBlankChar c = false

/-- A text without blank characters at its ends is trimmed as it is. -/
theorem IsTrimmed.trims {t : String} (h : IsTrimmed t) : Trims t t :=
  ⟨⟨[], [], by simp, nofun⟩, h⟩

/-- A text none of whose characters is blank has none at its ends. -/
theorem isTrimmed_of_forall {t : String} (h : ∀ c ∈ t.toList, isBlankChar c = false) :
    IsTrimmed t := fun c hc =>
  h c (hc.elim List.mem_of_head? List.mem_of_getLast?)

/-- What is left of a text when something is: the trimmed text, unless that is empty. -/
theorem nonBlank?_eq_some_iff {s t : String} : nonBlank? s = some t ↔ t ≠ "" ∧ Trims s t := by
  constructor
  · intro h
    have hblank := isBlank_of_nonBlank? h
    rw [nonBlank?] at h
    split at h
    · cases h
    · cases h
      refine ⟨fun hempty => ?_, trims_trim s⟩
      rw [hempty] at hblank
      cases hblank
  · rintro ⟨hne, h⟩
    obtain ⟨c, cs, hcs⟩ := List.exists_cons_of_ne_nil (mt String.toList_eq_nil_iff.1 hne)
    have hc : isBlankChar c = false := h.ends c (.inl (by rw [hcs]; rfl))
    have hblank : isBlank t = false := by simp [isBlank, hcs, hc]
    rw [nonBlank?, ← h.isBlank_eq, hblank, trims_iff.1 h]
    rfl

end FinanceGateway.Text
