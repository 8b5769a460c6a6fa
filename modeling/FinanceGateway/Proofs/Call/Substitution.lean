import FinanceGateway.Proofs.Call.Template
import FinanceGateway.Proofs.Url.Below

/-!
# What a path tells of its values

The text in place of a placeholder gives its value back when it is decoded (`Piece.Holds`) and has
no separator of an address in it, so all separators of a path are those of the template
(`Piece.separators_flatten`). Where each placeholder of a template ends with the segment
(`Piece.Delimited`), the path can be cut into these texts again, and so it tells the values of all
placeholders (`substitution_lossless_and_confined`).
-/

namespace FinanceGateway

namespace Piece

/-- A text in place of a piece: a literal is itself, and for a placeholder it is made of unreserved
characters and percent codes, and stands for the first value of the name. -/
inductive Holds (values : List (String × String)) : Piece → List Char → Prop
  | literal {c} : Holds values (.literal c) [c]
  | placeholder {name value text} : IsFirst values (String.ofList name) value →
      Percent.Coded text → Percent.decodeText? (String.ofList text) = some value →
      Holds values (.placeholder name) text

/-- The character of a literal. -/
def literal? : Piece → Option Char
  | literal c => some c
  | placeholder _ | unterminated => none

/-- A placeholder is followed by a slash, or by nothing. -/
def Delimited (pieces : List Piece) : Prop :=
  pieces.IsChain fun piece next => piece.literal? = none → next = .literal '/'

instance : DecidablePred Delimited :=
  fun pieces => inferInstanceAs (Decidable (pieces.IsChain _))

/-- Whether a character separates parts of an address. -/
def isSeparator (c : Char) : Bool :=
  c == '/' || c == '?' || c == '#'

variable {values values' : List (String × String)} {piece : Piece} {pieces : List Piece}
  {text : List Char} {texts : List (List Char)}

/-- Percent codes give the value back. -/
theorem Fills.holds (h : piece.Fills values text) : piece.Holds values text := by
  cases h with
  | literal => exact .literal
  | @placeholder name value hfirst =>
    refine .placeholder hfirst (Percent.coded_encode value) ?_
    rw [String.ofList_toList, Percent.decodeText?_encode]

/-- No separator gets into a text with percent codes. -/
theorem isSeparator_of_mem_encode {value : String} {c : Char}
    (h : c ∈ (Percent.encode value).toList) : isSeparator c = false := by
  rw [Bool.eq_false_iff]
  intro hc
  have hcoded := Percent.isCoded_of_mem_encode h
  simp only [isSeparator, Bool.or_eq_true, beq_iff_eq] at hc
  rcases hc with (rfl | rfl) | rfl <;> exact absurd hcoded (by decide)

/-- The separators in the text for a piece are those of the piece. -/
theorem Fills.separators (h : piece.Fills values text) :
    text.filter isSeparator = piece.literal?.toList.filter isSeparator := by
  cases h with
  | literal => rfl
  | placeholder =>
    rw [List.filter_eq_nil_iff.2 fun c hc => by simp [isSeparator_of_mem_encode hc]]
    rfl

/-- The separators in the texts for pieces are those of the literals. -/
theorem separators_flatten (h : List.Forall₂ (Fills values) pieces texts) :
    texts.flatten.filter isSeparator = (pieces.filterMap literal?).filter isSeparator := by
  induction h with
  | nil => rfl
  | @cons piece text pieces texts hfirst _ ih =>
    rw [List.flatten_cons, List.filter_append, hfirst.separators, ih, ← List.filter_append]
    cases hliteral : piece.literal? <;> simp [hliteral]

/-- Two texts up to the first slash are the same when they go on to the same text. -/
theorem eq_of_append_slash_eq {front front' back back' : List Char} (h : '/' ∉ front)
    (h' : '/' ∉ front') (heq : front ++ '/' :: back = front' ++ '/' :: back') :
    front = front' ∧ back = back' := by
  have hcut {front back : List Char} (h : '/' ∉ front) :
      Url.cut (· == '/') (front ++ '/' :: back) = (front, '/' :: back) := by
    have hall : ∀ c ∈ front, (c == '/') = false := fun c hc => by
      simpa using fun heq : c = '/' => h (heq ▸ hc)
    rw [Url.cut_append_cons _ _ (by decide), Url.cut_of_forall hall]
    rfl
  have := congrArg (Url.cut (· == '/')) heq
  rw [hcut h, hcut h'] at this
  simpa using this

/-- Delimited pieces that are filled to the same text have the same value for each placeholder. -/
theorem Delimited.exists_shared_value {texts' : List (List Char)} (hdelimited : Delimited pieces)
    (h : List.Forall₂ (Fills values) pieces texts)
    (h' : List.Forall₂ (Fills values') pieces texts') (heq : texts.flatten = texts'.flatten) :
    ∀ name, .placeholder name ∈ pieces → ∃ value, IsFirst values (String.ofList name) value ∧
      IsFirst values' (String.ofList name) value := by
  induction h generalizing texts' with
  | nil => exact nofun
  | @cons piece text pieces texts hfirst hrest ih =>
    cases h' with
    | @cons _ text' _ texts' hfirst' hrest' =>
    intro name hname
    cases hfirst with
    | literal =>
      cases hfirst'
      have hsame : texts.flatten = texts'.flatten := (List.cons.inj heq).2
      exact ih (List.IsChain.tail hdelimited) hrest' hsame name
        ((List.mem_cons.1 hname).resolve_left nofun)
    | @placeholder first value hvalue =>
      cases hfirst' with
      | @placeholder _ value' hvalue' =>
      have hslash (value : String) : '/' ∉ (Percent.encode value).toList := fun hmem =>
        absurd (isSeparator_of_mem_encode hmem) (by decide)
      -- The two texts of this placeholder end where the segment does, so they are the same, and so
      -- is what follows them.
      have hsame : (Percent.encode value).toList = (Percent.encode value').toList ∧
          texts.flatten = texts'.flatten := by
        rw [List.flatten_cons, List.flatten_cons] at heq
        cases hrest with
        | nil =>
          cases hrest'
          exact ⟨by simpa using heq, rfl⟩
        | @cons next _ _ texts hnext' _ =>
          obtain rfl : next = .literal '/' := (List.isChain_cons_cons.1 hdelimited).1 rfl
          cases hnext'
          cases hrest' with
          | @cons _ _ _ texts' hnext'' _ =>
          cases hnext''
          obtain ⟨htext, htexts⟩ := eq_of_append_slash_eq (hslash value) (hslash value') heq
          exact ⟨htext, congrArg ('/' :: ·) htexts⟩
      obtain rfl := Percent.encode_injective (String.toList_inj.1 hsame.1)
      rcases List.mem_cons.1 hname with hname | hname
      · cases hname
        exact ⟨value, hvalue, hvalue'⟩
      · exact ih (List.IsChain.tail hdelimited) hrest' hsame.2 name hname

end Piece

/-- A path that is resolved from a template with delimited placeholders holds the first values of
their names: in place of each stands a text of unreserved characters and percent codes that stands
for the value. So the path has the separators of the template's literals and no other, and any call
with the template and this path gives the same values to all placeholders. -/
theorem substitution_lossless_and_confined {call : Call} {path : String} {pieces : List Piece}
    (hreads : Piece.Reads call.template.toList pieces) (hdelimited : Piece.Delimited pieces)
    (hpath : call.resolve = .ok path) :
    (∃ texts, List.Forall₂ (Piece.Holds call.pathValues) pieces texts ∧
      path = String.ofList texts.flatten) ∧
    path.toList.filter Piece.isSeparator =
      (pieces.filterMap Piece.literal?).filter Piece.isSeparator ∧
    ∀ other : Call, other.template = call.template → other.resolve = .ok path →
      ∀ name value, .placeholder name ∈ pieces →
        (IsFirst call.pathValues (String.ofList name) value ↔
          IsFirst other.pathValues (String.ofList name) value) := by
  obtain ⟨texts, htexts, rfl⟩ := (Call.resolve_eq_ok_iff hreads).1 hpath
  refine ⟨⟨texts, htexts.imp fun _ _ => Piece.Fills.holds, rfl⟩, ?_, ?_⟩
  · rw [String.toList_ofList, Piece.separators_flatten htexts]
  · intro other htemplate hother name value hname
    rw [← htemplate] at hreads
    obtain ⟨texts', htexts', hsame⟩ := (Call.resolve_eq_ok_iff hreads).1 hother
    obtain ⟨shared, hfirst, hfirst'⟩ := hdelimited.exists_shared_value htexts htexts'
      (String.ofList_injective hsame) name hname
    exact ⟨fun h => h.unique hfirst ▸ hfirst', fun h => h.unique hfirst' ▸ hfirst⟩

/-- A path with a mark in a literal and marks in a value; the value is told by the path. -/
theorem marks_in_values_are_told :
    let call : Call := {
      method := "GET"
      template := "/a?\x7d/\x7bid\x7d/b/\x7bid\x7d"
      pathValues := [("id", "ö/?"), ("id", "z")] }
    call.resolve = .ok "/a?\x7d/%C3%B6%2F%3F/b/%C3%B6%2F%3F" ∧
      ∀ other : Call, other.template = call.template → other.resolve = call.resolve →
        IsFirst other.pathValues "id" "ö/?" := by
  intro call
  have hpath : call.resolve = .ok "/a?\x7d/%C3%B6%2F%3F/b/%C3%B6%2F%3F" := by decide +kernel
  obtain ⟨-, -, hothers⟩ := substitution_lossless_and_confined (Piece.reads_iff.2 rfl)
    (by decide +kernel) hpath
  refine ⟨hpath, fun other htemplate hother => ?_⟩
  rw [hpath] at hother
  exact (hothers other htemplate hother "id".toList "ö/?" (by decide +kernel)).1
    ⟨[], _, rfl, nofun⟩

end FinanceGateway
