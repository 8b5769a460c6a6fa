import FinanceGateway.Failure.Details
import FinanceGateway.Proofs.Dictionary

/-!
# Field errors in error details

A backend lists field errors, with a field as often as it likes and with entries that lack the field
or the text; the details have at most one error for each field. `get?_collectFieldErrors` says which
one: the last entry of the field that tells something (`FieldError.Tells`). So an entry counts only
among those of its own field (`collectFieldErrors_congr`), and `field_errors_are_the_last_told` says
what the details of every body answer about their fields.
-/

namespace FinanceGateway

/-- The entry has both a field and a text. -/
def FieldError.Tells (e : FieldError) : Prop :=
  e.field ≠ "" ∧ e.error ≠ ""

instance (e : FieldError) : Decidable e.Tells :=
  inferInstanceAs (Decidable (_ ∧ _))

/-- Of the entries of a field that tell something, the last one has this text. -/
def IsLastTold (errors : List FieldError) (field text : String) : Prop :=
  ∃ before after, errors = before ++ ⟨field, text⟩ :: after ∧ FieldError.Tells ⟨field, text⟩ ∧
    ∀ e ∈ after, e.field = field → ¬e.Tells

namespace ErrorDetails

variable {errors others : List FieldError} {field text : String}

/-- The collected error of a field is that of its last entry that tells something. -/
theorem get?_collectFieldErrors (errors : List FieldError) (field : String) :
    (collectFieldErrors errors).get? field =
      (errors.reverse.find? fun e => decide (e.field = field ∧ e.Tells)).map (·.error) := by
  have htells (e : FieldError) : (!e.field.isEmpty && !e.error.isEmpty) = decide e.Tells := by
    rw [Bool.eq_iff_iff, decide_eq_true_iff, FieldError.Tells]
    simp
  rw [collectFieldErrors, Dictionary.get?_ofList_eq_reverse, Dictionary.get?, ← List.map_reverse,
    ← List.filter_reverse, List.find?_map, List.find?_filter, Option.map_map]
  simp only [htells, Function.comp_def, decide_eq_true_eq, beq_iff_eq, and_comm]

theorem get?_collectFieldErrors_eq_some_iff :
    (collectFieldErrors errors).get? field = some text ↔ IsLastTold errors field text := by
  rw [get?_collectFieldErrors, Option.map_eq_some_iff]
  simp only [List.find?_eq_some_iff_append]
  constructor
  · rintro ⟨⟨field', text⟩, ⟨htold, after, before, hreverse, hafter⟩, rfl⟩
    obtain ⟨rfl, htells⟩ := of_decide_eq_true htold
    refine ⟨before.reverse, after.reverse, ?_, htells, fun e he hfield htells' => ?_⟩
    · rw [← List.reverse_reverse errors, hreverse]
      simp
    · have := hafter e (List.mem_reverse.1 he)
      simp [hfield, htells'] at this
  · rintro ⟨before, after, rfl, htells, hafter⟩
    refine ⟨⟨field, text⟩, ⟨decide_eq_true ⟨rfl, htells⟩, after.reverse, before.reverse, ?_, ?_⟩,
      rfl⟩
    · simp
    · intro e he
      rw [decide_eq_false fun htold => hafter e (List.mem_reverse.1 he) htold.1 htold.2]
      rfl

theorem get?_collectFieldErrors_eq_none_iff :
    (collectFieldErrors errors).get? field = none ↔
      ∀ e ∈ errors, e.field = field → ¬e.Tells := by
  rw [get?_collectFieldErrors, Option.map_eq_none_iff, List.find?_eq_none]
  simp

/-- Nothing is collected exactly when no entry tells something. -/
theorem collectFieldErrors_eq_nil_iff :
    collectFieldErrors errors = [] ↔ ∀ e ∈ errors, ¬e.Tells := by
  constructor
  · intro h e he
    refine get?_collectFieldErrors_eq_none_iff.1 ?_ e he rfl
    rw [h, Dictionary.get?_nil]
  · intro h
    refine Dictionary.Sorted.ext (Dictionary.sorted_ofList _) .nil fun field => ?_
    exact get?_collectFieldErrors_eq_none_iff.2 fun e he _ => h e he

/-- What is collected goes by the entries of each field, in their order. -/
theorem collectFieldErrors_congr
    (h : ∀ field, errors.filter (·.field == field) = others.filter (·.field == field)) :
    collectFieldErrors errors = collectFieldErrors others := by
  have hfind (errors : List FieldError) (field : String) :
      errors.reverse.find? (fun e => decide (e.field = field ∧ e.Tells)) =
        (errors.filter (·.field == field)).reverse.find? fun e => decide e.Tells := by
    rw [← List.filter_reverse, List.find?_filter]
    simp
  refine Dictionary.Sorted.ext (Dictionary.sorted_ofList _) (Dictionary.sorted_ofList _)
    fun field => ?_
  rw [get?_collectFieldErrors, get?_collectFieldErrors, hfind, hfind, h]

/-- The details of what a backend says have, for each field, the text of the last listed entry that
has this field and a text, neither of them empty; they have none where there is no such entry, and
none at all exactly when there is none for any field. How the entries of different fields are mixed
makes no difference. -/
theorem field_errors_are_the_last_told (said : BackendError) :
    (∀ field text, (ofBackend said).fieldError? field = some text ↔
      IsLastTold (said.errors.getD []) field text) ∧
    (∀ field, (ofBackend said).fieldError? field = none ↔
      ¬∃ e ∈ said.errors.getD [], e.field = field ∧ e.Tells) ∧
    ((ofBackend said).hasFieldErrors = true ↔ ∃ e ∈ said.errors.getD [], e.Tells) ∧
    ∀ others, (∀ field, others.filter (·.field == field) =
        (said.errors.getD []).filter (·.field == field)) →
      ofBackend { said with errors := some others } = ofBackend said := by
  refine ⟨fun field text => get?_collectFieldErrors_eq_some_iff, fun field => ?_, ?_,
    fun others h => ?_⟩
  · rw [fieldError?, ofBackend, get?_collectFieldErrors_eq_none_iff]
    simp
  · rw [hasFieldErrors, ofBackend, Bool.not_eq_true', ← Bool.not_eq_true, List.isEmpty_iff,
      collectFieldErrors_eq_nil_iff]
    simp
  · simp only [ofBackend, Option.getD_some, collectFieldErrors_congr h]

/-- An entry without a text does not take an earlier one back, and one without a field leaves
nothing behind, wherever the entries of other fields stand. -/
theorem entry_without_text_takes_nothing_back :
    let said : BackendError := { message := "invalid", errors := some [⟨"name", "too short"⟩,
      ⟨"", "orphan"⟩, ⟨"name", "required"⟩, ⟨"age", "too low"⟩, ⟨"name", ""⟩] }
    let mixed : BackendError := { said with errors := some [⟨"age", "too low"⟩,
      ⟨"name", "too short"⟩, ⟨"name", "required"⟩, ⟨"name", ""⟩, ⟨"", "orphan"⟩] }
    (ofBackend said).fieldError? "name" = some "required" ∧
      (ofBackend said).fieldError? "" = none ∧ (ofBackend said).hasFieldErrors = true ∧
      ofBackend mixed = ofBackend said := by
  intro said mixed
  obtain ⟨hsome, hnone, hany, hmixed⟩ := field_errors_are_the_last_told said
  have hlast : IsLastTold (said.errors.getD []) "name" "required" :=
    ⟨[⟨"name", "too short"⟩, ⟨"", "orphan"⟩], [⟨"age", "too low"⟩, ⟨"name", ""⟩], rfl, by decide,
      by decide⟩
  refine ⟨(hsome _ _).2 hlast, (hnone "").2 (by decide), hany.2 (by decide),
    hmixed _ fun field => ?_⟩
  by_cases hlisted : field ∈ ["name", "age", ""]
  · simp only [List.mem_cons, List.not_mem_nil, or_false] at hlisted
    rcases hlisted with rfl | rfl | rfl <;> rfl
  · obtain ⟨hname, hage, hempty⟩ : "name" ≠ field ∧ "age" ≠ field ∧ "" ≠ field := by
      simpa [eq_comm] using hlisted
    simp [said, hname, hage, hempty]

end ErrorDetails

end FinanceGateway
