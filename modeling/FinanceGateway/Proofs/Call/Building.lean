import FinanceGateway.Proofs.Call.Template

/-!
# What the steps of a call come to

A step of building a call has a kind, and touches only what its kind is about. So a call is what the
steps of each kind come to by themselves (`Call.build_eq`), in whatever order the kinds are mixed
(`Call.build_congr`). Values of placeholders and of the query are collected, and of the declared
errors the first one of a status counts. Only the body forgets: a JSON body replaces what was there,
a form field replaces a JSON body and is put after other form fields (`Call.BodyOf`).
-/

namespace FinanceGateway

namespace Call

/-! ## What a step is about -/

/-- What a step of building a call is about. JSON bodies and form fields are of one kind. -/
inductive Step.Kind
  | pathValue
  | query
  | body
  | errors
  deriving DecidableEq

namespace Step

/-- The kind of a step. -/
def kind : Step → Kind
  | .pathValue .. => .pathValue
  | .query .. => .query
  | .json _ | .field .. => .body
  | .errors _ => .errors

/-- The value that a step gives to a placeholder. -/
def boundValue? : Step → Option (String × String)
  | .pathValue name value => some (name, value)
  | _ => none

/-- The entry that a step adds to the query, with a value or without. -/
def queryEntry? : Step → Option (String × Option String)
  | .query name value => some (name, value)
  | _ => none

/-- The query value of a step, if it has one that is present. -/
def queryValue? : Step → Option (String × String)
  | .query name (some value) => some (name, value)
  | _ => none

/-- The form field of a step. -/
def field? : Step → Option FormField
  | .field name value => some ⟨name, value⟩
  | _ => none

/-- What a step declares about error statuses. -/
def declared? : Step → Option (List (Nat × String))
  | .errors entries => some entries
  | _ => none

/-- A body that there is none of ends the building of a call. -/
def failure? : Step → Option InvalidRequest
  | .json (.error reason) => some (.unserializable reason)
  | _ => none

/-- A body after a step. -/
def revise (body : CallBody) : Step → CallBody
  | .json (.ok value) => .json value
  | .field name value => addField ⟨name, value⟩ body
  | _ => body

/-- A body stays as it is unless the step is about it. -/
theorem revise_of_kind_ne {step : Step} (h : step.kind ≠ .body) (body : CallBody) :
    step.revise body = body := by
  cases step with
  | pathValue | query | errors => rfl
  | json | field => exact absurd rfl h

theorem failure?_eq_some_iff {step : Step} {e : InvalidRequest} :
    step.failure? = some e ↔
      ∃ reason, step = .json (.error reason) ∧ e = .unserializable reason := by
  cases step with
  | pathValue | query | field | errors => exact ⟨nofun, nofun⟩
  | json body =>
    cases body with
    | ok => exact ⟨nofun, nofun⟩
    | error reason =>
      constructor
      · intro h
        cases h
        exact ⟨reason, rfl, rfl⟩
      · rintro ⟨_, heq, rfl⟩
        cases heq
        rfl

end Step

/-! ## All steps together -/

variable {steps others : List Step}

/-- What a list of steps adds to a call, if no step ends the building. -/
def extended (call : Call) (steps : List Step) : Call where
  method := call.method
  template := call.template
  pathValues := call.pathValues ++ steps.filterMap Step.boundValue?
  query := call.query ++ steps.filterMap Step.queryEntry?
  body := steps.foldl (fun body step => step.revise body) call.body
  errors := call.errors ++ (steps.filterMap Step.declared?).flatten

/-- One step of building a call. -/
theorem apply_eq (call : Call) (step : Step) :
    call.apply step = match step.failure? with
      | some e => .error e
      | none => .ok (call.extended [step]) := by
  cases step with
  | pathValue | query | field | errors => simp [apply, extended, Step.failure?, Step.boundValue?,
      Step.queryEntry?, Step.declared?, Step.revise]
  | json body =>
    cases body with
    | ok => simp [apply, extended, Step.failure?, Step.boundValue?, Step.queryEntry?,
        Step.declared?, Step.revise]
    | error => rfl

theorem extended_extended (call : Call) (steps others : List Step) :
    (call.extended steps).extended others = call.extended (steps ++ others) := by
  simp [extended]

/-- A call is built to what all its steps add, unless one of them ends the building: then the first
such step is the reason. -/
theorem build_eq (call : Call) (steps : List Step) :
    call.build steps = match steps.findSome? Step.failure? with
      | some e => .error e
      | none => .ok (call.extended steps) := by
  induction steps generalizing call with
  | nil => simp [build, extended]
  | cons step steps ih =>
    rw [build, apply_eq, List.findSome?_cons]
    cases step.failure? with
    | some e => rfl
    | none => simp only [ih, extended_extended, List.singleton_append]

/-! ## Steps of different kinds -/

/-- The steps of each kind are the same in both lists, in the same order; how the kinds are mixed is
left open. -/
def SameByKind (steps others : List Step) : Prop :=
  ∀ kind, others.filter (·.kind = kind) = steps.filter (·.kind = kind)

/-- What is collected from the steps of one kind is the same when these are. -/
theorem SameByKind.filterMap_eq {α : Type} {f : Step → Option α}
    (h : SameByKind steps others) (kind : Step.Kind)
    (hf : ∀ step : Step, step.kind ≠ kind → f step = none) :
    others.filterMap f = steps.filterMap f := by
  have hkind (list : List Step) :
      list.filterMap f = (list.filter (·.kind = kind)).filterMap f := by
    rw [List.filterMap_filter]
    refine List.filterMap_congr fun step _ => ?_
    by_cases hstep : step.kind = kind
    · rw [if_pos (decide_eq_true hstep)]
    · rw [if_neg (by simpa using hstep), hf step hstep]
  rw [hkind others, hkind steps, h kind]

/-- A body that the steps of its own kind come to is the same when these are. -/
theorem SameByKind.foldl_revise_eq (h : SameByKind steps others) (body : CallBody) :
    others.foldl (fun body step => step.revise body) body =
      steps.foldl (fun body step => step.revise body) body := by
  have hkind (list : List Step) : list.foldl (fun body step => step.revise body) body =
      (list.filter (·.kind = .body)).foldl (fun body step => step.revise body) body := by
    rw [List.foldl_filter]
    congr 1
    funext body step
    by_cases hstep : step.kind = .body
    · rw [if_pos (decide_eq_true hstep)]
    · rw [if_neg (by simpa using hstep), Step.revise_of_kind_ne hstep]
  rw [hkind others, hkind steps, h]

theorem SameByKind.extended_eq (h : SameByKind steps others) (call : Call) :
    call.extended others = call.extended steps := by
  have hbound : others.filterMap Step.boundValue? = steps.filterMap Step.boundValue? := by
    refine h.filterMap_eq .pathValue fun step hne => ?_
    cases step with
    | pathValue => exact absurd rfl hne
    | query | json | field | errors => rfl
  have hquery : others.filterMap Step.queryEntry? = steps.filterMap Step.queryEntry? := by
    refine h.filterMap_eq .query fun step hne => ?_
    cases step with
    | query => exact absurd rfl hne
    | pathValue | json | field | errors => rfl
  have hdeclared : others.filterMap Step.declared? = steps.filterMap Step.declared? := by
    refine h.filterMap_eq .errors fun step hne => ?_
    cases step with
    | errors => exact absurd rfl hne
    | pathValue | query | json | field => rfl
  rw [extended, extended, hbound, hquery, hdeclared, h.foldl_revise_eq]

/-- How steps of different kinds are mixed makes no difference, also for what ends the building. -/
theorem build_congr (h : SameByKind steps others) (call : Call) :
    call.build others = call.build steps := by
  have hfailure : others.findSome? Step.failure? = steps.findSome? Step.failure? := by
    rw [← List.head?_filterMap, ← List.head?_filterMap]
    refine congrArg List.head? (h.filterMap_eq .body fun step hne => ?_)
    cases step with
    | json => exact absurd rfl hne
    | pathValue | query | field | errors => rfl
  rw [build_eq, build_eq, hfailure, h.extended_eq]

/-! ## The body -/

/-- The body that steps come to, starting from none. -/
inductive BodyOf : List Step → CallBody → Prop
  | empty {steps : List Step} : (∀ step ∈ steps, step.kind ≠ .body) → BodyOf steps .empty
  /-- The last JSON body, if no form field comes after it. -/
  | json {front back value} : (∀ step ∈ back, step.kind ≠ .body) →
      BodyOf (front ++ .json (.ok value) :: back) (.json value)
  /-- The form fields, if there is a form field and no JSON body. -/
  | form {steps : List Step} : (∀ body, .json body ∉ steps) → steps.filterMap Step.field? ≠ [] →
      BodyOf steps (.form (steps.filterMap Step.field?))
  /-- The form fields after the last JSON body, if there are some. -/
  | formAfter {front back value} : (∀ body, .json body ∉ back) → back.filterMap Step.field? ≠ [] →
      BodyOf (front ++ .json (.ok value) :: back) (.form (back.filterMap Step.field?))

/-- No step is about the body when there is no JSON body and no form field. -/
theorem forall_kind_ne_iff :
    (∀ step ∈ steps, step.kind ≠ .body) ↔
      (∀ body, .json body ∉ steps) ∧ steps.filterMap Step.field? = [] := by
  rw [List.filterMap_eq_nil_iff]
  constructor
  · intro h
    refine ⟨fun body hmem => h _ hmem rfl, fun step hmem => ?_⟩
    cases step with
    | field => exact absurd rfl (h _ hmem)
    | pathValue | query | json | errors => rfl
  · rintro ⟨hjson, hfield⟩ step hmem
    cases step with
    | json body => exact absurd hmem (hjson body)
    | field => exact absurd (hfield _ hmem) nofun
    | pathValue | query | errors => exact nofun

/-- The form fields of a body; a body that is no form has none. -/
def fieldsOf : CallBody → List FormField
  | .form fields => fields
  | _ => []

/-- Without a JSON body, steps put their form fields after those that are there. -/
theorem foldl_revise_of_no_json (h : ∀ body, .json body ∉ steps) (body : CallBody) :
    steps.foldl (fun body step => step.revise body) body =
      if steps.filterMap Step.field? = [] then body
      else .form (fieldsOf body ++ steps.filterMap Step.field?) := by
  induction steps generalizing body with
  | nil => rfl
  | cons step steps ih =>
    have hrest := ih fun body hmem => h body (.tail _ hmem)
    cases step with
    | pathValue | query | errors => exact hrest body
    | json other => exact absurd (.head _) (h other)
    | field name value =>
      have hrevise : (Step.field name value).revise body =
          .form (fieldsOf body ++ [⟨name, value⟩]) := by
        cases body <;> rfl
      have hfields : (Step.field name value :: steps).filterMap Step.field? =
          ⟨name, value⟩ :: steps.filterMap Step.field? := rfl
      rw [List.foldl_cons, hrevise, hrest, hfields, if_neg (List.cons_ne_nil _ _)]
      split
      · next hnone => rw [hnone]
      · rw [fieldsOf, List.append_assoc, List.singleton_append]

/-- There is no JSON body among steps, or a last one. -/
theorem no_json_or_last (steps : List Step) :
    (∀ body, .json body ∉ steps) ∨ ∃ front body back, steps = front ++ .json body :: back ∧
      ∀ other, .json other ∉ back := by
  induction steps with
  | nil => exact .inl nofun
  | cons step steps ih =>
    rcases ih with hnone | ⟨front, body, back, rfl, hback⟩
    · by_cases hstep : ∃ body, step = .json body
      · obtain ⟨body, rfl⟩ := hstep
        exact .inr ⟨[], body, steps, rfl, hnone⟩
      · refine .inl fun body hmem => ?_
        rcases List.mem_cons.1 hmem with heq | hmem
        · exact hstep ⟨body, heq.symm⟩
        · exact hnone body hmem
    · exact .inr ⟨step :: front, body, back, rfl, hback⟩

/-- A body is what its steps come to exactly when it is the one that they are folded to. -/
theorem bodyOf_iff (h : ∀ step ∈ steps, step.failure? = none) {body : CallBody} :
    BodyOf steps body ↔ body = steps.foldl (fun body step => step.revise body) .empty := by
  -- The steps up to the last JSON body have no effect, and after it only form fields count.
  have hafter (front : List Step) (value : Json) (back : List Step) :
      (front ++ .json (.ok value) :: back).foldl (fun body step => step.revise body) .empty =
        back.foldl (fun body step => step.revise body) (.json value) := by
    rw [List.foldl_append, List.foldl_cons]
    rfl
  constructor
  · intro hbody
    cases hbody with
    | empty hother =>
      obtain ⟨hjson, hfields⟩ := forall_kind_ne_iff.1 hother
      rw [foldl_revise_of_no_json hjson, if_pos hfields]
    | json hother =>
      obtain ⟨hjson, hfields⟩ := forall_kind_ne_iff.1 hother
      rw [hafter, foldl_revise_of_no_json hjson, if_pos hfields]
    | form hjson hfields =>
      rw [foldl_revise_of_no_json hjson, if_neg hfields]
      rfl
    | formAfter hjson hfields =>
      rw [hafter, foldl_revise_of_no_json hjson, if_neg hfields]
      rfl
  · rintro rfl
    rcases no_json_or_last steps with hjson | ⟨front, body, back, rfl, hjson⟩
    · rw [foldl_revise_of_no_json hjson]
      split
      · next hfields => exact .empty (forall_kind_ne_iff.2 ⟨hjson, hfields⟩)
      · next hfields => exact .form hjson hfields
    · cases body with
      | error reason => exact absurd (h (.json (.error reason)) (by simp)) nofun
      | ok value =>
        rw [hafter, foldl_revise_of_no_json hjson]
        split
        · next hfields => exact .json (forall_kind_ne_iff.2 ⟨hjson, hfields⟩)
        · next hfields => exact .formAfter hjson hfields

/-! ## What a call is read as -/

/-- What an error status means to a call that declares some errors: the first declared meaning,
else the common one, else none. -/
inductive Means (declared : List (Nat × String)) (status : Nat) : Option String → Prop
  | declared {meaning} : IsFirst declared status meaning → Means declared status (some meaning)
  | common {meaning} : (∀ e ∈ declared, e.1 ≠ status) → (status, meaning) ∈ commonErrors →
      Means declared status (some meaning)
  | unknown : (∀ e ∈ declared, e.1 ≠ status) → (∀ e ∈ commonErrors, e.1 ≠ status) →
      Means declared status none

variable {call : Call} {status : Nat}

/-- No status has two common meanings. -/
theorem commonErrors_unique :
    ∀ e ∈ commonErrors, ∀ e' ∈ commonErrors, e.1 = e'.1 → e.2 = e'.2 := by
  decide

/-- The meaning of an error status, by what a call declares. -/
theorem errorMeaning?_eq_iff {meaning : Option String} :
    call.errorMeaning? status = meaning ↔ Means call.errors status meaning := by
  have hfound : call.errorMeaning? status = ((call.errors.find? (·.1 == status)).map (·.2)).or
      ((commonErrors.find? (·.1 == status)).map (·.2)) := by
    rw [errorMeaning?, List.find?_append, Option.map_or]
  have hcommon {meaning : String} (hmem : (status, meaning) ∈ commonErrors) :
      (commonErrors.find? (·.1 == status)).map (·.2) = some meaning := by
    obtain ⟨first, hfirst⟩ := exists_isFirst hmem
    obtain rfl := commonErrors_unique _ hfirst.mem _ hmem rfl
    exact find?_eq_some_iff_isFirst.2 hfirst
  rw [hfound]
  constructor
  · rintro rfl
    cases hdeclared : (call.errors.find? (·.1 == status)).map (·.2) with
    | some meaning =>
      exact .declared (find?_eq_some_iff_isFirst.1 hdeclared)
    | none =>
      have hnone := find?_eq_none_iff_forall_ne.1 hdeclared
      rw [Option.none_or]
      cases hmeaning : (commonErrors.find? (·.1 == status)).map (·.2) with
      | some meaning => exact .common hnone (find?_eq_some_iff_isFirst.1 hmeaning).mem
      | none => exact .unknown hnone (find?_eq_none_iff_forall_ne.1 hmeaning)
  · intro hmeans
    cases hmeans with
    | declared hfirst => rw [find?_eq_some_iff_isFirst.2 hfirst, Option.some_or]
    | common hnone hmem =>
      rw [find?_eq_none_iff_forall_ne.2 hnone, Option.none_or, hcommon hmem]
    | unknown hnone hcommonNone =>
      rw [find?_eq_none_iff_forall_ne.2 hnone, Option.none_or,
        find?_eq_none_iff_forall_ne.2 hcommonNone]

/-- A call is what its steps come to, each kind by itself. -/
structure Collects (call : Call) (steps : List Step) : Prop where
  /-- The query values that are present, in the order of the steps. -/
  queryPairs : call.queryPairs = steps.filterMap Step.queryValue?
  body : ∀ body, call.body = body ↔ BodyOf steps body
  fieldNames : call.fieldNames = (fieldsOf call.body).map (·.name)
  /-- A placeholder has the first value that a step gives to its name. -/
  pathValue : ∀ name value, call.pathValue? name = some value ↔
    IsFirst (steps.filterMap Step.boundValue?) name value
  resolve : ∀ pieces, Piece.Reads call.template.toList pieces → ∀ path,
    call.resolve = .ok path ↔
      ∃ texts, List.Forall₂ (Piece.Fills (steps.filterMap Step.boundValue?)) pieces texts ∧
        path = String.ofList texts.flatten
  means : ∀ status meaning, call.errorMeaning? status = meaning ↔
    Means (steps.filterMap Step.declared?).flatten status meaning

/-- A call that starts without values, body and errors is what its steps come to. -/
theorem collects_extended (method template : String) (h : ∀ step ∈ steps, step.failure? = none) :
    Collects (extended { method, template } steps) steps where
  queryPairs := by
    have hquery : (extended { method, template } steps).query =
        steps.filterMap Step.queryEntry? := rfl
    rw [Call.queryPairs, hquery, List.filterMap_filterMap]
    refine List.filterMap_congr fun step _ => ?_
    cases step with
    | query name value => cases value <;> rfl
    | pathValue | json | field | errors => rfl
  body body := by
    rw [bodyOf_iff h]
    exact eq_comm
  fieldNames := by
    rw [Call.fieldNames]
    cases (extended { method, template } steps).body <;> rfl
  pathValue name value := pathValue?_eq_some_iff
  resolve pieces hreads path := resolve_eq_ok_iff hreads
  means status meaning := errorMeaning?_eq_iff

end Call

/-- The steps of building a call count kind by kind: how the kinds are mixed makes no difference.
Unless a JSON body has no value, the call is there and is what the steps of each kind come to;
otherwise the first such body is the reason why there is no call. -/
theorem build_collects_by_kind (method template : String) (steps : List Call.Step) :
    let fresh : Call := { method, template }
    (∀ others, Call.SameByKind steps others → fresh.build others = fresh.build steps) ∧
      ((∀ reason, .json (.error reason) ∉ steps) →
        ∃ call, fresh.build steps = .ok call ∧ call.method = method ∧ call.template = template ∧
          call.Collects steps) ∧
      ∀ front reason back, steps = front ++ .json (.error reason) :: back →
        (∀ other, .json (.error other) ∉ front) →
        fresh.build steps = .error (.unserializable reason) := by
  intro fresh
  have hnone {list : List Call.Step} (h : ∀ reason, .json (.error reason) ∉ list) :
      ∀ step ∈ list, step.failure? = none := by
    intro step hmem
    rw [Option.eq_none_iff_forall_ne_some]
    intro e he
    obtain ⟨reason, rfl, -⟩ := Call.Step.failure?_eq_some_iff.1 he
    exact h reason hmem
  refine ⟨fun others h => Call.build_congr h fresh, fun h => ?_, ?_⟩
  · refine ⟨fresh.extended steps, ?_, rfl, rfl, Call.collects_extended method template (hnone h)⟩
    rw [Call.build_eq, List.findSome?_eq_none_iff.2 (hnone h)]
  · rintro front reason back rfl hfront
    rw [Call.build_eq, List.findSome?_append, List.findSome?_eq_none_iff.2 (hnone hfront)]
    rfl

/-- Of two form fields with a JSON body between them the second one is sent, of two values of a
placeholder the first. -/
theorem field_after_json_is_sent_alone :
    let steps : List Call.Step := [.field "a" (.text "1"), .pathValue "id" "x y",
      .errors [(404, "Gone")], .query "q" none, .json (.ok .null), .query "q" (some ""),
      .field "b" (.text "2"), .pathValue "id" "z", .errors [(404, "Lost"), (418, "Teapot")]]
    (∀ reason, .json (.error reason) ∉ steps) ∧
      ∃ call, Call.build { method := "POST", template := "/\x7bid\x7d" } steps = .ok call ∧
        call.body = .form [⟨"b", .text "2"⟩] ∧ call.fieldNames = ["b"] ∧
        call.queryPairs = [("q", "")] ∧ call.pathValue? "id" = some "x y" ∧
        call.errorMeaning? 404 = some "Gone" ∧ call.errorMeaning? 401 = some "Unauthorized" ∧
        call.errorMeaning? 499 = none := by
  intro steps
  have hserial : ∀ reason, .json (.error reason) ∉ steps := by simp [steps]
  obtain ⟨-, hbuilds, -⟩ := build_collects_by_kind "POST" "/\x7bid\x7d" steps
  obtain ⟨call, hcall, -, -, hcollects⟩ := hbuilds hserial
  have hform : Call.BodyOf (steps.take 4 ++ .json (.ok .null) :: steps.drop 5)
      (.form [⟨"b", .text "2"⟩]) :=
    .formAfter (by simp [steps]) (by simp [steps, Call.Step.field?])
  have hbody : call.body = .form [⟨"b", .text "2"⟩] := (hcollects.body _).2 hform
  refine ⟨hserial, call, hcall, hbody, ?_, hcollects.queryPairs, ?_, ?_, ?_, ?_⟩
  · rw [hcollects.fieldNames, hbody]
    rfl
  · exact (hcollects.pathValue _ _).2 ⟨[], [("id", "z")], rfl, nofun⟩
  · exact (hcollects.means _ _).2 (.declared ⟨[], _, rfl, nofun⟩)
  · exact (hcollects.means _ _).2 (.common (by decide) (by decide))
  · exact (hcollects.means _ _).2 (.unknown (by decide) (by decide))

end FinanceGateway
