import FinanceGateway.Proofs.Dispatch.Sending
import FinanceGateway.Proofs.Text.Utf8

/-!
# When a call makes no request

Three things keep a call whose path is resolved from becoming a request: a file in its form whose
content type is no media type, an address that is none, and a token that no header can carry. Each
is said here of the call itself, not of the function that finds it
(`Call.exists_request_eq_error_iff`). The form is looked at first, so its first mistyped field is
what is reported, whatever else is wrong (`Call.request_of_mistyped`).
-/

namespace FinanceGateway

/-! ## Forms -/

/-- Whether a field is a file whose content type is no media type. -/
def FormField.isMistyped (field : FormField) : Bool :=
  match field.value with
  | .file _ _ (some type) => (Mime.parse? type).isNone
  | _ => false

namespace Call

variable {call : Call} {base path : String} {token : Option String} {cause : InvalidRequest}

/-- The fields of the form that a call carries. -/
def formFields (call : Call) : List FormField :=
  match call.body with
  | .form fields => fields
  | _ => []

/-- The first field in declared order that is mistyped. -/
def mistyped? (call : Call) : Option FormField :=
  call.formFields.find? (·.isMistyped)

/-- A field is no part exactly when it is mistyped. -/
theorem formPart_eq_error_iff {field : FormField} :
    formPart field = .error cause ↔ field.isMistyped = true ∧ cause = .contentType field.name := by
  rcases field with ⟨name, value | ⟨data, fileName, - | type⟩⟩
  · simp [formPart, FormField.isMistyped]
  · simp [formPart, FormField.isMistyped]
  · simp only [formPart, FormField.isMistyped]
    cases Mime.parse? type with
    | none => simp [eq_comm]
    | some mime => simp

/-- What is wrong with a form is its first mistyped field. -/
theorem formParts_eq_error_iff {fields : List FormField} :
    formParts fields = .error cause ↔
      ∃ field, fields.find? (·.isMistyped) = some field ∧ cause = .contentType field.name := by
  induction fields with
  | nil => simp [formParts]
  | cons field fields ih =>
    rw [formParts]
    cases hpart : formPart field with
    | error e =>
      obtain ⟨hmistyped, rfl⟩ := formPart_eq_error_iff.1 hpart
      simp [List.find?_cons_of_pos hmistyped, eq_comm]
    | ok part =>
      have hfine : ¬ field.isMistyped = true := fun h => by
        rw [formPart_eq_error_iff.2 ⟨h, rfl⟩] at hpart
        cases hpart
      rw [List.find?_cons_of_neg hfine, ← ih]
      exact map_eq_error_iff

/-- A call has no payload exactly when a field of its form is mistyped. -/
theorem payload_eq_error_iff :
    call.payload = .error cause ↔
      ∃ field, call.mistyped? = some field ∧ cause = .contentType field.name := by
  unfold payload mistyped? formFields
  cases call.body with
  | empty => simp
  | json value => simp
  | form fields => exact map_eq_error_iff.trans formParts_eq_error_iff

/-- Some field is mistyped exactly when there is a first one. -/
theorem exists_mistyped_iff :
    (∃ field, call.mistyped? = some field) ↔
      ∃ field ∈ call.formFields, field.isMistyped = true := by
  rw [← Option.isSome_iff_exists, mistyped?, List.find?_isSome]

/-! ## Addresses and tokens -/

/-- There is no address exactly when base and path are not read as one with a host. -/
theorem exists_address_eq_error_iff :
    (∃ cause, address base path = .error cause) ↔
      ∀ url, Url.read (base ++ path) ≠ some (.address url) := by
  unfold address
  cases Url.read (base ++ path) with
  | none => simp
  | some reading => cases reading <;> simp

/-- The mark before a token makes no difference to whether a header can carry it. -/
theorem isHeaderValue_bearer (token : String) :
    isHeaderValue (bearer token) = isHeaderValue (Utf8.encode token) := by
  have hmark : isHeaderValue (Utf8.encode "Bearer ") = true := by decide +kernel
  rw [bearer, Utf8.encode_append, isHeaderValue, List.all_append]
  exact (congrArg (· && _) hmark).trans (Bool.true_and _)

/-- A mistyped field is reported before anything else is looked at. -/
theorem request_of_mistyped {field : FormField} (h : call.mistyped? = some field) :
    call.request base path token = .error (.contentType field.name) := by
  rw [request, payload_eq_error_iff.2 ⟨field, h, rfl⟩]
  rfl

/-- A call makes no request exactly when a field of its form is mistyped, base and path are no
address, or its token is illegal. -/
theorem exists_request_eq_error_iff :
    (∃ cause, call.request base path token = .error cause) ↔
      (∃ field ∈ call.formFields, field.isMistyped = true) ∨
      (∀ url, Url.read (base ++ path) ≠ some (.address url)) ∨
      ∃ t, token = some t ∧ isHeaderValue (Utf8.encode t) = false := by
  rw [← exists_mistyped_iff, ← exists_address_eq_error_iff]
  cases hpayload : call.payload with
  | error e =>
    obtain ⟨field, hfield, -⟩ := payload_eq_error_iff.1 hpayload
    exact iff_of_true ⟨_, request_of_mistyped hfield⟩ (.inl ⟨field, hfield⟩)
  | ok payload =>
    have hform : ¬ ∃ field, call.mistyped? = some field := fun ⟨field, hfield⟩ => by
      rw [payload_eq_error_iff.2 ⟨field, hfield, rfl⟩] at hpayload
      cases hpayload
    rw [or_iff_right hform]
    cases haddress : address base path with
    | error e => simp [request, hpayload, haddress, bind, Except.bind]
    | ok url =>
      cases token with
      | none => simp [request, hpayload, haddress, bind, Except.bind]
      | some t =>
        cases h : isHeaderValue (Utf8.encode t) <;>
          simp [request, hpayload, haddress, bind, Except.bind, isHeaderValue_bearer, h]

end Call

end FinanceGateway
