import FinanceGateway.Proofs.Dictionary
import FinanceGateway.Proofs.Dispatch.Outcomes
import FinanceGateway.Proofs.Entries

/-!
# What the details of a refusal say

An answer without success is reported in details. When its body says what is wrong, they repeat it
and make up only for a status or a code that it lacks (`ErrorDetails.Repeats`); when it does not,
they are told from the status and from what the call declares about it (`ErrorDetails.FallsBack`).
Either way they are well-formed (`ErrorDetails.IsWellFormed`), and they are what the call ends with
(`refusals_are_normalised`).
-/

namespace FinanceGateway

/-- A natural number is written with its decimal digits. -/
theorem Decimal.ofInt_natCast (n : Nat) : ofInt n = n.repr := by
  have hsign : ¬ (n : Int) < 0 := Int.not_lt.2 (Int.natCast_nonneg n)
  rw [ofInt, intChars, if_neg hsign, Int.natAbs_natCast]
  rfl

namespace ErrorDetails

/-- There is a status and a code, and every field error has both a field and a text. -/
structure IsWellFormed (details : ErrorDetails) : Prop where
  status_ne : details.status ≠ 0
  code_ne : details.code ≠ ""
  fieldErrors_ne : ∀ e ∈ details.fieldErrors, e.1 ≠ "" ∧ e.2 ≠ ""

/-- The details repeat what the body of an answer says. Without a status of its own it has that of
the answer, and without a code the one of the status. -/
structure Repeats (status : Nat) (said : BackendError) (details : ErrorDetails) : Prop where
  status_eq : details.status = if said.status = 0 then status else said.status
  code_eq : details.code = if said.code = "" then "HTTP_" ++ details.status.repr else said.code
  message_eq : details.message = said.message
  overrides_eq : details.overrides = said.overrides
  action_eq : details.action = said.action

/-- The details are made of the status of an answer and what a call declares about it. -/
structure FallsBack (call : Call) (status : Nat) (details : ErrorDetails) : Prop where
  status_eq : details.status = status
  code_eq : details.code = "HTTP_" ++ status.repr
  overrides_eq : details.overrides = false
  fieldErrors_eq : details.fieldErrors = []
  action_eq : details.action = none
  declared : ∀ meaning, IsFirst (call.errors ++ Call.commonErrors) status meaning →
    details.message = meaning
  undeclared : (∀ e ∈ call.errors ++ Call.commonErrors, e.1 ≠ status) →
    details.message = "Generic Error: status " ++ status.repr ++ ", " ++
      (Http.reason? status).getD "unknown status"

/-- The code of a status. -/
theorem statusCode_eq (status : Nat) : statusCode status = "HTTP_" ++ status.repr := by
  rw [statusCode, Decimal.ofInt_natCast]

/-- The code of a status is not empty. -/
theorem statusCode_ne_empty (status : Nat) : statusCode status ≠ "" := by
  intro h
  rw [statusCode_eq, String.append_eq_empty_iff] at h
  exact absurd h.1 (by decide)

/-- No error without a field or without a text is collected. -/
theorem ne_empty_of_mem_collectFieldErrors {errors : List FieldError} {e : String × String}
    (h : e ∈ collectFieldErrors errors) : e.1 ≠ "" ∧ e.2 ≠ "" := by
  obtain ⟨listed, hlisted, rfl⟩ := List.mem_map.1 (Dictionary.mem_of_mem_ofList h)
  have := (List.mem_filter.1 hlisted).2
  simpa using this

/-- What a body says that states a status has well-formed details. -/
theorem isWellFormed_ofBackend {said : BackendError} (h : said.status ≠ 0) :
    (ofBackend said).IsWellFormed where
  status_ne := h
  code_ne := by
    rw [ofBackend]
    split
    · exact statusCode_ne_empty said.status
    · next hcode => simpa using hcode
  fieldErrors_ne _ he := ne_empty_of_mem_collectFieldErrors he

/-- The details of what a body says repeat it, once the status is made up for. -/
theorem repeats_ofBackend (status : Nat) (said : BackendError) :
    (ofBackend (if said.status = 0 then { said with status } else said)).Repeats status said := by
  by_cases hstatus : said.status = 0
  · constructor <;> simp [ofBackend, hstatus, statusCode_eq]
  · constructor <;> simp [ofBackend, hstatus, statusCode_eq]

end ErrorDetails

namespace Call

variable {call : Call} {status : Nat} {body : Bytes}

/-- The meaning of a status is that of its first entry, what the call declares before the rest. -/
theorem errorMeaning?_eq_some_iff {meaning : String} :
    call.errorMeaning? status = some meaning ↔
      IsFirst (call.errors ++ commonErrors) status meaning :=
  find?_eq_some_iff_isFirst

/-- A status has no meaning when no entry has it. -/
theorem errorMeaning?_eq_none_iff :
    call.errorMeaning? status = none ↔ ∀ e ∈ call.errors ++ commonErrors, e.1 ≠ status :=
  find?_eq_none_iff_forall_ne

/-- The details of an answer whose body says what is wrong. -/
theorem errorDetails_of_said {said : BackendError}
    (h : BackendError.record.codec.decodeText body = .ok said) :
    call.errorDetails status body =
      .ofBackend (if said.status = 0 then { said with status } else said) := by
  rw [errorDetails, h]

/-- The details of an answer whose body says nothing of the kind. -/
theorem fallsBack_errorDetails (h : ∀ said, BackendError.record.codec.decodeText body ≠ .ok said) :
    (call.errorDetails status body).FallsBack call status := by
  cases hbody : BackendError.record.codec.decodeText body with
  | ok said => exact absurd hbody (h said)
  | error fault =>
    rw [errorDetails, hbody]
    refine ⟨rfl, ErrorDetails.statusCode_eq status, rfl, rfl, rfl, fun meaning hfirst => ?_,
      fun hnone => ?_⟩
    · simp only [errorMeaning?_eq_some_iff.2 hfirst, ErrorDetails.ofStatus]
    · simp only [errorMeaning?_eq_none_iff.2 hnone, ErrorDetails.ofStatus, Decimal.ofInt_natCast]

/-- The details of an answer are well-formed. -/
theorem isWellFormed_errorDetails (hstatus : status ≠ 0) :
    (call.errorDetails status body).IsWellFormed := by
  cases hbody : BackendError.record.codec.decodeText body with
  | ok said =>
    rw [errorDetails_of_said hbody]
    split
    · exact ErrorDetails.isWellFormed_ofBackend hstatus
    · next hsaid => exact ErrorDetails.isWellFormed_ofBackend hsaid
  | error fault =>
    have hfallsBack : (call.errorDetails status body).FallsBack call status :=
      fallsBack_errorDetails fun said hsaid => by cases hbody.symm.trans hsaid
    refine ⟨by rwa [hfallsBack.status_eq], ?_, ?_⟩
    · rw [hfallsBack.code_eq, ← ErrorDetails.statusCode_eq]
      exact ErrorDetails.statusCode_ne_empty status
    · rw [hfallsBack.fieldErrors_eq]
      exact nofun

end Call

/-- A call that is answered without success ends with the details of the answer. They repeat what
its body says is wrong; if that is not how the body reads, they are made of the status and of the
first meaning that is declared for it. Whatever the body is, they are well-formed. -/
theorem refusals_are_normalised (call : Call) {status : Nat} (hstatus : status ≠ 0) (body : Bytes) :
    (∀ {α : Type} (base : String) (provider : Option Provider) (codec : Json.Codec α)
      (turns : List Turn) (result : Except ApiError α),
      (execute base provider call codec).Reaches turns (.done result) →
      Answered turns status body → Http.isSuccess status = false →
      result = .error (.api (call.errorDetails status body))) ∧
    (∀ said, BackendError.record.codec.decodeText body = .ok said →
      (call.errorDetails status body).Repeats status said) ∧
    ((∀ said, BackendError.record.codec.decodeText body ≠ .ok said) →
      (call.errorDetails status body).FallsBack call status) ∧
    (call.errorDetails status body).IsWellFormed := by
  refine ⟨fun base provider codec turns result hrun hcame hrefused => ?_, fun said hsaid => ?_,
    Call.fallsBack_errorDetails, Call.isWellFormed_errorDetails hstatus⟩
  · obtain ⟨url, rfl⟩ := (execute_reaches_done_iff.1 hrun).of_answered hcame
    rw [Call.result, if_neg (by simp [hrefused])]
  · rw [Call.errorDetails_of_said hsaid]
    exact ErrorDetails.repeats_ofBackend status said

/-- A body with a message alone has the status of its answer, and the code of that status; a body
that is no error has the message that the call declares, not the common one. -/
theorem bare_message_takes_status_of_answer :
    let call : Call :=
      { method := "GET", template := "/sms", errors := [(404, "SMS log missing")] }
    let bare := call.errorDetails 503 (Utf8.encode "\x7b\"message\":\"down\"\x7d")
    let page := call.errorDetails 404 (Utf8.encode "<html>")
    bare.status = 503 ∧ bare.code = "HTTP_503" ∧ bare.message = "down" ∧
      page.code = "HTTP_404" ∧ page.message = "SMS log missing" := by
  intro call bare page
  have hsaid : BackendError.record.codec.decodeText
      (Utf8.encode "\x7b\"message\":\"down\"\x7d") = .ok { message := "down" } := by rfl
  have hpage : ∀ said, BackendError.record.codec.decodeText (Utf8.encode "<html>") ≠ .ok said := by
    intro said
    exact nofun
  obtain ⟨-, hrepeats, -, -⟩ := refusals_are_normalised call (by decide : 503 ≠ 0)
    (Utf8.encode "\x7b\"message\":\"down\"\x7d")
  obtain ⟨-, -, hfallsBack, -⟩ := refusals_are_normalised call (by decide : 404 ≠ 0)
    (Utf8.encode "<html>")
  have hbare := hrepeats _ hsaid
  have hdeclared := (hfallsBack hpage).declared "SMS log missing" ⟨[], _, rfl, nofun⟩
  have hstatus : bare.status = 503 := hbare.status_eq
  refine ⟨hstatus, ?_, hbare.message_eq, (hfallsBack hpage).code_eq, hdeclared⟩
  have hcode := hbare.code_eq
  rw [if_pos rfl] at hcode
  exact hcode.trans (by rw [hbare.status_eq]; rfl)

end FinanceGateway
