import FinanceGateway.Proofs.App.Relaying
import FinanceGateway.Proofs.Gate.Verdict

/-!
# The status that a relayed failure states

A failure is relayed with its details for content, and these state a status of their own
(`Response.statedStatus?`). The response has that status wherever it is one of a failure and is a
bad gateway everywhere else, so the two agree exactly on the statuses of failures:
`Response.failure_states_its_status_iff`. The others come from the backend alone: from an answer
that is neither a success nor a failure, or from a body that states a status of its own.
-/

namespace FinanceGateway

/-- An answer without success is an error whose details have the status that it is known by. -/
theorem Ends.exists_details {α : Type} {base : String} {provider : Option Provider} {call : Call}
    {codec : Json.Codec α} {turns : List Turn} {result : Except ApiError α} {status : Nat}
    {body : Bytes} (h : Ends base provider call codec turns result)
    (hcame : Answered turns status body) (hrefused : Http.isSuccess status = false) :
    ∃ details, result = .error (.api details) ∧
      details.status = Call.statedStatus status body := by
  obtain ⟨url, rfl⟩ := h.of_answered hcame
  rw [Call.result, if_neg (by simp [hrefused])]
  exact ⟨_, rfl, call.errorDetails_status status body⟩

/-- What is not the backend's error counts as an internal one. -/
theorem ApiError.status_details {e : ApiError} (h : ∀ details, e ≠ .api details) :
    e.details.status = 500 := by
  cases e with
  | api details => exact absurd rfl (h details)
  | invalidRequest | transport | decode => rfl

namespace Response

/-- The status that the content of a response states. -/
def statedStatus? (r : Response) : Option Json :=
  match r.content with
  | .json content => content.get? "status"
  | .none | .text _ => none

/-- Error details state their status. -/
theorem statedStatus?_ofDetails (status : Nat) (details : ErrorDetails) :
    (ofDetails status details).statedStatus? = some (.int details.status) := rfl

/-- The statuses of failures are those under which a failure is reported as it is. -/
theorem failureStatus_eq_iff {status : Nat} :
    failureStatus status = status ↔ 400 ≤ status ∧ status ≤ 599 := by
  simp only [failureStatus, Http.isFailure, Bool.and_eq_true, decide_eq_true_eq]
  split
  · next h => exact iff_of_true rfl h
  · next h => exact iff_of_false (by omega) h

/-- Any other status is reported as a bad gateway. -/
theorem failureStatus_of_not {status : Nat} (h : ¬ (400 ≤ status ∧ status ≤ 599)) :
    failureStatus status = 502 := by
  rw [failureStatus, if_neg (by simpa [Http.isFailure] using h)]

/-- A relayed failure states the status of its details, whether or not that is its own. It is when
it is one of a failure, from 400 to 599, and with any other the response is a bad gateway. For all
errors but those of the backend it is that of an internal error; for an answer of the backend
without success, whatever the call and the body, it is the one that the answer is known by. -/
theorem failure_states_its_status_iff (e : ApiError) :
    (failure e).statedStatus? = some (.int e.details.status) ∧
    ((failure e).statedStatus? = some (.int (failure e).status) ↔
      400 ≤ e.details.status ∧ e.details.status ≤ 599) ∧
    (¬ (400 ≤ e.details.status ∧ e.details.status ≤ 599) → (failure e).status = 502) ∧
    ((∀ details, e ≠ .api details) → e.details.status = 500) ∧
    ∀ {α : Type} (base : String) (provider : Option Provider) (call : Call) (codec : Json.Codec α)
      (turns : List Turn) (status : Nat) (body : Bytes),
      (execute base provider call codec).Reaches turns (.done (.error e)) →
      Answered turns status body → Http.isSuccess status = false →
      e.details.status = Call.statedStatus status body := by
  have hstated : (failure e).statedStatus? = some (.int e.details.status) :=
    statedStatus?_ofDetails _ _
  refine ⟨hstated, ?_, failureStatus_of_not, ApiError.status_details,
    fun base provider call codec turns status body hrun hcame hrefused => ?_⟩
  · rw [hstated, ← failureStatus_eq_iff]
    simp only [Option.some.injEq, Json.int, Json.number.injEq, Number.int.injEq, Nat.cast_inj]
    exact eq_comm
  · obtain ⟨details, he, hdetails⟩ :=
      (execute_reaches_done_iff.1 hrun).exists_details hcame hrefused
    cases he
    exact hdetails

/-- A page that is not found states the status of its response. -/
theorem missing_page_states_its_status :
    ∃ turns e,
      (Service.getProfile.execute "http://backend.test" (some (.fixed 0 (some "tok")))).Reaches
        turns (.done (.error e)) ∧ Answered turns 404 (Utf8.encode "<html>") ∧
      (failure e).status = 404 ∧ (failure e).statedStatus? = some (.int (failure e).status) := by
  obtain ⟨turns, result, h, hcame⟩ :=
    Validator.exists_answered_example 404 (Utf8.encode "<html>")
  obtain ⟨call, hcall, hends⟩ := Service.exists_ends h
  obtain ⟨details, rfl, -⟩ := hends.exists_details hcame rfl
  obtain ⟨hstated, hown, -, -, hanswer⟩ := failure_states_its_status_iff (.api details)
  have hstatus : details.status = 404 :=
    (hanswer _ _ call Service.getProfile.codec turns 404 _ (execute_reaches_done_iff.2 hends) hcame
      rfl).trans (by decide +kernel)
  have hsame := hown.2 (by simp only [ApiError.details, hstatus]; decide)
  refine ⟨turns, _, h, hcame, ?_, hsame⟩
  change failureStatus details.status = 404
  rw [hstatus]
  rfl

/-- An error whose body claims a success is a bad gateway that states this success. -/
theorem claimed_success_is_stated_by_bad_gateway :
    let body := Utf8.encode "\x7b\"message\":\"m\",\"status\":200\x7d"
    let call : Call := { method := "GET", template := "/sms" }
    let e := ApiError.api (call.errorDetails 500 body)
    (∀ url, call.result Service.listSms.codec url (.answer 500 body) = .error e) ∧
      (failure e).status = 502 ∧ (failure e).statedStatus? = some (.int 200) ∧
      (failure e).statedStatus? ≠ some (.int (failure e).status) := by
  intro body call e
  have hstatus : e.details.status = 200 :=
    (call.errorDetails_status 500 body).trans (by decide +kernel)
  have hown : (failure e).status = 502 := by
    change failureStatus e.details.status = 502
    rw [hstatus]
    rfl
  have hstated : (failure e).statedStatus? = some (.int 200) := by
    rw [failure, statedStatus?_ofDetails, hstatus]
    rfl
  refine ⟨fun url => rfl, hown, hstated, ?_⟩
  rw [hstated, hown]
  exact nofun

end Response

end FinanceGateway
