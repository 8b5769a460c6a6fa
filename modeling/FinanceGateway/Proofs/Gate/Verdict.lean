import FinanceGateway.Gate.Session
import FinanceGateway.Proofs.Dispatch.Outcomes

/-!
# The backend's verdict on a token

A validator that asks the backend calls for the profile that belongs to a token, and judges what
comes back. A profile means a session. A refusal goes by the status that the error is known by,
which is the one that its body states, not always the one that it came with (`Call.statedStatus`):
`verdict_goes_by_stated_status` is the exact rule, and `body_overrules_status` an answer on which
the two disagree.
-/

namespace FinanceGateway

/-! ## The status of an error -/

namespace Call

/-- The status that an error is known by: the one that its body states, unless that is zero or the
body says nothing of the kind. -/
def statedStatus (status : Nat) (body : Bytes) : Nat :=
  match BackendError.record.codec.decodeText body with
  | .ok e => if e.status = 0 then status else e.status
  | .error _ => status

/-- The details of an error have the status that it is known by. -/
theorem errorDetails_status (call : Call) (status : Nat) (body : Bytes) :
    (call.errorDetails status body).status = statedStatus status body := by
  unfold errorDetails statedStatus
  cases BackendError.record.codec.decodeText body with
  | ok e =>
    by_cases h : e.status = 0
    · simp [h, ErrorDetails.ofBackend]
    · simp [h, ErrorDetails.ofBackend]
  | error e => rfl

end Call

/-! ## The call for a profile -/

namespace Service

/-- The call for the profile of a caller. -/
theorem exists_profile_call :
    ∃ call, getProfile.call = .ok call ∧ call.resolve = .ok "/auth/user" ∧ call.method = "GET" ∧
      call.queryPairs = [] ∧ call.payload = .ok .empty :=
  ⟨_, rfl, by decide +kernel, rfl, rfl, rfl⟩

end Service

/-! ## The verdict -/

namespace Validator

variable {base token : String} {turns : List Turn}

/-- A validator that asks the backend judges the result of one call for the profile. -/
theorem remote_reaches_done_iff {judged : Except ApiError (Option Session)} :
    ((remote base).validate token).Reaches turns (.done judged) ↔
      ∃ result, (Service.getProfile.execute base (some (.fixed 0 (some token)))).Reaches turns
        (.done result) ∧ judged = verdict token result := by
  rw [validate, Plan.reaches_bind_done_iff]
  constructor
  · rintro ⟨result, before, after, rfl, hresult, h⟩
    obtain ⟨rfl, h⟩ := Plan.reaches_done_iff.1 h
    cases h
    rw [List.append_nil]
    exact ⟨result, hresult, rfl⟩
  · rintro ⟨result, hresult, rfl⟩
    exact ⟨result, turns, [], (List.append_nil _).symm, hresult, .start⟩

/-- A profile means a session. -/
theorem exists_session_iff {result : Except ApiError Profile} :
    (∃ session, verdict token result = .ok (some session)) ↔ ∃ profile, result = .ok profile := by
  cases result with
  | ok profile => exact iff_of_true ⟨_, rfl⟩ ⟨profile, rfl⟩
  | error e =>
    constructor
    · rintro ⟨session, h⟩
      rw [verdict] at h
      split at h <;> cases h
    · rintro ⟨profile, h⟩
      cases h

/-- A failure that is known by the status of a refusal means no session. -/
theorem verdict_eq_none_iff {result : Except ApiError Profile} :
    verdict token result = .ok none ↔
      ∃ e, result = .error e ∧ (e.status? = some 401 ∨ e.status? = some 403) := by
  cases result with
  | ok profile =>
    constructor
    · intro h
      cases h
    · rintro ⟨e, h, -⟩
      cases h
  | error e =>
    rw [verdict]
    constructor
    · intro h
      split at h
      · next hstatus => exact ⟨e, rfl, by simpa using hstatus⟩
      · cases h
    · rintro ⟨e', h, hstatus⟩
      cases h
      rw [if_pos (by simpa using hstatus)]

/-- Whatever answer may come to the question about a token, if base and token make a request. -/
theorem exists_answered_run {url : Url}
    (haddress : Url.read (base ++ "/auth/user") = some (.address url))
    (hsendable : isSendable url = true) (hblank : Text.isBlank token = false)
    (hlegal : isHeaderValue (Utf8.encode token) = true) (status : Nat) (body : Bytes) :
    ∃ turns result, (Service.getProfile.execute base (some (.fixed 0 (some token)))).Reaches turns
      (.done result) ∧ Answered turns status body := by
  obtain ⟨call, hcall, hpath, -, hquery, hpayload⟩ := Service.exists_profile_call
  have htoken : (TokenAnswer.ofOption (some token)).usable = some token :=
    TokenAnswer.usable_eq_some_iff.2 ⟨rfl, hblank⟩
  have htells : Tells (some (.fixed 0 (some token))) []
      (TokenAnswer.ofOption (some token)).usable := .fixed
  rw [htoken] at htells
  have hurl : Call.address base "/auth/user" = .ok url := by rw [Call.address, haddress]
  have hbearer : ∀ t, some token = some t → isHeaderValue (bearer t) = true := by
    rintro t ⟨⟩
    rw [Call.isHeaderValue_bearer, hlegal]
  obtain ⟨request, hends⟩ := Ends.exists_replied hpath hquery hpayload htells hurl hbearer
    hsendable (.answer status body)
  rw [Service.execute_eq hcall]
  exact ⟨_, _, execute_reaches_done_iff.2 hends, request, List.mem_singleton_self _⟩

/-- There is no verdict when there is neither a session nor none. -/
theorem exists_error_iff {judged : Except ApiError (Option Session)} :
    (∃ e, judged = .error e) ↔ ¬ (∃ session, judged = .ok (some session)) ∧ judged ≠ .ok none := by
  rcases judged with e | - | session <;> simp

section Answer

variable {status : Nat} {body : Bytes} {result : Except ApiError Profile}
  (h : (Service.getProfile.execute base (some (.fixed 0 (some token)))).Reaches turns
    (.done result))
  (hcame : Answered turns status body)

include h hcame

/-- A call for a profile that is answered otherwise ends with an error of the stated status. -/
theorem profile_of_refusal (hstatus : Http.isSuccess status = false) :
    ∃ details, result = .error (.api details) ∧
      details.status = Call.statedStatus status body := by
  obtain ⟨call, -, hends⟩ := Service.exists_ends h
  obtain ⟨url, rfl⟩ := hends.of_answered hcame
  rw [Call.result, if_neg (by simp [hstatus])]
  exact ⟨_, rfl, Call.errorDetails_status call status body⟩

/-- An answer makes a session exactly when it is a success with a profile. -/
theorem session_of_answer_iff :
    (∃ session, verdict token result = .ok (some session)) ↔ Http.isSuccess status = true ∧
      ∃ profile, Call.decodeBody Profile.record.codec body = .ok profile := by
  rw [exists_session_iff]
  cases hstatus : Http.isSuccess status with
  | true =>
    rw [Service.eq_of_success h hcame hstatus]
    exact (and_iff_right rfl).symm
  | false =>
    obtain ⟨details, rfl, -⟩ := profile_of_refusal h hcame hstatus
    simp

/-- An answer makes for no session exactly when it is an error known by the status of a refusal. -/
theorem none_of_answer_iff :
    verdict token result = .ok none ↔ Http.isSuccess status = false ∧
      (Call.statedStatus status body = 401 ∨ Call.statedStatus status body = 403) := by
  rw [verdict_eq_none_iff]
  cases hstatus : Http.isSuccess status with
  | true =>
    rw [Service.eq_of_success h hcame hstatus]
    refine iff_of_false ?_ fun h' => Bool.false_ne_true h'.1.symm
    rintro ⟨e, he, hrefused⟩
    obtain ⟨value, hvalue⟩ | ⟨fault, hfault⟩ := Call.decodeBody_cases Profile.record.codec body
    · cases hvalue.symm.trans he
    · cases hfault.symm.trans he
      simp [ApiError.status?] at hrefused
  | false =>
    obtain ⟨details, rfl, hdetails⟩ := profile_of_refusal h hcame hstatus
    constructor
    · rintro ⟨e, he, hrefused⟩
      cases he
      simpa [ApiError.status?, hdetails] using hrefused
    · rintro ⟨-, hrefused⟩
      exact ⟨_, rfl, by simpa [ApiError.status?, hdetails] using hrefused⟩

end Answer

/-- A validator that asks the backend gets to a verdict, whatever comes back. Once a complete answer
has come, there is a session exactly when it has a status of success and its body is a profile, and
none exactly when it is an error that is known by the status of a refusal, be that the status it
came with or another that its body states. Anything else is no verdict. -/
theorem verdict_goes_by_stated_status (base token : String) :
    (∀ outside : Plan.Outside Id, ∃ turns, (∀ turn ∈ turns, turn.IsGivenBy outside) ∧
      ((remote base).validate token).Reaches turns
        (.done (Id.run (((remote base).validate token).run outside)))) ∧
    ∀ turns judged status body, ((remote base).validate token).Reaches turns (.done judged) →
      Answered turns status body →
      ((∃ session, judged = .ok (some session)) ↔ Http.isSuccess status = true ∧
        ∃ profile, Call.decodeBody Profile.record.codec body = .ok profile) ∧
      (judged = .ok none ↔ Http.isSuccess status = false ∧
        (Call.statedStatus status body = 401 ∨ Call.statedStatus status body = 403)) ∧
      ((∃ e, judged = .error e) ↔
        ¬ (Http.isSuccess status = true ∧
          ∃ profile, Call.decodeBody Profile.record.codec body = .ok profile) ∧
        ¬ (Http.isSuccess status = false ∧
          (Call.statedStatus status body = 401 ∨ Call.statedStatus status body = 403))) := by
  refine ⟨fun outside => Plan.reaches_run outside _, fun turns judged status body hrun hcame => ?_⟩
  obtain ⟨result, h, rfl⟩ := remote_reaches_done_iff.1 hrun
  have hsession := session_of_answer_iff h hcame
  have hnone := none_of_answer_iff h hcame
  exact ⟨hsession, hnone, by rw [exists_error_iff, hsession, Ne, hnone]⟩

/-- An answer of any kind to the question about one token. -/
theorem exists_answered_example (status : Nat) (body : Bytes) :
    ∃ turns result,
      (Service.getProfile.execute "http://backend.test" (some (.fixed 0 (some "tok")))).Reaches
        turns (.done result) ∧ Answered turns status body := by
  have haddress : Url.read ("http://backend.test" ++ "/auth/user") = some (.address {
      scheme := "http", login := none, host := "backend.test", port := none,
      segments := ["auth", "user"], query := none, fragment := none }) := by
    decide +kernel
  exact exists_answered_run haddress (by decide +kernel) (by decide +kernel) (by decide +kernel)
    status body

/-- An internal error means no session when its body states that the credential is refused. -/
theorem stated_refusal_means_no_session :
    ∃ turns judged, ((remote "http://backend.test").validate "tok").Reaches turns (.done judged) ∧
      Answered turns 500 (Utf8.encode "\x7b\"message\":\"m\",\"status\":403\x7d") ∧
      judged = .ok none := by
  obtain ⟨turns, result, h, hcame⟩ := exists_answered_example 500
    (Utf8.encode "\x7b\"message\":\"m\",\"status\":403\x7d")
  have hrun := remote_reaches_done_iff.2 ⟨result, h, rfl⟩
  obtain ⟨-, hruns⟩ := verdict_goes_by_stated_status "http://backend.test" "tok"
  obtain ⟨-, hnone, -⟩ := hruns turns _ 500 _ hrun hcame
  exact ⟨turns, _, hrun, hcame, hnone.2 (by decide +kernel)⟩

/-- An answer with the status of a refusal is no verdict when its body states another status. -/
theorem body_overrules_status :
    ∃ turns e, ((remote "http://backend.test").validate "tok").Reaches turns (.done (.error e)) ∧
      Answered turns 401 (Utf8.encode "\x7b\"message\":\"m\",\"status\":500\x7d") := by
  obtain ⟨turns, result, h, hcame⟩ := exists_answered_example 401
    (Utf8.encode "\x7b\"message\":\"m\",\"status\":500\x7d")
  have hsession : ¬ ∃ session, verdict "tok" result = .ok (some session) := by
    rw [session_of_answer_iff h hcame]
    exact fun h' => absurd h'.1 (by decide)
  have hnone : verdict "tok" result ≠ .ok none := by
    rw [Ne, none_of_answer_iff h hcame]
    decide +kernel
  obtain ⟨e, he⟩ := exists_error_iff.2 ⟨hsession, hnone⟩
  exact ⟨turns, e, remote_reaches_done_iff.2 ⟨result, h, he.symm⟩, hcame⟩

end Validator

end FinanceGateway
