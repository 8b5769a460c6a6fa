import FinanceGateway.Proofs.Dispatch.Outcomes
import FinanceGateway.Proofs.Url.Extension

/-!
# Services make their requests

A call can be faulty in four ways (`Call.IsFaulty`), and the call of a service is in none of them:
its placeholder has a value, its path goes on from every usable base, and a file in its form has no
content type but one that it was given. What is left is the token. With a legal one, or none, a
service sends its request (`Service.complete_run_sends`).
-/

namespace FinanceGateway

namespace Service

variable {s : Service} {base : String} {home : Url}

/-- The content type that a service is given for its file, if it is given one, is a media type. -/
def HasMediaType : Service → Prop
  | uploadStatement upload => ∀ type ∈ upload.contentType, (Mime.parse? type).isSome = true
  | parseReceipt _ _ contentType => ∀ type ∈ contentType, (Mime.parse? type).isSome = true
  | _ => True

/-- A file with a media type or without any is in order. -/
theorem isMistyped_file {name : String} {data : Bytes} {fileName contentType : Option String}
    (h : ∀ type ∈ contentType, (Mime.parse? type).isSome = true) :
    FormField.isMistyped ⟨name, .file data fileName contentType⟩ = false := by
  cases contentType with
  | none => rfl
  | some type => simpa [FormField.isMistyped] using h type rfl

/-- No field of the form of a service is mistyped. -/
theorem isMistyped_of_mem {call : Call} (typed : s.HasMediaType) (hcall : s.call = .ok call) :
    ∀ field ∈ call.formFields, field.isMistyped = false := by
  cases s
  case uploadStatement upload =>
    cases hcall
    exact List.forall_mem_cons.2 ⟨isMistyped_file typed, by simp [FormField.isMistyped]⟩
  case parseReceipt image fileName contentType =>
    cases hcall
    exact List.forall_mem_cons.2 ⟨isMistyped_file typed, List.forall_mem_nil _⟩
  all_goals
    cases hcall
    exact List.forall_mem_nil _

/-- Below a usable base, nothing but its token keeps the call of a service from becoming a
request. -/
theorem exists_request {call : Call} {path : String} {token : Option String}
    (typed : s.HasMediaType) (usable : Url.IsUsable base home) (hcall : s.call = .ok call)
    (hpath : call.resolve = .ok path)
    (legal : ∀ t, token = some t → isHeaderValue (Utf8.encode t) = true) :
    ∃ url request, Url.read (base ++ path) = some (.address url) ∧
      call.request base path token = .ok request ∧ isSendable request.url = true := by
  obtain ⟨more, hmore⟩ := path_eq_cons hcall hpath
  obtain ⟨url, hurl, hscheme⟩ := usable.exists_read hmore
  cases hrequest : call.request base path token with
  | error cause =>
    rcases Call.exists_request_eq_error_iff.1 ⟨cause, hrequest⟩ with
      ⟨field, hfield, hmistyped⟩ | hnone | ⟨t, rfl, hillegal⟩
    · rw [isMistyped_of_mem typed hcall field hfield] at hmistyped
      cases hmistyped
    · exact absurd hurl (hnone url)
    · rw [legal t rfl] at hillegal
      cases hillegal
  | ok request =>
    obtain ⟨payload, url', -, haddress, -, rfl⟩ := Call.request_eq_ok_iff.1 hrequest
    have hsame : url = url' := by
      have := hurl.symm.trans (Url.read_of_address haddress)
      cases this
      rfl
    refine ⟨url, _, hurl, rfl, ?_⟩
    rw [isSendable, Url.addQuery_scheme, ← hsame, hscheme]
    rcases usable.http with h | h <;> simp [h]

/-- Whatever a service is called with, if the content type of its file is a media type, and whatever
http or https address it is called below, if no blank or control is at its end: the call is built,
and the service always gets to a result. If no illegal token is yielded, the joined text is an
address, the request is made and sent, and the result is that of the reply. -/
theorem complete_run_sends (s : Service) {text : String} (typed : s.HasMediaType)
    (hread : Url.read text = some (.address home))
    (http : home.scheme = "http" ∨ home.scheme = "https")
    (hend : ∀ c ∈ text.toList.getLast?, Url.isEdge c = false)
    (hbase : base = text ∨ base = trimBase text) (provider : Option Provider) :
    ∃ call path, s.call = .ok call ∧ call.resolve = .ok path ∧
      (∃ url, Url.read (base ++ path) = some (.address url)) ∧
      (∀ outside : Plan.Outside Id, ∃ turns, (∀ turn ∈ turns, turn.IsGivenBy outside) ∧
        (s.execute base provider).Reaches turns
          (.done (Id.run ((s.execute base provider).run outside)))) ∧
      ∀ turns result, (s.execute base provider).Reaches turns (.done result) →
        (∀ token, YieldsIn turns provider token → isHeaderValue (Utf8.encode token) = true) →
        (∀ cause, result ≠ .error (.invalidRequest cause)) ∧
        ∃ before token request reply, Tells provider before token ∧
          call.request base path token = .ok request ∧ turns = before ++ [.sent request reply] ∧
          result = call.result s.codec request.url reply := by
  have usable := Url.isUsable_of_read hread http hend hbase
  obtain ⟨call, hcall, -⟩ := s.exists_call
  have hpath := resolve_eq hcall
  have hnobody : ∀ t, (none : Option String) = some t →
      isHeaderValue (Utf8.encode t) = true := nofun
  obtain ⟨url, -, hurl, -⟩ := exists_request typed usable hcall hpath hnobody
  refine ⟨call, _, hcall, hpath, ⟨url, hurl⟩, fun outside => Plan.reaches_run outside _, ?_⟩
  intro turns result hrun legal
  rw [execute_eq hcall] at hrun
  -- Of the ways in which a call ends, the others are for calls without a request.
  cases execute_reaches_done_iff.1 hrun with
  | unresolved hcause => cases hpath.symm.trans hcause
  | unmade hpath' htells hcause =>
    obtain ⟨-, request, -, hrequest, -⟩ := exists_request typed usable hcall hpath'
      fun t ht => legal t (htells.yieldsIn_self_iff.2 ht)
    cases hrequest.symm.trans hcause
  | unsendable hpath' htells hrequest hs =>
    obtain ⟨-, request, -, hrequest', hs'⟩ := exists_request typed usable hcall hpath'
      fun t ht => legal t (htells.yieldsIn_self_iff.2 ht)
    cases hrequest.symm.trans hrequest'
    cases hs.symm.trans hs'
  | @replied path before token request reply hpath' htells hrequest hs =>
    obtain rfl := Except.ok.inj (hpath'.symm.trans hpath)
    refine ⟨fun cause hcause => ?_, before, token, request, reply, htells, hrequest, rfl, rfl⟩
    obtain ⟨cause', hcause'⟩ := (Call.isFaulty_iff hpath htells (by simp)).1
      ((execute_reaches_done_iff.1 hrun).classified.invalid_iff.1 ⟨cause, hcause⟩)
    cases hrequest.symm.trans hcause'

/-- A receipt with a quote in its file name is sent below a base that ends in a fragment. -/
theorem receipt_is_sent_below_fragment :
    let s : Service := .parseReceipt [0xFF] (some "a\"b") (some "image/png")
    let text := "HTTP://u@x.test:8080?q=#//"
    let home : Url := {
      scheme := "http", login := some (Utf8.encode "u:"), host := "x.test", port := some 8080
      segments := [""], query := some "q=", fragment := some "//" }
    s.HasMediaType ∧ Url.read text = some (.address home) ∧ home.scheme = "http" ∧
      (∀ c ∈ text.toList.getLast?, Url.isEdge c = false) ∧
      ∃ call path, s.call = .ok call ∧ call.resolve = .ok path ∧
        ∀ turns result, (s.execute (trimBase text) (some (.fixed 3 (some "token")))).Reaches turns
          (.done result) → ∃ request reply, turns = [.sent request reply] ∧
            request.method = "POST" ∧ result = call.result s.codec request.url reply := by
  intro s text home
  have typed : s.HasMediaType := by
    intro type htype
    obtain rfl : "image/png" = type := Option.some.inj htype
    decide +kernel
  have hread : Url.read text = some (.address home) := by decide +kernel
  have hlast : text.toList.getLast? = some '/' := by decide +kernel
  have hend : ∀ c ∈ text.toList.getLast?, Url.isEdge c = false :=
    Url.isEdge_of_getLast? hlast rfl
  obtain ⟨call, path, hcall, hpath, -, -, hruns⟩ :=
    complete_run_sends s typed hread (.inl rfl) hend (.inr rfl) (some (.fixed 3 (some "token")))
  refine ⟨typed, hread, rfl, hend, call, path, hcall, hpath, fun turns result hrun => ?_⟩
  have legal : ∀ token, YieldsIn turns (some (.fixed 3 (some "token"))) token →
      isHeaderValue (Utf8.encode token) = true := by
    intro token hyields
    cases hyields
    decide +kernel
  obtain ⟨-, before, token, request, reply, htells, hrequest, rfl, hresult⟩ :=
    hruns turns result hrun legal
  have hmethod : call.method = "POST" := by
    cases hcall
    rfl
  obtain ⟨_, _, -, -, -, rfl⟩ := Call.request_eq_ok_iff.1 hrequest
  cases htells
  exact ⟨_, reply, rfl, hmethod, hresult⟩

end Service

end FinanceGateway
