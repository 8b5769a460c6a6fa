import FinanceGateway.Dispatch.Execute
import FinanceGateway.Proofs.Call.Place
import FinanceGateway.Proofs.Dispatch.Turns
import FinanceGateway.Proofs.Outcome
import FinanceGateway.Proofs.Url.Join

/-!
# What a call sends

`Call.request_eq_ok_iff` says when a call makes a request and what that request is, and
`execute_onlySends` that carrying out a call sends nothing but such requests, made with a token that
the provider may yield. For the services this fixes the Authorization header: below a base that
names no user it is the usable token and nothing else (`Service.authorization_eq`).
-/

namespace FinanceGateway

/-! ## Requests -/

namespace Url

@[simp] theorem addQuery_login (url : Url) (pairs : List (String × String)) :
    (url.addQuery pairs).login = url.login := by
  cases pairs <;> rfl

@[simp] theorem addQuery_scheme (url : Url) (pairs : List (String × String)) :
    (url.addQuery pairs).scheme = url.scheme := by
  cases pairs <;> rfl

@[simp] theorem addQuery_nil (url : Url) : url.addQuery [] = url := rfl

end Url

/-- What may be sent goes to an address of the web. -/
theorem isWebScheme_of_isSendable {url : Url} (h : isSendable url = true) :
    Url.isWebScheme url.scheme = true := by
  simp only [isSendable, Bool.or_eq_true] at h
  rcases h with h | h <;> simp [Url.isWebScheme, h]

namespace Call

variable {call : Call} {base path : String} {token : Option String} {request : Outgoing}

/-- A call makes a request when its form, its address and its token are in order. -/
theorem request_eq_ok_iff :
    call.request base path token = .ok request ↔
      ∃ payload url, call.payload = .ok payload ∧ address base path = .ok url ∧
        (∀ t, token = some t → isHeaderValue (bearer t) = true) ∧
        request = { method := call.method, url := url.addQuery call.queryPairs,
                    authorization := authorization url token, payload } := by
  have htoken : ((token.map bearer).any fun value => !isHeaderValue value) = false ↔
      ∀ t, token = some t → isHeaderValue (bearer t) = true := by
    cases token <;> simp
  simp only [Call.request, bind_eq_ok_iff]
  constructor
  · rintro ⟨payload, hpayload, url, hurl, h⟩
    split at h
    · cases h
    · next hlegal =>
      cases h
      exact ⟨payload, url, hpayload, hurl, htoken.1 (Bool.eq_false_iff.2 hlegal), rfl⟩
  · rintro ⟨payload, url, hpayload, hurl, hlegal, rfl⟩
    exact ⟨payload, hpayload, url, hurl, by rw [htoken.2 hlegal]; rfl⟩

/-- A request that is made with a token carries it. -/
theorem bearer_mem_of_request {t : String} (h : call.request base path (some t) = .ok request) :
    bearer t ∈ request.authorization := by
  obtain ⟨payload, url, -, -, -, rfl⟩ := request_eq_ok_iff.1 h
  exact List.mem_append_right _ (List.mem_singleton_self _)

end Call

/-! ## Carrying out a call -/

/-- The tokens that a provider may yield, as far as they are usable. -/
def Yields : Option Provider → Option String → Prop
  | none, token => token = none
  | some (.fixed _ value), token => token = (TokenAnswer.ofOption value).usable
  | some (.external _), token => ∃ answer : TokenAnswer, token = answer.usable

/-- What goes on with the token of a provider sends what it sends for a token it may yield. -/
theorem onlySends_withToken {α : Type} {kind : Outgoing → Prop} {provider : Option Provider}
    {next : Option String → Plan α}
    (h : ∀ token, Yields provider token → (next token).OnlySends kind) :
    (withToken provider next).OnlySends kind := by
  rcases provider with - | ⟨id, value⟩ | id
  · exact h _ rfl
  · exact h _ rfl
  · exact fun answer => h _ ⟨answer, rfl⟩

/-- A provider that may yield a token may be asked for it, and then goes on with it. -/
theorem withToken_reaches {α : Type} {provider : Option Provider} {token : Option String}
    (h : Yields provider token) (next : Option String → Plan α) :
    ∃ turns, (withToken provider next).Reaches turns (next token) ∧
      turns.flatMap Turn.requests = [] := by
  rcases provider with - | ⟨id, value⟩ | id
  · cases h
    exact ⟨[], .start, rfl⟩
  · cases h
    exact ⟨[], .start, rfl⟩
  · obtain ⟨answer, rfl⟩ := h
    exact ⟨[.asked id answer], .ask .start, rfl⟩

/-- With a token at hand, a call sends the request that it makes with it, if it may be sent. -/
theorem onlySends_of_request {α : Type} {kind : Outgoing → Prop} {base path : String} {call : Call}
    {codec : Json.Codec α} {token : Option String}
    (h : ∀ request, call.request base path token = .ok request →
      isSendable request.url = true → kind request) :
    Plan.OnlySends kind <| match call.request base path token with
      | .error cause => Plan.done (.error (.invalidRequest cause))
      | .ok request => transmit call codec request := by
  split
  · trivial
  · next request hrequest =>
    unfold transmit
    split
    · next hsendable => exact ⟨h request hrequest hsendable, fun _ => trivial⟩
    · trivial

/-- Carrying out a call sends requests of the call, made with a token that the provider yields. -/
theorem execute_onlySends {α : Type} {kind : Outgoing → Prop} {base : String}
    {provider : Option Provider} {call : Call} {codec : Json.Codec α}
    (h : ∀ path token request, call.resolve = .ok path → Yields provider token →
      call.request base path token = .ok request → isSendable request.url = true → kind request) :
    (execute base provider call codec).OnlySends kind := by
  unfold execute
  split
  · trivial
  · next path hpath =>
    refine onlySends_withToken fun token htoken => onlySends_of_request fun request hrequest => ?_
    exact h path token request hpath htoken hrequest

/-- A call sends the request that it makes with a token of its provider, if it may be sent. -/
theorem execute_sends {α : Type} {base path : String} {provider : Option Provider} {call : Call}
    {token : Option String} {request : Outgoing} (codec : Json.Codec α)
    (hpath : call.resolve = .ok path) (htoken : Yields provider token)
    (hrequest : call.request base path token = .ok request)
    (hsendable : isSendable request.url = true) :
    ∃ turns rest, (execute base provider call codec).Reaches turns rest ∧
      Plan.sent turns rest = [request] := by
  unfold execute
  simp only [hpath]
  obtain ⟨turns, hreaches, hturns⟩ := withToken_reaches htoken fun token =>
    match call.request base path token with
    | .error cause => Plan.done (.error (.invalidRequest cause))
    | .ok request => transmit call codec request
  refine ⟨turns, _, hreaches, ?_⟩
  simp only [hrequest, transmit, hsendable, if_true, Plan.sent, hturns]
  rfl

namespace Service

variable {s : Service} {base : String}

/-- Below a base that names no user, a request of a service carries the token alone. -/
theorem authorization_eq {call : Call} {path : String} {token : Option String}
    {request : Outgoing} (hbase : Url.hasUserInfo base = false) (hcall : s.call = .ok call)
    (hpath : call.resolve = .ok path) (h : call.request base path token = .ok request)
    (hsendable : isSendable request.url = true) :
    request.authorization = (token.map bearer).toList := by
  obtain ⟨payload, url, -, hurl, -, rfl⟩ := Call.request_eq_ok_iff.1 h
  obtain ⟨more, hmore⟩ := path_eq_cons hcall hpath
  have hweb := isWebScheme_of_isSendable hsendable
  rw [Url.addQuery_scheme] at hweb
  have hat : '@' ∉ path.toList := fun hc =>
    absurd (mem_path hcall hpath hc) (by decide)
  have hlogin := Url.login_eq_none_of_address hbase hmore hat hurl hweb
  simp [Call.authorization, hlogin]

/-- Carrying out the call of a service sends requests of that call. -/
theorem execute_onlySends {kind : Outgoing → Prop} {provider : Option Provider}
    (h : ∀ call path token request, s.call = .ok call → call.resolve = .ok path →
      Yields provider token → call.request base path token = .ok request →
      isSendable request.url = true → kind request) :
    (s.execute base provider).OnlySends kind := by
  unfold Service.execute
  split
  · trivial
  · next call hcall =>
    exact FinanceGateway.execute_onlySends fun path token request => h call path token request hcall

end Service

end FinanceGateway
