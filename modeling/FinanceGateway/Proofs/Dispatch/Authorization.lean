import FinanceGateway.Proofs.Dispatch.Outcomes
import FinanceGateway.Proofs.Url.Below

/-!
# A token decides the Authorization header and nothing else

An `Attempt` is a run of a call with some provider, as far as it has come. Whatever the provider
says, the attempts of one call send the same request but for the token: `Call.request_token` is the
one place where a token enters, and it only goes into the header. So two attempts that send differ
in that header alone, and with the same reply they end in the same way
(`credential_decides_authorization_alone`).
-/

namespace FinanceGateway

/-! ## Requests and their token -/

namespace Outgoing

/-- A request without its Authorization header. -/
def bare (out : Outgoing) : Outgoing :=
  { out with authorization := [] }

/-- A request with one more value in its Authorization header, if there is a token. -/
def bearing (token : Option String) (out : Outgoing) : Outgoing :=
  { out with authorization := out.authorization ++ (token.map bearer).toList }

@[simp] theorem bare_bearing (token : Option String) (out : Outgoing) :
    (out.bearing token).bare = out.bare := rfl

@[simp] theorem bearing_none (out : Outgoing) : out.bearing none = out := by
  simp [bearing]

end Outgoing

namespace Call

variable {call : Call} {base path : String} {out : Outgoing}

/-- The credential of the user whom the address of a call names. -/
def login? (call : Call) (base : String) : Option Bytes := do
  let path ← call.resolve.toOption
  let url ← (address base path).toOption
  url.login

/-- The Authorization header of a call without a token. -/
def ownAuthorization (call : Call) (base : String) : List Bytes :=
  ((call.login? base).map basic).toList

/-- The address of a call is the one at which base and path are joined. -/
theorem login?_eq {url : Url} (hpath : call.resolve = .ok path)
    (hurl : address base path = .ok url) : call.login? base = url.login := by
  simp [login?, hpath, hurl, Except.toOption]

/-- With a token a call makes the request that it makes without one, and adds the token; a token
that no header can carry keeps it from being made. -/
theorem request_token (call : Call) (base path token : String) :
    call.request base path (some token) =
      (call.request base path none).bind fun out =>
        if isHeaderValue (Utf8.encode token) then .ok (out.bearing (some token))
        else .error (.url (base ++ path)) := by
  unfold request
  cases call.payload with
  | error cause => rfl
  | ok payload =>
    cases address base path with
    | error cause => rfl
    | ok url =>
      cases hlegal : isHeaderValue (Utf8.encode token) <;>
        simp [bind, Except.bind, isHeaderValue_bearer, hlegal, Outgoing.bearing, authorization]

/-- A request that is made with a token is the one without it, and the token in its header. -/
theorem exists_bearing_of_request {token : Option String}
    (h : call.request base path token = .ok out) :
    ∃ plain, call.request base path none = .ok plain ∧ out = plain.bearing token ∧
      ∀ t, token = some t → isHeaderValue (Utf8.encode t) = true := by
  cases token with
  | none => exact ⟨out, h, out.bearing_none.symm, nofun⟩
  | some t =>
    rw [request_token] at h
    cases hplain : call.request base path none with
    | error cause =>
      rw [hplain] at h
      cases h
    | ok plain =>
      rw [hplain, Except.bind] at h
      split at h
      · next hlegal =>
        cases h
        refine ⟨plain, rfl, rfl, ?_⟩
        rintro _ ⟨⟩
        exact hlegal
      · cases h

/-- What keeps a call from making a request with a legal token keeps it from making one without. -/
theorem request_none_of_error {token : Option String} {cause : InvalidRequest}
    (h : call.request base path token = .error cause)
    (hlegal : ∀ t, token = some t → isHeaderValue (Utf8.encode t) = true) :
    call.request base path none = .error cause := by
  cases token with
  | none => exact h
  | some t =>
    rw [request_token, hlegal t rfl] at h
    cases hplain : call.request base path none with
    | error cause' =>
      rw [hplain] at h
      exact h
    | ok plain =>
      rw [hplain] at h
      cases h

/-- A request without a token has no more than the credential of its address in the header. -/
theorem authorization_of_request_none (hpath : call.resolve = .ok path)
    (h : call.request base path none = .ok out) :
    out.authorization = call.ownAuthorization base := by
  obtain ⟨payload, url, -, hurl, -, rfl⟩ := request_eq_ok_iff.1 h
  simp [ownAuthorization, login?_eq hpath hurl, authorization]

/-- What is wrong with a call whose token no header can carry: its path, or its request without a
token, or else the address for which no request is made. -/
def illegalCause (call : Call) (base : String) : InvalidRequest :=
  match call.resolve with
  | .error cause => cause
  | .ok path =>
    match call.request base path none with
    | .error cause => cause
    | .ok _ => .url (base ++ path)

end Call

/-! ## Attempts -/

variable {α : Type} {base : String} {call : Call} {codec : Json.Codec α}

/-- A run of a call with some provider, as far as it has come. -/
structure Attempt (base : String) (call : Call) (codec : Json.Codec α) where
  provider : Option Provider
  turns : List Turn
  rest : Plan (Except ApiError α)
  reaches : (execute base provider call codec).Reaches turns rest

namespace Attempt

variable (a b : Attempt base call codec)

/-- What has gone out. -/
def sent : List Outgoing := Plan.sent a.turns a.rest

/-- The provider has yielded a token that is not blank. -/
def Yields (token : String) : Prop := YieldsIn a.turns a.provider token

/-- The provider has yielded none. -/
def IsAnonymous : Prop := ∀ token, ¬ a.Yields token

/-- A header can carry what the provider has yielded. -/
def IsLegal : Prop := ∀ token, a.Yields token → isHeaderValue (Utf8.encode token) = true

/-- What came back for a request. -/
def Hears (reply : Reply) : Prop := ∃ request, Turn.sent request reply ∈ a.turns

variable {a b}

/-- Without a provider no token is yielded. -/
theorem isAnonymous_of_nobody (h : a.provider = none) : a.IsAnonymous := by
  intro token hyields
  rw [Yields, h] at hyields
  cases hyields

/-- What is sent is the request without a token, and what the provider has yielded in its header. -/
theorem exists_plain {out : Outgoing} (h : out ∈ a.sent) :
    ∃ path plain token, call.resolve = .ok path ∧ call.request base path none = .ok plain ∧
      isSendable plain.url = true ∧ out = plain.bearing token ∧
      (∀ t, token = some t → isHeaderValue (Utf8.encode t) = true) ∧
      ∀ t, a.Yields t ↔ token = some t := by
  obtain ⟨path, token, heard, after, hturns, htells, hpath, hrequest, hs, hafter⟩ :=
    exists_token_of_mem_sent a.reaches h
  obtain ⟨plain, hplain, rfl, hlegal⟩ := Call.exists_bearing_of_request hrequest
  refine ⟨path, plain, token, hpath, hplain, hs, rfl, hlegal, fun t => ?_⟩
  rw [Yields, hturns]
  exact htells.yieldsIn_iff hafter

/-- An attempt that comes to its end with a legal token, or none, does what a call does without a
provider: it ends at once in the same way, or sends the same request, and makes the same of the
reply. -/
theorem complete_of_isLegal {result : Except ApiError α} (hdone : a.rest = .done result)
    (hlegal : a.IsLegal) :
    (execute base none call codec = .done result ∧ a.sent = []) ∨
    ∃ plain token reply, execute base none call codec =
        .send plain (fun reply => .done (call.result codec plain.url reply)) ∧
      a.sent = [plain.bearing token] ∧ a.Hears reply ∧
      result = call.result codec plain.url reply := by
  obtain ⟨provider, turns, rest, hreaches⟩ := a
  obtain rfl : rest = .done result := hdone
  have hnone {path : String} (hpath : call.resolve = .ok path) : execute base none call codec =
      match call.request base path none with
      | .error cause => .done (.error (.invalidRequest cause))
      | .ok request => transmit call codec request := by
    rw [execute, hpath]
    rfl
  have hsent {turns : List Turn} {token : Option String} (htells : Tells provider turns token) :
      Plan.sent turns (.done result) = [] := by
    rw [Plan.sent, htells.requests]
    rfl
  cases execute_reaches_done_iff.1 hreaches with
  | unresolved hcause => exact .inl ⟨execute_of_unresolved hcause, rfl⟩
  | unmade hpath htells hrequest =>
    have hplain := Call.request_none_of_error hrequest fun t ht =>
      hlegal t (htells.yieldsIn_self_iff.2 ht)
    exact .inl ⟨by rw [hnone hpath, hplain], hsent htells⟩
  | unsendable hpath htells hrequest hs =>
    obtain ⟨plain, hplain, rfl, -⟩ := Call.exists_bearing_of_request hrequest
    refine .inl ⟨?_, hsent htells⟩
    rw [hnone hpath, hplain]
    exact if_neg (Bool.eq_false_iff.1 hs)
  | @replied path heard token _ reply hpath htells hrequest hs =>
    obtain ⟨plain, hplain, rfl, -⟩ := Call.exists_bearing_of_request hrequest
    refine .inr ⟨plain, token, reply, ?_, ?_, ⟨_, List.mem_append_right _ (.head _)⟩, rfl⟩
    · rw [hnone hpath, hplain]
      exact if_pos hs
    · rw [sent, Plan.sent, List.flatMap_append, htells.requests]
      rfl

/-- What is sent is sent with a legal token, or none. -/
theorem isLegal_of_sent {out : Outgoing} (h : out ∈ a.sent) : a.IsLegal := by
  obtain ⟨_, _, _, -, -, -, -, hlegal, htoken⟩ := exists_plain h
  exact fun t ht => hlegal t ((htoken t).1 ht)

/-- An attempt with an illegal token ends as the call alone decides. -/
theorem result_of_illegal {token : String} {result : Except ApiError α}
    (hdone : a.rest = .done result) (hyields : a.Yields token)
    (hillegal : isHeaderValue (Utf8.encode token) = false) :
    result = .error (.invalidRequest (call.illegalCause base)) := by
  obtain ⟨provider, turns, rest, hreaches⟩ := a
  obtain rfl : rest = .done result := hdone
  have hmade {path : String} {request : Outgoing} {told : Option String}
      (hrequest : call.request base path told = .ok request) (htold : told = some token) :
      False := by
    obtain ⟨-, -, -, hlegal⟩ := Call.exists_bearing_of_request hrequest
    cases hillegal.symm.trans (hlegal token htold)
  cases execute_reaches_done_iff.1 hreaches with
  | unresolved hcause => rw [Call.illegalCause, hcause]
  | unmade hpath htells hrequest =>
    obtain rfl := htells.yieldsIn_self_iff.1 hyields
    rw [Call.request_token, hillegal] at hrequest
    rw [Call.illegalCause, hpath]
    dsimp only
    cases hplain : call.request base _ none <;> rw [hplain] at hrequest <;> cases hrequest <;> rfl
  | unsendable _ htells hrequest _ =>
    exact (hmade hrequest (htells.yieldsIn_self_iff.1 hyields)).elim
  | replied _ _ htells hrequest _ =>
    exact (hmade hrequest ((htells.yieldsIn_iff (by simp)).1 hyields)).elim

/-- Without a token that is yielded, there is none in the request. -/
theorem IsAnonymous.eq_none {token : Option String} (h : a.IsAnonymous)
    (htoken : ∀ t, a.Yields t ↔ token = some t) : token = none :=
  Option.eq_none_iff_forall_ne_some.2 fun t ht => h t ((htoken t).2 ht)

/-- In the header of what is sent stands the credential of the address, and then what the provider
has yielded. -/
theorem authorization_of_sent {out : Outgoing} (h : out ∈ a.sent) :
    (∀ token, a.Yields token →
      out.authorization = call.ownAuthorization base ++ [bearer token]) ∧
    (a.IsAnonymous → out.authorization = call.ownAuthorization base) := by
  obtain ⟨path, plain, token, hpath, hplain, -, rfl, -, htoken⟩ := exists_plain h
  rw [← Call.authorization_of_request_none hpath hplain]
  refine ⟨fun t ht => ?_, fun ha => ?_⟩
  · obtain rfl := (htoken t).1 ht
    rfl
  · obtain rfl := ha.eq_none htoken
    rw [Outgoing.bearing_none]

/-- A call that sends a request to a path with a slash in front names the user of its base. -/
theorem login?_of_sent {out : Outgoing} {home : Url} {path : String} {more : List Char}
    (h : out ∈ a.sent) (hhome : Url.read base = some (.address home))
    (hpath : call.resolve = .ok path) (hslash : path.toList = '/' :: more) :
    call.login? base = home.login := by
  obtain ⟨path', plain, token, hpath', hplain, hs, -⟩ := exists_plain h
  obtain rfl : path = path' := Except.ok.inj (hpath.symm.trans hpath')
  obtain ⟨payload, url, -, hurl, -, rfl⟩ := Call.request_eq_ok_iff.1 hplain
  have hweb := isWebScheme_of_isSendable hs
  rw [Url.addQuery_scheme] at hweb
  rw [Call.login?_eq hpath hurl]
  exact Url.login_of_address_below hhome hslash hurl hweb

/-- Two requests for one call differ in the header alone, and not at all without a token. -/
theorem bare_eq_of_sent {out out' : Outgoing} (h : out ∈ a.sent) (h' : out' ∈ b.sent) :
    out.bare = out'.bare ∧ (a.IsAnonymous → b.IsAnonymous → out = out') := by
  obtain ⟨path, plain, token, hpath, hplain, -, rfl, -, htoken⟩ := exists_plain h
  obtain ⟨path', plain', token', hpath', hplain', -, rfl, -, htoken'⟩ := exists_plain h'
  obtain rfl : path = path' := Except.ok.inj (hpath.symm.trans hpath')
  obtain rfl : plain = plain' := Except.ok.inj (hplain.symm.trans hplain')
  refine ⟨rfl, fun ha hb => ?_⟩
  rw [ha.eq_none htoken, hb.eq_none htoken']

/-- Two attempts with legal tokens, or none, both send or both do not, and with the same reply they
end in the same way. -/
theorem agree_of_isLegal {result result' : Except ApiError α} (ha : a.IsLegal) (hb : b.IsLegal)
    (hdone : a.rest = .done result) (hdone' : b.rest = .done result') :
    a.sent.map Outgoing.bare = b.sent.map Outgoing.bare ∧
      ((∀ reply reply', a.Hears reply → b.Hears reply' → reply = reply') → result = result') := by
  rcases complete_of_isLegal hdone ha with
    ⟨hplain, hsent⟩ | ⟨plain, token, reply, hplain, hsent, hhears, rfl⟩ <;>
  rcases complete_of_isLegal hdone' hb with
    ⟨hplain', hsent'⟩ | ⟨plain', token', reply', hplain', hsent', hhears', rfl⟩ <;>
  cases hplain.symm.trans hplain'
  · exact ⟨by rw [hsent, hsent'], fun _ => rfl⟩
  · refine ⟨by rw [hsent, hsent']; rfl, fun hsame => ?_⟩
    rw [hsame reply reply' hhears hhears']

end Attempt

/-- The token that a provider yields decides the Authorization header and nothing else. A request
that is sent has the credential of its address in that header, which below an address is that of the
base, and besides it just the token, if one has been yielded that is not blank. Two requests for one
call differ in the header alone, and not at all without a token. Two attempts with tokens that a
header can carry both send or both do not, and end in the same way if they hear the same. A token
that no header can carry keeps the request from being sent, and the error is the same for all of
them. -/
theorem credential_decides_authorization_alone (base : String) (call : Call)
    (codec : Json.Codec α) :
    (∀ a : Attempt base call codec, ∀ out ∈ a.sent,
      (∀ token, a.Yields token →
        out.authorization = call.ownAuthorization base ++ [bearer token]) ∧
      (a.IsAnonymous → out.authorization = call.ownAuthorization base) ∧
      ∀ home path more, Url.read base = some (.address home) → call.resolve = .ok path →
        path.toList = '/' :: more → call.login? base = home.login) ∧
    (∀ a b : Attempt base call codec, ∀ out ∈ a.sent, ∀ out' ∈ b.sent,
      out.bare = out'.bare ∧ (a.IsAnonymous → b.IsAnonymous → out = out')) ∧
    (∀ (a b : Attempt base call codec) (result result' : Except ApiError α),
      a.IsLegal → b.IsLegal → a.rest = .done result → b.rest = .done result' →
        a.sent.map Outgoing.bare = b.sent.map Outgoing.bare ∧
        ((∀ reply reply', a.Hears reply → b.Hears reply' → reply = reply') → result = result')) ∧
    ∃ cause, ∀ (a : Attempt base call codec) (token : String), a.Yields token →
      isHeaderValue (Utf8.encode token) = false →
        a.sent = [] ∧ ∀ result, a.rest = .done result → result = .error (.invalidRequest cause) :=
  ⟨fun _ _ hout => ⟨(Attempt.authorization_of_sent hout).1, (Attempt.authorization_of_sent hout).2,
      fun _ _ _ => Attempt.login?_of_sent hout⟩,
    fun _ _ _ hout _ hout' => Attempt.bare_eq_of_sent hout hout',
    fun _ _ _ _ ha hb => Attempt.agree_of_isLegal ha hb,
    call.illegalCause base, fun _ _ hyields hillegal =>
      ⟨List.eq_nil_iff_forall_not_mem.2 fun _ hout => Bool.false_ne_true
        (hillegal.symm.trans (Attempt.isLegal_of_sent hout _ hyields)),
      fun _ hdone => Attempt.result_of_illegal hdone hyields hillegal⟩⟩

/-- A token with blanks around it stands in the header as it is, and makes no difference to how a
refusal ends. -/
theorem spaced_token_stands_in_header :
    let base := "http://backend.test"
    let call : Call := { method := "GET", template := "/x" }
    let reply : Reply := .answer 404 []
    ∃ (a b : Attempt base call Json.Codec.any) (result : Except ApiError Json)
      (out plain : Outgoing),
      a.Yields " t " ∧ a.sent = [out] ∧ a.Hears reply ∧ a.rest = .done result ∧
      b.IsAnonymous ∧ b.sent = [plain] ∧ b.Hears reply ∧ b.rest = .done result ∧
      out.bare = plain ∧ out.authorization = [Utf8.encode "Bearer  t "] := by
  intro base call reply
  let url : Url :=
    { scheme := "http", login := none, host := "backend.test", port := none, segments := ["x"],
      query := none, fragment := none }
  let plain : Outgoing := { method := "GET", url, authorization := [], payload := .empty }
  let out : Outgoing := plain.bearing (some " t ")
  have hpath : call.resolve = .ok "/x" := by decide +kernel
  have hread : Url.read (base ++ "/x") = some (.address url) := by decide +kernel
  have hrequest (token : Option String)
      (hlegal : ∀ t, token = some t → isHeaderValue (bearer t) = true) :
      call.request base "/x" token = .ok (plain.bearing token) :=
    Call.request_eq_ok_iff.2 ⟨.empty, url, rfl, by rw [Call.address, hread], hlegal, rfl⟩
  let a : Attempt base call Json.Codec.any :=
    ⟨some (.external 7), [.asked 7 (.token " t "), .sent out reply],
      .done (call.result .any out.url reply),
      execute_reaches_done_iff.2 (.replied reply hpath (@Tells.external 7 (.token " t "))
        (hrequest _ (by decide +kernel)) rfl)⟩
  let b : Attempt base call Json.Codec.any :=
    ⟨none, [.sent plain reply], .done (call.result .any plain.url reply),
      execute_reaches_done_iff.2 (.replied reply hpath .nobody (hrequest none nofun) rfl)⟩
  have hyields : a.Yields " t " := .external (by decide +kernel) (.head _)
  have hnone : b.IsAnonymous := Attempt.isAnonymous_of_nobody rfl
  have ha : out ∈ a.sent := .head _
  have hb : plain ∈ b.sent := .head _
  obtain ⟨hheader, -, hagree, -⟩ :=
    credential_decides_authorization_alone base call Json.Codec.any
  obtain ⟨hout, -, -⟩ := hheader a out ha
  have hreplies : ∀ reply reply', a.Hears reply → b.Hears reply' → reply = reply' := by
    rintro _ _ ⟨_, hmem⟩ ⟨_, hmem'⟩
    simp only [a, b, List.mem_cons, List.not_mem_nil, or_false, reduceCtorEq, false_or,
      Turn.sent.injEq] at hmem hmem'
    rw [hmem.2, hmem'.2]
  obtain ⟨-, hsame⟩ := hagree a b _ _ (Attempt.isLegal_of_sent ha) (Attempt.isLegal_of_sent hb)
    rfl rfl
  refine ⟨a, b, _, out, plain, hyields, rfl, ⟨out, .tail _ (.head _)⟩, rfl, hnone, rfl,
    ⟨plain, .head _⟩, congrArg _ (hsame hreplies).symm, rfl, (hout _ hyields).trans ?_⟩
  decide +kernel

/-- A path without a slash in front can turn the base into the name of a user, whose credential goes
along though nobody has yielded a token. -/
theorem path_can_name_a_user :
    let base := "http://backend.test"
    let call : Call := { method := "GET", template := "@backend.test/x" }
    Url.hasUserInfo base = false ∧
      ∃ a : Attempt base call Json.Codec.any, a.IsAnonymous ∧ ∃ out ∈ a.sent,
        out.authorization = [Utf8.encode "Basic YmFja2VuZC50ZXN0Og=="] := by
  intro base call
  let url : Url :=
    { scheme := "http", login := some (Utf8.encode "backend.test:"), host := "backend.test",
      port := none, segments := ["x"], query := none, fragment := none }
  have hpath : call.resolve = .ok "@backend.test/x" := by decide +kernel
  have hread : Url.read (base ++ "@backend.test/x") = some (.address url) := by decide +kernel
  have hrequest : call.request base "@backend.test/x" none = .ok
      { method := "GET", url, authorization := [basic (Utf8.encode "backend.test:")]
        payload := .empty } :=
    Call.request_eq_ok_iff.2 ⟨.empty, url, rfl, by rw [Call.address, hread], nofun, rfl⟩
  refine ⟨by decide +kernel, ⟨none, _, _,
    execute_reaches_done_iff.2 (.replied .unreached hpath .nobody hrequest rfl)⟩,
    Attempt.isAnonymous_of_nobody rfl, _, .head _, by decide +kernel⟩

end FinanceGateway
