import FinanceGateway.Proofs.Dispatch.Faults

/-!
# How a call ends

`Ends` lists the ways in which carrying out a call can end, each with the turns it takes, and
`execute_reaches_done_iff` says that these are the complete runs of `execute`; every later statement
about the result of a call is a case analysis on it. `Classified` says of a run and its result what
decides the kind of the result: whether the call is faulty, then whether an answer came, then its
status, then its body. The main statement, `execute_outcome`, is that every complete run is
classified, that no run sends more than one request, and that a call always gets to its result.
-/

namespace FinanceGateway

/-! ## What a provider says -/

/-- What a provider says in these turns, as far as it is usable. -/
inductive Tells : Option Provider → List Turn → Option String → Prop
  | nobody : Tells none [] none
  | fixed {id value} : Tells (some (.fixed id value)) [] (TokenAnswer.ofOption value).usable
  | external {id answer} : Tells (some (.external id)) [.asked id answer] answer.usable

/-- In these turns a provider yields a token that is not blank. -/
inductive YieldsIn (turns : List Turn) : Option Provider → String → Prop
  | fixed {id token} : Text.isBlank token = false →
      YieldsIn turns (some (.fixed id (some token))) token
  | external {id token} : Text.isBlank token = false → Turn.asked id (.token token) ∈ turns →
      YieldsIn turns (some (.external id)) token

/-- Only a token that is not blank is usable. -/
theorem TokenAnswer.usable_eq_some_iff {answer : TokenAnswer} {token : String} :
    answer.usable = some token ↔ answer = .token token ∧ Text.isBlank token = false := by
  cases answer with
  | token value =>
    rw [usable]
    constructor
    · intro h
      split at h
      · cases h
      · next hblank =>
        cases h
        exact ⟨rfl, Bool.eq_false_iff.2 hblank⟩
    · rintro ⟨h, hblank⟩
      cases h
      rw [hblank]
      rfl
  | anonymous | unavailable => simp [usable]

/-- The token that a provider yields is the usable one among what it says, if nobody is asked
later. -/
theorem Tells.yieldsIn_iff {provider : Option Provider} {before after : List Turn}
    {told : Option String} {token : String} (h : Tells provider before told)
    (hafter : ∀ id answer, Turn.asked id answer ∉ after) :
    YieldsIn (before ++ after) provider token ↔ told = some token := by
  cases h with
  | nobody => exact ⟨nofun, nofun⟩
  | @fixed id value =>
    rw [TokenAnswer.usable_eq_some_iff]
    constructor
    · rintro ⟨hblank⟩
      exact ⟨rfl, hblank⟩
    · rintro ⟨hvalue, hblank⟩
      cases value with
      | none => cases hvalue
      | some value =>
        cases hvalue
        exact .fixed hblank
  | @external id answer =>
    rw [TokenAnswer.usable_eq_some_iff]
    constructor
    · rintro (- | ⟨hblank, hmem⟩)
      rcases List.mem_append.1 hmem with hmem | hmem
      · cases List.mem_singleton.1 hmem
        exact ⟨rfl, hblank⟩
      · exact absurd hmem (hafter _ _)
    · rintro ⟨rfl, hblank⟩
      exact .external hblank (List.mem_append_left _ (List.mem_singleton.2 rfl))

/-- The token that a provider yields while it is heard is the one that it tells. -/
theorem Tells.yieldsIn_self_iff {provider : Option Provider} {turns : List Turn}
    {told : Option String} {token : String} (h : Tells provider turns told) :
    YieldsIn turns provider token ↔ told = some token := by
  have hafter : ∀ id answer, Turn.asked id answer ∉ [] := nofun
  rw [← h.yieldsIn_iff hafter, List.append_nil]

/-- What a provider says goes out in no request. -/
theorem Tells.requests {provider : Option Provider} {turns : List Turn} {told : Option String}
    (h : Tells provider turns told) : turns.flatMap Turn.requests = [] := by
  cases h <;> rfl

/-- In what a provider says no request is sent. -/
theorem Tells.sent_not_mem {provider : Option Provider} {turns : List Turn}
    {told : Option String} (h : Tells provider turns told) (request : Outgoing) (reply : Reply) :
    Turn.sent request reply ∉ turns := by
  cases h <;> simp

variable {α : Type}

/-- What goes on with the token of a provider first hears what the provider says. -/
theorem withToken_reaches_done_iff {provider : Option Provider} {next : Option String → Plan α}
    {turns : List Turn} {result : α} :
    (withToken provider next).Reaches turns (.done result) ↔
      ∃ token before after, Tells provider before token ∧ turns = before ++ after ∧
        (next token).Reaches after (.done result) := by
  constructor
  · intro h
    rcases provider with - | ⟨id, value⟩ | id
    · exact ⟨_, [], turns, .nobody, rfl, h⟩
    · exact ⟨_, [], turns, .fixed, rfl, h⟩
    · cases h with
      | ask h => exact ⟨_, [_], _, .external, rfl, h⟩
  · rintro ⟨token, before, after, htells, rfl, h⟩
    cases htells with
    | nobody | fixed => exact h
    | external => exact .ask h

/-- What goes on with the token of a provider sends nothing before it has heard the provider. -/
theorem withToken_reaches_of_mem_sent {provider : Option Provider}
    {next : Option String → Plan α} {turns : List Turn} {rest : Plan α} {out : Outgoing}
    (h : (withToken provider next).Reaches turns rest) (hout : out ∈ Plan.sent turns rest) :
    ∃ token before after, Tells provider before token ∧ turns = before ++ after ∧
      (next token).Reaches after rest := by
  rcases provider with - | ⟨id, value⟩ | id
  · exact ⟨_, [], turns, .nobody, rfl, h⟩
  · exact ⟨_, [], turns, .fixed, rfl, h⟩
  · cases h with
    | start => cases hout
    | ask h => exact ⟨_, [_], _, .external, rfl, h⟩

/-- What goes on with the token of a provider sends as much as it sends with any token. -/
theorem sendsAtMost_withToken {n : Nat} {provider : Option Provider}
    {next : Option String → Plan α} (h : ∀ token, (next token).SendsAtMost n) :
    (withToken provider next).SendsAtMost n := by
  rcases provider with - | ⟨id, value⟩ | id
  · exact h _
  · exact h _
  · exact fun answer => h _

/-! ## The ends of a call -/

variable {base : String} {provider : Option Provider} {call : Call} {codec : Json.Codec α}
  {turns : List Turn} {result : Except ApiError α}

/-- The ways in which carrying out a call ends, with the turns it takes and its result. -/
inductive Ends (base : String) (provider : Option Provider) (call : Call) (codec : Json.Codec α) :
    List Turn → Except ApiError α → Prop
  /-- The path is not resolved; nobody is asked for a token. -/
  | unresolved {cause} : call.resolve = .error cause →
      Ends base provider call codec [] (.error (.invalidRequest cause))
  /-- No request is made. -/
  | unmade {path turns token cause} : call.resolve = .ok path → Tells provider turns token →
      call.request base path token = .error cause →
      Ends base provider call codec turns (.error (.invalidRequest cause))
  /-- The request goes to an address to which nothing can be sent. -/
  | unsendable {path turns token request} : call.resolve = .ok path →
      Tells provider turns token → call.request base path token = .ok request →
      isSendable request.url = false →
      Ends base provider call codec turns
        (.error (.transport (.unsupportedScheme request.url.text)))
  /-- The request is sent, and something comes back. -/
  | replied {path turns token request} (reply : Reply) : call.resolve = .ok path →
      Tells provider turns token → call.request base path token = .ok request →
      isSendable request.url = true →
      Ends base provider call codec (turns ++ [.sent request reply])
        (call.result codec request.url reply)

/-- A request that is sent is the last turn of its call. -/
theorem transmit_reaches_done_iff {request : Outgoing} :
    (transmit call codec request).Reaches turns (.done result) ↔
      (isSendable request.url = false ∧ turns = [] ∧
        result = .error (.transport (.unsupportedScheme request.url.text))) ∨
      (isSendable request.url = true ∧ ∃ reply, turns = [.sent request reply] ∧
        result = call.result codec request.url reply) := by
  unfold transmit
  cases hsendable : isSendable request.url with
  | false => simp [Plan.reaches_done_iff]
  | true =>
    constructor
    · intro h
      cases h with
      | send h =>
        obtain ⟨rfl, h⟩ := Plan.reaches_done_iff.1 h
        cases h
        exact .inr ⟨rfl, _, rfl, rfl⟩
    · rintro (⟨h, -⟩ | ⟨-, reply, rfl, rfl⟩)
      · cases h
      · exact .send .start

/-- The complete runs of a call are the ways in which it ends. -/
theorem execute_reaches_done_iff :
    (execute base provider call codec).Reaches turns (.done result) ↔
      Ends base provider call codec turns result := by
  unfold execute
  cases hpath : call.resolve with
  | error cause =>
    simp only [Plan.reaches_done_iff, Plan.done.injEq]
    constructor
    · rintro ⟨rfl, rfl⟩
      exact .unresolved hpath
    · rintro (h | ⟨h, -, -⟩ | ⟨h, -, -, -⟩ | ⟨-, h, -, -, -⟩)
      · cases hpath.symm.trans h
        exact ⟨rfl, rfl⟩
      all_goals cases hpath.symm.trans h
  | ok path =>
    simp only [withToken_reaches_done_iff]
    constructor
    · rintro ⟨token, before, after, htells, rfl, h⟩
      cases hrequest : call.request base path token with
      | error cause =>
        rw [hrequest] at h
        obtain ⟨rfl, h⟩ := Plan.reaches_done_iff.1 h
        cases h
        rw [List.append_nil]
        exact .unmade hpath htells hrequest
      | ok request =>
        rw [hrequest] at h
        rcases transmit_reaches_done_iff.1 h with ⟨hs, rfl, rfl⟩ | ⟨hs, reply, rfl, rfl⟩
        · rw [List.append_nil]
          exact .unsendable hpath htells hrequest hs
        · exact .replied reply hpath htells hrequest hs
    · rintro (h | ⟨h, htells, hrequest⟩ | ⟨h, htells, hrequest, hs⟩ |
        ⟨reply, h, htells, hrequest, hs⟩)
      · cases hpath.symm.trans h
      · cases hpath.symm.trans h
        refine ⟨_, turns, [], htells, (List.append_nil _).symm, ?_⟩
        rw [hrequest]
        exact .start
      · cases hpath.symm.trans h
        refine ⟨_, turns, [], htells, (List.append_nil _).symm, ?_⟩
        rw [hrequest]
        exact transmit_reaches_done_iff.2 (.inl ⟨hs, rfl, rfl⟩)
      · cases hpath.symm.trans h
        refine ⟨_, _, [.sent _ reply], htells, rfl, ?_⟩
        rw [hrequest]
        exact transmit_reaches_done_iff.2 (.inr ⟨hs, reply, rfl, rfl⟩)

/-- A call without a query whose request can be made and sent may get any reply. -/
theorem Ends.exists_replied {path : String} {token : Option String} {url : Url} {payload : Payload}
    (hpath : call.resolve = .ok path) (hquery : call.queryPairs = [])
    (hpayload : call.payload = .ok payload) (htells : Tells provider turns token)
    (hurl : Call.address base path = .ok url)
    (hlegal : ∀ t, token = some t → isHeaderValue (bearer t) = true)
    (hsendable : isSendable url = true) (reply : Reply) :
    ∃ request, Ends base provider call codec (turns ++ [.sent request reply])
      (call.result codec url reply) := by
  let request : Outgoing :=
    { method := call.method, url, authorization := Call.authorization url token, payload }
  have hrequest : call.request base path token = .ok request := by
    refine Call.request_eq_ok_iff.2 ⟨payload, url, hpayload, hurl, hlegal, ?_⟩
    rw [hquery, Url.addQuery_nil]
  exact ⟨request, .replied reply hpath htells hrequest hsendable⟩

/-- Carrying out a call sends one request at most. -/
theorem execute_sendsAtMost : (execute base provider call codec).SendsAtMost 1 := by
  unfold execute
  split
  · trivial
  · refine sendsAtMost_withToken fun token => ?_
    split
    · trivial
    · unfold transmit
      split
      · exact ⟨Nat.one_pos, fun _ => trivial⟩
      · trivial

/-- While a request is sent, nobody is asked for a token. -/
theorem asked_not_mem_of_transmit {request : Outgoing} {rest : Plan (Except ApiError α)}
    (h : (transmit call codec request).Reaches turns rest) (id : Nat) (answer : TokenAnswer) :
    Turn.asked id answer ∉ turns := by
  unfold transmit at h
  split at h
  · cases h with
    | start => exact nofun
    | send h =>
      obtain ⟨rfl, -⟩ := Plan.reaches_done_iff.1 h
      simp
  · obtain ⟨rfl, -⟩ := Plan.reaches_done_iff.1 h
    exact nofun

/-- What is sent in a run of a call is the request that it makes with the token that its provider
has told before; nobody is asked again. -/
theorem exists_token_of_mem_sent {rest : Plan (Except ApiError α)} {out : Outgoing}
    (h : (execute base provider call codec).Reaches turns rest)
    (hout : out ∈ Plan.sent turns rest) :
    ∃ path token heard after, turns = heard ++ after ∧ Tells provider heard token ∧
      call.resolve = .ok path ∧ call.request base path token = .ok out ∧
      isSendable out.url = true ∧ ∀ id answer, Turn.asked id answer ∉ after := by
  unfold execute at h
  split at h
  · obtain ⟨rfl, rfl⟩ := Plan.reaches_done_iff.1 h
    cases hout
  · next path hpath =>
    obtain ⟨token, heard, after, htells, rfl, hnext⟩ := withToken_reaches_of_mem_sent h hout
    rw [Plan.sent_append, htells.requests, List.nil_append] at hout
    have honly : ∀ out ∈ Plan.sent after rest,
        call.request base path token = .ok out ∧ isSendable out.url = true :=
      Plan.OnlySends.of_sent (onlySends_of_request fun request hrequest hs => ⟨hrequest, hs⟩) hnext
    obtain ⟨hrequest, hs⟩ := honly out hout
    rw [hrequest] at hnext
    exact ⟨path, token, heard, after, rfl, htells, hpath, hrequest, hs,
      asked_not_mem_of_transmit hnext⟩

/-! ## What decides the result -/

/-- Something keeps the call from becoming a request, given what its provider yields in these
turns. -/
inductive Call.IsFaulty (call : Call) (base : String) (provider : Option Provider)
    (turns : List Turn) : Prop
  | path {cause} : call.resolve = .error cause → IsFaulty call base provider turns
  | contentType {field} : field ∈ call.formFields → field.isMistyped = true →
      IsFaulty call base provider turns
  | address {path} : call.resolve = .ok path →
      (∀ url, Url.read (base ++ path) ≠ some (.address url)) → IsFaulty call base provider turns
  | token {token} : YieldsIn turns provider token → isHeaderValue (Utf8.encode token) = false →
      IsFaulty call base provider turns

/-- In these turns a complete answer came. -/
def Answered (turns : List Turn) (status : Nat) (body : Bytes) : Prop :=
  ∃ request, Turn.sent request (.answer status body) ∈ turns

/-- The kind of a result is decided by the faults of the call, then by whether an answer came, then
by its status, then by its body. -/
structure Classified (base : String) (provider : Option Provider) (call : Call)
    (codec : Json.Codec α) (turns : List Turn) (result : Except ApiError α) : Prop where
  invalid_iff : (∃ cause, result = .error (.invalidRequest cause)) ↔
    call.IsFaulty base provider turns
  transport_iff : (∃ fault, result = .error (.transport fault)) ↔
    ¬ call.IsFaulty base provider turns ∧ ¬ ∃ status body, Answered turns status body
  api_iff : (∃ details, result = .error (.api details)) ↔
    ¬ call.IsFaulty base provider turns ∧
      ∃ status body, Answered turns status body ∧ Http.isSuccess status = false
  decode_iff : (∃ fault, result = .error (.decode fault)) ↔
    ¬ call.IsFaulty base provider turns ∧
      ∃ status body, Answered turns status body ∧ Http.isSuccess status = true ∧
        ∀ value, Call.decodeBody codec body ≠ .ok value
  ok_iff : ∀ value, result = .ok value ↔
    ¬ call.IsFaulty base provider turns ∧
      ∃ status body, Answered turns status body ∧ Http.isSuccess status = true ∧
        Call.decodeBody codec body = .ok value

/-- With its path resolved and its provider heard, a call is faulty exactly when it makes no
request. -/
theorem Call.isFaulty_iff {path : String} {before after : List Turn} {token : Option String}
    (hpath : call.resolve = .ok path) (htells : Tells provider before token)
    (hafter : ∀ id answer, Turn.asked id answer ∉ after) :
    call.IsFaulty base provider (before ++ after) ↔
      ∃ cause, call.request base path token = .error cause := by
  rw [exists_request_eq_error_iff]
  constructor
  · rintro (h | ⟨hfield, hmistyped⟩ | ⟨h, haddress⟩ | ⟨hyields, hlegal⟩)
    · cases hpath.symm.trans h
    · exact .inl ⟨_, hfield, hmistyped⟩
    · cases hpath.symm.trans h
      exact .inr (.inl haddress)
    · exact .inr (.inr ⟨_, (htells.yieldsIn_iff hafter).1 hyields, hlegal⟩)
  · rintro (⟨field, hfield, hmistyped⟩ | haddress | ⟨token, rfl, hlegal⟩)
    · exact .contentType hfield hmistyped
    · exact .address hpath haddress
    · exact .token ((htells.yieldsIn_iff hafter).2 rfl) hlegal

/-- A call that makes a request is not faulty. -/
theorem Call.not_isFaulty {path : String} {before after : List Turn} {token : Option String}
    {request : Outgoing} (hpath : call.resolve = .ok path) (htells : Tells provider before token)
    (hafter : ∀ id answer, Turn.asked id answer ∉ after)
    (hrequest : call.request base path token = .ok request) :
    ¬ call.IsFaulty base provider (before ++ after) := by
  rw [isFaulty_iff hpath htells hafter, hrequest]
  exact nofun

/-- A body that does not decode is a decoding failure. -/
theorem Call.decodeBody_cases (codec : Json.Codec α) (body : Bytes) :
    (∃ value, decodeBody codec body = .ok value) ∨
      ∃ fault, decodeBody codec body = .error (.decode fault) := by
  unfold decodeBody
  generalize (if body.all Text.isAsciiBlank then codec.decodeJson .null
    else codec.decodeText body) = decoded
  cases decoded with
  | ok value => exact .inl ⟨value, rfl⟩
  | error fault => exact .inr ⟨fault, rfl⟩

namespace Classified

/-- A faulty call is an invalid request. -/
theorem of_faulty {cause : InvalidRequest} (h : call.IsFaulty base provider turns) :
    Classified base provider call codec turns (.error (.invalidRequest cause)) where
  invalid_iff := iff_of_true ⟨cause, rfl⟩ h
  transport_iff := iff_of_false nofun fun h' => h'.1 h
  api_iff := iff_of_false nofun fun h' => h'.1 h
  decode_iff := iff_of_false nofun fun h' => h'.1 h
  ok_iff _ := iff_of_false nofun fun h' => h'.1 h

/-- A call without an answer has failed on the way. -/
theorem of_unanswered {fault : TransportFault} (h : ¬ call.IsFaulty base provider turns)
    (hnone : ¬ ∃ status body, Answered turns status body) :
    Classified base provider call codec turns (.error (.transport fault)) where
  invalid_iff := iff_of_false nofun h
  transport_iff := iff_of_true ⟨fault, rfl⟩ ⟨h, hnone⟩
  api_iff := iff_of_false nofun fun ⟨_, status, body, ha, _⟩ => hnone ⟨status, body, ha⟩
  decode_iff := iff_of_false nofun fun ⟨_, status, body, ha, _⟩ => hnone ⟨status, body, ha⟩
  ok_iff _ := iff_of_false nofun fun ⟨_, status, body, ha, _⟩ => hnone ⟨status, body, ha⟩

section Answer

variable {status : Nat} {body : Bytes} (h : ¬ call.IsFaulty base provider turns)
  (hcame : Answered turns status body)
  (honly : ∀ status' body', Answered turns status' body' → status' = status ∧ body' = body)

include h hcame honly

/-- A call that is answered with another status than one of success is an error of the backend. -/
theorem of_refused {details : ErrorDetails} (hstatus : Http.isSuccess status = false) :
    Classified base provider call codec turns (.error (.api details)) where
  invalid_iff := iff_of_false nofun h
  transport_iff := iff_of_false nofun fun h' => h'.2 ⟨status, body, hcame⟩
  api_iff := iff_of_true ⟨details, rfl⟩ ⟨h, status, body, hcame, hstatus⟩
  decode_iff := iff_of_false nofun fun ⟨_, _, _, ha, hs, _⟩ => by
    rw [(honly _ _ ha).1, hstatus] at hs
    cases hs
  ok_iff _ := iff_of_false nofun fun ⟨_, _, _, ha, hs, _⟩ => by
    rw [(honly _ _ ha).1, hstatus] at hs
    cases hs

/-- A call that is answered with success ends as the body decodes. -/
theorem of_success (hstatus : Http.isSuccess status = true) :
    Classified base provider call codec turns (Call.decodeBody codec body) := by
  rcases Call.decodeBody_cases codec body with ⟨value, hvalue⟩ | ⟨fault, hfault⟩
  · rw [hvalue]
    exact {
      invalid_iff := iff_of_false nofun h
      transport_iff := iff_of_false nofun fun h' => h'.2 ⟨status, body, hcame⟩
      api_iff := iff_of_false nofun fun ⟨_, _, _, ha, hs⟩ => by
        rw [(honly _ _ ha).1, hstatus] at hs
        cases hs
      decode_iff := iff_of_false nofun fun ⟨_, _, _, ha, _, hd⟩ => by
        rw [(honly _ _ ha).2] at hd
        exact hd value hvalue
      ok_iff := fun value' => by
        constructor
        · rintro ⟨rfl⟩
          exact ⟨h, status, body, hcame, hstatus, hvalue⟩
        · rintro ⟨-, _, _, ha, -, hd⟩
          rw [(honly _ _ ha).2, hvalue] at hd
          exact hd }
  · rw [hfault]
    exact {
      invalid_iff := iff_of_false nofun h
      transport_iff := iff_of_false nofun fun h' => h'.2 ⟨status, body, hcame⟩
      api_iff := iff_of_false nofun fun ⟨_, _, _, ha, hs⟩ => by
        rw [(honly _ _ ha).1, hstatus] at hs
        cases hs
      decode_iff := iff_of_true ⟨fault, rfl⟩
        ⟨h, status, body, hcame, hstatus, fun value hd => by cases hfault.symm.trans hd⟩
      ok_iff := fun value => iff_of_false nofun fun ⟨_, _, _, ha, _, hd⟩ => by
        rw [(honly _ _ ha).2, hfault] at hd
        cases hd }

end Answer

end Classified

/-- What is answered is what comes back for the request. -/
theorem answered_append_iff {before : List Turn} {token : Option String} {request : Outgoing}
    {reply : Reply} {status : Nat} {body : Bytes} (htells : Tells provider before token) :
    Answered (before ++ [.sent request reply]) status body ↔ reply = .answer status body := by
  constructor
  · rintro ⟨request', hmem⟩
    rcases List.mem_append.1 hmem with hmem | hmem
    · exact absurd hmem (htells.sent_not_mem _ _)
    · cases List.mem_singleton.1 hmem
      rfl
  · rintro rfl
    exact ⟨request, List.mem_append_right _ (List.mem_singleton.2 rfl)⟩

/-- A call that is answered has made a request and sent it last. -/
theorem Ends.exists_request {status : Nat} {body : Bytes}
    (h : Ends base provider call codec turns result) (hcame : Answered turns status body) :
    ∃ path before token request, call.resolve = .ok path ∧ Tells provider before token ∧
      call.request base path token = .ok request ∧ isSendable request.url = true ∧
      turns = before ++ [.sent request (.answer status body)] ∧
      result = call.result codec request.url (.answer status body) := by
  have hnone {before : List Turn} {token : Option String} (htells : Tells provider before token) :
      ¬ Answered before status body := fun ⟨_, hmem⟩ => htells.sent_not_mem _ _ hmem
  cases h with
  | unresolved =>
    obtain ⟨_, hmem⟩ := hcame
    cases hmem
  | unmade _ htells _ | unsendable _ htells _ _ => exact absurd hcame (hnone htells)
  | replied reply hpath htells hrequest hs =>
    obtain rfl := (answered_append_iff htells).1 hcame
    exact ⟨_, _, _, _, hpath, htells, hrequest, hs, rfl, rfl⟩

/-- A call that is answered ends as the answer is read. -/
theorem Ends.of_answered {status : Nat} {body : Bytes}
    (h : Ends base provider call codec turns result) (hcame : Answered turns status body) :
    ∃ url, result = call.result codec url (.answer status body) := by
  obtain ⟨-, -, -, request, -, -, -, -, -, hresult⟩ := h.exists_request hcame
  exact ⟨request.url, hresult⟩

/-- However a call ends, its result is of the kind that faults, answer, status and body decide. -/
theorem Ends.classified (h : Ends base provider call codec turns result) :
    Classified base provider call codec turns result := by
  cases h with
  | unresolved hcause => exact .of_faulty (.path hcause)
  | @unmade path turns token cause hpath htells hrequest =>
    have hfaulty : call.IsFaulty base provider (turns ++ []) :=
      (Call.isFaulty_iff hpath htells (by simp)).2 ⟨cause, hrequest⟩
    rw [List.append_nil] at hfaulty
    exact .of_faulty hfaulty
  | @unsendable path turns token request hpath htells hrequest hs =>
    have hfine : ¬ call.IsFaulty base provider (turns ++ []) :=
      Call.not_isFaulty hpath htells (by simp) hrequest
    rw [List.append_nil] at hfine
    exact .of_unanswered hfine fun ⟨_, _, _, hmem⟩ => htells.sent_not_mem _ _ hmem
  | @replied path before token request reply hpath htells hrequest hs =>
    have hfine : ¬ call.IsFaulty base provider (before ++ [.sent request reply]) :=
      Call.not_isFaulty hpath htells (by simp) hrequest
    cases reply with
    | unreached | truncated =>
      refine .of_unanswered hfine fun ⟨_, _, hcame⟩ => ?_
      cases (answered_append_iff htells).1 hcame
    | answer status body =>
      have hcame : Answered (before ++ [.sent request (.answer status body)]) status body :=
        (answered_append_iff htells).2 rfl
      have honly : ∀ status' body', Answered (before ++ [.sent request (.answer status body)])
          status' body' → status' = status ∧ body' = body := fun _ _ ha => by
        cases (answered_append_iff htells).1 ha
        exact ⟨rfl, rfl⟩
      rw [Call.result]
      cases hstatus : Http.isSuccess status with
      | true => exact .of_success hfine hcame honly hstatus
      | false => exact .of_refused hfine hcame honly hstatus

/-- A call whose path is not resolved has ended before anything happens. -/
theorem execute_of_unresolved {cause : InvalidRequest} (h : call.resolve = .error cause) :
    execute base provider call codec = .done (.error (.invalidRequest cause)) := by
  rw [execute, h]

namespace Service

/-- Carrying out a service is carrying out its call. -/
theorem execute_eq {s : Service} {call : Call} (h : s.call = .ok call) (base : String)
    (provider : Option Provider) :
    s.execute base provider = FinanceGateway.execute base provider call s.codec := by
  rw [execute, h]

variable {s : Service} {result : Except ApiError s.Answer}

/-- A service ends as its call does. -/
theorem exists_ends (h : (s.execute base provider).Reaches turns (.done result)) :
    ∃ call, s.call = .ok call ∧ Ends base provider call s.codec turns result := by
  obtain ⟨call, hcall, -⟩ := s.exists_call
  rw [execute_eq hcall] at h
  exact ⟨call, hcall, execute_reaches_done_iff.1 h⟩

/-- A service that is answered with success ends as the body decodes. -/
theorem eq_of_success {status : Nat} {body : Bytes}
    (h : (s.execute base provider).Reaches turns (.done result))
    (hcame : Answered turns status body) (hstatus : Http.isSuccess status = true) :
    result = Call.decodeBody s.codec body := by
  obtain ⟨call, -, hends⟩ := exists_ends h
  obtain ⟨url, rfl⟩ := hends.of_answered hcame
  rw [Call.result, if_pos hstatus]

/-- In these turns a service got a complete answer, with a status of success and a body that
decodes. -/
def IsFulfilled (s : Service) (turns : List Turn) : Prop :=
  ∃ status body, Answered turns status body ∧ Http.isSuccess status = true ∧
    ∃ value, Call.decodeBody s.codec body = .ok value

/-- A service ends with a value exactly when it is fulfilled. -/
theorem exists_ok_iff (h : (s.execute base provider).Reaches turns (.done result)) :
    (∃ value, result = .ok value) ↔ s.IsFulfilled turns := by
  constructor
  · rintro ⟨value, hvalue⟩
    obtain ⟨call, -, hends⟩ := exists_ends h
    obtain ⟨-, status, body, hcame, hstatus, hbody⟩ := (hends.classified.ok_iff value).1 hvalue
    exact ⟨status, body, hcame, hstatus, value, hbody⟩
  · rintro ⟨status, body, hcame, hstatus, value, hbody⟩
    exact ⟨value, (eq_of_success h hcame hstatus).trans hbody⟩

end Service

end FinanceGateway
