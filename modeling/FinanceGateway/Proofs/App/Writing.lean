import FinanceGateway.Proofs.App.Access
import FinanceGateway.Proofs.App.Passing
import FinanceGateway.Proofs.Finance.Requests

/-!
# Writes are forwarded as they were given

An endpoint to which callers write (`DataEndpoint.writes?`) reads a record from the body of the
request and calls one service with it, which sends the encoding of the record
(`App.serveData_write`). The main statement, `App.writes_forward_what_was_given`, says what is sent
in terms of the body: its members that the record type has a field for and that are not null, each
with its value. The text that is sent is read as the same record exactly when each of its binary64
numbers is read back from its own text, and not every number is
(`App.amount_may_change_and_long_body_is_refused`).
-/

namespace FinanceGateway

open Json

/-- The record type that callers write to an endpoint. -/
def DataEndpoint.writes? : DataEndpoint → Option RecordType
  | createAccount => some .newAccount
  | updateAccount => some .accountUpdate
  | createTransaction => some .newTransaction
  | deleteTransactions => some .transactionDeletion
  | createSms => some .newSms
  | createGoal => some .newGoal
  | updateGoal => some .goalUpdate
  | updateProfile => some .userUpdate
  | overview | listAccounts | getAccount | listTransactions | listSms | getSms | listGoals | getGoal
  | reference | profile | parseReceipt | uploadStatement => none

theorem DataEndpoint.mem_writes {e : DataEndpoint} {T : RecordType} (h : e.writes? = some T) :
    T ∈ RecordType.writes := by
  cases e <;> cases h <;> decide

/-- A service that sends a JSON value. -/
def Service.Writes (s : Service) (j : Json) : Prop :=
  s.HasMediaType ∧ ∃ call, s.call = .ok call ∧ call.body = .json j

/-- A plan that relays a service for a caller, with its answer or without. -/
def App.Relays (app : App) (token : String) (s : Service) (plan : Plan Response) : Prop :=
  (∃ status, plan = app.relay (caller token) status s) ∨
    plan = app.relaySilently (caller token) s

namespace App

variable {app : App} {session : Session} {request : Incoming} {parameter token : String}
  {s : Service} {j : Json} {plan : Plan Response} {home : Url} {e : DataEndpoint} {T : RecordType}
  {x : T.Value}

/-- The request of a service that writes carries what is written. -/
theorem IsRequestFor.payload_eq {out : Outgoing} (h : app.IsRequestFor token s out)
    (hwrites : s.Writes j) : out.payload = .json j := by
  obtain ⟨call, path, hcall, -, hrequest⟩ := h
  obtain ⟨-, call', hcall', hbody⟩ := hwrites
  obtain rfl : call = call' := Except.ok.inj (hcall.symm.trans hcall')
  obtain ⟨payload, url, hpayload, -, -, rfl⟩ := Call.request_eq_ok_iff.1 hrequest
  rw [Call.payload, hbody] at hpayload
  cases hpayload
  rfl

theorem Relays.onlySends (h : app.Relays token s plan) (hwrites : s.Writes j) :
    plan.OnlySends fun out => out.payload = .json j := by
  have hexecute : (s.execute app.base (caller token)).OnlySends fun out => out.payload = .json j :=
    (execute_caller_onlySends_request s).imp fun out hout => hout.payload_eq hwrites
  rcases h with ⟨status, rfl⟩ | rfl
  · exact relay_onlySends status hexecute
  · exact relaySilently_onlySends hexecute

theorem Relays.sendsOnce (h : app.Relays token s plan) (hwrites : s.Writes j)
    (usable : Url.IsUsable app.base home) (legal : isHeaderValue (Utf8.encode token) = true) :
    ∃ out, out.payload = .json j ∧ plan.SendsOnce out := by
  obtain ⟨out, hout, hsends⟩ : ∃ out, app.IsRequestFor token s out ∧ plan.SendsOnce out := by
    rcases h with ⟨status, rfl⟩ | rfl
    · exact relay_sendsOnce status hwrites.1 usable legal
    · exact relaySilently_sendsOnce hwrites.1 usable legal
  exact ⟨out, hout.payload_eq hwrites, hsends⟩

/-- A record that is written to an endpoint is sent by the service that the endpoint relays, unless
the parameter is refused. -/
theorem serveData_write (he : e.writes? = some T)
    (hx : extractJson T.record.codec request = .ok x) :
    (∃ s, s.Writes (T.record.codec.ordered x) ∧
      app.Relays token s (app.serveData token parameter request e)) ∨
    (∃ response, app.serveData token parameter request e = .done response) ∧
      e = .updateGoal ∧ ∃ refusal, extractParameter "id" parameter = .error refusal := by
  have hnext : ∀ next : T.Value → Plan Response,
      taking (extractJson T.record.codec request) next = next x := fun next => by
    rw [hx]
    rfl
  cases e <;> cases he
  case createAccount =>
    exact .inl ⟨.createAccount x, ⟨trivial, _, rfl, rfl⟩, .inl ⟨201, hnext _⟩⟩
  case updateAccount =>
    exact .inl ⟨.updateAccount x, ⟨trivial, _, rfl, rfl⟩, .inl ⟨200, hnext _⟩⟩
  case createTransaction =>
    exact .inl ⟨.createTransaction x, ⟨trivial, _, rfl, rfl⟩, .inl ⟨201, hnext _⟩⟩
  case deleteTransactions =>
    exact .inl ⟨.deleteTransactions x, ⟨trivial, _, rfl, rfl⟩, .inr (hnext _)⟩
  case createSms =>
    exact .inl ⟨.createSms x, ⟨trivial, _, rfl, rfl⟩, .inl ⟨201, hnext _⟩⟩
  case createGoal =>
    exact .inl ⟨.createGoal x, ⟨trivial, _, rfl, rfl⟩, .inl ⟨201, hnext _⟩⟩
  case updateProfile =>
    exact .inl ⟨.updateUser x, ⟨trivial, _, rfl, rfl⟩, .inl ⟨200, hnext _⟩⟩
  case updateGoal =>
    rw [serveData]
    cases hparameter : extractParameter "id" parameter with
    | error refusal => exact .inr ⟨⟨_, rfl⟩, rfl, refusal, rfl⟩
    | ok id => exact .inl ⟨.updateGoal id x, ⟨trivial, _, rfl, rfl⟩, .inl ⟨200, hnext _⟩⟩

/-- The body of a request from which a record is read. -/
theorem decode_of_extractJson {members : Members}
    (hbody : (Draft.ofBytes request.body).1 = .object members)
    (hx : extractJson T.record.codec request = .ok x) :
    T.record.codec.decode ⟨.text, Codec.depthLimit⟩ (.object members) = .ok x := by
  unfold extractJson at hx
  split at hx
  · cases hx
  · split at hx
    · cases hx
    · rw [← hbody]
      exact mapError_eq_ok_iff.1 hx

theorem serveRoute_data
    (htarget : Route.target request.method request.path = .endpoint (.data e) parameter) :
    app.serveRoute (some session) request = app.serveData session.token parameter request e := by
  rw [serveRoute, htarget]
  rfl

/-- All that is sent for a write carries the encoding of the record. -/
theorem serveRoute_write_onlySends
    (htarget : Route.target request.method request.path = .endpoint (.data e) parameter)
    (he : e.writes? = some T) (hx : extractJson T.record.codec request = .ok x) :
    (app.serveRoute (some session) request).OnlySends fun out =>
      out.payload = .json (.object (T.record.ordered x)) := by
  rw [serveRoute_data htarget, ← Record.codec_ordered]
  rcases serveData_write he hx with ⟨s, hs, hrelays⟩ | ⟨⟨response, hdone⟩, -⟩
  · exact hrelays.onlySends hs
  · rw [hdone]
    trivial

/-- A write is sent, once. -/
theorem serveRoute_write_sendsOnce
    (htarget : Route.target request.method request.path = .endpoint (.data e) parameter)
    (he : e.writes? = some T) (hx : extractJson T.record.codec request = .ok x)
    (usable : Url.IsUsable app.base home)
    (legal : isHeaderValue (Utf8.encode session.token) = true)
    (hparameter : e = .updateGoal → ∃ id, extractParameter "id" parameter = .ok id) :
    ∃ out, out.payload = .json (.object (T.record.ordered x)) ∧
      (app.serveRoute (some session) request).SendsOnce out := by
  rw [serveRoute_data htarget, ← Record.codec_ordered]
  rcases serveData_write he hx with ⟨s, hs, hrelays⟩ | ⟨-, hgoal, refusal, hrefusal⟩
  · exact hrelays.sendsOnce hs usable legal
  · obtain ⟨id, hid⟩ := hparameter hgoal
    cases hid.symm.trans hrefusal

/-- A write from whose body no record is read is answered, and nothing is sent. -/
theorem serveRoute_unread_write {refusal : Refusal}
    (htarget : Route.target request.method request.path = .endpoint (.data e) parameter)
    (he : e.writes? = some T) (hx : extractJson T.record.codec request = .error refusal) :
    ∃ response, app.serveRoute (some session) request = .done response := by
  have hnext : ∀ next : T.Value → Plan Response,
      taking (extractJson T.record.codec request) next = .done refusal.response := fun next => by
    rw [hx]
    rfl
  rw [serveRoute_data htarget]
  cases e <;> cases he
  case updateGoal =>
    rw [serveData]
    cases extractParameter "id" parameter with
    | error refusal => exact ⟨_, rfl⟩
    | ok id => exact ⟨_, hnext _⟩
  all_goals exact ⟨_, hnext _⟩

/-- Writes are forwarded as they were given. From the body of a request, an object, a record is read
that is written to the endpoint, where a kind is given by its name. Then what is sent carries an
object: with the members of the body that the record type has a field for and that are not null,
each with its value, a number of a float put as one, and with no others. The object is read as the
same record, and so is its text, exactly when every binary64 number in it is read back. It is sent
once if the base is usable, the token legal, and the parameter a text. -/
theorem writes_forward_what_was_given (app : App) (session : Session) {members : Members}
    (htarget : Route.target request.method request.path = .endpoint (.data e) parameter)
    (he : e.writes? = some T) (hbody : (Draft.ofBytes request.body).1 = .object members)
    (hx : extractJson T.record.codec request = .ok x)
    (hkind : "type" ∈ T.names → ∀ j, members.value? .inObject "type" = some j →
      j = .null ∨ ∃ s, j = .text s) :
    ∃ forwarded : Dictionary Json,
      ((app.serveRoute (some session) request).OnlySends fun out =>
        out.payload = .json (.object forwarded)) ∧
      (∀ home, Url.IsUsable app.base home → isHeaderValue (Utf8.encode session.token) = true →
        (e = .updateGoal → ∃ id, extractParameter "id" parameter = .ok id) →
        ∃ out, out.payload = .json (.object forwarded) ∧
          (app.serveRoute (some session) request).SendsOnce out) ∧
      Dictionary.Sorted forwarded ∧
      (∀ name ∈ T.names, ∀ d, members.get? name = some d →
        ∃ j, Codec.any.decode .inObject d = .ok j) ∧
      (∀ name j, Dictionary.get? forwarded name = some j ↔
        name ∈ T.names ∧ ∃ given, members.value? .inObject name = some given ∧ given ≠ .null ∧
          j = if name ∈ T.realNames then given.asReal else given) ∧
      T.record.codec.decodeJson (.object forwarded) = .ok x ∧
      ∀ boundary, T.record.codec.decodeText ((Payload.json (.object forwarded)).body boundary) =
          .ok x ↔
        ∀ name y, Dictionary.get? forwarded name = some (.number (.real y)) → IsReadBack y := by
  have hwrites := DataEndpoint.mem_writes he
  have hread := decode_of_extractJson hbody hx
  have hlegal : members.Legal := by
    have hdraft := Draft.legal_ofBytes request.body
    rwa [hbody] at hdraft
  refine ⟨T.record.ordered x, serveRoute_write_onlySends htarget he hx,
    fun home usable legal => serveRoute_write_sendsOnce htarget he hx usable legal,
    Dictionary.sorted_ofList _, ?_, ?_, RecordType.decodeJson_ordered hwrites hlegal hread,
    fun _ => RecordType.decodeText_ordered_iff hwrites hlegal hread⟩
  · intro name hname d hd
    obtain ⟨f, hf, rfl⟩ := List.mem_map.1 hname
    exact (T.lawful.reads_of_decode (RecordType.readsValue_of_writes hwrites _) hread f hf).2 d hd
  · intro name j
    rw [RecordType.get?_ordered hwrites hlegal hread]
    by_cases hname : name ∈ T.names
    · have hput : ∀ given, members.value? .inObject name = some given →
          T.put name given = if name ∈ T.realNames then given.asReal else given := by
        refine fun given hgiven => RecordType.put_eq ?_
        rintro rfl
        exact hkind hname given hgiven
      simp only [if_pos hname, Option.map_eq_some_iff, Option.bind_eq_some_iff,
        given?_eq_some_iff]
      constructor
      · rintro ⟨given, ⟨_, hgiven, hnull, rfl⟩, rfl⟩
        exact ⟨hname, _, hgiven, hnull, hput _ hgiven⟩
      · rintro ⟨-, given, hgiven, hnull, rfl⟩
        exact ⟨given, ⟨given, hgiven, hnull, rfl⟩, hput given hgiven⟩
    · rw [if_neg hname]
      refine ⟨fun h => ?_, fun h => absurd h.1 hname⟩
      cases h

theorem isUsable_plainBase :
    Url.IsUsable "http://h.test/p"
      { scheme := "http", login := none, host := "h.test", port := none,
        segments := ["p"], query := none, fragment := none } := by
  have hlast : "http://h.test/p".toList.getLast? = some 'p' := by decide +kernel
  exact Url.isUsable_of_read (by decide +kernel) (.inl rfl) (Url.isEdge_of_getLast? hlast rfl)
    (.inl rfl)

/-- A transaction of which the notes are null and the amount is an integer, with a member that no
field has and whose number is past the range. -/
theorem transaction_is_forwarded_without_null :
    let app : App := { base := "http://h.test/p", validator := .fixed "tok" }
    let request : Incoming :=
      { method := "POST", path := "/dashboard/transactions", query := none,
        headers := [("content-type", Utf8.encode "application/json")],
        body := Utf8.encode ("\x7b\"type\":\"DEBIT\",\"amount\":7,\"account_id\":\"a1\"," ++
          "\"is_recurring\":false,\"notes\":null,\"branch\":1e999\x7d") }
    let members : Members :=
      .cons (.ok "type") (.text (.ok "DEBIT")) <| .cons (.ok "amount") (.number (.ok (.int 7))) <|
      .cons (.ok "account_id") (.text (.ok "a1")) <| .cons (.ok "is_recurring") (.bool false) <|
      .cons (.ok "notes") .null <| .cons (.ok "branch") (.number (.error .numberOutOfRange)) .close
    let t : NewTransaction := { accountId := "a1", kind := some .debit, amount := Float.ofInt 7 }
    (Draft.ofBytes request.body).1 = .object members ∧
      extractJson NewTransaction.record.codec request = .ok t ∧
      ∃ forwarded : Dictionary Json,
        Dictionary.get? forwarded "type" = some (.text "DEBIT") ∧
        Dictionary.get? forwarded "amount" = some (.number (.real (Float.ofInt 7))) ∧
        Dictionary.get? forwarded "notes" = none ∧ Dictionary.get? forwarded "branch" = none ∧
        ∃ out, out.payload = .json (.object forwarded) ∧
          (app.serveRoute (some { token := "tok" }) request).SendsOnce out ∧
          NewTransaction.record.codec.decodeText (out.payload.body "b") = .ok t := by
  intro app request members t
  have hbody : (Draft.ofBytes request.body).1 = .object members := rfl
  have hx : extractJson NewTransaction.record.codec request = .ok t := rfl
  have hkind : ∀ j, members.value? .inObject "type" = some j → j = .null ∨ ∃ s, j = .text s := by
    rintro _ ⟨⟩
    exact .inr ⟨"DEBIT", rfl⟩
  have htarget : Route.target request.method request.path =
      .endpoint (.data .createTransaction) "" := by
    decide +kernel
  obtain ⟨forwarded, -, hsends, -, -, hforwarded, -, htext⟩ :=
    writes_forward_what_was_given (T := .newTransaction) app { token := "tok" } htarget rfl hbody hx
      fun _ => hkind
  have hnone : ∀ name, (∀ j, Dictionary.get? forwarded name ≠ some j) →
      Dictionary.get? forwarded name = none := fun name => Option.eq_none_iff_forall_ne_some.2
  obtain ⟨out, hout, hsent⟩ := hsends _ isUsable_plainBase (by decide +kernel) nofun
  have hback : IsReadBack (Float.ofInt 7) := toOption_eq_some_iff.1 (by decide +kernel)
  refine ⟨hbody, hx, forwarded, ?_, ?_, hnone _ ?_, hnone _ ?_, out, hout, hsent, ?_⟩
  · exact (hforwarded _ _).2 ⟨by decide, .text "DEBIT", rfl, nofun, rfl⟩
  · exact (hforwarded _ _).2 ⟨by decide, .number (.int 7), rfl, nofun, rfl⟩
  · intro j hj
    obtain ⟨-, given, hgiven, hnull, -⟩ := (hforwarded _ _).1 hj
    cases hgiven
    exact hnull rfl
  · intro j hj
    exact absurd ((hforwarded _ _).1 hj).1 (by decide)
  · rw [hout]
    refine (htext "b").2 fun name y hy => ?_
    obtain ⟨hname, given, hgiven, -, hput⟩ := (hforwarded _ _).1 hy
    fin_cases hname <;> cases hgiven <;> cases hput
    exact hback

deriving instance DecidableEq for NewTransaction

/-- The text of a transaction with a note. -/
def notedText (note : String) : Bytes :=
  Utf8.encode (Json.object [("account_id", .text "a1"), ("amount", .number (.int 7)),
    ("is_recurring", .bool false), ("notes", .text note)]).compact

theorem decodeText_notedText (note : String) :
    NewTransaction.record.codec.decodeText (notedText note) =
      .ok { accountId := "a1", amount := Float.ofInt 7, notes := some note } := by
  rw [notedText, Codec.decodeText_compact]
  rfl

theorem length_notedText (n : Nat) :
    n < (notedText (String.ofList (List.replicate n 'a'))).length := by
  have hnote : bytesOf ((List.replicate n 'a').flatMap escapedChar) = List.replicate n 0x61 := by
    induction n with
    | zero => rfl
    | succ n ih =>
      rw [List.replicate_succ, List.flatMap_cons, bytesOf_append, ih]
      rfl
  have htext : bytesOf (chars (.text (String.ofList (List.replicate n 'a')))) =
      0x22 :: (List.replicate n 0x61 ++ [0x22]) := by
    rw [chars, bytesOf_textChars, String.toList_ofList, hnote]
  rw [notedText, encode_compact, bytesOf_object, membersChars_cons_cons, membersChars_cons_cons,
    membersChars_cons_cons, membersChars_singleton, htext]
  simp only [List.length_append, List.length_cons, List.length_replicate]
  omega

/-- An amount of more digits than its shortest text has is sent as the shortest text of the number
that it is read as, and that text is read as the number below. A body past the limit is not sent at
all. -/
theorem amount_may_change_and_long_body_is_refused :
    let app : App := { base := "http://h.test/p", validator := .fixed "tok" }
    let request (body : Bytes) : Incoming :=
      { method := "POST", path := "/dashboard/transactions", query := none,
        headers := [("content-type", Utf8.encode "application/json")], body }
    let given := Utf8.encode ("\x7b\"account_id\":\"a1\",\"amount\":912.06991635257450," ++
      "\"is_recurring\":false\x7d")
    let t : NewTransaction := { accountId := "a1", amount := .ofBits 4651233867645976091 }
    let t' : NewTransaction := { accountId := "a1", amount := .ofBits 4651233867645976090 }
    let long := notedText (String.ofList (List.replicate bodyLimit 'a'))
    (extractJson NewTransaction.record.codec (request given) = .ok t ∧ t' ≠ t ∧
      ∃ out, (app.serveRoute (some { token := "tok" }) (request given)).SendsOnce out ∧
        out.payload.body "b" = Utf8.encode ("\x7b\"account_id\":\"a1\"," ++
          "\"amount\":912.0699163525745,\"is_recurring\":false\x7d") ∧
        NewTransaction.record.codec.decodeText (out.payload.body "b") = .ok t') ∧
    (∃ noted, NewTransaction.record.codec.decodeText long = .ok noted) ∧
      ∃ response, app.serveRoute (some { token := "tok" }) (request long) = .done response := by
  intro app request given t t' long
  have hx : (extractJson NewTransaction.record.codec (request given)).toOption = some t := by
    decide +kernel
  have htarget : ∀ body, Route.target (request body).method (request body).path =
      .endpoint (.data .createTransaction) "" := by
    intro body
    change Route.target "POST" "/dashboard/transactions" = _
    decide +kernel
  obtain ⟨out, hout, hsends⟩ : ∃ out,
      out.payload = .json (.object (RecordType.newTransaction.record.ordered t)) ∧
        (app.serveRoute (some { token := "tok" }) (request given)).SendsOnce out :=
    serveRoute_write_sendsOnce (htarget given) rfl (toOption_eq_some_iff.1 hx) isUsable_plainBase
      (by decide +kernel) nofun
  have hbody : out.payload.body "b" = Utf8.encode ("\x7b\"account_id\":\"a1\"," ++
      "\"amount\":912.0699163525745,\"is_recurring\":false\x7d") := by
    rw [hout]
    decide +kernel
  refine ⟨⟨toOption_eq_some_iff.1 hx, by decide +kernel, out, hsends, hbody, ?_⟩,
    ⟨_, decodeText_notedText _⟩, ?_⟩
  · rw [hbody]
    exact toOption_eq_some_iff.1 (by decide +kernel)
  · have hrefused : extractJson NewTransaction.record.codec (request long) = .error .tooLong := by
      have hjson : (request long).mediaType?.any Mime.isJson = true := by
        change ((Headers.text? [("content-type", Utf8.encode "application/json")]
          "content-type").bind Mime.parse?).any Mime.isJson = true
        decide +kernel
      rw [extractJson, hjson, if_neg (by decide), if_pos (length_notedText bodyLimit)]
    exact serveRoute_unread_write (T := .newTransaction) (htarget long) rfl hrefused

end App

end FinanceGateway
