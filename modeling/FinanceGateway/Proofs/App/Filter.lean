import FinanceGateway.Proofs.App.Access
import FinanceGateway.Proofs.App.Passing
import FinanceGateway.Proofs.Dispatch.Query

/-!
# Filters reach the backend as they were given

A filter of transactions is the pairs of its values that are present (`TransactionFilter.pairs`),
and is read from these as it was (`TransactionFilter.readQuery_pairs`). They are lossless in a
query, so the query that is sent tells the filter, and the filter that a caller gives is the one
that the backend gets (`App.query_strings_are_lossless`).
-/

namespace FinanceGateway

namespace TransactionFilter

/-- The values of a filter that are present. -/
def pairs (filter : TransactionFilter) : List (String × String) :=
  [("account_id", filter.accountId), ("category_id", filter.categoryId),
    ("merchant_id", filter.merchantId)].filterMap fun entry =>
      entry.2.map fun value => (entry.1, value)

/-- A filter is read from the values of it that are present. -/
theorem readQuery_pairs (filter : TransactionFilter) :
    readQuery queryFields [] {} filter.pairs = .ok filter := by
  obtain ⟨account, category, merchant⟩ := filter
  cases account <;> cases category <;> cases merchant <;> rfl

/-- A request in whose query a filter stands. -/
def IsIn (filter : TransactionFilter) (request : Incoming) : Prop :=
  extractQuery queryFields {} request = .ok filter

/-- There is one filter at most in a query. -/
theorem IsIn.unique {filter other : TransactionFilter} {request : Incoming}
    (h : filter.IsIn request) (h' : other.IsIn request) : filter = other :=
  Except.ok.inj (h.symm.trans h')

/-- Every filter is in the query that is made of its values. -/
theorem isIn_of_query {filter : TransactionFilter} {request : Incoming}
    (h : request.query = some (String.ofList (Form.encodePairs filter.pairs))) :
    filter.IsIn request := by
  rw [IsIn, extractQuery, h, Option.getD_some, Form.decodePairs_encodePairs]
  exact readQuery_pairs filter

/-- A server that is asked for something is told a filter in the query. -/
def IsToldBy (filter : TransactionFilter) (out : Outgoing) : Prop :=
  ∀ received : Incoming, received.query = Url.targetQuery? out.url.target → filter.IsIn received

/-- A server is told the filter whose values are in the query. -/
theorem isToldBy_of_hasPairs {filter : TransactionFilter} {out : Outgoing}
    (h : Url.HasPairs out.url.target filter.pairs) : filter.IsToldBy out := by
  intro received hreceived
  rw [IsIn, extractQuery, hreceived, h.decodePairs_eq]
  exact readQuery_pairs filter

end TransactionFilter

namespace Service

variable {filter : TransactionFilter} {base : String} {home : Url}

/-- The call for a list of transactions. -/
theorem exists_transactions_call (filter : TransactionFilter) :
    ∃ call, (listTransactions filter).call = .ok call ∧ call.template = "/transaction" ∧
      call.queryPairs = filter.pairs :=
  ⟨_, rfl, rfl, rfl⟩

/-- Below a base without a query, the server is told the filter. -/
theorem listTransactions_onlySends (hread : Url.read base = some (.address home))
    (hquery : home.query = none) (hfragment : home.fragment = none)
    (provider : Option Provider) :
    ((listTransactions filter).execute base provider).OnlySends fun out =>
      filter.IsToldBy out := by
  obtain ⟨call, hcall, htemplate, hpairs⟩ := exists_transactions_call filter
  have hmark : '?' ∉ call.template.toList := by
    rw [htemplate]
    decide
  rw [execute_eq hcall]
  refine (execute_query hmark hread hquery hfragment provider _).imp fun out hout => ?_
  rw [hpairs] at hout
  exact TransactionFilter.isToldBy_of_hasPairs hout

end Service

namespace App

variable {app : App} {session : Session} {request : Incoming} {parameter : String}
  {filter : TransactionFilter} {home : Url}

/-- The endpoint for a list of transactions relays the filter that is given. -/
theorem serveRoute_transactions (hfilter : filter.IsIn request)
    (htarget : Route.target request.method request.path =
      .endpoint (.data .listTransactions) parameter) :
    app.serveRoute (some session) request =
      app.relay (caller session.token) 200 (.listTransactions filter) := by
  have htaken : extractQuery TransactionFilter.queryFields {} request = .ok filter := hfilter
  rw [serveRoute, htarget]
  simp only [serveEndpoint, serveData, htaken, taking]

/-- Query strings lose nothing. Whatever a call sends below a base without query and fragment, the
target has a question mark exactly when a query value is present, and its query is read as the
values that are present, in declared order. So the filter of a list of transactions is told by the
query that is sent. Every filter can be given to the application, and the one that is given is told
to the backend, in the one request that is made if the base is usable and the token legal. -/
theorem query_strings_are_lossless :
    (∀ (call : Call) (base : String) (home : Url), '?' ∉ call.template.toList →
      Url.read base = some (.address home) → home.query = none → home.fragment = none →
      ∀ (α : Type) (codec : Json.Codec α) (provider : Option Provider),
        (execute base provider call codec).OnlySends fun out =>
          ('?' ∈ out.url.target.toList ↔ ∃ entry ∈ call.query, entry.2.isSome = true) ∧
          Form.decodePairs (Utf8.encode ((Url.targetQuery? out.url.target).getD "")) =
            call.query.filterMap fun entry => entry.2.map fun value => (entry.1, value)) ∧
    (∀ (base : String) (home : Url), Url.read base = some (.address home) → home.query = none →
      home.fragment = none → ∀ (filter other : TransactionFilter)
        (provider provider' : Option Provider) (turns turns' : List Turn)
        (rest rest' : Plan (Except ApiError (List Transaction))) (out out' : Outgoing),
        ((Service.listTransactions filter).execute base provider).Reaches turns rest →
        ((Service.listTransactions other).execute base provider').Reaches turns' rest' →
        out ∈ Plan.sent turns rest → out' ∈ Plan.sent turns' rest' →
        Url.targetQuery? out.url.target = Url.targetQuery? out'.url.target → filter = other) ∧
    (∀ filter : TransactionFilter, ∃ query, ∀ request : Incoming,
      request.query = some query → filter.IsIn request) ∧
    ∀ (app : App) (session : Session) (request : Incoming) (parameter : String)
      (filter : TransactionFilter) (home : Url), filter.IsIn request →
      Route.target request.method request.path = .endpoint (.data .listTransactions) parameter →
      Url.read app.base = some (.address home) → home.query = none → home.fragment = none →
      ((app.serveRoute (some session) request).OnlySends fun out => filter.IsToldBy out) ∧
      ((home.scheme = "http" ∨ home.scheme = "https") →
        (∀ c ∈ app.base.toList.getLast?, Url.isEdge c = false) →
        isHeaderValue (Utf8.encode session.token) = true →
        ∃ out, filter.IsToldBy out ∧ (app.serveRoute (some session) request).SendsOnce out) := by
  refine ⟨?_, ?_, ?_, ?_⟩
  · intro call base home htemplate hread hquery hfragment α codec provider
    refine (execute_query htemplate hread hquery hfragment provider codec).imp fun out hout => ?_
    refine ⟨hout.mark_iff.trans ?_, hout.decodePairs_eq⟩
    rw [Ne, Call.queryPairs, List.filterMap_eq_nil_iff]
    simp [Option.isSome_iff_ne_none]
  · intro base home hread hquery hfragment filter other provider provider' turns turns' rest rest'
      out out' hrun hrun' hout hout' hsame
    have htold := (Service.listTransactions_onlySends hread hquery hfragment provider).of_sent hrun
      out hout
    have htold' := (Service.listTransactions_onlySends hread hquery hfragment provider').of_sent
      hrun' out' hout'
    let received : Incoming :=
      { method := "GET", path := "", query := Url.targetQuery? out.url.target, headers := [],
        body := [] }
    exact (htold received rfl).unique (htold' received hsame)
  · intro filter
    exact ⟨_, fun request => TransactionFilter.isIn_of_query⟩
  · intro app session request parameter filter home hfilter htarget hread hquery hfragment
    rw [serveRoute_transactions hfilter htarget]
    have honly : (app.relay (caller session.token) 200 (.listTransactions filter)).OnlySends
        fun out => filter.IsToldBy out :=
      relay_onlySends 200 (Service.listTransactions_onlySends hread hquery hfragment _)
    refine ⟨honly, fun http hend legal => ?_⟩
    have usable := Url.isUsable_of_read hread http hend (.inl rfl)
    obtain ⟨out, -, hsends⟩ := relay_sendsOnce 200 (s := .listTransactions filter) trivial usable
      legal
    obtain ⟨next, hplan, hdone⟩ := hsends
    rw [hplan] at honly
    exact ⟨out, honly.1, next, hplan, hdone⟩

/-- Marks of a query in names and values stay what they are, an empty value stays there, and a value
that is absent stays away. -/
theorem marks_in_filters_survive :
    let call : Call := { method := "GET", template := "/x", query :=
      [("a&b", some "c=d+e %\u00E9"), ("a&b", none), ("", some "")] }
    let app : App := { base := "http://h.test/p", validator := .fixed "tok" }
    let home : Url := { scheme := "http", login := none, host := "h.test", port := none,
                        segments := ["p"], query := none, fragment := none }
    let request : Incoming := { method := "GET", path := "/dashboard/transactions", headers := [],
                                query := some "x=1&account_id=%26+%2B%3D&merchant_id=", body := [] }
    let filter : TransactionFilter := { accountId := some "& +=", merchantId := some "" }
    Url.read app.base = some (.address home) ∧ filter.IsIn request ∧
      ((execute app.base none call .any).OnlySends fun out =>
        Form.decodePairs (Utf8.encode ((Url.targetQuery? out.url.target).getD "")) =
          [("a&b", "c=d+e %\u00E9"), ("", "")]) ∧
      ∃ out, filter.IsToldBy out ∧
        (app.serveRoute (some { token := "tok" }) request).SendsOnce out := by
  intro call app home request filter
  obtain ⟨hcalls, -, -, happ⟩ := query_strings_are_lossless
  have hread : Url.read app.base = some (.address home) := by decide +kernel
  have hfilter : filter.IsIn request := by
    have hpairs : Form.decodePairs (Utf8.encode (request.query.getD "")) =
        [("x", "1"), ("account_id", "& +="), ("merchant_id", "")] := by
      decide +kernel
    rw [TransactionFilter.IsIn, extractQuery, hpairs]
    rfl
  have hlast : app.base.toList.getLast? = some 'p' := by decide +kernel
  obtain ⟨-, hsends⟩ := happ app { token := "tok" } request "" filter home hfilter
    (by decide +kernel) hread rfl rfl
  refine ⟨hread, hfilter, ?_,
    hsends (.inl rfl) (Url.isEdge_of_getLast? hlast rfl) (by decide +kernel)⟩
  refine (hcalls call app.base home (by decide) hread rfl rfl Json .any none).imp fun out hout => ?_
  exact hout.2

end App

end FinanceGateway
