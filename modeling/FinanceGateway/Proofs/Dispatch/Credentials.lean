import FinanceGateway.Proofs.Dispatch.Alone
import FinanceGateway.Proofs.Dispatch.Sending

/-!
# Whose credential a request carries

A request carries the token that the provider gave which was active when its dispatch was polled for
the first time, and that provider is the only one whom the dispatch has asked, if it has to be asked
at all (`World.sent_carries`). It is found by looking at the execution alone
(`Client.dispatch_alone`): before its first poll it does nothing, and from then on it can do only
what is done with that provider, whatever becomes of the slots.
-/

namespace FinanceGateway

variable {ρ σ : Type} {kind : Act → Prop}

/-! ## Bounds on executions -/

/-- All that a plan does is of a kind, whatever comes back. -/
def Plan.OnlyDoes (kind : Act → Prop) : Plan σ → Prop
  | done _ => True
  | ask provider next => kind (.asked provider) ∧ ∀ answer, (next answer).OnlyDoes kind
  | send request next => kind (.sent request) ∧ ∀ reply, (next reply).OnlyDoes kind
  | sendAll requests next =>
    (∀ request ∈ requests, kind (.sent request)) ∧ ∀ arrivals, (next arrivals).OnlyDoes kind

/-- What a plan goes on with does what the plan does. -/
theorem Plan.OnlyDoes.of_resume? {plan rest : Plan σ} {back : Return} (h : plan.OnlyDoes kind)
    (hrest : plan.resume? back = some rest) : rest.OnlyDoes kind := by
  cases plan <;> cases back <;> cases hrest
  · exact h.2 _
  · exact h.2 _
  · exact h.2 _

namespace Execution

variable {i : Nat} {client : Client}

/-- All that an execution can still do is of a kind. -/
def OnlyDoes (kind : Act → Prop) : Execution σ → Prop
  | fresh start => ∀ active, (start active).OnlyDoes kind
  | waiting plan none => ∀ back rest, plan.resume? back = some rest → rest.OnlyDoes kind
  | waiting plan (some back) => ∃ rest, plan.resume? back = some rest ∧ rest.OnlyDoes kind
  | complete _ => True

/-- A plan that is taken on does what it does at all. -/
theorem onlyDoes_advance {plan : Plan σ} (h : plan.OnlyDoes kind) (a : Option TokenAnswer) :
    OnlyDoes kind (plan.advance a).1 ∧ ∀ act ∈ (plan.advance a).2, kind act := by
  induction plan generalizing a with
  | done r => cases a <;> exact ⟨trivial, List.forall_mem_nil _⟩
  | send request next =>
    cases a <;> exact ⟨fun _ _ hrest => h.of_resume? hrest, List.forall_mem_singleton.2 h.1⟩
  | sendAll requests next =>
    cases a <;> exact ⟨fun _ _ hrest => h.of_resume? hrest, List.forall_mem_map.2 h.1⟩
  | ask provider next ih =>
    cases a with
    | none => exact ⟨fun _ _ hrest => h.of_resume? hrest, List.forall_mem_singleton.2 h.1⟩
    | some answer =>
      obtain ⟨hnext, hacts⟩ := ih answer (h.2 answer) none
      exact ⟨hnext, List.forall_mem_cons.2 ⟨h.1, hacts⟩⟩

/-- A poll of an execution does what the execution can do. -/
theorem OnlyDoes.poll {execution : Execution σ} (h : OnlyDoes kind execution)
    (active : Option Provider) (a : Option TokenAnswer) :
    OnlyDoes kind (execution.poll active a).1 ∧ ∀ act ∈ (execution.poll active a).2, kind act := by
  cases execution with
  | fresh start => exact onlyDoes_advance (h active) a
  | complete r => exact ⟨trivial, List.forall_mem_nil _⟩
  | waiting plan held =>
    cases held with
    | some back =>
      obtain ⟨rest, hrest, hdoes⟩ := h
      simp only [Execution.poll, goOn, hrest]
      exact onlyDoes_advance hdoes a
    | none =>
      cases a with
      | none => exact ⟨h, List.forall_mem_nil _⟩
      | some answer =>
        simp only [Execution.poll, goOn]
        split
        · next rest hrest => exact onlyDoes_advance (h _ rest hrest) none
        · exact ⟨h, List.forall_mem_nil _⟩

theorem OnlyDoes.deliver {execution : Execution σ} (h : OnlyDoes kind execution) (back : Return) :
    OnlyDoes kind (execution.deliver back) := by
  rcases execution.deliver_cases back with hsame | ⟨plan, rest, rfl, hrest, hkept⟩
  · exact hsame.symm ▸ h
  · rw [hkept]
    exact ⟨rest, hrest, h back rest hrest⟩

theorem OnlyDoes.onEvent {execution : Execution σ} (h : OnlyDoes kind execution)
    (active : Option Provider) (e : Event ρ) :
    OnlyDoes kind (execution.onEvent i active e).1 ∧
      ∀ act ∈ (execution.onEvent i active e).2, kind act := by
  cases e with
  | poll j a m =>
    simp only [Execution.onEvent]
    split
    · exact h.poll active a
    · exact ⟨h, List.forall_mem_nil _⟩
  | deliver j back =>
    simp only [Execution.onEvent, hearing]
    split
    · exact ⟨h.deliver back, List.forall_mem_nil _⟩
    · exact ⟨h, List.forall_mem_nil _⟩
  | _ => exact ⟨h, List.forall_mem_nil _⟩

/-- Alone, an execution does nothing that it cannot do. -/
theorem OnlyDoes.alone {execution : Execution σ} (h : OnlyDoes kind execution) (slots : Slots)
    (events : List (Event ρ)) : ∀ act ∈ (execution.alone i client slots events).2, kind act := by
  induction events generalizing execution slots with
  | nil => exact List.forall_mem_nil _
  | cons e events ih =>
    obtain ⟨hnow, hacts⟩ := h.onEvent (i := i) (client.provider slots) e
    exact List.forall_mem_append.2 ⟨hacts, ih hnow _⟩

end Execution

/-! ## Answers of providers -/

/-- What an event tells a dispatch as the answer of its provider. -/
def Event.answer? (i : Nat) : Event ρ → Option TokenAnswer
  | .poll j atOnce _ => if j = i then atOnce else none
  | .deliver j (.token answer) => if j = i then some answer else none
  | _ => none

/-- The provider that is asked. -/
def Act.provider? : Act → Option Nat
  | asked provider => some provider
  | sent _ => none

/-- The providers that a dispatch has asked, in order. -/
def World.asked (w : World ρ) (i : Nat) : List Nat :=
  (w.acts i).filterMap Act.provider?

/-- The token that a provider gives a dispatch, over the events from its first poll on and with the
providers that it has asked. Who need not be asked is not asked, nor is anybody else. An external
provider is asked, it alone and once, and its token is that of the first answer. -/
def Gives (i : Nat) (asked : List Nat) (events : List (Event ρ)) :
    Option Provider → Option String → Prop
  | none, token => asked = [] ∧ token = none
  | some (.fixed _ value), token => asked = [] ∧ token = (TokenAnswer.ofOption value).usable
  | some (.external id), token => asked = [id] ∧
    ∃ answer, events.findSome? (Event.answer? i) = some answer ∧ token = answer.usable

/-- The request carries a token, and nothing else but the login of its address. -/
def Carries (token : Option String) (request : Outgoing) : Prop :=
  request.authorization = Call.authorization request.url token

theorem carries_of_request {call : Call} {base path : String} {token : Option String}
    {request : Outgoing} (h : call.request base path token = .ok request) :
    Carries token request := by
  obtain ⟨payload, url, -, -, -, rfl⟩ := Call.request_eq_ok_iff.1 h
  simp [Carries, Call.authorization]

/-- The act is to send a request that carries a token. -/
def Act.Carries (token : Option String) : Act → Prop
  | asked _ => False
  | sent request => FinanceGateway.Carries token request

/-- To send is to ask nobody. -/
theorem filterMap_provider?_eq_nil {acts : List Act}
    (h : ∀ act ∈ acts, ∃ token, act.Carries token) : acts.filterMap Act.provider? = [] := by
  refine List.filterMap_eq_nil_iff.2 fun act hact => ?_
  obtain ⟨token, hcarries⟩ := h act hact
  cases act with
  | asked => exact hcarries.elim
  | sent => rfl

/-- A call whose path is resolved gets a token from its provider, and then only sends what carries
it. -/
theorem execute_eq_withToken {α : Type} (base : String) (call : Call) (codec : Json.Codec α) :
    (∃ result, ∀ provider, execute base provider call codec = .done result) ∨
    ∃ next, (∀ provider, execute base provider call codec = withToken provider next) ∧
      ∀ token, (next token).OnlyDoes (Act.Carries token) := by
  unfold execute
  split
  · exact .inl ⟨_, fun _ => rfl⟩
  · next path hpath =>
    refine .inr ⟨_, fun _ => rfl, fun token => ?_⟩
    split
    · trivial
    · next request hrequest =>
      unfold transmit
      split
      · exact ⟨carries_of_request hrequest, fun _ => trivial⟩
      · trivial

namespace Execution

variable {i : Nat} {client : Client}

/-- While no answer is there, a plan that waits for one stays where it is. -/
theorem onEvent_unanswered {id : Nat} {next : TokenAnswer → Plan σ} {e : Event ρ}
    (he : e.answer? i = none) (active : Option Provider) :
    (waiting (.ask id next) none).onEvent i active e = (waiting (.ask id next) none, []) := by
  cases e with
  | poll j a m =>
    simp only [onEvent]
    split
    · next hj =>
      simp only [Event.answer?, if_pos hj] at he
      rw [he]
      rfl
    · rfl
  | deliver j back =>
    simp only [onEvent, hearing]
    split
    · next hj =>
      cases back with
      | token answer =>
        simp only [Event.answer?, if_pos hj] at he
        cases he
      | reply | arrivals => rfl
    · rfl
  | _ => rfl

/-- With the answer, a plan that waits for it does what it makes of it. -/
theorem onEvent_answered {id : Nat} {next : TokenAnswer → Plan σ} {e : Event ρ}
    {answer : TokenAnswer} (h : (next answer).OnlyDoes kind) (he : e.answer? i = some answer)
    (active : Option Provider) :
    OnlyDoes kind ((waiting (.ask id next) none).onEvent i active e).1 ∧
      ∀ act ∈ ((waiting (.ask id next) none).onEvent i active e).2, kind act := by
  cases e with
  | poll j a m =>
    simp only [Event.answer?] at he
    split at he
    · next hj =>
      simp only [onEvent, if_pos hj, he]
      exact onlyDoes_advance h none
    · cases he
  | deliver j back =>
    cases back with
    | token answer' =>
      simp only [Event.answer?] at he
      split at he
      · next hj =>
        cases he
        simp only [onEvent, hearing, if_pos hj]
        exact ⟨⟨_, rfl, h⟩, List.forall_mem_nil _⟩
      · cases he
    | reply | arrivals => cases he
  | _ => cases he

/-- A plan that starts with a question asks it, and then is like one that waits for the answer. -/
theorem advance_ask {id : Nat} {next : TokenAnswer → Plan σ} (active : Option Provider)
    (a : Option TokenAnswer) :
    (Plan.ask id next).advance a = (((waiting (.ask id next) none).poll active a).1,
      .asked id :: ((waiting (.ask id next) none).poll active a).2) := by
  cases a <;> rfl

/-- A plan that waits for the answer of a provider does what it makes of the first answer. -/
theorem alone_asked {kind : Option String → Act → Prop} {id : Nat}
    {next : TokenAnswer → Plan σ} (h : ∀ answer, (next answer).OnlyDoes (kind answer.usable))
    (slots : Slots) (events : List (Event ρ)) :
    ∀ act ∈ ((waiting (.ask id next) none).alone i client slots events).2,
      ∃ answer, events.findSome? (Event.answer? i) = some answer ∧ kind answer.usable act := by
  induction events generalizing slots with
  | nil => exact List.forall_mem_nil _
  | cons e events ih =>
    cases he : e.answer? i with
    | none =>
      simp only [alone, onEvent_unanswered he, List.nil_append, List.findSome?_cons, he]
      exact ih _
    | some answer =>
      obtain ⟨hnow, hacts⟩ := onEvent_answered (h answer) he (client.provider slots)
      intro act hact
      refine ⟨answer, by rw [List.findSome?_cons, he], ?_⟩
      exact List.forall_mem_append.2 ⟨hacts, hnow.alone _ events⟩ act hact

end Execution

namespace Client

variable {α : Type} {i : Nat} {client : Client} {call : Call} {codec : Json.Codec α}

/-- From its first poll on, a dispatch does what its plan does with the provider active then. -/
theorem dispatch_onlyDoes {slots : Slots} {a : Option TokenAnswer} {m : List Cancellation}
    {events : List (Event ρ)}
    (h : (execute client.base (client.provider slots) call codec).OnlyDoes kind) :
    ∀ act ∈ ((client.dispatch call codec).alone i client slots (.poll i a m :: events)).2,
      kind act := by
  simp only [Execution.alone, Execution.onEvent_poll]
  obtain ⟨hnow, hacts⟩ := Execution.onlyDoes_advance h a
  exact List.forall_mem_append.2 ⟨hacts, hnow.alone _ events⟩

section

variable {slots : Slots} {a : Option TokenAnswer} {m : List Cancellation} {events : List (Event ρ)}
  {acts : List Act} {request : Outgoing}

/-- A dispatch whose token is known from the start asks nobody and sends what carries it. -/
theorem dispatch_unasked {plan : Plan (Except ApiError α)} {token : Option String}
    (hplan : execute client.base (client.provider slots) call codec = plan)
    (hcarries : plan.OnlyDoes (Act.Carries token))
    (hpart : acts <+: ((client.dispatch call codec).alone i client slots
      (.poll i a m :: events)).2) (hmem : .sent request ∈ acts) :
    acts.filterMap Act.provider? = [] ∧ Carries token request := by
  have hacts := fun act hact =>
    dispatch_onlyDoes (hplan.symm ▸ hcarries) act (hpart.subset hact)
  exact ⟨filterMap_provider?_eq_nil fun act hact => ⟨token, hacts act hact⟩, hacts _ hmem⟩

/-- A dispatch that has to ask a provider asks it first, and then sends what carries the token of
the first answer. -/
theorem dispatch_asked {id : Nat} {next : Option String → Plan (Except ApiError α)}
    (hplan : execute client.base (client.provider slots) call codec =
      .ask id fun answer => next answer.usable)
    (hnext : ∀ token, (next token).OnlyDoes (Act.Carries token))
    (hpart : acts <+: ((client.dispatch call codec).alone i client slots
      (.poll i a m :: events)).2) (hmem : .sent request ∈ acts) :
    acts.filterMap Act.provider? = [id] ∧
      ∃ answer, (.poll i a m :: events).findSome? (Event.answer? i) = some answer ∧
        Carries answer.usable request := by
  let later : TokenAnswer → Plan _ := fun answer => next answer.usable
  have hall : ((client.dispatch call codec).alone i client slots (.poll i a m :: events)).2 =
      .asked id :: ((Execution.waiting (.ask id later) none).alone i client slots
        (.poll i a m :: events)).2 := by
    simp only [Execution.alone, Execution.onEvent_poll]
    rw [dispatch, Execution.poll, hplan, Execution.advance_ask (client.provider slots)]
    rfl
  rw [hall] at hpart
  rcases List.prefix_cons_iff.1 hpart with rfl | ⟨rest, rfl, hrest⟩
  · cases hmem
  · have hacts : ∀ act ∈ rest, ∃ answer : TokenAnswer,
        (.poll i a m :: events).findSome? (Event.answer? i) = some answer ∧
          act.Carries answer.usable := fun act hact =>
      Execution.alone_asked (fun answer => hnext answer.usable) slots _ act (hrest.subset hact)
    have hasked : rest.filterMap Act.provider? = [] := by
      refine filterMap_provider?_eq_nil fun act hact => ?_
      obtain ⟨answer, -, hcarries⟩ := hacts act hact
      exact ⟨answer.usable, hcarries⟩
    have hsent : .sent request ∈ rest := by simpa using hmem
    refine ⟨?_, hacts _ hsent⟩
    rw [List.filterMap_cons, hasked]
    rfl

/-- From its first poll on, a dispatch asks the provider active then, if it has to be asked, and
nobody else, and what it sends carries the token that this provider gives. -/
theorem dispatch_started
    (hpart : acts <+: ((client.dispatch call codec).alone i client slots
      (.poll i a m :: events)).2) (hmem : .sent request ∈ acts) :
    ∃ token, Gives i (acts.filterMap Act.provider?) (.poll i a m :: events)
      (client.provider slots) token ∧ Carries token request := by
  rcases execute_eq_withToken client.base call codec with ⟨result, h⟩ | ⟨next, h, hnext⟩
  · have hnothing : (execute client.base (client.provider slots) call codec).OnlyDoes
        fun _ => False := by
      rw [h]
      trivial
    exact (dispatch_onlyDoes hnothing _ (hpart.subset hmem)).elim
  · cases hp : client.provider slots with
    | none =>
      have hplan : execute client.base (client.provider slots) call codec = next none := by
        rw [h, hp]
        rfl
      obtain ⟨hasked, hcarries⟩ := dispatch_unasked hplan (hnext _) hpart hmem
      exact ⟨none, ⟨hasked, rfl⟩, hcarries⟩
    | some provider =>
      cases provider with
      | fixed id value =>
        have hplan : execute client.base (client.provider slots) call codec =
            next (TokenAnswer.ofOption value).usable := by
          rw [h, hp]
          rfl
        obtain ⟨hasked, hcarries⟩ := dispatch_unasked hplan (hnext _) hpart hmem
        exact ⟨_, ⟨hasked, rfl⟩, hcarries⟩
      | external id =>
        have hplan : execute client.base (client.provider slots) call codec =
            .ask id fun answer => next answer.usable := by
          rw [h, hp]
          rfl
        obtain ⟨hasked, answer, hanswer, hcarries⟩ := dispatch_asked hplan hnext hpart hmem
        exact ⟨answer.usable, ⟨hasked, answer, hanswer, rfl⟩, hcarries⟩

end

/-- Alone, a dispatch does nothing before its first poll, and then only asks the provider active
then, if it has to be asked, and sends what carries the token that this provider gives. -/
theorem dispatch_alone (slots : Slots) (events : List (Event ρ)) {acts : List Act}
    {request : Outgoing}
    (hpart : acts <+: ((client.dispatch call codec).alone i client slots events).2)
    (hmem : .sent request ∈ acts) :
    ∃ past a m future, events = past ++ .poll i a m :: future ∧ (∀ a m, .poll i a m ∉ past) ∧
      ∃ token, Gives i (acts.filterMap Act.provider?) (.poll i a m :: future)
        (client.provider (slots.after past)) token ∧ Carries token request := by
  induction events generalizing slots with
  | nil => exact absurd (hpart.subset hmem) List.not_mem_nil
  | cons e events ih =>
    by_cases he : ∃ a m, e = .poll i a m
    · obtain ⟨a, m, rfl⟩ := he
      exact ⟨[], a, m, events, rfl, nofun, dispatch_started hpart hmem⟩
    · have he' : ∀ a m, e ≠ .poll i a m := fun a m hpoll => he ⟨a, m, hpoll⟩
      have hnow : (client.dispatch call codec).onEvent i (client.provider slots) e =
          (client.dispatch call codec, []) := by
        rw [Execution.onEvent_of_not_poll he']
        cases e with
        | deliver j back =>
          simp only [Execution.hearing]
          split <;> rfl
        | _ => rfl
      simp only [Execution.alone, hnow, List.nil_append] at hpart
      obtain ⟨past, a, m, future, rfl, hpast, htoken⟩ := ih _ hpart
      refine ⟨e :: past, a, m, future, rfl, fun a m hpoll => ?_, htoken⟩
      rcases List.mem_cons.1 hpoll with hpoll | hpoll
      · exact he' a m hpoll.symm
      · exact hpast a m hpoll

end Client

namespace World

/-- A request is sent by a dispatch that was spawned and, some time later, polled for the first
time. It carries the token that the provider gave which was active at that poll, and no other
provider was asked. -/
theorem sent_spawned {events : List (Event ρ)} {i : Nat} {request : Outgoing}
    (h : Note.did i (.sent request) ∈ (run {} events).notes) :
    ∃ (α : Type) (client : Client) (scope : Option Scope) (call : Call) (codec : Json.Codec α)
      (settle : Except ApiError α → ρ) (before between future : List (Event ρ))
      (a : Option TokenAnswer) (m : List Cancellation),
      events = before ++ .spawn client scope call codec settle ::
        (between ++ .poll i a m :: future) ∧
      i = (run {} before).tasks.length ∧ (∀ a m, .poll i a m ∉ between) ∧
      ∃ token, Carries token request ∧
        Gives i ((run {} events).asked i) (.poll i a m :: future)
          (client.provider ((run {} before).slots.after between)) token := by
  have hacts := mem_acts.2 h
  cases htask : (run {} events).tasks[i]? with
  | none =>
    rw [(run_absent events htask).2.1] at hacts
    cases hacts
  | some t =>
    obtain ⟨α, client, scope, call, codec, settle, before, after, rfl, rfl⟩ :=
      exists_spawn rfl htask
    obtain ⟨spawned, hrun, htask', hunseen, -, hslots, -⟩ :=
      exists_spawned before client scope call codec settle
    obtain ⟨acts, hall, hpart⟩ := run_acts htask' rfl nofun after
    rw [hrun, hall, hunseen, List.nil_append] at hacts
    rw [Execution.alone_map] at hpart
    have hasked : (run {} (before ++ .spawn client scope call codec settle :: after)).asked
        (run {} before).tasks.length = acts.filterMap Act.provider? := by
      rw [asked, hrun, hall, hunseen, List.nil_append]
    obtain ⟨between, a, m, future, rfl, hbetween, token, hgives, hcarries⟩ :=
      Client.dispatch_alone _ _ hpart hacts
    rw [hslots, ← hasked] at hgives
    exact ⟨α, client, scope, call, codec, settle, before, between, future, a, m, rfl, rfl, hbetween,
      token, hcarries, hgives⟩

end World

end FinanceGateway
