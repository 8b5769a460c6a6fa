import FinanceGateway.Dispatch.Execute
import FinanceGateway.Dispatch.World
import FinanceGateway.Rehearsal.Backend

/-!
# Rehearsing dispatches

A stage sets up named clients, providers, scopes and dispatches over a scripted backend and lets
them run step by step. Dispatches move only in a step that waits; such a step lets every dispatch
move in turn until what it waits for has happened, or stalls when it cannot happen any more.
-/

namespace FinanceGateway

/-- What a provider on the stage yields. -/
inductive ProviderScript
  /-- One answer after another, the last one again and again. -/
  | answers (list : List TokenAnswer)
  /-- A token, once a gate is open. -/
  | gated (gate token : String)
  deriving Repr, DecidableEq

/-- The result of a dispatch on the stage. -/
abbrev DispatchResult := Except ApiError Json

/-- A call to dispatch, and how its answer decodes. -/
structure Work where
  call : Except InvalidRequest Call
  codec : Json.Codec Json

/-- A step on the stage. -/
inductive StageStep
  | provider (id : String) (script : ProviderScript)
  | client (id base : String)
  | clone (id source : String)
  | server (id source provider : String)
  | configure (client provider : String)
  | reset (client : String)
  | info (client : String)
  | call (client : String) (work : Work)
  | scope (id : String) (parent : Option String)
  | cancelScope (id : String)
  | cancellable (client scope : String) (work : Work)
  | spawn (id client : String) (scope : Option String) (work : Work) (panics : Bool)
  | waitRequests (count : Nat)
  | waitProvider (provider : String)
  | openGate (gate : String)
  | cancel (id : String)
  | handle (id : String)
  | join (id : String)
  | settled

/-- What a step shows. -/
inductive StageAnswer
  | nothing
  | base (url : String)
  | replaced (changed : Bool)
  | info (url : String) (isRequestScoped isConfigured : Bool)
  | result (result : DispatchResult) (sent : List Outgoing)
  | refused (cause : ApiError)
  | outcome (result : Option DispatchResult) (isCancelled : Bool) (sent : List Outgoing)
  | cancelled (isCancelled : Bool)
  | sent (sent : List Outgoing)
  | joined (result : Option DispatchResult) (sent : List Outgoing)
  | results (results : Dictionary DispatchResult) (sent : List Outgoing)

/-- A dispatch with a name; one that panics keeps no result. -/
structure NamedTask where
  id : String
  task : Nat
  panics : Bool

/-- The stage. -/
structure Stage where
  network : Network
  backend : Backend
  world : World DispatchResult := {}
  providers : List (String × Nat) := []
  scripts : List ProviderScript := []
  /-- How often each provider has been answered for. -/
  answered : List Nat := []
  clients : List (String × Client) := []
  scopes : List (String × Scope) := []
  tasks : List NamedTask := []
  gates : List String := []
  /-- The requests of dispatches that have arrived and wait for their reply. -/
  pending : List (Nat × Arrived) := []
  /-- How many slots and scopes there are. -/
  fresh : Nat := 0

namespace Stage

/-- A number that names nothing yet. -/
def freshNumber (s : Stage) : Nat × Stage :=
  (s.fresh, { s with fresh := s.fresh + 1 })

/-- The latest entry of a name. -/
def lookup {α : Type} (entries : List (String × α)) (id : String) : Option α :=
  (entries.reverse.find? (·.1 == id)).map (·.2)

/-- The client of a name. -/
def clientOf (s : Stage) (id : String) : Client :=
  (lookup s.clients id).getD ⟨"", .session 0⟩

/-- The provider of a name. -/
def providerOf (s : Stage) (id : String) : Provider :=
  .external ((lookup s.providers id).getD s.scripts.length)

/-- The scope of a name. -/
def scopeOf (s : Stage) (id : String) : Scope :=
  (lookup s.scopes id).getD [s.fresh]

/-- The dispatch of a name. -/
def taskOf? (s : Stage) (id : String) : Option NamedTask :=
  s.tasks.reverse.find? (·.id == id)

/-- The world after an event. -/
def happen (s : Stage) (event : Event DispatchResult) : Stage :=
  { s with world := s.world.step event }

/-- The requests since the last report, and the stage after this one. -/
def report (s : Stage) : List Outgoing × Stage :=
  let (sent, backend) := s.backend.report
  (sent, { s with backend })

/-! ## Moving -/

/-- What a provider yields when it is asked for the `n`th time, if it yields anything yet. -/
def yield? (s : Stage) (n : Nat) : ProviderScript → Option TokenAnswer
  | .answers list => some ((list[n]?).getD (list.getLast?.getD .anonymous))
  | .gated gate token => if s.gates.contains gate then some (.token token) else none

/-- Answers a dispatch that waits for a provider. -/
def answerProvider (s : Stage) (i provider : Nat) : Stage :=
  match s.scripts[provider]? with
  | none => s
  | some script =>
    let n := (s.answered.filter (· == provider)).length
    match s.yield? n script with
    | none => s
    | some answer =>
      { s with answered := provider :: s.answered }.happen (.deliver i (.token answer))

/-- Takes the request of a dispatch to the backend. -/
def deliverRequest (s : Stage) (i : Nat) (request : Outgoing) : Stage :=
  if s.network request.url then
    let (backend, arrived) := s.backend.receive request
    let s := { s with backend, pending := (i, arrived) :: s.pending }
    match arrived.cancels with
    | some id => s.happen (.cancel (.scope (s.scopeOf id)))
    | none => s
  else s.happen (.deliver i (.reply .unreached))

/-- Takes the reply to a dispatch, if it has come. -/
def deliverReply (s : Stage) (i : Nat) (arrived : Arrived) : Stage :=
  if arrived.hangs || arrived.gate.any fun g => !s.gates.contains g then s
  else s.happen (.deliver i (.reply arrived.reply))

/-- What the outside does for a dispatch that waits for it. -/
def attend (s : Stage) (i : Nat) : Stage :=
  match (s.world.tasks[i]?).map (·.phase) with
  | some (Phase.running (.waiting (.ask provider _) none)) => s.answerProvider i provider
  | some (Phase.running (.waiting (.send request _) none)) =>
    match s.pending.find? (·.1 == i) with
    | some (_, arrived) => s.deliverReply i arrived
    | none => s.deliverRequest i request
  | _ => s

/-- Lets a dispatch move. -/
def tick (s : Stage) (i : Nat) : Stage :=
  (s.happen (.poll i none [])).attend i

/-- Lets every dispatch move. -/
def pass (s : Stage) : Stage :=
  (List.range s.world.tasks.length).foldl tick s

/-- Passes until a condition holds. -/
def passUntil (condition : Stage → Bool) : Nat → Stage → Except Backend.Stalled Stage
  | 0, s => if condition s then .ok s else .error .stalled
  | fuel + 1, s => if condition s then .ok s else passUntil condition fuel s.pass

/-- Enough passes for all that can still happen: a dispatch goes through six phases at most, and
moves in every pass unless it waits for a gate or a hanging route. -/
def patience : Nat := 12

/-- Waits for a condition. -/
def wait (s : Stage) (condition : Stage → Bool) : Except Backend.Stalled Stage :=
  passUntil condition patience s

/-- Whether a dispatch is over. -/
def isOver (s : Stage) (i : Nat) : Bool :=
  ((s.world.tasks[i]?).map (·.phase)).all World.isFinished

/-- Whether a provider has been asked. -/
def isAsked (s : Stage) (provider : Nat) : Bool :=
  s.world.notes.any fun
    | .did _ (.asked p) => p == provider
    | _ => false

/-! ## Steps -/

/-- Starts a dispatch, in a scope or by itself. -/
def start (s : Stage) (client : String) (scope : Option Scope) (call : Call)
    (codec : Json.Codec Json) : Nat × Stage :=
  (s.world.tasks.length, s.happen (.spawn (s.clientOf client) scope call codec id))

/-- Carries out work, in a scope or by itself, to its end. -/
def perform (s : Stage) (client : String) (scope : Option Scope) (work : Work) :
    Except Backend.Stalled (Option DispatchResult × Stage) :=
  match work.call with
  | .error cause => .ok (some (.error (.invalidRequest cause)), s)
  | .ok call => do
    let (i, s) := s.start client scope call work.codec
    let s ← (s.tick i).wait (isOver · i)
    .ok (s.world.result? i, s)

/-- The results that are kept, under the names of their dispatches. -/
def kept (s : Stage) : Dictionary DispatchResult :=
  s.world.notes.foldl (fun results note =>
    match note with
    | .settled i result =>
      match s.tasks.find? (·.task == i) with
      | some t => if t.panics then results else Dictionary.insert t.id result results
      | none => results
    | _ => results) []

/-- Whether the dispatch of a name is cancelled. -/
def isTaskCancelled (s : Stage) (id : String) : Bool :=
  (s.taskOf? id).any fun t => s.world.isTaskCancelled t.task

/-- A step and what it shows. -/
def step (s : Stage) : StageStep → Except Backend.Stalled (StageAnswer × Stage)
  | .provider id script =>
    .ok (.nothing, { s with
      providers := s.providers ++ [(id, s.scripts.length)], scripts := s.scripts ++ [script] })
  | .client id base =>
    let (slot, s) := s.freshNumber
    let client := Client.ofBase base slot
    .ok (.base client.base, { s with clients := s.clients ++ [(id, client)] })
  | .clone id source =>
    .ok (.nothing, { s with clients := s.clients ++ [(id, s.clientOf source)] })
  | .server id source provider =>
    let client := (s.clientOf source).forRequest (s.providerOf provider)
    .ok (.nothing, { s with clients := s.clients ++ [(id, client)] })
  | .configure client provider =>
    let c := s.clientOf client
    let p := s.providerOf provider
    .ok (.replaced (c.configure p s.world.slots).2, s.happen (.configure c p))
  | .reset client => .ok (.nothing, s.happen (.reset (s.clientOf client)))
  | .info client =>
    let c := s.clientOf client
    .ok (.info c.base c.isRequestScoped (c.isConfigured s.world.slots), s)
  | .call client work => do
    let (result, s) ← s.perform client none work
    let (sent, s) := s.report
    match result with
    | some result => .ok (.result result sent, s)
    | none => .error .stalled
  | .scope id parent =>
    let (n, s) := s.freshNumber
    let scope := ((parent.map s.scopeOf).getD []) ++ [n]
    .ok (.nothing, { s with scopes := s.scopes ++ [(id, scope)] })
  | .cancelScope id => .ok (.nothing, s.happen (.cancel (.scope (s.scopeOf id))))
  | .cancellable client scope work => do
    let scope := s.scopeOf scope
    let (result, s) ← s.perform client (some scope) work
    let (sent, s) := s.report
    .ok (.outcome result (s.world.isCancelled scope) sent, s)
  | .spawn id client scope work panics =>
    match work.call with
    | .error cause => .ok (.refused (.invalidRequest cause), s)
    | .ok call =>
      let (i, s) := s.start client (scope.map s.scopeOf) call work.codec
      let s := { s with tasks := s.tasks ++ [⟨id, i, panics⟩] }
      .ok (.cancelled (s.world.isTaskCancelled i), s)
  | .waitRequests count => do
    let s ← s.wait fun s => count ≤ s.backend.received.length
    let (sent, s) := s.report
    .ok (.sent sent, s)
  | .waitProvider provider => do
    let id := (s.providerOf provider).id
    let s ← s.wait (isAsked · id)
    .ok (.nothing, s)
  | .openGate gate => .ok (.nothing, { s with gates := gate :: s.gates })
  | .cancel id =>
    let s := match s.taskOf? id with
      | some t => s.happen (.cancel (.handle t.task))
      | none => s
    .ok (.cancelled (s.isTaskCancelled id), s)
  | .handle id => .ok (.cancelled (s.isTaskCancelled id), s)
  | .join id => do
    let s ← match s.taskOf? id with
      | some t => s.wait (isOver · t.task)
      | none => .ok s
    let (sent, s) := s.report
    .ok (.joined (s.kept.get? id) sent, s)
  | .settled =>
    let (sent, s) := s.report
    .ok (.results s.kept sent, s)

end Stage

end FinanceGateway
