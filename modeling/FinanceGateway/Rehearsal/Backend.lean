import FinanceGateway.Dispatch.Plan

/-!
# A scripted backend

A backend whose behaviour is given by a list of routes: the first that matches a request says how it
is answered, also late, never, or not to its end. A network says which addresses lead to it at all.
`Backend.outside` lets a plan run against it; a request that is never answered stalls the run.
-/

namespace FinanceGateway

/-- How an answer ends. -/
inductive Ending
  | complete
  | closed
  | truncated
  deriving Repr, DecidableEq

/-- A route of a scripted backend; what is not given matches everything. -/
structure ScriptedRoute where
  method : Option String := none
  path : Option String := none
  /-- The Authorization value that a request must have, or must not have. -/
  authorization : Option (Option Bytes) := none
  /-- How many more requests the route answers. -/
  times : Option Nat := none
  status : Nat := 200
  body : Bytes := []
  ending : Ending := .complete
  hangs : Bool := false
  gate : Option String := none
  /-- The scope that is cancelled when a request arrives. -/
  cancels : Option String := none
  deriving Repr, DecidableEq

/-- A scripted backend: its routes, what it has received, and how much of that has been reported. -/
structure Backend where
  routes : List ScriptedRoute
  received : List Outgoing := []
  reported : Nat := 0

/-- What becomes of a request that has arrived. -/
structure Arrived where
  reply : Reply
  hangs : Bool := false
  gate : Option String := none
  cancels : Option String := none

/-- Which addresses lead to the backend. -/
abbrev Network := Url → Bool

namespace ScriptedRoute

/-- The bytes without the white space around them, as a header value is received. -/
def trimValue (value : Bytes) : Bytes :=
  let isSpace (b : UInt8) : Bool := b == 0x20 || b == 0x09
  ((value.dropWhile isSpace).reverse.dropWhile isSpace).reverse

/-- Whether a value is the one wanted, if one is. -/
def agrees (wanted : Option String) (value : String) : Bool :=
  wanted.all (· == value)

/-- Whether the route answers a request. -/
def matchesRequest (r : ScriptedRoute) (request : Outgoing) : Bool :=
  let value := request.authorization.head?.map trimValue
  let path := if request.url.segments.isEmpty then "/" else request.url.path
  agrees r.method request.method && agrees r.path path && r.authorization.all (· == value) &&
    r.times != some 0

/-- Whether an answer of a status to a method has a body. -/
def hasBody (status : Nat) (method : String) : Bool :=
  !(status == 204 || status == 304 || method == "HEAD")

/-- The reply of the route. -/
def reply (r : ScriptedRoute) (request : Outgoing) : Reply :=
  match r.ending with
  | .closed => .unreached
  | .truncated => .truncated
  | .complete => .answer r.status (if hasBody r.status request.method then r.body else [])

/-- The route after it has answered a request. -/
def used (r : ScriptedRoute) : ScriptedRoute :=
  { r with times := r.times.map (· - 1) }

/-- The first route that answers a request, and the routes after that. -/
def choose (request : Outgoing) :
    List ScriptedRoute → Option (ScriptedRoute × List ScriptedRoute)
  | [] => none
  | r :: rest =>
    if r.matchesRequest request then some (r, r.used :: rest)
    else (choose request rest).map fun (found, others) => (found, r :: others)

end ScriptedRoute

namespace Backend

/-- The backend after it has received a request, and what becomes of the request. -/
def receive (b : Backend) (request : Outgoing) : Backend × Arrived :=
  let b := { b with received := b.received ++ [request] }
  match ScriptedRoute.choose request b.routes with
  | none => (b, { reply := .answer 404 [] })
  | some (r, routes) =>
    ({ b with routes },
      { reply := r.reply request, hangs := r.hangs, gate := r.gate, cancels := r.cancels })

/-- The requests received since the last report, and the backend after this one. -/
def report (b : Backend) : List Outgoing × Backend :=
  (b.received.drop b.reported, { b with reported := b.received.length })

/-- A run that waits for what never comes. -/
inductive Stalled
  | stalled
  deriving Repr, DecidableEq

/-- Runs against a backend. -/
abbrev RunM := StateT Backend (Except Stalled)

/-- The backend as the outside of a plan; there is nobody to ask for tokens. -/
def outside (network : Network) : Plan.Outside RunM where
  token _ := pure .anonymous
  reply request := do
    if network request.url then
      let (b, arrived) := (← get).receive request
      set b
      if arrived.hangs || arrived.gate.isSome then throw .stalled else pure arrived.reply
    else pure .unreached

end Backend

end FinanceGateway
