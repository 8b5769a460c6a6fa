import FinanceGateway.Dispatch.Client
import FinanceGateway.Dispatch.Execute
import FinanceGateway.Dispatch.Execution
import FinanceGateway.Dispatch.Scope

/-!
# Dispatches under way

Dispatches that run side by side over shared slots and scopes. A dispatch takes the provider of its
client when it is polled for the first time. A dispatch that is cancelled is dropped at its next
poll, also when it would have a result, and when the cancellation comes while that poll runs.
`World.step` is one event, a run is a list of events, and `World.notes` is what has been seen from
the outside.
-/

namespace FinanceGateway

/-- How far a dispatch has come. -/
inductive Phase (ρ : Type)
  | running (execution : Execution ρ)
  | settled (result : ρ)
  | dropped

/-- A dispatch: its client, the scope it was spawned in, and how far it has come. -/
structure Task (ρ : Type) where
  client : Client
  scope : Option Scope
  /-- Whether it was cancelled by its handle. -/
  isAbandoned : Bool := false
  phase : Phase ρ

/-- What is seen of a dispatch from the outside. -/
inductive Note (ρ : Type)
  | did (task : Nat) (act : Act)
  | settled (task : Nat) (result : ρ)

/-- Slots, scopes and dispatches. -/
structure World (ρ : Type) where
  slots : Slots := fun _ => none
  /-- The scopes that were cancelled by name. -/
  cancelled : List Scope := []
  tasks : List (Task ρ) := []
  notes : List (Note ρ) := []

/-- Something that happens. -/
inductive Event (ρ : Type) : Type 1
  | configure (client : Client) (provider : Provider)
  | reset (client : Client)
  | cancel (what : Cancellation)
  /-- A call is dispatched, in a scope or by itself; `settle` is what is made of its result. -/
  | spawn {α : Type} (client : Client) (scope : Option Scope) (call : Call)
      (codec : Json.Codec α) (settle : Except ApiError α → ρ)
  /-- A dispatch gets to run: the answer that its provider has at hand, and what is cancelled
  while it runs. -/
  | poll (task : Nat) (atOnce : Option TokenAnswer) (meanwhile : List Cancellation)
  | deliver (task : Nat) (back : Return)

namespace World

variable {ρ : Type}

/-- Whether a scope is cancelled. -/
def isCancelled (w : World ρ) (scope : Scope) : Bool :=
  scope.isCancelled w.cancelled

/-- Whether a dispatch is cancelled, by its handle or with its scope. -/
def isTaskCancelled (w : World ρ) (i : Nat) : Bool :=
  (w.tasks[i]?).any fun t => t.isAbandoned || t.scope.any w.isCancelled

/-- The world with a task in another phase. -/
def setPhase (w : World ρ) (i : Nat) (phase : Phase ρ) : World ρ :=
  { w with tasks := w.tasks.modify i fun t => { t with phase } }

/-- The world with more notes. -/
def noting (w : World ρ) (notes : List (Note ρ)) : World ρ :=
  { w with notes := w.notes ++ notes }

/-- The world after a cancellation. -/
def cancel (w : World ρ) : Cancellation → World ρ
  | .scope scope => { w with cancelled := w.cancelled ++ [scope] }
  | .handle i => { w with tasks := w.tasks.modify i fun t => { t with isAbandoned := true } }

/-- A result counts only if its task is not cancelled by then. -/
def settle (w : World ρ) (i : Nat) (result : ρ) : World ρ :=
  if w.isTaskCancelled i then w.setPhase i .dropped
  else (w.setPhase i (.settled result)).noting [.settled i result]

/-- A task whose execution has been polled. -/
def advance (w : World ρ) (i : Nat) : Execution ρ × List Act → World ρ
  | (.complete result, acts) => (w.noting (acts.map (.did i))).settle i result
  | (execution, acts) => (w.noting (acts.map (.did i))).setPhase i (.running execution)

/-- Whether nothing can happen to a task any more. -/
def isFinished : Phase ρ → Bool
  | .running _ => false
  | .settled _ | .dropped => true

/-- One poll of a task. -/
def poll (w : World ρ) (i : Nat) (atOnce : Option TokenAnswer) (meanwhile : List Cancellation) :
    World ρ :=
  let after := meanwhile.foldl cancel w
  match w.tasks[i]? with
  | some { client, phase := .running execution, .. } =>
    if w.isTaskCancelled i then after.setPhase i .dropped
    else after.advance i (execution.poll (client.provider w.slots) atOnce)
  | _ => after

/-- What comes back for a task that waits for it; all else has no effect. -/
def deliver (w : World ρ) (i : Nat) (back : Return) : World ρ :=
  { w with tasks := w.tasks.modify i fun t =>
      match t.phase with
      | .running execution => { t with phase := .running (execution.deliver back) }
      | _ => t }

/-- One event. -/
def step (w : World ρ) : Event ρ → World ρ
  | .configure client provider => { w with slots := (client.configure provider w.slots).1 }
  | .reset client => { w with slots := client.reset w.slots }
  | .cancel what => w.cancel what
  | .spawn client scope call codec settle =>
    let start (provider : Option Provider) :=
      (execute client.base provider call codec).bind fun result => .done (settle result)
    { w with tasks := w.tasks ++ [{ client, scope, phase := .running (.fresh start) }] }
  | .poll i atOnce meanwhile => w.poll i atOnce meanwhile
  | .deliver i back => w.deliver i back

/-- The events of a run, one after another. -/
def run (w : World ρ) (events : List (Event ρ)) : World ρ :=
  events.foldl step w

/-- The result of a task that has settled. -/
def result? (w : World ρ) (i : Nat) : Option ρ :=
  match (w.tasks[i]?).map (·.phase) with
  | some (Phase.settled result) => some result
  | _ => none

end World

end FinanceGateway
