import FinanceGateway.Dispatch.Credential
import FinanceGateway.Http.Outgoing

/-!
# Plans

A `Plan` is a computation that talks to the outside: it may ask a provider for a token and send
requests, one alone or several at once, and goes on with what comes back. Nothing else happens, so
what a plan asks and sends under any behaviour of the outside can be read off it. This rests on the
assumption that the HTTP library sends a request once and follows no redirect: a `send` is one
request on the wire. `Plan.run` runs a plan in a monad that answers for the outside.
-/

namespace FinanceGateway

/-- The reply to one of several requests that were sent at once. -/
structure Arrival where
  index : Nat
  reply : Reply
  deriving Repr, DecidableEq

/-- A computation that asks providers and sends requests. -/
inductive Plan (α : Type) : Type
  | done (value : α)
  | ask (provider : Nat) (next : TokenAnswer → Plan α)
  /-- A request sent once; the reply is its own, a redirect included. -/
  | send (request : Outgoing) (next : Reply → Plan α)
  /-- Requests sent at once; the replies come in the order of their arrival. -/
  | sendAll (requests : List Outgoing) (next : List Arrival → Plan α)

namespace Plan

variable {α β : Type}

/-- One plan after another. -/
def bind : Plan α → (α → Plan β) → Plan β
  | done value, f => f value
  | ask provider next, f => ask provider fun answer => (next answer).bind f
  | send request next, f => send request fun reply => (next reply).bind f
  | sendAll requests next, f => sendAll requests fun arrivals => (next arrivals).bind f

instance : Monad Plan where
  pure := done
  bind := bind

/-- What answers a plan from the outside. -/
structure Outside (m : Type → Type) where
  token : Nat → m TokenAnswer
  reply : Outgoing → m Reply

/-- Replies to requests in the order in which they are listed. -/
def replies {m : Type → Type} [Monad m] (outside : Outside m) :
    Nat → List Outgoing → m (List Arrival)
  | _, [] => Pure.pure []
  | i, request :: rest => do
    let reply ← outside.reply request
    let others ← replies outside (i + 1) rest
    Pure.pure (⟨i, reply⟩ :: others)

/-- Runs a plan; replies to requests sent at once arrive in the order of the requests. -/
def run {m : Type → Type} [Monad m] (outside : Outside m) : Plan α → m α
  | done value => Pure.pure value
  | ask provider next => do
    let answer ← outside.token provider
    run outside (next answer)
  | send request next => do
    let reply ← outside.reply request
    run outside (next reply)
  | sendAll requests next => do
    let arrivals ← replies outside 0 requests
    run outside (next arrivals)

end Plan

end FinanceGateway
