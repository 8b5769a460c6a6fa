import FinanceGateway.Dispatch.Credential
import FinanceGateway.Dispatch.Plan

/-!
# Executions

An `Execution` is a plan under way: it has not started, it waits for what it has asked or sent, or
it is complete. It moves only when it is polled. Its first poll fixes the provider that it starts
with, and every poll takes it as far as it comes without waiting: an answer that a provider gives on
the spot is used within the same poll.
-/

namespace FinanceGateway

/-- What comes back from the outside. -/
inductive Return
  | token (answer : TokenAnswer)
  | reply (reply : Reply)
  | arrivals (arrivals : List Arrival)
  deriving Repr, DecidableEq

/-- What an execution does that can be seen from the outside. -/
inductive Act
  | asked (provider : Nat)
  | sent (request : Outgoing)

/-- A plan under way. -/
inductive Execution (ρ : Type)
  | fresh (start : Option Provider → Plan ρ)
  /-- The plan stands at a question or at requests that are out; `back` is what has come back. -/
  | waiting (plan : Plan ρ) (back : Option Return)
  | complete (result : ρ)

variable {ρ : Type}

/-- The plan after what it waits for has come back; anything else does not fit. -/
def Plan.resume? : Plan ρ → Return → Option (Plan ρ)
  | ask _ next, .token answer => some (next answer)
  | send _ next, .reply reply => some (next reply)
  | sendAll _ next, .arrivals arrivals => some (next arrivals)
  | _, _ => none

/-- Takes a plan to the next point where it waits, given the answer that a provider has at hand. -/
def Plan.advance : Option TokenAnswer → Plan ρ → Execution ρ × List Act
  | _, done result => (.complete result, [])
  | none, ask provider next => (.waiting (ask provider next) none, [.asked provider])
  | some answer, ask provider next =>
    let (execution, acts) := (next answer).advance none
    (execution, .asked provider :: acts)
  | _, send request next => (.waiting (send request next) none, [.sent request])
  | _, sendAll requests next => (.waiting (sendAll requests next) none, requests.map .sent)

namespace Execution

/-- What comes back is kept for the next poll; only the first that fits counts. -/
def deliver (back : Return) : Execution ρ → Execution ρ
  | waiting plan none =>
    if (plan.resume? back).isSome then waiting plan (some back) else waiting plan none
  | execution => execution

/-- Goes on after what has come back. -/
def goOn (atOnce : Option TokenAnswer) (plan : Plan ρ) (back : Return) : Execution ρ × List Act :=
  match plan.resume? back with
  | some next => next.advance atOnce
  | none => (waiting plan none, [])

/-- A poll, given the provider that is active now and the answer that it has at hand. -/
def poll (active : Option Provider) (atOnce : Option TokenAnswer) :
    Execution ρ → Execution ρ × List Act
  | fresh start => (start active).advance atOnce
  | waiting plan (some back) => goOn atOnce plan back
  | waiting plan none =>
    match atOnce with
    | some answer => goOn none plan (.token answer)
    | none => (waiting plan none, [])
  | complete result => (complete result, [])

end Execution

end FinanceGateway
