import FinanceGateway.Dispatch.Credential

/-!
# Clients

A client reaches the API below a base address with a credential. A session client uses whatever
provider its slot holds when a call starts, and shares the slot with its clones; a request-scoped
client has a provider of its own and no part in any slot.
-/

namespace FinanceGateway

/-- Where the credential of a client comes from. -/
inductive Credential
  | session (slot : Nat)
  | request (provider : Provider)
  deriving Repr, DecidableEq

/-- A client of the API. -/
structure Client where
  base : String
  credential : Credential
  deriving Repr, DecidableEq

/-- The base address without slashes at its end. -/
def trimBase (url : String) : String :=
  String.ofList ((url.toList.reverse.dropWhile (· == '/')).reverse)

/-- The contents of the slots. -/
abbrev Slots := Nat → Slot

namespace Slots

/-- The slots with one of them filled anew. -/
def set (slots : Slots) (i : Nat) (slot : Slot) : Slots :=
  fun j => if j = i then slot else slots j

end Slots

namespace Client

/-- A session client with a slot of its own. -/
def ofBase (url : String) (slot : Nat) : Client :=
  ⟨trimBase url, .session slot⟩

/-- A client for one request, with a provider of its own. -/
def forRequest (client : Client) (provider : Provider) : Client :=
  { client with credential := .request provider }

/-- Whether the client is bound to one request. -/
def isRequestScoped (client : Client) : Bool :=
  match client.credential with
  | .session _ => false
  | .request _ => true

/-- The provider of a call that starts now. -/
def provider (client : Client) (slots : Slots) : Option Provider :=
  match client.credential with
  | .session slot => slots slot
  | .request provider => some provider

/-- Whether the session of the client has a provider. -/
def isConfigured (client : Client) (slots : Slots) : Bool :=
  match client.credential with
  | .session slot => (slots slot).isSome
  | .request _ => false

/-- Registers a provider for the session; a request-scoped client has none, and nothing changes. -/
def configure (client : Client) (provider : Provider) (slots : Slots) : Slots × Bool :=
  match client.credential with
  | .session i =>
    let (slot, changed) := (slots i).configure provider
    (slots.set i slot, changed)
  | .request _ => (slots, false)

/-- Drops the provider of the session. -/
def reset (client : Client) (slots : Slots) : Slots :=
  match client.credential with
  | .session i => slots.set i none
  | .request _ => slots

end Client

end FinanceGateway
