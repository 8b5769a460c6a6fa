import FinanceGateway.Text.Blank

/-!
# Credential sources

A `Provider` yields the token that goes with a call: a fixed one, or one that has to be asked for.
Providers are told apart by identity, not by what they yield. A `Slot` holds the provider of a
session; registering the provider it holds changes nothing.
-/

namespace FinanceGateway

/-- A source of tokens. -/
inductive Provider
  | fixed (id : Nat) (token : Option String)
  | external (id : Nat)
  deriving Repr, DecidableEq

/-- The identity of a provider. -/
def Provider.id : Provider → Nat
  | .fixed id _ => id
  | .external id => id

/-- What a provider says when it is asked. -/
inductive TokenAnswer
  | token (value : String)
  | anonymous
  | unavailable (reason : String)
  deriving Repr, DecidableEq

/-- What a fixed provider says. -/
def TokenAnswer.ofOption : Option String → TokenAnswer
  | some value => .token value
  | none => .anonymous

/-- The token to send along; a blank token and a failure count as none. -/
def TokenAnswer.usable : TokenAnswer → Option String
  | .token value => if Text.isBlank value then none else some value
  | _ => none

/-- The provider that a session uses, if one is registered. -/
abbrev Slot := Option Provider

/-- Registers a provider; the answer is whether the slot has changed hands. -/
def Slot.configure (slot : Slot) (provider : Provider) : Slot × Bool :=
  match slot with
  | some current => if current.id = provider.id then (slot, false) else (some provider, true)
  | none => (some provider, true)

end FinanceGateway
