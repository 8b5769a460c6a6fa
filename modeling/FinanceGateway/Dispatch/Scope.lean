/-!
# Cancellation scopes

A scope is named by the way to it: the numbers of the scopes it lies in, from the outermost, and its
own. Cancelling a scope cancels every scope inside it, also those opened later, and no other. A
dispatch can also be cancelled by its own handle, which nothing else lies in.
-/

namespace FinanceGateway

/-- A cancellation scope, named by the way to it. -/
abbrev Scope := List Nat

/-- Whether a scope is cancelled, given the scopes that were cancelled by name. -/
def Scope.isCancelled (cancelled : List Scope) (scope : Scope) : Bool :=
  cancelled.any fun c => c.isPrefixOf scope

/-- What can be cancelled: a scope, or a dispatch by its handle. -/
inductive Cancellation
  | scope (scope : Scope)
  | handle (task : Nat)
  deriving Repr, DecidableEq

end FinanceGateway
