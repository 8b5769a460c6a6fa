import FinanceGateway.Dispatch.Execute
import FinanceGateway.Gate.Guard
import FinanceGateway.Gate.Header

/-!
# Sessions

The token that a caller presents, and whether it belongs to a signed-in user. A validator accepts
one fixed token, or asks the backend whose token it is. A failing validation counts as no session.
-/

namespace FinanceGateway

/-- A signed-in caller. -/
structure Session where
  token : String
  email : Option String := none
  deriving Repr, DecidableEq

/-- The token after `Bearer ` in an Authorization header. -/
def bearerToken? (value : String) : Option String :=
  if startsWith value "Bearer " then Text.nonBlank? (String.ofList (value.toList.drop 7)) else none

/-- The token that a request presents: the session cookie, else the bearer token. -/
def presentedToken (headers : Headers) (cookieName : String) : Option String :=
  ((Cookie.value? (Cookie.ofHeaders headers) cookieName).bind Text.nonBlank?).or
    ((headers.text? "authorization").bind bearerToken?)

/-- What decides whether a token belongs to a signed-in user. -/
inductive Validator
  /-- Accepts exactly this token. -/
  | fixed (token : String)
  /-- Asks the backend below this base address. -/
  | remote (base : String)
  deriving Repr, DecidableEq

namespace Validator

/-- Accepts a token that is not empty and the one expected. -/
def checkFixed (expected token : String) : Option Session :=
  if token.isEmpty || token != expected then none else some { token }

/-- The verdict on a token from the profile that the backend gives for it: none for a credential
that is refused, an error when nothing can be said. -/
def verdict (token : String) : Except ApiError Profile → Except ApiError (Option Session)
  | .ok profile =>
    .ok (some { token, email := if profile.email.isEmpty then none else some profile.email })
  | .error e =>
    if e.status? == some 401 || e.status? == some 403 then .ok none else .error e

/-- The verdict on a token. -/
def validate (v : Validator) (token : String) : Plan (Except ApiError (Option Session)) :=
  match v with
  | .fixed expected => .done (.ok (checkFixed expected token))
  | .remote base =>
    (Service.getProfile.execute base (some (.fixed 0 (some token)))).bind fun profile =>
      .done (verdict token profile)

/-- The wording of a verdict that cannot be given. -/
def unavailableMessage (e : ApiError) : String :=
  "session validation unavailable: " ++ e.message

/-- The session of a request, if it presents a token that the validator accepts. -/
def resolve (v : Validator) (headers : Headers) (cookieName : String) : Plan (Option Session) :=
  match presentedToken headers cookieName with
  | none => .done none
  | some token =>
    (v.validate token).bind fun
      | .ok session => .done session
      | .error _ => .done none

end Validator

end FinanceGateway
