/-!
# The guard of paths

Which paths are for signed-out callers only, which need a session, and what happens to a request for
a path: it passes, or it is sent to the dashboard or to the sign-in page. Paths that look like
static assets need no session resolved, unless they lie under a guarded prefix.
-/

namespace FinanceGateway

/-- Whether a text starts with another. -/
def startsWith (s start : String) : Bool :=
  start.toList.isPrefixOf s.toList

/-- What kind of path a path is. -/
inductive RouteClass
  | publicOnly
  | guarded
  | neutral
  deriving Repr, DecidableEq

/-- What happens to a request. -/
inductive Decision
  | allow
  | toDashboard
  | toSignIn
  deriving Repr, DecidableEq

/-- The prefixes of paths for signed-out callers only and of paths that need a session. -/
structure RoutePatterns where
  publicOnly : List String := ["/sign-in", "/sign-up", "/api/webhooks"]
  guarded : List String := ["/dashboard"]
  deriving Repr, DecidableEq

/-- Whether a path starts with one of the prefixes. -/
def isUnder (prefixes : List String) (path : String) : Bool :=
  prefixes.any (startsWith path)

/-- The extensions of static assets. -/
def assetExtensions : List String := [
  "html", "htm", "css", "js", "jpg", "jpeg", "webp", "png", "gif", "svg", "ttf", "woff",
  "woff2", "ico", "csv", "doc", "docx", "xls", "xlsx", "zip", "webmanifest"]

/-- The characters after the last slash. -/
def lastSegment (cs : List Char) : List Char :=
  (cs.reverse.takeWhile (· != '/')).reverse

/-- The characters before and after the last point, if there is one. -/
def splitExtension (cs : List Char) : Option (List Char × List Char) :=
  if cs.contains '.' then
    let extension := (cs.reverse.takeWhile (· != '.')).reverse
    some (cs.take (cs.length - extension.length - 1), extension)
  else none

/-- Whether a path looks like a static asset: `/_next` and all under it, or a last segment with a
known extension after something else; nothing under `/api`. -/
def isStaticAsset (path : String) : Bool :=
  if startsWith path "/api" then false
  else if startsWith path "/_next" then true
  else match splitExtension (lastSegment path.toList) with
    | some (stem, extension) =>
      !stem.isEmpty && assetExtensions.contains (String.ofList extension)
    | none => false

namespace RoutePatterns

/-- The class of a path; a path under both kinds of prefixes is for signed-out callers only. -/
def classify (p : RoutePatterns) (path : String) : RouteClass :=
  if isUnder p.publicOnly path then .publicOnly
  else if isUnder p.guarded path then .guarded
  else .neutral

/-- What happens to a request for a path, with or without a session. -/
def evaluate (p : RoutePatterns) (path : String) (hasSession : Bool) : Decision :=
  match p.classify path with
  | .publicOnly => if hasSession && !startsWith path "/api" then .toDashboard else .allow
  | .guarded => if hasSession then .allow else .toSignIn
  | .neutral => .allow

/-- Whether a path needs no guard: an asset under no guarded prefix. -/
def skips (p : RoutePatterns) (path : String) : Bool :=
  isStaticAsset path && p.classify path == .neutral

end RoutePatterns

end FinanceGateway
