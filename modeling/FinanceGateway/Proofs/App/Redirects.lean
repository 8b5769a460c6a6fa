import FinanceGateway.Proofs.App.Access
import FinanceGateway.Proofs.Gate.Patterns

/-!
# Following the guard's redirects

The guard answers for the handler exactly where it sends callers on (`App.redirect?`,
`serve_eq_redirect`), and it has one place for callers with a session and one for those without
(`App.destination`). So a caller who follows its redirects is let pass after one of them, or is sent
from that place to the same place for ever; where this place is open nobody goes on for ever
(`forall_settlesWithin_one_iff`, `exists_neverSettles_iff`), and whether both are is decided by the
patterns and the two places alone: `redirects_settle_iff_destinations_open`. Here a location is
followed whatever text it is; which texts can be sent as one is a question of its own.
-/

namespace FinanceGateway

namespace RoutePatterns

variable {p : RoutePatterns} {path : String}

/-- Callers without a session pass wherever none is needed. -/
theorem evaluate_signedOut_eq_allow_iff :
    p.evaluate path false = .allow ↔ p.classify path ≠ .guarded := by
  unfold evaluate
  cases p.classify path <;> simp

/-- Callers with a session pass wherever they need not be signed out, and at the paths of the
interface. -/
theorem evaluate_signedIn_eq_allow_iff :
    p.evaluate path true = .allow ↔
      (p.classify path = .publicOnly → startsWith path "/api" = true) := by
  unfold evaluate
  cases p.classify path <;> cases startsWith path "/api" <;> simp

end RoutePatterns

namespace App

variable {app : App} {path location last : String} {hasSession : Bool} {n : Nat}

/-! ## One redirect -/

/-- Where the guard sends callers, with or without a session, if it does not let them pass. -/
def destination (app : App) (hasSession : Bool) : String :=
  if hasSession then app.settings.dashboardPath else app.settings.signInUrl

/-- Where the guard sends callers on to from a path, if it does not let them pass there. -/
def redirect? (app : App) (hasSession : Bool) (path : String) : Option String :=
  match app.patterns.evaluate path hasSession with
  | .allow => none
  | .toDashboard => some app.settings.dashboardPath
  | .toSignIn => some app.settings.signInUrl

/-- Callers are sent to the destination of their kind, from wherever they do not pass. -/
theorem redirect?_eq_some_iff :
    app.redirect? hasSession path = some location ↔
      app.patterns.evaluate path hasSession ≠ .allow ∧ location = app.destination hasSession := by
  unfold redirect? destination
  cases hdecision : app.patterns.evaluate path hasSession with
  | allow => simp
  | toDashboard =>
    obtain ⟨-, rfl, -⟩ := RoutePatterns.evaluate_eq_toDashboard_iff.1 hdecision
    simp [eq_comm]
  | toSignIn =>
    obtain ⟨-, rfl⟩ := RoutePatterns.evaluate_eq_toSignIn_iff.1 hdecision
    simp [eq_comm]

/-- Where the guard is skipped it would let everyone pass. -/
theorem decision_eq_evaluate (app : App) (request : Incoming) (session : Option Session) :
    app.decision request session = app.patterns.evaluate request.path session.isSome := by
  unfold decision
  split
  · next hskips => exact (RoutePatterns.evaluate_of_skips hskips _).symm
  · rfl

/-- A request whose caller is sent on is answered with the redirect, any other by its route. -/
theorem serve_eq_redirect (app : App) (request : Incoming) :
    app.serve request = (app.identify request).bind fun session =>
      match app.redirect? session.isSome request.path with
      | some location => .done ((redirectTo location).map (finish request))
      | none => (app.serveRoute session request).bind fun response =>
          .done (.ok (finish request response)) := by
  rw [serve_eq]
  congr 1
  funext session
  rw [handle, decision_eq_evaluate, redirect?]
  cases app.patterns.evaluate request.path session.isSome with
  | allow => exact Plan.bind_assoc ..
  | toDashboard | toSignIn => rfl

/-! ## Following redirects -/

/-- A number of redirects lead from a path to another, whether or not more follow there. -/
inductive Leads (app : App) (hasSession : Bool) : Nat → String → String → Prop
  | start (path : String) : Leads app hasSession 0 path path
  | redirect {n : Nat} {path location last : String} :
      app.redirect? hasSession path = some location → Leads app hasSession n location last →
      Leads app hasSession (n + 1) path last

/-- No more than a number of redirects lead from a path to one that is allowed. -/
def SettlesWithin (app : App) (hasSession : Bool) (n : Nat) (path : String) : Prop :=
  ∃ m ≤ n, ∃ last, app.Leads hasSession m path last ∧
    app.patterns.evaluate last hasSession = .allow

/-- From a path on, redirect follows on redirect. -/
def NeverSettles (app : App) (hasSession : Bool) (path : String) : Prop :=
  ∃ paths : Nat → String, paths 0 = path ∧
    ∀ n, app.redirect? hasSession (paths n) = some (paths (n + 1))

/-- Where redirect follows on redirect, no path that they lead to is allowed. -/
theorem NeverSettles.not_settlesWithin (h : app.NeverSettles hasSession path) (n : Nat) :
    ¬ app.SettlesWithin hasSession n path := by
  rintro ⟨m, -, last, hleads, hallowed⟩
  induction hleads with
  | start =>
    obtain ⟨paths, rfl, hpaths⟩ := h
    exact (redirect?_eq_some_iff.1 (hpaths 0)).1 hallowed
  | redirect hlocation _ ih =>
    obtain ⟨paths, rfl, hpaths⟩ := h
    refine ih ⟨fun n => paths (n + 1), ?_, fun n => hpaths (n + 1)⟩ hallowed
    exact Option.some.inj ((hpaths 0).symm.trans hlocation)

/-- Callers who are sent on from their destination are sent back to it. -/
theorem neverSettles_of_closed (hpath : app.patterns.evaluate path hasSession ≠ .allow)
    (hclosed : app.patterns.evaluate (app.destination hasSession) hasSession ≠ .allow) :
    app.NeverSettles hasSession path := by
  refine ⟨fun n => n.casesOn path fun _ => app.destination hasSession, rfl, fun n => ?_⟩
  cases n with
  | zero => exact redirect?_eq_some_iff.2 ⟨hpath, rfl⟩
  | succ n => exact redirect?_eq_some_iff.2 ⟨hclosed, rfl⟩

/-- Callers who pass at their destination are redirected once at most. -/
theorem settlesWithin_one_of_open
    (hopen : app.patterns.evaluate (app.destination hasSession) hasSession = .allow)
    (path : String) : app.SettlesWithin hasSession 1 path := by
  by_cases hpath : app.patterns.evaluate path hasSession = .allow
  · exact ⟨0, Nat.zero_le 1, path, .start path, hpath⟩
  · exact ⟨1, le_rfl, _, .redirect (redirect?_eq_some_iff.2 ⟨hpath, rfl⟩) (.start _), hopen⟩

/-- Redirects settle from every path exactly when the destination is open. -/
theorem forall_settlesWithin_one_iff :
    (∀ path, app.SettlesWithin hasSession 1 path) ↔
      app.patterns.evaluate (app.destination hasSession) hasSession = .allow := by
  refine ⟨fun h => ?_, settlesWithin_one_of_open⟩
  by_contra hclosed
  exact (neverSettles_of_closed hclosed hclosed).not_settlesWithin 1 (h _)

/-- Redirects go on for ever from some path exactly when the destination is closed. -/
theorem exists_neverSettles_iff :
    (∃ path, app.NeverSettles hasSession path) ↔
      app.patterns.evaluate (app.destination hasSession) hasSession ≠ .allow := by
  refine ⟨fun ⟨path, h⟩ hopen => ?_, fun hclosed => ⟨_, neverSettles_of_closed hclosed hclosed⟩⟩
  exact h.not_settlesWithin 1 (settlesWithin_one_of_open hopen path)

/-- The guard answers a request with a redirect or lets it pass to its route. Whoever follows its
redirects gets from every path to one that is allowed, after one redirect at most, exactly when the
sign-in page needs no session and the dashboard is not for signed-out callers only, unless it is a
path of the interface; and exactly when this is not so, there is a path, and callers with or without
a session, for whom the redirects never end. -/
theorem redirects_settle_iff_destinations_open (app : App) :
    (∀ request, app.serve request = (app.identify request).bind fun session =>
      match app.redirect? session.isSome request.path with
      | some location => .done ((redirectTo location).map (finish request))
      | none => (app.serveRoute session request).bind fun response =>
          .done (.ok (finish request response))) ∧
    ((∀ path hasSession, app.SettlesWithin hasSession 1 path) ↔
      app.patterns.classify app.settings.signInUrl ≠ .guarded ∧
        (app.patterns.classify app.settings.dashboardPath = .publicOnly →
          startsWith app.settings.dashboardPath "/api" = true)) ∧
    ((∃ path hasSession, app.NeverSettles hasSession path) ↔
      ¬ (app.patterns.classify app.settings.signInUrl ≠ .guarded ∧
        (app.patterns.classify app.settings.dashboardPath = .publicOnly →
          startsWith app.settings.dashboardPath "/api" = true))) := by
  have hopen : (∀ hasSession,
      app.patterns.evaluate (app.destination hasSession) hasSession = .allow) ↔
      app.patterns.classify app.settings.signInUrl ≠ .guarded ∧
        (app.patterns.classify app.settings.dashboardPath = .publicOnly →
          startsWith app.settings.dashboardPath "/api" = true) := by
    rw [Bool.forall_bool]
    exact and_congr RoutePatterns.evaluate_signedOut_eq_allow_iff
      RoutePatterns.evaluate_signedIn_eq_allow_iff
  refine ⟨app.serve_eq_redirect, ?_, ?_⟩
  · rw [forall_comm, ← hopen]
    exact forall_congr' fun _ => forall_settlesWithin_one_iff
  · rw [exists_comm, ← hopen, not_forall]
    exact exists_congr fun _ => exists_neverSettles_iff

/-- The pages around signing in are apart from the guarded dashboard; with a sign-in page below it
nobody gets there. -/
theorem sign_in_below_dashboard_never_settles :
    let app : App := { base := "http://backend.test", validator := .fixed "tok" }
    let closed : App := { app with settings := { signInUrl := "/dashboard/sign-in" } }
    (∀ path hasSession, app.SettlesWithin hasSession 1 path) ∧
      ∃ path hasSession, closed.NeverSettles hasSession path := by
  intro app closed
  obtain ⟨-, hsettles, -⟩ := redirects_settle_iff_destinations_open app
  obtain ⟨-, -, hnever⟩ := redirects_settle_iff_destinations_open closed
  exact ⟨hsettles.2 ⟨by decide, by decide⟩, hnever.2 fun hopen => hopen.1 (by decide)⟩

end App

end FinanceGateway
