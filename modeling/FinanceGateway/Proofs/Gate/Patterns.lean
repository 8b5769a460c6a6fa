import FinanceGateway.Gate.Guard
import Mathlib

/-!
# What the guard's prefixes decide

A path is under a list of prefixes when it starts with one of them, so a list says no more than
another that it covers: one each of whose members extends a member of the list (`Covers`). A
decision goes by whether the path is under either list of the patterns (`evaluate_congr`), and each
of the two redirects has one condition (`evaluate_eq_toSignIn_iff`, `evaluate_eq_toDashboard_iff`),
from which `evaluate_by_sets_of_prefixes` reads off what more prefixes can change.
-/

namespace FinanceGateway

/-! ## Paths under prefixes -/

section Prefixes

variable {s t u path added : String} {prefixes others : List String}

theorem startsWith_iff : startsWith s t = true ↔ t.toList <+: s.toList :=
  List.isPrefixOf_iff_prefix

theorem startsWith_trans (h : startsWith s t = true) (h' : startsWith t u = true) :
    startsWith s u = true :=
  startsWith_iff.2 ((startsWith_iff.1 h').trans (startsWith_iff.1 h))

theorem isUnder_iff : isUnder prefixes path = true ↔ ∃ p ∈ prefixes, startsWith path p = true :=
  List.any_eq_true

@[simp] theorem isUnder_cons (added : String) (prefixes : List String) (path : String) :
    isUnder (added :: prefixes) path = (startsWith path added || isUnder prefixes path) :=
  List.any_cons

/-- Each of the others extends one of the prefixes. -/
def Covers (prefixes others : List String) : Prop :=
  ∀ other ∈ others, ∃ p ∈ prefixes, startsWith other p = true

theorem Covers.of_subset (h : ∀ other ∈ others, other ∈ prefixes) : Covers prefixes others :=
  fun other hother => ⟨other, h other hother, startsWith_iff.2 List.prefix_rfl⟩

/-- A path under prefixes is under those that cover them. -/
theorem Covers.isUnder (h : Covers prefixes others) (hunder : isUnder others path = true) :
    isUnder prefixes path = true := by
  obtain ⟨other, hother, hstarts⟩ := isUnder_iff.1 hunder
  obtain ⟨p, hp, hextends⟩ := h other hother
  exact isUnder_iff.2 ⟨p, hp, startsWith_trans hstarts hextends⟩

/-- The same set of prefixes has the same paths under it. -/
theorem isUnder_congr (h : ∀ x, x ∈ prefixes ↔ x ∈ others) (path : String) :
    isUnder prefixes path = isUnder others path :=
  Bool.eq_iff_iff.2 ⟨(Covers.of_subset fun x => (h x).1).isUnder,
    (Covers.of_subset fun x => (h x).2).isUnder⟩

/-- A member that extends another has no further path under it. -/
theorem isUnder_cons_of_extends (h : startsWith added s = true) (hs : s ∈ prefixes)
    (path : String) : isUnder (added :: prefixes) path = isUnder prefixes path := by
  have hcovers : Covers prefixes (added :: prefixes) := by
    intro other hother
    rcases List.mem_cons.1 hother with rfl | hother
    · exact ⟨s, hs, h⟩
    · exact Covers.of_subset (fun _ h => h) other hother
  exact Bool.eq_iff_iff.2 ⟨hcovers.isUnder,
    (Covers.of_subset fun _ => List.mem_cons_of_mem added).isUnder⟩

end Prefixes

namespace RoutePatterns

variable {p q : RoutePatterns} {path added : String} {hasSession : Bool}

/-! ## Decisions -/

/-- A decision goes by which lists the path is under. -/
theorem evaluate_congr (hpublic : isUnder p.publicOnly path = isUnder q.publicOnly path)
    (hguarded : isUnder p.guarded path = isUnder q.guarded path) (hasSession : Bool) :
    p.evaluate path hasSession = q.evaluate path hasSession := by
  simp only [evaluate, classify, hpublic, hguarded]

theorem classify_eq_publicOnly_iff :
    p.classify path = .publicOnly ↔ isUnder p.publicOnly path = true := by
  unfold classify
  split
  · next h => exact iff_of_true rfl h
  · next h => exact iff_of_false (by split <;> nofun) h

theorem classify_eq_guarded_iff :
    p.classify path = .guarded ↔
      isUnder p.publicOnly path = false ∧ isUnder p.guarded path = true := by
  unfold classify
  cases isUnder p.publicOnly path <;> cases isUnder p.guarded path <;> simp

/-- Callers are sent to sign in from where they need a session and have none. -/
theorem evaluate_eq_toSignIn_iff :
    p.evaluate path hasSession = .toSignIn ↔
      p.classify path = .guarded ∧ hasSession = false := by
  unfold evaluate
  cases p.classify path <;> cases hasSession <;> cases startsWith path "/api" <;> simp

/-- Callers are sent to the dashboard from where they need to be signed out and are not, but for the
paths of the interface. -/
theorem evaluate_eq_toDashboard_iff :
    p.evaluate path hasSession = .toDashboard ↔
      p.classify path = .publicOnly ∧ hasSession = true ∧ startsWith path "/api" = false := by
  unfold evaluate
  cases p.classify path <;> cases hasSession <;> cases startsWith path "/api" <;> simp

/-- The guard is skipped for assets under none of the prefixes. -/
theorem skips_iff :
    p.skips path = true ↔ isStaticAsset path = true ∧
      isUnder p.publicOnly path = false ∧ isUnder p.guarded path = false := by
  unfold skips classify
  cases isUnder p.publicOnly path <;> cases isUnder p.guarded path <;> simp

/-- Where the guard is skipped, a request passes with a session and without. -/
theorem evaluate_of_skips (h : p.skips path = true) (hasSession : Bool) :
    p.evaluate path hasSession = .allow := by
  obtain ⟨-, hpublic, hguarded⟩ := skips_iff.1 h
  simp [evaluate, classify, hpublic, hguarded]

/-! ## More prefixes -/

/-- The patterns with one more prefix of paths for signed-out callers only. -/
def addPublicOnly (p : RoutePatterns) (added : String) : RoutePatterns :=
  { p with publicOnly := added :: p.publicOnly }

/-- The patterns with one more prefix of paths that need a session. -/
def addGuarded (p : RoutePatterns) (added : String) : RoutePatterns :=
  { p with guarded := added :: p.guarded }

/-- With one more prefix for signed-out callers only, no further path is guarded. -/
theorem classify_addPublicOnly (h : (p.addPublicOnly added).classify path = .guarded) :
    p.classify path = .guarded := by
  simp only [classify_eq_guarded_iff, addPublicOnly, isUnder_cons, Bool.or_eq_false_iff] at h ⊢
  exact ⟨h.1.2, h.2⟩

/-- With one more guarded prefix, the paths for signed-out callers only are the same. -/
theorem classify_addGuarded :
    (p.addGuarded added).classify path = .publicOnly ↔ p.classify path = .publicOnly := by
  rw [classify_eq_publicOnly_iff, classify_eq_publicOnly_iff, addGuarded]

/-- The decision on a path goes by the sets of prefixes: their order and repetition do not count,
nor does a prefix that extends another of its list. Where the guard is skipped, everyone passes. One
more prefix for signed-out callers only sends nobody to sign in, and one more guarded prefix sends
nobody to the dashboard and changes nothing for a path of the former kind. Nobody is sent to sign in
from a path under both lists, nor to the dashboard from a path of the interface. -/
theorem evaluate_by_sets_of_prefixes (p : RoutePatterns) (path : String) (hasSession : Bool) :
    (∀ q : RoutePatterns, (∀ x, x ∈ q.publicOnly ↔ x ∈ p.publicOnly) →
      (∀ x, x ∈ q.guarded ↔ x ∈ p.guarded) →
      q.evaluate path hasSession = p.evaluate path hasSession) ∧
    (∀ shorter longer, startsWith longer shorter = true →
      (shorter ∈ p.publicOnly →
        (p.addPublicOnly longer).evaluate path hasSession = p.evaluate path hasSession) ∧
      (shorter ∈ p.guarded →
        (p.addGuarded longer).evaluate path hasSession = p.evaluate path hasSession)) ∧
    (p.skips path = true → p.evaluate path hasSession = .allow) ∧
    (∀ added,
      ((p.addPublicOnly added).evaluate path hasSession = .toSignIn →
        p.evaluate path hasSession = .toSignIn) ∧
      ((p.addGuarded added).evaluate path hasSession = .toDashboard →
        p.evaluate path hasSession = .toDashboard) ∧
      (p.classify path = .publicOnly →
        (p.addGuarded added).evaluate path hasSession = p.evaluate path hasSession)) ∧
    (isUnder p.publicOnly path = true → isUnder p.guarded path = true →
      p.evaluate path hasSession ≠ .toSignIn) ∧
    (startsWith path "/api" = true → p.evaluate path hasSession ≠ .toDashboard) := by
  refine ⟨fun q hpublic hguarded => ?_, fun shorter longer hlonger => ⟨fun hmem => ?_,
    fun hmem => ?_⟩, fun hskips => evaluate_of_skips hskips hasSession, fun added =>
    ⟨fun h => ?_, fun h => ?_, fun h => ?_⟩, fun hpublic hguarded h => ?_, fun hapi h => ?_⟩
  · exact evaluate_congr (isUnder_congr hpublic path) (isUnder_congr hguarded path) hasSession
  · have hsame := isUnder_cons_of_extends hlonger hmem path
    exact evaluate_congr (p := p.addPublicOnly longer) hsame rfl hasSession
  · have hsame := isUnder_cons_of_extends hlonger hmem path
    exact evaluate_congr (p := p.addGuarded longer) (q := p) rfl hsame hasSession
  · obtain ⟨hclass, hsession⟩ := evaluate_eq_toSignIn_iff.1 h
    exact evaluate_eq_toSignIn_iff.2 ⟨classify_addPublicOnly hclass, hsession⟩
  · obtain ⟨hclass, hrest⟩ := evaluate_eq_toDashboard_iff.1 h
    exact evaluate_eq_toDashboard_iff.2 ⟨classify_addGuarded.1 hclass, hrest⟩
  · rw [evaluate, evaluate, classify_addGuarded.2 h, h]
  · obtain ⟨hclass, -⟩ := evaluate_eq_toSignIn_iff.1 h
    rw [classify_eq_publicOnly_iff.2 hpublic] at hclass
    cases hclass
  · obtain ⟨-, -, hother⟩ := evaluate_eq_toDashboard_iff.1 h
    rw [hapi] at hother
    cases hother

/-- Pages of help below the guarded dashboard are for signed-out callers only, and one of them is
named like an image. -/
theorem help_below_dashboard_is_decided_by_sets :
    let p : RoutePatterns := { publicOnly := ["/dashboard/help"], guarded := ["/dashboard"] }
    let q : RoutePatterns := { p with guarded := ["/dashboard", "/dashboard"] }
    let page := "/dashboard/help/logo.svg"
    p.evaluate page true = .toDashboard ∧ q.evaluate page true = .toDashboard ∧
      (p.addPublicOnly "/dashboard/help/logo").evaluate page true = .toDashboard ∧
      (p.addGuarded "/dashboard/help").evaluate page true = .toDashboard ∧
      p.evaluate page false ≠ .toSignIn ∧
      (p.addPublicOnly "/help").evaluate "/dashboard" false = .toSignIn ∧
      p.evaluate "/dashboard" false = .toSignIn ∧
      p.skips "/logo.svg" = true ∧ p.evaluate "/logo.svg" true = .allow ∧
      (p.addPublicOnly "/api").evaluate "/api/help" true ≠ .toDashboard := by
  intro p q page
  have hpage : p.evaluate page true = .toDashboard := by decide
  have hpublic : isUnder p.publicOnly page = true := by decide
  have hsignIn : (p.addPublicOnly "/help").evaluate "/dashboard" false = .toSignIn := by decide
  have hskips : p.skips "/logo.svg" = true := by decide
  obtain ⟨hsets, hlonger, -, hadded, -⟩ := evaluate_by_sets_of_prefixes p page true
  refine ⟨hpage, hpage ▸ hsets q (fun _ => Iff.rfl) (by simp [p, q]), ?_, ?_, ?_, hsignIn, ?_,
    hskips, ?_, ?_⟩
  · rw [← hpage]
    exact (hlonger "/dashboard/help" "/dashboard/help/logo" (by decide)).1 (by decide)
  · rw [← hpage]
    exact (hadded "/dashboard/help").2.2 (classify_eq_publicOnly_iff.2 hpublic)
  · exact (evaluate_by_sets_of_prefixes p page false).2.2.2.2.1 hpublic (by decide)
  · exact ((evaluate_by_sets_of_prefixes p "/dashboard" false).2.2.2.1 "/help").1 hsignIn
  · exact (evaluate_by_sets_of_prefixes p "/logo.svg" true).2.2.1 hskips
  · exact (evaluate_by_sets_of_prefixes (p.addPublicOnly "/api") "/api/help" true).2.2.2.2.2
      (by decide)

end RoutePatterns

end FinanceGateway
