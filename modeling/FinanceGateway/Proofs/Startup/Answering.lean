import FinanceGateway.Proofs.App.Redirects
import FinanceGateway.Proofs.Text.Utf8
import FinanceGateway.Proofs.Toml.Section
import FinanceGateway.Startup.Config

/-!
# Configurations under which requests cannot be answered

The sign-in page and the dashboard can be configured to be any text (`Config.exists_parse_eq_ok`),
for escapes and texts on several lines make the controls that cannot stand in a line. A header can
hold the texts that could stand in a line and no others (`isHeaderValue_encode_iff`), so a request
is answered unless its caller is sent on to another one (`App.answered_iff`).
`Config.answers_unless_sent_to_controls` says for every configuration which requests these are.
-/

namespace FinanceGateway

/-! ## Locations -/

/-- A text without controls but the tab: one that could stand in a line as it is. -/
def IsPlainText (s : String) : Prop :=
  ∀ c ∈ s.toList, Toml.isPlain c = true

/-- A character can be in a header value exactly when it can stand in a line. -/
theorem isHeaderValue_utf8EncodeChar (c : Char) :
    isHeaderValue (String.utf8EncodeChar c) = Toml.isPlain c := by
  by_cases hc : c.toNat < 128
  · have hascii : ∀ n < 128, isHeaderValue [UInt8.ofNat n] = Toml.isPlain (Char.ofNat n) := by
      decide +kernel
    rw [Utf8.utf8EncodeChar_ascii hc, hascii _ hc, Char.ofNat_toNat]
  · have hplain : Toml.isPlain c = true := by
      simp only [Toml.isPlain, Bool.or_eq_true, Bool.and_eq_true, decide_eq_true_eq, bne_iff_ne]
      omega
    rw [hplain, isHeaderValue, List.all_eq_true]
    intro b hb
    have hbyte := Utf8.le_of_mem_utf8EncodeChar (Nat.le_of_not_lt hc) hb
    simp only [Bool.or_eq_true, Bool.and_eq_true, decide_eq_true_eq, bne_iff_ne]
    refine .inl ⟨UInt8.le_iff_toNat_le.2 ((by decide : 0x20 ≤ 128).trans hbyte), ?_⟩
    rintro rfl
    exact absurd hbyte (by decide)

/-- The texts that a header can hold are the plain ones. -/
theorem isHeaderValue_encode_iff {s : String} :
    isHeaderValue (Utf8.encode s) = true ↔ IsPlainText s := by
  have hchars : isHeaderValue (Utf8.encode s) = s.toList.all Toml.isPlain := by
    rw [← String.ofList_toList (s := s), Utf8.encode_ofList, isHeaderValue, List.all_flatMap,
      String.toList_ofList]
    exact congrArg (s.toList.all ·) (funext isHeaderValue_utf8EncodeChar)
  rw [hchars, List.all_eq_true, IsPlainText]

namespace App

variable {app : App} {request : Incoming} {location : String} {turns : List Turn}
  {outcome : Except Abort Response}

theorem exists_redirectTo_iff :
    (∃ response, redirectTo location = .ok response) ↔ IsPlainText location := by
  rw [← isHeaderValue_encode_iff, redirectTo]
  cases isHeaderValue (Utf8.encode location) <;> simp

/-- A complete run answers the request unless its caller, as identified, is sent on to a text that
is not plain. -/
theorem answered_iff (h : (app.serve request).Reaches turns (.done outcome)) :
    ∃ session before after, turns = before ++ after ∧
      (app.identify request).Reaches before (.done session) ∧
      ((∃ response, outcome = .ok response) ↔
        ∀ location, app.redirect? session.isSome request.path = some location →
          IsPlainText location) := by
  rw [serve_eq_redirect] at h
  obtain ⟨session, before, after, hturns, hsession, h⟩ := Plan.reaches_bind_done_iff.1 h
  refine ⟨session, before, after, hturns, hsession, ?_⟩
  cases hredirect : app.redirect? session.isSome request.path with
  | none =>
    simp only [hredirect] at h
    obtain ⟨response, _, _, -, -, h⟩ := Plan.reaches_bind_done_iff.1 h
    obtain ⟨-, heq⟩ := Plan.reaches_done_iff.1 h
    exact iff_of_true ⟨_, Plan.done.inj heq⟩ nofun
  | some location =>
    simp only [hredirect] at h
    obtain ⟨-, heq⟩ := Plan.reaches_done_iff.1 h
    cases heq
    simp only [map_eq_ok_iff, Option.some.injEq, forall_eq']
    rw [← exists_redirectTo_iff]
    exact ⟨fun ⟨_, response, hresponse, _⟩ => ⟨response, hresponse⟩,
      fun ⟨response, hresponse⟩ => ⟨_, response, hresponse, rfl⟩⟩

/-- The text that callers are sent to is plain exactly when that of their kind is, wherever they are
sent on. -/
theorem forall_redirect?_iff {path : String} {hasSession : Bool} :
    (∀ location, app.redirect? hasSession path = some location → IsPlainText location) ↔
      (hasSession = false → app.patterns.classify path = .guarded →
        IsPlainText app.settings.signInUrl) ∧
      (hasSession = true → app.patterns.classify path = .publicOnly →
        startsWith path "/api" = false → IsPlainText app.settings.dashboardPath) := by
  simp only [redirect?_eq_some_iff, and_imp, forall_eq_apply_imp_iff]
  cases hasSession with
  | false =>
    rw [ne_eq, RoutePatterns.evaluate_signedOut_eq_allow_iff, not_not]
    simp [destination]
  | true =>
    rw [ne_eq, RoutePatterns.evaluate_signedIn_eq_allow_iff]
    simp [destination]

end App

namespace Config

/-- Whatever texts the two places are to be, there is a text that configures them. -/
theorem exists_parse_eq_ok (signIn dashboard : String) :
    ∃ text, parse text =
      .ok { auth := { settings := { signInUrl := signIn, dashboardPath := dashboard } } } := by
  let text := Toml.sectionOf "auth" [("sign_in_url", signIn), ("dashboard_path", dashboard)]
  have hparse : Toml.parse? text = some (.table [("auth", .table
      [("sign_in_url", .text signIn), ("dashboard_path", .text dashboard)])]) := by
    have hname : Toml.IsBareKey "auth" := ⟨by simp, by simp [Toml.isBare]⟩
    have hsignIn : Toml.IsBareKey "sign_in_url" := ⟨by simp, by simp [Toml.isBare]⟩
    have hdashboard : Toml.IsBareKey "dashboard_path" := ⟨by simp, by simp [Toml.isBare]⟩
    refine (Toml.parse?_sectionOf hname ?_).trans rfl
    rintro e (_ | ⟨_, _ | ⟨_, ⟨⟩⟩⟩)
    · exact hsignIn
    · exact hdashboard
  refine ⟨text, ?_⟩
  rw [parse, hparse]
  rfl

/-- For any sign-in page and dashboard there is a text that is read as the configuration with these
two and the defaults besides. Under every configuration with them, however it is read and whatever
comes back from outside, a request is served to its end, and it is answered unless its caller, as
identified, is sent on to one of them that has a control in it other than the tab: without a session
to the sign-in page from a guarded path, and with one to the dashboard from a path for signed-out
callers only that is none of the interface. So if both are plain, every request is answered. -/
theorem answers_unless_sent_to_controls (signIn dashboard : String) :
    (∃ text, parse text =
      .ok { auth := { settings := { signInUrl := signIn, dashboardPath := dashboard } } }) ∧
    ∀ c : Config, c.auth.settings.signInUrl = signIn → c.auth.settings.dashboardPath = dashboard →
      ∀ (charsets : Charset.Others) (request : Incoming),
      (∀ outside : Plan.Outside Id, ∃ turns, (∀ turn ∈ turns, turn.IsGivenBy outside) ∧
        ((c.app charsets).serve request).Reaches turns
          (.done (Id.run (((c.app charsets).serve request).run outside)))) ∧
      ∀ turns outcome, ((c.app charsets).serve request).Reaches turns (.done outcome) →
        (∃ session before after, turns = before ++ after ∧
          ((c.app charsets).identify request).Reaches before (.done session) ∧
          ((∃ response, outcome = .ok response) ↔
            (session.isSome = false → c.guard.classify request.path = .guarded →
              IsPlainText signIn) ∧
            (session.isSome = true → c.guard.classify request.path = .publicOnly →
              startsWith request.path "/api" = false → IsPlainText dashboard))) ∧
        (IsPlainText signIn → IsPlainText dashboard → ∃ response, outcome = .ok response) := by
  refine ⟨exists_parse_eq_ok signIn dashboard, ?_⟩
  rintro c rfl rfl charsets request
  refine ⟨fun outside => Plan.reaches_run outside _, fun turns outcome h => ?_⟩
  obtain ⟨session, before, after, hturns, hsession, hanswered⟩ := App.answered_iff h
  rw [App.forall_redirect?_iff] at hanswered
  refine ⟨⟨session, before, after, hturns, hsession, hanswered⟩, fun hsignIn hdashboard => ?_⟩
  exact hanswered.2 ⟨fun _ _ => hsignIn, fun _ _ _ => hdashboard⟩

/-- A tab in the sign-in page can stand in a header: callers without a session are sent there. -/
theorem tab_in_sign_in_url_is_answered :
    let c : Config := { auth := { settings := { signInUrl := "/sign\tin" } } }
    ∃ turns outcome response,
      (c.app.serve ⟨"GET", "/dashboard", none, [], []⟩).Reaches turns (.done outcome) ∧
        c.app.redirect? false "/dashboard" = some "/sign\tin" ∧ outcome = .ok response := by
  intro c
  obtain ⟨-, hserved⟩ := answers_unless_sent_to_controls "/sign\tin" "/dashboard"
  obtain ⟨hends, hanswered⟩ := hserved c rfl rfl (fun _ => none) ⟨"GET", "/dashboard", none, [], []⟩
  obtain ⟨turns, -, h⟩ := hends ⟨fun _ => .anonymous, fun _ => .answer 404 []⟩
  have hsignIn : IsPlainText "/sign\tin" := by simp [IsPlainText, Toml.isPlain]
  have hdashboard : IsPlainText "/dashboard" := by simp [IsPlainText, Toml.isPlain]
  obtain ⟨response, hresponse⟩ := (hanswered turns _ h).2 hsignIn hdashboard
  exact ⟨turns, _, response, h, by decide, hresponse⟩

/-- A line end in the sign-in page, written as an escape, cannot: a request that is sent there is
not answered. -/
theorem line_end_in_sign_in_url_is_not_answered :
    ∃ c, parse "[auth]\nsign_in_url = \"/sign\\nin\"\n" = .ok c ∧
      c.app.serve ⟨"GET", "/dashboard", none, [], []⟩ =
        .done (.error (.illegalLocation "/sign\nin")) := by
  let c : Config := { auth := { settings := { signInUrl := "/sign\nin" } } }
  have hparse : (parse "[auth]\nsign_in_url = \"/sign\\nin\"\n").toOption = some c := by
    decide +kernel
  have hidentify : c.app.identify ⟨"GET", "/dashboard", none, [], []⟩ = .done none := by rfl
  have hredirect : c.app.redirect? false "/dashboard" = some "/sign\nin" := by decide
  have habort : App.redirectTo "/sign\nin" = .error (.illegalLocation "/sign\nin") := by
    rw [App.redirectTo, if_neg (by decide +kernel)]
  refine ⟨c, toOption_eq_some_iff.1 hparse, ?_⟩
  rw [App.serve_eq_redirect, hidentify]
  simp only [Plan.done_bind, Option.isSome_none, hredirect, habort]
  rfl

end Config

end FinanceGateway
