import FinanceGateway.Proofs.App.Separation
import FinanceGateway.Proofs.Gate.Presented
import FinanceGateway.Startup.Config

/-!
# Sessions with a token from the configuration

A request can present the texts that are not empty and have no blank characters around them, and no
others (`exists_presentedToken_iff`). So where the configuration has the only token that is
accepted, somebody can sign in exactly when it is such a text
(`static_sessions_are_those_of_the_token`).
-/

namespace FinanceGateway

open Percent (encodeBytes)

variable {name t : String}

/-! ## What can be presented -/

/-- The pair of a name and a text in codes, with nothing around it. -/
def Cookie.barePair (name t : String) : Bytes :=
  pair [] name (encodeBytes Percent.isUnreserved (Utf8.encode t)) []

/-- A text in codes is visible, and no semicolon is in it. -/
theorem Percent.visible_of_mem_encodeBytes {c : Char}
    (hc : c ∈ encodeBytes isUnreserved (Utf8.encode t)) :
    0x21 ≤ c.toNat ∧ c.toNat < 0x7F ∧ c ≠ ';' := by
  obtain ⟨hlow, hhigh⟩ := Cookie.isEncoding_isUnreserved.visible hc
  refine ⟨hlow, hhigh, ?_⟩
  rintro rfl
  have hcoded : isCoded ';' = true :=
    isCoded_of_mem_encode (s := t) (by rwa [encode, String.toList_ofList])
  exact absurd hcoded (by decide)

/-- The pair of a plain name and a text in codes is visible, and no semicolon is in it. -/
theorem Cookie.barePair_visible (hname : IsPlainName name) {b : UInt8} (hb : b ∈ barePair name t) :
    0x20 ≤ b ∧ b < 0x7F ∧ b ≠ 0x3B := by
  have hchars : ∀ c ∈ ([] ++ name.toList) ++
      '=' :: (encodeBytes Percent.isUnreserved (Utf8.encode t) ++ []),
      0x21 ≤ c.toNat ∧ c.toNat < 0x7F ∧ c ≠ ';' := by
    intro c hc
    simp only [List.nil_append, List.append_nil, List.mem_append, List.mem_cons] at hc
    rcases hc with hc | rfl | hc
    · obtain ⟨hlow, hhigh, -, -, hne⟩ := hname.visible hc
      exact ⟨hlow, hhigh, hne⟩
    · decide
    · exact Percent.visible_of_mem_encodeBytes hc
  rw [barePair, pair, Utf8.encode_ascii fun c hc => (hchars c hc).2.1.trans (by decide)] at hb
  obtain ⟨c, hc, rfl⟩ := List.mem_map.1 hb
  obtain ⟨hlow, hhigh, hne⟩ := hchars c hc
  have hbyte : (UInt8.ofNat c.toNat).toNat = c.toNat :=
    UInt8.toNat_ofNat_of_lt' (hhigh.trans (by decide))
  refine ⟨UInt8.le_iff_toNat_le.2 ?_, UInt8.lt_iff_toNat_lt.2 (by rwa [hbyte]), fun h => hne ?_⟩
  · rw [hbyte]
    exact (by decide : 0x20 ≤ 0x21).trans hlow
  · rw [← Char.ofNat_toNat c, ← hbyte, h]
    rfl

/-- The headers of a request with nothing but the session cookie. -/
def sessionHeaders (name t : String) : Headers :=
  [("cookie", Cookie.barePair name t)]

theorem endsWith_sessionHeaders (hname : Cookie.IsPlainName name) :
    Cookie.EndsWith name (encodeBytes Percent.isUnreserved (Utf8.encode t))
      (sessionHeaders name t) := by
  have hvisible : (Headers.visible? (Cookie.barePair name t)).isSome = true := by
    rw [Headers.visible?, if_pos]
    · rfl
    · refine List.all_eq_true.2 fun b hb => ?_
      obtain ⟨hlow, hhigh, -⟩ := Cookie.barePair_visible hname hb
      simp [hlow, hhigh]
  have hpieces : Form.splitAll 0x3B (Cookie.barePair name t) = [] ++ Cookie.barePair name t :: [] :=
    Form.splitAll_of_not_mem fun h => (Cookie.barePair_visible hname h).2.2 rfl
  have hends : Cookie.EndsWith name (encodeBytes Percent.isUnreserved (Utf8.encode t))
      ([] ++ ("cookie", Cookie.barePair name t) :: []) :=
    .intro (by decide) hvisible hpieces nofun nofun
  exact hends

/-- What requests can present is not empty and has no blank characters around it. -/
theorem exists_presentedToken_iff (hname : Cookie.IsPlainName name) :
    (∃ headers, presentedToken headers name = some t) ↔ t ≠ "" ∧ Text.IsTrimmed t := by
  constructor
  · rintro ⟨headers, h⟩
    exact isTrimmed_presentedToken h
  · rintro ⟨hne, htrimmed⟩
    have hends : Cookie.EndsWith name (encodeBytes Percent.isUnreserved (Utf8.encode t))
        (sessionHeaders name t) := endsWith_sessionHeaders hname
    exact ⟨sessionHeaders name t, presentedToken_of_cookie
      (hends.value? hname Cookie.isEncoding_isUnreserved) hne htrimmed⟩

/-! ## What is accepted -/

/-- The session for the token that is expected, if that is a token at all. -/
theorem Validator.checkFixed_eq_some_iff {expected : String} {session : Session} :
    checkFixed expected t = some session ↔ t ≠ "" ∧ t = expected ∧ session = { token := t } := by
  rw [checkFixed, Option.ite_none_left_eq_some, Option.some.injEq, eq_comm (b := session)]
  simp only [Bool.or_eq_true, String.isEmpty_iff, bne_iff_ne, not_or, not_not, and_assoc]

namespace Config

variable {c : Config} {charsets : Charset.Others} {request : Incoming} {session : Session}

/-- With a token from the configuration, a session needs nobody else's answer. -/
theorem resolveSession_static (hstatic : c.auth.validation = .static) (request : Incoming) :
    (c.app charsets).resolveSession request = .done ((presentedToken request.headers
      c.auth.settings.sessionCookie).bind (Validator.checkFixed (c.auth.token.getD ""))) := by
  have hvalidator : (c.app charsets).validator = .fixed (c.auth.token.getD "") := by
    simp only [app, validator, hstatic]
  rw [App.resolveSession, hvalidator, Validator.resolve_fixed]
  rfl

/-- A session is that of the configured token, for a request that presents it. -/
theorem resolveSession_eq_session_iff (hstatic : c.auth.validation = .static) :
    (c.app charsets).resolveSession request = .done (some session) ↔ ∃ t, c.auth.token = some t ∧
      presentedToken request.headers c.auth.settings.sessionCookie = some t ∧
      session = { token := t } := by
  rw [resolveSession_static hstatic, Plan.done.injEq, Option.bind_eq_some_iff]
  constructor
  · rintro ⟨t, hpresented, hcheck⟩
    obtain ⟨hne, heq, hsession⟩ := Validator.checkFixed_eq_some_iff.1 hcheck
    refine ⟨t, ?_, hpresented, hsession⟩
    cases htoken : c.auth.token with
    | none =>
      rw [htoken] at heq
      exact absurd heq hne
    | some token =>
      rw [htoken] at heq
      exact congrArg some heq.symm
  · rintro ⟨t, htoken, hpresented, hsession⟩
    refine ⟨t, hpresented, Validator.checkFixed_eq_some_iff.2 ⟨?_, by rw [htoken]; rfl, hsession⟩⟩
    exact (isTrimmed_presentedToken hpresented).1

/-- With a token from the configuration, some request is signed in exactly when the token is not
empty and has no blank characters around it; the requests that present it are then signed in, each
with a session of that token, and no others. With any other token, or none, no request is. -/
theorem static_sessions_are_those_of_the_token (charsets : Charset.Others)
    (hstatic : c.auth.validation = .static)
    (hname : Cookie.IsPlainName c.auth.settings.sessionCookie) :
    ((∃ request session, (c.app charsets).resolveSession request = .done (some session)) ↔
      ∃ t, c.auth.token = some t ∧ t ≠ "" ∧ Text.IsTrimmed t) ∧
    (∀ request session, (c.app charsets).resolveSession request = .done (some session) ↔
      ∃ t, c.auth.token = some t ∧
        presentedToken request.headers c.auth.settings.sessionCookie = some t ∧
        session = { token := t }) ∧
    ((∀ t, c.auth.token = some t → t = "" ∨ ¬Text.IsTrimmed t) →
      ∀ request, (c.app charsets).resolveSession request = .done none) := by
  have hsessions (request : Incoming) (session : Session) :
      (c.app charsets).resolveSession request = .done (some session) ↔ _ :=
    resolveSession_eq_session_iff hstatic
  refine ⟨⟨?_, ?_⟩, hsessions, fun hunusable request => ?_⟩
  · rintro ⟨request, session, h⟩
    obtain ⟨t, htoken, hpresented, -⟩ := (hsessions request session).1 h
    exact ⟨t, htoken, (exists_presentedToken_iff hname).1 ⟨_, hpresented⟩⟩
  · rintro ⟨t, htoken, husable⟩
    obtain ⟨headers, hpresented⟩ := (exists_presentedToken_iff hname).2 husable
    let request : Incoming := ⟨"GET", "/", none, headers, []⟩
    exact ⟨request, _, (hsessions request _).2 ⟨t, htoken, hpresented, rfl⟩⟩
  · rw [resolveSession_static hstatic, Plan.done.injEq, Option.eq_none_iff_forall_ne_some]
    intro session h
    obtain ⟨t, htoken, hpresented, -⟩ := (hsessions request session).1
      ((resolveSession_static hstatic request).trans (congrArg Plan.done h))
    obtain ⟨hne, htrimmed⟩ := isTrimmed_presentedToken hpresented
    exact (hunusable t htoken).elim hne (absurd htrimmed)

/-- A token with a blank in it can be presented, one with a blank before it cannot. -/
theorem token_with_blank_inside_signs_in :
    let c : Config :=
      { auth := { settings := { sessionCookie := "sid" }, token := some "schön ☃" } }
    let padded : Config := { c with auth := { c.auth with token := some " schön" } }
    let headers : Headers := [("cookie", Utf8.encode "sid=sch%C3%B6n%20%E2%98%83")]
    (∃ request session, c.app.resolveSession request = .done (some session)) ∧
      c.app.resolveSession ⟨"GET", "/", none, headers, []⟩ =
        .done (some { token := "schön ☃" }) ∧
      ∀ request, padded.app.resolveSession request = .done none := by
  intro c padded headers
  have hname : Cookie.IsPlainName "sid" := ⟨by decide, by simp⟩
  have htrimmed : Text.IsTrimmed "schön ☃" := by rintro c (h | h) <;> cases h <;> rfl
  have hpresented : presentedToken headers "sid" = some "schön ☃" := by decide +kernel
  obtain ⟨hsome, hsessions, -⟩ := static_sessions_are_those_of_the_token (c := c) _ rfl hname
  refine ⟨hsome.2 ⟨_, rfl, by decide, htrimmed⟩,
    (hsessions _ _).2 ⟨_, rfl, hpresented, rfl⟩, ?_⟩
  refine (static_sessions_are_those_of_the_token (c := padded) _ rfl hname).2.2 ?_
  rintro t ⟨⟩
  exact .inr fun h => absurd (h ' ' (.inl rfl)) (by decide)

end Config

end FinanceGateway
