import FinanceGateway.Proofs.Startup.Settings
import FinanceGateway.Proofs.Text.Blank

/-!
# Partial configurations

A configuration is read setting by setting, each from its own place in the document
(`Config.ofTable_iff`). So a document from which settings are deleted, one by one or with their
section, gives the configuration with these settings at their defaults and no other changed
(`Config.reset`), whatever unknown keys are added or changed. An address from outside changes one
setting only (`Config.deleted_settings_alone_fall_back`).
-/

namespace FinanceGateway

/-- The value of a key in a section. -/
def Toml.setting? (t : Toml) (name key : String) : Option Toml :=
  (t.get? name).bind (·.get? key)

/-- The keys of a group of settings. -/
def SettingGroup.keys {σ : Type} (g : SettingGroup σ) : List String :=
  g.settings.map (·.key)

theorem SettingGroup.Lawful.mem_keys {σ : Type} {g : SettingGroup σ} {coords : List (Coordinate σ)}
    (h : g.Lawful coords) {p : Coordinate σ} (hp : p ∈ coords) : p.key ∈ g.keys := by
  rw [SettingGroup.keys, h.settings, List.map_map]
  exact List.mem_map_of_mem hp

namespace Config

variable {t t' : Toml} {c : Config} {s : String}

/-- The sections of a configuration, each with its keys. -/
def sections : List (String × List String) := [
  ("server", ServerConfig.group.keys),
  ("api", BackendConfig.group.keys),
  ("auth", AuthConfig.group.keys),
  ("guard", RoutePatterns.group.keys)]

theorem forall_mem_sections {P : String × List String → Prop} :
    (∀ known ∈ sections, P known) ↔ P ("server", ServerConfig.group.keys) ∧
      P ("api", BackendConfig.group.keys) ∧ P ("auth", AuthConfig.group.keys) ∧
      P ("guard", RoutePatterns.group.keys) := by
  simp [sections]

/-- The sections that a document gives are tables. -/
def HasTables (t : Toml) : Prop :=
  ∀ known ∈ sections, ∀ v, t.get? known.1 = some v → ∃ entries, v = .table entries

/-- The second document is what is left of the first when settings are deleted: its sections are
tables, and the other settings are there as before. Unknown keys may be any in both. -/
structure Prunes (deleted : String → String → Bool) (t t' : Toml) : Prop where
  tables : HasTables t'
  settings : ∀ known ∈ sections, ∀ key ∈ known.2,
    t'.setting? known.1 key = if deleted known.1 key then none else t.setting? known.1 key

/-- The configuration with some of its settings at their defaults. -/
def reset (deleted : String → String → Bool) (c : Config) : Config :=
  let kept {α : Type} (name key : String) (default value : α) : α :=
    if deleted name key then default else value
  let initial : Config := {}
  { server := {
      bind := kept "server" "bind" initial.server.bind c.server.bind
      port := kept "server" "port" initial.server.port c.server.port }
    api := {
      baseUrl := kept "api" "base_url" initial.api.baseUrl c.api.baseUrl
      serviceToken := kept "api" "service_token" initial.api.serviceToken c.api.serviceToken }
    auth := {
      settings := {
        sessionCookie := kept "auth" "session_cookie" initial.auth.settings.sessionCookie
          c.auth.settings.sessionCookie
        signInUrl := kept "auth" "sign_in_url" initial.auth.settings.signInUrl
          c.auth.settings.signInUrl
        signUpUrl := kept "auth" "sign_up_url" initial.auth.settings.signUpUrl
          c.auth.settings.signUpUrl
        dashboardPath := kept "auth" "dashboard_path" initial.auth.settings.dashboardPath
          c.auth.settings.dashboardPath }
      validation := kept "auth" "validation" initial.auth.validation c.auth.validation
      token := kept "auth" "token" initial.auth.token c.auth.token }
    guard := {
      publicOnly := kept "guard" "public_only" initial.guard.publicOnly c.guard.publicOnly
      guarded := kept "guard" "protected" initial.guard.guarded c.guard.guarded } }

/-! ## Reading a configuration -/

/-- Each setting of a configuration is what its own place in the document says, and its default
where that place is empty. -/
@[mk_iff]
structure FollowsTable (t : Toml) (c : Config) : Prop where
  server : ∀ p ∈ ServerConfig.coordinates, p.Follows {} c.server (t.setting? "server" p.key)
  api : ∀ p ∈ BackendConfig.coordinates, p.Follows {} c.api (t.setting? "api" p.key)
  auth : ∀ p ∈ AuthConfig.coordinates, p.Follows {} c.auth (t.setting? "auth" p.key)
  guard : ∀ p ∈ RoutePatterns.coordinates, p.Follows {} c.guard (t.setting? "guard" p.key)

/-- A table whose sections are tables is read setting by setting. -/
theorem ofTable_iff {entries : List (String × Toml)} (hkeyed : (Toml.table entries).IsKeyed)
    (htables : HasTables (.table entries)) :
    ofTable (.table entries) = .ok c ↔ FollowsTable (.table entries) c := by
  cases hkeyed with
  | table hnodup hkeyed =>
    have hsection (name : String) (v : Toml) (hv : Toml.get? (.table entries) name = some v) :
        v.IsKeyed := hkeyed _ (Dictionary.mem_of_get? hv)
    have hread : ofTable (.table entries) = .ok c ↔ _ := lawful.readEntries_iff hnodup
    rw [hread, followsTable_iff]
    simp only [coordinates, List.forall_mem_cons, List.not_mem_nil, IsEmpty.forall_iff,
      implies_true, and_true]
    obtain ⟨hserver, hapi, hauth, hguard⟩ := forall_mem_sections.1 htables
    exact and_congr (ServerConfig.lawful.follows_section_iff rfl (hsection _) hserver) <|
      and_congr (BackendConfig.lawful.follows_section_iff rfl (hsection _) hapi) <|
      and_congr (AuthConfig.lawful.follows_section_iff rfl (hsection _) hauth)
        (RoutePatterns.lawful.follows_section_iff rfl (hsection _) hguard)

/-- The settings that are left say the same as before, and the others nothing. -/
theorem FollowsTable.reset {deleted : String → String → Bool} (h : FollowsTable t c)
    (hprunes : Prunes deleted t t') : FollowsTable t' (c.reset deleted) := by
  have hserver : ∀ p ∈ ServerConfig.coordinates, p.get (c.reset deleted).server =
      if deleted "server" p.key then p.get {} else p.get c.server :=
    List.forall_iff_forall_mem.1 ⟨rfl, rfl⟩
  have hapi : ∀ p ∈ BackendConfig.coordinates, p.get (c.reset deleted).api =
      if deleted "api" p.key then p.get {} else p.get c.api :=
    List.forall_iff_forall_mem.1 ⟨rfl, rfl⟩
  have hauth : ∀ p ∈ AuthConfig.coordinates, p.get (c.reset deleted).auth =
      if deleted "auth" p.key then p.get {} else p.get c.auth :=
    List.forall_iff_forall_mem.1 ⟨rfl, rfl, rfl, rfl, rfl, rfl⟩
  have hguard : ∀ p ∈ RoutePatterns.coordinates, p.get (c.reset deleted).guard =
      if deleted "guard" p.key then p.get {} else p.get c.guard :=
    List.forall_iff_forall_mem.1 ⟨rfl, rfl⟩
  obtain ⟨hs, ha, hu, hg⟩ := forall_mem_sections.1 hprunes.settings
  exact {
    server := fun p hp =>
      (h.server p hp).reset (hs _ (ServerConfig.lawful.mem_keys hp)) (hserver p hp)
    api := fun p hp =>
      (h.api p hp).reset (ha _ (BackendConfig.lawful.mem_keys hp)) (hapi p hp)
    auth := fun p hp =>
      (h.auth p hp).reset (hu _ (AuthConfig.lawful.mem_keys hp)) (hauth p hp)
    guard := fun p hp =>
      (h.guard p hp).reset (hg _ (RoutePatterns.lawful.mem_keys hp)) (hguard p hp) }

/-- A document whose sections are tables is read setting by setting. -/
theorem parse_iff (hread : Toml.parse? s = some t) (htables : HasTables t) :
    parse s = .ok c ↔ FollowsTable t c := by
  obtain ⟨hkeyed, entries, rfl⟩ := Toml.isKeyed_of_parse? hread
  rw [parse, hread, ← ofTable_iff hkeyed htables]
  exact mapError_eq_ok_iff

/-! ## The address from outside -/

/-- An address from outside counts when something is left of it once it is trimmed. -/
theorem withBaseUrl_some {given url : String} (h : Text.Trims given url) :
    c.withBaseUrl (some given) =
      if url = "" then c else { c with api := { c.api with baseUrl := url } } := by
  rw [withBaseUrl, Option.bind_some]
  by_cases hurl : url = ""
  · have hblank : Text.nonBlank? given = none := by
      rw [Option.eq_none_iff_forall_ne_some]
      intro url' h'
      obtain ⟨hne, htrims⟩ := Text.nonBlank?_eq_some_iff.1 h'
      rw [Text.trims_iff] at h htrims
      exact hne (htrims.symm.trans (h.trans hurl))
    rw [hblank, if_pos hurl]
  · rw [Text.nonBlank?_eq_some_iff.2 ⟨hurl, h⟩, if_neg hurl]

/-! ## Frames -/

/-- A document that is left when settings are deleted from one that is read, and unknown keys are
added or changed, is read as the same configuration with exactly these settings at their defaults.
An address from outside changes the address of the backend and nothing else, and that only when
something is left of it once it is trimmed. -/
theorem deleted_settings_alone_fall_back :
    (∀ deleted s s' t t' c, Toml.parse? s = some t → Toml.parse? s' = some t' → HasTables t →
      Prunes deleted t t' → parse s = .ok c → parse s' = .ok (c.reset deleted)) ∧
    ∀ c : Config, c.withBaseUrl none = c ∧
      ∀ given url, Text.Trims given url → c.withBaseUrl (some given) =
        if url = "" then c else { c with api := { c.api with baseUrl := url } } := by
  refine ⟨fun deleted s s' t t' c hread hread' htables hprunes h => ?_,
    fun c => ⟨rfl, fun given url h => withBaseUrl_some h⟩⟩
  rw [parse_iff hread htables] at h
  rw [parse_iff hread' hprunes.tables]
  exact h.reset hprunes

/-- The section of the server and the token are deleted, and unknown keys are added: what is left is
read as before. An address is taken from outside without the blanks around it. -/
theorem rest_of_partial_document_is_kept :
    parse "theme = \"dark\"\n[auth]\nvalidation = \"remote\"\nretries = 3\n" =
        .ok { auth := { validation := .remote } } ∧
      withBaseUrl {} (some " http://up.test\n") = { api := { baseUrl := "http://up.test" } } := by
  let t : Toml := .table [("server", .table [("port", .integer 80)]),
    ("auth", .table [("token", .text "t"), ("validation", .text "remote")])]
  let t' : Toml := .table [("theme", .text "dark"),
    ("auth", .table [("validation", .text "remote"), ("retries", .integer 3)])]
  have hread : Toml.parse?
      "[server]\nport = 80\n[auth]\ntoken = \"t\"\nvalidation = \"remote\"\n" = some t := by cbv
  have hread' : Toml.parse?
      "theme = \"dark\"\n[auth]\nvalidation = \"remote\"\nretries = 3\n" = some t' := by cbv
  have htables : HasTables t := forall_mem_sections.2 (by simp [t, Toml.get?])
  have hprunes : Prunes (fun name key => name == "server" || key == "token") t t' := by
    refine ⟨forall_mem_sections.2 (by simp [t', Toml.get?]), forall_mem_sections.2 ?_⟩
    simp [t, t', Toml.get?, Toml.setting?, SettingGroup.keys, ServerConfig.group,
      BackendConfig.group, AuthConfig.group, RoutePatterns.group, Setting.of]
  have hparse : parse "[server]\nport = 80\n[auth]\ntoken = \"t\"\nvalidation = \"remote\"\n" =
      .ok { server := { port := 80 }, auth := { token := some "t", validation := .remote } } := by
    decide +kernel
  obtain ⟨hfrom, hoverride⟩ := deleted_settings_alone_fall_back
  have htrims : Text.Trims " http://up.test\n" "http://up.test" :=
    Text.trims_iff.2 (by decide +kernel)
  exact ⟨hfrom _ _ _ t t' _ hread hread' htables hprunes hparse,
    ((hoverride {}).2 _ _ htrims).trans (if_neg (by decide))⟩

end Config

end FinanceGateway
