import FinanceGateway.Proofs.Dictionary
import FinanceGateway.Proofs.Outcome
import FinanceGateway.Proofs.Toml.Keys
import FinanceGateway.Startup.Config

/-!
# Laws of settings

The settings of a lawful group are its coordinates: each is read from the value of its own key, set
by itself and seen by itself, and all of them together make the record. Then a table in which each
key is there once is read setting by setting, whatever the order of its entries and whatever other
entries it has (`SettingGroup.Lawful.readEntries_iff`), and a section that is not given is like an
empty table (`SettingGroup.Lawful.follows_section_iff`). The groups of a configuration are lawful.
-/

namespace FinanceGateway

variable {σ τ : Type}

/-- A setting with the part of the record that it sets. -/
structure Coordinate (σ : Type) where
  {Value : Type}
  key : String
  read : Toml → Fitted Value
  get : σ → Value
  set : Value → σ → σ

namespace Coordinate

/-- The setting of a coordinate. -/
def setting (p : Coordinate σ) : Setting σ :=
  .of p.key p.read p.set

@[simp] theorem read_setting (p : Coordinate σ) (v : Toml) :
    p.setting.read v = (p.read v).map p.set := rfl

/-- Neither of two coordinates sees what the other sets. -/
def Apart (p q : Coordinate σ) : Prop :=
  (∀ v s, p.get (q.set v s) = p.get s) ∧ ∀ v s, q.get (p.set v s) = q.get s

/-- Read onto a record, the value of its key is what the coordinate is afterwards, and without one
it is what it was. -/
def Follows (p : Coordinate σ) (s x : σ) : Option Toml → Prop
  | some v => p.read v = .ok (p.get x)
  | none => p.get x = p.get s

/-- A group of settings as a coordinate of a larger record. -/
def ofGroup (g : SettingGroup σ) (initial : σ) (key : String) (get : τ → σ) (set : σ → τ → τ) :
    Coordinate τ :=
  ⟨key, g.read initial, get, set⟩

/-- Without its value a coordinate is what it was at first, and with the same value it is the
same. -/
theorem Follows.reset {p : Coordinate σ} {s x y : σ} {given given' : Option Toml} {isDeleted : Bool}
    (h : p.Follows s x given) (hgiven : given' = if isDeleted then none else given)
    (hy : p.get y = if isDeleted then p.get s else p.get x) : p.Follows s y given' := by
  subst hgiven
  cases isDeleted with
  | true => exact hy
  | false =>
    simp only [Bool.false_eq_true, if_false] at hy ⊢
    cases given with
    | some v => exact h.trans (congrArg Except.ok hy.symm)
    | none => exact hy.trans h

end Coordinate

namespace SettingGroup

variable {g : SettingGroup σ} {coords : List (Coordinate σ)} {entries : List (String × Toml)}
  {s x : σ}

/-- The settings of a group are coordinates. -/
structure Lawful (g : SettingGroup σ) (coords : List (Coordinate σ)) : Prop where
  settings : g.settings = coords.map (·.setting)
  keys : (coords.map (·.key)).Nodup
  get_set : ∀ p ∈ coords, ∀ v s, p.get (p.set v s) = v
  apart : coords.Pairwise Coordinate.Apart
  ext : ∀ {s t}, (∀ p ∈ coords, p.get s = p.get t) → s = t

namespace Lawful

/-- A coordinate does not see what another sets. -/
theorem get_set_of_ne (h : g.Lawful coords) {p q : Coordinate σ} (hp : p ∈ coords)
    (hq : q ∈ coords) (hne : p.key ≠ q.key) (v : q.Value) (s : σ) :
    p.get (q.set v s) = p.get s := by
  have : Std.Symm (Coordinate.Apart (σ := σ)) := ⟨fun _ _ happart => happart.symm⟩
  exact (h.apart.forall hp hq fun heq => hne (congrArg Coordinate.key heq)).1 v s

/-- A key names the setting of the coordinate that has it. -/
theorem find?_settings (h : g.Lawful coords) (key : String) :
    g.settings.find? (·.key == key) = (coords.find? (·.key == key)).map (·.setting) := by
  rw [h.settings, List.find?_map]
  rfl

/-- What the entries after the first say of the coordinate that was just set, and of the others. -/
theorem follows_set_iff (h : g.Lawful coords) {p q : Coordinate σ} (hp : p ∈ coords)
    (hq : q ∈ coords) {value : Toml} {v : q.Value} (hvalue : q.read value = .ok v)
    (hkeys : (((q.key, value) :: entries).map (·.1)).Nodup) :
    p.Follows (q.set v s) x (Dictionary.get? entries p.key) ↔
      p.Follows s x (Dictionary.get? ((q.key, value) :: entries) p.key) := by
  rw [Dictionary.get?_cons]
  by_cases hkey : p.key = q.key
  · obtain rfl := List.inj_on_of_nodup_map h.keys hp hq hkey
    have hnone : Dictionary.get? entries p.key = none :=
      Dictionary.get?_eq_none_iff.2 (List.nodup_cons.1 hkeys).1
    rw [hnone, if_pos rfl, Coordinate.Follows, Coordinate.Follows, h.get_set p hp, hvalue,
      Except.ok.injEq, eq_comm]
  · rw [if_neg (Ne.symm hkey)]
    cases Dictionary.get? entries p.key with
    | some value' => rfl
    | none => rw [Coordinate.Follows, Coordinate.Follows, h.get_set_of_ne hp hq hkey]

/-- A table in which each key is there once is read coordinate by coordinate. -/
theorem readEntries_iff (h : g.Lawful coords) (hkeys : (entries.map (·.1)).Nodup) :
    g.readEntries entries s = .ok x ↔
      ∀ p ∈ coords, p.Follows s x (Dictionary.get? entries p.key) := by
  induction entries generalizing s with
  | nil =>
    rw [readEntries, Except.ok.injEq]
    refine ⟨fun heq p _ => congrArg p.get heq.symm, fun hall => ?_⟩
    exact h.ext fun p hp => (hall p hp).symm
  | cons e entries ih =>
    obtain ⟨key, value⟩ := e
    have hrest := (List.nodup_cons.1 hkeys).2
    rw [readEntries, h.find?_settings]
    cases hfind : coords.find? (·.key == key) with
    | none =>
      rw [Option.map_none, ih hrest]
      refine forall₂_congr fun p hp => ?_
      have hne : key ≠ p.key := fun heq => by simpa [heq] using List.find?_eq_none.1 hfind p hp
      rw [Dictionary.get?_cons, if_neg hne]
    | some q =>
      have hq := List.mem_of_find?_eq_some hfind
      obtain rfl : q.key = key := by simpa using List.find?_some hfind
      simp only [Option.map_some, Coordinate.read_setting]
      cases hvalue : q.read value with
      | error misfit =>
        refine ⟨nofun, fun hall => ?_⟩
        have hfollows := hall q hq
        rw [Dictionary.get?_cons, if_pos rfl, Coordinate.Follows, hvalue] at hfollows
        cases hfollows
      | ok v =>
        simp only [Except.map]
        rw [ih hrest]
        exact forall₂_congr fun p hp => h.follows_set_iff hp hq hvalue hkeys

/-- A section that is given as a table is read coordinate by coordinate, and one that is not given
is like an empty table. -/
theorem follows_section_iff (h : g.Lawful coords) {initial : σ} {key : String} {get : τ → σ}
    {set : σ → τ → τ} {s x : τ} {given : Option Toml} (hinitial : get s = initial)
    (hkeyed : ∀ v, given = some v → v.IsKeyed)
    (htable : ∀ v, given = some v → ∃ entries, v = .table entries) :
    (Coordinate.ofGroup g initial key get set).Follows s x given ↔
      ∀ p ∈ coords, p.Follows initial (get x) (given.bind (·.get? p.key)) := by
  cases given with
  | none =>
    have hunread : (Coordinate.ofGroup g initial key get set).Follows s x none ↔
        get x = initial := hinitial ▸ Iff.rfl
    rw [hunread]
    exact ⟨fun heq p _ => congrArg p.get heq, h.ext⟩
  | some v =>
    obtain ⟨entries, rfl⟩ := htable v rfl
    cases hkeyed _ rfl with
    | table hnodup _ => exact h.readEntries_iff hnodup

end Lawful

end SettingGroup

/-! ## The groups of a configuration -/

/-- The coordinates of a server. -/
def ServerConfig.coordinates : List (Coordinate ServerConfig) := [
  ⟨"bind", Fitted.text, (·.bind), fun v s => { s with bind := v }⟩,
  ⟨"port", Fitted.nat16, (·.port), fun v s => { s with port := v }⟩]

theorem ServerConfig.lawful : ServerConfig.group.Lawful ServerConfig.coordinates where
  settings := rfl
  keys := by decide
  get_set := by simp [coordinates]
  apart := by simp [coordinates, Coordinate.Apart]
  ext {s t} h := by
    cases s
    cases t
    simpa [coordinates] using h

/-- The coordinates of a backend. -/
def BackendConfig.coordinates : List (Coordinate BackendConfig) := [
  ⟨"base_url", Fitted.text, (·.baseUrl), fun v s => { s with baseUrl := v }⟩,
  ⟨"service_token", Fitted.someText, (·.serviceToken), fun v s => { s with serviceToken := v }⟩]

theorem BackendConfig.lawful : BackendConfig.group.Lawful BackendConfig.coordinates where
  settings := rfl
  keys := by decide
  get_set := by simp [coordinates]
  apart := by simp [coordinates, Coordinate.Apart]
  ext {s t} h := by
    cases s
    cases t
    simpa [coordinates] using h

/-- The coordinates of signing in. -/
def AuthConfig.coordinates : List (Coordinate AuthConfig) := [
  ⟨"session_cookie", Fitted.text, (·.settings.sessionCookie), fun v s =>
    { s with settings := { s.settings with sessionCookie := v } }⟩,
  ⟨"sign_in_url", Fitted.text, (·.settings.signInUrl), fun v s =>
    { s with settings := { s.settings with signInUrl := v } }⟩,
  ⟨"sign_up_url", Fitted.text, (·.settings.signUpUrl), fun v s =>
    { s with settings := { s.settings with signUpUrl := v } }⟩,
  ⟨"dashboard_path", Fitted.text, (·.settings.dashboardPath), fun v s =>
    { s with settings := { s.settings with dashboardPath := v } }⟩,
  ⟨"validation", Fitted.variant ValidationMode.variants, (·.validation), fun v s =>
    { s with validation := v }⟩,
  ⟨"token", Fitted.someText, (·.token), fun v s => { s with token := v }⟩]

theorem AuthConfig.lawful : AuthConfig.group.Lawful AuthConfig.coordinates where
  settings := rfl
  keys := by decide
  get_set := by simp [coordinates]
  apart := by simp [coordinates, Coordinate.Apart]
  ext {s t} h := by
    obtain ⟨⟨⟩, _, _⟩ := s
    obtain ⟨⟨⟩, _, _⟩ := t
    simpa [coordinates, and_assoc] using h

/-- The coordinates of a guard. -/
def RoutePatterns.coordinates : List (Coordinate RoutePatterns) := [
  ⟨"public_only", Fitted.texts, (·.publicOnly), fun v s => { s with publicOnly := v }⟩,
  ⟨"protected", Fitted.texts, (·.guarded), fun v s => { s with guarded := v }⟩]

theorem RoutePatterns.lawful : RoutePatterns.group.Lawful RoutePatterns.coordinates where
  settings := rfl
  keys := by decide
  get_set := by simp [coordinates]
  apart := by simp [coordinates, Coordinate.Apart]
  ext {s t} h := by
    cases s
    cases t
    simpa [coordinates] using h

/-- The coordinates of a configuration. -/
def Config.coordinates : List (Coordinate Config) := [
  .ofGroup ServerConfig.group {} "server" (·.server) fun v s => { s with server := v },
  .ofGroup BackendConfig.group {} "api" (·.api) fun v s => { s with api := v },
  .ofGroup AuthConfig.group {} "auth" (·.auth) fun v s => { s with auth := v },
  .ofGroup RoutePatterns.group {} "guard" (·.guard) fun v s => { s with guard := v }]

theorem Config.lawful : Config.group.Lawful Config.coordinates where
  settings := rfl
  keys := by decide
  get_set := by simp [coordinates, Coordinate.ofGroup]
  apart := by simp [coordinates, Coordinate.Apart, Coordinate.ofGroup]
  ext {s t} h := by
    cases s
    cases t
    simpa [coordinates, Coordinate.ofGroup] using h

end FinanceGateway
