import FinanceGateway.App.Route
import FinanceGateway.Proofs.Url.Segments

/-!
# Where paths lead

An endpoint is reached through a route whose pattern the segments of the path fit
(`Route.exists_route_of_target`). A path is the text of its segments (`Route.slashed_segments`), so
an endpoint at literal segments has one path: `Route.path_of_session` and `Route.path_of_health`.
-/

namespace FinanceGateway.Route

open Url

variable {method path parameter : String}

/-! ## Segments of a path -/

/-- Pieces between separators, with the separator before each of them. -/
theorem slashed_splitChars (cs : List Char) :
    slashed ((splitChars '/' cs).map String.ofList) = '/' :: cs := by
  induction cs with
  | nil => rfl
  | cons c cs ih =>
    rw [splitChars]
    split
    · next hslash =>
      rw [beq_iff_eq.1 hslash, List.map_cons, slashed_cons, ih]
      rfl
    · cases hpieces : splitChars '/' cs with
      | nil => exact absurd hpieces (splitChars_ne_nil '/' cs)
      | cons piece pieces =>
        rw [hpieces] at ih
        simpa using ih

/-- A path is the text of its segments, or its only segment. -/
theorem slashed_segments_or (path : String) :
    slashed (segments path) = path.toList ∨ segments path = [path] := by
  unfold segments
  split
  · next rest hpath => exact .inl (by rw [hpath, slashed_splitChars])
  · exact .inr (by rw [String.ofList_toList])

/-- A path with more than one segment is the text of its segments. -/
theorem slashed_segments (h : 1 < (segments path).length) :
    slashed (segments path) = path.toList :=
  (slashed_segments_or path).resolve_right fun hsingle => by
    rw [hsingle] at h
    exact Nat.lt_irrefl 1 h

/-! ## Endpoints -/

/-- An endpoint is reached through a route that has it for the method, and fits the path. -/
theorem exists_route_of_target {endpoint : Endpoint}
    (h : target method path = .endpoint endpoint parameter) :
    ∃ route ∈ all, (∃ m ∈ route.methods, m.2 = endpoint) ∧
      matches? route.pattern (segments path) = some parameter := by
  simp only [target] at h
  split at h
  · cases h
  · next route value hfound =>
    obtain ⟨r, hr, hmatch⟩ := List.exists_of_findSome?_eq_some hfound
    obtain ⟨value', hvalue, heq⟩ := Option.map_eq_some_iff.1 hmatch
    cases heq
    split at h
    · next e hmethod =>
      cases h
      obtain ⟨m, hm, rfl⟩ := Option.map_eq_some_iff.1 hmethod
      exact ⟨_, hr, ⟨m, List.mem_of_find?_eq_some hm, rfl⟩, hvalue⟩
    · cases h

/-- A pattern of literal segments is fitted by these segments alone. -/
theorem eq_of_matches_literals {names segments : List String}
    (h : matches? (names.map .literal) segments = some parameter) : segments = names := by
  induction names generalizing segments with
  | nil =>
    cases segments with
    | nil => rfl
    | cons => cases h
  | cons name names ih =>
    cases segments with
    | nil => cases h
    | cons segment segments =>
      rw [List.map_cons, matches?] at h
      split at h
      · next heq => rw [ih h, heq]
      · cases h

/-- An endpoint whose routes are all made of the same literal segments has one path. -/
theorem path_of_literals {endpoint : Endpoint} (names : List String) (hnames : 1 < names.length)
    (hall : ∀ route ∈ all, (∃ m ∈ route.methods, m.2 = endpoint) →
      route.pattern = names.map .literal)
    (h : target method path = .endpoint endpoint parameter) :
    path = String.ofList (slashed names) := by
  obtain ⟨route, hroute, hmethod, hmatch⟩ := exists_route_of_target h
  rw [hall route hroute hmethod] at hmatch
  have hsegments := eq_of_matches_literals hmatch
  rw [← hsegments, slashed_segments (by rwa [hsegments]), String.ofList_toList]

/-- The session endpoint has one path. -/
theorem path_of_session (h : target method path = .endpoint .session parameter) :
    path = "/api/session" :=
  path_of_literals ["api", "session"] (by decide) (by decide) h

/-- The health check has one path. -/
theorem path_of_health (h : target method path = .endpoint .health parameter) :
    path = "/api/health" :=
  path_of_literals ["api", "health"] (by decide) (by decide) h

/-- Data is found below the dashboard. -/
theorem segments_of_data {data : DataEndpoint}
    (h : target method path = .endpoint (.data data) parameter) :
    ∃ rest, segments path = "dashboard" :: rest := by
  have hall : ∀ route ∈ all, (∃ m ∈ route.methods, m.2 = .data data) →
      ∃ names, route.pattern = .literal "dashboard" :: names := by
    intro route hroute hdata
    have hhead : route.pattern.head? = some (.literal "dashboard") := by
      revert route
      cases data <;> decide
    exact ⟨_, List.eq_cons_of_mem_head? hhead⟩
  obtain ⟨route, hroute, hmethod, hmatch⟩ := exists_route_of_target h
  obtain ⟨names, hpattern⟩ := hall route hroute hmethod
  rw [hpattern] at hmatch
  cases hsegments : segments path with
  | nil =>
    rw [hsegments] at hmatch
    cases hmatch
  | cons segment rest =>
    rw [hsegments, matches?] at hmatch
    split at hmatch
    · next heq => exact ⟨rest, by rw [heq]⟩
    · cases hmatch

end FinanceGateway.Route
