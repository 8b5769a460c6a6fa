import FinanceGateway.Proofs.App.Separation
import FinanceGateway.Proofs.Json.Kept
import FinanceGateway.Startup.Console

/-!
# The health check at the start

The backend as a whole is healthy when its status is `healthy` or `ok`, in any letter case. A check
counts as failing unless its status is `healthy`: `ok` does not do (`Health.mem_failing_iff`). So
the log line about a backend that is not healthy names, besides the checks that are not healthy by
the rule for the whole, those that are `ok` (`Health.startup_names_checks_not_called_healthy`);
`Health.check_that_is_ok_is_named_failing` is such a line.
-/

namespace FinanceGateway

/-- A body of success that is read was read from some draft. -/
theorem Call.exists_decode_of_decodeBody {α : Type} {codec : Json.Codec α} {body : Bytes} {x : α}
    (h : decodeBody codec body = .ok x) : ∃ place d, codec.decode place d = .ok x := by
  have h := mapError_eq_ok_iff.1 h
  split at h
  · exact ⟨_, _, h⟩
  · rw [Json.Codec.decodeText] at h
    dsimp only at h
    split at h
    · cases h
    · next hdecode =>
      split at h
      · cases h
        exact ⟨_, _, hdecode⟩
      · cases h

namespace Health

variable {health : Health} {body : Bytes} {status name : String}

/-- The names of checks in a health that was read are in ascending order, each there once. -/
theorem sorted_checks (h : Call.decodeBody record.codec body = .ok health) :
    Dictionary.Sorted health.checks := by
  have hkeeps : ∀ f ∈ record.fields, f.Keeps fun s => Dictionary.Sorted s.checks := by
    intro f hf
    simp only [record, List.mem_cons, List.not_mem_nil, or_false] at hf
    rcases hf with rfl | rfl | rfl | rfl
    · exact fun _ _ _ _ _ hs => hs
    · exact fun _ _ _ _ _ hs => hs
    · exact fun _ _ _ _ _ hs => hs
    · exact fun _ _ _ hchecks _ _ => Json.Codec.sorted_of_decode_map hchecks
  obtain ⟨place, d, h⟩ := Call.exists_decode_of_decodeBody h
  have hkept := Json.Record.of_decode hkeeps .nil h
  exact hkept

/-- A status is not called `healthy` when it names no healthy state, or the one that is called
`ok`. -/
theorem eqIgnoreCase_healthy_eq_false_iff :
    Text.eqIgnoreCase status "healthy" = false ↔
      isHealthyStatus status = false ∨ Text.eqIgnoreCase status "ok" = true := by
  have hother : Text.eqIgnoreCase status "ok" = true →
      Text.eqIgnoreCase status "healthy" = false := by
    intro hok
    rw [Text.eqIgnoreCase, beq_iff_eq] at hok
    rw [Text.eqIgnoreCase, hok]
    decide
  rw [isHealthyStatus]
  cases hok : Text.eqIgnoreCase status "ok" with
  | true => simp [hother hok]
  | false => simp

/-- The names of the failing checks are in ascending order, each there once. -/
theorem pairwise_failing (h : Dictionary.Sorted health.checks) :
    health.failing.Pairwise (· < ·) :=
  List.pairwise_map.2 (List.Pairwise.filter _ h)

/-- A check is failing when it is not called `healthy`. -/
theorem mem_failing_iff (h : Dictionary.Sorted health.checks) :
    name ∈ health.failing ↔ ∃ check, health.checks.get? name = some check ∧
      (isHealthyStatus check.status = false ∨ Text.eqIgnoreCase check.status "ok" = true) := by
  simp only [failing, List.mem_map, List.mem_filter, ← eqIgnoreCase_healthy_eq_false_iff,
    Bool.not_eq_true']
  constructor
  · rintro ⟨⟨name, check⟩, ⟨hmem, hstatus⟩, rfl⟩
    exact ⟨check, Dictionary.get?_of_mem h.nodup hmem, hstatus⟩
  · rintro ⟨check, hget, hstatus⟩
    exact ⟨(name, check), ⟨Dictionary.mem_of_get? hget, hstatus⟩, rfl⟩

/-- The line of a health check that was answered tells what the answer says. -/
theorem eq_healthLine_of_checkBackend {base : String} {provider : Option Provider}
    {turns : List Turn} {code : Nat} {line : LogLine}
    (hrun : (Startup.checkBackend base provider).Reaches turns (.done line))
    (hcame : Answered turns code body) (hsuccess : Http.isSuccess code = true) :
    line = Startup.healthLine base (Call.decodeBody record.codec body) := by
  obtain ⟨result, before, after, rfl, hresult, hline⟩ := Plan.reaches_bind_done_iff.1 hrun
  obtain ⟨rfl, hline⟩ := Plan.reaches_done_iff.1 hline
  rw [List.append_nil] at hcame
  cases hline
  rw [Service.eq_of_success hresult hcame hsuccess]
  rfl

/-- When the backend says at the start that it is not healthy as a whole, the log line lists checks
as failing in ascending order, each once: all that are not healthy by the rule for the whole, and
besides them those whose status is `ok`. -/
theorem startup_names_checks_not_called_healthy
    (hdecoded : Call.decodeBody record.codec body = .ok health)
    (hunhealthy : health.isHealthy = false) :
    (∀ base provider turns code line,
      (Startup.checkBackend base provider).Reaches turns (.done line) →
      Answered turns code body → Http.isSuccess code = true →
      line = ⟨.warn, Startup.mainSource, "backend at " ++ base ++ " reports " ++ health.status ++
        " (failing checks: " ++ Text.quotedList health.failing ++ ")"⟩) ∧
    health.failing.Pairwise (· < ·) ∧
    ∀ name, name ∈ health.failing ↔ ∃ check, health.checks.get? name = some check ∧
      (isHealthyStatus check.status = false ∨ Text.eqIgnoreCase check.status "ok" = true) := by
  have hsorted := sorted_checks hdecoded
  refine ⟨fun base provider turns code line hrun hcame hsuccess => ?_, pairwise_failing hsorted,
    fun name => mem_failing_iff hsorted⟩
  rw [eq_healthLine_of_checkBackend hrun hcame hsuccess, hdecoded]
  simp only [Startup.healthLine, hunhealthy, Bool.false_eq_true, if_false]

/-- Any answer of success may come to a health check, and makes for its line. -/
theorem exists_answered_check (body : Bytes) :
    ∃ turns, (Startup.checkBackend "http://backend.test" none).Reaches turns
      (.done (Startup.healthLine "http://backend.test" (Call.decodeBody record.codec body))) ∧
      Answered turns 200 body := by
  obtain ⟨call, hcall, hpath, -, hquery, hpayload⟩ := Service.exists_health_call
  have hurl : Call.address "http://backend.test" "/health" = .ok {
      scheme := "http", login := none, host := "backend.test", port := none,
      segments := ["health"], query := none, fragment := none } := by
    decide +kernel
  obtain ⟨request, hends⟩ := Ends.exists_replied hpath hquery hpayload .nobody hurl nofun
    (by decide +kernel) (.answer 200 body)
  have hresult := execute_reaches_done_iff.2 hends
  rw [← Service.execute_eq hcall] at hresult
  exact ⟨_, Plan.reaches_bind_done_iff.2 ⟨_, _, [], (List.append_nil _).symm, hresult, .start⟩,
    request, List.mem_singleton_self _⟩

/-- Of three checks one is called healthy, and the others are named in order: the one that is `Ok`
and the one without a status. -/
theorem startup_names_two_checks_of_three :
    ∃ turns, (Startup.checkBackend "http://backend.test" none).Reaches turns
      (.done ⟨.warn, Startup.mainSource, "backend at http://backend.test reports degraded " ++
        "(failing checks: [\"cache\", \"queue\"])"⟩) ∧
      Answered turns 200 (Utf8.encode ("\x7b\"status\":\"degraded\",\"checks\":\x7b" ++
        "\"queue\":\x7b\x7d,\"db\":\x7b\"status\":\"HEALTHY\"\x7d," ++
        "\"cache\":\x7b\"status\":\"Ok\"\x7d\x7d\x7d")) := by
  let body := Utf8.encode ("\x7b\"status\":\"degraded\",\"checks\":\x7b" ++
    "\"queue\":\x7b\x7d,\"db\":\x7b\"status\":\"HEALTHY\"\x7d," ++
    "\"cache\":\x7b\"status\":\"Ok\"\x7d\x7d\x7d")
  let health : Health :=
    { status := "degraded"
      checks := [("cache", { status := "Ok" }), ("db", { status := "HEALTHY" }), ("queue", {})] }
  have hdecoded : Call.decodeBody record.codec body = .ok health := rfl
  have hfailing : health.failing = ["cache", "queue"] := by decide
  obtain ⟨hline, -, -⟩ := startup_names_checks_not_called_healthy hdecoded (by decide)
  obtain ⟨turns, hrun, hcame⟩ := exists_answered_check body
  rw [hline _ _ _ _ _ hrun hcame rfl, hfailing] at hrun
  exact ⟨turns, hrun, hcame⟩

/-- A check that is healthy by the rule for the whole is named as failing. -/
theorem check_that_is_ok_is_named_failing :
    isHealthyStatus "ok" = true ∧
      ∃ turns, (Startup.checkBackend "http://backend.test" none).Reaches turns
        (.done ⟨.warn, Startup.mainSource,
          "backend at http://backend.test reports degraded (failing checks: [\"db\"])"⟩) ∧
        Answered turns 200 (Utf8.encode ("\x7b\"status\":\"degraded\"," ++
          "\"checks\":\x7b\"db\":\x7b\"status\":\"ok\"\x7d\x7d\x7d")) := by
  let body := Utf8.encode ("\x7b\"status\":\"degraded\"," ++
    "\"checks\":\x7b\"db\":\x7b\"status\":\"ok\"\x7d\x7d\x7d")
  have hline : Startup.healthLine "http://backend.test" (Call.decodeBody record.codec body) =
      ⟨.warn, Startup.mainSource,
        "backend at http://backend.test reports degraded (failing checks: [\"db\"])"⟩ := by
    decide +kernel
  refine ⟨by decide +kernel, ?_⟩
  rw [← hline]
  exact exists_answered_check body

end Health

end FinanceGateway
