import FinanceGateway.Proofs.Dispatch.Alone

/-!
# The contract of cancellation

What a caller may rely on who spawns a dispatch and cancels it, or does not, in any order of steps:
`settles_unless_cancelled` follows one dispatch through a run in which anything else may happen
before it is spawned, while it is under way and after it has ended.
-/

namespace FinanceGateway

variable {ρ : Type}

namespace World

variable {α : Type} {w : World ρ} {client : Client} {scope : Option Scope} {call : Call}
  {codec : Json.Codec α} {settle : Except ApiError α → ρ}

/-- What the scope of a dispatch is cancelled by. -/
theorem scope_isCancelled_iff {cancelled : List Scope} {s : Scope} :
    s.isCancelled cancelled = true ↔ ∃ named ∈ cancelled, named <+: s := by
  simp [Scope.isCancelled]

/-- The scopes among cancellations. -/
theorem mem_scopes {cs : List Cancellation} {s : Scope} :
    s ∈ cs.filterMap Cancellation.scope? ↔ .scope s ∈ cs := by
  rw [List.mem_filterMap]
  constructor
  · rintro ⟨c, hc, hs⟩
    cases c with
    | scope s' =>
      cases hs
      exact hc
    | handle => cases hs
  · exact fun hs => ⟨_, hs, rfl⟩

/-- A poll settles nothing when the cancellation comes while it runs. -/
theorem poll_of_overtaken {i : Nat} {t : Task ρ} (h : w.tasks[i]? = some t)
    {a : Option TokenAnswer} {m : List Cancellation}
    (hcancelled : (m.foldl cancel w).isTaskCancelled i = true) :
    (w.step (.poll i a m)).settlements i = w.settlements i := by
  obtain ⟨phase, acts, results, hmoves, -, -, hresults⟩ := step_moves (.poll i a m) h
  rw [hresults]
  cases hmoves with
  | waited | finished | dropped | advanced | overtaken => exact List.append_nil _
  | settled _ _ _ hgoes =>
    rw [hcancelled] at hgoes
    cases hgoes

/-- One dispatch in a run, spawned after some events and before others. It settles at most once,
and not once it is cancelled, be it before a poll or while that poll runs. Unless it is cancelled,
it settles once with the result of its call, if it comes to one. If it is cancelled before its
first poll, it neither asks nor sends. It is cancelled by its own handle, and by a scope that holds
its own, cancelled before or after it was spawned; handles cancel no scope. -/
theorem settles_unless_cancelled (before after : List (Event ρ)) (client : Client)
    (scope : Option Scope) (call : Call) (codec : Json.Codec α)
    (settle : Except ApiError α → ρ) :
    let i := (run ({} : World ρ) before).tasks.length
    let world (events : List (Event ρ)) : World ρ :=
      run {} (before ++ .spawn client scope call codec settle :: events)
    ((world after).settlements i).length ≤ 1 ∧
    (∀ past future, after = past ++ future → (world past).isTaskCancelled i = true →
      (world after).settlements i = (world past).settlements i) ∧
    (∀ past a meanwhile future, after = past ++ .poll i a meanwhile :: future →
      (meanwhile.foldl cancel (world past)).isTaskCancelled i = true →
      (world after).settlements i = (world past).settlements i) ∧
    ((world after).isTaskCancelled i = false → ∀ result,
      ((client.dispatch call codec).alone i client (run {} before).slots after).1 =
        .complete result →
      (world after).settlements i = [settle result] ∧
        ∃ active turns, (execute client.base active call codec).Reaches turns (.done result)) ∧
    (∀ past future, after = past ++ future → (∀ a m, .poll i a m ∉ past) →
      (world past).isTaskCancelled i = true → (world after).acts i = []) ∧
    ((world after).isTaskCancelled i = true ↔
      .handle i ∈ after.flatMap Event.cancellations ∨
      ∃ s named, scope = some s ∧
        .scope named ∈ (before ++ after).flatMap Event.cancellations ∧ named <+: s) ∧
    ∀ s, (world after).isCancelled s = true ↔
      ∃ named, .scope named ∈ (before ++ after).flatMap Event.cancellations ∧ named <+: s := by
  intro i world
  obtain ⟨spawned, hrun, htask, hacts, hsettlements, hslots, hnamed⟩ :=
    exists_spawned before client scope call codec settle
  have hworld : ∀ events, world events = spawned.run events := hrun
  have hcancelled : spawned.cancelled =
      (before.flatMap Event.cancellations).filterMap Cancellation.scope? :=
    hnamed.trans (run_cancelled before)
  simp only [hworld]
  refine ⟨?_, ?_, ?_, ?_, ?_, ?_, ?_⟩
  · rcases run_settlements htask after with h | ⟨result, h⟩
    · rw [h, hsettlements]
      exact Nat.zero_le 1
    · rw [h, hsettlements]
      exact Nat.le_refl 1
  · rintro past future rfl h
    rw [run_append]
    exact (run_of_cancelled h future).2
  · rintro past a meanwhile future rfl h
    obtain ⟨phase, hpast⟩ := run_task htask past
    have hstep : ((spawned.run past).step (.poll i a meanwhile)).isTaskCancelled i = true := by
      rw [step_isTaskCancelled hpast, ← h, foldl_cancel_isTaskCancelled hpast]
      rfl
    rw [run_append, run_cons, (run_of_cancelled hstep future).2, poll_of_overtaken hpast h]
  · intro h result hresult
    have hmap : ((client.dispatch call codec).map settle).alone i client spawned.slots after = _ :=
      Execution.alone_map spawned.slots (client.dispatch call codec) after
    rw [hslots, hresult] at hmap
    have hrun := run_of_uncancelled htask rfl nofun after h
    rw [hslots, hmap] at hrun
    refine ⟨?_, ?_⟩
    · rw [hrun.2 _ rfl, hsettlements]
      rfl
    · have hstands : Execution.StandsIn (execute client.base · call codec)
        (client.dispatch call codec) := rfl
      have halone : Execution.StandsIn _ ((client.dispatch call codec).alone i client
        (run {} before).slots after).1 := hstands.alone _ after
      rw [hresult] at halone
      exact halone
  · rintro past future rfl hpast h
    rw [run_append, (run_of_cancelled h future).1, run_unpolled htask hpast, hacts]
  · rw [run_isTaskCancelled htask, cancelledBy, hcancelled, ← List.filterMap_append,
      ← List.flatMap_append]
    simp only [Bool.false_or, Bool.or_eq_true, decide_eq_true_eq, Option.any_eq_true,
      scope_isCancelled_iff, mem_scopes]
    refine or_congr Iff.rfl ⟨?_, ?_⟩
    · rintro ⟨s, hs, named, hnamed, hpart⟩
      exact ⟨s, named, hs, hnamed, hpart⟩
    · rintro ⟨s, named, hs, hnamed, hpart⟩
      exact ⟨s, hs, named, hnamed, hpart⟩
  · intro s
    rw [isCancelled, run_cancelled, hcancelled, ← List.filterMap_append, ← List.flatMap_append,
      scope_isCancelled_iff]
    simp only [mem_scopes]

/-- A dispatch in a scope whose answer is there for its last poll: it settles with the result, but
not if its scope is cancelled while it is polled, and it sends nothing if a wider scope is cancelled
before it starts. -/
theorem answer_settles_unless_cancelled :
    let client : Client := ⟨"http://api.test", .session 0⟩
    let call : Call := { method := "DELETE", template := "/sms" }
    let world (events : List (Event Bool)) : World Bool :=
      run {} ([] ++ .spawn client (some [4]) call .unit (·.isOk) :: events)
    let answered : List (Event Bool) := [.poll 0 none [], .deliver 0 (.reply (.answer 204 []))]
    (world (answered ++ [.poll 0 none []])).settlements 0 = [true] ∧
      (world (answered ++ [.poll 0 none [.scope [4]]])).settlements 0 = [] ∧
      (world (.cancel (.scope []) :: answered)).acts 0 = [] := by
  intro client call world answered
  have contract (events : List (Event Bool)) :=
    settles_unless_cancelled [] events client (some [4]) call .unit (·.isOk)
  refine ⟨?_, ?_, ?_⟩
  · obtain ⟨-, -, -, hsettles, -⟩ := contract (answered ++ [.poll 0 none []])
    exact (hsettles (by decide +kernel) (.ok ()) (by cbv)).1
  · obtain ⟨-, -, hmeanwhile, -⟩ := contract (answered ++ [.poll 0 none [.scope [4]]])
    have hpast : (world answered).settlements 0 = [] := by decide +kernel
    rw [← hpast]
    exact hmeanwhile answered none [.scope [4]] [] rfl (by decide +kernel)
  · obtain ⟨-, -, -, -, hfresh, -⟩ := contract (.cancel (.scope []) :: answered)
    exact hfresh [.cancel (.scope [])] answered rfl (by simp) (by decide +kernel)

end World

end FinanceGateway
