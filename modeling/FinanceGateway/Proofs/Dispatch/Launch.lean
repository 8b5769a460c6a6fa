import FinanceGateway.Proofs.Dispatch.Isolation

/-!
# Which credential a spawned dispatch goes out with

A dispatch takes the provider of its client when it is polled for the first time, not when it is
spawned. So between the two it goes with its session: what the session registers or drops in that
time counts for the dispatch too (`World.provider_taken_at_first_poll`), and what it registers or
drops later does not.
-/

namespace FinanceGateway

variable {ρ : Type}

/-- Events that do not set a slot leave it as it is. -/
theorem after_of_unset {slot : Nat} {events : List (Event ρ)}
    (h : ∀ e ∈ events, e.setting? slot = none) (slots : Slots) :
    slots.after events slot = slots slot := by
  induction events using List.reverseRecOn with
  | nil => rfl
  | append_singleton events e ih =>
    rw [after_concat, slots_apply, h e (by simp)]
    exact ih fun e he => h e (List.mem_append_left _ he)

namespace World

/-- A request of a dispatch carries the token of the provider that its client had when the dispatch
was spawned, and no other is asked, if nothing sets the slot of the session before its first poll.
What does so before, the dispatch follows; what does so after, it does not. -/
theorem provider_taken_at_first_poll {events : List (Event ρ)} {i : Nat} {request : Outgoing}
    (h : Note.did i (.sent request) ∈ (run {} events).notes) :
    ∃ (α : Type) (client : Client) (scope : Option Scope) (call : Call) (codec : Json.Codec α)
      (settle : Except ApiError α → ρ) (before between future : List (Event ρ))
      (a : Option TokenAnswer) (m : List Cancellation),
      events = before ++ .spawn client scope call codec settle ::
        (between ++ .poll i a m :: future) ∧
      i = (run {} before).tasks.length ∧ (∀ a m, .poll i a m ∉ between) ∧
      ∃ active token,
        Gives i ((run {} events).asked i) (.poll i a m :: future) active token ∧
        Carries token request ∧
        ((∀ slot, client.credential = .session slot → ∀ e ∈ between, e.setting? slot = none) →
          active = client.provider (run {} before).slots) ∧
        ∀ slot, client.credential = .session slot → active.map Provider.id =
          (setSince slot ((run {} before).slots slot) between).map Provider.id := by
  obtain ⟨α, client, scope, call, codec, settle, before, between, future, a, m, hevents, hi,
    hbetween, token, hcarries, hgives⟩ := sent_spawned h
  refine ⟨α, client, scope, call, codec, settle, before, between, future, a, m, hevents, hi,
    hbetween, _, token, hgives, hcarries, fun hunset => ?_, fun slot hslot => ?_⟩
  · cases hclient : client.credential with
    | session slot =>
      rw [Client.provider, Client.provider, hclient]
      exact after_of_unset (hunset slot hclient) _
    | request provider => rw [Client.provider, Client.provider, hclient]
  · rw [Client.provider, hslot]
    exact after_id _ slot between

/-- Another session signs out while a dispatch waits to be polled, and its own session after that:
it asks the provider that its session had when it was spawned, and goes out with the token of that
one. -/
theorem sign_out_after_first_poll_is_late :
    let session : Client := ⟨"http://api.test", .session 0⟩
    let other : Client := ⟨"http://api.test", .session 1⟩
    let call : Call := { method := "DELETE", template := "/sms" }
    let before : List (Event Bool) := [.configure session (.external 1)]
    let after : List (Event Bool) := [.reset other, .poll 0 none [], .reset session,
      .deliver 0 (.token (.token "old")), .poll 0 none []]
    let events := before ++ .spawn session none call .unit (·.isOk) :: after
    let sent : Outgoing :=
      { method := "DELETE",
        url := { scheme := "http", login := none, host := "api.test", port := none,
                 segments := ["sms"], query := none, fragment := none },
        authorization := [bearer "old"], payload := .empty }
    Note.did 0 (.sent sent) ∈ (run {} events).notes ∧ (run {} events).asked 0 = [1] ∧
      ∃ between a m future token, after = between ++ .poll 0 a m :: future ∧
        Gives 0 [1] (.poll 0 a m :: future) (session.provider (run {} before).slots) token ∧
        Carries token sent := by
  intro session other call before after events sent
  have hnotes : (run {} events).notes = [.did 0 (.asked 1), .did 0 (.sent sent)] := by cbv
  have hsent : Note.did 0 (.sent sent) ∈ (run {} events).notes := by
    rw [hnotes]
    exact .tail _ (.head _)
  have hasked : (run {} events).asked 0 = [1] := by
    rw [asked, acts, hnotes]
    rfl
  obtain ⟨α, client, scope, call', codec, settle, before', between, future, a, m, hevents, -,
    hbetween, active, token, hgives, hcarries, hactive, -⟩ := provider_taken_at_first_poll hsent
  -- The only spawn is the second event, and the first poll comes right after the other sign-out.
  rcases before' with - | ⟨first, - | ⟨second, before'⟩⟩
  · cases (List.cons.inj hevents).1
  · obtain ⟨hfirst, hevents⟩ := List.cons.inj hevents
    obtain ⟨hspawn, hafter⟩ := List.cons.inj hevents
    cases hfirst
    cases hspawn
    refine ⟨hsent, hasked, between, a, m, future, token, hafter, ?_, hcarries⟩
    rw [hasked] at hgives
    have hquiet : ∀ e ∈ between, e = .reset other := by
      rcases between with - | ⟨e, - | ⟨e', between⟩⟩
      · exact List.forall_mem_nil _
      · exact List.forall_mem_singleton.2 (List.cons.inj hafter).1.symm
      · have hpoll := (List.cons.inj (List.cons.inj hafter).2).1
        exact absurd (hpoll ▸ .tail _ (.head _)) (hbetween none [])
    rwa [hactive fun slot hslot e he => ?_] at hgives
    cases hslot
    rw [hquiet e he]
    rfl
  · have hafter := (List.cons.inj (List.cons.inj hevents).2).2
    have hmem : .spawn client scope call' codec settle ∈ after := by
      rw [hafter]
      exact List.mem_append_right before' (.head _)
    simp [after] at hmem

/-- A session registers another provider, or drops its own, after a dispatch was spawned and before
its first poll: the dispatch goes out with the token of the new one, or without any. -/
theorem spawned_dispatch_loses_provider :
    let session : Client := ⟨"http://api.test", .session 0⟩
    let call : Call := { method := "DELETE", template := "/sms" }
    let old : Provider := .fixed 1 (some "old")
    let spawned (meanwhile : Event Bool) : List (Event Bool) := [.configure session old,
      .spawn session none call .unit (·.isOk), meanwhile, .poll 0 none []]
    let sent (authorization : List Bytes) : Outgoing :=
      { method := "DELETE",
        url := { scheme := "http", login := none, host := "api.test", port := none,
                 segments := ["sms"], query := none, fragment := none },
        authorization, payload := .empty }
    session.provider (run {} ([.configure session old] : List (Event Bool))).slots = some old ∧
      (run {} (spawned (.configure session (.fixed 2 (some "new"))))).notes =
        [.did 0 (.sent (sent [bearer "new"]))] ∧
      (run {} (spawned (.reset session))).notes = [.did 0 (.sent (sent []))] := by
  intro session call old spawned sent
  refine ⟨rfl, ?_, ?_⟩
  · cbv
  · cbv

end World

end FinanceGateway
