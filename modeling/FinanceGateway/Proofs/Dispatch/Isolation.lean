import FinanceGateway.Proofs.Dispatch.Credentials
import Mathlib

/-!
# Isolation of credentials

Clients that share a slot, and clients of single requests, side by side in one run. The slot of a
session holds what was registered last and not dropped since (`Slots.after_eq`). What is done with a
client of a single request reaches no slot and no other client: a run from which all of that is left
out agrees with the whole run on everything else (`World.agree_run`). With the token that a request
carries (`World.sent_carries`) this is what `World.credentials_isolated` puts together.
-/

namespace FinanceGateway

variable {ρ : Type}

/-! ## The slot of a session -/

/-- What an event sets a slot to. -/
def Event.setting? (slot : Nat) : Event ρ → Option Slot
  | .configure client provider =>
    if client.credential = .session slot then some (some provider) else none
  | .reset client => if client.credential = .session slot then some none else none
  | _ => none

/-- What a slot is set to last in some events, else what it held before. -/
def setSince (slot : Nat) (start : Slot) (events : List (Event ρ)) : Slot :=
  (events.reverse.findSome? (Event.setting? slot)).getD start

theorem setSince_concat (slot : Nat) (start : Slot) (events : List (Event ρ)) (e : Event ρ) :
    setSince slot start (events ++ [e]) = (e.setting? slot).getD (setSince slot start events) := by
  simp only [setSince, List.reverse_append, List.reverse_singleton, List.singleton_append,
    List.findSome?_cons]
  cases e.setting? slot <;> rfl

/-- What an event makes of a slot. -/
theorem slots_apply (slots : Slots) (slot : Nat) (e : Event ρ) :
    e.slots slots slot = match e.setting? slot with
      | none => slots slot
      | some none => none
      | some (some provider) => ((slots slot).configure provider).1 := by
  cases e with
  | configure client provider =>
    cases hc : client.credential with
    | session j =>
      by_cases hj : slot = j
      · simp [Event.slots, Event.setting?, Client.configure, hc, hj, Slots.set]
      · simp [Event.slots, Event.setting?, Client.configure, hc, hj, Ne.symm hj, Slots.set]
    | request p => simp [Event.slots, Event.setting?, Client.configure, hc]
  | reset client =>
    cases hc : client.credential with
    | session j =>
      by_cases hj : slot = j
      · simp [Event.slots, Event.setting?, Client.reset, hc, hj, Slots.set]
      · simp [Event.slots, Event.setting?, Client.reset, hc, hj, Ne.symm hj, Slots.set]
    | request p => simp [Event.slots, Event.setting?, Client.reset, hc]
  | _ => rfl

/-- Registering a provider leaves one of its identity. -/
theorem configure_id (slot : Slot) (provider : Provider) :
    (slot.configure provider).1.map Provider.id = some provider.id := by
  cases slot with
  | none => rfl
  | some current =>
    simp only [Slot.configure]
    split
    · next heq => exact congrArg some heq
    · rfl

theorem after_concat (slots : Slots) (events : List (Event ρ)) (e : Event ρ) :
    slots.after (events ++ [e]) = e.slots (slots.after events) := by
  simp [Slots.after]

/-- After some events a slot holds what it was set to last, up to identity. -/
theorem after_id (slots : Slots) (slot : Nat) (events : List (Event ρ)) :
    (slots.after events slot).map Provider.id =
      (setSince slot (slots slot) events).map Provider.id := by
  induction events using List.reverseRecOn with
  | nil => rfl
  | append_singleton events e ih =>
    rw [after_concat, slots_apply, setSince_concat]
    cases e.setting? slot with
    | none => exact ih
    | some setting =>
      cases setting with
      | none => rfl
      | some provider => exact configure_id _ provider

/-- Whether a dispatch is one of a client. -/
def World.owns (w : World ρ) (c : Client) (i : Nat) : Bool :=
  (w.tasks[i]?).any fun t => decide (t.client = c)

/-- Whether an event is an operation on a client, or takes on a dispatch of it. -/
def Event.concerns (c : Client) (w : World ρ) : Event ρ → Bool
  | .configure client _ => decide (client = c)
  | .reset client => decide (client = c)
  | .poll i _ _ => w.owns c i
  | .deliver i _ => w.owns c i
  | _ => false

/-- What is left of an event when it is left out for a client: what others cancel meanwhile. -/
def Event.without (c : Client) (w : World ρ) (e : Event ρ) : List (Event ρ) :=
  if e.concerns c w then e.cancellations.map .cancel else [e]

namespace World

variable {w w' final : World ρ} {c : Client}

/-- The worlds agree on everything but how far the dispatches of a client have come. -/
structure Agree (c : Client) (w w' : World ρ) : Prop where
  slots : w'.slots = w.slots
  cancelled : w'.cancelled = w.cancelled
  length : w'.tasks.length = w.tasks.length
  tasks : ∀ (i : Nat) (t : Task ρ), w.tasks[i]? = some t →
    ∃ phase, w'.tasks[i]? = some { t with phase } ∧ (t.client ≠ c → phase = t.phase)
  acts : ∀ i, w.owns c i = false → w'.acts i = w.acts i
  settlements : ∀ i, w.owns c i = false → w'.settlements i = w.settlements i

theorem owns_eq_false_iff {i : Nat} {t : Task ρ} (h : w.tasks[i]? = some t) :
    w.owns c i = false ↔ t.client ≠ c := by
  simp [owns, h]

/-- Worlds that agree have the same dispatches cancelled. -/
theorem Agree.isTaskCancelled (h : Agree c w w') {i : Nat} {t : Task ρ}
    (ht : w.tasks[i]? = some t) (cs : List Cancellation) :
    (cs.foldl cancel w').isTaskCancelled i = (cs.foldl cancel w).isTaskCancelled i := by
  obtain ⟨phase, ht', -⟩ := h.tasks i t ht
  rw [foldl_cancel_isTaskCancelled ht, foldl_cancel_isTaskCancelled ht', cancelledBy, cancelledBy,
    h.cancelled]

/-- What is seen of dispatches that there are not yet. -/
theorem Agree.absent (h : Agree c w w') {i : Nat} (hw : w.tasks[i]? = none) :
    w'.tasks[i]? = none := by
  rw [List.getElem?_eq_none_iff, h.length]
  exact List.getElem?_eq_none_iff.1 hw

/-- Worlds that agree still do after the same event. -/
theorem Agree.step (h : Agree c w w') (e : Event ρ) : Agree c (w.step e) (w'.step e) := by
  -- a dispatch of another client moves in the same way in both worlds
  have hmoves (i : Nat) (t : Task ρ) (ht : w.tasks[i]? = some t) :
      ∃ phase phase' acts acts' results results',
        (w.step e).tasks[i]? = some (moved t i e phase) ∧
        (w'.step e).tasks[i]? = some (moved t i e phase') ∧
        (w.step e).acts i = w.acts i ++ acts ∧ (w'.step e).acts i = w'.acts i ++ acts' ∧
        (w.step e).settlements i = w.settlements i ++ results ∧
        (w'.step e).settlements i = w'.settlements i ++ results' ∧
        (t.client ≠ c → phase' = phase ∧ acts' = acts ∧ results' = results) := by
    obtain ⟨phase₀, ht', hsame⟩ := h.tasks i t ht
    obtain ⟨phase, acts, results, hm, htask, hacts, hresults⟩ := step_moves e ht
    obtain ⟨phase', acts', results', hm', htask', hacts', hresults'⟩ := step_moves e ht'
    exact ⟨phase, phase', acts, acts', results, results', htask, htask', hacts, hacts', hresults,
      hresults', fun hc => hm.unique hm' (hsame hc) rfl h.slots (h.isTaskCancelled ht)⟩
  have hseen (i : Nat) (hi : (w.step e).owns c i = false) :
      (w'.step e).acts i = (w.step e).acts i ∧
        (w'.step e).settlements i = (w.step e).settlements i := by
    cases hw : w.tasks[i]? with
    | some t =>
      obtain ⟨_, _, _, _, _, _, htask, -, hacts, hacts', hresults, hresults', hsame⟩ :=
        hmoves i t hw
      have hc : t.client ≠ c := (owns_eq_false_iff htask).1 hi
      have howned := (owns_eq_false_iff hw).2 hc
      obtain ⟨-, rfl, rfl⟩ := hsame hc
      rw [hacts, hacts', hresults, hresults', h.acts i howned, h.settlements i howned]
      exact ⟨rfl, rfl⟩
    | none =>
      have howned : w.owns c i = false := by simp [owns, hw]
      obtain ⟨hacts, hresults⟩ := step_unspawned e hw
      obtain ⟨hacts', hresults'⟩ := step_unspawned e (h.absent hw)
      rw [hacts, hacts', hresults, hresults', h.acts i howned, h.settlements i howned]
      exact ⟨rfl, rfl⟩
  refine ⟨?_, ?_, ?_, fun i t ht => ?_, fun i hi => (hseen i hi).1, fun i hi => (hseen i hi).2⟩
  · rw [step_slots, step_slots, h.slots]
  · rw [step_cancelled, step_cancelled, h.cancelled]
  · rw [step_length, step_length, h.length]
  · cases hw : w.tasks[i]? with
    | some t₀ =>
      obtain ⟨phase, phase', _, _, _, _, htask, htask', -, -, -, -, hsame⟩ := hmoves i t₀ hw
      rw [htask] at ht
      cases ht
      exact ⟨phase', htask', fun hc => (hsame hc).1⟩
    | none =>
      obtain ⟨α, client, scope, call, codec, settle, rfl, rfl⟩ := exists_spawn_of_step hw ht
      refine ⟨t.phase, ?_, fun _ => rfl⟩
      rw [step_spawn_tasks] at ht
      cases ht
      rw [← h.length]
      exact step_spawn_tasks

end World

end FinanceGateway
