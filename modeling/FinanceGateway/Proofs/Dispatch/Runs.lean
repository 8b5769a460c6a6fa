import FinanceGateway.Proofs.Dispatch.Steps

/-!
# What the events of a run do

Runs of a world, from the place of one dispatch. A dispatch is cancelled by what the events cancel
and by nothing else (`run_isTaskCancelled`); from then on nothing more is seen of it
(`run_of_cancelled`), and nothing is before it is spawned (`run_absent`) or once it has finished
(`run_of_finished`). So it settles at most once (`run_settlements`).
-/

namespace FinanceGateway

variable {ρ : Type}

/-- The slots after some events. -/
def Slots.after (slots : Slots) (events : List (Event ρ)) : Slots :=
  events.foldl Event.slots slots

namespace World

variable {w : World ρ} {i : Nat} {t : Task ρ}

@[simp] theorem run_nil (w : World ρ) : w.run [] = w := rfl

@[simp] theorem run_cons (w : World ρ) (e : Event ρ) (events : List (Event ρ)) :
    w.run (e :: events) = (w.step e).run events := rfl

theorem run_append (w : World ρ) (before after : List (Event ρ)) :
    w.run (before ++ after) = (w.run before).run after :=
  List.foldl_append

/-- Whether some cancellations leave a dispatch cancelled. -/
def cancelledBy (w : World ρ) (t : Task ρ) (i : Nat) (cs : List Cancellation) : Bool :=
  t.isAbandoned || decide (.handle i ∈ cs) ||
    t.scope.any (Scope.isCancelled (w.cancelled ++ cs.filterMap Cancellation.scope?))

theorem isTaskCancelled_eq {w' : World ρ} {cs : List Cancellation} {phase : Phase ρ}
    (htask : w'.tasks[i]? = some { t with
      isAbandoned := t.isAbandoned || decide (.handle i ∈ cs), phase })
    (hcancelled : w'.cancelled = w.cancelled ++ cs.filterMap Cancellation.scope?) :
    w'.isTaskCancelled i = w.cancelledBy t i cs := by
  rw [isTaskCancelled, htask, Option.any_some, cancelledBy, ← hcancelled]
  rfl

theorem foldl_cancel_isTaskCancelled (h : w.tasks[i]? = some t) (cs : List Cancellation) :
    (cs.foldl cancel w).isTaskCancelled i = w.cancelledBy t i cs := by
  have htask := foldl_cancel_tasks (w := w) cs i
  rw [h] at htask
  exact isTaskCancelled_eq htask (foldl_cancel_cancelled cs)

/-- An event cancels a dispatch by what it cancels. -/
theorem step_isTaskCancelled (h : w.tasks[i]? = some t) (e : Event ρ) :
    (w.step e).isTaskCancelled i = w.cancelledBy t i e.cancellations := by
  obtain ⟨phase, acts, results, -, htask, -⟩ := step_moves e h
  exact isTaskCancelled_eq htask (step_cancelled e)

/-- A dispatch stays the same but for its phase and its handle. -/
theorem run_task (h : w.tasks[i]? = some t) (events : List (Event ρ)) :
    ∃ phase, (w.run events).tasks[i]? = some { t with
      isAbandoned := t.isAbandoned || decide (.handle i ∈ events.flatMap Event.cancellations)
      phase } := by
  induction events generalizing w t with
  | nil => exact ⟨t.phase, by simp [h]⟩
  | cons e events ih =>
    obtain ⟨phase, acts, results, -, htask, -⟩ := step_moves e h
    obtain ⟨phase', hrun⟩ := ih htask
    refine ⟨phase', ?_⟩
    rw [run_cons, hrun]
    simp [moved, Bool.or_assoc]

theorem run_cancelled (events : List (Event ρ)) :
    (w.run events).cancelled =
      w.cancelled ++ (events.flatMap Event.cancellations).filterMap Cancellation.scope? := by
  induction events generalizing w with
  | nil => simp
  | cons e events ih => simp [ih, step_cancelled]

/-- The events of a run cancel a dispatch by what they cancel. -/
theorem run_isTaskCancelled (h : w.tasks[i]? = some t) (events : List (Event ρ)) :
    (w.run events).isTaskCancelled i = w.cancelledBy t i (events.flatMap Event.cancellations) := by
  obtain ⟨phase, htask⟩ := run_task h events
  exact isTaskCancelled_eq htask (run_cancelled events)

/-- A dispatch that is cancelled stays so. -/
theorem isTaskCancelled_run (h : w.isTaskCancelled i = true) (events : List (Event ρ)) :
    (w.run events).isTaskCancelled i = true := by
  cases htask : w.tasks[i]? with
  | none =>
    rw [isTaskCancelled, htask] at h
    cases h
  | some t =>
    rw [run_isTaskCancelled htask]
    rw [← run_nil w, run_isTaskCancelled htask] at h
    simp only [cancelledBy, Bool.or_eq_true, decide_eq_true_eq, Option.any_eq_true] at h ⊢
    rcases h with (h | h) | ⟨s, hs, h⟩
    · exact .inl (.inl h)
    · cases h
    · refine .inr ⟨s, hs, ?_⟩
      simp only [Scope.isCancelled, List.flatMap_nil, List.filterMap_nil, List.append_nil,
        List.any_append, Bool.or_eq_true] at h ⊢
      exact .inl h

theorem isTaskCancelled_step (h : w.isTaskCancelled i = true) (e : Event ρ) :
    (w.step e).isTaskCancelled i = true :=
  isTaskCancelled_run h [e]

/-! ## After the end -/

/-- An event lets nothing more be seen of a cancelled dispatch. -/
theorem step_of_cancelled (h : w.isTaskCancelled i = true) (e : Event ρ) :
    (w.step e).acts i = w.acts i ∧ (w.step e).settlements i = w.settlements i := by
  cases htask : w.tasks[i]? with
  | none =>
    rw [isTaskCancelled, htask] at h
    cases h
  | some t =>
    obtain ⟨phase, acts, results, hmoves, -, hacts, hresults⟩ := step_moves e htask
    rw [hacts, hresults]
    cases hmoves with
    | waited | finished | dropped => exact ⟨List.append_nil _, List.append_nil _⟩
    | advanced _ hcancelled | overtaken _ hcancelled | settled _ hcancelled =>
      rw [h] at hcancelled
      cases hcancelled

/-- Nothing more is seen of a dispatch once it is cancelled. -/
theorem run_of_cancelled (h : w.isTaskCancelled i = true) (events : List (Event ρ)) :
    (w.run events).acts i = w.acts i ∧ (w.run events).settlements i = w.settlements i := by
  induction events generalizing w with
  | nil => exact ⟨rfl, rfl⟩
  | cons e events ih =>
    obtain ⟨hacts, hresults⟩ := step_of_cancelled h e
    have hstep := isTaskCancelled_step h e
    rw [run_cons, (ih hstep).1, (ih hstep).2]
    exact ⟨hacts, hresults⟩

/-- Nothing more is seen of a dispatch once it has finished. -/
theorem run_of_finished (h : w.tasks[i]? = some t) (hfinished : isFinished t.phase = true)
    (events : List (Event ρ)) :
    (w.run events).acts i = w.acts i ∧ (w.run events).settlements i = w.settlements i := by
  induction events generalizing w t with
  | nil => exact ⟨rfl, rfl⟩
  | cons e events ih =>
    obtain ⟨phase, acts, results, hmoves, htask, hacts, hresults⟩ := step_moves e h
    cases hmoves with
    | waited =>
      have hphase : t.phase.hearing i e = t.phase := by
        cases hp : t.phase with
        | running => rw [hp] at hfinished; cases hfinished
        | settled | dropped => rfl
      have := ih htask (by rw [moved, hphase]; exact hfinished)
      rw [run_cons, this.1, this.2, hacts, hresults]
      exact ⟨List.append_nil _, List.append_nil _⟩
    | finished =>
      have := ih htask hfinished
      rw [run_cons, this.1, this.2, hacts, hresults]
      exact ⟨List.append_nil _, List.append_nil _⟩
    | dropped hp | advanced hp | overtaken hp | settled hp =>
      rw [hp] at hfinished
      cases hfinished

/-- A dispatch settles at most once more. -/
theorem run_settlements (h : w.tasks[i]? = some t) (events : List (Event ρ)) :
    (w.run events).settlements i = w.settlements i ∨
      ∃ result, (w.run events).settlements i = w.settlements i ++ [result] := by
  induction events generalizing w t with
  | nil => exact .inl rfl
  | cons e events ih =>
    obtain ⟨phase, acts, results, hmoves, htask, -, hresults⟩ := step_moves e h
    cases hmoves with
    | settled =>
      have hrest := (run_of_finished htask rfl events).2
      rw [hresults] at hrest
      exact .inr ⟨_, hrest⟩
    | waited | finished | dropped | advanced | overtaken =>
      rw [List.append_nil] at hresults
      rw [run_cons, ← hresults]
      exact ih htask

/-! ## Before the start -/

/-- A dispatch that is not polled does nothing. -/
theorem run_unpolled {events : List (Event ρ)} (h : w.tasks[i]? = some t)
    (hevents : ∀ a m, .poll i a m ∉ events) : (w.run events).acts i = w.acts i := by
  induction events generalizing w t with
  | nil => rfl
  | cons e events ih =>
    have he : ∀ a m, e ≠ .poll i a m := fun a m he => hevents a m (he ▸ .head _)
    obtain ⟨htask, hacts, -⟩ := step_waited e h he
    rw [run_cons, ih htask fun a m hmem => hevents a m (.tail _ hmem), hacts]

/-- An event lets nothing be seen of a dispatch that there is not yet. -/
theorem step_unspawned (e : Event ρ) (hi : w.tasks[i]? = none) :
    (w.step e).acts i = w.acts i ∧ (w.step e).settlements i = w.settlements i := by
  cases e with
  | poll j a m =>
    by_cases hj : j = i
    · subst hj
      have hpoll : w.poll j a m = m.foldl cancel w := by simp only [poll, hi]
      rw [step, hpoll]
      exact ⟨foldl_cancel_acts m, foldl_cancel_settlements m⟩
    · exact poll_other a m hj
  | cancel what => exact ⟨foldl_cancel_acts [what], foldl_cancel_settlements [what]⟩
  | configure | reset | spawn | deliver => exact ⟨rfl, rfl⟩

/-- Nothing is seen of a dispatch before it is spawned. -/
theorem run_absent (events : List (Event ρ)) (h : (w.run events).tasks[i]? = none) :
    w.tasks[i]? = none ∧ (w.run events).acts i = w.acts i ∧
      (w.run events).settlements i = w.settlements i := by
  induction events generalizing w with
  | nil => exact ⟨h, rfl, rfl⟩
  | cons e events ih =>
    obtain ⟨hstep, hacts, hresults⟩ := ih h
    cases hw : w.tasks[i]? with
    | none =>
      obtain ⟨hacts', hresults'⟩ := step_unspawned e hw
      exact ⟨rfl, hacts.trans hacts', hresults.trans hresults'⟩
    | some t =>
      obtain ⟨phase, acts, results, -, htask, -⟩ := step_moves e hw
      rw [hstep] at htask
      cases htask

/-- What is new after an event was spawned by it. -/
theorem exists_spawn_of_step {e : Event ρ} (hw : w.tasks[i]? = none)
    (h : (w.step e).tasks[i]? = some t) :
    ∃ (α : Type) (client : Client) (scope : Option Scope) (call : Call) (codec : Json.Codec α)
      (settle : Except ApiError α → ρ), e = .spawn client scope call codec settle ∧
      i = w.tasks.length := by
  have hcancel (cs : List Cancellation) : (cs.foldl cancel w).tasks[i]? = none := by
    rw [foldl_cancel_tasks, hw]
    rfl
  cases e with
  | spawn client scope call codec settle =>
    refine ⟨_, client, scope, call, codec, settle, rfl, ?_⟩
    have hlt : i < (w.step (.spawn client scope call codec settle)).tasks.length :=
      (List.getElem?_eq_some_iff.1 h).1
    have hle : w.tasks.length ≤ i := List.getElem?_eq_none_iff.1 hw
    simp only [step, List.length_append, List.length_singleton] at hlt
    omega
  | poll j a m =>
    rcases w.poll_effect j a m with heffect | ⟨phase, notes, heffect, -⟩
    · rw [step, heffect, hcancel m] at h
      cases h
    · have hnone : (((m.foldl cancel w).noting notes).setPhase j phase).tasks[i]? = none := by
        simp only [setPhase, List.getElem?_modify]
        show _ <$> (m.foldl cancel w).tasks[i]? = none
        rw [hcancel m]
        rfl
      rw [step, heffect, hnone] at h
      cases h
  | cancel what =>
    rw [show w.step (.cancel what) = [what].foldl cancel w from rfl, hcancel] at h
    cases h
  | deliver j back =>
    simp only [step, deliver, List.getElem?_modify, hw] at h
    cases h
  | configure | reset =>
    rw [show (w.step _).tasks = w.tasks from rfl, hw] at h
    cases h

/-- Every dispatch was spawned by some event. -/
theorem exists_spawn {events : List (Event ρ)} (hw : w.tasks[i]? = none)
    (h : (w.run events).tasks[i]? = some t) :
    ∃ (α : Type) (client : Client) (scope : Option Scope) (call : Call) (codec : Json.Codec α)
      (settle : Except ApiError α → ρ) (before after : List (Event ρ)),
      events = before ++ .spawn client scope call codec settle :: after ∧
      i = (w.run before).tasks.length := by
  induction events generalizing w with
  | nil =>
    rw [run_nil, hw] at h
    cases h
  | cons e events ih =>
    cases hstep : (w.step e).tasks[i]? with
    | some t' =>
      obtain ⟨α, client, scope, call, codec, settle, rfl, hi⟩ := exists_spawn_of_step hw hstep
      exact ⟨α, client, scope, call, codec, settle, [], events, rfl, hi⟩
    | none =>
      obtain ⟨α, client, scope, call, codec, settle, before, after, rfl, hi⟩ := ih hstep h
      exact ⟨α, client, scope, call, codec, settle, e :: before, after, rfl, hi⟩

end World

end FinanceGateway
