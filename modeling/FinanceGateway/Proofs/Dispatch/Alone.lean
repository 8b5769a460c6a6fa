import FinanceGateway.Proofs.Dispatch.Runs
import FinanceGateway.Proofs.Dispatch.Turns

/-!
# Dispatches in company and alone

`Execution.alone` is what becomes of the execution of a dispatch that takes part in the events of a
run with no other dispatch around and with nothing to cancel it. In company a dispatch does a part
of that and nothing else (`World.run_acts`), and all of it unless it is cancelled
(`World.run_of_uncancelled`). So what a dispatch can do is found by looking at its execution alone:
what is made of its result makes no difference (`Execution.alone_map`).
-/

namespace FinanceGateway

variable {ρ σ : Type}

/-! ## Alone -/

namespace Execution

variable {i : Nat} {client : Client}

/-- An event as an execution takes it that nothing cancels. -/
def onEvent (i : Nat) (active : Option Provider) (execution : Execution σ) (e : Event ρ) :
    Execution σ × List Act :=
  match e with
  | .poll j atOnce _ => if j = i then execution.poll active atOnce else (execution, [])
  | e => (execution.hearing i e, [])

/-- What becomes of the execution of a dispatch that takes part in the events alone, and what it
does. -/
def alone (i : Nat) (client : Client) :
    Slots → Execution σ → List (Event ρ) → Execution σ × List Act
  | _, execution, [] => (execution, [])
  | slots, execution, e :: events =>
    let now := execution.onEvent i (client.provider slots) e
    let later := alone i client (e.slots slots) now.1 events
    (later.1, now.2 ++ later.2)

/-- An event that is no poll of the dispatch is heard. -/
theorem onEvent_of_not_poll {e : Event ρ} (he : ∀ a m, e ≠ .poll i a m) (active : Option Provider)
    (execution : Execution σ) : execution.onEvent i active e = (execution.hearing i e, []) := by
  cases e with
  | poll j a m =>
    have hj : j ≠ i := fun hj => he a m (hj ▸ rfl)
    exact if_neg hj
  | _ => rfl

theorem onEvent_poll (a : Option TokenAnswer) (m : List Cancellation) (active : Option Provider)
    (execution : Execution σ) :
    execution.onEvent i active (.poll (ρ := ρ) i a m) = execution.poll active a :=
  if_pos rfl

/-- What comes back changes only an execution that waits for it, which keeps it. -/
theorem deliver_cases (execution : Execution σ) (back : Return) :
    execution.deliver back = execution ∨
      ∃ plan rest, execution = waiting plan none ∧ plan.resume? back = some rest ∧
        execution.deliver back = waiting plan (some back) := by
  cases execution with
  | fresh | complete => exact .inl rfl
  | waiting plan held =>
    cases held with
    | some => exact .inl rfl
    | none =>
      cases hrest : plan.resume? back with
      | none => exact .inl (if_neg (by simp [hrest]))
      | some rest => exact .inr ⟨plan, rest, rfl, hrest, if_pos (by simp [hrest])⟩

/-- Hearing completes nothing. -/
theorem hearing_ne_complete {execution : Execution σ} (h : ∀ r, execution ≠ .complete r)
    (e : Event ρ) (r : σ) : execution.hearing i e ≠ .complete r := by
  have hdeliver (back : Return) : execution.deliver back ≠ .complete r := by
    rcases execution.deliver_cases back with hsame | ⟨plan, rest, -, -, hkept⟩
    · rw [hsame]
      exact h r
    · rw [hkept]
      nofun
  cases e with
  | deliver j back =>
    simp only [hearing]
    split
    · exact hdeliver back
    · exact h r
  | _ => exact h r

/-- What is complete stays so, and does nothing. -/
theorem alone_complete (slots : Slots) (r : σ) (events : List (Event ρ)) :
    (complete r).alone i client slots events = (complete r, []) := by
  induction events generalizing slots with
  | nil => rfl
  | cons e events ih =>
    have hnow : (complete r).onEvent i (client.provider slots) e = (complete r, []) := by
      cases e with
      | poll j a m =>
        simp only [onEvent]
        split <;> rfl
      | deliver j back =>
        simp only [onEvent, hearing]
        split <;> rfl
      | _ => rfl
    simp only [alone, hnow, ih]
    rfl

/-! ## Where it stands -/

/-- What comes back for a plan is a turn of it. -/
theorem reaches_of_resume? {plan rest : Plan σ} {back : Return}
    (h : plan.resume? back = some rest) : ∃ turn, plan.Reaches [turn] rest := by
  cases plan <;> cases back <;> cases h
  · exact ⟨_, .ask .start⟩
  · exact ⟨_, .send .start⟩
  · exact ⟨_, .sendAll .start⟩

/-- An execution stands where partial runs of its plan lead. -/
def StandsIn (start : Option Provider → Plan σ) : Execution σ → Prop
  | fresh start' => start' = start
  | waiting plan _ => ∃ active turns, (start active).Reaches turns plan
  | complete r => ∃ active turns, (start active).Reaches turns (.done r)

variable {start : Option Provider → Plan σ}

theorem StandsIn.advance {active : Option Provider} {turns : List Turn} {plan : Plan σ}
    (h : (start active).Reaches turns plan) (a : Option TokenAnswer) :
    StandsIn start (plan.advance a).1 := by
  induction plan generalizing turns a with
  | done r =>
    cases a <;> exact ⟨active, turns, h⟩
  | send request next =>
    cases a <;> exact ⟨active, turns, h⟩
  | sendAll requests next =>
    cases a <;> exact ⟨active, turns, h⟩
  | ask provider next ih =>
    cases a with
    | none => exact ⟨active, turns, h⟩
    | some answer => exact ih answer (h.trans (.ask .start)) none

theorem StandsIn.goOn {active : Option Provider} {turns : List Turn} {plan : Plan σ}
    (h : (start active).Reaches turns plan) (a : Option TokenAnswer) (back : Return) :
    StandsIn start (Execution.goOn a plan back).1 := by
  unfold Execution.goOn
  split
  · next rest hrest =>
    obtain ⟨turn, hturn⟩ := reaches_of_resume? hrest
    exact .advance (h.trans hturn) a
  · exact ⟨active, turns, h⟩

theorem StandsIn.poll {execution : Execution σ} (h : StandsIn start execution)
    (active : Option Provider) (a : Option TokenAnswer) :
    StandsIn start (execution.poll active a).1 := by
  cases execution with
  | fresh start' =>
    cases h
    exact .advance .start a
  | complete r => exact h
  | waiting plan held =>
    obtain ⟨active', turns, hplan⟩ := h
    cases held with
    | some back => exact .goOn hplan a back
    | none =>
      cases a with
      | none => exact ⟨active', turns, hplan⟩
      | some answer => exact .goOn hplan none _

theorem StandsIn.onEvent {execution : Execution σ} (h : StandsIn start execution)
    (active : Option Provider) (e : Event ρ) : StandsIn start (execution.onEvent i active e).1 := by
  have hdeliver (back : Return) : StandsIn start (execution.deliver back) := by
    rcases execution.deliver_cases back with hsame | ⟨plan, rest, rfl, -, hkept⟩
    · exact hsame.symm ▸ h
    · exact hkept.symm ▸ h
  cases e with
  | poll j a m =>
    simp only [Execution.onEvent]
    split
    · exact h.poll active a
    · exact h
  | deliver j back =>
    simp only [Execution.onEvent, hearing]
    split
    · exact hdeliver back
    · exact h
  | _ => exact h

/-- Alone, an execution comes to where partial runs of its plan lead. -/
theorem StandsIn.alone {execution : Execution σ} (h : StandsIn start execution) (slots : Slots)
    (events : List (Event ρ)) : StandsIn start (execution.alone i client slots events).1 := by
  induction events generalizing execution slots with
  | nil => exact h
  | cons e events ih => exact ih (h.onEvent _ e) _

/-! ## What is made of a result -/

/-- An execution with something made of its result. -/
def map (f : σ → ρ) : Execution σ → Execution ρ
  | fresh start => fresh fun active => (start active).bind fun r => .done (f r)
  | waiting plan back => waiting (plan.bind fun r => .done (f r)) back
  | complete r => complete (f r)

variable {f : σ → ρ}

theorem resume?_map (plan : Plan σ) (back : Return) :
    (plan.bind fun r => .done (f r)).resume? back =
      (plan.resume? back).map fun rest => rest.bind fun r => .done (f r) := by
  cases plan <;> cases back <;> rfl

theorem advance_map (a : Option TokenAnswer) (plan : Plan σ) :
    (plan.bind fun r => .done (f r)).advance a =
      (map f (plan.advance a).1, (plan.advance a).2) := by
  induction plan generalizing a with
  | done r => cases a <;> rfl
  | send request next => cases a <;> rfl
  | sendAll requests next => cases a <;> rfl
  | ask provider next ih =>
    cases a with
    | none => rfl
    | some answer => simp only [Plan.bind, Plan.advance, ih]

theorem deliver_map (back : Return) (execution : Execution σ) :
    (map f execution).deliver back = map f (execution.deliver back) := by
  cases execution with
  | fresh | complete => rfl
  | waiting plan held =>
    cases held with
    | some => rfl
    | none =>
      simp only [map, deliver, resume?_map, Option.isSome_map]
      split <;> rfl

theorem goOn_map (a : Option TokenAnswer) (plan : Plan σ) (back : Return) :
    goOn a (plan.bind fun r => .done (f r)) back =
      (map f (goOn a plan back).1, (goOn a plan back).2) := by
  simp only [goOn, resume?_map]
  cases plan.resume? back with
  | none => rfl
  | some rest => exact advance_map a rest

theorem poll_map (active : Option Provider) (a : Option TokenAnswer) (execution : Execution σ) :
    (map f execution).poll active a =
      (map f (execution.poll active a).1, (execution.poll active a).2) := by
  cases execution with
  | fresh start => exact advance_map a (start active)
  | complete r => rfl
  | waiting plan held =>
    cases held with
    | some back => exact goOn_map a plan back
    | none =>
      cases a with
      | none => rfl
      | some answer => exact goOn_map none plan (.token answer)

theorem onEvent_map {τ : Type} (active : Option Provider) (execution : Execution σ) (e : Event τ) :
    (map f execution).onEvent i active e =
      (map f (execution.onEvent i active e).1, (execution.onEvent i active e).2) := by
  cases e with
  | poll j a m =>
    simp only [onEvent]
    split
    · exact poll_map active a execution
    · rfl
  | deliver j back =>
    simp only [onEvent, hearing]
    split
    · rw [deliver_map]
    · rfl
  | _ => rfl

/-- What is made of the result of an execution makes no difference for what it does. -/
theorem alone_map {τ : Type} (slots : Slots) (execution : Execution σ) (events : List (Event τ)) :
    (map f execution).alone i client slots events =
      (map f (execution.alone i client slots events).1,
        (execution.alone i client slots events).2) := by
  induction events generalizing slots execution with
  | nil => rfl
  | cons e events ih => simp only [alone, onEvent_map, ih]

end Execution

/-! ## In company -/

namespace World

variable {w : World ρ} {i : Nat} {t : Task ρ} {execution : Execution ρ}

/-- An event takes a dispatch on as it does alone, settles it with the result that it has alone, or
drops it because it is cancelled. -/
theorem step_alone (e : Event ρ) (h : w.tasks[i]? = some t)
    (hrunning : t.phase = .running execution) (hincomplete : ∀ r, execution ≠ .complete r) :
    ∃ phase acts results, (w.step e).tasks[i]? = some (moved t i e phase) ∧
      (w.step e).acts i = w.acts i ++ acts ∧
      (w.step e).settlements i = w.settlements i ++ results ∧
      ((phase = .running (execution.onEvent i (t.client.provider w.slots) e).1 ∧
          acts = (execution.onEvent i (t.client.provider w.slots) e).2 ∧ results = [] ∧
          ∀ r, (execution.onEvent i (t.client.provider w.slots) e).1 ≠ .complete r) ∨
        (∃ r, execution.onEvent i (t.client.provider w.slots) e = (.complete r, acts) ∧
          phase = .settled r ∧ results = [r]) ∨
        (phase = .dropped ∧ acts <+: (execution.onEvent i (t.client.provider w.slots) e).2 ∧
          results = [] ∧ (w.step e).isTaskCancelled i = true)) := by
  obtain ⟨phase, acts, results, hmoves, htask, hacts, hresults⟩ := step_moves e h
  refine ⟨phase, acts, results, htask, hacts, hresults, ?_⟩
  cases hmoves with
  | waited he =>
    rw [Execution.onEvent_of_not_poll he, hrunning]
    exact .inl ⟨rfl, rfl, rfl, Execution.hearing_ne_complete hincomplete e⟩
  | finished hfinished =>
    rw [hrunning] at hfinished
    cases hfinished
  | dropped _ hcancelled =>
    exact .inr (.inr ⟨rfl, List.nil_prefix, rfl, isTaskCancelled_step hcancelled _⟩)
  | advanced hp _ hnext hgoes =>
    rw [hrunning] at hp
    cases hp
    rw [Execution.onEvent_poll, hnext]
    exact .inl ⟨rfl, rfl, rfl, hgoes⟩
  | overtaken hp _ hnext hcancelled =>
    rw [hrunning] at hp
    cases hp
    rw [Execution.onEvent_poll, hnext]
    rw [foldl_cancel_isTaskCancelled h] at hcancelled
    exact .inr (.inr ⟨rfl, List.prefix_refl _, rfl, (step_isTaskCancelled h _).trans hcancelled⟩)
  | settled hp _ hnext _ =>
    rw [hrunning] at hp
    cases hp
    rw [Execution.onEvent_poll, hnext]
    exact .inr (.inl ⟨_, rfl, rfl, rfl⟩)

/-- In company a dispatch does a part of what it does alone. -/
theorem run_acts (h : w.tasks[i]? = some t) (hrunning : t.phase = .running execution)
    (hincomplete : ∀ r, execution ≠ .complete r) (events : List (Event ρ)) :
    ∃ acts, (w.run events).acts i = w.acts i ++ acts ∧
      acts <+: (execution.alone i t.client w.slots events).2 := by
  induction events generalizing w t execution with
  | nil => exact ⟨[], (List.append_nil _).symm, List.nil_prefix⟩
  | cons e events ih =>
    obtain ⟨phase, acts, results, htask, hacts, -, hcases⟩ :=
      step_alone e h hrunning hincomplete
    -- once it has finished, what it has done stays
    have hstop (hfinished : isFinished phase = true)
        (hpart : acts <+: (execution.onEvent i (t.client.provider w.slots) e).2) :
        ∃ acts, (w.run (e :: events)).acts i = w.acts i ++ acts ∧
          acts <+: (execution.alone i t.client w.slots (e :: events)).2 := by
      refine ⟨acts, ?_, hpart.trans (List.prefix_append _ _)⟩
      rw [run_cons, (run_of_finished htask hfinished events).1, hacts]
    rcases hcases with ⟨rfl, rfl, -, hgoes⟩ | ⟨r, hnow, rfl, -⟩ | ⟨rfl, hpart, -, -⟩
    · obtain ⟨later, hlater, hpart⟩ := ih htask rfl hgoes
      rw [step_slots] at hpart
      refine ⟨_, ?_, List.prefix_append_right_inj _ |>.2 hpart⟩
      rw [run_cons, hlater, hacts, List.append_assoc]
    · rw [hnow] at hstop
      exact hstop rfl List.prefix_rfl
    · exact hstop rfl hpart

/-- In company a dispatch that is not cancelled does all that it does alone, and settles with the
result that it has alone. -/
theorem run_of_uncancelled (h : w.tasks[i]? = some t) (hrunning : t.phase = .running execution)
    (hincomplete : ∀ r, execution ≠ .complete r) (events : List (Event ρ))
    (hcancelled : (w.run events).isTaskCancelled i = false) :
    (w.run events).acts i = w.acts i ++ (execution.alone i t.client w.slots events).2 ∧
      ∀ r, (execution.alone i t.client w.slots events).1 = .complete r →
        (w.run events).settlements i = w.settlements i ++ [r] := by
  induction events generalizing w t execution with
  | nil => exact ⟨(List.append_nil _).symm, fun r hr => absurd hr (hincomplete r)⟩
  | cons e events ih =>
    obtain ⟨phase, acts, results, htask, hacts, hresults, hcases⟩ :=
      step_alone e h hrunning hincomplete
    rcases hcases with ⟨rfl, rfl, rfl, hgoes⟩ | ⟨r, hnow, rfl, rfl⟩ | ⟨-, -, -, hdropped⟩
    · obtain ⟨hlater, hsettles⟩ := ih htask rfl hgoes hcancelled
      rw [step_slots] at hlater hsettles
      rw [List.append_nil] at hresults
      refine ⟨?_, fun r hr => ?_⟩
      · rw [run_cons, hlater, hacts, List.append_assoc]
        rfl
      · rw [run_cons, hsettles r hr, hresults]
    · obtain ⟨hlater, hsettles⟩ := run_of_finished htask rfl events
      simp only [Execution.alone, hnow, Execution.alone_complete, List.append_nil]
      refine ⟨hlater.trans hacts, fun r' hr' => ?_⟩
      cases hr'
      exact hsettles.trans hresults
    · have := isTaskCancelled_run hdropped events
      rw [run_cons, this] at hcancelled
      cases hcancelled

end World

/-! ## Dispatched calls -/

/-- The execution of a call that a client has dispatched. -/
def Client.dispatch {α : Type} (client : Client) (call : Call) (codec : Json.Codec α) :
    Execution (Except ApiError α) :=
  .fresh fun provider => execute client.base provider call codec

namespace World

variable {α : Type} {w : World ρ} {client : Client} {scope : Option Scope} {call : Call}
  {codec : Json.Codec α} {settle : Except ApiError α → ρ}

/-- A dispatch that has just been spawned. -/
theorem step_spawn_tasks :
    (w.step (.spawn client scope call codec settle)).tasks[w.tasks.length]? = some
      { client, scope, phase := .running ((client.dispatch call codec).map settle) } :=
  List.getElem?_concat_length

/-- A run from a spawn on starts in a world with the dispatch at its start, of which nothing is
seen yet. -/
theorem exists_spawned (before : List (Event ρ)) (client : Client) (scope : Option Scope)
    (call : Call) (codec : Json.Codec α) (settle : Except ApiError α → ρ) :
    ∃ w : World ρ,
      (∀ events, run {} (before ++ .spawn client scope call codec settle :: events) =
        w.run events) ∧
      w.tasks[(run ({} : World ρ) before).tasks.length]? = some
        { client, scope, phase := .running ((client.dispatch call codec).map settle) } ∧
      w.acts (run ({} : World ρ) before).tasks.length = [] ∧
      w.settlements (run ({} : World ρ) before).tasks.length = [] ∧
      w.slots = (run {} before).slots ∧ w.cancelled = (run {} before).cancelled := by
  have habsent := List.getElem?_eq_none (Nat.le_refl (run ({} : World ρ) before).tasks.length)
  obtain ⟨hacts, hsettlements⟩ := (run_absent before habsent).2
  exact ⟨(run {} before).step (.spawn client scope call codec settle), fun _ => run_append _ _ _,
    step_spawn_tasks, hacts, hsettlements, rfl, rfl⟩

end World

end FinanceGateway
