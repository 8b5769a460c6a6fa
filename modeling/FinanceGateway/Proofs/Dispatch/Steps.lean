import FinanceGateway.Dispatch.World
import Mathlib

/-!
# What one event does

A world is looked at from the place of one dispatch: what it was seen to do (`World.acts`), what it
has settled with (`World.settlements`), and how far it has come. `Moves` lists all that one event
can do to a dispatch, and `step_moves` says that every event does one of these and that the acts and
settlements of the dispatch grow by exactly what is listed. Slots, scopes and abandoned handles
depend on the events alone (`step_slots`, `step_cancelled`). Everything about runs rests on these.
-/

namespace FinanceGateway

variable {ρ σ : Type}

/-! ## Events -/

namespace Event

/-- The slots after an event. -/
def slots (slots : Slots) : Event ρ → Slots
  | configure client provider => (client.configure provider slots).1
  | reset client => client.reset slots
  | _ => slots

/-- What an event cancels. -/
def cancellations : Event ρ → List Cancellation
  | cancel what => [what]
  | poll _ _ meanwhile => meanwhile
  | _ => []

/-- How many dispatches an event spawns. -/
def spawned : Event ρ → Nat
  | spawn .. => 1
  | _ => 0

end Event

/-- The scope that a cancellation names. -/
def Cancellation.scope? : Cancellation → Option Scope
  | scope s => some s
  | handle _ => none

/-- The execution of a dispatch after an event that does not poll it. -/
def Execution.hearing (i : Nat) (e : Event ρ) (execution : Execution σ) : Execution σ :=
  match e with
  | .deliver j back => if j = i then execution.deliver back else execution
  | _ => execution

/-- How far a dispatch has come after an event that does not poll it. -/
def Phase.hearing (i : Nat) (e : Event ρ) : Phase ρ → Phase ρ
  | running execution => running (execution.hearing i e)
  | phase => phase

/-! ## What is seen of a dispatch -/

namespace Note

/-- What a note says that a dispatch did. -/
def act? (i : Nat) : Note ρ → Option Act
  | did j act => if j = i then some act else none
  | settled .. => none

/-- What a note says that a dispatch settled with. -/
def result? (i : Nat) : Note ρ → Option ρ
  | did .. => none
  | settled j result => if j = i then some result else none

end Note

namespace World

variable {w w' : World ρ} {i : Nat} {t t' : Task ρ}

/-- What a dispatch was seen to do. -/
def acts (w : World ρ) (i : Nat) : List Act :=
  w.notes.filterMap (Note.act? i)

/-- What a dispatch has settled with. -/
def settlements (w : World ρ) (i : Nat) : List ρ :=
  w.notes.filterMap (Note.result? i)

theorem mem_acts {act : Act} : act ∈ w.acts i ↔ Note.did i act ∈ w.notes := by
  simp only [acts, List.mem_filterMap]
  constructor
  · rintro ⟨note, hmem, hnote⟩
    cases note with
    | did j a =>
      simp only [Note.act?] at hnote
      split at hnote
      · next hj =>
        cases hnote
        exact hj ▸ hmem
      · cases hnote
    | settled => cases hnote
  · intro hmem
    exact ⟨_, hmem, by simp [Note.act?]⟩

theorem acts_noting (notes : List (Note ρ)) :
    (w.noting notes).acts i = w.acts i ++ notes.filterMap (Note.act? i) := by
  simp [acts, noting]

theorem settlements_noting (notes : List (Note ρ)) :
    (w.noting notes).settlements i = w.settlements i ++ notes.filterMap (Note.result? i) := by
  simp [settlements, noting]

/-- The acts of one dispatch are seen of that one. -/
theorem filterMap_did_self (acts : List Act) :
    (acts.map (Note.did (ρ := ρ) i)).filterMap (Note.act? i) = acts := by
  simp [List.filterMap_map, Function.comp_def, Note.act?]

theorem filterMap_did_other {j : Nat} (h : j ≠ i) (acts : List Act) :
    (acts.map (Note.did (ρ := ρ) j)).filterMap (Note.act? i) = [] := by
  simp [List.filterMap_map, Function.comp_def, Note.act?, h]

/-- Acts settle nothing. -/
theorem filterMap_did_result (j : Nat) (acts : List Act) :
    (acts.map (Note.did (ρ := ρ) j)).filterMap (Note.result? i) = [] := by
  simp [List.filterMap_map, Function.comp_def, Note.result?]

/-! ## Cancellations -/

/-- A cancellation is seen by nobody. -/
theorem foldl_cancel_notes (cs : List Cancellation) : (cs.foldl cancel w).notes = w.notes := by
  induction cs generalizing w with
  | nil => rfl
  | cons c cs ih =>
    rw [List.foldl_cons, ih]
    cases c <;> rfl

/-- A cancellation leaves the slots alone. -/
theorem foldl_cancel_slots (cs : List Cancellation) : (cs.foldl cancel w).slots = w.slots := by
  induction cs generalizing w with
  | nil => rfl
  | cons c cs ih =>
    rw [List.foldl_cons, ih]
    cases c <;> rfl

/-- The scopes that were cancelled by name, after some cancellations. -/
theorem foldl_cancel_cancelled (cs : List Cancellation) :
    (cs.foldl cancel w).cancelled = w.cancelled ++ cs.filterMap Cancellation.scope? := by
  induction cs generalizing w with
  | nil => simp
  | cons c cs ih =>
    rw [List.foldl_cons, ih]
    cases c with
    | scope s => simp [cancel, Cancellation.scope?]
    | handle j => rfl

/-- A cancellation by handle abandons the dispatch it names, and no other. -/
theorem foldl_cancel_tasks (cs : List Cancellation) (j : Nat) :
    (cs.foldl cancel w).tasks[j]? = (w.tasks[j]?).map fun t =>
      { t with isAbandoned := t.isAbandoned || decide (Cancellation.handle j ∈ cs) } := by
  induction cs generalizing w with
  | nil => simp
  | cons c cs ih =>
    rw [List.foldl_cons, ih]
    cases c with
    | scope s => simp [cancel]
    | handle k =>
      by_cases hk : k = j
      · subst hk
        simp [cancel, Function.comp_def]
      · simp [cancel, List.getElem?_modify_ne _ _ hk, Ne.symm hk]

theorem foldl_cancel_length (cs : List Cancellation) :
    (cs.foldl cancel w).tasks.length = w.tasks.length := by
  induction cs generalizing w with
  | nil => rfl
  | cons c cs ih =>
    rw [List.foldl_cons, ih]
    cases c with
    | scope s => rfl
    | handle j => exact List.length_modify _ _ _

theorem foldl_cancel_acts (cs : List Cancellation) : (cs.foldl cancel w).acts i = w.acts i := by
  rw [acts, foldl_cancel_notes, acts]

theorem foldl_cancel_settlements (cs : List Cancellation) :
    (cs.foldl cancel w).settlements i = w.settlements i := by
  rw [settlements, foldl_cancel_notes, settlements]

/-! ## Steps -/

theorem noting_nil (w : World ρ) : w.noting [] = w := by
  rw [noting, List.append_nil]

theorem noting_noting (notes more : List (Note ρ)) :
    (w.noting notes).noting more = w.noting (notes ++ more) := by
  simp [noting]

theorem setPhase_tasks_self (phase : Phase ρ) :
    (w.setPhase i phase).tasks[i]? = (w.tasks[i]?).map fun t => { t with phase } :=
  List.getElem?_modify_eq _ _ _

theorem setPhase_tasks_other {j : Nat} (h : j ≠ i) (phase : Phase ρ) :
    (w.setPhase j phase).tasks[i]? = w.tasks[i]? :=
  List.getElem?_modify_ne _ _ h

/-- A poll cancels what is cancelled meanwhile, and otherwise touches one dispatch only. -/
theorem poll_effect (w : World ρ) (j : Nat) (a : Option TokenAnswer) (m : List Cancellation) :
    w.poll j a m = m.foldl cancel w ∨
    ∃ phase notes, w.poll j a m = ((m.foldl cancel w).noting notes).setPhase j phase ∧
      ∀ i, j ≠ i → notes.filterMap (Note.act? i) = [] ∧ notes.filterMap (Note.result? i) = [] := by
  simp only [poll]
  split
  · next client _ _ execution _ =>
    split
    · exact .inr ⟨.dropped, [], by rw [noting_nil], fun _ _ => ⟨rfl, rfl⟩⟩
    · have hacts (i : Nat) (hi : j ≠ i) (acts : List Act) :=
        And.intro (filterMap_did_other (ρ := ρ) hi acts)
          (filterMap_did_result (ρ := ρ) (i := i) j acts)
      obtain ⟨execution, acts⟩ := execution.poll (client.provider w.slots) a
      cases execution with
      | fresh | waiting =>
        exact .inr ⟨_, acts.map (.did j), rfl, fun i hi => hacts i hi acts⟩
      | complete result =>
        simp only [advance, settle]
        split
        · exact .inr ⟨_, acts.map (.did j), rfl, fun i hi => hacts i hi acts⟩
        · refine .inr ⟨.settled result, acts.map (.did j) ++ [.settled j result], ?_,
            fun i hi => ?_⟩
          · rw [← noting_noting]
            rfl
          · rw [List.filterMap_append, List.filterMap_append, (hacts i hi acts).1,
              (hacts i hi acts).2]
            simp [Note.act?, Note.result?, hi]
  · exact .inl rfl

/-- A poll lets nothing more be seen of any other dispatch. -/
theorem poll_other {j : Nat} (a : Option TokenAnswer) (m : List Cancellation) (h : j ≠ i) :
    (w.poll j a m).acts i = w.acts i ∧ (w.poll j a m).settlements i = w.settlements i := by
  rcases w.poll_effect j a m with heffect | ⟨phase, notes, heffect, hnotes⟩
  · rw [heffect]
    exact ⟨foldl_cancel_acts m, foldl_cancel_settlements m⟩
  · obtain ⟨hacts, hresults⟩ := hnotes i h
    have hnoting := acts_noting (w := m.foldl cancel w) (i := i) notes
    have hnoting' := settlements_noting (w := m.foldl cancel w) (i := i) notes
    rw [hacts, List.append_nil, foldl_cancel_acts] at hnoting
    rw [hresults, List.append_nil, foldl_cancel_settlements] at hnoting'
    rw [heffect]
    exact ⟨hnoting, hnoting'⟩

/-- The slots after an event do not depend on what goes on in the world. -/
theorem step_slots (e : Event ρ) : (w.step e).slots = e.slots w.slots := by
  cases e with
  | poll j a m =>
    have hafter := foldl_cancel_slots (w := w) m
    rcases w.poll_effect j a m with h | ⟨phase, notes, h, -⟩
    · rw [step, h, hafter]
      rfl
    · rw [step, h]
      exact hafter
  | cancel what => exact foldl_cancel_slots [what]
  | configure | reset | spawn | deliver => rfl

/-- The scopes that were cancelled by name, after an event. -/
theorem step_cancelled (e : Event ρ) :
    (w.step e).cancelled = w.cancelled ++ e.cancellations.filterMap Cancellation.scope? := by
  cases e with
  | poll j a m =>
    have hafter := foldl_cancel_cancelled (w := w) m
    rcases w.poll_effect j a m with h | ⟨phase, notes, h, -⟩
    · rw [step, h, hafter]
      rfl
    · rw [step, h]
      exact hafter
  | cancel what => exact foldl_cancel_cancelled [what]
  | configure | reset | spawn | deliver => exact (List.append_nil _).symm

/-- Only a spawn adds a dispatch. -/
theorem step_length (e : Event ρ) : (w.step e).tasks.length = w.tasks.length + e.spawned := by
  cases e with
  | spawn => exact List.length_append
  | poll j a m =>
    have hafter := foldl_cancel_length (w := w) m
    rcases w.poll_effect j a m with h | ⟨phase, notes, h, -⟩
    · rw [step, h, hafter]
      rfl
    · rw [step, h, setPhase, List.length_modify]
      exact hafter
  | cancel what => exact foldl_cancel_length [what]
  | deliver => exact List.length_modify _ _ _
  | configure | reset => rfl

/-- What one event can do to a dispatch: how far it comes, what it is seen to do, and what it
settles with. -/
inductive Moves (w : World ρ) (i : Nat) (t : Task ρ) : Event ρ → Phase ρ → List Act → List ρ → Prop
  | waited {e} : (∀ a m, e ≠ .poll i a m) → Moves w i t e (t.phase.hearing i e) [] []
  | finished {a m} : isFinished t.phase = true → Moves w i t (.poll i a m) t.phase [] []
  | dropped {a m execution} : t.phase = .running execution → w.isTaskCancelled i = true →
    Moves w i t (.poll i a m) .dropped [] []
  | advanced {a m execution next acts} : t.phase = .running execution →
    w.isTaskCancelled i = false →
    execution.poll (t.client.provider w.slots) a = (next, acts) → (∀ r, next ≠ .complete r) →
    Moves w i t (.poll i a m) (.running next) acts []
  /-- The execution is complete, but the cancellation came while it was polled. -/
  | overtaken {a m execution result acts} : t.phase = .running execution →
    w.isTaskCancelled i = false →
    execution.poll (t.client.provider w.slots) a = (.complete result, acts) →
    (m.foldl cancel w).isTaskCancelled i = true →
    Moves w i t (.poll i a m) .dropped acts []
  | settled {a m execution result acts} : t.phase = .running execution →
    w.isTaskCancelled i = false →
    execution.poll (t.client.provider w.slots) a = (.complete result, acts) →
    (m.foldl cancel w).isTaskCancelled i = false →
    Moves w i t (.poll i a m) (.settled result) acts [result]

/-- A dispatch in another phase, abandoned if the event cancels it by its handle. -/
def moved (t : Task ρ) (i : Nat) (e : Event ρ) (phase : Phase ρ) : Task ρ :=
  { t with isAbandoned := t.isAbandoned || decide (.handle i ∈ e.cancellations), phase }

/-- Only what is delivered for a dispatch changes it unless it is polled. -/
theorem hearing_eq_self {e : Event ρ} (he : ∀ back, e ≠ .deliver i back) (phase : Phase ρ) :
    phase.hearing i e = phase := by
  cases phase with
  | running execution =>
    cases e with
    | deliver j back =>
      have hj : j ≠ i := fun hj => he back (hj ▸ rfl)
      simp only [Phase.hearing, Execution.hearing, if_neg hj]
    | _ => rfl
  | settled | dropped => rfl

/-- An event that does not poll a dispatch lets nothing more be seen of it. -/
theorem step_waited (e : Event ρ) (h : w.tasks[i]? = some t) (he : ∀ a m, e ≠ .poll i a m) :
    (w.step e).tasks[i]? = some (moved t i e (t.phase.hearing i e)) ∧
      (w.step e).acts i = w.acts i ∧ (w.step e).settlements i = w.settlements i := by
  cases e with
  | poll j a m =>
    have hj : j ≠ i := fun hj => he a m (hj ▸ rfl)
    have htask := foldl_cancel_tasks (w := w) m i
    rw [h] at htask
    rw [hearing_eq_self (by simp)]
    refine ⟨?_, poll_other a m hj⟩
    rcases w.poll_effect j a m with heffect | ⟨phase, notes, heffect, -⟩
    · rw [step, heffect]
      exact htask
    · rw [step, heffect, setPhase_tasks_other hj]
      exact htask
  | cancel what =>
    have htask := foldl_cancel_tasks (w := w) [what] i
    rw [h] at htask
    rw [hearing_eq_self (by simp)]
    exact ⟨htask, foldl_cancel_acts [what], foldl_cancel_settlements [what]⟩
  | deliver j back =>
    refine ⟨?_, rfl, rfl⟩
    by_cases hj : j = i
    · subst hj
      obtain ⟨client, scope, isAbandoned, phase⟩ := t
      simp only [step, deliver, List.getElem?_modify_eq, h]
      cases phase <;> simp [moved, Phase.hearing, Execution.hearing, Event.cancellations]
    · rw [hearing_eq_self (fun back' h => hj (by cases h; rfl))]
      simp only [step, deliver, List.getElem?_modify_ne _ _ hj, h]
      simp [moved, Event.cancellations]
  | spawn client scope call codec settle =>
    rw [hearing_eq_self (by simp)]
    have hi : i < w.tasks.length := (List.getElem?_eq_some_iff.1 h).1
    simp only [step, List.getElem?_append_left hi, h]
    exact ⟨by simp [moved, Event.cancellations], rfl, rfl⟩
  | configure | reset =>
    rw [hearing_eq_self (by simp)]
    simp only [step, h]
    exact ⟨by simp [moved, Event.cancellations], rfl, rfl⟩

/-- A result that comes after a cancellation is dropped. -/
theorem settle_of_cancelled (h : w.isTaskCancelled i = true) (notes : List (Note ρ)) (result : ρ) :
    (w.noting notes).settle i result = (w.noting notes).setPhase i .dropped :=
  if_pos h

theorem settle_of_uncancelled (h : w.isTaskCancelled i = false) (notes : List (Note ρ))
    (result : ρ) : (w.noting notes).settle i result =
      (w.noting (notes ++ [.settled i result])).setPhase i (.settled result) := by
  rw [← noting_noting]
  exact if_neg (Bool.eq_false_iff.1 h)

/-- What a poll does to the dispatch that it polls. -/
theorem poll_moves (a : Option TokenAnswer) (m : List Cancellation) (h : w.tasks[i]? = some t) :
    ∃ phase acts results, Moves w i t (.poll i a m) phase acts results ∧
      (w.poll i a m).tasks[i]? = some (moved t i (.poll i a m) phase) ∧
      (w.poll i a m).acts i = w.acts i ++ acts ∧
      (w.poll i a m).settlements i = w.settlements i ++ results := by
  have htask := foldl_cancel_tasks (w := w) m i
  have hacts := foldl_cancel_acts (w := w) (i := i) m
  have hresults := foldl_cancel_settlements (w := w) (i := i) m
  rw [h] at htask
  generalize hafter : m.foldl cancel w = after at htask hacts hresults
  -- in each case the world is `after` with more notes and the dispatch in another phase
  have hmoved (phase : Phase ρ) (notes : List (Note ρ)) :
      ((after.noting notes).setPhase i phase).tasks[i]? = some (moved t i (.poll i a m) phase) ∧
      ((after.noting notes).setPhase i phase).acts i =
        w.acts i ++ notes.filterMap (Note.act? i) ∧
      ((after.noting notes).setPhase i phase).settlements i =
        w.settlements i ++ notes.filterMap (Note.result? i) := by
    refine ⟨?_, ?_, ?_⟩
    · rw [setPhase_tasks_self]
      show (after.tasks[i]?).map _ = _
      rw [htask]
      rfl
    · rw [← hacts]
      exact acts_noting notes
    · rw [← hresults]
      exact settlements_noting notes
  obtain ⟨client, scope, isAbandoned, phase⟩ := t
  cases phase with
  | settled | dropped =>
    have hpoll : w.poll i a m = after := by simp only [poll, h, hafter]
    rw [hpoll]
    exact ⟨_, [], [], .finished rfl, htask, by rw [hacts, List.append_nil],
      by rw [hresults, List.append_nil]⟩
  | running execution =>
    cases hcancelled : w.isTaskCancelled i with
    | true =>
      have hpoll : w.poll i a m = after.setPhase i .dropped := by
        simp only [poll, h, hafter, hcancelled, if_true]
      rw [hpoll, ← noting_nil after]
      exact ⟨_, [], [], .dropped rfl hcancelled, hmoved .dropped []⟩
    | false =>
      have hpoll : w.poll i a m =
          after.advance i (execution.poll (client.provider w.slots) a) := by
        simp only [poll, h, hafter, hcancelled, Bool.false_eq_true, if_false]
      obtain ⟨next, acts, hnext⟩ : ∃ next acts,
        execution.poll (client.provider w.slots) a = (next, acts) := ⟨_, _, rfl⟩
      have hself := filterMap_did_self (ρ := ρ) (i := i) acts
      have hnone := filterMap_did_result (ρ := ρ) (i := i) i acts
      rw [hpoll, hnext]
      cases next with
      | complete result =>
        cases hovertaken : after.isTaskCancelled i with
        | true =>
          have hall := hmoved .dropped (acts.map (.did i))
          rw [hself, hnone, ← settle_of_cancelled hovertaken] at hall
          exact ⟨_, _, _, .overtaken rfl hcancelled hnext (hafter ▸ hovertaken), hall⟩
        | false =>
          have hall := hmoved (.settled result) (acts.map (.did i) ++ [.settled i result])
          have hact : [Note.settled i result].filterMap (Note.act? i) = [] := rfl
          have hresult : [Note.settled i result].filterMap (Note.result? i) = [result] := by
            simp [Note.result?]
          rw [← settle_of_uncancelled hovertaken, List.filterMap_append, List.filterMap_append,
            hself, hnone, hact, hresult, List.append_nil, List.nil_append] at hall
          exact ⟨_, _, _, .settled rfl hcancelled hnext (hafter ▸ hovertaken), hall⟩
      | fresh | waiting =>
        have hall (next : Execution ρ) := hmoved (.running next) (acts.map (.did i))
        simp only [hself, hnone] at hall
        exact ⟨_, _, _, .advanced rfl hcancelled hnext nofun, hall _⟩

/-- Every event moves a dispatch in one of the ways listed, and what is seen of the dispatch grows
by what is listed. -/
theorem step_moves (e : Event ρ) (h : w.tasks[i]? = some t) :
    ∃ phase acts results, Moves w i t e phase acts results ∧
      (w.step e).tasks[i]? = some (moved t i e phase) ∧
      (w.step e).acts i = w.acts i ++ acts ∧
      (w.step e).settlements i = w.settlements i ++ results := by
  by_cases he : ∃ a m, e = .poll i a m
  · obtain ⟨a, m, rfl⟩ := he
    exact poll_moves a m h
  · have he' : ∀ a m, e ≠ .poll i a m := fun a m hpoll => he ⟨a, m, hpoll⟩
    obtain ⟨htask, hacts, hresults⟩ := step_waited e h he'
    exact ⟨_, [], [], .waited he', htask, by rw [hacts, List.append_nil],
      by rw [hresults, List.append_nil]⟩

/-- An event moves a dispatch in one way only, given how far it has come, what its client finds in
the slots, and who is cancelled. -/
theorem Moves.unique {e : Event ρ} {phase phase' : Phase ρ} {acts acts' : List Act}
    {results results' : List ρ} (h : Moves w i t e phase acts results)
    (h' : Moves w' i t' e phase' acts' results') (hphase : t'.phase = t.phase)
    (hclient : t'.client = t.client) (hslots : w'.slots = w.slots)
    (hcancelled : ∀ cs : List Cancellation,
      (cs.foldl cancel w').isTaskCancelled i = (cs.foldl cancel w).isTaskCancelled i) :
    phase' = phase ∧ acts' = acts ∧ results' = results := by
  have hnow := hcancelled []
  rw [List.foldl_nil, List.foldl_nil] at hnow
  cases h <;> cases h' <;> grind [isFinished]

end World

end FinanceGateway
