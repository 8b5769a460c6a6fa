import FinanceGateway.Proofs.Dispatch.Turns

/-!
# Plans side by side

Several plans go on side by side, one turn of one of them after another (`Plan.Interleaves`). Each
is led by what comes back to it alone (`Interleaves.reaches`), so the turns of different plans may
come in any order, and the plans go on as they did (`Interleaves.reorder`).
-/

namespace FinanceGateway

/-- A turn of one of several plans. -/
structure Move where
  index : Nat
  turn : Turn

/-- The turns of one of several plans. -/
def turnsOf (index : Nat) (moves : List Move) : List Turn :=
  (moves.filter (·.index == index)).map Move.turn

@[simp] theorem turnsOf_cons_self (index : Nat) (turn : Turn) (moves : List Move) :
    turnsOf index (⟨index, turn⟩ :: moves) = turn :: turnsOf index moves := by
  simp [turnsOf]

theorem turnsOf_cons_of_ne {index : Nat} {move : Move} (h : move.index ≠ index)
    (moves : List Move) : turnsOf index (move :: moves) = turnsOf index moves := by
  simp [turnsOf, h]

/-- Whoever moves has a turn. -/
theorem turnsOf_ne_nil_iff {index : Nat} {moves : List Move} :
    turnsOf index moves ≠ [] ↔ ∃ move ∈ moves, move.index = index := by
  simp [turnsOf]

theorem mem_turnsOf {move : Move} {moves : List Move} (h : move ∈ moves) :
    move.turn ∈ turnsOf move.index moves :=
  List.mem_map_of_mem (List.mem_filter.2 ⟨h, beq_self_eq_true _⟩)

namespace Plan

variable {α : Type} {plan rest rest' : Plan α} {turns : List Turn}

/-! ## One plan -/

/-- What comes back settles how a plan goes on. -/
theorem Reaches.unique (h : plan.Reaches turns rest) (h' : plan.Reaches turns rest') :
    rest = rest' := by
  induction h with
  | start =>
    cases h'
    rfl
  | ask _ ih =>
    cases h' with
    | ask h' => exact ih h'
  | send _ ih =>
    cases h' with
    | send h' => exact ih h'
  | sendAll _ ih =>
    cases h' with
    | sendAll h' => exact ih h'

/-- A run begins with its first turn. -/
theorem reaches_cons_iff {turn : Turn} :
    plan.Reaches (turn :: turns) rest ↔ ∃ next, plan.Reaches [turn] next ∧
      next.Reaches turns rest := by
  constructor
  · intro h
    cases h with
    | ask h => exact ⟨_, .ask .start, h⟩
    | send h => exact ⟨_, .send .start, h⟩
    | sendAll h => exact ⟨_, .sendAll .start, h⟩
  · rintro ⟨next, hturn, h⟩
    exact hturn.trans h

/-! ## Several plans -/

/-- After the moves, in their order, the plans go on as `rests`. -/
inductive Interleaves : List (Plan α) → List Move → List (Plan α) → Prop
  | start {plans} : Interleaves plans [] plans
  | move {plans index plan turn next moves rests} :
    plans[index]? = some plan → plan.Reaches [turn] next →
      Interleaves (plans.set index next) moves rests →
      Interleaves plans (⟨index, turn⟩ :: moves) rests

variable {plans rests rests' : List (Plan α)} {moves moves' : List Move}

namespace Interleaves

theorem length_eq (h : Interleaves plans moves rests) : rests.length = plans.length := by
  induction h with
  | start => rfl
  | move _ _ _ ih => rw [ih, List.length_set]

theorem index_lt (h : Interleaves plans moves rests) :
    ∀ move ∈ moves, move.index < plans.length := by
  induction h with
  | start => nofun
  | move hplan _ _ ih =>
    rintro move (_ | ⟨_, hmem⟩)
    · exact (List.getElem?_eq_some_iff.1 hplan).1
    · exact List.length_set ▸ ih move hmem

/-- A plan is led by its own turns. -/
theorem reaches (h : Interleaves plans moves rests) {index : Nat} {plan : Plan α}
    (hplan : plans[index]? = some plan) :
    ∃ rest, rests[index]? = some rest ∧ plan.Reaches (turnsOf index moves) rest := by
  induction h generalizing plan with
  | start => exact ⟨plan, hplan, .start⟩
  | @move plans moved mover turn next moves rests hmover hturn _ ih =>
    by_cases hmoved : moved = index
    · subst hmoved
      obtain rfl : mover = plan := Option.some.inj (hmover.symm.trans hplan)
      have hlt : moved < plans.length := (List.getElem?_eq_some_iff.1 hplan).1
      obtain ⟨rest, hrest, h⟩ := ih (List.getElem?_set_self hlt)
      rw [turnsOf_cons_self]
      exact ⟨rest, hrest, hturn.trans h⟩
    · rw [turnsOf_cons_of_ne hmoved]
      exact ih ((List.getElem?_set_ne hmoved).trans hplan)

/-- What a plan goes on as is where its own turns have led it. -/
theorem exists_of_rest (h : Interleaves plans moves rests) {index : Nat} {rest : Plan α}
    (hrest : rests[index]? = some rest) :
    ∃ plan, plans[index]? = some plan ∧ plan.Reaches (turnsOf index moves) rest := by
  have hlt : index < plans.length := h.length_eq ▸ (List.getElem?_eq_some_iff.1 hrest).1
  have hplan : plans[index]? = some plans[index] := List.getElem?_eq_getElem hlt
  obtain ⟨rest', hrest', hreaches⟩ := h.reaches hplan
  obtain rfl : rest' = rest := Option.some.inj (hrest'.symm.trans hrest)
  exact ⟨_, hplan, hreaches⟩

/-- Plans that are led somewhere by turns of their own are led there side by side. -/
theorem of_reaches (hlength : rests.length = plans.length)
    (hrange : ∀ move ∈ moves, move.index < plans.length)
    (h : ∀ (index : Nat) (plan : Plan α), plans[index]? = some plan →
      ∃ rest, rests[index]? = some rest ∧ plan.Reaches (turnsOf index moves) rest) :
    Interleaves plans moves rests := by
  induction moves generalizing plans with
  | nil =>
    obtain rfl : plans = rests := by
      refine List.ext_getElem? fun index => ?_
      cases hplan : plans[index]? with
      | none => rw [List.getElem?_eq_none (hlength.trans_le (List.getElem?_eq_none_iff.1 hplan))]
      | some plan =>
        obtain ⟨rest, hrest, hreaches⟩ := h index plan hplan
        rw [hrest, hreaches.unique .start]
    exact .start
  | cons move moves ih =>
    obtain ⟨moved, turn⟩ := move
    have hlt : moved < plans.length := hrange _ (.head _)
    have hmover : plans[moved]? = some plans[moved] := List.getElem?_eq_getElem hlt
    obtain ⟨rest, hrest, hreaches⟩ := h moved _ hmover
    rw [turnsOf_cons_self] at hreaches
    obtain ⟨next, hturn, hnext⟩ := reaches_cons_iff.1 hreaches
    refine .move hmover hturn (ih (hlength.trans List.length_set.symm) (fun move hmem => ?_) ?_)
    · rw [List.length_set]
      exact hrange move (.tail _ hmem)
    · intro index plan hplan
      by_cases hmoved : moved = index
      · subst hmoved
        rw [List.getElem?_set_self hlt] at hplan
        cases hplan
        exact ⟨rest, hrest, hnext⟩
      · rw [List.getElem?_set_ne hmoved] at hplan
        obtain ⟨rest, hrest, hreaches⟩ := h index plan hplan
        rw [turnsOf_cons_of_ne hmoved] at hreaches
        exact ⟨rest, hrest, hreaches⟩

/-- Turns of several plans can come in any order that keeps those of each in theirs. -/
theorem reorder (h : Interleaves plans moves rests)
    (hturns : ∀ index, turnsOf index moves' = turnsOf index moves) :
    Interleaves plans moves' rests := by
  refine of_reaches h.length_eq (fun move hmem => ?_) fun index plan hplan => ?_
  · obtain ⟨move', hmem', hindex⟩ := turnsOf_ne_nil_iff.1
      (hturns move.index ▸ turnsOf_ne_nil_iff.2 ⟨move, hmem, rfl⟩)
    exact hindex ▸ h.index_lt move' hmem'
  · rw [hturns index]
    exact h.reaches hplan

end Interleaves

/-! ## Failures -/

variable {ε : Type}

/-- One of several plans has failed. -/
def HasFailed (plans : List (Plan (Except ε α))) : Prop :=
  ∃ e, done (.error e) ∈ plans

/-- There is nothing to wait for: one of several plans has failed, or all have a value. -/
def AreOver (plans : List (Plan (Except ε α))) : Prop :=
  HasFailed plans ∨ ∃ values : List α, plans = values.map fun value => done (.ok value)

/-- Plans that have a value have not failed. -/
theorem not_hasFailed_of_values (values : List α) :
    ¬ HasFailed (ε := ε) (values.map fun value => done (.ok value)) := by
  rintro ⟨e, hmem⟩
  obtain ⟨value, -, hvalue⟩ := List.mem_map.1 hmem
  cases hvalue

/-- A plan that has failed stays so. -/
theorem HasFailed.of_interleaves {plans rests : List (Plan (Except ε α))} {moves : List Move}
    (h : HasFailed plans) (hruns : Interleaves plans moves rests) : HasFailed rests := by
  obtain ⟨e, hmem⟩ := h
  obtain ⟨index, hindex⟩ := List.mem_iff_getElem?.1 hmem
  obtain ⟨rest, hrest, hreaches⟩ := hruns.reaches hindex
  obtain ⟨-, rfl⟩ := reaches_done_iff.1 hreaches
  exact ⟨e, List.mem_of_getElem? hrest⟩

end Plan

end FinanceGateway
