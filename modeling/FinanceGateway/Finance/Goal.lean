import FinanceGateway.Json.Record

/-!
# Investment goals

Goals, the requests that create, change and select them, and how far a goal is reached.
-/

namespace FinanceGateway

/-- An amount to be saved. -/
structure Goal where
  id : String := ""
  name : String := ""
  targetAmount : Float := 0.0
  currentAmount : Float := 0.0
  targetDate : Option String := none
  status : String := ""
  priority : Nat := 0
  createdAt : Option String := none
  updatedAt : Option String := none
  achievedAt : Option String := none

/-- The wire form of `Goal`. -/
def Goal.record : Json.Record Goal where
  name := "Goal"
  initial := {}
  fields := [
    .defaulted "id" .text (·.id) (fun v s => { s with id := v }),
    .defaulted "name" .text (·.name) (fun v s => { s with name := v }),
    .defaulted "target_amount" .real (·.targetAmount) (fun v s => { s with targetAmount := v }),
    .defaulted "current_amount" .real (·.currentAmount) (fun v s => { s with currentAmount := v }),
    .nullable "target_date" .text (·.targetDate) (fun v s => { s with targetDate := v }),
    .defaulted "status" .text (·.status) (fun v s => { s with status := v }),
    .defaulted "priority" .nat8 (·.priority) (fun v s => { s with priority := v }),
    .nullable "created_at" .text (·.createdAt) (fun v s => { s with createdAt := v }),
    .nullable "updated_at" .text (·.updatedAt) (fun v s => { s with updatedAt := v }),
    .nullable "achieved_at" .text (·.achievedAt) (fun v s => { s with achievedAt := v })]

/-- The share of the target that is saved, in percent from 0 to 100; a target that is not positive
counts as none saved. -/
def Goal.progress (goal : Goal) : Float :=
  if goal.targetAmount ≤ 0.0 then 0.0
  else
    let percent := goal.currentAmount / goal.targetAmount * 100.0
    if percent < 0.0 then 0.0
    else if 100.0 < percent then 100.0
    else percent

/-- The goal that a caller asks to create. -/
structure NewGoal where
  name : String := ""
  targetAmount : Float := 0.0
  currentAmount : Option Float := none
  targetDate : String := ""
  status : Option String := none
  priority : Option Nat := none

/-- The wire form of `NewGoal`. -/
def NewGoal.record : Json.Record NewGoal where
  name := "CreateGoalReq"
  initial := {}
  fields := [
    .required "name" .text (·.name) (fun v s => { s with name := v }),
    .required "target_amount" .real (·.targetAmount) (fun v s => { s with targetAmount := v }),
    .sparse "current_amount" .real (·.currentAmount) (fun v s => { s with currentAmount := v }),
    .required "target_date" .text (·.targetDate) (fun v s => { s with targetDate := v }),
    .sparse "status" .text (·.status) (fun v s => { s with status := v }),
    .sparse "priority" .nat8 (·.priority) (fun v s => { s with priority := v })]

/-- The changes that a caller asks to make to a goal. -/
structure GoalUpdate where
  status : Option String := none
  targetDate : Option String := none
  priority : Option Nat := none
  targetAmount : Option Float := none
  currentAmount : Option Float := none
  achievedAt : Option String := none
  name : Option String := none

/-- The wire form of `GoalUpdate`. -/
def GoalUpdate.record : Json.Record GoalUpdate where
  name := "UpdateGoalReq"
  initial := {}
  fields := [
    .sparse "status" .text (·.status) (fun v s => { s with status := v }),
    .sparse "target_date" .text (·.targetDate) (fun v s => { s with targetDate := v }),
    .sparse "priority" .nat8 (·.priority) (fun v s => { s with priority := v }),
    .sparse "target_amount" .real (·.targetAmount) (fun v s => { s with targetAmount := v }),
    .sparse "current_amount" .real (·.currentAmount) (fun v s => { s with currentAmount := v }),
    .sparse "achieved_at" .text (·.achievedAt) (fun v s => { s with achievedAt := v }),
    .sparse "name" .text (·.name) (fun v s => { s with name := v })]

/-- What the listed goals have in common. -/
structure GoalFilter where
  status : Option String := none
  targetDateBefore : Option String := none
  targetDateAfter : Option String := none
  targetAmountLessThan : Option Float := none
  targetAmountGreaterThan : Option Float := none
  priority : Option Nat := none
  createdAtBefore : Option String := none
  createdAtAfter : Option String := none

/-- The wire form of `GoalFilter`. -/
def GoalFilter.record : Json.Record GoalFilter where
  name := "GoalFilter"
  initial := {}
  fields := [
    .optional "status" .text (·.status) (fun v s => { s with status := v }),
    .optional "target_date_before" .text (·.targetDateBefore)
      (fun v s => { s with targetDateBefore := v }),
    .optional "target_date_after" .text (·.targetDateAfter)
      (fun v s => { s with targetDateAfter := v }),
    .optional "target_amount_less_than" .real (·.targetAmountLessThan)
      (fun v s => { s with targetAmountLessThan := v }),
    .optional "target_amount_greater_than" .real (·.targetAmountGreaterThan)
      (fun v s => { s with targetAmountGreaterThan := v }),
    .optional "priority" .nat8 (·.priority) (fun v s => { s with priority := v }),
    .optional "created_at_before" .text (·.createdAtBefore)
      (fun v s => { s with createdAtBefore := v }),
    .optional "created_at_after" .text (·.createdAtAfter)
      (fun v s => { s with createdAtAfter := v })]

end FinanceGateway
