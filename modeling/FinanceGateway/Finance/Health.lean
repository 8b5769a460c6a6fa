import FinanceGateway.Json.Record
import FinanceGateway.Text.Blank

/-!
# Health of the backend

The answer of the backend's health endpoint, when it counts as healthy, and which checks fail.
-/

namespace FinanceGateway

/-- The result of one check. -/
structure CheckResult where
  status : String := ""
  responseTime : Option String := none
  error : Option String := none

/-- The wire form of `CheckResult`. -/
def CheckResult.record : Json.Record CheckResult where
  name := "HealthCheckResult"
  initial := {}
  fields := [
    .defaulted "status" .text (·.status) (fun v s => { s with status := v }),
    .nullable "response_time" .text (·.responseTime) (fun v s => { s with responseTime := v }),
    .nullable "error" .text (·.error) (fun v s => { s with error := v })]

/-- How the backend is, check by check. -/
structure Health where
  status : String := ""
  timestamp : Option String := none
  environment : Option String := none
  checks : Dictionary CheckResult := []

/-- The wire form of `Health`. -/
def Health.record : Json.Record Health where
  name := "HealthResponse"
  initial := {}
  fields := [
    .defaulted "status" .text (·.status) (fun v s => { s with status := v }),
    .nullable "timestamp" .text (·.timestamp) (fun v s => { s with timestamp := v }),
    .nullable "environment" .text (·.environment) (fun v s => { s with environment := v }),
    .defaulted "checks" (.map CheckResult.record.codec) (·.checks)
      (fun v s => { s with checks := v })]

/-- Whether a status names a healthy state: `healthy` or `ok` in any letter case. -/
def Health.isHealthyStatus (status : String) : Bool :=
  Text.eqIgnoreCase status "healthy" || Text.eqIgnoreCase status "ok"

/-- Whether the backend as a whole is healthy. -/
def Health.isHealthy (health : Health) : Bool :=
  isHealthyStatus health.status

/-- The names of the checks whose status is not `healthy` in any letter case, in ascending order. -/
def Health.failing (health : Health) : List String :=
  (health.checks.filter fun c => !Text.eqIgnoreCase c.2.status "healthy").map (·.1)

end FinanceGateway
