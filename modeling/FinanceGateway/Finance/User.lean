import FinanceGateway.Json.Record

/-!
# Users

The profile that belongs to a credential, the user record that a change of settings answers with,
and the request for such a change.
-/

namespace FinanceGateway

/-- Whom a credential belongs to. -/
structure Profile where
  email : String := ""
  lifetimeIncome : Option Float := none
  lifetimeExpense : Option Float := none
  useLlmParsing : Option Bool := none
  llmParseCredits : Option Int := none
  isActive : Option Bool := none
  databaseUrl : Option String := none
  createdAt : Option String := none
  updatedAt : Option String := none
  imageAttempts : Nat := 0
  imageSuccesses : Nat := 0

/-- The wire form of `Profile`. -/
def Profile.record : Json.Record Profile where
  name := "AuthUser"
  initial := {}
  fields := [
    .defaulted "email" .text (·.email) (fun v s => { s with email := v }),
    .nullable "lifetime_income" .real (·.lifetimeIncome)
      (fun v s => { s with lifetimeIncome := v }),
    .nullable "lifetime_expense" .real (·.lifetimeExpense)
      (fun v s => { s with lifetimeExpense := v }),
    .nullable "use_llm_parsing" .flag (·.useLlmParsing) (fun v s => { s with useLlmParsing := v }),
    .nullable "llm_parse_credits" .int32 (·.llmParseCredits)
      (fun v s => { s with llmParseCredits := v }),
    .nullable "is_active" .flag (·.isActive) (fun v s => { s with isActive := v }),
    .nullable "database_url" .text (·.databaseUrl) (fun v s => { s with databaseUrl := v }),
    .nullable "created_at" .text (·.createdAt) (fun v s => { s with createdAt := v }),
    .nullable "updated_at" .text (·.updatedAt) (fun v s => { s with updatedAt := v }),
    .defaulted "transaction_image_parse_attempt" .nat32 (·.imageAttempts)
      (fun v s => { s with imageAttempts := v }),
    .defaulted "transaction_image_parse_success" .nat32 (·.imageSuccesses)
      (fun v s => { s with imageSuccesses := v })]

/-- A user and the settings of the user. -/
structure User where
  email : String := ""
  isActive : Bool := false
  clerkId : String := ""
  createdAt : Option String := none
  updatedAt : Option String := none
  lifetimeExpense : Float := 0.0
  lifetimeIncome : Float := 0.0
  useLlmParsing : Bool := false
  databaseUrl : String := ""
  imageAttempts : Nat := 0
  imageSuccesses : Nat := 0
  apiKey : String := ""
  qrString : String := ""

/-- The wire form of `User`. -/
def User.record : Json.Record User where
  name := "User"
  initial := {}
  fields := [
    .defaulted "email" .text (·.email) (fun v s => { s with email := v }),
    .defaulted "is_active" .flag (·.isActive) (fun v s => { s with isActive := v }),
    .defaulted "clerk_id" .text (·.clerkId) (fun v s => { s with clerkId := v }),
    .nullable "created_at" .text (·.createdAt) (fun v s => { s with createdAt := v }),
    .nullable "updated_at" .text (·.updatedAt) (fun v s => { s with updatedAt := v }),
    .defaulted "lifetime_expense" .real (·.lifetimeExpense)
      (fun v s => { s with lifetimeExpense := v }),
    .defaulted "lifetime_income" .real (·.lifetimeIncome)
      (fun v s => { s with lifetimeIncome := v }),
    .defaulted "user_llm_parsing" .flag (·.useLlmParsing)
      (fun v s => { s with useLlmParsing := v }),
    .defaulted "database_url" .text (·.databaseUrl) (fun v s => { s with databaseUrl := v }),
    .defaulted "transaction_image_parse_attempt" .nat32 (·.imageAttempts)
      (fun v s => { s with imageAttempts := v }),
    .defaulted "transaction_image_parse_success" .nat32 (·.imageSuccesses)
      (fun v s => { s with imageSuccesses := v }),
    .defaulted "api_key" .text (·.apiKey) (fun v s => { s with apiKey := v }),
    .defaulted "qr_string" .text (·.qrString) (fun v s => { s with qrString := v })]

/-- The settings that a caller asks to change. -/
structure UserUpdate where
  useLlmParsing : Option Bool := none
  databaseUrl : Option String := none
  lifetimeExpense : Option Float := none
  lifetimeIncome : Option Float := none

/-- The wire form of `UserUpdate`. -/
def UserUpdate.record : Json.Record UserUpdate where
  name := "UpdateUserReq"
  initial := {}
  fields := [
    .sparse "use_llm_parsing" .flag (·.useLlmParsing) (fun v s => { s with useLlmParsing := v }),
    .sparse "database_url" .text (·.databaseUrl) (fun v s => { s with databaseUrl := v }),
    .sparse "lifetime_expense" .real (·.lifetimeExpense)
      (fun v s => { s with lifetimeExpense := v }),
    .sparse "lifetime_income" .real (·.lifetimeIncome) (fun v s => { s with lifetimeIncome := v })]

end FinanceGateway
