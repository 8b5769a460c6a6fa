import FinanceGateway.Json.Record

/-!
# Bank accounts

Banks and the accounts held with them, and the requests that create and change an account. What a
backend sends may lack any field, which then has its default; a request must have the fields that
are not optional. The balance goes by the backend's spelling on the wire.
-/

namespace FinanceGateway

/-- A bank. -/
structure Bank where
  id : String := ""
  name : String := ""
  code : String := ""
  isActive : Bool := false
  createdAt : Option String := none
  updatedAt : Option String := none

/-- The wire form of `Bank`. -/
def Bank.record : Json.Record Bank where
  name := "Bank"
  initial := {}
  fields := [
    .defaulted "id" .text (·.id) (fun v s => { s with id := v }),
    .defaulted "name" .text (·.name) (fun v s => { s with name := v }),
    .defaulted "code" .text (·.code) (fun v s => { s with code := v }),
    .defaulted "is_active" .flag (·.isActive) (fun v s => { s with isActive := v }),
    .sparseDefaulted "created_at" .text (·.createdAt) (fun v s => { s with createdAt := v }),
    .sparseDefaulted "updated_at" .text (·.updatedAt) (fun v s => { s with updatedAt := v })]

/-- An account held with a bank. -/
structure Account where
  id : String := ""
  accountNumber : String := ""
  accountName : String := ""
  accountType : String := ""
  isPrimary : Bool := false
  isActive : Bool := false
  bankId : String := ""
  userId : String := ""
  currentBalance : Float := 0.0
  bank : Option Bank := none
  createdAt : Option String := none
  updatedAt : Option String := none

/-- The wire form of `Account`. -/
def Account.record : Json.Record Account where
  name := "Account"
  initial := {}
  fields := [
    .defaulted "id" .text (·.id) (fun v s => { s with id := v }),
    .defaulted "account_number" .text (·.accountNumber) (fun v s => { s with accountNumber := v }),
    .defaulted "account_name" .text (·.accountName) (fun v s => { s with accountName := v }),
    .defaulted "account_type" .text (·.accountType) (fun v s => { s with accountType := v }),
    .defaulted "is_primary" .flag (·.isPrimary) (fun v s => { s with isPrimary := v }),
    .defaulted "is_active" .flag (·.isActive) (fun v s => { s with isActive := v }),
    .defaulted "bank_id" .text (·.bankId) (fun v s => { s with bankId := v }),
    .defaulted "user_id" .text (·.userId) (fun v s => { s with userId := v }),
    .defaulted "current_balence" .real (·.currentBalance)
      (fun v s => { s with currentBalance := v }),
    .sparseDefaulted "bank" Bank.record.codec (·.bank) (fun v s => { s with bank := v }),
    .sparseDefaulted "created_at" .text (·.createdAt) (fun v s => { s with createdAt := v }),
    .sparseDefaulted "updated_at" .text (·.updatedAt) (fun v s => { s with updatedAt := v })]

/-- The account that a caller asks to create. -/
structure NewAccount where
  accountNumber : String := ""
  accountName : String := ""
  accountType : String := ""
  isPrimary : Bool := false
  bankId : String := ""

/-- The wire form of `NewAccount`. -/
def NewAccount.record : Json.Record NewAccount where
  name := "CreateAccountReq"
  initial := {}
  fields := [
    .required "account_number" .text (·.accountNumber) (fun v s => { s with accountNumber := v }),
    .required "account_name" .text (·.accountName) (fun v s => { s with accountName := v }),
    .required "account_type" .text (·.accountType) (fun v s => { s with accountType := v }),
    .required "is_primary" .flag (·.isPrimary) (fun v s => { s with isPrimary := v }),
    .required "bank_id" .text (·.bankId) (fun v s => { s with bankId := v })]

/-- The changes that a caller asks to make to an account. -/
structure AccountUpdate where
  accountId : String := ""
  accountNumber : Option String := none
  accountName : Option String := none
  accountType : Option String := none
  bankId : Option String := none
  isPrimary : Option Bool := none
  currentBalance : Option Float := none

/-- The wire form of `AccountUpdate`. -/
def AccountUpdate.record : Json.Record AccountUpdate where
  name := "UpdateAccountReq"
  initial := {}
  fields := [
    .required "account_id" .text (·.accountId) (fun v s => { s with accountId := v }),
    .sparse "account_number" .text (·.accountNumber) (fun v s => { s with accountNumber := v }),
    .sparse "account_name" .text (·.accountName) (fun v s => { s with accountName := v }),
    .sparse "account_type" .text (·.accountType) (fun v s => { s with accountType := v }),
    .sparse "bank_id" .text (·.bankId) (fun v s => { s with bankId := v }),
    .sparse "is_primary" .flag (·.isPrimary) (fun v s => { s with isPrimary := v }),
    .sparse "current_balence" .real (·.currentBalance) (fun v s => { s with currentBalance := v })]

end FinanceGateway
