import FinanceGateway.Call.Basic
import FinanceGateway.Finance.Account
import FinanceGateway.Finance.Goal
import FinanceGateway.Finance.Health
import FinanceGateway.Finance.Reference
import FinanceGateway.Finance.Sms
import FinanceGateway.Finance.Statement
import FinanceGateway.Finance.User

/-!
# The services of the finance API

Every service the backend offers, with its arguments: how it is called (`Service.call`), and the
type and form of its answer (`Service.Answer`, `Service.codec`).
-/

namespace FinanceGateway

/-- A service of the backend with its arguments. -/
inductive Service
  | listAccounts
  | getAccount (id : String)
  | createAccount (account : NewAccount)
  | updateAccount (changes : AccountUpdate)
  | getProfile
  | listGoals (filter : GoalFilter)
  | getGoal (id : String)
  | createGoal (goal : NewGoal)
  | updateGoal (id : String) (changes : GoalUpdate)
  | uploadStatement (upload : StatementUpload)
  | listSms
  | getSms (id : String)
  | createSms (sms : NewSms)
  | listBanks
  | listCategories
  | listMerchants
  | getHealth
  | listTransactions (filter : TransactionFilter)
  | createTransaction (transaction : NewTransaction)
  | deleteTransactions (deletion : TransactionDeletion)
  | parseReceipt (image : Bytes) (fileName contentType : Option String)
  | updateUser (changes : UserUpdate)

namespace Service

/-- What a successful answer of the service holds. -/
@[reducible] def Answer : Service → Type
  | listAccounts => List Account
  | getAccount _ | createAccount _ | updateAccount _ => Account
  | getProfile => Profile
  | listGoals _ => List Goal
  | getGoal _ | createGoal _ | updateGoal _ _ => Goal
  | uploadStatement _ => List StatementRow
  | listSms => List Sms
  | getSms _ | createSms _ => Sms
  | listBanks => List ListedBank
  | listCategories => List Category
  | listMerchants => List Merchant
  | getHealth => Health
  | listTransactions _ => List Transaction
  | createTransaction _ => Transaction
  | deleteTransactions _ => Unit
  | parseReceipt _ _ _ => Receipt
  | updateUser _ => User

/-- How the answer is written. -/
def codec : (s : Service) → Json.Codec s.Answer
  | listAccounts => .list Account.record.codec
  | getAccount _ | createAccount _ | updateAccount _ => Account.record.codec
  | getProfile => Profile.record.codec
  | listGoals _ => .list Goal.record.codec
  | getGoal _ | createGoal _ | updateGoal _ _ => Goal.record.codec
  | uploadStatement _ => .list StatementRow.record.codec
  | listSms => .list Sms.record.codec
  | getSms _ | createSms _ => Sms.record.codec
  | listBanks => .list ListedBank.record.codec
  | listCategories => .list Category.record.codec
  | listMerchants => .list Merchant.record.codec
  | getHealth => Health.record.codec
  | listTransactions _ => .list Transaction.record.codec
  | createTransaction _ => Transaction.record.codec
  | deleteTransactions _ => .unit
  | parseReceipt _ _ _ => Receipt.record.codec
  | updateUser _ => User.record.codec

/-- The method of the service. -/
def method : Service → String
  | createAccount _ | createGoal _ | uploadStatement _ | createSms _ | createTransaction _
  | parseReceipt _ _ _ => "POST"
  | updateAccount _ | updateGoal _ _ | updateUser _ => "PUT"
  | deleteTransactions _ => "DELETE"
  | _ => "GET"

/-- The path template of the service. -/
def template : Service → String
  | listAccounts | createAccount _ | updateAccount _ => "/api/v1/account"
  | getAccount _ => "/api/v1/account/\x7baccount_id\x7d"
  | getProfile => "/auth/user"
  | listGoals _ | createGoal _ => "/investment/goal"
  | getGoal _ | updateGoal _ _ => "/investment/goal/\x7bid\x7d"
  | uploadStatement _ => "/reconciliation/upload"
  | listSms | createSms _ => "/sms"
  | getSms _ => "/sms/\x7bid\x7d"
  | listBanks => "/static/bank"
  | listCategories => "/static/categories"
  | listMerchants => "/static/merchants"
  | getHealth => "/health"
  | listTransactions _ | createTransaction _ | deleteTransactions _ => "/transaction"
  | parseReceipt _ _ _ => "/transaction/image-parse"
  | updateUser _ => "/user"

/-- The errors of services that only need a credential. -/
def credentialErrors : List (Nat × String) :=
  [(401, "Unauthorized"), (500, "Internal Server Error")]

/-- The errors of services that take data. -/
def dataErrors : List (Nat × String) :=
  (400, "Bad Request") :: credentialErrors

/-- The errors of services about one thing that may not exist. -/
def lookupErrors : List (Nat × String) :=
  [(400, "Bad Request"), (401, "Unauthorized"), (404, "Not Found"), (500, "Internal Server Error")]

/-- The errors that the service declares. -/
def errors : Service → List (Nat × String)
  | listAccounts | getProfile | listBanks | listCategories | listMerchants => credentialErrors
  | getAccount _ | updateAccount _ | getGoal _ | updateGoal _ _ | getSms _ => lookupErrors
  | getHealth => [(503, "Service Unavailable")]
  | _ => dataErrors

/-- A JSON body with the members of every object in ascending order. -/
def jsonBody {α : Type} (record : Json.Record α) (value : α) : Call.Step :=
  .json (.ok (record.codec.encode value).sorted)

/-- The query value of an optional number. -/
def realValue (x : Option Float) : Option String :=
  x.map Decimal.Layout.plain.text

/-- The steps that give the call its values and body. -/
def arguments : Service → List Call.Step
  | getAccount id => [.pathValue "account_id" id]
  | createAccount account => [jsonBody NewAccount.record account]
  | updateAccount changes => [jsonBody AccountUpdate.record changes]
  | listGoals filter => [
      .query "status" filter.status,
      .query "target_date_before" filter.targetDateBefore,
      .query "target_date_after" filter.targetDateAfter,
      .query "target_amount_less_than" (realValue filter.targetAmountLessThan),
      .query "target_amount_greater_than" (realValue filter.targetAmountGreaterThan),
      .query "priority" (filter.priority.map fun n => Decimal.ofInt n),
      .query "created_at_before" filter.createdAtBefore,
      .query "created_at_after" filter.createdAtAfter]
  | getGoal id => [.pathValue "id" id]
  | createGoal goal => [jsonBody NewGoal.record goal]
  | updateGoal id changes => [.pathValue "id" id, jsonBody GoalUpdate.record changes]
  | uploadStatement upload => [
      .field "statement" (.file upload.statement (some upload.fileName) upload.contentType),
      .field "statement_period_start" (.text upload.periodStart),
      .field "statement_period_end" (.text upload.periodEnd),
      .field "account_id" (.text upload.accountId),
      .field "user_id" (.text upload.userId),
      .field "file_name" (.text upload.fileName)]
  | getSms id => [.pathValue "id" id]
  | createSms sms => [jsonBody NewSms.record sms]
  | listTransactions filter => [
      .query "account_id" filter.accountId,
      .query "category_id" filter.categoryId,
      .query "merchant_id" filter.merchantId]
  | createTransaction transaction => [jsonBody NewTransaction.record transaction]
  | deleteTransactions deletion => [jsonBody TransactionDeletion.record deletion]
  | parseReceipt image fileName contentType =>
    [.field "image" (.file image fileName contentType)]
  | updateUser changes => [jsonBody UserUpdate.record changes]
  | _ => []

/-- The call of the service. -/
def call (s : Service) : Except InvalidRequest Call :=
  Call.build { method := s.method, template := s.template } (s.arguments ++ [.errors s.errors])

end Service

end FinanceGateway
