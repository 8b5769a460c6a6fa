import FinanceGateway.Json.Record

/-!
# Transactions

Transactions and their kinds, the requests that create, select and delete them, and what the
backend reads from the photo of a receipt.
-/

namespace FinanceGateway

/-- What a transaction is. -/
inductive TransactionKind
  | debit
  | credit
  | subscription
  | investment
  | income
  | refund
  deriving Repr, DecidableEq

/-- The name of a kind on the wire. -/
def TransactionKind.name : TransactionKind → String
  | .debit => "DEBIT"
  | .credit => "CREDIT"
  | .subscription => "SUBSCRIPTION"
  | .investment => "INVESTMENT"
  | .income => "INCOME"
  | .refund => "REFUND"

/-- The kinds in the order in which messages list them. -/
def TransactionKind.all : List TransactionKind :=
  [.debit, .credit, .subscription, .investment, .income, .refund]

/-- The wire form of a kind: its name. -/
def TransactionKind.codec : Json.Codec TransactionKind :=
  .enumeration (all.map fun k => (k.name, k)) name

/-- A transaction of an account. -/
structure Transaction where
  id : String := ""
  userId : String := ""
  accountId : String := ""
  accountNumber : String := ""
  accountType : String := ""
  accountName : String := ""
  toAccountId : Option String := none
  toAccountNumber : String := ""
  toAccountName : String := ""
  categoryId : Option String := none
  categoryName : Option String := none
  merchantId : Option String := none
  merchantName : Option String := none
  kind : Option TransactionKind := none
  amount : Float := 0.0
  description : Option String := none
  notes : Option String := none
  tags : Option String := none
  smsId : Option String := none
  smsMessage : Option String := none
  paymentMethod : Option String := none
  referenceNumber : Option String := none
  isRecurring : Bool := false
  isExcluded : Option Bool := none
  isCash : Option Bool := none
  deletedAt : Option String := none
  deletedBy : Option String := none
  createdAt : Option String := none
  updatedAt : Option String := none

/-- The wire form of `Transaction`. -/
def Transaction.record : Json.Record Transaction where
  name := "Transaction"
  initial := {}
  fields := [
    .defaulted "id" .text (·.id) (fun v s => { s with id := v }),
    .defaulted "user_id" .text (·.userId) (fun v s => { s with userId := v }),
    .defaulted "account_id" .text (·.accountId) (fun v s => { s with accountId := v }),
    .defaulted "account_number" .text (·.accountNumber) (fun v s => { s with accountNumber := v }),
    .defaulted "account_type" .text (·.accountType) (fun v s => { s with accountType := v }),
    .defaulted "account_name" .text (·.accountName) (fun v s => { s with accountName := v }),
    .nullable "to_account_id" .text (·.toAccountId) (fun v s => { s with toAccountId := v }),
    .defaulted "to_account_number" .text (·.toAccountNumber)
      (fun v s => { s with toAccountNumber := v }),
    .defaulted "to_account_name" .text (·.toAccountName)
      (fun v s => { s with toAccountName := v }),
    .nullable "category_id" .text (·.categoryId) (fun v s => { s with categoryId := v }),
    .nullable "category_name" .text (·.categoryName) (fun v s => { s with categoryName := v }),
    .nullable "merchant_id" .text (·.merchantId) (fun v s => { s with merchantId := v }),
    .nullable "merchant_name" .text (·.merchantName) (fun v s => { s with merchantName := v }),
    .nullable "type" TransactionKind.codec (·.kind) (fun v s => { s with kind := v }),
    .defaulted "amount" .real (·.amount) (fun v s => { s with amount := v }),
    .nullable "description" .text (·.description) (fun v s => { s with description := v }),
    .nullable "notes" .text (·.notes) (fun v s => { s with notes := v }),
    .nullable "tags" .text (·.tags) (fun v s => { s with tags := v }),
    .nullable "sms_id" .text (·.smsId) (fun v s => { s with smsId := v }),
    .nullable "sms_message" .text (·.smsMessage) (fun v s => { s with smsMessage := v }),
    .nullable "payment_method" .text (·.paymentMethod) (fun v s => { s with paymentMethod := v }),
    .nullable "reference_number" .text (·.referenceNumber)
      (fun v s => { s with referenceNumber := v }),
    .defaulted "is_recurring" .flag (·.isRecurring) (fun v s => { s with isRecurring := v }),
    .nullable "is_excluded" .flag (·.isExcluded) (fun v s => { s with isExcluded := v }),
    .nullable "is_cash" .flag (·.isCash) (fun v s => { s with isCash := v }),
    .nullable "deleted_at" .text (·.deletedAt) (fun v s => { s with deletedAt := v }),
    .nullable "deleted_by" .text (·.deletedBy) (fun v s => { s with deletedBy := v }),
    .nullable "created_at" .text (·.createdAt) (fun v s => { s with createdAt := v }),
    .nullable "updated_at" .text (·.updatedAt) (fun v s => { s with updatedAt := v })]

/-- The transaction that a caller asks to record. -/
structure NewTransaction where
  accountId : String := ""
  categoryId : Option String := none
  merchantId : Option String := none
  kind : Option TransactionKind := none
  amount : Float := 0.0
  description : Option String := none
  notes : Option String := none
  tags : Option String := none
  smsId : Option String := none
  paymentMethod : Option String := none
  referenceNumber : Option String := none
  isRecurring : Bool := false
  transactionDate : Option String := none

/-- The wire form of `NewTransaction`. -/
def NewTransaction.record : Json.Record NewTransaction where
  name := "CreateTxnReq"
  initial := {}
  fields := [
    .required "account_id" .text (·.accountId) (fun v s => { s with accountId := v }),
    .sparse "category_id" .text (·.categoryId) (fun v s => { s with categoryId := v }),
    .sparse "merchant_id" .text (·.merchantId) (fun v s => { s with merchantId := v }),
    .sparse "type" TransactionKind.codec (·.kind) (fun v s => { s with kind := v }),
    .required "amount" .real (·.amount) (fun v s => { s with amount := v }),
    .sparse "description" .text (·.description) (fun v s => { s with description := v }),
    .sparse "notes" .text (·.notes) (fun v s => { s with notes := v }),
    .sparse "tags" .text (·.tags) (fun v s => { s with tags := v }),
    .sparse "sms_id" .text (·.smsId) (fun v s => { s with smsId := v }),
    .sparse "payment_method" .text (·.paymentMethod) (fun v s => { s with paymentMethod := v }),
    .sparse "reference_number" .text (·.referenceNumber)
      (fun v s => { s with referenceNumber := v }),
    .required "is_recurring" .flag (·.isRecurring) (fun v s => { s with isRecurring := v }),
    .sparse "transaction_date" .text (·.transactionDate)
      (fun v s => { s with transactionDate := v })]

/-- The transactions that a caller asks to delete. -/
structure TransactionDeletion where
  ids : List String := []

/-- The wire form of `TransactionDeletion`. -/
def TransactionDeletion.record : Json.Record TransactionDeletion where
  name := "SoftDeleteTxnsReq"
  initial := {}
  fields := [
    .required "ids" (.list .text) (·.ids) (fun v s => { s with ids := v })]

/-- What the listed transactions have in common. -/
structure TransactionFilter where
  accountId : Option String := none
  categoryId : Option String := none
  merchantId : Option String := none

/-- The wire form of `TransactionFilter`. -/
def TransactionFilter.record : Json.Record TransactionFilter where
  name := "TransactionFilter"
  initial := {}
  fields := [
    .optional "account_id" .text (·.accountId) (fun v s => { s with accountId := v }),
    .optional "category_id" .text (·.categoryId) (fun v s => { s with categoryId := v }),
    .optional "merchant_id" .text (·.merchantId) (fun v s => { s with merchantId := v })]

/-- The draft of a transaction, read from the photo of a receipt. -/
structure Receipt where
  amount : Float := 0.0
  accountNumber : Option String := none
  categoryId : Option String := none
  merchantId : Option String := none
  kind : String := ""
  description : Option String := none
  notes : Option String := none
  tags : Option String := none
  paymentMethod : Option String := none
  referenceNumber : Option String := none
  transactionDate : Option String := none
  transactionTime : Option String := none
  transactionType : Option String := none
  transactionAmount : Option Float := none

/-- The wire form of `Receipt`. -/
def Receipt.record : Json.Record Receipt where
  name := "ParsedTxnRes"
  initial := {}
  fields := [
    .defaulted "amount" .real (·.amount) (fun v s => { s with amount := v }),
    .nullable "account_num" .text (·.accountNumber) (fun v s => { s with accountNumber := v }),
    .nullable "category_id" .text (·.categoryId) (fun v s => { s with categoryId := v }),
    .nullable "merchant_id" .text (·.merchantId) (fun v s => { s with merchantId := v }),
    .defaulted "type" .text (·.kind) (fun v s => { s with kind := v }),
    .nullable "description" .text (·.description) (fun v s => { s with description := v }),
    .nullable "notes" .text (·.notes) (fun v s => { s with notes := v }),
    .nullable "tags" .text (·.tags) (fun v s => { s with tags := v }),
    .nullable "payment_method" .text (·.paymentMethod) (fun v s => { s with paymentMethod := v }),
    .nullable "reference_number" .text (·.referenceNumber)
      (fun v s => { s with referenceNumber := v }),
    .nullable "transaction_date" .text (·.transactionDate)
      (fun v s => { s with transactionDate := v }),
    .nullable "transaction_time" .text (·.transactionTime)
      (fun v s => { s with transactionTime := v }),
    .nullable "transaction_type" .text (·.transactionType)
      (fun v s => { s with transactionType := v }),
    .nullable "transaction_amount" .real (·.transactionAmount)
      (fun v s => { s with transactionAmount := v })]

end FinanceGateway
