import FinanceGateway.Finance.Transaction

/-!
# Bank statements

The upload of a statement file and the rows that the backend reads from it.
-/

namespace FinanceGateway

/-- A row read from a statement. -/
structure StatementRow where
  uploadId : String := ""
  accountId : String := ""
  date : Option String := none
  description : Option String := none
  amount : Nat := 0
  kind : Option TransactionKind := none
  referenceNumber : Option String := none
  rawRowHash : Option String := none
  rowNumber : Nat := 0
  isDuplicate : Option Bool := none
  createdAt : Option String := none
  updatedAt : Option String := none

/-- The wire form of `StatementRow`. -/
def StatementRow.record : Json.Record StatementRow where
  name := "ParsedStatementRow"
  initial := {}
  fields := [
    .defaulted "upload_id" .text (·.uploadId) (fun v s => { s with uploadId := v }),
    .defaulted "account_id" .text (·.accountId) (fun v s => { s with accountId := v }),
    .nullable "txn_date" .text (·.date) (fun v s => { s with date := v }),
    .nullable "description" .text (·.description) (fun v s => { s with description := v }),
    .defaulted "amount" .nat32 (·.amount) (fun v s => { s with amount := v }),
    .nullable "type" TransactionKind.codec (·.kind) (fun v s => { s with kind := v }),
    .nullable "reference_number" .text (·.referenceNumber)
      (fun v s => { s with referenceNumber := v }),
    .nullable "raw_row_hash" .text (·.rawRowHash) (fun v s => { s with rawRowHash := v }),
    .defaulted "row_number" .nat32 (·.rowNumber) (fun v s => { s with rowNumber := v }),
    .nullable "is_duplicate" .flag (·.isDuplicate) (fun v s => { s with isDuplicate := v }),
    .nullable "created_at" .text (·.createdAt) (fun v s => { s with createdAt := v }),
    .nullable "updated_at" .text (·.updatedAt) (fun v s => { s with updatedAt := v })]

/-- A statement file and what the backend has to know to reconcile it. -/
structure StatementUpload where
  statement : Bytes
  contentType : Option String
  periodStart : String
  periodEnd : String
  accountId : String
  userId : String
  fileName : String

end FinanceGateway
