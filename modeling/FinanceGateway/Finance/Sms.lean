import FinanceGateway.Json.Record

/-!
# Bank messages

The text messages of banks that the backend reads transactions from, and the request to submit one.
-/

namespace FinanceGateway

/-- A message and how far it has been read. -/
structure Sms where
  id : String := ""
  userId : String := ""
  sender : String := ""
  rawMessage : String := ""
  receivedAt : Option String := none
  parsingStatus : String := ""
  errorMessage : Option String := none
  retryCount : Nat := 0
  llmParsed : Bool := false
  llmParsedAttempted : Bool := false
  llmResponse : Option String := none
  createdAt : Option String := none
  updatedAt : Option String := none
  lastRetryAt : Option String := none

/-- The wire form of `Sms`. -/
def Sms.record : Json.Record Sms where
  name := "SmsLog"
  initial := {}
  fields := [
    .defaulted "id" .text (·.id) (fun v s => { s with id := v }),
    .defaulted "user_id" .text (·.userId) (fun v s => { s with userId := v }),
    .defaulted "sender" .text (·.sender) (fun v s => { s with sender := v }),
    .defaulted "raw_message" .text (·.rawMessage) (fun v s => { s with rawMessage := v }),
    .nullable "received_at" .text (·.receivedAt) (fun v s => { s with receivedAt := v }),
    .defaulted "parsing_status" .text (·.parsingStatus) (fun v s => { s with parsingStatus := v }),
    .nullable "error_message" .text (·.errorMessage) (fun v s => { s with errorMessage := v }),
    .defaulted "retry_count" .nat8 (·.retryCount) (fun v s => { s with retryCount := v }),
    .defaulted "llm_parsed" .flag (·.llmParsed) (fun v s => { s with llmParsed := v }),
    .defaulted "llm_parsed_attempted" .flag (·.llmParsedAttempted)
      (fun v s => { s with llmParsedAttempted := v }),
    .nullable "llm_response" .text (·.llmResponse) (fun v s => { s with llmResponse := v }),
    .nullable "created_at" .text (·.createdAt) (fun v s => { s with createdAt := v }),
    .nullable "updated_at" .text (·.updatedAt) (fun v s => { s with updatedAt := v }),
    .nullable "last_retry_at" .text (·.lastRetryAt) (fun v s => { s with lastRetryAt := v })]

/-- A message that a caller submits. -/
structure NewSms where
  sender : String := ""
  rawMessage : String := ""
  receivedAt : Option String := none

/-- The wire form of `NewSms`. -/
def NewSms.record : Json.Record NewSms where
  name := "CreateSmsReq"
  initial := {}
  fields := [
    .required "sender" .text (·.sender) (fun v s => { s with sender := v }),
    .required "raw_message" .text (·.rawMessage) (fun v s => { s with rawMessage := v }),
    .sparse "received_at" .text (·.receivedAt) (fun v s => { s with receivedAt := v })]

end FinanceGateway
