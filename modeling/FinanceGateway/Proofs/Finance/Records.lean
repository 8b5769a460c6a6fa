import FinanceGateway.Failure.Details
import FinanceGateway.Finance.Account
import FinanceGateway.Finance.Goal
import FinanceGateway.Finance.Health
import FinanceGateway.Finance.Reference
import FinanceGateway.Finance.Sms
import FinanceGateway.Finance.Statement
import FinanceGateway.Finance.User
import FinanceGateway.Proofs.Json.Records

/-!
# The record types of the wire

Every record type that callers or the backend send (`RecordType`), with the laws of its table of
fields: the fields are its coordinates (`RecordType.lawful`), and the value of each goes through the
wire (`RecordType.sound`).
-/

namespace FinanceGateway

open Json

/-- A record type that goes over the wire both ways. -/
inductive RecordType
  | bank
  | account
  | newAccount
  | accountUpdate
  | transaction
  | newTransaction
  | transactionDeletion
  | transactionFilter
  | receipt
  | sms
  | newSms
  | goal
  | newGoal
  | goalUpdate
  | goalFilter
  | statementRow
  | listedBank
  | category
  | merchant
  | profile
  | user
  | userUpdate
  | checkResult
  | health
  | backendError
  | fieldError
  | errorAction
  | errorDetails
  deriving Repr, DecidableEq

namespace RecordType

/-- The records of a type. -/
@[reducible] def Value : RecordType → Type
  | bank => Bank
  | account => Account
  | newAccount => NewAccount
  | accountUpdate => AccountUpdate
  | transaction => Transaction
  | newTransaction => NewTransaction
  | transactionDeletion => TransactionDeletion
  | transactionFilter => TransactionFilter
  | receipt => Receipt
  | sms => Sms
  | newSms => NewSms
  | goal => Goal
  | newGoal => NewGoal
  | goalUpdate => GoalUpdate
  | goalFilter => GoalFilter
  | statementRow => StatementRow
  | listedBank => ListedBank
  | category => Category
  | merchant => Merchant
  | profile => Profile
  | user => User
  | userUpdate => UserUpdate
  | checkResult => CheckResult
  | health => Health
  | backendError => BackendError
  | fieldError => FieldError
  | errorAction => ErrorAction
  | errorDetails => ErrorDetails

/-- The table of a type. -/
def record : (T : RecordType) → Record T.Value
  | bank => Bank.record
  | account => Account.record
  | newAccount => NewAccount.record
  | accountUpdate => AccountUpdate.record
  | transaction => Transaction.record
  | newTransaction => NewTransaction.record
  | transactionDeletion => TransactionDeletion.record
  | transactionFilter => TransactionFilter.record
  | receipt => Receipt.record
  | sms => Sms.record
  | newSms => NewSms.record
  | goal => Goal.record
  | newGoal => NewGoal.record
  | goalUpdate => GoalUpdate.record
  | goalFilter => GoalFilter.record
  | statementRow => StatementRow.record
  | listedBank => ListedBank.record
  | category => Category.record
  | merchant => Merchant.record
  | profile => Profile.record
  | user => User.record
  | userUpdate => UserUpdate.record
  | checkResult => CheckResult.record
  | health => Health.record
  | backendError => BackendError.record
  | fieldError => FieldError.record
  | errorAction => ErrorAction.record
  | errorDetails => ErrorDetails.record

/-! ## Coordinates -/

theorem names_nodup (T : RecordType) : (T.record.fields.map (·.name)).Nodup := by
  cases T <;> decide

theorem get_set (T : RecordType) : ∀ f ∈ T.record.fields, ∀ v s, f.get (f.set v s) = v := by
  rw [← List.forall_iff_forall_mem]
  cases T <;> repeat' first | exact fun _ _ => rfl | apply And.intro

theorem apart (T : RecordType) : T.record.fields.Pairwise Field.Apart := by
  cases T <;> repeat' first
    | refine And.intro ?_ ?_
    | exact fun _ _ => rfl
    | refine List.Pairwise.cons (List.forall_iff_forall_mem.1 ?_) ?_
    | exact trivial
    | exact List.Pairwise.nil

theorem ext (T : RecordType) {s t : T.Value} (h : ∀ f ∈ T.record.fields, f.get s = f.get t) :
    s = t := by
  rw [← List.forall_iff_forall_mem] at h
  cases T <;> cases s <;> cases t <;> simp only [Bank.mk.injEq, Account.mk.injEq,
    NewAccount.mk.injEq, AccountUpdate.mk.injEq, Transaction.mk.injEq, NewTransaction.mk.injEq,
    TransactionDeletion.mk.injEq, TransactionFilter.mk.injEq, Receipt.mk.injEq, Sms.mk.injEq,
    NewSms.mk.injEq, Goal.mk.injEq, NewGoal.mk.injEq, GoalUpdate.mk.injEq, GoalFilter.mk.injEq,
    StatementRow.mk.injEq, ListedBank.mk.injEq, Category.mk.injEq, Merchant.mk.injEq,
    Profile.mk.injEq, User.mk.injEq, UserUpdate.mk.injEq, CheckResult.mk.injEq, Health.mk.injEq,
    BackendError.mk.injEq, FieldError.mk.injEq, ErrorAction.mk.injEq, ErrorDetails.mk.injEq] <;>
    first | exact h | exact ⟨trivial, h.2⟩

/-- The fields of every record type are its coordinates. -/
theorem lawful (T : RecordType) : T.record.Lawful :=
  ⟨T.names_nodup, T.get_set, T.apart, T.ext⟩

end RecordType

/-! ## Values of fields -/

instance : TransactionKind.codec.Lawful :=
  Codec.lawful_enumeration fun kind => by cases kind <;> rfl

instance : TransactionKind.codec.RejectsNull := ⟨_, rfl⟩

instance : ActionKind.codec.Lawful :=
  Codec.lawful_enumeration fun kind => by cases kind; rfl

namespace RecordType

/-- The record types whose records stand in those of others. -/
def nested : List RecordType :=
  [bank, checkResult, fieldError, errorAction]

theorem sound_of_nested {T : RecordType} (h : T ∈ nested) :
    ∀ f ∈ T.record.fields, f.Sound T.record.initial := by
  rw [← List.forall_iff_forall_mem]
  fin_cases h <;> repeat' first
    | refine And.intro ?_ ?_
    | exact Field.sound_written rfl
    | exact Field.sound_sparse nofun rfl

theorem lawful_of_nested {T : RecordType} (h : T ∈ nested) : T.record.codec.Lawful :=
  T.lawful.codec (sound_of_nested h)

instance : Bank.record.codec.Lawful :=
  lawful_of_nested (T := bank) (by decide)

instance : CheckResult.record.codec.Lawful :=
  lawful_of_nested (T := checkResult) (by decide)

instance : FieldError.record.codec.Lawful :=
  lawful_of_nested (T := fieldError) (by decide)

instance : ErrorAction.record.codec.Lawful :=
  lawful_of_nested (T := errorAction) (by decide)

/-- The values of the fields of every record type go through the wire. -/
theorem sound (T : RecordType) : ∀ f ∈ T.record.fields, f.Sound T.record.initial := by
  rw [← List.forall_iff_forall_mem]
  cases T <;> repeat' first
    | refine And.intro ?_ ?_
    | exact Field.sound_written rfl
    | exact Field.sound_sparse nofun rfl
    | exact Field.sound_map nofun rfl

/-- The codec of every record type is lawful. -/
instance (T : RecordType) : T.record.codec.Lawful :=
  T.lawful.codec T.sound

end RecordType

end FinanceGateway
