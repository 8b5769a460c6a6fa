import FinanceGateway.Proofs.Finance.Records

/-!
# Values go through the wire unchanged

Every type that goes over the wire both ways (`WireType`): record types, the two enumerations and
lists. A value in the range of its type whose floats are finite is read again from its encoding
(`WireType.roundTrips`), and whatever a JSON value is read as is such a value again
(`wire_round_trip`).
-/

namespace FinanceGateway

open Json

@[simp] theorem TransactionKind.roundTrips (kind : TransactionKind) :
    TransactionKind.codec.RoundTrips kind :=
  Codec.roundTrips_enumeration (by cases kind <;> rfl)

@[simp] theorem ActionKind.roundTrips (kind : ActionKind) : ActionKind.codec.RoundTrips kind :=
  Codec.roundTrips_enumeration (by cases kind; rfl)

namespace RecordType

/-- The numbers of a record are in the range of their types, and the keys of its maps in order. -/
def InRange : (T : RecordType) → T.Value → Prop
  | sms, m => m.retryCount < 2 ^ 8
  | goal, g => g.priority < 2 ^ 8
  | newGoal, g => ∀ n ∈ g.priority, n < 2 ^ 8
  | goalUpdate, g => ∀ n ∈ g.priority, n < 2 ^ 8
  | goalFilter, f => ∀ n ∈ f.priority, n < 2 ^ 8
  | statementRow, r => r.amount < 2 ^ 32 ∧ r.rowNumber < 2 ^ 32
  | profile, p => (∀ i ∈ p.llmParseCredits, -2 ^ 31 ≤ i ∧ i < 2 ^ 31) ∧
      p.imageAttempts < 2 ^ 32 ∧ p.imageSuccesses < 2 ^ 32
  | user, u => u.imageAttempts < 2 ^ 32 ∧ u.imageSuccesses < 2 ^ 32
  | health, h => Dictionary.Sorted h.checks
  | backendError, e => e.status < 2 ^ 16
  | errorDetails, d => d.status < 2 ^ 16 ∧ Dictionary.Sorted d.fieldErrors
  | bank, _ | account, _ | newAccount, _ | accountUpdate, _ | transaction, _ | newTransaction, _
  | transactionDeletion, _ | transactionFilter, _ | receipt, _ | newSms, _ | listedBank, _
  | category, _ | merchant, _ | userUpdate, _ | checkResult, _ | fieldError, _
  | errorAction, _ => True

/-- The floats of a record are finite. -/
def HasFiniteFloats : (T : RecordType) → T.Value → Prop
  | account, a => a.currentBalance.isFinite
  | accountUpdate, u => ∀ x ∈ u.currentBalance, x.isFinite
  | transaction, t => t.amount.isFinite
  | newTransaction, t => t.amount.isFinite
  | receipt, r => r.amount.isFinite ∧ ∀ x ∈ r.transactionAmount, x.isFinite
  | goal, g => g.targetAmount.isFinite ∧ g.currentAmount.isFinite
  | newGoal, g => g.targetAmount.isFinite ∧ ∀ x ∈ g.currentAmount, x.isFinite
  | goalUpdate, g => (∀ x ∈ g.targetAmount, x.isFinite) ∧ ∀ x ∈ g.currentAmount, x.isFinite
  | goalFilter, f => (∀ x ∈ f.targetAmountLessThan, x.isFinite) ∧
      ∀ x ∈ f.targetAmountGreaterThan, x.isFinite
  | profile, p => (∀ x ∈ p.lifetimeIncome, x.isFinite) ∧ ∀ x ∈ p.lifetimeExpense, x.isFinite
  | user, u => u.lifetimeExpense.isFinite ∧ u.lifetimeIncome.isFinite
  | userUpdate, u => (∀ x ∈ u.lifetimeExpense, x.isFinite) ∧ ∀ x ∈ u.lifetimeIncome, x.isFinite
  | bank, _ | newAccount, _ | transactionDeletion, _ | transactionFilter, _ | sms, _ | newSms, _
  | statementRow, _ | listedBank, _ | category, _ | merchant, _ | checkResult, _ | health, _
  | backendError, _ | fieldError, _ | errorAction, _ | errorDetails, _ => True

/-- Every record that stands in others goes through its encoding. -/
theorem roundTrips_of_nested {T : RecordType} (h : T ∈ nested) (x : T.Value) :
    T.record.codec.RoundTrips x := by
  refine T.lawful.roundTrips T.sound (List.forall_iff_forall_mem.1 ?_)
  fin_cases h <;> simp [record, Bank.record, CheckResult.record, FieldError.record,
    ErrorAction.record]

@[simp] theorem roundTrips_bank (b : Bank) : Bank.record.codec.RoundTrips b :=
  roundTrips_of_nested (T := bank) (by decide) b

@[simp] theorem roundTrips_checkResult (c : CheckResult) : CheckResult.record.codec.RoundTrips c :=
  roundTrips_of_nested (T := checkResult) (by decide) c

@[simp] theorem roundTrips_fieldError (e : FieldError) : FieldError.record.codec.RoundTrips e :=
  roundTrips_of_nested (T := fieldError) (by decide) e

@[simp] theorem roundTrips_errorAction (a : ErrorAction) : ErrorAction.record.codec.RoundTrips a :=
  roundTrips_of_nested (T := errorAction) (by decide) a

/-- A record in range with finite floats goes through its encoding. -/
theorem roundTrips {T : RecordType} {x : T.Value} (hrange : T.InRange x)
    (hfinite : T.HasFiniteFloats x) : T.record.codec.RoundTrips x := by
  by_cases hnested : T ∈ nested
  · exact roundTrips_of_nested hnested x
  refine T.lawful.roundTrips T.sound (List.forall_iff_forall_mem.1 ?_)
  cases T with
  | bank | checkResult | fieldError | errorAction => exact absurd (by decide) hnested
  | health =>
    simpa [record, Health.record] using
      Codec.roundTrips_map hrange fun _ _ => roundTrips_checkResult _
  | errorDetails =>
    have hmap := Codec.roundTrips_map hrange.2 fun _ _ => Codec.roundTrips_text _
    simpa [record, ErrorDetails.record, hmap] using hrange.1
  | _ =>
    simp only [InRange, HasFiniteFloats] at hrange hfinite
    simp_all [record, Account.record, NewAccount.record, AccountUpdate.record, Transaction.record,
      NewTransaction.record, TransactionDeletion.record, TransactionFilter.record, Receipt.record,
      Sms.record, NewSms.record, Goal.record, NewGoal.record, GoalUpdate.record, GoalFilter.record,
      StatementRow.record, ListedBank.record, Category.record, Merchant.record, Profile.record,
      User.record, UserUpdate.record, BackendError.record]

end RecordType

/-- A type that goes over the wire both ways. -/
inductive WireType
  | record (T : RecordType)
  | transactionKind
  | actionKind
  | list (T : WireType)
  deriving Repr, DecidableEq

namespace WireType

/-- The values of a type. -/
def Value : WireType → Type
  | record T => T.Value
  | transactionKind => TransactionKind
  | actionKind => ActionKind
  | list T => List T.Value

/-- The wire form of a type. -/
def codec : (T : WireType) → Codec T.Value
  | record T => T.record.codec
  | transactionKind => TransactionKind.codec
  | actionKind => ActionKind.codec
  | list T => T.codec.list

/-- The numbers of a value are in the range of their types, and the keys of its maps in order. -/
def InRange : (T : WireType) → T.Value → Prop
  | record T, x => T.InRange x
  | transactionKind, _ | actionKind, _ => True
  | list T, (xs : List T.Value) => ∀ x ∈ xs, T.InRange x

/-- The floats of a value are finite. -/
def HasFiniteFloats : (T : WireType) → T.Value → Prop
  | record T, x => T.HasFiniteFloats x
  | transactionKind, _ | actionKind, _ => True
  | list T, (xs : List T.Value) => ∀ x ∈ xs, T.HasFiniteFloats x

/-- The codec of every type is lawful. -/
instance lawful (T : WireType) : T.codec.Lawful := by
  induction T with
  | record T => exact inferInstanceAs T.record.codec.Lawful
  | transactionKind => exact inferInstanceAs TransactionKind.codec.Lawful
  | actionKind => exact inferInstanceAs ActionKind.codec.Lawful
  | list T ih => exact inferInstanceAs T.codec.list.Lawful

/-- A value in range with finite floats goes through its encoding. -/
theorem roundTrips {T : WireType} {x : T.Value} (hrange : T.InRange x)
    (hfinite : T.HasFiniteFloats x) : T.codec.RoundTrips x := by
  induction T with
  | record T => exact RecordType.roundTrips hrange hfinite
  | transactionKind => exact TransactionKind.roundTrips x
  | actionKind => exact ActionKind.roundTrips x
  | list T ih =>
    exact Codec.roundTrips_list_iff.2 fun y hy => ih (hrange y hy) (hfinite y hy)

end WireType

/-- A value in the range of its type whose floats are finite is read again from its encoding, be the
members of objects as they are declared or in order. And what a JSON value is read as has an
encoding that is read as the same, and that reading and encoding leaves as it is. -/
theorem wire_round_trip (T : WireType) :
    (∀ x, T.InRange x → T.HasFiniteFloats x →
      T.codec.decodeJson (T.codec.encode x) = .ok x ∧
        T.codec.decodeJson (T.codec.ordered x) = .ok x) ∧
    ∀ j k, Legal j → T.codec.rewrite j = .ok k →
      T.codec.decodeJson k = T.codec.decodeJson j ∧ T.codec.rewrite k = .ok k := by
  refine ⟨fun x hrange hfinite => ?_, fun j k hlegal h => Codec.Lawful.rewrite_fixed hlegal h⟩
  have hround := WireType.roundTrips hrange hfinite
  exact ⟨hround, Codec.Lawful.decodeJson_ordered hround⟩

/-- Accounts with a bank, and the JSON of one whose balance is an integer and that has a member of
no field. -/
theorem accounts_round_trip :
    let T : WireType := .list (.record .account)
    let accounts : List Account :=
      [{ id := "a1", currentBalance := 12.5, bank := some { id := "b1" } }]
    let j : Json := .array [.object [
      ("id", .text "a1"), ("current_balence", .int 7), ("branch", .null)]]
    T.codec.decodeJson (T.codec.encode accounts) = .ok accounts ∧
      ∃ k, T.codec.rewrite j = .ok k ∧ T.codec.rewrite k = .ok k := by
  intro T accounts j
  obtain ⟨hvalues, hjson⟩ := wire_round_trip T
  have hfinite : T.HasFiniteFloats accounts := fun a ha => by
    obtain rfl := List.mem_singleton.1 ha
    exact (by decide : (12.5 : Float).isFinite = true)
  have hlegal : Legal j := by
    simp [j, Legal, LegalItems, LegalMembers, Json.int, Number.Legal]
  obtain ⟨k, hk⟩ : ∃ k, T.codec.rewrite j = .ok k := ⟨_, rfl⟩
  exact ⟨(hvalues accounts (fun _ _ => trivial) hfinite).1, k, hk, (hjson j k hlegal hk).2⟩

end FinanceGateway
