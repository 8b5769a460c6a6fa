import FinanceGateway.Proofs.Finance.Records

/-!
# Answers that lack members or have more of them

Any member of an answer may be missing, and any other may be there. For each record type of answers
(`RecordType.answers`), an object that lacks members is read as what it would be read as with them,
with the defaults in the fields that are lacking: `lacking_members_have_defaults`.
-/

namespace FinanceGateway

open Json

namespace RecordType

/-- The record types of the backend's answers. -/
def answers : List RecordType :=
  [bank, account, transaction, receipt, sms, goal, statementRow, listedBank, category, merchant,
    profile, user, checkResult, health]

/-- Every field of an answer has a default. -/
theorem defaulted_of_answers {T : RecordType} (h : T ∈ answers) :
    ∀ f ∈ T.record.fields, f.missing = .defaulted := by
  fin_cases h <;> decide

end RecordType

/-- An object that lacks members of an object that is read as an answer, has the same value for the
fields that it does not lack, each once, and any members that no field has, is read as the answer
with the defaults in the fields that it lacks, and in no other. -/
theorem lacking_members_have_defaults {T : RecordType} (hT : T ∈ RecordType.answers)
    {members members' : List (String × Json)} {x : T.Value}
    (hx : T.record.codec.decodeJson (.object members) = .ok x)
    (honce : ∀ f ∈ T.record.fields, (members'.map (·.1)).count f.name ≤ 1)
    (hless : ∀ f ∈ T.record.fields,
      Dictionary.get? members' f.name = Dictionary.get? members f.name ∨
        Dictionary.get? members' f.name = none) :
    ∃ x', T.record.codec.decodeJson (.object members') = .ok x' ∧
      x' = T.record.reset (fun name => (Dictionary.get? members' name).isNone) x ∧
      ∀ f ∈ T.record.fields, f.get x' =
        if (Dictionary.get? members' f.name).isNone then f.get T.record.initial else f.get x := by
  have hoptional : ∀ f ∈ T.record.fields, f.missing ≠ .required := fun f hf => by
    rw [RecordType.defaulted_of_answers hT f hf]
    nofun
  refine ⟨_, T.lawful.decodeJson_of_lacking hoptional hx honce hless, rfl, fun f hf => ?_⟩
  exact T.lawful.get_reset _ x hf

/-- A transaction of which the kind is lacking, with a member of no field. -/
theorem transaction_without_kind :
    let members : List (String × Json) := [("id", .text "t1"), ("account_id", .text "a1"),
      ("type", .text "DEBIT"), ("amount", .number (.real 12.5))]
    let members' : List (String × Json) := [("amount", .number (.real 12.5)), ("branch", .null),
      ("account_id", .text "a1"), ("id", .text "t1")]
    let t : Transaction := { id := "t1", accountId := "a1", kind := some .debit, amount := 12.5 }
    Transaction.record.codec.decodeJson (.object members) = .ok t ∧
      Transaction.record.codec.decodeJson (.object members') = .ok { t with kind := none } := by
  intro members members' t
  have hx : Transaction.record.codec.decodeJson (.object members) = .ok t := rfl
  have hless : ∀ f ∈ Transaction.record.fields,
      Dictionary.get? members' f.name = Dictionary.get? members f.name ∨
        Dictionary.get? members' f.name = none := by
    rw [← List.forall_iff_forall_mem]
    repeat' first | refine And.intro ?_ ?_ | exact .inl rfl | exact .inr rfl
  obtain ⟨x', hx', rfl, -⟩ := lacking_members_have_defaults (T := .transaction)
    (by decide) hx (fun _ _ => List.nodup_iff_count_le_one.1 (by decide) _) hless
  exact ⟨hx, hx'⟩

end FinanceGateway
