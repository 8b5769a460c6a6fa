import FinanceGateway.Proofs.Finance.Records
import FinanceGateway.Proofs.Json.Given
import FinanceGateway.Proofs.Json.Reread
import FinanceGateway.Proofs.Json.Texts

/-!
# What callers write

The record types that callers write to the backend (`RecordType.writes`) have only fields that must
be given and optional ones that are left out when absent. So the encoding of what is read from an
object has the members that the object has for these fields and that are not null
(`RecordType.get?_ordered`), and is read as the same record (`RecordType.decodeJson_ordered`). The
text of the encoding is read as the same record exactly when its binary64 numbers are read back
(`RecordType.decodeText_ordered_iff`).
-/

namespace FinanceGateway

open Json

instance {depth : Nat} : TransactionKind.codec.ReadsValue (depth + 2) :=
  inferInstanceAs (Codec.ReadsValue (Codec.enumeration _ _) (depth + 2))

instance {depth : Nat} : TransactionKind.codec.Rereads depth :=
  inferInstanceAs (Codec.Rereads (Codec.enumeration _ _) depth)

instance : TransactionKind.codec.GivesBack asName :=
  Codec.givesBack_enumeration (by decide)

namespace RecordType

/-- The record types that callers write to the backend. -/
def writes : List RecordType :=
  [newAccount, accountUpdate, newTransaction, transactionDeletion, newSms, newGoal, goalUpdate,
    userUpdate]

/-- The names of the fields of a record type. -/
def names (T : RecordType) : List String :=
  T.record.fields.map (·.name)

/-- The names of the fields that hold floats. -/
def realNames : RecordType → List String
  | account | accountUpdate => ["current_balence"]
  | transaction | newTransaction => ["amount"]
  | receipt => ["amount", "transaction_amount"]
  | goal | newGoal | goalUpdate => ["target_amount", "current_amount"]
  | goalFilter => ["target_amount_less_than", "target_amount_greater_than"]
  | profile | user | userUpdate => ["lifetime_income", "lifetime_expense"]
  | bank | newAccount | transactionDeletion | transactionFilter | sms | newSms | statementRow
  | listedBank | category | merchant | checkResult | health | backendError | fieldError
  | errorAction | errorDetails => []

/-- How a member is put when it is written: a number of a float as one, a variant by its name. -/
def put (T : RecordType) (name : String) : Json → Json :=
  if name ∈ T.realNames then asReal else if name = "type" then asName else id

variable {T : RecordType} {depth : Nat} {members : Members} {x : T.Value}

theorem name_mem_names {f : Json.Field T.Value} (hf : f ∈ T.record.fields) : f.name ∈ T.names :=
  List.mem_map_of_mem hf

theorem readsValue_of_writes (hT : T ∈ writes) (depth : Nat) :
    ∀ f ∈ T.record.fields, f.codec.ReadsValue (depth + 2) := by
  rw [← List.forall_iff_forall_mem]
  fin_cases hT <;> repeat' first
    | refine And.intro ?_ ?_
    | exact Field.readsValue_required
    | exact Field.readsValue_sparse

theorem givesBack_of_writes (hT : T ∈ writes) :
    ∀ f ∈ T.record.fields, f.GivesBack T.record.initial (T.put f.name) := by
  rw [← List.forall_iff_forall_mem]
  fin_cases hT <;> repeat' first
    | refine And.intro ?_ ?_
    | exact Field.givesBack_required
    | exact Field.givesBack_sparse rfl

theorem rereads_of_writes (hT : T ∈ writes) (depth : Nat) :
    ∀ f ∈ T.record.fields, f.codec.Rereads (depth + 2) := by
  rw [← List.forall_iff_forall_mem]
  fin_cases hT <;> repeat' first
    | refine And.intro ?_ ?_
    | exact Field.rereads_required
    | exact Field.rereads_sparse

/-- Where a kind is given by its name, only numbers of floats are put in another way. -/
theorem put_eq {name : String} {j : Json} (h : name = "type" → j = .null ∨ ∃ s, j = .text s) :
    T.put name j = if name ∈ T.realNames then j.asReal else j := by
  unfold put
  split
  · rfl
  · split
    · next hname => rcases h hname with rfl | ⟨s, rfl⟩ <;> rfl
    · rfl

/-- What is read from an object is written with the members that the object has for the fields,
unless they are null, and with no others. -/
theorem get?_ordered (hT : T ∈ writes) (hlegal : members.Legal)
    (hx : T.record.codec.decode ⟨.text, depth + 3⟩ (.object members) = .ok x) (name : String) :
    Dictionary.get? (T.record.ordered x) name =
      if name ∈ T.names then
        ((members.value? ⟨.text, depth + 2⟩ name).bind given?).map (T.put name)
      else none := by
  rw [T.lawful.get?_ordered]
  cases hfield : T.record.field? name with
  | none =>
    have hunknown : name ∉ T.names := by
      intro hname
      obtain ⟨f, hf, rfl⟩ := List.mem_map.1 hname
      exact Record.name_ne_of_field? hfield hf rfl
    rw [if_neg hunknown]
    rfl
  | some f =>
    obtain ⟨hf, rfl⟩ := Record.mem_of_field? hfield
    have hreads := (T.lawful.reads_of_decode (readsValue_of_writes hT _) hx f hf).1
    rw [if_pos (name_mem_names hf)]
    exact givesBack_of_writes hT f hf (fun j => Members.legal_of_value? hlegal) hreads

/-- What is read from an object goes through its encoding. -/
theorem roundTrips_of_text (hT : T ∈ writes) (hlegal : members.Legal)
    (hx : T.record.codec.decode ⟨.text, depth + 3⟩ (.object members) = .ok x) :
    T.record.codec.RoundTrips x := by
  refine T.lawful.roundTrips T.sound fun f hf => ?_
  have hreads := (T.lawful.reads_of_decode (readsValue_of_writes hT _) hx f hf).1
  exact (T.sound f hf).carries (fun j => Members.legal_of_value? hlegal) hreads.1

/-- However a member is put, its numbers are JSON numbers. -/
theorem legal_put {name : String} {j : Json} (h : j.Legal) : (T.put name j).Legal := by
  unfold put
  split
  · match j with
    | .number (.int i) => exact Decimal.isFinite_ofInt h
    | .number (.real _) | .null | .bool _ | .text _ | .array _ | .object _ => exact h
  · split
    · unfold asName
      split
      · trivial
      · exact h
    · exact h

/-- What is read from an object is read from its encoding. -/
theorem decodeJson_ordered (hT : T ∈ writes) (hlegal : members.Legal)
    (hx : T.record.codec.decode ⟨.text, depth + 3⟩ (.object members) = .ok x) :
    T.record.codec.decodeJson (.object (T.record.ordered x)) = .ok x := by
  rw [← Record.codec_ordered]
  exact Codec.Lawful.decodeJson_ordered (roundTrips_of_text hT hlegal hx)

/-- The text of the encoding of what is read from an object is read as the same exactly when every
binary64 number in it is read back. -/
theorem decodeText_ordered_iff (hT : T ∈ writes) (hlegal : members.Legal)
    (hx : T.record.codec.decode ⟨.text, Codec.depthLimit⟩ (.object members) = .ok x) :
    T.record.codec.decodeText (Utf8.encode (Json.object (T.record.ordered x)).compact) = .ok x ↔
      ∀ name y, Dictionary.get? (T.record.ordered x) name = some (.number (.real y)) →
        IsReadBack y := by
  have hget : ∀ m, m ∈ T.record.ordered x ↔
      Dictionary.get? (T.record.ordered x) m.1 = some m.2 := fun m =>
    ⟨Dictionary.get?_of_mem (Dictionary.sorted_ofList _).nodup, Dictionary.mem_of_get?⟩
  have hmember : ∀ m ∈ T.record.ordered x, m.1 ∈ T.names ∧ m.2.Legal := by
    intro m hm
    rw [hget, get?_ordered hT hlegal hx] at hm
    split at hm
    · next hname =>
      simp only [Option.map_eq_some_iff, Option.bind_eq_some_iff, given?_eq_some_iff] at hm
      obtain ⟨_, ⟨given, hgiven, -, rfl⟩, hput⟩ := hm
      rw [← hput]
      exact ⟨hname, legal_put (Members.legal_of_value? hlegal hgiven)⟩
    · cases hm
  have hknown : ∀ m ∈ T.record.ordered x, ∃ f, T.record.field? m.1 = some f := by
    intro m hm
    obtain ⟨f, hf, hname⟩ := List.mem_map.1 (hmember m hm).1
    cases hfield : T.record.field? m.1 with
    | none => exact absurd hname.symm (Record.name_ne_of_field? hfield hf)
    | some g => exact ⟨g, rfl⟩
  have hmembers : Legal (.object (T.record.ordered x)) :=
    legal_object_iff.2 fun m hm => (hmember m hm).2
  rw [Codec.decodeText_compact]
  refine (T.lawful.decode_ofPrinted_iff (rereads_of_writes hT 125) hmembers hknown
    (decodeJson_ordered hT hlegal hx)).trans ⟨fun h name y hy => ?_, fun h m hm y hy => ?_⟩
  · exact h (name, .number (.real y)) ((hget _).2 hy) y rfl
  · exact h m.1 y (hy ▸ (hget m).1 hm)

end RecordType

end FinanceGateway
