import FinanceGateway.Proofs.Decimal.Scaled
import FinanceGateway.Proofs.Json.Codecs

/-!
# Numbers in texts

Every number that is read in a text is a JSON number: an integer of 64 bits, or a finite binary64
number. This holds of the tokens (`legal_of_scanUnsigned`), so of every leaf of a draft
(`Draft.legal_ofBytes`), and so of any value that is read from one (`legal_of_decodeAny`).
-/

namespace FinanceGateway.Json

/-! ## Tokens -/

/-- The significand that is taken has 64 bits. -/
theorem takeSignificand_lt {acc : Nat} (h : acc < 2 ^ 64) (digits : Bytes) :
    (takeSignificand acc digits).1 < 2 ^ 64 := by
  induction digits generalizing acc with
  | nil => exact h
  | cons d rest ih =>
    rw [takeSignificand]
    split
    · next hnext => exact ih hnext
    · exact h

theorem legal_of_realNumber {negative : Bool} {whole fraction : Bytes} {exponent : Int}
    {n : Number} (h : realNumber negative whole fraction exponent = .ok n) : n.Legal := by
  have hsignificand := takeSignificand_lt (takeSignificand_lt (Nat.two_pow_pos 64) whole) fraction
  unfold realNumber at h
  dsimp only at h
  split at h
  · next x hx =>
    have hfinite := Decimal.isFinite_of_scaled? hsignificand hx
    cases h
    cases negative with
    | false => exact hfinite
    | true => exact Decimal.isFinite_neg hfinite
  · cases h

theorem legal_of_wholeNumber {negative : Bool} {whole : Bytes} {n : Number}
    (h : wholeNumber negative whole = .ok n) : n.Legal := by
  have hpow : Nat.pow 2 64 = 2 ^ 64 ∧ Nat.pow 2 63 = 2 ^ 63 := ⟨rfl, rfl⟩
  unfold wholeNumber at h
  dsimp only at h
  rw [hpow.1, hpow.2] at h
  split at h
  · exact legal_of_realNumber h
  · next hlt =>
    split at h
    · cases h
      exact ⟨by omega, by omega⟩
    · split at h
      · cases h
        exact Decimal.isFinite_neg (Decimal.isFinite_ofNat (not_le.1 hlt))
      · next hsmall =>
        cases h
        simp only [Bool.or_eq_true, decide_eq_true_eq, not_or] at hsmall
        exact ⟨by omega, by omega⟩

/-- What a scan finds to be a number is a JSON number. -/
def Scanned.Legal : Scanned Number → Prop
  | .ended (.ok n) _ => n.Legal
  | _ => True

theorem legal_scanNumberTail (negative : Bool) (whole rest : Bytes) :
    (scanNumberTail negative whole rest).Legal := by
  have hreal : ∀ fraction exponent after,
      (Scanned.ended (realNumber negative whole fraction exponent) after).Legal := by
    intro fraction exponent after
    cases h : realNumber negative whole fraction exponent with
    | error => trivial
    | ok n => exact legal_of_realNumber h
  have hwhole : ∀ after, (Scanned.ended (wholeNumber negative whole) after).Legal := by
    intro after
    cases h : wholeNumber negative whole with
    | error => trivial
    | ok n => exact legal_of_wholeNumber h
  unfold scanNumberTail
  dsimp only
  repeat' split
  all_goals first | exact hreal _ _ _ | exact hwhole _ | trivial

theorem legal_scanUnsigned (negative : Bool) (bytes : Bytes) :
    (scanUnsigned negative bytes).Legal := by
  unfold scanUnsigned
  repeat' split
  all_goals first | exact legal_scanNumberTail _ _ _ | trivial

/-! ## Drafts -/

mutual

/-- The numbers in a draft are JSON numbers. -/
def Draft.Legal : Draft → Prop
  | .number (.ok n) => n.Legal
  | .array items => items.Legal
  | .object members => members.Legal
  | _ => True

/-- `Draft.Legal` over the items of an array. -/
def Items.Legal : Items → Prop
  | .cons head tail => head.Legal ∧ tail.Legal
  | .close | .broken _ _ => True

/-- `Draft.Legal` over the members of an object. -/
def Members.Legal : Members → Prop
  | .cons _ value tail => value.Legal ∧ tail.Legal
  | .keyless found => found.Legal
  | .close | .bare _ _ | .broken _ _ => True

end

theorem legal_draftWord {opening : Opening} {word : Bytes} {value : Draft} (h : value.Legal)
    (bytes : Bytes) : (draftWord opening word value bytes).1.Legal := by
  unfold draftWord
  split
  · exact h
  · trivial

theorem legal_draftToken_number {scanned : Scanned Number} (h : scanned.Legal) :
    (draftToken .other .number scanned).1.Legal := by
  cases scanned with
  | ended value rest =>
    cases value with
    | ok n => exact h
    | error => trivial
  | flawed => trivial

theorem legal_draftToken_text (scanned : Scanned String) :
    (draftToken .text .text scanned).1.Legal := by
  cases scanned <;> trivial

mutual

/-- The draft of a value has JSON numbers. -/
theorem legal_draftValue : ∀ fuel bytes, (draftValue fuel bytes).1.Legal
  | 0, _ => trivial
  | fuel + 1, bytes => by
    have hword : Draft.null.Legal ∧ ∀ b, (Draft.bool b).Legal := ⟨trivial, fun _ => trivial⟩
    unfold draftValue
    split
    · trivial
    · next b rest _ =>
      split
      · exact legal_draftWord hword.1 rest
      split
      · exact legal_draftWord (hword.2 true) rest
      split
      · exact legal_draftWord (hword.2 false) rest
      split
      · exact legal_draftToken_number (legal_scanUnsigned true rest)
      split
      · exact legal_draftToken_number (legal_scanUnsigned false (b :: rest))
      split
      · exact legal_draftToken_text (scanText rest)
      split
      · exact legal_draftItems fuel rest
      split
      · exact legal_draftMembers fuel rest
      · trivial

theorem legal_draftItems : ∀ fuel bytes, (draftItems fuel bytes).1.Legal
  | 0, _ => trivial
  | fuel + 1, bytes => by
    unfold draftItems
    split
    · trivial
    · trivial
    · exact legal_draftItem fuel _

theorem legal_draftItem : ∀ fuel bytes, (draftItem fuel bytes).1.Legal
  | 0, _ => trivial
  | fuel + 1, bytes => by
    have hhead := legal_draftValue fuel bytes
    unfold draftItem
    split
    · next head hvalue =>
      rw [hvalue] at hhead
      exact ⟨hhead, trivial⟩
    · next head after hvalue =>
      rw [hvalue] at hhead
      refine ⟨hhead, ?_⟩
      repeat' split
      all_goals first | exact legal_draftItem fuel _ | trivial

theorem legal_draftMembers : ∀ fuel bytes, (draftMembers fuel bytes).1.Legal
  | 0, _ => trivial
  | fuel + 1, bytes => by
    unfold draftMembers
    split
    · trivial
    · trivial
    · exact legal_draftMember fuel _
    · exact legal_draftValue fuel _

theorem legal_draftMember : ∀ fuel bytes, (draftMember fuel bytes).1.Legal
  | 0, _ => trivial
  | fuel + 1, bytes => by
    unfold draftMember
    split
    · trivial
    · split
      · trivial
      · next rest _ =>
        have hvalue := legal_draftValue fuel rest
        split
        · next value heq =>
          rw [heq] at hvalue
          exact ⟨hvalue, trivial⟩
        · next value after heq =>
          rw [heq] at hvalue
          refine ⟨hvalue, ?_⟩
          repeat' split
          all_goals first | exact legal_draftMember fuel _ | trivial
      · trivial

end

/-- Every number in the draft of a text is a JSON number. -/
theorem Draft.legal_ofBytes (bytes : Bytes) : (Draft.ofBytes bytes).1.Legal :=
  legal_draftValue _ bytes

/-! ## Values -/

namespace Codec

mutual

/-- Any value of a draft has JSON numbers if the draft has. -/
theorem legal_of_decodeAny {place : Reading} : ∀ {d : Draft} {j : Json}, d.Legal →
    decodeAny place d = .ok j → Legal j
  | .null, _, _, h | .bool _, _, _, h | .text (.ok _), _, _, h => by
    cases h
    trivial
  | .number (.ok n), _, hlegal, h => by
    cases h
    exact hlegal
  | .number (.error _), _, _, h | .text (.error _), _, _, h | .absent, _, _, h
  | .broken _ _ _, _, _, h => by cases h
  | .array items, _, hlegal, h => by
    rw [decodeAny] at h
    split at h
    · cases h
    · obtain ⟨js, hjs, rfl⟩ := map_eq_ok_iff.1 h
      exact legal_array_iff.2 (legal_of_decodeAnyItems hlegal hjs)
  | .object members, _, hlegal, h => by
    rw [decodeAny] at h
    split at h
    · cases h
    · obtain ⟨js, hjs, rfl⟩ := map_eq_ok_iff.1 h
      exact legal_object_iff.2 (legal_of_decodeAnyMembers hlegal (List.forall_mem_nil _) hjs)

theorem legal_of_decodeAnyItems {place : Reading} : ∀ {items : Items} {js : List Json},
    items.Legal → decodeAnyItems place items = .ok js → ∀ j ∈ js, Legal j
  | .close, _, _, h => by
    cases h
    exact nofun
  | .broken _ _, _, _, h => by cases h
  | .cons head tail, _, hlegal, h => by
    rw [decodeAnyItems] at h
    split at h
    · cases h
    · next j hj =>
      obtain ⟨js, hjs, rfl⟩ := map_eq_ok_iff.1 h
      exact List.forall_mem_cons.2
        ⟨legal_of_decodeAny hlegal.1 hj, legal_of_decodeAnyItems hlegal.2 hjs⟩

theorem legal_of_decodeAnyMembers {place : Reading} :
    ∀ {members : Members} {acc js : List (String × Json)}, members.Legal →
      (∀ m ∈ acc, Legal m.2) → decodeAnyMembers place members acc = .ok js → ∀ m ∈ js, Legal m.2
  | .close, _, _, _, hacc, h => by
    cases h
    exact hacc
  | .broken _ _, _, _, _, _, h | .keyless _, _, _, _, _, h | .bare (.ok _) _, _, _, _, _, h
  | .bare (.error _) _, _, _, _, _, h | .cons (.error _) _ _, _, _, _, _, h => by cases h
  | .cons (.ok key) value tail, _, _, hlegal, hacc, h => by
    rw [decodeAnyMembers] at h
    split at h
    · cases h
    · next j hj =>
      refine legal_of_decodeAnyMembers hlegal.2 (fun m hm => ?_) h
      rcases Dictionary.mem_of_mem_insert hm with rfl | hm
      · exact legal_of_decodeAny hlegal.1 hj
      · exact hacc m hm

end

end Codec

end FinanceGateway.Json
