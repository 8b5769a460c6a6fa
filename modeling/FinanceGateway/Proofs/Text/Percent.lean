import FinanceGateway.Text.Percent
import FinanceGateway.Proofs.Text.Utf8

/-!
# Percent codes are lossless

Whatever may stand for itself, as long as that is ASCII and not the percent sign, the codes of bytes
are ASCII (`encodeBytes_ascii`) and decode to those bytes (`decode_encodeBytes`). For the text form
`Percent.encode` this gives the round trip `decodeText?_encode`; `isCoded` names the characters that
it is made of, among which no separator of an address is, and `Coded` how they stand together.
-/

namespace FinanceGateway.Percent

/-! ## Digits -/

/-- A capital digit is ASCII. -/
theorem capitalDigit_lt (n : Fin 16) : (Hex.capitalDigit n).toNat < 128 := by
  revert n
  decide

/-- A capital digit is a letter or digit. -/
theorem isAlphanumeric_capitalDigit (n : Fin 16) :
    isAlphanumeric (UInt8.ofNat (Hex.capitalDigit n).toNat) = true := by
  revert n
  decide

/-- A capital digit has the value that it stands for. -/
theorem byteValue?_capitalDigit (n : Fin 16) :
    Hex.byteValue? (UInt8.ofNat (Hex.capitalDigit n).toNat) = some n.val := by
  revert n
  decide

/-- What holds of the 256 bytes holds of every byte. -/
theorem forall_byte {p : UInt8 → Prop} (h : ∀ n : Fin 256, p (UInt8.ofNat n)) (b : UInt8) :
    p b := by
  have := h ⟨b.toNat, b.toNat_lt⟩
  rwa [UInt8.ofNat_toNat] at this

/-- The two digits of a byte. -/
theorem code_eq (b : UInt8) :
    ∃ high low : Fin 16, high.val * 16 + low.val = b.toNat ∧
      code b = ['%', Hex.capitalDigit high, Hex.capitalDigit low] := by
  have h := b.toNat_lt
  exact ⟨⟨b.toNat / 16, by omega⟩, ⟨b.toNat % 16, by omega⟩, by simp only; omega, rfl⟩

/-! ## Decoding what was encoded -/

/-- The bytes of ASCII characters. -/
def asciiBytes (cs : List Char) : Bytes :=
  cs.map fun c => UInt8.ofNat c.toNat

@[simp] theorem asciiBytes_append (cs ds : List Char) :
    asciiBytes (cs ++ ds) = asciiBytes cs ++ asciiBytes ds := List.map_append

/-- Decoding passes over a byte that is not the percent sign. -/
theorem decode_cons {b : UInt8} (h : b ≠ 0x25) (rest : Bytes) :
    decode (b :: rest) = b :: decode rest := by
  rw [decode]
  rintro hi lo rest' rfl
  exact absurd rfl h

/-- Decoding reads a complete code as its byte. -/
theorem decode_code (b : UInt8) (rest : Bytes) :
    decode (asciiBytes (code b) ++ rest) = b :: decode rest := by
  obtain ⟨high, low, hsum, hcode⟩ := code_eq b
  have hpercent : UInt8.ofNat ('%' : Char).toNat = 0x25 := by decide
  rw [hcode]
  simp only [asciiBytes, List.map_cons, List.map_nil, List.cons_append, List.nil_append, hpercent,
    decode, byteValue?_capitalDigit, hsum, UInt8.ofNat_toNat]

/-- What may stand for itself without harm: ASCII, and not the percent sign. -/
def Harmless (keep : UInt8 → Bool) : Prop :=
  ∀ b, keep b = true → b.toNat < 128 ∧ b ≠ 0x25

variable {keep : UInt8 → Bool}

/-- A character of an ASCII byte has that byte. -/
theorem toNat_ofNat_toNat {b : UInt8} (h : b.toNat < 128) :
    (Char.ofNat b.toNat).toNat = b.toNat := by
  rw [Char.ofNat, dif_pos (.inl (by omega))]
  rfl

/-- An encoded byte is ASCII. -/
theorem encodeByte_ascii (hk : Harmless keep) (b : UInt8) :
    ∀ c ∈ encodeByte keep b, c.toNat < 128 := by
  intro c hc
  rw [encodeByte] at hc
  split at hc
  · next h =>
    rw [List.mem_singleton.1 hc, toNat_ofNat_toNat (hk b h).1]
    exact (hk b h).1
  · obtain ⟨high, low, -, hcode⟩ := code_eq b
    rw [hcode] at hc
    simp only [List.mem_cons, List.not_mem_nil, or_false] at hc
    rcases hc with rfl | rfl | rfl
    · decide
    · exact capitalDigit_lt high
    · exact capitalDigit_lt low

/-- Encoded bytes are ASCII. -/
theorem encodeBytes_ascii (hk : Harmless keep) (bytes : Bytes) :
    ∀ c ∈ encodeBytes keep bytes, c.toNat < 128 := by
  intro c hc
  obtain ⟨b, -, hb⟩ := List.mem_flatMap.1 hc
  exact encodeByte_ascii hk b c hb

/-- Decoding reads an encoded byte as that byte. -/
theorem decode_encodeByte (hk : Harmless keep) (b : UInt8) (rest : Bytes) :
    decode (asciiBytes (encodeByte keep b) ++ rest) = b :: decode rest := by
  rw [encodeByte]
  split
  · next h =>
    have hb : asciiBytes [Char.ofNat b.toNat] = [b] := by
      simp [asciiBytes, toNat_ofNat_toNat (hk b h).1]
    rw [hb]
    exact decode_cons (hk b h).2 rest
  · exact decode_code b rest

/-- Decoding gives back the bytes that were encoded. -/
theorem decode_encodeBytes (hk : Harmless keep) (bytes : Bytes) :
    decode (asciiBytes (encodeBytes keep bytes)) = bytes := by
  induction bytes with
  | nil => rfl
  | cons b bytes ih =>
    rw [encodeBytes, List.flatMap_cons, asciiBytes_append, decode_encodeByte hk]
    exact congrArg (b :: ·) ih

/-- There is a code for every byte. -/
theorem encodeBytes_eq_nil_iff {bytes : Bytes} : encodeBytes keep bytes = [] ↔ bytes = [] := by
  have hne (b : UInt8) : encodeByte keep b ≠ [] := by
    rw [encodeByte]
    split <;> simp [code]
  cases bytes with
  | nil => simp [encodeBytes]
  | cons b bytes => simp [encodeBytes, hne b]

/-- Characters that stand for themselves are left as they are. -/
theorem encodeBytes_of_kept {cs : List Char}
    (h : ∀ c ∈ cs, c.toNat < 128 ∧ keep (UInt8.ofNat c.toNat) = true) :
    encodeBytes keep (Utf8.encode (String.ofList cs)) = cs := by
  rw [Utf8.encode_ascii fun c hc => (h c hc).1]
  induction cs with
  | nil => rfl
  | cons c cs ih =>
    obtain ⟨hlt, hkeep⟩ := h c (.head _)
    have hc : encodeByte keep (UInt8.ofNat c.toNat) = [c] := by
      rw [encodeByte, if_pos hkeep, UInt8.toNat_ofNat_of_lt' (by simp [UInt8.size]; omega),
        Char.ofNat_toNat]
    rw [List.map_cons, encodeBytes, List.flatMap_cons, hc]
    exact congrArg (c :: ·) (ih fun d hd => h d (.tail _ hd))

/-! ## Texts -/

/-- The letters, digits and marks that stand for themselves anywhere are harmless. -/
theorem harmless_isUnreserved : Harmless isUnreserved :=
  forall_byte (by decide +kernel)

/-- A text with codes stands for the text that was encoded, whatever harmless bytes were kept. -/
theorem decodeText?_encodeBytes (hk : Harmless keep) (s : String) :
    decodeText? (String.ofList (encodeBytes keep (Utf8.encode s))) = some s := by
  have hbytes : Utf8.encode (String.ofList (encodeBytes keep (Utf8.encode s))) =
      asciiBytes (encodeBytes keep (Utf8.encode s)) :=
    Utf8.encode_ascii (encodeBytes_ascii hk _)
  rw [decodeText?, hbytes, decode_encodeBytes hk, Utf8.decode?_encode]

theorem decodeText?_encode (s : String) : decodeText? (encode s) = some s :=
  decodeText?_encodeBytes harmless_isUnreserved s

/-- Decoding drops nothing. -/
theorem decode_eq_nil_iff {bytes : Bytes} : decode bytes = [] ↔ bytes = [] := by
  constructor
  · intro h
    unfold decode at h
    split at h
    · rfl
    · split at h <;> cases h
    · cases h
  · rintro rfl
    rfl

/-- A text that is not empty does not stand for the empty one. -/
theorem ne_empty_of_decodeText? {s t : String} (hs : s ≠ "") (h : decodeText? s = some t) :
    t ≠ "" := by
  rintro rfl
  rw [decodeText?, Utf8.decode?_eq_some_iff] at h
  exact hs (Utf8.encode_eq_nil_iff.1 (decode_eq_nil_iff.1 (h.trans rfl)))

/-- Different texts have different codes. -/
theorem encode_injective {s t : String} (h : encode s = encode t) : s = t := by
  have := decodeText?_encode s
  rw [h, decodeText?_encode] at this
  exact (Option.some.inj this).symm

/-- The characters that a text with codes is made of: unreserved ones and the percent sign. -/
def isCoded (c : Char) : Bool :=
  c.toNat < 128 && (isUnreserved (UInt8.ofNat c.toNat) || c == '%')

/-- A text with codes is made of unreserved characters and percent signs. -/
theorem isCoded_of_mem_encode {s : String} {c : Char} (h : c ∈ (encode s).toList) :
    isCoded c = true := by
  rw [encode, String.toList_ofList] at h
  have hlt := encodeBytes_ascii harmless_isUnreserved _ c h
  obtain ⟨b, -, hb⟩ := List.mem_flatMap.1 h
  rw [encodeByte] at hb
  simp only [isCoded, hlt, decide_true, Bool.true_and, Bool.or_eq_true, beq_iff_eq]
  split at hb
  · next hkeep =>
    rw [List.mem_singleton.1 hb, toNat_ofNat_toNat (harmless_isUnreserved b hkeep).1]
    exact .inl (by rwa [UInt8.ofNat_toNat])
  · obtain ⟨high, low, -, hcode⟩ := code_eq b
    rw [hcode] at hb
    simp only [List.mem_cons, List.not_mem_nil, or_false] at hb
    rcases hb with rfl | rfl | rfl
    · exact .inr rfl
    · exact .inl (by simp [isUnreserved, isAlphanumeric_capitalDigit])
    · exact .inl (by simp [isUnreserved, isAlphanumeric_capitalDigit])

/-- Texts of ASCII letters and digits, of the marks `-`, `_`, `.`, `~`, and of a percent sign with
two hexadecimal digits. -/
inductive Coded : List Char → Prop
  | nil : Coded []
  | unreserved {c cs} : c.isAlphanum = true ∨ c ∈ ['-', '_', '.', '~'] → Coded cs → Coded (c :: cs)
  | code {high low cs} : high ∈ "0123456789ABCDEF".toList → low ∈ "0123456789ABCDEF".toList →
      Coded cs → Coded ('%' :: high :: low :: cs)

/-- A capital digit is a hexadecimal digit. -/
theorem capitalDigit_mem (n : Fin 16) : Hex.capitalDigit n ∈ "0123456789ABCDEF".toList := by
  revert n
  decide

/-- Encoded bytes are a text of unreserved characters and codes. -/
theorem coded_encodeBytes (bytes : Bytes) : Coded (encodeBytes isUnreserved bytes) := by
  have hmark : ∀ b, isUnreserved b = true → (Char.ofNat b.toNat).isAlphanum = true ∨
      Char.ofNat b.toNat ∈ ['-', '_', '.', '~'] :=
    forall_byte (by decide +kernel)
  induction bytes with
  | nil => exact .nil
  | cons b bytes ih =>
    change Coded (encodeByte isUnreserved b ++ encodeBytes isUnreserved bytes)
    rw [encodeByte]
    split
    · next hkeep => exact .unreserved (hmark b hkeep) ih
    · obtain ⟨high, low, -, hcode⟩ := code_eq b
      rw [hcode]
      exact .code (capitalDigit_mem high) (capitalDigit_mem low) ih

/-- A text with codes is a text of unreserved characters and codes. -/
theorem coded_encode (s : String) : Coded (encode s).toList := by
  rw [encode, String.toList_ofList]
  exact coded_encodeBytes _

end FinanceGateway.Percent
