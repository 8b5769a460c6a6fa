import FinanceGateway.Proofs.Text.Percent

/-!
# Texts read from any bytes

`Utf8.decodeLossy` reads whatever bytes it is given, and the bytes of a text as that text
(`decodeLossy_encode`): every character is announced by its first byte, and its continuation is
found whole (`decodeLossyChars_utf8EncodeChar`).
-/

namespace FinanceGateway.Utf8

/-- A run of continuation bytes is found whole, if the first of them is in its range. -/
theorem continuation_append {lo hi : UInt8} {cs : Bytes}
    (hfirst : ∀ c ∈ cs.head?, lo ≤ c ∧ c ≤ hi) (hall : ∀ c ∈ cs, 0x80 ≤ c ∧ c ≤ 0xBF)
    (rest : Bytes) : continuation cs.length lo hi (cs ++ rest) = cs := by
  induction cs generalizing lo hi with
  | nil => cases rest <;> rfl
  | cons c cs ih =>
    have hc := hfirst c rfl
    have hcs : ∀ d ∈ cs, 0x80 ≤ d ∧ d ≤ 0xBF := fun d hd => hall d (.tail _ hd)
    rw [List.cons_append, List.length_cons, continuation, if_pos (by simpa using hc),
      ih (fun d hd => hcs d (List.mem_of_head? hd)) hcs]

/-- A first byte and the continuation that it announces are one character. -/
theorem decodeLossyChars_of_lead {b lo hi : UInt8} (cs : Bytes) (hb : 0x80 ≤ b)
    (hlead : lead b = some (cs.length, lo, hi)) (hfirst : ∀ c ∈ cs.head?, lo ≤ c ∧ c ≤ hi)
    (hall : ∀ c ∈ cs, 0x80 ≤ c ∧ c ≤ 0xBF) (rest : Bytes) :
    decodeLossyChars (b :: (cs ++ rest)) = assemble b cs :: decodeLossyChars rest := by
  rw [decodeLossyChars, if_neg (by simpa using hb), hlead]
  simp only [continuation_append hfirst hall, beq_self_eq_true, if_true, List.drop_left]

/-- What the first byte of two announces. -/
theorem lead_one : ∀ b : UInt8, 0xC2 ≤ b ∧ b ≤ 0xDF → lead b = some (1, 0x80, 0xBF) :=
  Percent.forall_byte (by decide +kernel)

/-- What the first byte of three announces: E0 and ED restrict the next one. -/
theorem lead_two : ∀ b : UInt8, 0xE0 ≤ b ∧ b ≤ 0xEF →
    lead b = some (2, if b = 0xE0 then 0xA0 else 0x80, if b = 0xED then 0x9F else 0xBF) :=
  Percent.forall_byte (by decide +kernel)

/-- What the first byte of four announces: F0 and F4 restrict the next one. -/
theorem lead_three : ∀ b : UInt8, 0xF0 ≤ b ∧ b ≤ 0xF4 →
    lead b = some (3, if b = 0xF0 then 0x90 else 0x80, if b = 0xF4 then 0x8F else 0xBF) :=
  Percent.forall_byte (by decide +kernel)

/-- A continuation byte with six bits of a character. -/
def tail (v : Nat) : UInt8 :=
  UInt8.ofNat (v % 64 + 128)

theorem toNat_tail (v : Nat) : (tail v).toNat = v % 64 + 128 :=
  UInt8.toNat_ofNat_of_lt' (by simp [UInt8.size]; omega)

theorem tail_range (v : Nat) : 0x80 ≤ tail v ∧ tail v ≤ 0xBF := by
  simp only [UInt8.le_iff_toNat_le, toNat_tail]
  constructor
  · exact Nat.le_add_left 128 _
  · show v % 64 + 128 ≤ 191
    omega

/-- The range of a continuation byte after a first byte that restricts it in two cases only. -/
theorem tail_range_of_first {b least greatest lo hi : UInt8} {v : Nat}
    (hlo : b.toNat = least.toNat → lo.toNat ≤ v % 64 + 128)
    (hhi : b.toNat = greatest.toNat → v % 64 + 128 ≤ hi.toNat) :
    (if b = least then lo else 0x80) ≤ tail v ∧
      tail v ≤ if b = greatest then hi else 0xBF := by
  constructor
  · split
    · next hleast =>
      rw [UInt8.le_iff_toNat_le, toNat_tail]
      exact hlo (congrArg UInt8.toNat hleast)
    · exact (tail_range v).1
  · split
    · next hgreatest =>
      rw [UInt8.le_iff_toNat_le, toNat_tail]
      exact hhi (congrArg UInt8.toNat hgreatest)
    · exact (tail_range v).2

/-- The first byte of a character, above a mark for the number of bytes. -/
theorem toNat_first (v mark : Nat) (h : v + mark < 256) :
    (UInt8.ofNat (v + mark)).toNat = v + mark :=
  UInt8.toNat_ofNat_of_lt' h

/-- The two bytes of a character. -/
theorem decodeLossyChars_two {v : Nat} (h : 0x80 ≤ v ∧ v ≤ 0x7FF) (rest : Bytes) :
    decodeLossyChars (UInt8.ofNat (v / 64 % 32 + 192) :: ([tail v] ++ rest)) =
      Char.ofNat v :: decodeLossyChars rest := by
  have hb := toNat_first (v / 64 % 32) 192 (by omega)
  generalize UInt8.ofNat (v / 64 % 32 + 192) = b at hb ⊢
  have hrange : 0xC2 ≤ b ∧ b ≤ 0xDF := by
    simp only [UInt8.le_iff_toNat_le, hb]
    exact ⟨show 194 ≤ _ by omega, show _ ≤ 223 by omega⟩
  rw [decodeLossyChars_of_lead [tail v] ?_ (lead_one b hrange) ?_ ?_]
  · have hvalue : (b.toNat &&& 0x1F) * 64 + (tail v).toNat % 64 = v := by
      have hmask : b.toNat &&& 0x1F = b.toNat % 32 := Nat.and_two_pow_sub_one_eq_mod _ 5
      rw [hmask, hb, toNat_tail]
      omega
    rw [assemble, List.foldl_cons, List.foldl_nil]
    exact congrArg (fun n => Char.ofNat n :: _) hvalue
  · rw [UInt8.le_iff_toNat_le, hb]
    exact show 128 ≤ _ by omega
  · simpa using tail_range v
  · simpa using tail_range v

/-- The three bytes of a character. -/
theorem decodeLossyChars_three {v : Nat} (h : 0x800 ≤ v ∧ v ≤ 0xFFFF)
    (hvalid : v < 0xD800 ∨ 0xDFFF < v) (rest : Bytes) :
    decodeLossyChars (UInt8.ofNat (v / 4096 % 16 + 224) :: ([tail (v / 64), tail v] ++ rest)) =
      Char.ofNat v :: decodeLossyChars rest := by
  have hb := toNat_first (v / 4096 % 16) 224 (by omega)
  generalize UInt8.ofNat (v / 4096 % 16 + 224) = b at hb ⊢
  have hrange : 0xE0 ≤ b ∧ b ≤ 0xEF := by
    simp only [UInt8.le_iff_toNat_le, hb]
    exact ⟨show 224 ≤ _ by omega, show _ ≤ 239 by omega⟩
  rw [decodeLossyChars_of_lead [tail (v / 64), tail v] ?_ (lead_two b hrange) ?_ ?_]
  · have hvalue : ((b.toNat &&& 0xF) * 64 + (tail (v / 64)).toNat % 64) * 64 +
        (tail v).toNat % 64 = v := by
      have hmask : b.toNat &&& 0xF = b.toNat % 16 := Nat.and_two_pow_sub_one_eq_mod _ 4
      rw [hmask, hb, toNat_tail, toNat_tail]
      omega
    rw [assemble, List.foldl_cons, List.foldl_cons, List.foldl_nil]
    exact congrArg (fun n => Char.ofNat n :: _) hvalue
  · rw [UInt8.le_iff_toNat_le, hb]
    exact show 128 ≤ _ by omega
  · -- Shorter forms begin with E0 and are excluded, and so are the surrogates, which begin with ED.
    simp only [List.head?_cons, Option.mem_def, Option.some.injEq, forall_eq']
    apply tail_range_of_first
    · exact fun hleast : b.toNat = 224 => show 160 ≤ _ by omega
    · exact fun hgreatest : b.toNat = 237 => show _ ≤ 159 by omega
  · simpa using ⟨tail_range (v / 64), tail_range v⟩

/-- The four bytes of a character. -/
theorem decodeLossyChars_four {v : Nat} (h : 0x10000 ≤ v ∧ v < 0x110000) (rest : Bytes) :
    decodeLossyChars (UInt8.ofNat (v / 262144 % 8 + 240) ::
        ([tail (v / 4096), tail (v / 64), tail v] ++ rest)) =
      Char.ofNat v :: decodeLossyChars rest := by
  have hb := toNat_first (v / 262144 % 8) 240 (by omega)
  generalize UInt8.ofNat (v / 262144 % 8 + 240) = b at hb ⊢
  have hrange : 0xF0 ≤ b ∧ b ≤ 0xF4 := by
    simp only [UInt8.le_iff_toNat_le, hb]
    exact ⟨show 240 ≤ _ by omega, show _ ≤ 244 by omega⟩
  rw [decodeLossyChars_of_lead [tail (v / 4096), tail (v / 64), tail v] ?_
    (lead_three b hrange) ?_ ?_]
  · have hvalue : (((b.toNat &&& 7) * 64 + (tail (v / 4096)).toNat % 64) * 64 +
        (tail (v / 64)).toNat % 64) * 64 + (tail v).toNat % 64 = v := by
      have hmask : b.toNat &&& 7 = b.toNat % 8 := Nat.and_two_pow_sub_one_eq_mod _ 3
      rw [hmask, hb, toNat_tail, toNat_tail, toNat_tail]
      omega
    rw [assemble, List.foldl_cons, List.foldl_cons, List.foldl_cons, List.foldl_nil]
    exact congrArg (fun n => Char.ofNat n :: _) hvalue
  · rw [UInt8.le_iff_toNat_le, hb]
    exact show 128 ≤ _ by omega
  · -- Shorter forms begin with F0 and are excluded, and what begins with F4 ends before U+110000.
    simp only [List.head?_cons, Option.mem_def, Option.some.injEq, forall_eq']
    apply tail_range_of_first
    · exact fun hleast : b.toNat = 240 => show 144 ≤ _ by omega
    · exact fun hgreatest : b.toNat = 244 => show _ ≤ 143 by omega
  · simpa using ⟨tail_range (v / 4096), tail_range (v / 64), tail_range v⟩

/-- A character is read back from its bytes. -/
theorem decodeLossyChars_utf8EncodeChar (c : Char) (rest : Bytes) :
    decodeLossyChars (String.utf8EncodeChar c ++ rest) = c :: decodeLossyChars rest := by
  have hvalid : c.toNat < 0xD800 ∨ 0xDFFF < c.toNat ∧ c.toNat < 0x110000 := c.valid
  by_cases hone : c.toNat < 128
  · have hbyte : (UInt8.ofNat c.toNat).toNat = c.toNat :=
      UInt8.toNat_ofNat_of_lt' (by simp [UInt8.size]; omega)
    have hlt : UInt8.ofNat c.toNat < 0x80 := by
      rw [UInt8.lt_iff_toNat_lt, hbyte]
      exact hone
    rw [utf8EncodeChar_ascii hone, List.singleton_append, decodeLossyChars, if_pos hlt, hbyte,
      Char.ofNat_toNat]
  · have hval : c.val.toNat = c.toNat := rfl
    rw [String.utf8EncodeChar, hval, if_neg (by omega)]
    split
    · next htwo =>
      exact (decodeLossyChars_two ⟨by omega, htwo⟩ rest).trans (by rw [Char.ofNat_toNat])
    · next htwo =>
      have hlow : 0x7FF < c.toNat := Nat.lt_of_not_le htwo
      split
      · next hthree =>
        exact (decodeLossyChars_three ⟨hlow, hthree⟩ (by omega) rest).trans
          (by rw [Char.ofNat_toNat])
      · next hthree =>
        have hhigh : 0xFFFF < c.toNat := Nat.lt_of_not_le hthree
        exact (decodeLossyChars_four ⟨hhigh, by omega⟩ rest).trans (by rw [Char.ofNat_toNat])

/-- A text is read back from its bytes. -/
theorem decodeLossy_encode (s : String) : decodeLossy (encode s) = s := by
  have hchars (cs : List Char) : decodeLossyChars (cs.flatMap String.utf8EncodeChar) = cs := by
    induction cs with
    | nil => rw [List.flatMap_nil, decodeLossyChars]
    | cons c cs ih => rw [List.flatMap_cons, decodeLossyChars_utf8EncodeChar, ih]
  have hbytes := encode_ofList s.toList
  rw [String.ofList_toList] at hbytes
  rw [decodeLossy, hbytes, hchars, String.ofList_toList]

end FinanceGateway.Utf8
