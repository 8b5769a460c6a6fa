import FinanceGateway.Proofs.Text.Lossy
import FinanceGateway.Text.Form

/-!
# Form-urlencoded pairs are lossless

No separator stands in an encoded name or value (`separators_not_mem`), and a plus sign stands for
nothing but a space, so names and values decode to what they were (`decodeText_encodeChars`), and
lists of pairs do, whatever is in them: empty names and values keep their place, and pairs of one
name their order (`decodePairs_encodePairs`).
-/

namespace FinanceGateway.Form

open Percent (asciiBytes)

/-! ## Names and values -/

/-- The marks of a query are in no encoded byte, which is ASCII. -/
theorem encodeByte_chars (b : UInt8) :
    ∀ c ∈ encodeByte b, c.toNat < 128 ∧ c ≠ '&' ∧ c ≠ '=' := by
  have hall : ∀ b, (encodeByte b).all (fun c => c.toNat < 128 && c != '&' && c != '=') = true :=
    Percent.forall_byte (by decide +kernel)
  intro c hc
  simpa [and_assoc] using List.all_eq_true.1 (hall b) c hc

theorem encodeChars_chars {s : String} :
    ∀ c ∈ encodeChars s, c.toNat < 128 ∧ c ≠ '&' ∧ c ≠ '=' := by
  intro c hc
  obtain ⟨b, -, hb⟩ := List.mem_flatMap.1 hc
  exact encodeByte_chars b c hb

theorem encodePair_ascii {pair : String × String} : ∀ c ∈ encodePair pair, c.toNat < 128 := by
  intro c hc
  rcases List.mem_append.1 hc with hc | hc
  · exact (encodeChars_chars c hc).1
  · rcases List.mem_cons.1 hc with rfl | hc
    · decide
    · exact (encodeChars_chars c hc).1

theorem encodePairs_ascii {pairs : List (String × String)} :
    ∀ c ∈ encodePairs pairs, c.toNat < 128 := by
  induction pairs with
  | nil => nofun
  | cons pair pairs ih =>
    cases pairs with
    | nil => exact encodePair_ascii
    | cons next pairs =>
      intro c hc
      rcases List.mem_append.1 hc with hc | hc
      · exact encodePair_ascii c hc
      · rcases List.mem_cons.1 hc with rfl | hc
        · decide
        · exact ih c hc

/-- A byte is among the bytes of ASCII characters only if it is that of one of them. -/
theorem mem_asciiBytes {cs : List Char} {b : UInt8} (h : b ∈ asciiBytes cs)
    (hascii : ∀ c ∈ cs, c.toNat < 128) : Char.ofNat b.toNat ∈ cs := by
  obtain ⟨c, hc, rfl⟩ := List.mem_map.1 h
  have hlt := hascii c hc
  rwa [UInt8.toNat_ofNat_of_lt' (by simp [UInt8.size]; omega), Char.ofNat_toNat]

/-- A mark of a query is not among the bytes of an encoded name or value. -/
theorem separators_not_mem (s : String) :
    0x26 ∉ asciiBytes (encodeChars s) ∧ 0x3D ∉ asciiBytes (encodeChars s) := by
  constructor
  · intro h
    exact (encodeChars_chars _ (mem_asciiBytes h fun c hc => (encodeChars_chars c hc).1)).2.1 rfl
  · intro h
    exact (encodeChars_chars _ (mem_asciiBytes h fun c hc => (encodeChars_chars c hc).1)).2.2 rfl

/-- Bytes with a space for every plus sign. -/
def spaced (bytes : Bytes) : Bytes :=
  bytes.map fun b => if b == 0x2B then 0x20 else b

@[simp] theorem spaced_append (front back : Bytes) :
    spaced (front ++ back) = spaced front ++ spaced back := List.map_append

/-- The letters, digits and marks that stand for themselves are harmless. -/
theorem harmless_isPlain : Percent.Harmless isPlain :=
  Percent.forall_byte (by decide +kernel)

/-- But for a space, a byte is in percent codes, and no plus sign is there. -/
theorem spaced_encodeByte : ∀ b, b ≠ 0x20 →
    spaced (asciiBytes (encodeByte b)) = asciiBytes (Percent.encodeByte isPlain b) :=
  Percent.forall_byte (by decide +kernel)

/-- A byte is read back, whatever follows. -/
theorem decode_encodeByte (b : UInt8) (rest : Bytes) :
    Percent.decode (spaced (asciiBytes (encodeByte b) ++ rest)) =
      b :: Percent.decode (spaced rest) := by
  rw [spaced_append]
  by_cases hspace : b = 0x20
  · have hplus : spaced (asciiBytes (encodeByte b)) = [0x20] := by
      rw [hspace]
      decide
    rw [hplus, hspace]
    exact Percent.decode_cons (by decide) _
  · rw [spaced_encodeByte b hspace, Percent.decode_encodeByte harmless_isPlain]

/-- A name or value is read back. -/
theorem decodeText_encodeChars (s : String) : decodeText (asciiBytes (encodeChars s)) = s := by
  have hbytes (bytes : Bytes) :
      Percent.decode (spaced (asciiBytes (bytes.flatMap encodeByte))) = bytes := by
    induction bytes with
    | nil => rfl
    | cons b bytes ih =>
      rw [List.flatMap_cons, Percent.asciiBytes_append, decode_encodeByte, ih]
  have hdecoded : decodeText (asciiBytes (encodeChars s)) = Utf8.decodeLossy (Utf8.encode s) :=
    congrArg Utf8.decodeLossy (hbytes (Utf8.encode s))
  rw [hdecoded, Utf8.decodeLossy_encode]

/-! ## Pairs -/

/-- The first separator ends the first part. -/
theorem splitFirst_append {separator : UInt8} {front : Bytes} (h : separator ∉ front)
    (back : Bytes) : splitFirst separator (front ++ separator :: back) = (front, some back) := by
  induction front with
  | nil => rw [List.nil_append, splitFirst, if_pos (by simp)]
  | cons b front ih =>
    obtain ⟨hne, hfront⟩ := not_or.1 (mt List.mem_cons.2 h)
    rw [List.cons_append, splitFirst, if_neg (by simpa using Ne.symm hne), ih hfront]

/-- A piece without the separator is the only one. -/
theorem splitAll_of_not_mem {separator : UInt8} {piece : Bytes} (h : separator ∉ piece) :
    splitAll separator piece = [piece] := by
  induction piece with
  | nil => rfl
  | cons b piece ih =>
    obtain ⟨hne, hpiece⟩ := not_or.1 (mt List.mem_cons.2 h)
    rw [splitAll, if_neg (by simpa using Ne.symm hne), ih hpiece]

/-- A piece goes on to the first separator. -/
theorem splitAll_append {separator : UInt8} {piece : Bytes} (h : separator ∉ piece)
    (rest : Bytes) :
    splitAll separator (piece ++ separator :: rest) = piece :: splitAll separator rest := by
  induction piece with
  | nil => rw [List.nil_append, splitAll, if_pos (by simp)]
  | cons b piece ih =>
    obtain ⟨hne, hpiece⟩ := not_or.1 (mt List.mem_cons.2 h)
    rw [List.cons_append, splitAll, if_neg (by simpa using Ne.symm hne), ih hpiece]

/-- The bytes of a pair: name and value around an equals sign. -/
theorem asciiBytes_encodePair (pair : String × String) :
    asciiBytes (encodePair pair) =
      asciiBytes (encodeChars pair.1) ++ 0x3D :: asciiBytes (encodeChars pair.2) := by
  rw [encodePair, Percent.asciiBytes_append]
  rfl

/-- No ampersand is in a pair. -/
theorem ampersand_not_mem (pair : String × String) : 0x26 ∉ asciiBytes (encodePair pair) := by
  rw [asciiBytes_encodePair]
  intro h
  rcases List.mem_append.1 h with h | h
  · exact (separators_not_mem _).1 h
  · rcases List.mem_cons.1 h with h | h
    · exact absurd h (by decide)
    · exact (separators_not_mem _).1 h

/-- The pair of a piece of a query. -/
def decodePiece (piece : Bytes) : String × String :=
  let (name, value) := splitFirst 0x3D piece
  (decodeText name, decodeText (value.getD []))

/-- A pair is read back. -/
theorem decodePiece_encodePair (pair : String × String) :
    decodePiece (asciiBytes (encodePair pair)) = pair := by
  rw [decodePiece, asciiBytes_encodePair, splitFirst_append (separators_not_mem _).2]
  exact Prod.ext (decodeText_encodeChars _) (decodeText_encodeChars _)

/-- A pair that stands first is read first; the equals sign keeps it from being passed over. -/
theorem decodePairs_of_splitAll {bytes : Bytes} {pair : String × String} {pieces : List Bytes}
    (h : splitAll 0x26 bytes = asciiBytes (encodePair pair) :: pieces) :
    decodePairs bytes = pair :: (pieces.filter fun piece => !piece.isEmpty).map decodePiece := by
  have hkept : (asciiBytes (encodePair pair) :: pieces).filter (fun piece => !piece.isEmpty) =
      asciiBytes (encodePair pair) :: pieces.filter fun piece => !piece.isEmpty :=
    List.filter_cons_of_pos (by simp [asciiBytes_encodePair])
  rw [decodePairs, h, hkept, List.map_cons]
  exact congrArg (· :: _) (decodePiece_encodePair pair)

/-- Pairs are read back as they are written. -/
theorem decodePairs_encodePairs (pairs : List (String × String)) :
    decodePairs (Utf8.encode (String.ofList (encodePairs pairs))) = pairs := by
  rw [Utf8.encode_ascii encodePairs_ascii]
  change decodePairs (asciiBytes (encodePairs pairs)) = pairs
  induction pairs with
  | nil => rfl
  | cons pair pairs ih =>
    cases pairs with
    | nil => exact decodePairs_of_splitAll (splitAll_of_not_mem (ampersand_not_mem pair))
    | cons next pairs =>
      have hbytes : asciiBytes (encodePairs (pair :: next :: pairs)) =
          asciiBytes (encodePair pair) ++ 0x26 :: asciiBytes (encodePairs (next :: pairs)) := by
        rw [encodePairs, Percent.asciiBytes_append]
        · rfl
        · nofun
      rw [decodePairs_of_splitAll (by rw [hbytes, splitAll_append (ampersand_not_mem pair)])]
      exact congrArg (pair :: ·) ih

end FinanceGateway.Form
