import FinanceGateway.Toml.Document
import Mathlib

/-!
# Sections of texts

Any text can be a value in a TOML document: written in quotes with an escape for each character
(`quoted`), it is read back as it is (`readText_quoted`). A section is the header of a table and a
pair for each of its entries, whose keys stand without quotes; it is read as the statements that it
consists of (`parse?_sectionOf`).
-/

namespace FinanceGateway.Toml

variable {key name : String} {cs : List Char} {fuel : Nat}

/-! ## Escapes -/

/-- The last hexadecimal digits of a number, as many as there are places. -/
def hexDigits : Nat → Nat → List Char
  | 0, _ => []
  | places + 1, n => hexDigits places (n / 16) ++ [Hex.digit (n % 16)]

theorem length_hexDigits (places n : Nat) : (hexDigits places n).length = places := by
  induction places generalizing n with
  | zero => rfl
  | succ places ih =>
    rw [hexDigits, List.length_append, ih]
    rfl

theorem value?_digit : ∀ n < 16, Hex.value? (Hex.digit n) = some n := by
  decide

/-- Digits are read as the number that they are the last digits of. -/
theorem foldlM_hexDigits (places n : Nat) :
    (hexDigits places n).foldlM (fun acc d => (Hex.value? d).map (acc * 16 + ·)) 0 =
      some (n % 16 ^ places) := by
  induction places generalizing n with
  | zero =>
    rw [pow_zero, Nat.mod_one]
    rfl
  | succ places ih =>
    have hdigit : Hex.value? (Hex.digit (n % 16)) = some (n % 16) :=
      value?_digit _ (Nat.mod_lt _ (by decide))
    have hsum : n % 16 ^ (places + 1) = n / 16 % 16 ^ places * 16 + n % 16 := by
      rw [pow_succ', Nat.mod_mul]
      omega
    rw [hexDigits, List.foldlM_append, ih, hsum]
    simp only [Option.bind_eq_bind, Option.bind_some, List.foldlM_cons, List.foldlM_nil, hdigit,
      Option.map_some, Option.pure_def]

/-- Eight digits are enough for every character. -/
theorem charOf?_hexDigits (c : Char) : charOf? (hexDigits 8 c.toNat) = some c := by
  have hlt : c.toNat < 16 ^ 8 := by
    have := c.val.toNat_lt
    exact this.trans_eq (by norm_num)
  rw [charOf?, foldlM_hexDigits, Nat.mod_eq_of_lt hlt]
  have hvalid : c.toNat.isValidChar := c.valid
  have hchar : Char.ofNatAux c.toNat hvalid = c := by
    have := Char.ofNat_toNat c
    rwa [Char.ofNat, dif_pos hvalid] at this
  simp only [Option.bind_eq_bind, Option.bind_some, dif_pos hvalid, hchar]

/-- The escape of a character. -/
def escape (c : Char) : List Char :=
  '\\' :: 'U' :: hexDigits 8 c.toNat

theorem readEscape_digits {digits : List Char} (h : digits.length = 8) (rest : List Char) :
    readEscape ('U' :: (digits ++ rest)) = (charOf? digits).map (·, rest) := by
  match digits, h with
  | [_, _, _, _, _, _, _, _], _ => rfl

/-- Characters in escapes are read up to the closing quote. -/
theorem readQuoted_escapes (h : cs.length < fuel) (rest : List Char) :
    readQuoted fuel (cs.flatMap escape ++ '"' :: rest) = some (cs, rest) := by
  induction cs generalizing fuel with
  | nil =>
    obtain ⟨fuel, rfl⟩ := Nat.exists_eq_add_one_of_ne_zero (Nat.ne_zero_of_lt h)
    rfl
  | cons c cs ih =>
    obtain ⟨fuel, rfl⟩ := Nat.exists_eq_add_one_of_ne_zero (Nat.ne_zero_of_lt h)
    rw [List.flatMap_cons, escape, List.cons_append, List.cons_append, List.cons_append,
      List.cons_append, List.append_assoc, readQuoted, readEscape_digits (length_hexDigits 8 _),
      charOf?_hexDigits]
    simp only [Option.map_some, Option.bind_eq_bind, Option.bind_some,
      ih (Nat.lt_of_succ_lt_succ h)]

/-! ## Texts -/

/-- A text in quotes, at the end of its line. -/
def quoted (s : String) (rest : List Char) : List Char :=
  '"' :: (s.toList.flatMap escape ++ '"' :: '\n' :: rest)

theorem length_le_flatMap_escape (cs : List Char) : cs.length ≤ (cs.flatMap escape).length := by
  induction cs with
  | nil => exact le_rfl
  | cons c cs ih =>
    rw [List.flatMap_cons, List.length_append, List.length_cons, escape, List.length_cons]
    omega

/-- A text in quotes is read as it is. -/
theorem readText_quoted (s : String) (rest : List Char) :
    readText (quoted s rest) = some (s, '\n' :: rest) := by
  have hread : readText (quoted s rest) =
      (readQuoted ((s.toList.flatMap escape ++ '"' :: '\n' :: rest).length + 1)
        (s.toList.flatMap escape ++ '"' :: '\n' :: rest)).map
          fun found => (String.ofList found.1, found.2) := by
    -- only where the text is empty do two quotes stand together, and the line ends after them
    rw [quoted]
    cases s.toList <;> rfl
  have hlen : s.toList.length < (s.toList.flatMap escape ++ '"' :: '\n' :: rest).length + 1 := by
    rw [List.length_append]
    exact Nat.lt_succ_of_le ((length_le_flatMap_escape _).trans (Nat.le_add_right _ _))
  rw [hread, readQuoted_escapes hlen]
  simp only [Option.map_some, String.ofList_toList]

/-! ## Statements -/

/-- A key that can stand without quotes. -/
structure IsBareKey (key : String) : Prop where
  ne_nil : key.toList ≠ []
  isBare : ∀ c ∈ key.toList, isBare c = true

/-- A character that ends such a key, with no blank before it. -/
structure EndsKey (next : Char) : Prop where
  isBare : isBare next = false
  isBlank : isBlank next = false
  ne_point : next ≠ '.'

theorem endsKey_equals : EndsKey '=' := ⟨by decide, by decide, by decide⟩

theorem endsKey_bracket : EndsKey ']' := ⟨by decide, by decide, by decide⟩

theorem ne_of_isBare {c other : Char} (h : isBare c = true) (hother : isBare other = false) :
    c ≠ other := by
  rintro rfl
  exact absurd h (by simp [hother])

theorem isBlank_of_isBare {c : Char} (h : isBare c = true) : isBlank c = false := by
  simp only [isBlank, Bool.or_eq_false_iff, beq_eq_false_iff_ne]
  exact ⟨ne_of_isBare h (by decide), ne_of_isBare h (by decide)⟩

theorem skipBlank_cons {c : Char} (h : isBlank c = false) (rest : List Char) :
    skipBlank (c :: rest) = c :: rest := by
  rw [skipBlank, List.dropWhile_cons_of_neg (by simp [h])]

theorem IsBareKey.exists_cons (h : IsBareKey key) :
    ∃ c cs, key.toList = c :: cs ∧ Toml.isBare c = true := by
  obtain ⟨c, cs, hcs⟩ := List.exists_cons_of_ne_nil h.ne_nil
  exact ⟨c, cs, hcs, h.isBare c (hcs ▸ .head _)⟩

/-- What starts with such a key starts with a character of it. -/
theorem IsBareKey.append_ne_cons (h : IsBareKey key) {other : Char}
    (hother : Toml.isBare other = false) (rest tail : List Char) :
    key.toList ++ rest ≠ other :: tail := by
  obtain ⟨c, cs, hcs, hc⟩ := h.exists_cons
  rw [hcs]
  exact fun heq => ne_of_isBare hc hother (List.cons.inj heq).1

/-- A key without quotes is read up to what ends it. -/
theorem readKeyPart_bare (hkey : IsBareKey key) {next : Char} (hnext : EndsKey next)
    (rest : List Char) :
    readKeyPart (key.toList ++ next :: rest) = some (key, next :: rest) := by
  have htake : (key.toList ++ next :: rest).takeWhile isBare = key.toList := by
    rw [List.takeWhile_append_of_pos hkey.isBare,
      List.takeWhile_cons_of_neg (by simp [hnext.isBare]), List.append_nil]
  have hdrop : (key.toList ++ next :: rest).dropWhile isBare = next :: rest := by
    rw [List.dropWhile_append_of_pos hkey.isBare,
      List.dropWhile_cons_of_neg (by simp [hnext.isBare])]
  unfold readKeyPart
  split
  · next h => exact absurd h (hkey.append_ne_cons (by decide) _ _)
  · next h => exact absurd h (hkey.append_ne_cons (by decide) _ _)
  · simp only [htake, hdrop, List.isEmpty_iff, if_neg hkey.ne_nil, String.ofList_toList]

/-- A key of one part is read up to what ends it. -/
theorem readKey_bare (hkey : IsBareKey key) {next : Char} (hnext : EndsKey next)
    (rest : List Char) :
    readKey (key.toList ++ next :: rest) = some (([], key), next :: rest) := by
  have hbefore : skipBlank (key.toList ++ next :: rest) = key.toList ++ next :: rest := by
    obtain ⟨c, cs, hcs, hc⟩ := hkey.exists_cons
    rw [hcs, List.cons_append, skipBlank_cons (isBlank_of_isBare hc)]
  have hparts : readKeyParts depthLimit (key.toList ++ next :: rest) =
      some ([key], next :: rest) := by
    rw [depthLimit, readKeyParts, hbefore, readKeyPart_bare hkey hnext]
    simp only [Option.bind_eq_bind, Option.bind_some, skipBlank_cons hnext.isBlank]
    split
    · next h => exact absurd (List.cons.inj h).1 hnext.ne_point
    · rfl
  rw [readKey, hparts]
  rfl

/-- The line of a header, and what follows. -/
def headerLine (name : String) (rest : List Char) : List Char :=
  '[' :: (name.toList ++ ']' :: '\n' :: rest)

/-- The line of a key and a text, and what follows. -/
def pairLine (key s : String) (rest : List Char) : List Char :=
  key.toList ++ '=' :: quoted s rest

theorem readStatement_headerLine (hname : IsBareKey name) (rest : List Char) :
    readStatement (headerLine name rest) = some (.table [] name, rest) := by
  have hread := readKey_bare hname endsKey_bracket ('\n' :: rest)
  unfold readStatement headerLine
  split
  · next h => exact absurd (List.cons.inj h).2 (hname.append_ne_cons (by decide) _ _)
  · next h =>
    cases h
    rw [hread]
    rfl
  · next h => exact absurd rfl (h _)

theorem readStatement_pairLine (hkey : IsBareKey key) (s : String) (rest : List Char) :
    readStatement (pairLine key s rest) = some (.pair [] key (.text s), rest) := by
  have hread := readKey_bare hkey endsKey_equals (quoted s rest)
  have hvalue (fuel depth : Nat) :
      readValue (fuel + 1) depth (quoted s rest) = some (.text s, '\n' :: rest) := by
    have hquote : readValue (fuel + 1) depth (quoted s rest) =
        (readText (quoted s rest)).map fun found => (.text found.1, found.2) := rfl
    rw [hquote, readText_quoted]
    rfl
  unfold readStatement pairLine
  split
  · next h => exact absurd h (hkey.append_ne_cons (by decide) _ _)
  · next h => exact absurd h (hkey.append_ne_cons (by decide) _ _)
  · rw [hread]
    have hblank : skipBlank (quoted s rest) = quoted s rest := skipBlank_cons (by decide) _
    have hmark : dropMark? '=' ('=' :: quoted s rest) = some (quoted s rest) := rfl
    simp only [Option.bind_eq_bind, Option.bind_some, hmark, hblank, hvalue]
    rfl

/-! ## Sections -/

/-- A statement with no blanks before it comes before those that are read after it. -/
theorem readStatements_cons {c : Char} {rest after : List Char} {statement : Statement}
    (hc : isBare c = true ∨ c = '[')
    (hread : readStatement (c :: rest) = some (statement, after)) :
    readStatements (fuel + 1) (c :: rest) = (readStatements fuel after).map (statement :: ·) := by
  have hne {other : Char} (hother : isBare other = false) (hbracket : other ≠ '[') : c ≠ other := by
    rcases hc with hc | rfl
    · exact ne_of_isBare hc hother
    · exact hbracket.symm
  have hfirst : isBlank c = false ∧ (c == '#' || c == '\n' || c == '\r') = false := by
    simp only [isBlank, Bool.or_eq_false_iff, beq_eq_false_iff_ne]
    exact ⟨⟨hne rfl (by decide), hne rfl (by decide)⟩,
      ⟨hne rfl (by decide), hne rfl (by decide)⟩, hne rfl (by decide)⟩
  rw [readStatements, skipBlank_cons hfirst.1]
  simp only [hfirst.2, hread, Bool.false_eq_true, if_false, Option.bind_eq_bind, Option.bind_some]
  cases readStatements fuel after <;> rfl

/-- The lines of keys and texts. -/
def pairLines : List (String × String) → List Char
  | [] => []
  | (key, s) :: entries => pairLine key s (pairLines entries)

theorem length_le_pairLines (entries : List (String × String)) :
    entries.length ≤ (pairLines entries).length := by
  induction entries with
  | nil => exact le_rfl
  | cons e entries ih =>
    rw [pairLines, pairLine, quoted]
    simp only [List.length_append, List.length_cons]
    omega

theorem readStatements_pairLines {entries : List (String × String)}
    (hkeys : ∀ e ∈ entries, IsBareKey e.1) (hfuel : entries.length < fuel) :
    readStatements fuel (pairLines entries) =
      some (entries.map fun e => .pair [] e.1 (.text e.2)) := by
  induction entries generalizing fuel with
  | nil =>
    obtain ⟨fuel, rfl⟩ := Nat.exists_eq_add_one_of_ne_zero (Nat.ne_zero_of_lt hfuel)
    rfl
  | cons e entries ih =>
    obtain ⟨fuel, rfl⟩ := Nat.exists_eq_add_one_of_ne_zero (Nat.ne_zero_of_lt hfuel)
    obtain ⟨hkey, hkeys⟩ := List.forall_mem_cons.1 hkeys
    obtain ⟨c, cs, hcs, hc⟩ := hkey.exists_cons
    have hread := readStatement_pairLine hkey e.2 (pairLines entries)
    rw [pairLines]
    rw [pairLine, hcs, List.cons_append] at hread ⊢
    rw [readStatements_cons (.inl hc) hread, ih hkeys (Nat.lt_of_succ_lt_succ hfuel)]
    rfl

/-- The section of a name and its entries. -/
def sectionOf (name : String) (entries : List (String × String)) : String :=
  String.ofList (headerLine name (pairLines entries))

/-- A section is read as its header and its entries. -/
theorem parse?_sectionOf {entries : List (String × String)} (hname : IsBareKey name)
    (hkeys : ∀ e ∈ entries, IsBareKey e.1) :
    parse? (sectionOf name entries) =
      ofStatements (.table [] name :: entries.map fun e => .pair [] e.1 (.text e.2)) := by
  have hread := readStatement_headerLine hname (pairLines entries)
  have hlen : entries.length < (headerLine name (pairLines entries)).length := by
    rw [headerLine, List.length_cons, List.length_append, List.length_cons, List.length_cons]
    have := length_le_pairLines entries
    omega
  have hstatements : readStatements ((headerLine name (pairLines entries)).length + 1)
      (headerLine name (pairLines entries)) =
        some (.table [] name :: entries.map fun e => .pair [] e.1 (.text e.2)) :=
    (readStatements_cons (.inr rfl) hread).trans
      (congrArg (Option.map (_ :: ·)) (readStatements_pairLines hkeys hlen))
  have hparse : parse? (sectionOf name entries) =
      (readStatements ((headerLine name (pairLines entries)).length + 1)
        (headerLine name (pairLines entries))).bind ofStatements := by
    rw [parse?, sectionOf, String.toList_ofList]
    rfl
  rw [hparse, hstatements, Option.bind_some]

end FinanceGateway.Toml
