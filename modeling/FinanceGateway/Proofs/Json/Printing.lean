import FinanceGateway.Proofs.Json.Numerals

/-!
# Compact texts are read back

The compact text of a value is read up to its end, as a draft in which everything is as it was but
the numbers, each of which is what its own text is read as (`Draft.ofBytes_compact`). Strings are
read back character by character (`scanText_textChars`), values by recursion on them with a budget
that the length of their text bounds.
-/

namespace FinanceGateway.Json

/-! ## Strings -/

/-- A byte that stands for itself in a string. -/
def IsPlain (b : UInt8) : Prop :=
  b ≠ 0x22 ∧ b ≠ 0x5C ∧ ¬ b < 0x20

/-- How a character stands in a string: as it is, as an escape of one letter, or by its number. -/
inductive StandsFor (c : Char) : Bytes → Prop
  | plain (h : ∀ b ∈ String.utf8EncodeChar c, IsPlain b) : StandsFor c (String.utf8EncodeChar c)
  | letter {e b : UInt8} (hletter : e ≠ 0x75) (hescape : escapeByte? e = some b)
    (hbytes : String.utf8EncodeChar c = [b]) : StandsFor c [0x5C, e]
  | number {high low : UInt8} (hvalue : hexValue? 0x30 0x30 high low = some c.toNat)
    (hsmall : c.toNat < 0x20) : StandsFor c [0x5C, 0x75, 0x30, 0x30, high, low]

/-- A character stands in a compact text as one of these. -/
theorem standsFor_escapedChar (c : Char) : StandsFor c (bytesOf (escapedChar c)) := by
  have hnumber : ∀ n < 32, hexValue? 0x30 0x30 (UInt8.ofNat (Hex.digit (n / 16)).toNat)
      (UInt8.ofNat (Hex.digit (n % 16)).toNat) = some n ∧
        bytesOf ['\\', 'u', '0', '0', Hex.digit (n / 16), Hex.digit (n % 16)] =
          [0x5C, 0x75, 0x30, 0x30, UInt8.ofNat (Hex.digit (n / 16)).toNat,
            UInt8.ofNat (Hex.digit (n % 16)).toNat] := by
    decide
  unfold escapedChar
  iterate 7
    split
    · next h =>
      cases beq_iff_eq.1 h
      exact .letter (by decide) rfl rfl
  split
  · next hsmall =>
    rw [(hnumber c.toNat hsmall).2]
    exact .number (hnumber c.toNat hsmall).1 hsmall
  · next hquote hslash _ _ _ _ _ hsmall =>
    rw [bytesOf, List.flatMap_singleton]
    refine .plain fun b hb => ⟨?_, ?_, fun hlt => ?_⟩
    · rintro rfl
      exact hquote (beq_iff_eq.2 (Utf8.eq_of_mem_utf8EncodeChar hb (by decide)))
    · rintro rfl
      exact hslash (beq_iff_eq.2 (Utf8.eq_of_mem_utf8EncodeChar hb (by decide)))
    · have hbyte : b.toNat < 32 := UInt8.lt_iff_toNat_lt.1 hlt
      have hc := Utf8.eq_of_mem_utf8EncodeChar hb (by omega)
      refine hsmall ?_
      rw [hc, Char.toNat_ofNat, if_pos (.inl (by omega))]
      exact hbyte

theorem skimText_plain {b : UInt8} (h : IsPlain b) (more : Bytes) :
    skimText (b :: more) = skimText more := by
  obtain ⟨hquote, hslash, hcontrol⟩ := h
  rw [skimText, if_neg hcontrol]
  · exact hquote
  all_goals intros; contradiction

theorem readTextBytes_plain {b : UInt8} (h : IsPlain b) (more : Bytes) :
    readTextBytes (b :: more) = (readTextBytes more).map (b :: ·) := by
  obtain ⟨hquote, hslash, hcontrol⟩ := h
  rw [readTextBytes, if_neg hcontrol]
  · exact hquote
  all_goals intros; contradiction

theorem map_ok_append (bs cs : Bytes) (x : Except Flaw Bytes) :
    (x.map (cs ++ ·)).map (bs ++ ·) = x.map ((bs ++ cs) ++ ·) := by
  cases x with
  | error flaw => rfl
  | ok more => exact congrArg Except.ok (List.append_assoc bs cs more).symm

theorem readTextBytes_allPlain {bs : Bytes} (h : ∀ b ∈ bs, IsPlain b) (more : Bytes) :
    readTextBytes (bs ++ more) = (readTextBytes more).map (bs ++ ·) := by
  induction bs with
  | nil =>
    cases hmore : readTextBytes more <;> simp [hmore, Except.map]
  | cons b bs ih =>
    obtain ⟨hb, hbs⟩ := List.forall_mem_cons.1 h
    rw [List.cons_append, readTextBytes_plain hb, ih hbs]
    exact map_ok_append [b] bs _

theorem skimText_allPlain {bs : Bytes} (h : ∀ b ∈ bs, IsPlain b) (more : Bytes) :
    skimText (bs ++ more) = skimText more := by
  induction bs with
  | nil => rfl
  | cons b bs ih =>
    obtain ⟨hb, hbs⟩ := List.forall_mem_cons.1 h
    rw [List.cons_append, skimText_plain hb, ih hbs]

/-- A character in a string is passed over. -/
theorem StandsFor.skimText_eq {c : Char} {bs : Bytes} (h : StandsFor c bs) (more : Bytes) :
    skimText (bs ++ more) = skimText more := by
  cases h with
  | plain h => exact skimText_allPlain h more
  | @letter e b hletter hescape =>
    simp only [List.cons_append, List.nil_append]
    rw [skimText, hescape]
    · rfl
    all_goals intros; contradiction
  | number hvalue =>
    simp only [List.cons_append, List.nil_append]
    rw [skimText, hvalue]
    rfl

/-- A character in a string is read as itself. -/
theorem StandsFor.readTextBytes_eq {c : Char} {bs : Bytes} (h : StandsFor c bs) (more : Bytes) :
    readTextBytes (bs ++ more) = (readTextBytes more).map (String.utf8EncodeChar c ++ ·) := by
  cases h with
  | plain h => exact readTextBytes_allPlain h more
  | @letter e b hletter hescape hbytes =>
    simp only [List.cons_append, List.nil_append]
    rw [readTextBytes, hescape, hbytes]
    · rfl
    all_goals intros; contradiction
  | number hvalue hsmall =>
    have hchar : Utf8.encode (String.singleton (Char.ofNat c.toNat)) = String.utf8EncodeChar c := by
      rw [Char.ofNat_toNat, ← List.flatMap_singleton String.utf8EncodeChar c,
        ← Utf8.encode_ofList, String.singleton_eq_ofList]
    simp only [List.cons_append, List.nil_append]
    rw [readTextBytes, hvalue]
    dsimp only
    rw [if_neg, if_pos, hchar]
    · simp; omega
    · simp; omega

theorem skimText_escaped (cs : List Char) (rest : Bytes) :
    skimText (bytesOf (cs.flatMap escapedChar) ++ 0x22 :: rest) = .ok rest := by
  induction cs with
  | nil => rfl
  | cons c cs ih =>
    rw [List.flatMap_cons, bytesOf_append, List.append_assoc,
      (standsFor_escapedChar c).skimText_eq, ih]

theorem readTextBytes_escaped (cs : List Char) (rest : Bytes) :
    readTextBytes (bytesOf (cs.flatMap escapedChar) ++ 0x22 :: rest) = .ok (bytesOf cs) := by
  induction cs with
  | nil => rfl
  | cons c cs ih =>
    rw [List.flatMap_cons, bytesOf_append, List.append_assoc,
      (standsFor_escapedChar c).readTextBytes_eq, ih]
    rfl

/-- A string is read back from after its opening quote. -/
theorem scanText_textChars (s : String) (rest : Bytes) :
    scanText (bytesOf (s.toList.flatMap escapedChar) ++ 0x22 :: rest) = .ended (.ok s) rest := by
  have hread : readText (bytesOf (s.toList.flatMap escapedChar) ++ 0x22 :: rest) = .ok s := by
    have hdecode : Utf8.decode? (bytesOf s.toList) = some s := by
      rw [bytesOf, ← Utf8.encode_ofList, String.ofList_toList, Utf8.decode?_encode]
    rw [readText, readTextBytes_escaped]
    simp only [hdecode]
  rw [scanText, skimText_escaped]
  simp only [hread]

/-! ## Values -/

mutual

/-- The draft of the compact text of a value: that of the value, but for the numbers, each of which
is read anew from its text. -/
def Draft.ofPrinted : Json → Draft
  | .null => .null
  | .bool b => .bool b
  | .number n => (Draft.ofBytes (Utf8.encode (Json.number n).compact)).1
  | .text s => .text (.ok s)
  | .array items => .array (Items.ofPrinted items)
  | .object members => .object (Members.ofPrinted members)

/-- `Draft.ofPrinted` over the items of an array. -/
def Items.ofPrinted : List Json → Items
  | [] => .close
  | item :: rest => .cons (Draft.ofPrinted item) (Items.ofPrinted rest)

/-- `Draft.ofPrinted` over the members of an object. -/
def Members.ofPrinted : List (String × Json) → Members
  | [] => .close
  | (key, value) :: rest => .cons (.ok key) (Draft.ofPrinted value) (Members.ofPrinted rest)

end

theorem encode_compact (j : Json) : Utf8.encode j.compact = bytesOf (chars j) :=
  Utf8.encode_ofList _

/-- A byte with which a value can begin. -/
def Begins (b : UInt8) : Prop :=
  isSpace b = false ∧ b ≠ 0x5D

theorem begins_of_isDigitByte {b : UInt8} (h : isDigitByte b = true) : Begins b := by
  refine ⟨isSpace_of_isDigitByte h, ?_⟩
  rintro rfl
  exact absurd h (by decide)

theorem IsNumeral.exists_cons {bs : Bytes} (h : IsNumeral bs) :
    ∃ b more, bs = b :: more ∧ Begins b := by
  obtain ⟨hdigits, hzero, htail⟩ := h
  next whole tail =>
  match whole, hdigits with
  | b :: ds, hdigits =>
    exact ⟨b, ds ++ tail, rfl, begins_of_isDigitByte (hdigits.2 b (by simp))⟩

/-- The text of a value has a first byte. -/
theorem exists_cons_chars (j : Json) : ∃ b more, bytesOf (chars j) = b :: more ∧ Begins b := by
  match j with
  | .null | .bool true | .bool false | .text _ | .array _ | .object _ =>
    exact ⟨_, _, rfl, by decide, by decide⟩
  | .number n =>
    rw [chars]
    obtain ⟨cs, hcs, hn | hn⟩ | hn := numberChars_cases n <;> rw [hn]
    · exact hcs.exists_cons
    · exact ⟨_, _, rfl, by decide, by decide⟩
    · exact ⟨_, _, rfl, by decide, by decide⟩

theorem bytesOf_textChars (s : String) :
    bytesOf (textChars s) = 0x22 :: (bytesOf (s.toList.flatMap escapedChar) ++ [0x22]) := by
  rw [textChars, bytesOf_append]
  rfl

theorem bytesOf_array (items : List Json) :
    bytesOf (chars (.array items)) = 0x5B :: (bytesOf (itemsChars items) ++ [0x5D]) := by
  rw [chars, bytesOf_append]
  rfl

theorem bytesOf_object (members : List (String × Json)) :
    bytesOf (chars (.object members)) = 0x7B :: (bytesOf (membersChars members) ++ [0x7D]) := by
  rw [chars, bytesOf_append]
  rfl

theorem itemsChars_cons_cons (item next : Json) (items : List Json) :
    bytesOf (itemsChars (item :: next :: items)) =
      bytesOf (chars item) ++ 0x2C :: bytesOf (itemsChars (next :: items)) := by
  rw [itemsChars, bytesOf_append]
  · rfl
  · exact nofun

theorem exists_cons_itemsChars (item : Json) (items : List Json) :
    ∃ b more, bytesOf (itemsChars (item :: items)) = b :: more ∧ Begins b := by
  obtain ⟨b, more, hitem, hb⟩ := exists_cons_chars item
  cases items with
  | nil => exact ⟨b, more, hitem, hb⟩
  | cons next items =>
    rw [itemsChars_cons_cons, hitem]
    exact ⟨b, _, rfl, hb⟩

theorem membersChars_singleton (key : String) (value : Json) :
    bytesOf (membersChars [(key, value)]) =
      bytesOf (textChars key) ++ 0x3A :: bytesOf (chars value) := by
  rw [membersChars, bytesOf_append]
  rfl

theorem membersChars_cons_cons (key : String) (value : Json) (next : String × Json)
    (members : List (String × Json)) :
    bytesOf (membersChars ((key, value) :: next :: members)) =
      bytesOf (textChars key) ++
        0x3A :: (bytesOf (chars value) ++ 0x2C :: bytesOf (membersChars (next :: members))) := by
  rw [membersChars, bytesOf_append, bytesOf_append, List.append_assoc]
  · rfl
  · exact nofun

theorem exists_cons_membersChars (member : String × Json) (members : List (String × Json)) :
    ∃ more, bytesOf (membersChars (member :: members)) = 0x22 :: more := by
  obtain ⟨key, value⟩ := member
  cases members with
  | nil =>
    rw [membersChars_singleton, bytesOf_textChars]
    exact ⟨_, rfl⟩
  | cons next members =>
    rw [membersChars_cons_cons, bytesOf_textChars]
    exact ⟨_, rfl⟩

theorem closes_comma (rest : Bytes) : Closes (0x2C :: rest) :=
  Or.inl rfl

theorem closes_bracket (rest : Bytes) : Closes (0x5D :: rest) :=
  Or.inr (.inl rfl)

theorem closes_brace (rest : Bytes) : Closes (0x7D :: rest) :=
  Or.inr (.inr rfl)

section

variable {fuel : Nat} {bs more rest : Bytes} {head value : Draft} {key : String}

theorem draftValue_array {items : Items} (h : draftItems fuel bs = (items, some rest)) :
    draftValue (fuel + 1) (0x5B :: bs) = (.array items, some rest) := by
  rw [draftValue, skipSpace_cons rfl]
  simp [h, isDigitByte]

theorem draftValue_object {members : Members} (h : draftMembers fuel bs = (members, some rest)) :
    draftValue (fuel + 1) (0x7B :: bs) = (.object members, some rest) := by
  rw [draftValue, skipSpace_cons rfl]
  simp [h, isDigitByte]

theorem draftValue_text {s : String} (h : scanText bs = .ended (.ok s) rest) :
    draftValue (fuel + 1) (0x22 :: bs) = (.text (.ok s), some rest) := by
  rw [draftValue, skipSpace_cons rfl]
  simp [h, isDigitByte, draftToken]

theorem draftItems_cons {b : UInt8} (h : Begins b) :
    draftItems (fuel + 1) (b :: bs) = draftItem fuel (b :: bs) := by
  rw [draftItems, skipSpace_cons h.1]
  split
  · contradiction
  · next heq => exact absurd (List.cons.inj heq).1 h.2
  · rfl

theorem draftItem_last (hhead : draftValue fuel bs = (head, some (0x5D :: rest))) :
    draftItem (fuel + 1) bs = (.cons head .close, some rest) := by
  rw [draftItem, hhead]
  rfl

theorem draftItem_comma {b : UInt8} {tail : Items}
    (hhead : draftValue fuel bs = (head, some (0x2C :: b :: more))) (hb : Begins b)
    (htail : draftItem fuel (b :: more) = (tail, some rest)) :
    draftItem (fuel + 1) bs = (.cons head tail, some rest) := by
  have hcomma : skipSpace (0x2C :: b :: more) = 0x2C :: b :: more := skipSpace_cons rfl
  rw [draftItem, hhead]
  simp only [hcomma, skipSpace_cons hb.1]
  split
  · next heq => exact absurd (List.cons.inj heq).1 hb.2
  · contradiction
  · simp only [htail]

theorem draftMember_last (hkey : scanText bs = .ended (.ok key) (0x3A :: more))
    (hvalue : draftValue fuel more = (value, some (0x7D :: rest))) :
    draftMember (fuel + 1) bs = (.cons (.ok key) value .close, some rest) := by
  have hcolon : skipSpace (0x3A :: more) = 0x3A :: more := skipSpace_cons rfl
  rw [draftMember, hkey]
  simp only [hcolon, hvalue]
  rfl

theorem draftMember_comma {next : Bytes} {tail : Members}
    (hkey : scanText bs = .ended (.ok key) (0x3A :: more))
    (hvalue : draftValue fuel more = (value, some (0x2C :: 0x22 :: next)))
    (htail : draftMember fuel next = (tail, some rest)) :
    draftMember (fuel + 1) bs = (.cons (.ok key) value tail, some rest) := by
  have hcolon : skipSpace (0x3A :: more) = 0x3A :: more := skipSpace_cons rfl
  have hcomma : skipSpace (0x2C :: 0x22 :: next) = 0x2C :: 0x22 :: next := skipSpace_cons rfl
  have hquote : skipSpace (0x22 :: next) = 0x22 :: next := skipSpace_cons rfl
  rw [draftMember, hkey]
  simp only [hcolon, hvalue, hcomma, hquote, htail]

end

mutual

/-- The text of a value is drafted up to its end, whatever closes the value. -/
theorem draftValue_chars : ∀ (j : Json) {fuel : Nat} {rest : Bytes}, Closes rest →
    2 * (bytesOf (chars j)).length ≤ fuel →
    draftValue fuel (bytesOf (chars j) ++ rest) = (Draft.ofPrinted j, some rest)
  | j, 0, rest, _, hfuel => by
    obtain ⟨b, more, hj, -⟩ := exists_cons_chars j
    simp [hj] at hfuel
  | .null, fuel + 1, rest, _, _ => rfl
  | .bool true, fuel + 1, rest, _, _ => rfl
  | .bool false, fuel + 1, rest, _, _ => rfl
  | .number n, fuel + 1, rest, hrest, _ => by
    obtain ⟨d, hd⟩ := exists_draftValue_number n
    have halone := hd (4 * (bytesOf (numberChars n)).length + 3) [] trivial
    rw [List.append_nil] at halone
    rw [Draft.ofPrinted, encode_compact, chars, Draft.ofBytes, halone, hd fuel rest hrest]
  | .text s, fuel + 1, rest, _, _ => by
    rw [chars, bytesOf_textChars, List.cons_append, List.append_assoc]
    exact draftValue_text (scanText_textChars s rest)
  | .array [], fuel + 1, rest, _, hfuel => by
    obtain ⟨fuel, rfl⟩ : ∃ k, fuel = k + 1 := ⟨fuel - 1, by change 2 * 2 ≤ _ at hfuel; omega⟩
    rfl
  | .array (item :: items), fuel + 1, rest, _, hfuel => by
    rw [bytesOf_array] at hfuel ⊢
    simp only [List.length_cons, List.length_append, List.length_nil] at hfuel
    obtain ⟨fuel, rfl⟩ : ∃ k, fuel = k + 1 := ⟨fuel - 1, by omega⟩
    have hitems := draftItem_chars (item :: items) (List.cons_ne_nil _ _) fuel rest (by omega)
    obtain ⟨b, more, hfirst, hb⟩ := exists_cons_itemsChars item items
    rw [hfirst, List.cons_append] at hitems
    rw [List.cons_append, List.append_assoc, hfirst]
    exact draftValue_array ((draftItems_cons hb).trans hitems)
  | .object [], fuel + 1, rest, _, hfuel => by
    obtain ⟨fuel, rfl⟩ : ∃ k, fuel = k + 1 := ⟨fuel - 1, by change 2 * 2 ≤ _ at hfuel; omega⟩
    rfl
  | .object (member :: members), fuel + 1, rest, _, hfuel => by
    rw [bytesOf_object] at hfuel ⊢
    simp only [List.length_cons, List.length_append, List.length_nil] at hfuel
    obtain ⟨fuel, rfl⟩ : ∃ k, fuel = k + 1 := ⟨fuel - 1, by omega⟩
    obtain ⟨more, hfirst⟩ := exists_cons_membersChars member members
    have hmembers := draftMember_chars (member :: members) (List.cons_ne_nil _ _) hfirst fuel rest
      (by omega)
    rw [List.cons_append, List.append_assoc, hfirst]
    exact draftValue_object hmembers

/-- The text of the items of an array is drafted up to its end. -/
theorem draftItem_chars : ∀ (items : List Json), items ≠ [] → ∀ (fuel : Nat) (rest : Bytes),
    2 * (bytesOf (itemsChars items)).length + 1 ≤ fuel →
    draftItem fuel (bytesOf (itemsChars items) ++ 0x5D :: rest) =
      (Items.ofPrinted items, some rest)
  | [], hne, _, _, _ => absurd rfl hne
  | _, _, 0, _, hfuel => absurd hfuel (by omega)
  | [item], _, fuel + 1, rest, hfuel => by
    rw [itemsChars] at hfuel ⊢
    exact draftItem_last (draftValue_chars item (closes_bracket rest) (by omega))
  | item :: next :: items, _, fuel + 1, rest, hfuel => by
    rw [itemsChars_cons_cons] at hfuel ⊢
    simp only [List.length_append, List.length_cons] at hfuel
    have htail := draftItem_chars (next :: items) (List.cons_ne_nil _ _) fuel rest (by omega)
    obtain ⟨b, more, hfirst, hb⟩ := exists_cons_itemsChars next items
    rw [hfirst] at htail hfuel ⊢
    rw [List.append_assoc, List.cons_append]
    exact draftItem_comma (draftValue_chars item (closes_comma _) (by omega)) hb htail

/-- The text of the members of an object is drafted up to its end. -/
theorem draftMember_chars : ∀ (members : List (String × Json)), members ≠ [] →
    ∀ {more : Bytes}, bytesOf (membersChars members) = 0x22 :: more → ∀ (fuel : Nat) (rest : Bytes),
    2 * (bytesOf (membersChars members)).length + 1 ≤ fuel →
    draftMember fuel (more ++ 0x7D :: rest) = (Members.ofPrinted members, some rest)
  | [], hne, _, _, _, _, _ => absurd rfl hne
  | _, _, _, _, 0, _, hfuel => absurd hfuel (by omega)
  | [(key, value)], _, more, hmore, fuel + 1, rest, hfuel => by
    rw [membersChars_singleton] at hmore hfuel
    simp only [List.length_append, List.length_cons] at hfuel
    rw [bytesOf_textChars, List.cons_append, List.append_assoc] at hmore
    rw [← (List.cons.inj hmore).2, List.append_assoc]
    exact draftMember_last (scanText_textChars key _)
      (draftValue_chars value (closes_brace rest) (by omega))
  | (key, value) :: next :: members, _, more, hmore, fuel + 1, rest, hfuel => by
    rw [membersChars_cons_cons] at hmore hfuel
    simp only [List.length_append, List.length_cons] at hfuel
    obtain ⟨after, hfirst⟩ := exists_cons_membersChars next members
    have htail := draftMember_chars (next :: members) (List.cons_ne_nil _ _) hfirst fuel rest
      (by omega)
    have hvalue := @draftValue_chars value fuel (0x2C :: 0x22 :: (after ++ 0x7D :: rest))
      (closes_comma _) (by omega)
    rw [bytesOf_textChars, List.cons_append, hfirst] at hmore
    rw [← (List.cons.inj hmore).2]
    simp only [List.append_assoc, List.cons_append, List.nil_append]
    exact draftMember_comma (scanText_textChars key _) hvalue htail

end

/-- The compact text of a value is read whole, and everything in it but numbers is as it was. -/
theorem Draft.ofBytes_compact (j : Json) :
    Draft.ofBytes (Utf8.encode j.compact) = (Draft.ofPrinted j, some []) := by
  have := @draftValue_chars j (4 * (bytesOf (chars j)).length + 4) [] trivial (by omega)
  rwa [List.append_nil, ← encode_compact] at this

/-- An integer of 64 bits is read back. -/
theorem Draft.ofPrinted_int {i : Int} (h : (Number.int i).Legal) :
    Draft.ofPrinted (.number (.int i)) = .number (.ok (.int i)) := by
  rw [Draft.ofPrinted, encode_compact, chars, Draft.ofBytes, draftValue_int h]

end FinanceGateway.Json
