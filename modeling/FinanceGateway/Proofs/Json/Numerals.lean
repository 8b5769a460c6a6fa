import FinanceGateway.Json.Printer
import FinanceGateway.Json.Scan
import FinanceGateway.Proofs.Json.Codecs
import FinanceGateway.Proofs.Text.Utf8
import Mathlib

/-!
# Printed numbers are numerals

The text of a number is a numeral of JSON: whole digits without a zero before them, a fraction, an
exponent (`IsNumeral`). A numeral is scanned up to its end, whatever closes the value
(`IsNumeral.exists_scanUnsigned`), and the digits of an integer of 64 bits are read as that integer.
-/

namespace FinanceGateway.Json

/-! ## Scanning -/

/-- Digits, at least one. -/
def IsDigits (ds : Bytes) : Prop :=
  ds ≠ [] ∧ ∀ d ∈ ds, isDigitByte d = true

/-- What stands after a value in a compact text: nothing, or a comma or bracket. -/
def Closes : Bytes → Prop
  | [] => True
  | b :: _ => b = 0x2C ∨ b = 0x5D ∨ b = 0x7D

/-- An exponent with its sign, or none. -/
inductive IsExponent : Bytes → Prop
  | none : IsExponent []
  | some {sign : UInt8} {ds : Bytes} (hsign : sign = 0x2B ∨ sign = 0x2D) (hdigits : IsDigits ds) :
    IsExponent (0x65 :: sign :: ds)

/-- What follows the whole digits of a number. -/
inductive IsTail : Bytes → Prop
  | whole {e : Bytes} (hexponent : IsExponent e) : IsTail e
  | fraction {ds e : Bytes} (hdigits : IsDigits ds) (hexponent : IsExponent e) :
    IsTail (0x2E :: (ds ++ e))

/-- An unsigned number: digits of which only a single one may be a leading zero, and what follows
them. -/
inductive IsNumeral : Bytes → Prop
  | mk {whole tail : Bytes} (hdigits : IsDigits whole)
    (hzero : whole.head? = some 0x30 → whole = [0x30]) (htail : IsTail tail) :
    IsNumeral (whole ++ tail)

/-- Whether a text does not go on with a digit. -/
def EndsDigits (bs : Bytes) : Prop :=
  ∀ b ∈ bs.head?, isDigitByte b = false

theorem Closes.endsDigits {rest : Bytes} (h : Closes rest) : EndsDigits rest := by
  cases rest with
  | nil => exact nofun
  | cons b rest =>
    rintro _ ⟨⟩
    rcases h with rfl | rfl | rfl <;> rfl

theorem IsExponent.endsDigits {e rest : Bytes} (h : IsExponent e) (hrest : Closes rest) :
    EndsDigits (e ++ rest) := by
  cases h with
  | none => exact hrest.endsDigits
  | some hsign hdigits =>
    rintro _ ⟨⟩
    rfl

theorem IsTail.endsDigits {tail rest : Bytes} (h : IsTail tail) (hrest : Closes rest) :
    EndsDigits (tail ++ rest) := by
  cases h with
  | whole hexponent => exact hexponent.endsDigits hrest
  | fraction hdigits hexponent =>
    rintro _ ⟨⟩
    rfl

theorem takeWhile_digits {ds more : Bytes} (hdigits : ∀ d ∈ ds, isDigitByte d = true)
    (hmore : EndsDigits more) : (ds ++ more).takeWhile isDigitByte = ds := by
  rw [List.takeWhile_append_of_pos hdigits]
  cases more with
  | nil => rw [List.takeWhile_nil, List.append_nil]
  | cons b more => rw [List.takeWhile_cons_of_neg (by simp [hmore b rfl]), List.append_nil]

theorem dropWhile_digits {ds more : Bytes} (hdigits : ∀ d ∈ ds, isDigitByte d = true)
    (hmore : EndsDigits more) : (ds ++ more).dropWhile isDigitByte = more := by
  rw [List.dropWhile_append_of_pos hdigits]
  cases more with
  | nil => rfl
  | cons b more => rw [List.dropWhile_cons_of_neg (by simp [hmore b rfl])]

/-- The exponent after its letter is scanned up to its end. -/
theorem exists_scanExponent {sign : UInt8} {ds : Bytes} (hsign : sign = 0x2B ∨ sign = 0x2D)
    (hdigits : IsDigits ds) :
    ∃ value, ∀ rest, Closes rest → scanExponent (sign :: (ds ++ rest)) = .ok (value, rest) := by
  have hempty : ds.isEmpty = false := List.isEmpty_eq_false_iff.2 hdigits.1
  rcases hsign with rfl | rfl
  · refine ⟨digitBytesValue ds, fun rest hrest => ?_⟩
    simp [scanExponent, takeWhile_digits hdigits.2 hrest.endsDigits,
      dropWhile_digits hdigits.2 hrest.endsDigits, hempty]
  · refine ⟨-digitBytesValue ds, fun rest hrest => ?_⟩
    simp [scanExponent, takeWhile_digits hdigits.2 hrest.endsDigits,
      dropWhile_digits hdigits.2 hrest.endsDigits, hempty]

/-- What follows the whole digits is scanned up to its end. -/
theorem exists_scanNumberTail (negative : Bool) (whole : Bytes) {tail : Bytes} (h : IsTail tail) :
    ∃ value, ∀ rest, Closes rest →
      scanNumberTail negative whole (tail ++ rest) = .ended value rest := by
  cases h with
  | whole hexponent =>
    cases hexponent with
    | none =>
      refine ⟨wholeNumber negative whole, fun rest hrest => ?_⟩
      cases rest with
      | nil => rfl
      | cons b rest => rcases hrest with rfl | rfl | rfl <;> rfl
    | some hsign hdigits =>
      obtain ⟨value, hvalue⟩ := exists_scanExponent hsign hdigits
      refine ⟨realNumber negative whole [] value, fun rest hrest => ?_⟩
      simp [scanNumberTail, hvalue rest hrest]
  | @fraction ds e hdigits hexponent =>
    have hempty : ds.isEmpty = false := List.isEmpty_eq_false_iff.2 hdigits.1
    have hscan : ∀ rest, Closes rest →
        (ds ++ (e ++ rest)).takeWhile isDigitByte = ds ∧
          (ds ++ (e ++ rest)).dropWhile isDigitByte = e ++ rest := fun rest hrest =>
      ⟨takeWhile_digits hdigits.2 (hexponent.endsDigits hrest),
        dropWhile_digits hdigits.2 (hexponent.endsDigits hrest)⟩
    cases hexponent with
    | none =>
      refine ⟨realNumber negative whole ds 0, fun rest hrest => ?_⟩
      obtain ⟨htake, hdrop⟩ := hscan rest hrest
      simp only [List.nil_append] at htake hdrop
      simp only [List.append_nil, List.cons_append, scanNumberTail, htake, hdrop, hempty]
      cases rest with
      | nil => rfl
      | cons b rest => rcases hrest with rfl | rfl | rfl <;> rfl
    | some hsign hdigits' =>
      obtain ⟨value, hvalue⟩ := exists_scanExponent hsign hdigits'
      refine ⟨realNumber negative whole ds value, fun rest hrest => ?_⟩
      obtain ⟨htake, hdrop⟩ := hscan rest hrest
      simp only [List.cons_append] at htake hdrop
      simp [scanNumberTail, htake, hdrop, hempty, hvalue rest hrest]

/-- Whole digits are scanned, and then what follows them. -/
theorem scanUnsigned_digits {negative : Bool} {whole more : Bytes} (hdigits : IsDigits whole)
    (hzero : whole.head? = some 0x30 → whole = [0x30]) (hmore : EndsDigits more) :
    scanUnsigned negative (whole ++ more) = scanNumberTail negative whole more := by
  obtain ⟨hne, hall⟩ := hdigits
  match whole, hne with
  | b :: ds, _ =>
    obtain ⟨hb, hds⟩ := List.forall_mem_cons.1 hall
    by_cases hb0 : b = 0x30
    · subst hb0
      obtain rfl : ds = [] := List.cons.inj (hzero rfl) |>.2
      cases more with
      | nil => rfl
      | cons d more => simp [scanUnsigned, hmore d rfl]
    · simp [scanUnsigned, hb0, hb, takeWhile_digits hds hmore, dropWhile_digits hds hmore]

/-- A numeral is scanned up to its end. -/
theorem IsNumeral.exists_scanUnsigned (negative : Bool) {bs : Bytes} (h : IsNumeral bs) :
    ∃ value, ∀ rest, Closes rest → scanUnsigned negative (bs ++ rest) = .ended value rest := by
  obtain ⟨hdigits, hzero, htail⟩ := h
  next whole tail =>
  obtain ⟨value, hvalue⟩ := exists_scanNumberTail negative whole htail
  refine ⟨value, fun rest hrest => ?_⟩
  rw [List.append_assoc, scanUnsigned_digits hdigits hzero (htail.endsDigits hrest),
    hvalue rest hrest]

/-! ## Digits -/

/-- The bytes of characters one after another. -/
abbrev bytesOf (cs : List Char) : Bytes :=
  cs.flatMap String.utf8EncodeChar

theorem bytesOf_append (cs ds : List Char) : bytesOf (cs ++ ds) = bytesOf cs ++ bytesOf ds :=
  List.flatMap_append

/-- Characters that are digits, at least one. -/
def AreDigits (cs : List Char) : Prop :=
  cs ≠ [] ∧ ∀ c ∈ cs, c.isDigit = true

theorem isDigitByte_of_isDigit {c : Char} (h : c.isDigit = true) :
    String.utf8EncodeChar c = [UInt8.ofNat c.toNat] ∧
      isDigitByte (UInt8.ofNat c.toNat) = true := by
  have hrange : 48 ≤ c.toNat ∧ c.toNat ≤ 57 := by
    simpa [Char.isDigit, UInt32.le_iff_toNat_le] using h
  refine ⟨Utf8.utf8EncodeChar_ascii (by omega), ?_⟩
  have htoNat : (UInt8.ofNat c.toNat).toNat = c.toNat :=
    UInt8.toNat_ofNat_of_lt' (by simp [UInt8.size]; omega)
  simp [isDigitByte, UInt8.le_iff_toNat_le, htoNat, hrange]

theorem AreDigits.isDigits {cs : List Char} (h : AreDigits cs) : IsDigits (bytesOf cs) := by
  obtain ⟨hne, hall⟩ := h
  constructor
  · match cs, hne with
    | c :: cs, _ => simp [(isDigitByte_of_isDigit (hall c (by simp))).1]
  · intro b hb
    obtain ⟨c, hc, hb⟩ := List.mem_flatMap.1 hb
    obtain ⟨hbytes, hdigit⟩ := isDigitByte_of_isDigit (hall c hc)
    rw [hbytes, List.mem_singleton] at hb
    rwa [hb]

theorem AreDigits.append {cs ds : List Char} (h : AreDigits cs) (hds : ∀ d ∈ ds, d.isDigit = true) :
    AreDigits (cs ++ ds) :=
  ⟨by simp [h.1], List.forall_mem_append.2 ⟨h.2, hds⟩⟩

theorem isDigit_of_mem_replicate {n : Nat} : ∀ d ∈ List.replicate n '0', d.isDigit = true := by
  intro d hd
  rw [List.eq_of_mem_replicate hd]
  rfl

theorem areDigits_zero : AreDigits ['0'] :=
  ⟨nofun, List.forall_mem_singleton.2 rfl⟩

theorem areDigits_natChars (n : Nat) : AreDigits (Decimal.natChars n) :=
  ⟨Nat.toDigits_ne_nil, fun _ hc => Nat.isDigit_of_mem_toDigits (by decide) (by decide) hc⟩

theorem natChars_of_lt {n : Nat} (h : n < 10) : Decimal.natChars n = [n.digitChar] :=
  Nat.toDigits_of_lt_base h

theorem natChars_of_le {n : Nat} (h : 10 ≤ n) :
    Decimal.natChars n = Decimal.natChars (n / 10) ++ [(n % 10).digitChar] :=
  Nat.toDigits_of_base_le (by decide) h

/-- A number that is not zero does not begin with one. -/
theorem head?_natChars_ne {n : Nat} (hn : n ≠ 0) : (Decimal.natChars n).head? ≠ some '0' := by
  induction n using Nat.strongRecOn with
  | ind n ih =>
    rcases Nat.lt_or_ge n 10 with hlt | hge
    · rw [natChars_of_lt hlt]
      interval_cases n <;> first | contradiction | decide
    · rw [natChars_of_le hge, List.head?_append_of_ne_nil _ (areDigits_natChars _).1]
      exact ih (n / 10) (by omega) (by omega)

theorem digitBytesValue_append (ds : Bytes) (d : UInt8) :
    digitBytesValue (ds ++ [d]) = digitBytesValue ds * 10 + (d.toNat - 48) := by
  simp [digitBytesValue]

/-- The digits of a number are read as the number. -/
theorem digitBytesValue_natChars (n : Nat) :
    digitBytesValue (bytesOf (Decimal.natChars n)) = n := by
  have hdigit : ∀ k < 10, bytesOf [k.digitChar] = [UInt8.ofNat (k + 48)] ∧
      (UInt8.ofNat (k + 48)).toNat - 48 = k := by decide
  induction n using Nat.strongRecOn with
  | ind n ih =>
    rcases Nat.lt_or_ge n 10 with hlt | hge
    · rw [natChars_of_lt hlt, (hdigit n hlt).1]
      simpa [digitBytesValue] using (hdigit n hlt).2
    · have hlast := hdigit (n % 10) (by omega)
      rw [natChars_of_le hge, bytesOf_append, hlast.1, digitBytesValue_append,
        ih (n / 10) (by omega), hlast.2]
      omega

/-! ## Numerals of numbers -/

/-- The shortest decimal of a number that is not zero is not zero. -/
theorem trimmed_digits_pos {d : Decimal.Digits} (h : 0 < d.digits) (fuel : Nat) :
    0 < (d.trimmed fuel).digits := by
  induction fuel generalizing d with
  | zero => exact h
  | succ fuel ih =>
    rw [Decimal.Digits.trimmed]
    split
    · next hzero =>
      simp only [Bool.and_eq_true, beq_iff_eq] at hzero
      exact ih (show 0 < d.digits / 10 by omega)
    · exact h

theorem onGrid?_digits_pos {b : Decimal.Binary} {tie : Decimal.Tie} {grid : Int}
    {d : Decimal.Digits} (h : b.onGrid? tie grid = some d) : 0 < d.digits := by
  unfold Decimal.Binary.onGrid? at h
  dsimp only at h
  split at h
  · cases h
    exact Nat.succ_pos _
  · split at h
    · next hdown =>
      cases h
      simp only [Bool.and_eq_true, decide_eq_true_eq] at hdown
      exact hdown.2
    · cases h

theorem shortest_digits_pos {b : Decimal.Binary} (h : 0 < b.significand) (tie : Decimal.Tie) :
    0 < (b.shortest tie).digits := by
  have hgetD : ∀ found : Option Decimal.Digits, (∀ d, found = some d → 0 < d.digits) →
      0 < (found.getD ⟨b.significand, b.exponent⟩).digits := by
    intro found hfound
    cases found with
    | none => exact h
    | some d => exact hfound d rfl
  unfold Decimal.Binary.shortest
  refine trimmed_digits_pos (hgetD _ fun d hd => ?_) 20
  obtain ⟨extra, -, hgrid⟩ := List.exists_of_findSome?_eq_some hd
  exact onGrid?_digits_pos hgrid

theorem significand_pos {bits : Nat} (h : bits ≠ 0) :
    0 < (Decimal.Binary.ofMagnitude bits).significand := by
  have hpow : Nat.pow 2 52 = 2 ^ 52 := rfl
  unfold Decimal.Binary.ofMagnitude
  dsimp only
  split
  · next hbiased =>
    rw [beq_iff_eq, hpow] at hbiased
    change 0 < bits % 2 ^ 52
    omega
  · exact Nat.add_pos_left (Nat.two_pow_pos 52) _

section

variable {cs ds : List Char} {n : Int}

theorem AreDigits.head?_ne (h : AreDigits cs) (hzero : cs.head? ≠ some '0') :
    (bytesOf cs).head? ≠ some 0x30 := by
  intro hhead
  match cs, h.1 with
  | c :: cs, _ =>
    have hmem : 0x30 ∈ String.utf8EncodeChar c := by
      rw [bytesOf, List.flatMap_cons, (isDigitByte_of_isDigit (h.2 c (by simp))).1] at hhead
      rw [(isDigitByte_of_isDigit (h.2 c (by simp))).1]
      simpa using hhead.symm
    exact hzero (congrArg some (Utf8.eq_of_mem_utf8EncodeChar hmem (by decide)))

/-- Whole digits that do not begin with a zero, and what follows them, are a numeral. -/
theorem AreDigits.isNumeral (h : AreDigits cs) (hzero : cs.head? ≠ some '0') {tail : Bytes}
    (htail : IsTail tail) : IsNumeral (bytesOf cs ++ tail) :=
  .mk h.isDigits (fun hhead => absurd hhead (h.head?_ne hzero)) htail

/-- A fraction after a point. -/
theorem AreDigits.isTail (h : AreDigits ds) : IsTail (bytesOf ('.' :: ds)) := by
  have := IsTail.fraction h.isDigits .none
  rwa [List.append_nil] at this

/-- A zero, and what follows it. -/
theorem isNumeral_zero {tail : Bytes} (htail : IsTail tail) : IsNumeral (0x30 :: tail) :=
  .mk areDigits_zero.isDigits (fun _ => rfl) htail

/-- An exponent as it is printed. -/
theorem isExponent_printed (power : Int) :
    IsExponent (bytesOf ('e' :: if 0 ≤ power then '+' :: Decimal.natChars power.natAbs
      else Decimal.intChars power)) := by
  split
  · exact .some (.inl rfl) (areDigits_natChars _).isDigits
  · rw [Decimal.intChars, if_pos (by omega)]
    exact .some (.inr rfl) (areDigits_natChars _).isDigits

/-- A decimal by position is a numeral. -/
theorem isNumeral_positional (h : AreDigits cs) (hzero : cs.head? ≠ some '0') :
    IsNumeral (bytesOf (Decimal.positionalChars cs n ['.', '0'])) := by
  unfold Decimal.positionalChars
  dsimp only
  split
  · rw [bytesOf_append]
    have hzeros := h.append (isDigit_of_mem_replicate (n := n.toNat))
    refine hzeros.isNumeral ?_ areDigits_zero.isTail
    rwa [List.head?_append_of_ne_nil _ h.1]
  · split
    · next hpoint =>
      have htake : AreDigits (cs.take (cs.length + n).toNat) := by
        refine ⟨?_, fun c hc => h.2 c (List.mem_of_mem_take hc)⟩
        simp only [ne_eq, List.take_eq_nil_iff, not_or]
        exact ⟨by omega, h.1⟩
      have hdrop : AreDigits (cs.drop (cs.length + n).toNat) := by
        refine ⟨?_, fun c hc => h.2 c (List.mem_of_mem_drop hc)⟩
        simp only [ne_eq, List.drop_eq_nil_iff]
        omega
      rw [bytesOf_append]
      refine htake.isNumeral ?_ hdrop.isTail
      rwa [List.head?_take, if_neg (by omega)]
    · have hfraction : AreDigits (List.replicate (-(cs.length + n)).toNat '0' ++ cs) :=
        ⟨by simp [h.1], List.forall_mem_append.2 ⟨isDigit_of_mem_replicate, h.2⟩⟩
      exact isNumeral_zero hfraction.isTail

/-- A decimal with an exponent is a numeral. -/
theorem isNumeral_scientific (h : AreDigits cs) (hzero : cs.head? ≠ some '0') :
    IsNumeral (bytesOf (Decimal.scientificChars cs n)) := by
  have hexponent := isExponent_printed (cs.length + n - 1)
  unfold Decimal.scientificChars
  dsimp only
  split
  · next first second rest =>
    have hfirst : AreDigits [first] := ⟨nofun, by simpa using h.2 first (by simp)⟩
    have hrest : AreDigits (second :: rest) :=
      ⟨nofun, fun c hc => h.2 c (List.mem_cons_of_mem _ hc)⟩
    have htail := IsTail.fraction hrest.isDigits hexponent
    rw [← bytesOf_append] at htail
    have hsplit : ∀ more : List Char,
        first :: '.' :: second :: rest ++ more = [first] ++ '.' :: (second :: rest ++ more) :=
      fun _ => rfl
    rw [hsplit, bytesOf_append]
    exact hfirst.isNumeral (by simpa using hzero) htail
  · rw [bytesOf_append]
    exact h.isNumeral hzero (.whole hexponent)

end

/-- The digits of a natural number are a numeral. -/
theorem isNumeral_natChars (n : Nat) : IsNumeral (bytesOf (Decimal.natChars n)) := by
  rcases Nat.eq_zero_or_pos n with rfl | hpos
  · exact isNumeral_zero (.whole .none)
  · have := (areDigits_natChars n).isNumeral (head?_natChars_ne hpos.ne') (.whole .none)
    rwa [List.append_nil] at this

/-- A decimal that is not zero is printed as a numeral. -/
theorem isNumeral_digitChars {d : Decimal.Digits} (h : 0 < d.digits) :
    IsNumeral (bytesOf (Decimal.Layout.json.digitChars d)) := by
  unfold Decimal.Layout.digitChars
  dsimp only
  split
  · exact isNumeral_positional (areDigits_natChars _) (head?_natChars_ne h.ne')
  · exact isNumeral_scientific (areDigits_natChars _) (head?_natChars_ne h.ne')

/-- A finite number is neither infinite nor undefined. -/
theorem not_of_isFinite {x : Float} (h : x.isFinite = true) :
    x.isNaN = false ∧ x.isInf = false := by
  change x.toModel.unpack.isFinite = true at h
  change x.toModel.unpack.isNaN = false ∧ x.toModel.unpack.isInf = false
  cases hx : x.toModel.unpack with
  | zero | finite => exact ⟨rfl, rfl⟩
  | infinity | notANumber =>
    rw [hx] at h
    cases h

/-- The text of a number: a numeral, a numeral after a minus sign, or null. -/
theorem numberChars_cases (n : Number) :
    (∃ cs, IsNumeral (bytesOf cs) ∧ (numberChars n = cs ∨ numberChars n = '-' :: cs)) ∨
      numberChars n = ['n', 'u', 'l', 'l'] := by
  have hsign : ∀ (negative : Bool) (cs : List Char), IsNumeral (bytesOf cs) →
      ∃ ds, IsNumeral (bytesOf ds) ∧
        ((if negative then ['-'] else []) ++ cs = ds ∨
          (if negative then ['-'] else []) ++ cs = '-' :: ds) := by
    intro negative cs hcs
    cases negative with
    | false => exact ⟨cs, hcs, .inl rfl⟩
    | true => exact ⟨cs, hcs, .inr rfl⟩
  cases n with
  | int i =>
    refine .inl ⟨Decimal.natChars i.natAbs, isNumeral_natChars _, ?_⟩
    rw [numberChars, Decimal.intChars]
    split
    · exact .inr rfl
    · exact .inl rfl
  | real x =>
    rw [numberChars]
    split
    · next hfinite =>
      obtain ⟨hnan, hinf⟩ := not_of_isFinite hfinite
      left
      simp only [Decimal.Layout.chars, hnan, hinf, Bool.false_eq_true, if_false]
      split
      · exact hsign _ _ (isNumeral_zero areDigits_zero.isTail)
      · next hmagnitude =>
        have hbits := significand_pos fun h => hmagnitude (beq_iff_eq.2 h)
        exact hsign _ _ (isNumeral_digitChars (shortest_digits_pos hbits _))
    · exact .inr rfl

/-! ## Drafts of numbers -/

theorem skipSpace_cons {b : UInt8} {bs : Bytes} (h : isSpace b = false) :
    skipSpace (b :: bs) = b :: bs :=
  List.dropWhile_cons_of_neg (by simp [h])

theorem draftValue_minus {fuel : Nat} {bs : Bytes} :
    draftValue (fuel + 1) (0x2D :: bs) = draftToken .other .number (scanUnsigned true bs) := by
  rw [draftValue, skipSpace_cons rfl]
  rfl

theorem isSpace_of_isDigitByte {b : UInt8} (h : isDigitByte b = true) : isSpace b = false := by
  simp only [isSpace, Bool.or_eq_false_iff, beq_eq_false_iff_ne]
  refine ⟨⟨⟨?_, ?_⟩, ?_⟩, ?_⟩
  all_goals
    rintro rfl
    exact absurd h (by decide)

theorem draftValue_digit {fuel : Nat} {b : UInt8} {bs : Bytes} (h : isDigitByte b = true) :
    draftValue (fuel + 1) (b :: bs) =
      draftToken .other .number (scanUnsigned false (b :: bs)) := by
  have hother : b ≠ 0x6E ∧ b ≠ 0x74 ∧ b ≠ 0x66 ∧ b ≠ 0x2D := by
    refine ⟨?_, ?_, ?_, ?_⟩
    all_goals
      rintro rfl
      exact absurd h (by decide)
  obtain ⟨hn, ht, hf, hminus⟩ := hother
  rw [draftValue, skipSpace_cons (isSpace_of_isDigitByte h)]
  simp [hn, ht, hf, hminus, h]

/-- A numeral is drafted up to its end. -/
theorem IsNumeral.exists_draftValue {bs : Bytes} (h : IsNumeral bs) :
    ∃ d, ∀ fuel rest, Closes rest → draftValue (fuel + 1) (bs ++ rest) = (d, some rest) := by
  obtain ⟨value, hvalue⟩ := h.exists_scanUnsigned false
  refine ⟨.number value, fun fuel rest hrest => ?_⟩
  obtain ⟨hdigits, hzero, htail⟩ := h
  next whole tail =>
  match whole, hdigits with
  | b :: ds, hdigits =>
    have hb : isDigitByte b = true := hdigits.2 b (by simp)
    simp only [List.cons_append] at hvalue ⊢
    rw [draftValue_digit hb, hvalue rest hrest]
    rfl

/-- The text of a number is drafted up to its end, whatever closes the value. -/
theorem exists_draftValue_number (n : Number) :
    ∃ d, ∀ fuel rest, Closes rest →
      draftValue (fuel + 1) (bytesOf (numberChars n) ++ rest) = (d, some rest) := by
  obtain ⟨cs, hcs, hn | hn⟩ | hn := numberChars_cases n
  · rw [hn]
    exact hcs.exists_draftValue
  · obtain ⟨value, hvalue⟩ := hcs.exists_scanUnsigned true
    refine ⟨.number value, fun fuel rest hrest => ?_⟩
    rw [hn]
    change draftValue (fuel + 1) (0x2D :: (bytesOf cs ++ rest)) = _
    rw [draftValue_minus, hvalue rest hrest]
    rfl
  · refine ⟨.null, fun fuel rest hrest => ?_⟩
    rw [hn]
    rfl

theorem scanUnsigned_natChars (negative : Bool) (n : Nat) :
    scanUnsigned negative (bytesOf (Decimal.natChars n)) =
      .ended (wholeNumber negative (bytesOf (Decimal.natChars n))) [] := by
  have hzero : (bytesOf (Decimal.natChars n)).head? = some 0x30 →
      bytesOf (Decimal.natChars n) = [0x30] := by
    intro hhead
    rcases Nat.eq_zero_or_pos n with rfl | hpos
    · rfl
    · exact absurd hhead ((areDigits_natChars n).head?_ne (head?_natChars_ne hpos.ne'))
  have hscan := @scanUnsigned_digits negative _ [] (areDigits_natChars n).isDigits hzero
    fun _ h => by cases h
  rw [List.append_nil] at hscan
  exact hscan

theorem wholeNumber_natChars {n : Nat} (h : n < 2 ^ 64) :
    wholeNumber false (bytesOf (Decimal.natChars n)) = .ok (.int n) := by
  have hpow : Nat.pow 2 64 = 2 ^ 64 := rfl
  unfold wholeNumber
  rw [digitBytesValue_natChars]
  dsimp only
  rw [hpow, if_neg (by omega)]
  rfl

theorem wholeNumber_minus_natChars {n : Nat} (hpos : 0 < n) (h : n ≤ 2 ^ 63) :
    wholeNumber true (bytesOf (Decimal.natChars n)) = .ok (.int (-n)) := by
  have hpow : Nat.pow 2 64 = 2 ^ 64 ∧ Nat.pow 2 63 = 2 ^ 63 := ⟨rfl, rfl⟩
  have hreal : ¬ (n == 0 || decide (2 ^ 63 < n)) = true := by
    simp only [Bool.or_eq_true, beq_iff_eq, decide_eq_true_eq]
    omega
  unfold wholeNumber
  rw [digitBytesValue_natChars]
  dsimp only
  rw [hpow.1, hpow.2, if_neg (by omega), if_neg (by decide), if_neg hreal]

/-- The digits of an integer of 64 bits are read as that integer. -/
theorem draftValue_int {fuel : Nat} {i : Int} (h : (Number.int i).Legal) :
    draftValue (fuel + 1) (bytesOf (numberChars (.int i))) = (.number (.ok (.int i)), some []) := by
  have hlegal : -2 ^ 63 ≤ i ∧ i < 2 ^ 64 := h
  rw [numberChars, Decimal.intChars]
  split
  · next hneg =>
    have hi : -(i.natAbs : Int) = i := by omega
    change draftValue (fuel + 1) (0x2D :: bytesOf (Decimal.natChars i.natAbs)) = _
    rw [draftValue_minus, scanUnsigned_natChars,
      wholeNumber_minus_natChars (by omega) (by omega), hi]
    rfl
  · have hi : (i.natAbs : Int) = i := by omega
    obtain ⟨hne, hdigits⟩ := (areDigits_natChars i.natAbs).isDigits
    have hscan := scanUnsigned_natChars false i.natAbs
    rw [wholeNumber_natChars (by omega), hi] at hscan
    match hbytes : bytesOf (Decimal.natChars i.natAbs), hne with
    | b :: ds, _ =>
      rw [hbytes] at hscan hdigits
      rw [draftValue_digit (hdigits b (by simp)), hscan]
      rfl

end FinanceGateway.Json
