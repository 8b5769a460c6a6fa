import FinanceGateway.Proofs.Text.Percent
import FinanceGateway.Url.Address
import Mathlib

/-!
# Segments

The path of an address is cut into segments and these are resolved one after another (`settle`), so
what the first ones come to does not depend on what follows (`resolveSegments_append`). A segment
that was written with percent codes stands for itself unless it was written for one or two dots:
these need no codes, and they move within the path (`isSingleDot_encode_iff`,
`isDoubleDot_encode_iff`).
-/

namespace FinanceGateway.Url

/-! ## Pieces -/

/-- There is always a piece. -/
theorem splitChars_ne_nil (separator : Char) (cs : List Char) : splitChars separator cs ≠ [] := by
  cases cs with
  | nil => simp [splitChars]
  | cons c cs =>
    rw [splitChars]
    split
    · simp
    · split <;> simp

theorem splitChars_cons_self (separator : Char) (cs : List Char) :
    splitChars separator (separator :: cs) = [] :: splitChars separator cs := by
  simp [splitChars]

/-- A separator ends a piece. -/
theorem splitChars_append_cons (separator : Char) (front back : List Char) :
    splitChars separator (front ++ separator :: back) =
      splitChars separator front ++ splitChars separator back := by
  induction front with
  | nil => exact splitChars_cons_self separator back
  | cons c front ih =>
    rw [List.cons_append, splitChars, splitChars]
    split
    · rw [ih, List.cons_append]
    · rw [ih]
      cases hfront : splitChars separator front with
      | nil => exact absurd hfront (splitChars_ne_nil separator front)
      | cons piece pieces => rfl

/-- A text without the separator is one piece. -/
theorem splitChars_of_not_mem {separator : Char} {cs : List Char} (h : separator ∉ cs) :
    splitChars separator cs = [cs] := by
  induction cs with
  | nil => rfl
  | cons c cs ih =>
    simp only [List.mem_cons, not_or] at h
    rw [splitChars, if_neg (by simpa using Ne.symm h.1), ih h.2]

/-- Segments, each after a slash. -/
def slashed (segments : List String) : List Char :=
  segments.flatMap fun s => '/' :: s.toList

@[simp] theorem slashed_nil : slashed [] = [] := rfl

@[simp] theorem slashed_cons (s : String) (segments : List String) :
    slashed (s :: segments) = '/' :: (s.toList ++ slashed segments) := by
  simp [slashed]

@[simp] theorem slashed_append (front back : List String) :
    slashed (front ++ back) = slashed front ++ slashed back := by
  simp [slashed]

theorem mem_slashed {segments : List String} {c : Char} (h : c ∈ slashed segments) :
    c = '/' ∨ ∃ s ∈ segments, c ∈ s.toList := by
  obtain ⟨s, hs, hc⟩ := List.mem_flatMap.1 h
  exact (List.mem_cons.1 hc).imp_right fun hc => ⟨s, hs, hc⟩

/-- The pieces of a text that goes on with segments. -/
theorem splitChars_append_slashed (front : List Char) {segments : List String}
    (h : ∀ s ∈ segments, '/' ∉ s.toList) :
    splitChars '/' (front ++ slashed segments) =
      splitChars '/' front ++ segments.map String.toList := by
  induction segments generalizing front with
  | nil => simp
  | cons s segments ih =>
    have hs : splitChars '/' s.toList = [s.toList] := splitChars_of_not_mem (h s (.head _))
    rw [slashed_cons, splitChars_append_cons, ih _ fun s' hs' => h s' (.tail _ hs'), hs]
    rfl

/-- Segments without a slash in them can be told from their text. -/
theorem slashed_injective {xs ys : List String} (hx : ∀ s ∈ xs, '/' ∉ s.toList)
    (hy : ∀ s ∈ ys, '/' ∉ s.toList) (h : slashed xs = slashed ys) : xs = ys := by
  have hsplit := splitChars_append_slashed [] hx
  rw [h, splitChars_append_slashed [] hy, List.append_cancel_left_eq] at hsplit
  exact (List.map_injective_iff.2 (fun _ _ => String.toList_inj.1) hsplit).symm

/-! ## Resolving segments one after another -/

/-- The segments so far, from the last, after one more that is not at the end. -/
def settle (above : List String) (segment : List Char) : List String :=
  if isDoubleDot segment then above.tail
  else if isSingleDot segment then above
  else coded keptInPath segment :: above

/-- Whether a segment stands for itself. -/
def Stays (segment : List Char) : Prop :=
  isSingleDot segment = false ∧ isDoubleDot segment = false

instance : DecidablePred Stays :=
  fun segment => inferInstanceAs (Decidable (isSingleDot segment = false ∧ _))

theorem settle_of_stays {segment : List Char} (h : Stays segment) (above : List String) :
    settle above segment = coded keptInPath segment :: above := by
  rw [settle, h.1, h.2]
  rfl

/-- The first segments are settled before those that follow. -/
theorem resolveSegments_append (front : List (List Char)) {back : List (List Char)}
    (hback : back ≠ []) (above : List String) :
    resolveSegments (front ++ back) above = resolveSegments back (front.foldl settle above) := by
  induction front generalizing above with
  | nil => rfl
  | cons segment front ih =>
    have hrest : (front ++ back).isEmpty = false := by simp [hback]
    rw [List.cons_append, resolveSegments, hrest, List.foldl_cons, settle]
    by_cases hdouble : isDoubleDot segment = true
    · simp [hdouble, ih]
    · by_cases hsingle : isSingleDot segment = true
      · simp [hdouble, hsingle, ih]
      · simp [hdouble, hsingle, ih]

/-- When the last segment stands for itself, all of them are settled alike. -/
theorem resolveSegments_of_stays {segments : List (List Char)}
    (h : ∀ last ∈ segments.getLast?, Stays last) (above : List String) :
    resolveSegments segments above = (segments.foldl settle above).reverse := by
  rcases List.eq_nil_or_concat' segments with rfl | ⟨front, last, rfl⟩
  · rfl
  · have hlast := h last (by simp)
    rw [resolveSegments_append front (by simp), List.foldl_append, List.foldl_cons,
      List.foldl_nil, settle_of_stays hlast, resolveSegments, hlast.1, hlast.2]
    rfl

/-- Nothing but nothing has an empty code. -/
theorem coded_eq_empty_iff {keep : UInt8 → Bool} {cs : List Char} :
    coded keep cs = "" ↔ cs = [] := by
  rw [coded, String.ofList_eq_empty_iff, Percent.encodeBytes_eq_nil_iff, Utf8.encode_eq_nil_iff,
    String.ofList_eq_empty_iff]

/-- A last segment that stands for itself and is not empty is still there when all are resolved. -/
theorem resolveSegments_ne_empty {segments : List (List Char)} (hne : segments ≠ [])
    (h : ∀ last ∈ segments.getLast?, last ≠ [] ∧ Stays last) (above : List String) :
    resolveSegments segments above ≠ [""] := by
  obtain ⟨front, last, rfl⟩ := (List.eq_nil_or_concat' segments).resolve_left hne
  obtain ⟨hlast, hstays⟩ := h last (by simp)
  rw [resolveSegments_of_stays fun last hmem => (h last hmem).2, List.foldl_append, List.foldl_cons,
    List.foldl_nil, settle_of_stays hstays, List.reverse_cons]
  intro heq
  have hcoded : coded keptInPath last = "" := by simpa using congrArg List.getLast? heq
  exact hlast (coded_eq_empty_iff.1 hcoded)

/-! ## Segments with percent codes -/

/-- What codes are made of stands for itself in a path. -/
theorem coded_of_isCoded {cs : List Char} (h : ∀ c ∈ cs, Percent.isCoded c = true) :
    coded keptInPath cs = String.ofList cs := by
  have hkept : ∀ b, Percent.isUnreserved b = true → keptInPath b = true :=
    Percent.forall_byte (by decide +kernel)
  rw [coded, Percent.encodeBytes_of_kept]
  intro c hc
  have := h c hc
  simp only [Percent.isCoded, Bool.and_eq_true, decide_eq_true_eq, Bool.or_eq_true,
    beq_iff_eq] at this
  refine ⟨this.1, ?_⟩
  rcases this.2 with hc | rfl
  · exact hkept _ hc
  · decide

/-- The texts that are the same in small letters. -/
def spellings : List Char → List (List Char)
  | [] => [[]]
  | c :: cs => (spellings cs).flatMap fun rest => [c :: rest, c.toUpper :: rest]

/-- An ASCII text is a spelling of itself in small letters. -/
theorem mem_spellings {cs : List Char} (h : ∀ c ∈ cs, c.toNat < 128) :
    cs ∈ spellings (cs.map Char.toLower) := by
  have hcase : ∀ n : Fin 128, Char.ofNat n = (Char.ofNat n).toLower ∨
      Char.ofNat n = (Char.ofNat n).toLower.toUpper := by decide +kernel
  induction cs with
  | nil => exact .head _
  | cons c cs ih =>
    have hrest := ih fun d hd => h d (.tail _ hd)
    have hc := hcase ⟨c.toNat, h c (.head _)⟩
    rw [Char.ofNat_toNat] at hc
    rw [List.map_cons, spellings, List.mem_flatMap]
    refine ⟨cs, hrest, ?_⟩
    rcases hc with hc | hc
    · rw [← hc]
      exact .head _
    · rw [← hc]
      exact .tail _ (.head _)

/-- What is read as two dots stands for them. -/
theorem decodeText?_of_isDoubleDot {cs : List Char} (hascii : ∀ c ∈ cs, c.toNat < 128)
    (h : isDoubleDot cs = true) : Percent.decodeText? (String.ofList cs) = some ".." := by
  have hall : ∀ t ∈ ["..", ".%2e", "%2e.", "%2e%2e"], ∀ ds ∈ spellings t.toList,
      Percent.decodeText? (String.ofList ds) = some ".." := by decide +kernel
  refine hall _ (List.contains_iff_mem.1 h) cs ?_
  rw [String.toList_ofList]
  exact mem_spellings hascii

/-- What is read as a dot stands for it. -/
theorem decodeText?_of_isSingleDot {cs : List Char} (hascii : ∀ c ∈ cs, c.toNat < 128)
    (h : isSingleDot cs = true) : Percent.decodeText? (String.ofList cs) = some "." := by
  have hall : ∀ t ∈ [".", "%2e"], ∀ ds ∈ spellings t.toList,
      Percent.decodeText? (String.ofList ds) = some "." := by decide +kernel
  refine hall _ (List.contains_iff_mem.1 h) cs ?_
  rw [String.toList_ofList]
  exact mem_spellings hascii

theorem toNat_lt_of_mem_encode {s : String} : ∀ c ∈ (Percent.encode s).toList, c.toNat < 128 := by
  intro c hc
  have := Percent.isCoded_of_mem_encode hc
  simp only [Percent.isCoded, Bool.and_eq_true, decide_eq_true_eq] at this
  exact this.1

/-- With percent codes, only two dots are read as two dots. -/
theorem isDoubleDot_encode_iff {s : String} :
    isDoubleDot (Percent.encode s).toList = true ↔ s = ".." := by
  constructor
  · intro h
    have hdots := decodeText?_of_isDoubleDot toNat_lt_of_mem_encode h
    rw [String.ofList_toList, Percent.decodeText?_encode] at hdots
    exact Option.some.inj hdots
  · rintro rfl
    decide +kernel

/-- With percent codes, only a dot is read as a dot. -/
theorem isSingleDot_encode_iff {s : String} :
    isSingleDot (Percent.encode s).toList = true ↔ s = "." := by
  constructor
  · intro h
    have hdot := decodeText?_of_isSingleDot toNat_lt_of_mem_encode h
    rw [String.ofList_toList, Percent.decodeText?_encode] at hdot
    exact Option.some.inj hdot
  · rintro rfl
    decide +kernel

end FinanceGateway.Url
