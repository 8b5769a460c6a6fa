import FinanceGateway.Proofs.Text.Form
import FinanceGateway.Proofs.Url.Below

/-!
# The query of an address

A text without a question mark is read as an address without a query (`query_eq_none_of_read`), and
an address without query and fragment was read from such a text (`question_not_mem_of_read`). No
question mark stands in the path of an address, so the first one in what a server is asked for
begins the query (`targetQuery?`), and that is made of the pairs that were added and of nothing else
(`hasPairs_addQuery`).
-/

namespace FinanceGateway.Url

/-! ## Marks in a text and parts of its address -/

/-- An address is read from the end of what is left of its text; no mark stands before that. -/
theorem exists_readAuthority_of_read {s : String} {url : Url} (h : read s = some (.address url)) :
    ∃ (front cs : List Char) (web : Bool), cleaned s = front ++ cs ∧
      '?' ∉ front ∧ '#' ∉ front ∧ readAuthority url.scheme web cs = some url := by
  simp only [read, Option.bind_eq_bind, Option.bind_eq_some_iff] at h
  obtain ⟨⟨scheme, rest⟩, hscheme, h⟩ := h
  obtain ⟨name, hclean, hname⟩ := splitScheme_eq_some hscheme
  have hnot (m : Char) (hm : isSchemeChar m = false) (hcolon : m ≠ ':') {slashes : List Char}
      (hslashes : ∀ c ∈ slashes, isSlash true c = true) (hslash : isSlash true m = false) :
      m ∉ name ++ ':' :: slashes := by
    intro hc
    rcases List.mem_append.1 hc with hc | hc
    · rw [hname m hc] at hm
      cases hm
    · rcases List.mem_cons.1 hc with rfl | hc
      · exact hcolon rfl
      · rw [hslashes m hc] at hslash
        cases hslash
  split at h
  · obtain ⟨found, hfound, heq⟩ := Option.map_eq_some_iff.1 h
    cases heq
    obtain ⟨rfl, -⟩ := readAuthority_eq_some hfound
    have hslashes : ∀ c ∈ rest.takeWhile (isSlash true), isSlash true c = true :=
      fun c hc => List.mem_takeWhile_imp hc
    refine ⟨name ++ ':' :: rest.takeWhile (isSlash true), _, true, ?_,
      hnot '?' (by decide) (by decide) hslashes (by decide),
      hnot '#' (by decide) (by decide) hslashes (by decide), hfound⟩
    rw [hclean, List.append_assoc, List.cons_append, List.takeWhile_append_dropWhile]
  · split at h
    · split at h
      · cases h
      · next after heq _ =>
        obtain ⟨found, hfound, hsame⟩ := Option.map_eq_some_iff.1 h
        cases hsame
        obtain ⟨rfl, -⟩ := readAuthority_eq_some hfound
        obtain rfl : rest = '/' :: '/' :: after := heq
        have hslashes : ∀ c ∈ ['/', '/'], isSlash true c = true := by simp [isSlash]
        exact ⟨name ++ ':' :: ['/', '/'], after, false, by simpa using hclean,
          hnot '?' (by decide) (by decide) hslashes (by decide),
          hnot '#' (by decide) (by decide) hslashes (by decide), hfound⟩
    · cases h

/-- Nothing stands in what is left of a text that is not in the text. -/
theorem mem_of_mem_cleaned {s : String} {c : Char} (h : c ∈ cleaned s) : c ∈ s.toList := by
  rw [cleaned_eq] at h
  have hkept := (List.mem_filter.1 h).1
  rw [dropEnd, List.mem_reverse] at hkept
  have hfront := (List.dropWhile_sublist _).mem hkept
  exact (List.dropWhile_sublist _).mem (List.mem_reverse.1 hfront)

/-- A mark stays in what is left of a text. -/
theorem mem_cleaned {s : String} {c : Char} (h : c ∈ s.toList) (hedge : isEdge c = false) :
    c ∈ cleaned s := by
  obtain ⟨front, back, hsplit⟩ := List.append_of_mem h
  have hkept : isKept c = true := by
    have hne (d : Char) (hd : isEdge d = true) : c ≠ d := by
      rintro rfl
      rw [hedge] at hd
      cases hd
    simp [isKept, hne '\t' (by decide), hne '\n' (by decide), hne '\r' (by decide)]
  rw [cleaned_eq, hsplit, dropWhile_append_cons _ _ hedge, dropEnd_append_cons _ _ hedge,
    List.mem_filter]
  exact ⟨List.mem_append_right _ (.head _), hkept⟩

/-- Something is cut off before a character of the kind. -/
theorem tail?_cut_eq_none_iff {p : Char → Bool} {cs : List Char} :
    (cut p cs).2.tail? = none ↔ ∀ c ∈ cs, p c = false := by
  have hnone : (cut p cs).2.tail? = none ↔ (cut p cs).2 = [] := by
    cases (cut p cs).2 <;> simp
  rw [hnone, cut, List.dropWhile_eq_nil_iff]
  simp

/-- Without a question mark there is no query. -/
theorem query_ofChars {cs : List Char} (h : '?' ∉ cs) : (Tail.ofChars cs).query = none := by
  refine tail?_cut_eq_none_iff.2 fun c hc => beq_eq_false_iff_ne.2 ?_
  rintro rfl
  exact h ((List.takeWhile_sublist _).mem hc)

/-- A text without a question mark is read as an address without a query. -/
theorem query_eq_none_of_read {s : String} {url : Url} (h : read s = some (.address url))
    (hmark : '?' ∉ s.toList) : url.query = none := by
  obtain ⟨front, cs, web, hclean, -, -, hread⟩ := exists_readAuthority_of_read h
  have hcs : '?' ∉ cs := fun hc => hmark (mem_of_mem_cleaned (by
    rw [hclean]
    exact List.mem_append_right _ hc))
  rw [(readAuthority_eq_some hread).2.2, query_ofChars]
  · rfl
  · exact fun hc => hcs ((List.dropWhile_sublist _).mem hc)

/-- Path and fragment of an address whose host has been read. -/
theorem readAuthority_rest {scheme : String} {web : Bool} {cs : List Char} {url : Url}
    (h : readAuthority scheme web cs = some url) :
    url.segments = readSegments web (Tail.ofChars (cut (endsAuthority web) cs).2).path ∧
      url.fragment = (Tail.ofChars (cut (endsAuthority web) cs).2).fragment.map
        (coded keptInFragment) := by
  simp only [readAuthority, Option.bind_eq_bind, Option.bind_eq_some_iff] at h
  obtain ⟨host, -, port, -, h⟩ := h
  split at h
  · cases h
  · cases h
    exact ⟨rfl, rfl⟩

/-- An address without query and fragment was read from a text without a question mark. -/
theorem question_not_mem_of_read {s : String} {url : Url} (h : read s = some (.address url))
    (hquery : url.query = none) (hfragment : url.fragment = none) : '?' ∉ s.toList := by
  obtain ⟨front, cs, web, hclean, hfront, -, hread⟩ := exists_readAuthority_of_read h
  rw [(readAuthority_eq_some hread).2.2, Option.map_eq_none_iff] at hquery
  rw [(readAuthority_rest hread).2, Option.map_eq_none_iff] at hfragment
  intro hmem
  have hmark := mem_cleaned hmem (by decide)
  rw [hclean] at hmark
  have hcs := (List.mem_append.1 hmark).resolve_left hfront
  -- A question mark ends the part with the host, so it stands after it.
  have hrest : '?' ∈ (cut (endsAuthority web) cs).2 := by
    have hsplit : cs = (cut (endsAuthority web) cs).1 ++ (cut (endsAuthority web) cs).2 :=
      List.takeWhile_append_dropWhile.symm
    rw [hsplit] at hcs
    refine (List.mem_append.1 hcs).resolve_left fun hc => ?_
    have := List.mem_takeWhile_imp hc
    simp [endsAuthority] at this
  have hkept : '?' ∈ (cut (· == '#') (cut (endsAuthority web) cs).2).1 := by
    rw [cut_of_forall (tail?_cut_eq_none_iff.1 hfragment)]
    exact hrest
  exact absurd (tail?_cut_eq_none_iff.1 hquery '?' hkept) (by decide)

/-! ## The path -/

/-- A question mark is in no segment with codes. -/
theorem question_not_mem_coded (cs : List Char) : '?' ∉ (coded keptInPath cs).toList := by
  have hbyte : ∀ b, (Percent.encodeByte keptInPath b).all (· != '?') = true :=
    Percent.forall_byte (by decide +kernel)
  rw [coded, String.toList_ofList]
  intro hc
  obtain ⟨b, -, hb⟩ := List.mem_flatMap.1 hc
  exact absurd (List.all_eq_true.1 (hbyte b) _ hb) (by decide)

/-- What holds of the segments before, of the empty one and of every one with codes, holds of all
segments when they are resolved. -/
theorem forall_mem_resolveSegments {p : String → Prop} (hempty : p "")
    (hcoded : ∀ segment, p (coded keptInPath segment)) (segments : List (List Char))
    (above : List String) (habove : ∀ s ∈ above, p s) :
    ∀ s ∈ resolveSegments segments above, p s := by
  induction segments generalizing above with
  | nil => simpa [resolveSegments] using habove
  | cons segment rest ih =>
    have htail : ∀ s ∈ above.tail, p s := fun s hs => habove s (List.mem_of_mem_tail hs)
    rw [resolveSegments]
    split
    · split
      · simpa [or_imp, forall_and] using ⟨htail, hempty⟩
      · exact ih _ htail
    · split
      · split
        · simpa [or_imp, forall_and] using ⟨habove, hempty⟩
        · exact ih _ habove
      · exact ih _ (List.forall_mem_cons.2 ⟨hcoded segment, habove⟩)

/-- No question mark is in a segment of an address that was read. -/
theorem question_not_mem_segments {s : String} {url : Url} (h : read s = some (.address url)) :
    ∀ segment ∈ url.segments, '?' ∉ segment.toList := by
  obtain ⟨front, cs, web, -, -, -, hread⟩ := exists_readAuthority_of_read h
  rw [(readAuthority_rest hread).1]
  unfold readSegments
  split
  · cases web <;> simp
  · exact forall_mem_resolveSegments (by decide) question_not_mem_coded _ _ nofun

/-! ## What a server is asked for -/

/-- The query of what a server is asked for: all after the first question mark, if there is one. -/
def targetQuery? (target : String) : Option String :=
  (cut (· == '?') target.toList).2.tail?.map String.ofList

/-- The path that a server is asked for. -/
def targetPath (url : Url) : String :=
  if url.segments.isEmpty then "/" else url.path

theorem question_not_mem_targetPath {url : Url}
    (h : ∀ segment ∈ url.segments, '?' ∉ segment.toList) : '?' ∉ (targetPath url).toList := by
  unfold targetPath
  split
  · decide
  · rw [path, String.toList_ofList]
    intro hc
    obtain ⟨segment, hsegment, hc⟩ := List.mem_flatMap.1 hc
    exact h segment hsegment ((List.mem_cons.1 hc).resolve_left (by decide))

/-- What a server is asked for has a query exactly when there are pairs, and it is read as just
these. -/
structure HasPairs (target : String) (pairs : List (String × String)) : Prop where
  mark_iff : '?' ∈ target.toList ↔ pairs ≠ []
  decodePairs_eq : Form.decodePairs (Utf8.encode ((targetQuery? target).getD "")) = pairs

/-- To an address without a query that was read, pairs are added as a query of their own. -/
theorem hasPairs_addQuery {s : String} {url : Url} (h : read s = some (.address url))
    (hquery : url.query = none) (pairs : List (String × String)) :
    HasPairs (url.addQuery pairs).target pairs := by
  have hpath := question_not_mem_targetPath (question_not_mem_segments h)
  have hplain : ∀ c ∈ (targetPath url).toList, (c == '?') = false := by
    intro c hc
    rw [beq_eq_false_iff_ne]
    rintro rfl
    exact hpath hc
  cases pairs with
  | nil =>
    have htarget : (url.addQuery []).target = targetPath url := by
      rw [addQuery, target, hquery, targetPath]
      exact String.append_empty
    rw [htarget]
    refine ⟨iff_of_false hpath (by simp), ?_⟩
    rw [targetQuery?, tail?_cut_eq_none_iff.2 hplain]
    rfl
  | cons pair pairs =>
    have htarget : (url.addQuery (pair :: pairs)).target.toList =
        (targetPath url).toList ++ '?' :: Form.encodePairs (pair :: pairs) := by
      simp [addQuery, target, hquery, targetPath, marked, path]
    have hcut : (cut (· == '?') ((targetPath url).toList ++
        '?' :: Form.encodePairs (pair :: pairs))).2 = '?' :: Form.encodePairs (pair :: pairs) := by
      rw [cut_append_cons _ _ (by decide), cut_of_forall hplain]
      rfl
    refine ⟨iff_of_true (by simp [htarget]) (List.cons_ne_nil _ _), ?_⟩
    rw [targetQuery?, htarget, hcut]
    exact Form.decodePairs_encodePairs _

end FinanceGateway.Url
