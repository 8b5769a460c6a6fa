import FinanceGateway.Dispatch.Execute
import Mathlib

/-!
# Addresses below a base

A base address and a path are joined as texts and read as one address. The path begins with a slash,
so what is read is the base's own reading carried on: `cleaned_append` says what becomes of the
characters, `splitScheme_append` that the scheme is the base's. `hasUserInfo` says whether a base
names a user; below a base that names none, no address of the web carries a login
(`login_eq_none_of_address`).
-/

namespace FinanceGateway.Url

/-! ## What is left of the characters -/

/-- Whether a character is dropped at the ends of an address. -/
def isEdge (c : Char) : Bool := c.toNat ≤ 0x20

/-- Whether a character stays in an address wherever it stands. -/
def isKept (c : Char) : Bool := !(c == '\t' || c == '\n' || c == '\r')

/-- The characters without those of a kind at the end. -/
def dropEnd (p : Char → Bool) (cs : List Char) : List Char :=
  (cs.reverse.dropWhile p).reverse

theorem cleaned_eq (s : String) :
    cleaned s = (dropEnd isEdge (s.toList.dropWhile isEdge)).filter isKept := rfl

/-- What is dropped at the end is of the kind. -/
theorem dropEnd_append_dropped (p : Char → Bool) (cs : List Char) :
    ∃ dropped, cs = dropEnd p cs ++ dropped ∧ ∀ c ∈ dropped, p c = true := by
  refine ⟨(cs.reverse.takeWhile p).reverse, ?_, ?_⟩
  · rw [dropEnd, ← List.reverse_append, List.takeWhile_append_dropWhile, List.reverse_reverse]
  · intro c hc
    exact List.mem_takeWhile_imp (List.mem_reverse.1 hc)

/-- Nothing is dropped from a character on that is not of the kind. -/
theorem dropWhile_append_cons (p : Char → Bool) (front : List Char) {c : Char} (hc : p c = false)
    (back : List Char) : (front ++ c :: back).dropWhile p = front.dropWhile p ++ c :: back := by
  rw [List.dropWhile_append]
  split
  · next h => simp [List.isEmpty_iff.1 h, hc]
  · rfl

/-- Nothing is dropped at the end before a character that is not of the kind. -/
theorem dropEnd_append_cons (p : Char → Bool) (front : List Char) {c : Char} (hc : p c = false)
    (back : List Char) : dropEnd p (front ++ c :: back) = front ++ c :: dropEnd p back := by
  have hrev : (front ++ c :: back).reverse = back.reverse ++ c :: front.reverse := by simp
  rw [dropEnd, hrev, dropWhile_append_cons p _ hc]
  simp [dropEnd]

/-- A base and a path that begins with a slash, joined: first what is left of the base alone, then
what only stood at its end, then the path. -/
theorem cleaned_append (base : String) {path : String} {more : List Char}
    (hpath : path.toList = '/' :: more) :
    ∃ junk tail, cleaned (base ++ path) = cleaned base ++ junk ++ '/' :: tail ∧
      (∀ c ∈ junk, isEdge c = true) ∧ ∀ c ∈ tail, c ∈ path.toList := by
  have hslash : isEdge '/' = false := by decide
  have hstart : (base ++ path).toList.dropWhile isEdge =
      base.toList.dropWhile isEdge ++ '/' :: more := by
    rw [String.toList_append, hpath, dropWhile_append_cons _ _ hslash]
  obtain ⟨dropped, hdropped, hedge⟩ :=
    dropEnd_append_dropped isEdge (base.toList.dropWhile isEdge)
  refine ⟨dropped.filter isKept, (dropEnd isEdge more).filter isKept, ?_, ?_, ?_⟩
  · rw [cleaned_eq, hstart, dropEnd_append_cons _ _ hslash, List.filter_append,
      List.filter_cons_of_pos (by decide), cleaned_eq, ← List.filter_append, ← hdropped]
  · intro c hc
    exact hedge c ((List.mem_filter.1 hc).1)
  · intro c hc
    obtain ⟨rest, hrest, -⟩ := dropEnd_append_dropped isEdge more
    rw [hpath, hrest]
    exact .tail _ (List.mem_append_left _ ((List.mem_filter.1 hc).1))

/-! ## The scheme -/

/-- What stands before a cut of two parts stands before the cut of the first, or in the second. -/
theorem mem_cut_append {p : Char → Bool} {front back : List Char} {c : Char}
    (h : c ∈ (cut p (front ++ back)).1) : c ∈ (cut p front).1 ∨ c ∈ back := by
  simp only [cut] at h ⊢
  induction front with
  | nil => exact .inr ((List.takeWhile_sublist _).mem h)
  | cons d front ih =>
    rw [List.cons_append, List.takeWhile_cons] at h
    split at h
    · next hd =>
      rw [List.takeWhile_cons, if_pos hd]
      rcases List.mem_cons.1 h with rfl | h
      · exact .inl (.head _)
      · exact (ih h).imp_left (.tail _)
    · cases h

/-- A cut within the first of two parts leaves the second with what is cut off. -/
theorem cut_append_of_mem {p : Char → Bool} {front : List Char} (h : ∃ c ∈ front, p c = true)
    (back : List Char) : cut p (front ++ back) = ((cut p front).1, (cut p front).2 ++ back) := by
  obtain ⟨c, hc, hp⟩ := h
  have hne : (front.dropWhile fun c => !p c).isEmpty = false := by
    rw [Bool.eq_false_iff]
    intro hall
    have := List.dropWhile_eq_nil_iff.1 (List.isEmpty_iff.1 hall) c hc
    simp [hp] at this
  have hlen : (front.takeWhile fun c => !p c).length ≠ front.length := by
    intro heq
    have hsum := congrArg List.length
      (List.takeWhile_append_dropWhile (p := fun c => !p c) (l := front))
    rw [List.length_append, heq] at hsum
    rw [List.isEmpty_eq_false_iff] at hne
    exact hne (List.eq_nil_of_length_eq_zero (by omega))
  rw [cut, cut, List.takeWhile_append, if_neg hlen, List.dropWhile_append, hne]
  rfl

/-- A text with a colon in front has its scheme there. -/
theorem splitScheme_append {front : List Char} (h : ':' ∈ front) (back : List Char) :
    splitScheme (front ++ back) =
      (splitScheme front).map fun found => (found.1, found.2 ++ back) := by
  have hcut := cut_append_of_mem (p := (· == ':')) ⟨':', h, rfl⟩ back
  rw [splitScheme, splitScheme, hcut]
  rcases hfront : cut (· == ':') front with ⟨name, rest⟩
  have hrest : rest ≠ [] := by
    rintro rfl
    have hall : front.dropWhile (fun c => !(c == ':')) = [] := congrArg Prod.snd hfront
    have := List.dropWhile_eq_nil_iff.1 hall ':' h
    simp at this
  cases name with
  | nil => rfl
  | cons first more =>
    cases rest with
    | nil => exact absurd rfl hrest
    | cons colon after =>
      simp only [List.cons_append]
      split <;> rfl

/-- Whether a character may stand in a scheme. -/
def isSchemeChar (c : Char) : Bool :=
  c.isAlphanum || c == '+' || c == '-' || c == '.'

/-- What is read as a scheme stands before the first colon. -/
theorem splitScheme_eq_some {cs : List Char} {scheme : String} {rest : List Char}
    (h : splitScheme cs = some (scheme, rest)) :
    ∃ name, cs = name ++ ':' :: rest ∧ ∀ c ∈ name, isSchemeChar c = true := by
  have hsplit := List.takeWhile_append_dropWhile (p := fun c => !(c == ':')) (l := cs)
  simp only [splitScheme, cut] at h
  split at h
  · next first more colon after hname hrest =>
    split at h
    · next hchars =>
      cases h
      have hcolon := List.head_dropWhile_not (fun c => !(c == ':'))
        (show cs.dropWhile (fun c => !(c == ':')) ≠ [] by rw [hrest]; simp)
      simp only [hrest, List.head_cons, Bool.not_eq_false', beq_iff_eq] at hcolon
      refine ⟨first :: more, by rw [← hsplit, hname, hrest, hcolon], ?_⟩
      simp only [Bool.and_eq_true, List.all_eq_true] at hchars
      intro c hc
      rcases List.mem_cons.1 hc with rfl | hc
      · simp [isSchemeChar, Char.isAlphanum, hchars.1]
      · exact hchars.2 c hc
    · cases h
  · cases h

/-- A text that goes on with what stands in no scheme has its colon in front. -/
theorem colon_mem_of_splitScheme {front back : List Char} {found : String × List Char}
    (hback : ∀ c, back.head? = some c → c ≠ ':' ∧ isSchemeChar c = false)
    (h : splitScheme (front ++ back) = some found) : ':' ∈ front := by
  obtain ⟨name, heq, hname⟩ := splitScheme_eq_some h
  rcases List.append_eq_append_iff.1 heq with ⟨more, rfl, hmore⟩ | ⟨more, rfl, hmore⟩
  · cases more with
    | nil => exact absurd rfl (hback ':' (by rw [hmore]; rfl)).1
    | cons c more =>
      have := (hback c (by rw [hmore]; rfl)).2
      rw [hname c (by simp)] at this
      cases this
  · cases more with
    | nil => exact absurd rfl (hback ':' (by rw [← List.nil_append back, ← hmore]; rfl)).1
    | cons c more =>
      rw [List.cons_append, List.cons.injEq] at hmore
      simp [← hmore.1]

/-! ## The login -/

/-- The part of a text that names the host, and the user if one is named. -/
def authority? (s : String) : Option (List Char) :=
  (splitScheme (cleaned s)).map fun (scheme, rest) =>
    let web := isWebScheme scheme
    (cut (endsAuthority web) (rest.dropWhile (isSlash web))).1

/-- Whether a base address names a user. -/
def hasUserInfo (base : String) : Bool :=
  (authority? base).any (·.contains '@')

/-- What stands at the junction of a base and a path belongs to no scheme. -/
theorem junction_head {junk tail : List Char} (hjunk : ∀ c ∈ junk, isEdge c = true) :
    ∀ c, (junk ++ '/' :: tail).head? = some c → c ≠ ':' ∧ isSchemeChar c = false := by
  intro c hc
  cases junk with
  | nil =>
    cases hc
    decide
  | cons d junk =>
    cases hc
    have hedge := hjunk c (by simp)
    have hle : c.toNat ≤ 32 := by simpa [isEdge] using hedge
    have hne (d : Char) (hd : 32 < d.toNat) : c ≠ d := by
      rintro rfl
      omega
    refine ⟨hne _ (by decide), ?_⟩
    have hedges : ∀ n : Fin 33, (Char.ofNat n).isAlphanum = false := by decide
    have h1 : c.isAlphanum = false := by
      rw [← Char.ofNat_toNat c]
      exact hedges ⟨c.toNat, by omega⟩
    simp [isSchemeChar, h1, hne '+' (by decide), hne '-' (by decide), hne '.' (by decide)]

/-- Scheme, login and query of an address whose host has been read. -/
theorem readAuthority_eq_some {scheme : String} {web : Bool} {cs : List Char} {url : Url}
    (h : readAuthority scheme web cs = some url) :
    url.scheme = scheme ∧
      url.login = (splitLogin (cut (endsAuthority web) cs).1).1.bind login? ∧
      url.query = (Tail.ofChars (cut (endsAuthority web) cs).2).query.map
        (coded (keptInQuery web)) := by
  simp only [readAuthority, Option.bind_eq_bind, Option.bind_eq_some_iff] at h
  obtain ⟨host, -, port, -, h⟩ := h
  split at h
  · cases h
  · cases h
    exact ⟨rfl, rfl, rfl⟩

/-- A part that names no user has no login. -/
theorem splitLogin_of_not_mem {cs : List Char} (h : '@' ∉ cs) : splitLogin cs = (none, cs) := by
  rw [splitLogin, if_neg (by simpa using h)]

/-- An address of the web is read after its scheme and the slashes that follow. -/
theorem read_eq_address_iff {s : String} {url : Url} (hweb : isWebScheme url.scheme = true) :
    read s = some (.address url) ↔
      ∃ rest, splitScheme (cleaned s) = some (url.scheme, rest) ∧
        readAuthority url.scheme true (rest.dropWhile (isSlash true)) = some url := by
  constructor
  · intro h
    simp only [read, Option.bind_eq_bind, Option.bind_eq_some_iff] at h
    obtain ⟨⟨scheme, rest⟩, hscheme, h⟩ := h
    split at h
    · obtain ⟨url', hurl, heq⟩ := Option.map_eq_some_iff.1 h
      cases heq
      obtain ⟨rfl, -⟩ := readAuthority_eq_some hurl
      exact ⟨rest, hscheme, hurl⟩
    · next hplain =>
      exfalso
      simp only at hplain
      split at h
      · split at h
        · cases h
        · obtain ⟨url', hurl, heq⟩ := Option.map_eq_some_iff.1 h
          cases heq
          rw [(readAuthority_eq_some hurl).1] at hweb
          exact hplain hweb
      · cases h
  · rintro ⟨rest, hscheme, hurl⟩
    simp only [read, hscheme, Option.bind_eq_bind, Option.bind_some, hweb, if_true, hurl,
      Option.map_some]

/-- An address of a base and a path is what the joined text is read as. -/
theorem read_of_address {base path : String} {url : Url}
    (h : Call.address base path = .ok url) : read (base ++ path) = some (.address url) := by
  simp only [Call.address] at h
  split at h
  · cases h
    assumption
  · cases h
  · cases h

/-- An address below a base is read from what the base leaves after its scheme, what stood at the
end of the base, and the path. -/
theorem readAuthority_of_address {base path : String} {more : List Char} {url : Url}
    (hpath : path.toList = '/' :: more) (h : Call.address base path = .ok url)
    (hweb : isWebScheme url.scheme = true) :
    ∃ front junk tail, splitScheme (cleaned base) = some (url.scheme, front) ∧
      (∀ c ∈ junk, isEdge c = true) ∧ (∀ c ∈ tail, c ∈ path.toList) ∧
      readAuthority url.scheme true
        ((front ++ (junk ++ '/' :: tail)).dropWhile (isSlash true)) = some url := by
  obtain ⟨rest, hscheme, hauthority⟩ := (read_eq_address_iff hweb).1 (read_of_address h)
  obtain ⟨junk, tail, hclean, hjunk, htail⟩ := cleaned_append base hpath
  rw [hclean, List.append_assoc] at hscheme
  have hcolon := colon_mem_of_splitScheme (junction_head hjunk) hscheme
  rw [splitScheme_append hcolon] at hscheme
  obtain ⟨⟨scheme, front⟩, hfront, heq⟩ := Option.map_eq_some_iff.1 hscheme
  obtain ⟨rfl, rfl⟩ : scheme = url.scheme ∧ front ++ (junk ++ '/' :: tail) = rest := by
    simpa using heq
  exact ⟨front, junk, tail, hfront, hjunk, htail, hauthority⟩

/-- Below a base that names no user, a path without `@` leads to no address with a login. -/
theorem login_eq_none_of_address {base path : String} {more : List Char} {url : Url}
    (hbase : hasUserInfo base = false) (hpath : path.toList = '/' :: more)
    (hat : '@' ∉ path.toList) (h : Call.address base path = .ok url)
    (hweb : isWebScheme url.scheme = true) : url.login = none := by
  obtain ⟨front, junk, tail, hfront, hjunk, htail, hauthority⟩ :=
    readAuthority_of_address hpath h hweb
  have hlogin := (readAuthority_eq_some hauthority).2.1
  have hback : '@' ∉ junk ++ '/' :: tail := by
    intro hc
    rcases List.mem_append.1 hc with hc | hc
    · exact absurd (hjunk _ hc) (by decide)
    · rcases List.mem_cons.1 hc with hc | hc
      · exact absurd hc (by decide)
      · exact hat (htail _ hc)
  have hnone : '@' ∉ (cut (endsAuthority true) (front.dropWhile (isSlash true))).1 := by
    simpa [hasUserInfo, authority?, hfront, hweb] using hbase
  -- The part with the host is that of the base, carried on at most into what follows the base.
  have hplace : '@' ∉ (cut (endsAuthority true)
      ((front ++ (junk ++ '/' :: tail)).dropWhile (isSlash true))).1 := by
    intro hc
    rw [List.dropWhile_append] at hc
    split at hc
    · exact hback ((List.dropWhile_sublist _).mem ((List.takeWhile_sublist _).mem hc))
    · rcases mem_cut_append hc with hc | hc
      · exact hnone hc
      · exact hback hc
  rw [hlogin, splitLogin_of_not_mem hplace]
  rfl

end FinanceGateway.Url
