import FinanceGateway.Dispatch.Client
import FinanceGateway.Proofs.Url.Below

/-!
# Addresses that go on

A text that is read as an address of the web is still read as one when a path follows it: whatever
state the reader is in at the end of the text, the slash that comes next ends the part with the host
or belongs to what follows it. Only a blank or control at the end of the text matters, since alone
it is dropped there. The slashes at the end of the text may be missing when the path follows
(`exists_read_append`), so the base of a client goes on like the text it was made of
(`exists_read_trimBase_append`).
-/

namespace FinanceGateway.Url

/-- What is left of a text that another one follows: nothing is dropped at its end. -/
def leading (s : String) : List Char :=
  (s.toList.dropWhile isEdge).filter isKept

/-- What is left of a text and a path after it. -/
theorem cleaned_append_path (base : String) {path : String} {more : List Char}
    (hpath : path.toList = '/' :: more) :
    cleaned (base ++ path) = leading base ++ '/' :: (dropEnd isEdge more).filter isKept := by
  have hslash : isEdge '/' = false := by decide
  have hstart : (base ++ path).toList.dropWhile isEdge =
      base.toList.dropWhile isEdge ++ '/' :: more := by
    rw [String.toList_append, hpath, dropWhile_append_cons _ _ hslash]
  rw [cleaned_eq, hstart, dropEnd_append_cons _ _ hslash, List.filter_append,
    List.filter_cons_of_pos (by decide), leading]

/-- Without a blank or control at its end, a text is left as when another one follows. -/
theorem cleaned_eq_leading {s : String} (h : ∀ c ∈ s.toList.getLast?, isEdge c = false) :
    cleaned s = leading s := by
  rw [cleaned_eq, leading]
  congr 1
  rcases List.eq_nil_or_concat' s.toList with hnil | ⟨front, last, hlast⟩
  · rw [hnil]
    rfl
  · have hedge : isEdge last = false := h last (by simp [hlast])
    rw [hlast, dropWhile_append_cons _ _ hedge, dropEnd_append_cons _ _ hedge]
    rfl

/-- A text ends without a blank or control if its last character is neither. -/
theorem isEdge_of_getLast? {s : String} {last : Char} (h : s.toList.getLast? = some last)
    (hlast : isEdge last = false) : ∀ c ∈ s.toList.getLast?, isEdge c = false := by
  intro c hc
  obtain rfl : last = c := Option.some.inj (h.symm.trans hc)
  exact hlast

/-- Whether an address is read depends on the part with the host alone. -/
theorem exists_readAuthority {scheme : String} {web : Bool} {cs others : List Char} {home : Url}
    (h : readAuthority scheme web cs = some home)
    (hsame : (cut (endsAuthority web) others).1 = (cut (endsAuthority web) cs).1) :
    ∃ url, readAuthority scheme web others = some url := by
  simp only [readAuthority, Option.bind_eq_bind, Option.bind_eq_some_iff] at h ⊢
  obtain ⟨host, hhost, port, hport, h⟩ := h
  split at h
  · cases h
  · next hne => exact ⟨_, host, by rwa [hsame], port, by rwa [hsame], if_neg (by rwa [hsame])⟩

/-- The part with the host is the same, whatever follows a text after a slash, or with nothing after
it. -/
theorem cut_append_of_slash {cs back : List Char} (hback : ∀ c ∈ back.head?, c = '/') :
    (cut (endsAuthority true) (cs ++ back)).1 = (cut (endsAuthority true) cs).1 := by
  cases back with
  | nil => rw [List.append_nil]
  | cons c back =>
    obtain rfl := hback c rfl
    rw [cut_append_cons _ _ (by decide)]

/-- An address that is read after a scheme is also read when a path follows, with or without the
slashes at its end. -/
theorem exists_readAuthority_append {scheme : String} {front back : List Char} {home : Url}
    (tail : List Char) (hback : ∀ c ∈ back, c = '/')
    (h : readAuthority scheme true ((front ++ back).dropWhile (isSlash true)) = some home) :
    ∃ url, readAuthority scheme true ((front ++ '/' :: tail).dropWhile (isSlash true)) =
      some url := by
  have hplace : front.dropWhile (isSlash true) ≠ [] := by
    intro hnil
    have hall : ∀ c ∈ front ++ back, isSlash true c = true := by
      intro c hc
      rcases List.mem_append.1 hc with hc | hc
      · exact List.dropWhile_eq_nil_iff.1 hnil c hc
      · rw [hback c hc]
        rfl
    rw [List.dropWhile_eq_nil_iff.2 hall, readAuthority_nil] at h
    cases h
  rw [List.dropWhile_append, if_neg (by simpa using hplace)] at h ⊢
  refine exists_readAuthority h ?_
  rw [cut_append_of_slash (by simp), cut_append_of_slash fun c hc => hback c (List.mem_of_head? hc)]

/-! ## Usable bases -/

/-- A base below which calls can be made: by itself an http or https address without a blank or
control at its end, from which slashes at the end may be left out. -/
structure IsUsable (base : String) (home : Url) : Prop where
  http : home.scheme = "http" ∨ home.scheme = "https"
  reads : ∃ text slashes, text.toList = base.toList ++ slashes ∧ (∀ c ∈ slashes, c = '/') ∧
    (∀ c ∈ text.toList.getLast?, isEdge c = false) ∧ read text = some (.address home)

theorem IsUsable.isWebScheme {base : String} {home : Url} (h : IsUsable base home) :
    isWebScheme home.scheme = true := by
  rcases h.http with h | h <;> simp [Url.isWebScheme, h]

/-- An address that can be used is one with the slashes at its end left out, too. -/
theorem isUsable_of_read {text base : String} {home : Url}
    (hread : read text = some (.address home))
    (http : home.scheme = "http" ∨ home.scheme = "https")
    (hend : ∀ c ∈ text.toList.getLast?, isEdge c = false)
    (hbase : base = text ∨ base = trimBase text) : IsUsable base home where
  http := http
  reads := by
    rcases hbase with rfl | rfl
    · exact ⟨base, [], (List.append_nil _).symm, nofun, hend, hread⟩
    · obtain ⟨slashes, hslashes, hall⟩ := dropEnd_append_dropped (· == '/') text.toList
      refine ⟨text, slashes, ?_, fun c hc => beq_iff_eq.1 (hall c hc), hend, hread⟩
      rw [trimBase, String.toList_ofList]
      exact hslashes

/-- What a text and the base that it begins with have in common: they are left with the same
characters when a path follows the base, up to slashes at the end of the text. -/
theorem exists_cleaned_eq_leading {text base : String} {slashes : List Char}
    (htext : text.toList = base.toList ++ slashes) (hslashes : ∀ c ∈ slashes, c = '/')
    (hend : ∀ c ∈ text.toList.getLast?, isEdge c = false) :
    ∃ back, cleaned text = leading base ++ back ∧ ∀ c ∈ back, c = '/' := by
  cases slashes with
  | nil =>
    have hsame : text = base := String.toList_inj.1 (by rw [htext, List.append_nil])
    exact ⟨[], by rw [cleaned_eq_leading hend, hsame, List.append_nil], nofun⟩
  | cons c slashes =>
    obtain rfl := hslashes c (.head _)
    have hsame : text = base ++ String.ofList ('/' :: slashes) :=
      String.toList_inj.1 (by rw [htext, String.toList_append, String.toList_ofList])
    refine ⟨_, by rw [hsame, cleaned_append_path base String.toList_ofList], ?_⟩
    intro c hc
    rcases List.mem_cons.1 hc with rfl | hc
    · rfl
    · obtain ⟨dropped, hdropped, -⟩ := dropEnd_append_dropped isEdge slashes
      have hmem : c ∈ slashes := by
        rw [hdropped]
        exact List.mem_append_left _ (List.mem_filter.1 hc).1
      exact hslashes c (.tail _ hmem)

/-- Below a usable base every path that begins with a slash is read as an address, and of the scheme
of the base. -/
theorem IsUsable.exists_read {base path : String} {home : Url} {more : List Char}
    (h : IsUsable base home) (hpath : path.toList = '/' :: more) :
    ∃ url, read (base ++ path) = some (.address url) ∧ url.scheme = home.scheme := by
  obtain ⟨text, slashes, htext, hslashes, hend, hread⟩ := h.reads
  obtain ⟨back, hclean, hback⟩ := exists_cleaned_eq_leading htext hslashes hend
  obtain ⟨rest, hscheme, hauthority⟩ := (read_eq_address_iff h.isWebScheme).1 hread
  rw [hclean] at hscheme
  have hcolon : ':' ∈ leading base := by
    refine colon_mem_of_splitScheme (fun c hc => ?_) hscheme
    rw [hback c (List.mem_of_head? hc)]
    decide
  rw [splitScheme_append hcolon] at hscheme
  obtain ⟨⟨scheme, front⟩, hfront, heq⟩ := Option.map_eq_some_iff.1 hscheme
  obtain ⟨rfl, rfl⟩ : scheme = home.scheme ∧ front ++ back = rest := by simpa using heq
  obtain ⟨url, hurl⟩ := exists_readAuthority_append ((dropEnd isEdge more).filter isKept) hback
    hauthority
  have hsame := (readAuthority_eq_some hurl).1
  refine ⟨url, (read_eq_address_iff ?_).2 ⟨_, ?_, by rwa [hsame]⟩, hsame⟩
  · rw [hsame]
    exact h.isWebScheme
  · rw [cleaned_append_path base hpath, splitScheme_append hcolon, hfront, hsame]
    rfl

end FinanceGateway.Url
