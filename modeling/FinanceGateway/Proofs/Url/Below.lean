import FinanceGateway.Proofs.Url.Join
import FinanceGateway.Proofs.Url.Segments

/-!
# Paths below a base

A `Base` is a base address that the text of a path can follow: a scheme of the web, a host, maybe a
path of its own, and nothing after it. `Base.read_below` says what is read when segments follow: the
base's own address with its segments carried on, the new ones resolved onto them. A scheme and a
host are a base (`Base.ofHost`), and a base with more segments after it is one (`Base.extend`).
Whatever the path, if it begins with a slash it leads to the login of the address that it follows
(`login_of_address_below`).
-/

namespace FinanceGateway.Url

/-! ## Plain texts -/

/-- Whether a character neither ends the path of an address nor is dropped from it: no mark and no
blank or control. -/
def isPlain (c : Char) : Bool :=
  !(isEdge c || c == '?' || c == '#')

/-- A plain text is read as it is. -/
theorem cleaned_of_plain {s : String} (h : ∀ c ∈ s.toList, isPlain c = true) :
    cleaned s = s.toList := by
  have hedge : ∀ c ∈ s.toList, isEdge c = false := by
    intro c hc
    have := h c hc
    simp only [isPlain, Bool.not_eq_true', Bool.or_eq_false_iff] at this
    exact this.1.1
  have hstart (cs : List Char) (hcs : ∀ c ∈ cs, isEdge c = false) : cs.dropWhile isEdge = cs := by
    cases cs with
    | nil => rfl
    | cons c cs => rw [List.dropWhile_cons_of_neg (by simp [hcs c (.head _)])]
  rw [cleaned_eq, hstart _ hedge, dropEnd, hstart _ (by simpa using hedge), List.reverse_reverse,
    List.filter_eq_self.2]
  intro c hc
  have hkept : ∀ d : Char, isEdge d = true → c ≠ d := by
    rintro d hd rfl
    rw [hedge c hc] at hd
    cases hd
  simp [isKept, hkept '\t' (by decide), hkept '\n' (by decide), hkept '\r' (by decide)]

/-- A part that no character ends is not cut. -/
theorem cut_of_forall {p : Char → Bool} {cs : List Char} (h : ∀ c ∈ cs, p c = false) :
    cut p cs = (cs, []) := by
  have hall : ∀ c ∈ cs, (!p c) = true := fun c hc => by simp [h c hc]
  rw [cut, List.takeWhile_eq_self_iff.2 hall, List.dropWhile_eq_nil_iff.2 hall]

/-- What stands before a cut is not cut again. -/
theorem cut_of_cut (p : Char → Bool) (cs : List Char) :
    cut p (cut p cs).1 = ((cut p cs).1, []) := by
  refine cut_of_forall fun c hc => ?_
  simpa using List.mem_takeWhile_imp hc

/-- A cut is at the latest where a character ends the part. -/
theorem cut_append_cons (p : Char → Bool) (front : List Char) {c : Char} (hc : p c = true)
    (back : List Char) :
    cut p (front ++ c :: back) = ((cut p front).1, (cut p front).2 ++ c :: back) := by
  by_cases h : ∃ d ∈ front, p d = true
  · exact cut_append_of_mem h _
  · have hall : ∀ d ∈ front, p d = false := by simpa using h
    rw [cut_of_forall hall, cut, List.takeWhile_append_of_pos (by simpa using hall),
      List.dropWhile_append_of_pos (by simpa using hall)]
    simp [hc]

/-- What is cut off begins with a character of the kind. -/
theorem head_cut {p : Char → Bool} {cs : List Char} {c : Char}
    (h : (cut p cs).2.head? = some c) : p c = true := by
  have := List.head?_dropWhile_not (fun c => !p c) cs
  rw [show (cs.dropWhile fun c => !p c).head? = some c from h] at this
  simpa using this

/-- A plain text after the host is all path. -/
theorem tail_of_plain {cs : List Char} (h : ∀ c ∈ cs, isPlain c = true) :
    Tail.ofChars cs = ⟨cs, none, none⟩ := by
  have hmark (m : Char) (hm : isPlain m = false) : ∀ c ∈ cs, (c == m) = false := by
    intro c hc
    rw [beq_eq_false_iff_ne]
    rintro rfl
    rw [h c hc] at hm
    cases hm
  rw [Tail.ofChars, cut_of_forall (hmark '#' (by decide))]
  simp only [cut_of_forall (hmark '?' (by decide))]
  rfl

/-- With a plain text after the host, an address is that of the host and the path of that text. -/
theorem readAuthority_append (scheme : String) {place path : List Char}
    (hcut : cut (endsAuthority true) (place ++ path) = (place, path))
    (hplain : ∀ c ∈ path, isPlain c = true) :
    readAuthority scheme true (place ++ path) =
      (readAuthority scheme true place).map fun url =>
        { url with segments := readSegments true path } := by
  have hplace : cut (endsAuthority true) place = (place, []) := by
    simpa [hcut] using cut_of_cut (endsAuthority true) (place ++ path)
  have hnone : Tail.ofChars [] = ⟨[], none, none⟩ := rfl
  simp only [readAuthority, hcut, hplace, tail_of_plain hplain, hnone]
  cases host? true (splitPort false (splitLogin place).2).1 with
  | none => rfl
  | some host =>
    cases readPort scheme (splitPort false (splitLogin place).2).2 with
    | none => rfl
    | some port =>
      simp only [Option.bind_eq_bind, Option.bind_some]
      split <;> rfl

/-- A host is needed. -/
theorem readAuthority_nil (scheme : String) : readAuthority scheme true [] = none := by
  have hhost : host? true [] = none := by decide +kernel
  have hcut : cut (endsAuthority true) [] = ([], []) := rfl
  have hlogin : splitLogin [] = (none, []) := rfl
  simp only [readAuthority, hcut, hlogin, splitPort, hhost]
  rfl

/-! ## Bases -/

/-- A slash for whatever separates segments in an address of the web. -/
def toSlash (c : Char) : Char :=
  if isSlash true c then '/' else c

/-- A base address that paths can follow: an address of the web as plain text, the last segment of
which, if it has one, stands for itself. -/
structure Base where
  text : String
  home : Url
  reads : read text = some (.address home)
  http : home.scheme = "http" ∨ home.scheme = "https"
  plain : ∀ c ∈ text.toList, isPlain c = true
  stays : ∀ last ∈ (splitChars '/' (text.toList.map toSlash)).getLast?, last ≠ [] ∧ Stays last

namespace Base

/-- The segments of the base itself; an address without a path is read with an empty one. -/
def segments (b : Base) : List String :=
  if b.home.segments = [""] then [] else b.home.segments

/-- The address of further segments below the base. -/
def below (b : Base) (segments : List String) : Url :=
  { b.home with segments := b.segments ++ segments }

end Base

/-- What follows the slash at the start of a path is resolved. -/
theorem readSegments_cons {c : Char} (hc : isSlash true c = true) (rest : List Char) :
    readSegments true (c :: rest) =
      resolveSegments (splitChars '/' ((c :: rest).map toSlash)).tail [] := by
  have hslash : toSlash c = '/' := by rw [toSlash, hc]; rfl
  rw [List.map_cons, hslash, splitChars_cons_self]
  rfl

/-- Segments that a plain path is made of: no character in them separates or ends anything. -/
def PlainSegments (segments : List String) : Prop :=
  ∀ s ∈ segments, ∀ c ∈ s.toList, isPlain c = true ∧ isSlash true c = false

instance : DecidablePred PlainSegments :=
  fun segments => decidable_of_iff
    (segments.all fun s => s.toList.all fun c => isPlain c && !isSlash true c)
    (by simp [PlainSegments])

namespace PlainSegments

variable {segments : List String}

theorem slash_not_mem (h : PlainSegments segments) : ∀ s ∈ segments, '/' ∉ s.toList :=
  fun s hs hc => absurd (h s hs _ hc).2 (by decide)

theorem isPlain_of_mem (h : PlainSegments segments) : ∀ c ∈ slashed segments, isPlain c = true := by
  intro c hc
  rcases mem_slashed hc with rfl | ⟨s, hs, hc⟩
  · decide
  · exact (h s hs c hc).1

theorem map_toSlash (h : PlainSegments segments) :
    (slashed segments).map toSlash = slashed segments := by
  conv_rhs => rw [← List.map_id (slashed segments)]
  refine List.map_congr_left fun c hc => ?_
  rcases mem_slashed hc with rfl | ⟨s, hs, hc⟩
  · rfl
  · rw [toSlash, (h s hs c hc).2]
    rfl

end PlainSegments

/-- Segments that follow a path, or no path at all, are resolved onto what the path comes to. -/
theorem readSegments_append {path : List Char}
    (hpath : ∀ c, path.head? = some c → isSlash true c = true)
    (hlast : ∀ last ∈ (splitChars '/' (path.map toSlash)).tail.getLast?, last ≠ [] ∧ Stays last)
    {segments : List String} (h : PlainSegments segments) (hne : segments ≠ []) :
    readSegments true (path ++ slashed segments) =
      resolveSegments (segments.map String.toList)
        (if readSegments true path = [""] then [] else readSegments true path).reverse := by
  have hpieces : segments.map String.toList ≠ [] := by simpa using hne
  have hsplit : splitChars '/' ((path ++ slashed segments).map toSlash) =
      splitChars '/' (path.map toSlash) ++ segments.map String.toList := by
    rw [List.map_append, h.map_toSlash, splitChars_append_slashed _ h.slash_not_mem]
  have hjoined : readSegments true (path ++ slashed segments) =
      resolveSegments (segments.map String.toList)
        ((splitChars '/' (path.map toSlash)).tail.foldl settle []) := by
    obtain ⟨c, rest, hcons, hc⟩ : ∃ c rest, path ++ slashed segments = c :: rest ∧
        isSlash true c = true := by
      cases path with
      | nil =>
        obtain ⟨s, segments, rfl⟩ := List.exists_cons_of_ne_nil hne
        exact ⟨'/', _, slashed_cons s segments, by decide⟩
      | cons c path => exact ⟨c, _, rfl, hpath c rfl⟩
    rw [hcons, readSegments_cons hc, ← hcons, hsplit,
      List.tail_append_of_ne_nil (splitChars_ne_nil _ _), resolveSegments_append _ hpieces]
  rw [hjoined]
  congr 1
  cases path with
  | nil => rfl
  | cons c path =>
    have hpieces' : (splitChars '/' ((c :: path).map toSlash)).tail ≠ [] := by
      rw [List.map_cons, toSlash, hpath c rfl, if_pos rfl, splitChars_cons_self]
      exact splitChars_ne_nil _ _
    rw [readSegments_cons (hpath c rfl), if_neg (resolveSegments_ne_empty hpieces' hlast _),
      resolveSegments_of_stays fun last hmem => (hlast last hmem).2, List.reverse_reverse]

namespace Base

theorem isWebScheme (b : Base) : isWebScheme b.home.scheme = true := by
  rcases b.http with h | h <;> simp [Url.isWebScheme, h]

/-- The text of a base is a scheme, a host and a path, and its address is read off them. -/
theorem exists_parts (b : Base) : ∃ (rest place path : List Char) (found : Url),
    splitScheme b.text.toList = some (b.home.scheme, rest) ∧ ':' ∈ b.text.toList ∧
    rest.dropWhile (isSlash true) = place ++ path ∧
    cut (endsAuthority true) (place ++ path) = (place, path) ∧
    readAuthority b.home.scheme true place = some found ∧ found.query = none ∧
    { found with segments := readSegments true path } = b.home ∧
    path <:+ b.text.toList := by
  obtain ⟨rest, hscheme, hhome⟩ := (read_eq_address_iff b.isWebScheme).1 b.reads
  rw [cleaned_of_plain b.plain] at hscheme
  obtain ⟨name, htext, -⟩ := splitScheme_eq_some hscheme
  have hparts : rest.dropWhile (isSlash true) =
      (cut (endsAuthority true) (rest.dropWhile (isSlash true))).1 ++
        (cut (endsAuthority true) (rest.dropWhile (isSlash true))).2 :=
    List.takeWhile_append_dropWhile.symm
  have hsuffix : (cut (endsAuthority true) (rest.dropWhile (isSlash true))).2 <:+
      b.text.toList := by
    rw [htext]
    exact ((List.dropWhile_suffix _).trans (List.dropWhile_suffix _)).trans
      ((List.suffix_cons _ _).trans (List.suffix_append _ _))
  rw [hparts, readAuthority_append _ (by rw [← hparts])
    fun c hc => b.plain c (hsuffix.mem hc)] at hhome
  obtain ⟨found, hfound, hhome⟩ := Option.map_eq_some_iff.1 hhome
  have hquery := (readAuthority_eq_some hfound).2.2
  rw [cut_of_cut] at hquery
  exact ⟨rest, _, _, found, hscheme, by simp [htext], hparts, by rw [← hparts], hfound, hquery,
    hhome, hsuffix⟩

/-- The last segment of the path of a base stands for itself. -/
theorem stays_of_path (b : Base) {path : List Char} (hsuffix : path <:+ b.text.toList)
    (hpath : ∀ c, path.head? = some c → isSlash true c = true) :
    ∀ last ∈ (splitChars '/' (path.map toSlash)).tail.getLast?, last ≠ [] ∧ Stays last := by
  cases path with
  | nil => simp [splitChars]
  | cons c path =>
    have hslash : toSlash c = '/' := by rw [toSlash, hpath c rfl]; rfl
    obtain ⟨front, htext⟩ := hsuffix
    have hstays := b.stays
    rw [← htext, List.map_append, List.map_cons, hslash, splitChars_append_cons,
      List.getLast?_append_of_ne_nil _ (splitChars_ne_nil _ _)] at hstays
    rwa [List.map_cons, hslash, splitChars_cons_self, List.tail_cons]

/-- Segments that follow a base are resolved onto its own; all else is as in the base. -/
theorem read_below (b : Base) {segments : List String} (h : PlainSegments segments)
    (hne : segments ≠ []) :
    read (b.text ++ String.ofList (slashed segments)) = some (.address
      { b.home with
        segments := resolveSegments (segments.map String.toList) b.segments.reverse }) := by
  obtain ⟨rest, place, path, found, hscheme, hcolon, hrest, hcut, hfound, -, hhome, hsuffix⟩ :=
    b.exists_parts
  have hplain : ∀ c ∈ path, isPlain c = true := fun c hc => b.plain c (hsuffix.mem hc)
  have hhead : ∀ c, path.head? = some c → isSlash true c = true := by
    intro c hc
    have hend : endsAuthority true c = true :=
      head_cut (show (cut _ (place ++ path)).2.head? = some c by rwa [hcut])
    have := hplain c (List.mem_of_head? hc)
    simp only [endsAuthority, Bool.or_eq_true] at hend
    rcases hend with (hend | hend) | hend
    · exact hend
    · simp [isPlain, hend] at this
    · simp [isPlain, hend] at this
  have hplace : place ≠ [] := by
    rintro rfl
    rw [readAuthority_nil] at hfound
    cases hfound
  refine (read_eq_address_iff ?_).2 ⟨rest ++ slashed segments, ?_, ?_⟩
  · exact b.isWebScheme
  · rw [cleaned_of_plain, String.toList_append, String.toList_ofList, splitScheme_append hcolon,
      hscheme]
    · rfl
    · intro c hc
      rw [String.toList_append, String.toList_ofList, List.mem_append] at hc
      exact hc.elim (b.plain c) (h.isPlain_of_mem c)
  · obtain ⟨s, segments', rfl⟩ := List.exists_cons_of_ne_nil hne
    have hdrop : (rest ++ slashed (s :: segments')).dropWhile (isSlash true) =
        place ++ (path ++ slashed (s :: segments')) := by
      rw [List.dropWhile_append, hrest, if_neg (by simp [hplace]), List.append_assoc]
    have hcut' : cut (endsAuthority true) (place ++ (path ++ slashed (s :: segments'))) =
        (place, path ++ slashed (s :: segments')) := by
      rw [← List.append_assoc, slashed_cons, cut_append_cons _ _ (by decide), hcut]
    have hplain' : ∀ c ∈ path ++ slashed (s :: segments'), isPlain c = true :=
      fun c hc => (List.mem_append.1 hc).elim (hplain c) (h.isPlain_of_mem c)
    rw [hdrop, readAuthority_append _ hcut' hplain', hfound, Option.map_some,
      readSegments_append hhead (b.stays_of_path hsuffix hhead) h hne, segments, ← hhome]

/-- What a server is asked for below a base is the path alone. -/
theorem target_below (b : Base) {segments : List String} (hne : segments ≠ []) :
    (b.below segments).target = (b.below segments).path := by
  obtain ⟨_, _, _, found, -, -, -, -, -, hquery, hhome, -⟩ := b.exists_parts
  have hhome_query : b.home.query = none := by
    rw [← hhome]
    exact hquery
  have hsegments : (b.segments ++ segments).isEmpty = false := by simp [hne]
  rw [target, below, hsegments, hhome_query]
  simp [marked]

/-! ## Bases from their parts -/

section
variable {scheme place : String} {home : Url}

/-- A plain text after a scheme and two slashes is plain. -/
theorem isPlain_of_host (http : scheme = "http" ∨ scheme = "https")
    (plain : PlainSegments [place]) :
    ∀ c ∈ (scheme ++ "://" ++ place).toList, isPlain c = true := by
  intro c hc
  rw [String.toList_append, List.mem_append] at hc
  rcases hc with hc | hc
  · have hfront : (scheme ++ "://").toList.all isPlain = true := by
      rcases http with rfl | rfl <;> decide +kernel
    exact List.all_eq_true.1 hfront c hc
  · exact (plain place (.head _) c hc).1

/-- A host after a scheme and two slashes is read as the host of the address. -/
theorem read_host (http : scheme = "http" ∨ scheme = "https")
    (plain : PlainSegments [place]) (host : readAuthority scheme true place.toList = some home) :
    read (scheme ++ "://" ++ place) = some (.address home) := by
  have hweb : Url.isWebScheme scheme = true := by
    rcases http with rfl | rfl <;> rfl
  have hfront : splitScheme (scheme ++ "://").toList = some (scheme, ['/', '/']) ∧
      ':' ∈ (scheme ++ "://").toList := by
    rcases http with rfl | rfl <;> decide
  have hdrop : (['/', '/'] ++ place.toList).dropWhile (isSlash true) = place.toList := by
    have hslash : isSlash true '/' = true := rfl
    rw [List.dropWhile_append_of_pos (by simp [hslash])]
    cases hplace : place.toList with
    | nil => rfl
    | cons c cs =>
      have hc := (plain place (.head _) c (by simp [hplace])).2
      rw [List.dropWhile_cons_of_neg (by simp [hc])]
  obtain ⟨rfl, -⟩ := readAuthority_eq_some host
  refine (read_eq_address_iff hweb).2 ⟨['/', '/'] ++ place.toList, ?_, by rw [hdrop, host]⟩
  rw [cleaned_of_plain (isPlain_of_host http plain), String.toList_append,
    splitScheme_append hfront.2, hfront.1]
  rfl

/-- A scheme and a host are a base. -/
def ofHost (scheme place : String) (home : Url) (http : scheme = "http" ∨ scheme = "https")
    (plain : PlainSegments [place]) (stays : Stays place.toList)
    (host : readAuthority scheme true place.toList = some home) : Base where
  text := scheme ++ "://" ++ place
  home := home
  reads := read_host http plain host
  http := by
    rw [(readAuthority_eq_some host).1]
    exact http
  plain := isPlain_of_host http plain
  stays := by
    have hne : place.toList ≠ [] := by
      intro hnil
      rw [hnil, readAuthority_nil] at host
      cases host
    have htext : (scheme ++ "://" ++ place).toList =
        (scheme ++ ":/").toList ++ slashed [place] := by
      simp [slashed]
    rw [htext, List.map_append, plain.map_toSlash, splitChars_append_slashed _ plain.slash_not_mem,
      List.getLast?_append_of_ne_nil _ (by simp)]
    intro last hlast
    obtain rfl : place.toList = last := by simpa using hlast
    exact ⟨hne, stays⟩

end

/-- A base with more segments after it is a base. -/
def extend (b : Base) (segments : List String) (plain : PlainSegments segments)
    (ne : segments ≠ []) (stays : ∀ last ∈ segments.getLast?, last ≠ "" ∧ Stays last.toList) :
    Base where
  text := b.text ++ String.ofList (slashed segments)
  home := { b.home with
    segments := resolveSegments (segments.map String.toList) b.segments.reverse }
  reads := b.read_below plain ne
  http := b.http
  plain := by
    intro c hc
    rw [String.toList_append, String.toList_ofList, List.mem_append] at hc
    exact hc.elim (b.plain c) (plain.isPlain_of_mem c)
  stays := by
    have hne : segments.map String.toList ≠ [] := by simpa using ne
    rw [String.toList_append, String.toList_ofList, List.map_append, plain.map_toSlash,
      splitChars_append_slashed _ plain.slash_not_mem, List.getLast?_append_of_ne_nil _ hne,
      List.getLast?_map]
    intro last hlast
    obtain ⟨s, hs, rfl⟩ := Option.map_eq_some_iff.1 hlast
    simpa using stays s hs

end Base

/-! ## The login of a base -/

/-- What follows a login names no other user. -/
theorem splitLogin_append {cs more : List Char} (h : '@' ∉ more) :
    (splitLogin (cs ++ more)).1 = (splitLogin cs).1 := by
  by_cases hat : '@' ∈ cs
  · have hkept : ∀ c ∈ more.reverse, (c != '@') = true := fun c hc => by
      rw [bne_iff_ne]
      rintro rfl
      exact h (List.mem_reverse.1 hc)
    have hback : ((cs.reverse.takeWhile (· != '@')).reverse).length < cs.length := by
      have hsplit := congrArg List.length
        (List.takeWhile_append_dropWhile (p := (· != '@')) (l := cs.reverse))
      have hne : cs.reverse.dropWhile (· != '@') ≠ [] := fun hnil => by
        simpa using List.dropWhile_eq_nil_iff.1 hnil '@' (List.mem_reverse.2 hat)
      have hpos := List.length_pos_of_ne_nil hne
      rw [List.length_append, List.length_reverse] at hsplit
      rw [List.length_reverse]
      omega
    have hcontains : (cs ++ more).contains '@' = true := by simp [hat]
    simp only [splitLogin, hcontains, List.contains_iff_mem.2 hat, if_true, List.reverse_append,
      List.takeWhile_append_of_pos hkept, List.reverse_reverse, List.length_append,
      Option.some.injEq]
    rw [List.take_append_of_le_length (by omega)]
    congr 1
    omega
  · rw [splitLogin_of_not_mem hat, splitLogin_of_not_mem (by simp [hat, h])]

/-- Below an address, a path that begins with a slash leads to no other login than that of the
address. -/
theorem login_of_address_below {base path : String} {more : List Char} {home url : Url}
    (hhome : read base = some (.address home)) (hpath : path.toList = '/' :: more)
    (h : Call.address base path = .ok url) (hweb : isWebScheme url.scheme = true) :
    url.login = home.login := by
  obtain ⟨front, junk, tail, hfront, hjunk, -, hauthority⟩ :=
    readAuthority_of_address hpath h hweb
  have hread : readAuthority url.scheme true (front.dropWhile (isSlash true)) = some home := by
    simp only [read, hfront, Option.bind_eq_bind, Option.bind_some, hweb, if_true] at hhome
    obtain ⟨home', hread, heq⟩ := Option.map_eq_some_iff.1 hhome
    cases heq
    exact hread
  have hplace : front.dropWhile (isSlash true) ≠ [] := by
    intro hnil
    rw [hnil, readAuthority_nil] at hread
    cases hread
  have hat : '@' ∉ junk := fun hc => absurd (hjunk _ hc) (by decide)
  rw [(readAuthority_eq_some hauthority).2.1, (readAuthority_eq_some hread).2.1,
    List.dropWhile_append, if_neg (by simpa using hplace)]
  -- The part with the host is that of the base, carried on at most into what follows the base.
  by_cases hcut : ∃ c ∈ front.dropWhile (isSlash true), endsAuthority true c = true
  · rw [cut_append_of_mem hcut]
  · have hall : ∀ c ∈ front.dropWhile (isSlash true), endsAuthority true c = false := by
      simpa using hcut
    have hedge : ∀ c ∈ junk, endsAuthority true c = false := fun c hc => by
      have hne (d : Char) (hd : isEdge d = false) : c ≠ d := by
        rintro rfl
        cases hd.symm.trans (hjunk c hc)
      simp [endsAuthority, isSlash, hne '/' (by decide), hne '\\' (by decide),
        hne '?' (by decide), hne '#' (by decide)]
    rw [← List.append_assoc, cut_append_cons _ _ (by decide), cut_of_forall hall,
      cut_of_forall fun c hc => (List.mem_append.1 hc).elim (hall c) (hedge c),
      splitLogin_append hat]

end FinanceGateway.Url
