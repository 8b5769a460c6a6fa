import FinanceGateway.Gate.Session
import FinanceGateway.Proofs.Text.Blank
import FinanceGateway.Proofs.Text.Form
import FinanceGateway.Proofs.Text.Percent

/-!
# The token that a request presents

A token that is put into the session cookie in percent codes is the one presented, whatever else a
request carries, as long as no cookie after it has the same name (`presented_token_round_trips`).
The pair of a name and a token in codes is read as that cookie (`Cookie.parse?_pair`), and of the
cookies of a name the last one counts (`Cookie.value?_append_cons`). Without a token in the cookie,
the first Authorization header decides alone (`presentedToken_of_no_cookie`).
-/

namespace FinanceGateway

open Percent (encodeBytes)

/-! ## Pairs of a name and a text in codes -/

/-- A character between the space and the delete character is not blank. -/
theorem Text.isBlankChar_eq_false {c : Char} (h : 0x21 ≤ c.toNat ∧ c.toNat < 0x7F) :
    isBlankChar c = false := by
  simp only [isBlankChar, Bool.or_eq_false_iff, Bool.and_eq_false_iff, decide_eq_false_iff_not,
    beq_eq_false_iff_ne]
  omega

/-- The bytes of a text with a mark in it: what is before the mark, the mark, and what is after. -/
theorem Utf8.encode_equals (front back : List Char) :
    encode (String.ofList (front ++ '=' :: back)) =
      encode (String.ofList front) ++ 0x3D :: encode (String.ofList back) := by
  simp only [encode_ofList, List.flatMap_append, List.flatMap_cons]
  rfl

namespace Cookie

/-- A name that is not empty, of ASCII letters and digits, `-` and `_`. -/
structure IsPlainName (name : String) : Prop where
  ne_empty : name ≠ ""
  chars : ∀ c ∈ name.toList, c.isAlphanum = true ∨ c = '-' ∨ c = '_'

/-- What a percent encoding leaves as it is: visible ASCII, and not the percent sign. -/
def IsEncoding (keep : UInt8 → Bool) : Prop :=
  ∀ b, keep b = true → 0x21 ≤ b.toNat ∧ b.toNat < 0x7F ∧ b ≠ 0x25

variable {name t : String} {keep : UInt8 → Bool}

/-- An ASCII letter or digit is an ASCII character. -/
theorem lt_of_isAlphanum {c : Char} (h : c.isAlphanum = true) : c.toNat < 128 := by
  have hval : c.val.toNat = c.toNat := rfl
  have hbounds : 'Z'.val.toNat = 90 ∧ 'z'.val.toNat = 122 ∧ '9'.val.toNat = 57 := by decide
  simp only [Char.isAlphanum, Char.isAlpha, Char.isUpper, Char.isLower, Char.isDigit,
    Bool.or_eq_true, Bool.and_eq_true, decide_eq_true_eq, ge_iff_le, UInt32.le_iff_toNat_le] at h
  omega

/-- A character of a plain name is visible, unreserved, and no equals sign. -/
theorem IsPlainName.visible (h : IsPlainName name) {c : Char} (hc : c ∈ name.toList) :
    0x21 ≤ c.toNat ∧ c.toNat < 0x7F ∧ Percent.isUnreserved (UInt8.ofNat c.toNat) = true ∧
      c ≠ '=' ∧ c ≠ ';' := by
  have hall : ∀ n : Fin 128, (Char.ofNat n).isAlphanum = true ∨ Char.ofNat n = '-' ∨
      Char.ofNat n = '_' → 0x21 ≤ n.val ∧ n.val < 0x7F ∧
        Percent.isUnreserved (UInt8.ofNat n) = true ∧ Char.ofNat n ≠ '=' ∧ Char.ofNat n ≠ ';' := by
    decide +kernel
  have hlt : c.toNat < 128 := by
    rcases h.chars c hc with halnum | rfl | rfl
    · exact lt_of_isAlphanum halnum
    · decide
    · decide
  have hchar := hall ⟨c.toNat, hlt⟩
  simp only [Char.ofNat_toNat] at hchar
  exact hchar (h.chars c hc)

/-- A plain name stands for itself. -/
theorem IsPlainName.decodeText? (h : IsPlainName name) : Percent.decodeText? name = some name := by
  have hcodes : Percent.encode name = name := by
    rw [Percent.encode, ← String.ofList_toList (s := name), Percent.encodeBytes_of_kept]
    exact fun c hc => ⟨(h.visible hc).2.1.trans (by decide), (h.visible hc).2.2.1⟩
  rw [← congrArg Percent.decodeText? hcodes, Percent.decodeText?_encode]

theorem IsEncoding.harmless (h : IsEncoding keep) : Percent.Harmless keep :=
  fun b hb => ⟨(h b hb).2.1.trans (by decide), (h b hb).2.2⟩

/-- Letters, digits and the marks that stand for themselves anywhere are visible. -/
theorem isEncoding_isUnreserved : IsEncoding Percent.isUnreserved :=
  Percent.forall_byte (by decide +kernel)

/-- What is in percent codes is visible. -/
theorem IsEncoding.visible (h : IsEncoding keep) {bytes : Bytes} {c : Char}
    (hc : c ∈ encodeBytes keep bytes) : 0x21 ≤ c.toNat ∧ c.toNat < 0x7F := by
  obtain ⟨b, -, hb⟩ := List.mem_flatMap.1 hc
  rw [Percent.encodeByte] at hb
  split at hb
  · next hkeep =>
    obtain ⟨hlow, hhigh, -⟩ := h b hkeep
    rw [List.mem_singleton.1 hb, Percent.toNat_ofNat_toNat (hhigh.trans (by decide))]
    exact ⟨hlow, hhigh⟩
  · have hdigit : ∀ n : Fin 16, 0x21 ≤ (Hex.capitalDigit n).toNat ∧
        (Hex.capitalDigit n).toNat < 0x7F := by
      decide
    obtain ⟨high, low, -, hcode⟩ := Percent.code_eq b
    rw [hcode] at hb
    simp only [List.mem_cons, List.not_mem_nil, or_false] at hb
    rcases hb with rfl | rfl | rfl
    · decide
    · exact hdigit high
    · exact hdigit low

/-- Blanks around a text without any are trimmed away. -/
theorem trim_around {lead cs trail : List Char} (hblank : ∀ c ∈ lead ++ trail, c = ' ' ∨ c = '\t')
    (hcs : ∀ c ∈ cs, 0x21 ≤ c.toNat ∧ c.toNat < 0x7F) :
    Text.trim (String.ofList (lead ++ cs ++ trail)) = String.ofList cs := by
  refine Text.trims_iff.1 ⟨⟨lead, trail, by simp, fun c hc => ?_⟩, ?_⟩
  · rcases hblank c hc with rfl | rfl <;> rfl
  · refine Text.isTrimmed_of_forall fun c hc => Text.isBlankChar_eq_false (hcs c ?_)
    rwa [String.toList_ofList] at hc

/-- The pair of a name and a text in codes, with blanks around it. -/
def pair (lead : List Char) (name : String) (coded trail : List Char) : Bytes :=
  Utf8.encode (String.ofList ((lead ++ name.toList) ++ '=' :: (coded ++ trail)))

/-- The pair of a plain name and a text in codes is read as a cookie of that name and text. -/
theorem parse?_pair {lead trail : List Char} (hname : IsPlainName name) (hkeep : IsEncoding keep)
    (hblank : ∀ c ∈ lead ++ trail, c = ' ' ∨ c = '\t') :
    parse? (pair lead name (encodeBytes keep (Utf8.encode t)) trail) = some ⟨name, t⟩ := by
  have hlead : ∀ c ∈ lead, c = ' ' ∨ c = '\t' := fun c hc => hblank c (List.mem_append_left _ hc)
  have htrail : ∀ c ∈ trail, c = ' ' ∨ c = '\t' := fun c hc => hblank c (List.mem_append_right _ hc)
  -- Neither blanks nor the name hold an equals sign, so the first one is that of the pair.
  have hequals : 0x3D ∉ Utf8.encode (String.ofList (lead ++ name.toList)) := by
    intro h
    have hchar := Utf8.mem_of_mem_encode h (by decide)
    rw [String.toList_ofList] at hchar
    rcases List.mem_append.1 hchar with hchar | hchar
    · rcases hlead _ hchar with h | h <;> exact absurd h (by decide)
    · exact (hname.visible hchar).2.2.2.1 rfl
  have hfront : Text.trim (String.ofList (lead ++ name.toList)) = name := by
    have htrim : Text.trim (String.ofList (lead ++ name.toList ++ [])) =
        String.ofList name.toList :=
      trim_around (by simpa using hlead) fun c hc => ⟨(hname.visible hc).1, (hname.visible hc).2.1⟩
    rwa [List.append_nil, String.ofList_toList] at htrim
  have hback : Text.trim (String.ofList ([] ++ encodeBytes keep (Utf8.encode t) ++ trail)) =
      String.ofList (encodeBytes keep (Utf8.encode t)) :=
    trim_around htrail fun c hc => hkeep.visible hc
  rw [List.nil_append] at hback
  have hne : name.isEmpty = false := by simpa using hname.ne_empty
  simp only [parse?, pair, Utf8.encode_equals, Form.splitFirst_append hequals, Utf8.decode?_encode,
    hfront, hback, hne, hname.decodeText?, Percent.decodeText?_encodeBytes hkeep.harmless,
    Option.bind_eq_bind, Option.bind_some, Bool.false_eq_true, if_false]

/-! ## The last cookie of a name -/

/-- The cookies of some headers are those of the first ones and those of the others. -/
theorem ofHeaders_append (before after : Headers) :
    ofHeaders (before ++ after) = ofHeaders before ++ ofHeaders after := by
  simp [ofHeaders, Headers.values]

/-- The cookies of a visible Cookie header stand between semicolons. -/
theorem ofHeaders_cons {header : String} {value : Bytes} (after : Headers)
    (hheader : Text.eqIgnoreCase header "cookie" = true)
    (hvisible : (Headers.visible? value).isSome = true) :
    ofHeaders ((header, value) :: after) =
      (Form.splitAll 0x3B value).filterMap parse? ++ ofHeaders after := by
  simp [ofHeaders, Headers.values, hheader, hvisible]

/-- No cookie counts but the last one of its name. -/
theorem value?_append_cons {earlier later : List Cookie} (value : String)
    (h : ∀ c ∈ later, c.name ≠ name) :
    value? (earlier ++ ⟨name, value⟩ :: later) name = some value := by
  have hnone : later.reverse.find? (·.name == name) = none := by
    simpa using h
  simp [value?, hnone]

/-- A visible Cookie header has the pair of a name and a text in codes between its semicolons, and
no cookie after it has that name. -/
inductive EndsWith (name : String) (coded : List Char) : Headers → Prop
  | intro {before after : Headers} {header : String} {value : Bytes} {lead trail : List Char}
      {earlier later : List Bytes} :
    Text.eqIgnoreCase header "cookie" = true → (Headers.visible? value).isSome = true →
    Form.splitAll 0x3B value = earlier ++ pair lead name coded trail :: later →
    (∀ c ∈ lead ++ trail, c = ' ' ∨ c = '\t') →
    (∀ c ∈ later.filterMap parse? ++ ofHeaders after, c.name ≠ name) →
    EndsWith name coded (before ++ (header, value) :: after)

/-- The last cookie of a plain name has the text that its codes stand for. -/
theorem EndsWith.value? {headers : Headers} (hname : IsPlainName name) (hkeep : IsEncoding keep)
    (h : EndsWith name (encodeBytes keep (Utf8.encode t)) headers) :
    Cookie.value? (ofHeaders headers) name = some t := by
  obtain ⟨hheader, hvisible, hpieces, hblank, hlater⟩ := h
  rw [ofHeaders_append, ofHeaders_cons _ hheader hvisible, hpieces, List.filterMap_append,
    List.filterMap_cons_some (parse?_pair hname hkeep hblank), List.append_assoc, List.cons_append,
    ← List.append_assoc]
  exact value?_append_cons t hlater

end Cookie

/-! ## Presented tokens -/

/-- The first Authorization header, alone. -/
def Headers.firstAuthorization (headers : Headers) : Headers :=
  (headers.find? fun h => Text.eqIgnoreCase h.1 "authorization").toList

/-- A presented token is what is left of a text that is not blank. -/
theorem exists_nonBlank?_of_presentedToken {headers : Headers} {name t : String}
    (h : presentedToken headers name = some t) : ∃ s, Text.nonBlank? s = some t := by
  rw [presentedToken, Option.or_eq_some_iff] at h
  rcases h with h | ⟨-, h⟩
  · obtain ⟨value, -, hvalue⟩ := Option.bind_eq_some_iff.1 h
    exact ⟨value, hvalue⟩
  · obtain ⟨value, -, hvalue⟩ := Option.bind_eq_some_iff.1 h
    rw [bearerToken?] at hvalue
    split at hvalue
    · exact ⟨_, hvalue⟩
    · cases hvalue

/-- A token that a request presents is not blank. -/
theorem isBlank_presentedToken {headers : Headers} {cookieName token : String}
    (h : presentedToken headers cookieName = some token) : Text.isBlank token = false := by
  obtain ⟨s, hs⟩ := exists_nonBlank?_of_presentedToken h
  exact Text.isBlank_of_nonBlank? hs

/-- A presented token is not empty, and no blank character stands at its ends. -/
theorem isTrimmed_presentedToken {headers : Headers} {name t : String}
    (h : presentedToken headers name = some t) : t ≠ "" ∧ Text.IsTrimmed t := by
  obtain ⟨s, hs⟩ := exists_nonBlank?_of_presentedToken h
  obtain ⟨hne, htrims⟩ := Text.nonBlank?_eq_some_iff.1 hs
  exact ⟨hne, htrims.ends⟩

/-- The token of the session cookie is presented before any other. -/
theorem presentedToken_of_cookie {headers : Headers} {name t : String}
    (hcookie : Cookie.value? (Cookie.ofHeaders headers) name = some t) (hne : t ≠ "")
    (htrimmed : Text.IsTrimmed t) : presentedToken headers name = some t := by
  rw [presentedToken, hcookie, Option.bind_some,
    Text.nonBlank?_eq_some_iff.2 ⟨hne, htrimmed.trims⟩, Option.some_or]

/-- Without a token in the session cookie, the first Authorization header decides alone. -/
theorem presentedToken_of_no_cookie {headers : Headers} {name : String}
    (h : ∀ v, Cookie.value? (Cookie.ofHeaders headers) name = some v → Text.isBlank v = true) :
    presentedToken headers name = presentedToken headers.firstAuthorization name := by
  have hnone : (Cookie.value? (Cookie.ofHeaders headers) name).bind Text.nonBlank? = none := by
    rw [Option.bind_eq_none_iff]
    intro v hv
    rw [Text.nonBlank?, h v hv]
    rfl
  have htext :
      headers.text? "authorization" = headers.firstAuthorization.text? "authorization" := by
    rw [Headers.firstAuthorization, Headers.text?, Headers.text?, Headers.values, Headers.values,
      List.head?_map, List.head?_filter]
    cases hfound : headers.find? fun h => Text.eqIgnoreCase h.1 "authorization" with
    | none => rfl
    | some h =>
      have hname : Text.eqIgnoreCase h.1 "authorization" = true := by
        simpa using List.find?_some hfound
      simp [hname]
  have hcookies : Cookie.ofHeaders headers.firstAuthorization = [] := by
    have hno : ∀ h ∈ headers.firstAuthorization, Text.eqIgnoreCase h.1 "cookie" = false := by
      intro h hmem
      have hname : Text.eqIgnoreCase h.1 "authorization" = true := by
        simpa using List.find?_some (Option.mem_toList.1 hmem)
      rw [Text.eqIgnoreCase, beq_iff_eq] at hname
      rw [Text.eqIgnoreCase, hname]
      decide
    have hvalues : headers.firstAuthorization.values "cookie" = [] := by
      rw [Headers.values, List.map_eq_nil_iff, List.filter_eq_nil_iff]
      exact fun h hmem => Bool.eq_false_iff.1 (hno h hmem)
    rw [Cookie.ofHeaders, hvalues]
    rfl
  rw [presentedToken, presentedToken, hnone, htext, hcookies]
  rfl

/-- A token in the last session cookie, in percent codes, is the one presented, whatever other
cookies and Authorization headers a request has. When that cookie is absent or blank, the first
Authorization header decides alone. Whatever is presented is not empty and has no blank characters
around it. -/
theorem presented_token_round_trips (headers : Headers) (name : String) :
    (∀ t keep, Cookie.IsPlainName name → t ≠ "" → Text.IsTrimmed t → Cookie.IsEncoding keep →
      Cookie.EndsWith name (encodeBytes keep (Utf8.encode t)) headers →
      presentedToken headers name = some t) ∧
    ((∀ v, Cookie.value? (Cookie.ofHeaders headers) name = some v → Text.isBlank v = true) →
      presentedToken headers name = presentedToken headers.firstAuthorization name) ∧
    ∀ t, presentedToken headers name = some t → t ≠ "" ∧ Text.IsTrimmed t :=
  ⟨fun _ _ hname hne htrimmed hkeep hends =>
      presentedToken_of_cookie (hends.value? hname hkeep) hne htrimmed,
    presentedToken_of_no_cookie, fun _ => isTrimmed_presentedToken⟩

/-- A session cookie between a stale one and pieces that are no cookies, behind an Authorization
header and before another Cookie header; and one that a blank cookie after it takes the place of. -/
theorem session_cookie_is_presented_among_others :
    let bearer : String × Bytes := ("Authorization", Utf8.encode "Bearer other")
    let line := Utf8.encode "sid=old; lone; sid=sch%C3%B6n%20%E2%98%83	; %zz=1; =2"
    let headers : Headers := [bearer, ("COOKIE", line), ("cookie", Utf8.encode "sad=x")]
    let emptied : Headers := headers ++ [("cookie", Utf8.encode "sid=%20")]
    presentedToken headers "sid" = some "schön ☃" ∧
      presentedToken emptied "sid" = presentedToken [bearer] "sid" ∧
      Text.IsTrimmed "other" := by
  intro bearer line headers emptied
  refine ⟨?_, ?_, ?_⟩
  · refine (presented_token_round_trips headers "sid").1 "schön ☃" Percent.isUnreserved
      ⟨by decide, by simp⟩ (by decide) (by rintro c (h | h) <;> cases h <;> rfl)
      Cookie.isEncoding_isUnreserved ?_
    have hpieces : Form.splitAll 0x3B line =
        [Utf8.encode "sid=old", Utf8.encode " lone"] ++
          Cookie.pair [' '] "sid" (encodeBytes Percent.isUnreserved (Utf8.encode "schön ☃"))
            ['\t'] :: [Utf8.encode " %zz=1", Utf8.encode " =2"] := by
      decide +kernel
    have hends : Cookie.EndsWith "sid" _
        ([bearer] ++ ("COOKIE", line) :: [("cookie", Utf8.encode "sad=x")]) :=
      .intro (by decide) (by decide +kernel) hpieces (by simp) (by decide +kernel)
    exact hends
  · have hfirst : emptied.firstAuthorization = [bearer] := by decide +kernel
    rw [← hfirst]
    exact (presented_token_round_trips emptied "sid").2.1 (by decide +kernel)
  · have hother : presentedToken [bearer] "sid" = some "other" := by decide +kernel
    exact ((presented_token_round_trips [bearer] "sid").2.2 "other" hother).2

end FinanceGateway
