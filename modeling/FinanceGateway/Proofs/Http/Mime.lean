import FinanceGateway.Http.Mime
import Mathlib

/-!
# Media types that are written can be read

Which parameters a text spells is said twice: by the reader `readParameters`, and by the relation
`Spells`, whose cases are a list of parameters and what is left after the last of them. The two
agree (`spells_of_readParameters`, `readParameters_of_spells`), and names in small letters are
spelled as well as others (`Spells.exists_shown`). So the text of a media type that was read is read
again, as one that is written in the same way (`parse?_text`), and there is no line break in it
(`return_not_mem_text`).
-/

namespace FinanceGateway.Mime

/-! ## Small letters -/

/-- Only a capital has another small letter. -/
theorem toLower_eq_self_or (c : Char) : c.toLower = c ∨ ∃ n : Fin 26, c = Char.ofNat (65 + n) := by
  by_cases hcapital : c.val ≥ 'A'.val ∧ c.val ≤ 'Z'.val
  · obtain ⟨hlow, hhigh⟩ := hcapital
    have hlow : 65 ≤ c.toNat := hlow
    have hhigh : c.toNat ≤ 90 := hhigh
    refine .inr ⟨⟨c.toNat - 65, by omega⟩, ?_⟩
    rw [show 65 + (c.toNat - 65) = c.toNat by omega, Char.ofNat_toNat]
  · exact .inl (dif_neg hcapital)

theorem toLower_toLower (c : Char) : c.toLower.toLower = c.toLower := by
  rcases toLower_eq_self_or c with h | ⟨n, rfl⟩
  · rw [h, h]
  · revert n
    decide

theorem map_toLower_map_toLower (cs : List Char) :
    (cs.map Char.toLower).map Char.toLower = cs.map Char.toLower := by
  rw [List.map_map]
  exact List.map_congr_left fun c _ => toLower_toLower c

theorem isToken_toLower (c : Char) : isToken c.toLower = isToken c := by
  rcases toLower_eq_self_or c with h | ⟨n, rfl⟩
  · rw [h]
  · revert n
    decide +kernel

theorem isQuotable_toLower (c : Char) : isQuotable c.toLower = isQuotable c := by
  rcases toLower_eq_self_or c with h | ⟨n, rfl⟩
  · rw [h]
  · revert n
    decide

theorem toLower_eq_quote_iff {c : Char} : c.toLower = '"' ↔ c = '"' := by
  rcases toLower_eq_self_or c with h | ⟨n, rfl⟩
  · rw [h]
  · revert n
    decide

/-! ## Taking while -/

/-- What is taken of a text ends where a character is not of the kind. -/
theorem takeWhile_append_of_head {p : Char → Bool} {cs rest : List Char} (h : ∀ c ∈ cs, p c = true)
    (hrest : ∀ c ∈ rest.head?, p c = false) :
    (cs ++ rest).takeWhile p = cs ∧ (cs ++ rest).dropWhile p = rest := by
  rw [List.takeWhile_append_of_pos h, List.dropWhile_append_of_pos h]
  cases rest with
  | nil => exact ⟨List.append_nil _, rfl⟩
  | cons c rest =>
    have hc : ¬ p c = true := Bool.eq_false_iff.1 (hrest c rfl)
    rw [List.takeWhile_cons_of_neg hc, List.dropWhile_cons_of_neg hc]
    exact ⟨List.append_nil _, rfl⟩

/-! ## Parameters -/

/-- The characters of a value as it is spelled, with the blanks after it. -/
def Parameter.valueSpelling (p : Parameter) : List Char :=
  let quote := if p.isQuoted then ['"'] else []
  quote ++ p.value ++ quote ++ p.trail

/-- The characters of a parameter as it is spelled. -/
def Parameter.spelling (p : Parameter) : List Char :=
  p.lead ++ p.name ++ '=' :: p.valueSpelling

/-- The parameter as it is shown, its name small, and so the value of `charset`. -/
def Parameter.shown (p : Parameter) : Parameter :=
  let name := p.name.map Char.toLower
  { p with name, value := if name == "charset".toList then p.value.map Char.toLower else p.value }

/-- A parameter is written after a semicolon as it is shown. -/
theorem Parameter.chars_eq (p : Parameter) : p.chars = ';' :: p.shown.spelling := by
  simp only [chars, spelling, valueSpelling, shown, List.append_assoc, List.cons_append]
  rfl

/-- A value between quotes, or a name, which nothing follows. -/
inductive Parameter.HasValue : Parameter → Prop
  | quoted {lead name first more trail} : isQuotable first = true →
      (∀ c ∈ more, isQuotable c = true ∧ c ≠ '"') → (∀ c ∈ trail, c = ' ') →
      HasValue ⟨lead, name, first :: more, true, trail⟩
  | plain {lead name value} : (∀ c ∈ value, isToken c = true) →
      HasValue ⟨lead, name, value, false, []⟩

/-- The characters of a parameter are where they can be read. -/
structure Parameter.IsSpelled (p : Parameter) : Prop where
  lead : ∀ c ∈ p.lead, c = ' '
  name_ne_nil : p.name ≠ []
  name : ∀ c ∈ p.name, isToken c = true
  value : p.HasValue

/-- Whether something is there for the value, so that another parameter can follow. -/
def Parameter.hasEnd (p : Parameter) : Bool :=
  p.isQuoted || !p.value.isEmpty

/-- A text spells parameters, and leaves something after the last of them. -/
inductive Spells : List Char → List Parameter → List Char → Prop
  | nil {lead} : (∀ c ∈ lead, c = ' ') → Spells lead [] lead
  | last {p : Parameter} : p.IsSpelled → Spells p.spelling [p] []
  | cons {p : Parameter} {cs others tail} : p.IsSpelled → p.hasEnd = true →
      Spells cs others tail →
      Spells (p.spelling ++ ';' :: cs) (p :: others) (if others.isEmpty then ';' :: tail else tail)

/-! ## Reading parameters -/

variable {p : Parameter} {cs rest tail : List Char} {ps : List Parameter} {fuel : Nat}

/-- A value that is spelled is read, up to the end or to a semicolon. -/
theorem readValue_spelling (h : p.HasValue)
    (hrest : rest = [] ∨ p.hasEnd = true ∧ ∃ next, rest = ';' :: next) :
    readValue (p.valueSpelling ++ rest) = some (p.value, p.isQuoted, p.trail, rest) := by
  have hhead (kind : Char → Bool) (hkind : kind ';' = false) :
      ∀ c ∈ rest.head?, kind c = false := by
    rcases hrest with rfl | ⟨-, next, rfl⟩
    · exact nofun
    · rintro c ⟨⟩
      exact hkind
  cases h with
  | @quoted lead name first more trail hfirst hmore htrail =>
    have hspelling : (⟨lead, name, first :: more, true, trail⟩ : Parameter).valueSpelling ++ rest =
        '"' :: first :: (more ++ '"' :: (trail ++ rest)) := by
      simp [Parameter.valueSpelling]
    obtain ⟨hvalue, hafter⟩ : _ ∧ (more ++ '"' :: (trail ++ rest)).dropWhile _ = _ :=
      takeWhile_append_of_head (p := fun c => isQuotable c && c != '"')
        (fun c hc => by simpa using hmore c hc) (by simp)
    obtain ⟨hblanks, hnext⟩ := takeWhile_append_of_head (p := (· == ' '))
      (fun c hc => by simpa using htrail c hc) (hhead (· == ' ') rfl)
    rw [hspelling, readValue]
    simp only [hfirst, hvalue, hafter, hblanks, hnext]
    rfl
  | @plain lead name value hvalue =>
    have hspelling : (⟨lead, name, value, false, []⟩ : Parameter).valueSpelling ++ rest =
        value ++ rest := by
      simp [Parameter.valueSpelling]
    obtain ⟨htaken, hleft⟩ := takeWhile_append_of_head hvalue (hhead isToken (by decide +kernel))
    -- The text begins neither with a quote nor with a semicolon.
    have hbegin : ∀ c ∈ (value ++ rest).head?, c ≠ '"' ∧ c ≠ ';' := by
      cases value with
      | nil =>
        rcases hrest with rfl | ⟨hend, -⟩
        · exact nofun
        · exact absurd hend Bool.false_ne_true
      | cons c value =>
        rintro _ ⟨⟩
        have hc := hvalue c (.head _)
        constructor
        · rintro rfl
          exact absurd hc (by decide +kernel)
        · rintro rfl
          exact absurd hc (by decide +kernel)
    rw [hspelling]
    unfold readValue
    split
    · next heq => exact absurd rfl (hbegin '"' (by rw [heq]; rfl)).1
    · next heq => exact absurd rfl (hbegin '"' (by rw [heq]; rfl)).1
    · next heq => exact absurd rfl (hbegin ';' (by rw [heq]; rfl)).2
    · rw [htaken, hleft]

/-- A value that is read was spelled; a semicolon after it ends something. -/
theorem spelling_of_readValue (lead name : List Char) {value trail : List Char} {isQuoted : Bool}
    (h : readValue cs = some (value, isQuoted, trail, rest)) :
    let p : Parameter := ⟨lead, name, value, isQuoted, trail⟩
    p.HasValue ∧ cs = p.valueSpelling ++ rest ∧
      ((∃ next, rest = ';' :: next) → p.hasEnd = true) := by
  unfold readValue at h
  split at h
  · next first more =>
    split at h
    · cases h
    · next hfirst =>
      split at h
      · next after hafter =>
        cases h
        refine ⟨.quoted (by simpa using hfirst) (fun c hc => by
          simpa using List.mem_takeWhile_imp hc) (fun c hc => by
          simpa using List.mem_takeWhile_imp hc), ?_, fun _ => rfl⟩
        have hmore := List.takeWhile_append_dropWhile (p := fun c => isQuotable c && c != '"')
          (l := more)
        rw [hafter] at hmore
        have hblanks := List.takeWhile_append_dropWhile (p := (· == ' ')) (l := after)
        simp only [Parameter.valueSpelling, if_true, List.append_assoc, List.cons_append,
          List.nil_append, hblanks, hmore]
      · cases h
  · cases h
  · cases h
  · next hsemicolon =>
    cases h
    refine ⟨.plain fun c hc => List.mem_takeWhile_imp hc, ?_, ?_⟩
    · simp [Parameter.valueSpelling, List.takeWhile_append_dropWhile]
    · rintro ⟨next, hnext⟩
      -- Without a value the semicolon would come first.
      cases hvalue : cs.takeWhile isToken with
      | nil =>
        have hcs := List.takeWhile_append_dropWhile (p := isToken) (l := cs)
        rw [hvalue, hnext] at hcs
        exact absurd hcs.symm (hsemicolon next)
      | cons c value => rfl

/-- A parameter that is spelled is read, and then what follows it. -/
theorem readParameters_spelling (h : p.IsSpelled) (fuel : Nat) (rest : List Char) :
    (rest = [] ∨ p.hasEnd = true ∧ ∃ next, rest = ';' :: next) →
      readParameters (fuel + 1) (p.spelling ++ rest) =
        match rest with
        | [] => some ([p], [])
        | ';' :: next => do
          let (others, tail) ← readParameters fuel next
          some (p :: others, if others.isEmpty then ';' :: tail else tail)
        | _ => none := by
  intro hrest
  obtain ⟨first, more, hname⟩ := List.exists_cons_of_ne_nil h.name_ne_nil
  have hspelling : p.spelling ++ rest = p.lead ++ (p.name ++ '=' :: (p.valueSpelling ++ rest)) := by
    simp [Parameter.spelling]
  have hbegin : ∀ c ∈ (p.name ++ '=' :: (p.valueSpelling ++ rest)).head?, (c == ' ') = false := by
    have hfirst := h.name first (hname ▸ .head _)
    rw [hname]
    rintro c ⟨⟩
    refine beq_false_of_ne ?_
    rintro rfl
    exact absurd hfirst (by decide +kernel)
  have hequals : ∀ c ∈ ('=' :: (p.valueSpelling ++ rest)).head?, isToken c = false := by
    rintro c ⟨⟩
    decide +kernel
  obtain ⟨hlead, hbody⟩ := takeWhile_append_of_head (p := (· == ' '))
    (fun c hc => by simpa using h.lead c hc) hbegin
  obtain ⟨htoken, hafter⟩ := takeWhile_append_of_head h.name hequals
  have hsome : (p.name ++ '=' :: (p.valueSpelling ++ rest)).isEmpty = false := by
    rw [hname]
    rfl
  rw [hspelling, readParameters, hlead, hbody, hsome, htoken, hafter]
  simp only [hname, readValue_spelling h.value hrest, Option.bind_eq_bind, Option.bind_some]
  rw [← hname]
  rfl

/-- Parameters that are read are spelled. -/
theorem spells_of_readParameters (h : readParameters fuel cs = some (ps, tail)) :
    Spells cs ps tail := by
  induction fuel generalizing cs ps tail with
  | zero => cases h
  | succ fuel ih =>
    have hcs := List.takeWhile_append_dropWhile (p := (· == ' ')) (l := cs)
    have hlead : ∀ c ∈ cs.takeWhile (· == ' '), c = ' ' := fun c hc => by
      simpa using List.mem_takeWhile_imp hc
    rw [readParameters] at h
    split at h
    · next hempty =>
      cases h
      rw [List.isEmpty_iff.1 hempty, List.append_nil] at hcs
      have := Spells.nil hlead
      rwa [hcs] at this ⊢
    · split at h
      · next first more after hname hafter =>
        have hbody := List.takeWhile_append_dropWhile (p := isToken) (l := cs.dropWhile (· == ' '))
        rw [hname, hafter] at hbody
        obtain ⟨⟨value, isQuoted, trail, rest⟩, hread, h⟩ := Option.bind_eq_some_iff.1 h
        obtain ⟨hvalue, hspelling, hend⟩ :=
          spelling_of_readValue (cs.takeWhile (· == ' ')) (first :: more) hread
        have hmore : ∀ c ∈ first :: more, isToken c = true := fun c hc =>
          List.mem_takeWhile_imp (hname ▸ hc)
        let p : Parameter := ⟨cs.takeWhile (· == ' '), first :: more, value, isQuoted, trail⟩
        have hp : p.IsSpelled := ⟨hlead, List.cons_ne_nil _ _, hmore, hvalue⟩
        have hwhole : cs = p.spelling ++ rest := by
          rw [← hcs, ← hbody, hspelling]
          simp [p, Parameter.spelling]
        rw [hwhole]
        dsimp only at h
        split at h
        · cases h
          rw [List.append_nil]
          exact .last hp
        · next next =>
          obtain ⟨⟨others, left⟩, hothers, h⟩ := Option.bind_eq_some_iff.1 h
          cases h
          exact .cons hp (hend ⟨next, rfl⟩) (ih hothers)
        · cases h
      · cases h

/-- Parameters that are spelled are read. -/
theorem readParameters_of_spells (h : Spells cs ps tail) (hfuel : cs.length < fuel) :
    readParameters fuel cs = some (ps, tail) := by
  induction h generalizing fuel with
  | @nil lead hlead =>
    obtain ⟨fuel, rfl⟩ := Nat.exists_eq_succ_of_ne_zero (Nat.ne_zero_of_lt hfuel)
    have hblank : ∀ c ∈ lead, (c == ' ') = true := fun c hc => by simpa using hlead c hc
    rw [readParameters, List.takeWhile_eq_self_iff.2 hblank, List.dropWhile_eq_nil_iff.2 hblank]
    rfl
  | @last p hp =>
    obtain ⟨fuel, rfl⟩ := Nat.exists_eq_succ_of_ne_zero (Nat.ne_zero_of_lt hfuel)
    rw [← List.append_nil p.spelling]
    exact readParameters_spelling hp fuel [] (.inl rfl)
  | @cons p cs others tail hp hend hothers ih =>
    obtain ⟨fuel, rfl⟩ := Nat.exists_eq_succ_of_ne_zero (Nat.ne_zero_of_lt hfuel)
    rw [List.length_append, List.length_cons] at hfuel
    rw [readParameters_spelling hp fuel (';' :: cs) (.inr ⟨hend, cs, rfl⟩)]
    simp only [ih (show cs.length < fuel by omega)]
    rfl

/-! ## Showing parameters -/

/-- Small letters are read where capitals are. -/
theorem isToken_of_mem_map_toLower {cs : List Char} (h : ∀ c ∈ cs, isToken c = true) :
    ∀ c ∈ cs.map Char.toLower, isToken c = true := by
  intro c hc
  obtain ⟨capital, hcapital, rfl⟩ := List.mem_map.1 hc
  rw [isToken_toLower]
  exact h capital hcapital

/-- A value is one in small letters too. -/
theorem Parameter.HasValue.map_toLower (h : p.HasValue) (name : List Char) :
    Parameter.HasValue { p with name, value := p.value.map Char.toLower } := by
  cases h with
  | quoted hfirst hmore htrail =>
    refine .quoted (by rwa [isQuotable_toLower]) (fun c hc => ?_) htrail
    obtain ⟨capital, hcapital, rfl⟩ := List.mem_map.1 hc
    rw [isQuotable_toLower, ne_eq, toLower_eq_quote_iff]
    exact hmore capital hcapital
  | plain hvalue => exact .plain (isToken_of_mem_map_toLower hvalue)

/-- The name of a parameter makes no difference to its value. -/
theorem Parameter.HasValue.rename (h : p.HasValue) (name : List Char) :
    Parameter.HasValue { p with name } := by
  cases h with
  | quoted hfirst hmore htrail => exact .quoted hfirst hmore htrail
  | plain hvalue => exact .plain hvalue

/-- A parameter as it is shown can be read. -/
theorem Parameter.IsSpelled.shown (h : p.IsSpelled) : p.shown.IsSpelled where
  lead := h.lead
  name_ne_nil := mt List.map_eq_nil_iff.1 h.name_ne_nil
  name := isToken_of_mem_map_toLower h.name
  value := by
    unfold Parameter.shown
    dsimp only
    split
    · exact h.value.map_toLower _
    · exact h.value.rename _

theorem Parameter.hasEnd_shown (p : Parameter) : p.shown.hasEnd = p.hasEnd := by
  unfold Parameter.shown Parameter.hasEnd
  dsimp only
  split <;> simp

theorem Parameter.shown_shown (p : Parameter) : p.shown.shown = p.shown := by
  unfold Parameter.shown
  dsimp only
  rw [map_toLower_map_toLower]
  split <;> simp only [map_toLower_map_toLower]

/-- What spells some parameters can be changed to spell them as they are shown. -/
theorem Spells.exists_shown (h : Spells cs ps tail) :
    ∃ cs', Spells cs' (ps.map Parameter.shown) tail := by
  induction h with
  | nil hlead => exact ⟨_, .nil hlead⟩
  | last hp => exact ⟨_, .last hp.shown⟩
  | @cons p cs others tail hp hend hothers ih =>
    obtain ⟨cs', ih⟩ := ih
    have := Spells.cons hp.shown (p.hasEnd_shown.trans hend) ih
    rw [List.isEmpty_map] at this
    exact ⟨_, this⟩

/-- The text that spells some parameters is made of their spellings. -/
theorem Spells.flatMap_spelling (h : Spells cs ps tail) (hps : ps ≠ []) :
    ps.flatMap (fun p => ';' :: p.spelling) ++ tail = ';' :: cs := by
  induction h with
  | nil => exact absurd rfl hps
  | last => simp
  | @cons p cs others tail hp hend hothers ih =>
    cases others with
    | nil =>
      cases hothers
      simp
    | cons other others =>
      rw [List.flatMap_cons, List.append_assoc]
      exact congrArg (';' :: p.spelling ++ ·) (ih (List.cons_ne_nil _ _))

/-! ## Types -/

variable {s : String} {m : Mime}

/-- The media type as it is shown. -/
def shown (m : Mime) : Mime :=
  { m with parameters := m.parameters.map Parameter.shown }

/-- The characters of a media type as it is spelled. -/
def spelling (m : Mime) : List Char :=
  m.type ++ '/' :: (m.subtype ++ (m.parameters.flatMap (fun p => ';' :: p.spelling) ++ m.rest))

/-- A media type is written as it is shown. -/
theorem text_eq (m : Mime) : m.text = String.ofList m.shown.spelling := by
  have hchars : Parameter.chars = fun p => ';' :: p.shown.spelling :=
    funext Parameter.chars_eq
  rw [text, spelling, shown, List.flatMap_map, hchars]
  simp only [List.append_assoc, List.cons_append]

theorem text_shown (m : Mime) : m.shown.text = m.text := by
  have hshown : m.shown.shown = m.shown := by
    simp [shown, Parameter.shown_shown, Function.comp_def]
  rw [text_eq, text_eq, hshown]

/-- The parts of a media type that can be read: names in small letters, and what some text
spells. -/
structure IsSpelled (m : Mime) : Prop where
  type_ne_nil : m.type ≠ []
  type : ∀ c ∈ m.type, isToken c = true ∧ c.toLower = c
  subtype : ∀ c ∈ m.subtype, isToken c = true ∧ c.toLower = c
  parameters : m.parameters = [] ∧ m.rest = [] ∨
    m.subtype ≠ [] ∧ m.parameters ≠ [] ∧ ∃ cs, Spells cs m.parameters m.rest

/-- The characters of a name in small letters. -/
theorem isToken_and_toLower_of_mem {cs : List Char} (h : ∀ c ∈ cs, isToken c = true) :
    ∀ c ∈ cs.map Char.toLower, isToken c = true ∧ c.toLower = c := by
  intro c hc
  refine ⟨isToken_of_mem_map_toLower h c hc, ?_⟩
  obtain ⟨capital, -, rfl⟩ := List.mem_map.1 hc
  exact toLower_toLower capital

/-- A media type that is read has parts that can be read. -/
theorem isSpelled_of_parse? (h : parse? s = some m) : m.IsSpelled := by
  rw [parse?] at h
  split at h
  · next first more after htype hafter =>
    have htypes : ∀ c ∈ first :: more, isToken c = true := fun c hc =>
      List.mem_takeWhile_imp (htype ▸ hc)
    have hsubtypes : ∀ c ∈ after.takeWhile isToken, isToken c = true := fun c hc =>
      List.mem_takeWhile_imp hc
    split at h
    · cases h
      exact ⟨List.cons_ne_nil _ _, isToken_and_toLower_of_mem htypes,
        isToken_and_toLower_of_mem hsubtypes, .inl ⟨rfl, rfl⟩⟩
    · next params hparams =>
      dsimp only at h
      split at h
      · cases h
      · next hsubtype =>
        obtain ⟨⟨ps, tail⟩, hread, h⟩ := Option.bind_eq_some_iff.1 h
        cases h
        refine ⟨List.cons_ne_nil _ _, isToken_and_toLower_of_mem htypes,
          isToken_and_toLower_of_mem hsubtypes, ?_⟩
        cases ps with
        | nil => exact .inl ⟨rfl, rfl⟩
        | cons p ps =>
          exact .inr ⟨by simpa using hsubtype, List.cons_ne_nil _ _, params,
            spells_of_readParameters hread⟩
    · cases h
  · cases h

/-- A media type whose parts can be read is read from its spelling. -/
theorem parse?_spelling (h : m.IsSpelled) : parse? (String.ofList m.spelling) = some m := by
  have hlower {cs : List Char} (hcs : ∀ c ∈ cs, isToken c = true ∧ c.toLower = c) :
      cs.map Char.toLower = cs :=
    (List.map_congr_left fun c hc => (hcs c hc).2).trans (List.map_id cs)
  have hhead (rest : List Char) {c : Char} (hc : isToken c = false) :
      ∀ d ∈ (c :: rest).head?, isToken d = false := by
    rintro d ⟨⟩
    exact hc
  obtain ⟨type, subtype, ps, tail⟩ := m
  obtain ⟨hne, htype, hsubtype, hparameters⟩ := h
  obtain ⟨htaken, hleft⟩ := takeWhile_append_of_head (fun c hc => (htype c hc).1)
    (hhead (subtype ++ (ps.flatMap (fun p => ';' :: p.spelling) ++ tail))
      (show isToken '/' = false by decide +kernel))
  rw [parse?, spelling, String.toList_ofList]
  dsimp only at hne htype hsubtype hparameters htaken hleft ⊢
  rw [htaken, hleft]
  obtain ⟨first, more, rfl⟩ := List.exists_cons_of_ne_nil hne
  rcases hparameters with ⟨rfl, rfl⟩ | ⟨hsome, hps, cs, hspells⟩
  · have htaken := List.takeWhile_eq_self_iff.2 fun c hc => (hsubtype c hc).1
    have hleft := List.dropWhile_eq_nil_iff.2 fun c hc => (hsubtype c hc).1
    simp only [List.flatMap_nil, List.append_nil, htaken, hleft, hlower htype, hlower hsubtype]
  · obtain ⟨htaken, hleft⟩ := takeWhile_append_of_head (fun c hc => (hsubtype c hc).1)
      (hhead cs (show isToken ';' = false by decide +kernel))
    have hread := readParameters_of_spells hspells (Nat.lt_succ_self _)
    simp only [hspells.flatMap_spelling hps, htaken, hleft, hlower htype, hlower hsubtype, hread,
      List.isEmpty_iff, hsome, hps, if_false, Option.bind_eq_bind, Option.bind_some]

/-- A media type that can be read can be read as it is shown. -/
theorem IsSpelled.shown (h : m.IsSpelled) : m.shown.IsSpelled := by
  obtain ⟨hne, htype, hsubtype, hparameters⟩ := h
  refine ⟨hne, htype, hsubtype, ?_⟩
  rcases hparameters with ⟨hps, hrest⟩ | ⟨hsome, hps, cs, hspells⟩
  · exact .inl ⟨by rw [Mime.shown, hps]; rfl, hrest⟩
  · exact .inr ⟨hsome, by simpa [Mime.shown] using hps, hspells.exists_shown⟩

/-- What is written of a media type that was read is read again, as a type that is written in the
same way. -/
theorem parse?_text (h : parse? s = some m) :
    parse? m.text = some m.shown ∧ m.shown.text = m.text := by
  rw [m.text_shown, text_eq]
  exact ⟨parse?_spelling (isSpelled_of_parse? h).shown, rfl⟩

/-! ## Line breaks -/

/-- There is no line break in a parameter that is spelled. -/
theorem Parameter.IsSpelled.return_not_mem (h : p.IsSpelled) : '\r' ∉ p.spelling := by
  have hblank {cs : List Char} (hcs : ∀ c ∈ cs, c = ' ') : '\r' ∉ cs := fun hc =>
    absurd (hcs _ hc) (by decide)
  have htoken {cs : List Char} (hcs : ∀ c ∈ cs, isToken c = true) : '\r' ∉ cs := fun hc =>
    absurd (hcs _ hc) (by decide +kernel)
  have hvalue : '\r' ∉ p.valueSpelling := by
    cases h.value with
    | @quoted lead name first more trail hfirst hmore htrail =>
      have hfirst' : '\r' ≠ first := by
        rintro rfl
        exact absurd hfirst (by decide)
      have hmore' : '\r' ∉ more := fun hc => absurd (hmore _ hc).1 (by decide)
      simp [Parameter.valueSpelling, hfirst', hmore', hblank htrail]
    | plain hvalue => simp [Parameter.valueSpelling, htoken hvalue]
  simp [Parameter.spelling, hblank h.lead, htoken h.name, hvalue]

/-- There is no line break in a text that spells parameters. -/
theorem Spells.return_not_mem (h : Spells cs ps tail) : '\r' ∉ cs := by
  induction h with
  | nil hlead => exact fun hc => absurd (hlead _ hc) (by decide)
  | last hp => exact hp.return_not_mem
  | cons hp _ _ ih => simp [hp.return_not_mem, ih]

/-- There is no line break in a media type that can be read. -/
theorem IsSpelled.return_not_mem (h : m.IsSpelled) : '\r' ∉ m.spelling := by
  have htoken {cs : List Char} (hcs : ∀ c ∈ cs, isToken c = true ∧ c.toLower = c) : '\r' ∉ cs :=
    fun hc => absurd (hcs _ hc).1 (by decide +kernel)
  have hparameters : '\r' ∉ m.parameters.flatMap (fun p => ';' :: p.spelling) ++ m.rest := by
    rcases h.parameters with ⟨hps, hrest⟩ | ⟨-, hps, cs, hspells⟩
    · simp [hps, hrest]
    · rw [hspells.flatMap_spelling hps]
      simp [hspells.return_not_mem]
  simp only [spelling, List.mem_append, List.mem_cons, htoken h.type, htoken h.subtype, false_or]
  rintro (hc | hc)
  · cases hc
  · exact hparameters (List.mem_append.2 hc)

/-- There is no line break in the text of a media type that was read. -/
theorem return_not_mem_text (h : parse? s = some m) : '\r' ∉ m.text.toList := by
  rw [text_eq, String.toList_ofList]
  exact (isSpelled_of_parse? h).shown.return_not_mem

end FinanceGateway.Mime
