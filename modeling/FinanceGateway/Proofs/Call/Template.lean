import FinanceGateway.Proofs.Call.Place
import FinanceGateway.Proofs.Entries
import FinanceGateway.Proofs.Outcome

/-!
# Putting values into templates

`Piece.Reads` says how a template is read from the left: a character stands for itself unless it is
an opening brace, which starts a placeholder up to the next closing brace. Every template is read in
one way, which is the one that `Piece.ofChars` finds (`Piece.reads_iff`). A piece is filled with
text from the values of a call (`Piece.Fills`), or is offending (`Piece.Offends`). A path is
resolved to the texts of all pieces, or to the complaint about the first offending one
(`resolve_fills_template`).
-/

namespace FinanceGateway

/-! ## Reading a template -/

namespace Piece

/-- The pieces of a template, read from the left. -/
inductive Reads : List Char → List Piece → Prop
  | nil : Reads [] []
  | literal {c cs pieces} : c ≠ '\x7b' → Reads cs pieces → Reads (c :: cs) (.literal c :: pieces)
  /-- A brace is closed by the next closing brace, whatever stands between the two. -/
  | placeholder {name cs pieces} : '\x7d' ∉ name → Reads cs pieces →
      Reads ('\x7b' :: (name ++ '\x7d' :: cs)) (.placeholder name :: pieces)
  | unterminated {rest} : '\x7d' ∉ rest → Reads ('\x7b' :: rest) [.unterminated]

/-- A name that no brace closes goes on to the end. -/
theorem ofChars_unterminated {rest : List Char} (h : '\x7d' ∉ rest) (read : List Char) :
    ofChars (some read) rest = [.unterminated] := by
  induction rest generalizing read with
  | nil => rfl
  | cons c rest ih =>
    simp only [List.mem_cons, not_or] at h
    rw [ofChars, if_neg (by simpa using Ne.symm h.1), ih h.2]

/-- What is found in a template is a reading of it, also from within a placeholder: then the brace
and the name so far stand in front of what is left. -/
theorem reads_ofChars (cs : List Char) :
    Reads cs (ofChars none cs) ∧ ∀ read : List Char, '\x7d' ∉ read →
      Reads ('\x7b' :: (read.reverse ++ cs)) (ofChars (some read) cs) := by
  induction cs with
  | nil =>
    refine ⟨.nil, fun read hread => .unterminated ?_⟩
    simpa using hread
  | cons c cs ih =>
    obtain ⟨houtside, hinside⟩ := ih
    constructor
    · rw [ofChars]
      split
      · next hopen =>
        rw [beq_iff_eq.1 hopen]
        exact hinside [] List.not_mem_nil
      · next hliteral => exact .literal (by simpa using hliteral) houtside
    · intro read hread
      rw [ofChars]
      split
      · next hclose =>
        rw [beq_iff_eq.1 hclose]
        exact .placeholder (by simpa using hread) houtside
      · next hname =>
        have hlonger := hinside (c :: read)
          (List.not_mem_cons_of_ne_of_not_mem (fun h => hname (beq_iff_eq.2 h.symm)) hread)
        rwa [List.reverse_cons, List.append_assoc] at hlonger

/-- A template is read in one way. -/
theorem reads_iff {cs : List Char} {pieces : List Piece} :
    Reads cs pieces ↔ pieces = ofChars none cs := by
  constructor
  · intro h
    induction h with
    | nil => rfl
    | literal hne _ ih => rw [ofChars, if_neg (by simpa using hne), ih]
    | placeholder hname _ ih =>
      rw [ofChars, if_pos (by decide), ofChars_name hname, ih]
      rfl
    | unterminated hrest => rw [ofChars, if_pos (by decide), ofChars_unterminated hrest]
  · rintro rfl
    exact (reads_ofChars cs).1

/-! ## Filling the pieces -/

/-- The text that stands in a path for a piece of its template: a literal itself, for a placeholder
the first value of its name in percent codes. -/
inductive Fills (values : List (String × String)) : Piece → List Char → Prop
  | literal {c} : Fills values (.literal c) [c]
  | placeholder {name value} : IsFirst values (String.ofList name) value →
      Fills values (.placeholder name) (Percent.encode value).toList

/-- The complaint about a piece that cannot be filled. -/
inductive Offends (template : String) (values : List (String × String)) :
    Piece → InvalidRequest → Prop
  | unterminated : Offends template values .unterminated (.unterminatedPlaceholder template)
  | unresolved {name} : (∀ e ∈ values, e.1 ≠ String.ofList name) →
      Offends template values (.placeholder name)
        (.unresolvedParameter (String.ofList name) template)

variable {template : String} {values : List (String × String)} {piece : Piece}
  {cause : InvalidRequest}

/-- A piece that can be filled is not offending. -/
theorem Offends.not_fills (h : Offends template values piece cause) (text : List Char) :
    ¬ piece.Fills values text := by
  intro hfills
  cases h with
  | unterminated => cases hfills
  | unresolved hne =>
    cases hfills with
    | placeholder hfirst => exact hne _ hfirst.mem rfl

/-- There is a text for a piece unless it is never closed or nothing has its name. -/
theorem exists_fills_iff : (∃ text, piece.Fills values text) ↔ piece ≠ .unterminated ∧
    ∀ name, piece = .placeholder name → ∃ value, (String.ofList name, value) ∈ values := by
  constructor
  · rintro ⟨text, h⟩
    cases h with
    | literal => exact ⟨nofun, nofun⟩
    | placeholder hfirst =>
      refine ⟨nofun, fun name hname => ?_⟩
      cases hname
      exact ⟨_, hfirst.mem⟩
  · rintro ⟨hclosed, hbound⟩
    cases piece with
    | literal c => exact ⟨[c], .literal⟩
    | placeholder name =>
      obtain ⟨value, hvalue⟩ := hbound name rfl
      obtain ⟨first, hfirst⟩ := exists_isFirst hvalue
      exact ⟨_, .placeholder hfirst⟩
    | unterminated => exact absurd rfl hclosed

end Piece

/-! ## Resolving a path -/

namespace Call

variable {call : Call} {pieces : List Piece} {cause : InvalidRequest}

/-- The value of a placeholder is that of the first entry of its name. -/
theorem pathValue?_eq_some_iff {name value : String} :
    call.pathValue? name = some value ↔ IsFirst call.pathValues name value :=
  find?_eq_some_iff_isFirst

/-- A placeholder has no value when no entry has its name. -/
theorem pathValue?_eq_none_iff {name : String} :
    call.pathValue? name = none ↔ ∀ e ∈ call.pathValues, e.1 ≠ name :=
  find?_eq_none_iff_forall_ne

/-- Pieces are resolved to the texts that fill them, one after another. -/
theorem resolvePieces_eq_ok_iff {cs : List Char} :
    call.resolvePieces pieces = .ok cs ↔
      ∃ texts, List.Forall₂ (Piece.Fills call.pathValues) pieces texts ∧ cs = texts.flatten := by
  induction pieces generalizing cs with
  | nil => simp [resolvePieces, eq_comm]
  | cons piece pieces ih =>
    simp only [List.forall₂_cons_left_iff]
    cases piece with
    | literal c =>
      simp only [resolvePieces, map_eq_ok_iff, ih]
      constructor
      · rintro ⟨rest, ⟨texts, htexts, rfl⟩, rfl⟩
        exact ⟨_, ⟨[c], texts, .literal, htexts, rfl⟩, rfl⟩
      · rintro ⟨_, ⟨text, texts, htext, htexts, rfl⟩, rfl⟩
        cases htext
        exact ⟨_, ⟨texts, htexts, rfl⟩, rfl⟩
    | unterminated =>
      refine iff_of_false (fun h => by cases h) ?_
      rintro ⟨_, ⟨text, texts, htext, -⟩, -⟩
      cases htext
    | placeholder name =>
      rw [resolvePieces]
      cases hvalue : call.pathValue? (String.ofList name) with
      | none =>
        refine iff_of_false (fun h => by cases h) ?_
        rintro ⟨_, ⟨text, texts, htext, -⟩, -⟩
        cases htext with
        | placeholder hfirst => exact pathValue?_eq_none_iff.1 hvalue _ hfirst.mem rfl
      | some value =>
        have hfirst := pathValue?_eq_some_iff.1 hvalue
        simp only [map_eq_ok_iff, ih]
        constructor
        · rintro ⟨rest, ⟨texts, htexts, rfl⟩, rfl⟩
          exact ⟨_, ⟨_, texts, .placeholder hfirst, htexts, rfl⟩, rfl⟩
        · rintro ⟨_, ⟨text, texts, htext, htexts, rfl⟩, rfl⟩
          cases htext with
          | placeholder hfirst' =>
            obtain rfl := hfirst.unique hfirst'
            exact ⟨_, ⟨texts, htexts, rfl⟩, rfl⟩

/-- Pieces are not resolved because of the first offending one. -/
theorem resolvePieces_eq_error_iff :
    call.resolvePieces pieces = .error cause ↔
      ∃ front piece back, pieces = front ++ piece :: back ∧
        (∀ p ∈ front, ∃ text, p.Fills call.pathValues text) ∧
        piece.Offends call.template call.pathValues cause := by
  induction pieces with
  | nil => simp [resolvePieces]
  | cons piece pieces ih =>
    -- The first offending piece of all is this one, or it can be filled and the first offending
    -- piece is that of the rest.
    have hcons : (∃ front p back, piece :: pieces = front ++ p :: back ∧
          (∀ q ∈ front, ∃ text, q.Fills call.pathValues text) ∧
          p.Offends call.template call.pathValues cause) ↔
        piece.Offends call.template call.pathValues cause ∨
          (∃ text, piece.Fills call.pathValues text) ∧
            call.resolvePieces pieces = .error cause := by
      rw [ih]
      constructor
      · rintro ⟨front, p, back, heq, hfront, hp⟩
        cases front with
        | nil =>
          cases heq
          exact .inl hp
        | cons first front =>
          cases heq
          obtain ⟨hfirst, hfront⟩ := List.forall_mem_cons.1 hfront
          exact .inr ⟨hfirst, front, p, back, rfl, hfront, hp⟩
      · rintro (hp | ⟨hpiece, front, p, back, rfl, hfront, hp⟩)
        · exact ⟨[], piece, pieces, rfl, List.forall_mem_nil _, hp⟩
        · exact ⟨piece :: front, p, back, rfl, List.forall_mem_cons.2 ⟨hpiece, hfront⟩, hp⟩
    rw [hcons]
    cases piece with
    | literal c =>
      rw [resolvePieces, map_eq_error_iff]
      constructor
      · exact fun h => .inr ⟨⟨[c], .literal⟩, h⟩
      · rintro (h | ⟨-, h⟩)
        · cases h
        · exact h
    | unterminated =>
      constructor
      · intro h
        cases h
        exact .inl .unterminated
      · rintro (h | ⟨⟨text, htext⟩, -⟩)
        · cases h
          rfl
        · cases htext
    | placeholder name =>
      rw [resolvePieces]
      cases hvalue : call.pathValue? (String.ofList name) with
      | none =>
        have hoffends : (Piece.placeholder name).Offends call.template call.pathValues _ :=
          .unresolved (pathValue?_eq_none_iff.1 hvalue)
        constructor
        · intro h
          cases h
          exact .inl hoffends
        · rintro (h | ⟨⟨text, htext⟩, -⟩)
          · cases h
            rfl
          · exact absurd htext (hoffends.not_fills text)
      | some value =>
        have hfills := Piece.Fills.placeholder (pathValue?_eq_some_iff.1 hvalue)
        simp only [map_eq_error_iff]
        constructor
        · exact fun h => .inr ⟨⟨_, hfills⟩, h⟩
        · rintro (h | ⟨-, h⟩)
          · exact absurd hfills (h.not_fills _)
          · exact h

/-- Calls that give the same values to the placeholders of their pieces resolve them alike. -/
theorem resolvePieces_congr {other : Call} (htemplate : other.template = call.template)
    (hvalues : ∀ name, .placeholder name ∈ pieces →
      other.pathValue? (String.ofList name) = call.pathValue? (String.ofList name)) :
    other.resolvePieces pieces = call.resolvePieces pieces := by
  induction pieces with
  | nil => rfl
  | cons piece pieces ih =>
    have hrest := ih fun name hname => hvalues name (.tail _ hname)
    cases piece with
    | literal c => rw [resolvePieces, resolvePieces, hrest]
    | unterminated => rw [resolvePieces, resolvePieces, htemplate]
    | placeholder name =>
      rw [resolvePieces, resolvePieces, hvalues name (.head _), htemplate, hrest]

/-- A value of which a template has no use, or after another of the same name, has no effect. -/
theorem resolvePieces_leave_out {before after : List (String × String)}
    {entry : String × String} (hsplit : call.pathValues = before ++ entry :: after)
    (h : .placeholder entry.1.toList ∉ pieces ∨ ∃ earlier ∈ before, earlier.1 = entry.1) :
    { call with pathValues := before ++ after }.resolvePieces pieces =
      call.resolvePieces pieces := by
  refine resolvePieces_congr rfl fun name hname => ?_
  have hentry : entry.1 ≠ String.ofList name ∨ ∃ earlier ∈ before, earlier.1 = entry.1 := by
    refine h.imp_left fun hunused heq => hunused ?_
    rwa [heq, String.toList_ofList]
  rw [pathValue?, pathValue?, hsplit]
  exact congrArg (Option.map _) (find?_leave_out hentry).symm

/-- A path is resolved to the texts that fill the pieces of its template. -/
theorem resolve_eq_ok_iff (hreads : Piece.Reads call.template.toList pieces) {path : String} :
    call.resolve = .ok path ↔
      ∃ texts, List.Forall₂ (Piece.Fills call.pathValues) pieces texts ∧
        path = String.ofList texts.flatten := by
  rw [resolve, ← Piece.reads_iff.1 hreads, map_eq_ok_iff]
  simp only [resolvePieces_eq_ok_iff]
  constructor
  · rintro ⟨_, ⟨texts, htexts, rfl⟩, rfl⟩
    exact ⟨texts, htexts, rfl⟩
  · rintro ⟨texts, htexts, rfl⟩
    exact ⟨_, ⟨texts, htexts, rfl⟩, rfl⟩

/-- A path is resolved exactly when every brace of its template is closed and every placeholder is
the name of some value. -/
theorem exists_resolve_eq_ok_iff (hreads : Piece.Reads call.template.toList pieces) :
    (∃ path, call.resolve = .ok path) ↔
      .unterminated ∉ pieces ∧
        ∀ name, .placeholder name ∈ pieces →
          ∃ value, (String.ofList name, value) ∈ call.pathValues := by
  have htexts : (∃ path, call.resolve = .ok path) ↔
      ∃ texts, List.Forall₂ (Piece.Fills call.pathValues) pieces texts := by
    simp only [resolve_eq_ok_iff hreads]
    exact ⟨fun ⟨_, texts, htexts, _⟩ => ⟨texts, htexts⟩,
      fun ⟨texts, htexts⟩ => ⟨_, texts, htexts, rfl⟩⟩
  rw [htexts, exists_forall₂_iff]
  simp only [Piece.exists_fills_iff]
  constructor
  · intro h
    exact ⟨fun hmem => (h _ hmem).1 rfl, fun name hmem => (h _ hmem).2 name rfl⟩
  · rintro ⟨hclosed, hbound⟩ piece hpiece
    exact ⟨fun heq => hclosed (heq ▸ hpiece), fun name heq => hbound name (heq ▸ hpiece)⟩

end Call

/-- There is one way to read the template of a call. Its path is resolved exactly when every brace
is closed and every placeholder is the name of some value, and then it is the texts that fill the
pieces. Otherwise the complaint is that about the first offending piece. Values that the template
does not name, or that come after another of the same name, have no effect. -/
theorem resolve_fills_template (call : Call) :
    ∃ pieces, (∀ pieces', Piece.Reads call.template.toList pieces' ↔ pieces' = pieces) ∧
      ((∃ path, call.resolve = .ok path) ↔
        .unterminated ∉ pieces ∧
          ∀ name, .placeholder name ∈ pieces →
            ∃ value, (String.ofList name, value) ∈ call.pathValues) ∧
      (∀ path, call.resolve = .ok path ↔
        ∃ texts, List.Forall₂ (Piece.Fills call.pathValues) pieces texts ∧
          path = String.ofList texts.flatten) ∧
      (∀ cause, call.resolve = .error cause ↔
        ∃ front piece back, pieces = front ++ piece :: back ∧
          (∀ p ∈ front, ∃ text, p.Fills call.pathValues text) ∧
          piece.Offends call.template call.pathValues cause) ∧
      ∀ before entry after, call.pathValues = before ++ entry :: after →
        .placeholder entry.1.toList ∉ pieces ∨ (∃ earlier ∈ before, earlier.1 = entry.1) →
        { call with pathValues := before ++ after }.resolve = call.resolve := by
  have hreads : Piece.Reads call.template.toList _ := Piece.reads_iff.2 rfl
  refine ⟨_, fun _ => Piece.reads_iff, Call.exists_resolve_eq_ok_iff hreads,
    fun _ => Call.resolve_eq_ok_iff hreads, fun cause => ?_, fun before entry after hsplit h => ?_⟩
  · rw [Call.resolve, map_eq_error_iff, Call.resolvePieces_eq_error_iff]
  · exact congrArg (Except.map String.ofList) (Call.resolvePieces_leave_out hsplit h)

/-- An unbound placeholder is what is wrong with a template whose last brace is not closed either;
the one before it is bound, and contains a brace. -/
theorem unbound_outweighs_unterminated :
    let call : Call := {
      method := "GET"
      template := "/\x7d\x7bx\x7by\x7d/\x7bid\x7d/\x7bx"
      pathValues := [("x\x7by", "1"), ("x", "2"), ("x\x7by", "3")] }
    call.resolve = .error (.unresolvedParameter "id" call.template) := by
  intro call
  obtain ⟨pieces, hreads, -, -, herror, -⟩ := resolve_fills_template call
  have hpieces : pieces = [.literal '/', .literal '\x7d', .placeholder "x\x7by".toList,
      .literal '/', .placeholder "id".toList, .literal '/', .unterminated] :=
    ((hreads _).1 (Piece.reads_iff.2 (by decide))).symm
  refine (herror _).2 ⟨[.literal '/', .literal '\x7d', .placeholder "x\x7by".toList, .literal '/'],
    .placeholder "id".toList, [.literal '/', .unterminated], hpieces, ?_, .unresolved (by decide)⟩
  have hfirst : IsFirst call.pathValues "x\x7by" "1" := ⟨[], _, rfl, nofun⟩
  simp only [List.forall_mem_cons]
  exact ⟨⟨_, .literal⟩, ⟨_, .literal⟩, ⟨_, .placeholder hfirst⟩, ⟨_, .literal⟩, nofun⟩

end FinanceGateway
