import FinanceGateway.App.Form
import FinanceGateway.Http.Outgoing
import FinanceGateway.Proofs.Text.Utf8

/-!
# Forms that are sent can be read

A form travels as bytes between lines with a boundary. `ToldPart.readForm?` reads such bytes: of
each part the name, the file name, the content type and the data. It follows the rules for forms and
not how `Payload.body` writes them, and finds the parts that were written, in their order, with
their data as they are (`ToldPart.readForm?_body`), as long as the boundary is nowhere in the data
(`Separates`). A file name comes back whatever characters it has: those that would end it or break
the line stand after a backslash.
-/

namespace FinanceGateway

/-- A part of a form, as its bytes tell it. -/
structure ToldPart where
  name : String
  fileName : Option String := none
  contentType : Option String := none
  data : Bytes
  deriving Repr, DecidableEq

/-- A text as a part. -/
def ToldPart.ofText (name text : String) : ToldPart :=
  { name, data := Utf8.encode text }

/-- What a part tells. -/
def Part.told (p : Part) : ToldPart :=
  ⟨p.name, p.fileName, p.contentType.map Mime.text, p.data⟩

namespace ToldPart

/-- What follows a text with which some bytes begin. -/
def after? (text : String) (bytes : Bytes) : Option Bytes :=
  bytes.dropPrefix? (Utf8.encode text)

/-- The bytes up to the closing quote, and what follows it; after a backslash a byte stands for
itself. -/
def unquote? : Bytes → Option (Bytes × Bytes)
  | [] => none
  | 0x22 :: rest => some ([], rest)
  | 0x5C :: b :: rest => (unquote? rest).map fun (value, after) => (b :: value, after)
  | b :: rest => (unquote? rest).map fun (value, after) => (b :: value, after)

/-- The text from a mark to the closing quote, and what follows it. -/
def quoted? (mark : String) (bytes : Bytes) : Option (String × Bytes) := do
  let (value, rest) ← unquote? (← after? mark bytes)
  some (← Utf8.decode? value, rest)

/-- The part after a boundary, and what follows the next one. -/
def read? (boundary : String) (bytes : Bytes) : Option (ToldPart × Bytes) := do
  let rest ← after? "Content-Disposition: form-data; " (← after? "\r\n" bytes)
  let (name, rest) ← quoted? "name=\"" rest
  let (fileName, rest) := match quoted? "; filename=\"" rest with
    | some (fileName, rest) => (some fileName, rest)
    | none => (none, rest)
  let (contentType, rest) := match after? "\r\nContent-Type: " rest with
    | some rest => (Utf8.decode? (rest.takeWhile (· != 0x0D)), rest.dropWhile (· != 0x0D))
    | none => (none, rest)
  let (data, rest) ←
    FormPart.splitAt? (Utf8.encode ("\r\n--" ++ boundary)) (← after? "\r\n\r\n" rest)
  some (⟨name, fileName, contentType, data⟩, rest)

/-- The parts after a boundary, the last of which is followed by the end of the form. -/
def readMore? (boundary : String) : Nat → Bytes → Option (List ToldPart)
  | 0, _ => none
  | fuel + 1, bytes =>
    if bytes = Utf8.encode "--\r\n" then some []
    else do
      let (part, rest) ← read? boundary bytes
      let others ← readMore? boundary fuel rest
      some (part :: others)

/-- The parts of a form. -/
def readForm? (boundary : String) (body : Bytes) : Option (List ToldPart) := do
  let rest ← after? ("--" ++ boundary) body
  readMore? boundary (rest.length + 1) rest

/-- A boundary keeps the parts of a form apart: there is no line break in it, and it follows none in
their data. -/
structure Separates (boundary : String) (parts : List ToldPart) : Prop where
  line : 0x0D ∉ Utf8.encode boundary
  data : ∀ p ∈ parts, ¬ Utf8.encode ("\r\n--" ++ boundary) <:+: p.data

end ToldPart

/-- A payload conveys parts: it is a form, and as such holds just these, which are also what its
bytes are read as, whatever boundary keeps them apart. -/
structure Payload.Conveys (payload : Payload) (told : List ToldPart) : Prop where
  form : ∃ parts, payload = .form parts ∧ parts.map Part.told = told
  read : ∀ boundary, ToldPart.Separates boundary told →
    ToldPart.readForm? boundary (payload.body boundary) = some told

namespace ToldPart

/-! ## What is searched for -/

/-- What a text is followed by is found after it. -/
theorem after?_append (text : String) (rest : Bytes) :
    after? text (Utf8.encode text ++ rest) = some rest :=
  List.dropPrefix?_eq_some_iff.2 ⟨_, rfl, beq_self_eq_true _⟩

/-- Bytes that begin otherwise do not begin with a text. -/
theorem after?_eq_none {text : String} (start : Bytes) {more : Bytes} {c b : UInt8}
    (htext : Utf8.encode text = start ++ c :: more) (hne : c ≠ b) (rest : Bytes) :
    after? text (start ++ b :: rest) = none := by
  rw [after?, Option.eq_none_iff_forall_ne_some]
  intro found hfound
  obtain ⟨text', heq, htext'⟩ := List.dropPrefix?_eq_some_iff.1 hfound
  rw [eq_of_beq htext', htext, List.append_assoc, List.append_cancel_left_eq, List.cons_append,
    List.cons.injEq] at heq
  exact hne heq.1.symm

end ToldPart

/-- A pattern whose first byte is only there is found where it first stands. -/
theorem FormPart.splitAt?_append {c : UInt8} {more front : Bytes} (hc : c ∉ more)
    (hfront : ¬ c :: more <:+: front) (rest : Bytes) :
    splitAt? (c :: more) (front ++ (c :: more ++ rest)) = some (front, rest) := by
  induction front with
  | nil =>
    have hhere : (c :: more).isPrefixOf (c :: (more ++ rest)) = true :=
      List.isPrefixOf_iff_prefix.2 (List.prefix_append (c :: more) rest)
    rw [List.nil_append, List.cons_append, splitAt?, if_pos hhere]
    simp
  | cons b front ih =>
    have hnot : ¬ (c :: more).isPrefixOf (b :: (front ++ (c :: more ++ rest))) = true := by
      rw [List.isPrefixOf_iff_prefix, List.cons_prefix_cons]
      rintro ⟨rfl, hmore⟩
      rcases List.prefix_or_prefix_of_prefix hmore (List.prefix_append front _) with h | h
      · exact hfront (List.cons_prefix_cons.2 ⟨rfl, h⟩).isInfix
      · obtain ⟨left, rfl⟩ := h
        rw [List.prefix_append_right_inj] at hmore
        cases left with
        | nil => exact hfront ⟨[], [], by simp⟩
        | cons d left =>
          rw [List.cons_append, List.cons_prefix_cons] at hmore
          exact hc (by rw [hmore.1]; simp)
    rw [List.cons_append, splitAt?, if_neg hnot,
      ih fun h => hfront (h.trans (List.suffix_cons b front).isInfix)]
    rfl

namespace ToldPart

/-! ## Quotes -/

/-- Bytes that are neither quotes nor backslashes stand for themselves. -/
theorem unquote?_append {value : Bytes} (h : ∀ b ∈ value, b ≠ 0x22 ∧ b ≠ 0x5C) (rest : Bytes) :
    unquote? (value ++ rest) =
      (unquote? rest).map fun (found, after) => (value ++ found, after) := by
  induction value with
  | nil => cases hrest : unquote? rest <;> simp [hrest]
  | cons b value ih =>
    obtain ⟨hquote, hbackslash⟩ := h b (.head _)
    rw [List.cons_append, unquote?, ih fun d hd => h d (.tail _ hd), Option.map_map]
    · rfl
    · exact hquote
    · rintro _ _ rfl
      exact absurd rfl hbackslash

/-- A character of a file name is read from what is written for it. -/
theorem unquote?_fileNameChar (c : Char) (rest : Bytes) :
    unquote? (Utf8.encode (String.ofList (Part.fileNameChar c)) ++ rest) =
      (unquote? rest).map fun (found, after) => (String.utf8EncodeChar c ++ found, after) := by
  rw [Part.fileNameChar]
  split
  · next hspecial =>
    simp only [Bool.or_eq_true, beq_iff_eq] at hspecial
    rcases hspecial with ((rfl | rfl) | rfl) | rfl <;> rfl
  · next hplain =>
    simp only [Bool.or_eq_true, beq_iff_eq, not_or] at hplain
    rw [Utf8.encode_ofList, List.flatMap_singleton]
    refine unquote?_append (fun b hb => ⟨?_, ?_⟩) rest
    · rintro rfl
      exact hplain.1.1.2 (Utf8.eq_of_mem_utf8EncodeChar hb (by decide))
    · rintro rfl
      exact hplain.1.1.1 (Utf8.eq_of_mem_utf8EncodeChar hb (by decide))

/-- A file name is read from what is written for it. -/
theorem unquote?_fileName (cs : List Char) (rest : Bytes) :
    unquote? (Utf8.encode (String.ofList (cs.flatMap Part.fileNameChar)) ++ 0x22 :: rest) =
      some (Utf8.encode (String.ofList cs), rest) := by
  induction cs with
  | nil => rfl
  | cons c cs ih =>
    rw [List.flatMap_cons, String.ofList_append, Utf8.encode_append, List.append_assoc,
      unquote?_fileNameChar, ih, Utf8.encode_ofList (c :: cs), List.flatMap_cons,
      ← Utf8.encode_ofList]
    rfl

/-- A text between quotes is found after its mark. -/
theorem quoted?_append (mark : String) {value : String} {written rest : Bytes}
    (h : unquote? (written ++ 0x22 :: rest) = some (Utf8.encode value, rest)) :
    quoted? mark (Utf8.encode mark ++ (written ++ 0x22 :: rest)) =
      some (value, rest) := by
  rw [quoted?, after?_append]
  simp only [Option.bind_eq_bind, Option.bind_some, h, Utf8.decode?_encode]

end ToldPart

/-! ## Parts -/

namespace Part

variable {p : Part} {boundary : String}

/-- A part whose headers are told as they are: its name needs no codes, and there is no line break
in its content type. -/
structure IsPlain (p : Part) : Prop where
  name : ∀ b ∈ Utf8.encode p.name, keptInName b = true ∧ b ≠ 0x5C
  contentType : ∀ m, p.contentType = some m → '\r' ∉ m.text.toList

/-- The bytes of the file name of a part. -/
def fileNameBytes (p : Part) : Bytes :=
  match p.fileName with
  | some f => Utf8.encode "; filename=\"" ++
      (Utf8.encode (String.ofList (f.toList.flatMap fileNameChar)) ++ [0x22])
  | none => []

/-- The bytes of the content type of a part. -/
def contentTypeBytes (p : Part) : Bytes :=
  match p.contentType with
  | some m => Utf8.encode "\r\nContent-Type: " ++ Utf8.encode m.text
  | none => []

/-- The bytes of a part whose name needs no codes, one header after the other. -/
theorem bytes_eq (h : p.IsPlain) : p.bytes boundary =
    Utf8.encode ("--" ++ boundary) ++ (Utf8.encode "\r\n" ++
      (Utf8.encode "Content-Disposition: form-data; " ++ (Utf8.encode "name=\"" ++
        (Utf8.encode p.name ++ 0x22 :: (p.fileNameBytes ++ (p.contentTypeBytes ++
          (Utf8.encode "\r\n\r\n" ++ (p.data ++ Utf8.encode "\r\n")))))))) := by
  have hname : (Utf8.encode p.name).all keptInName = true :=
    List.all_eq_true.2 fun b hb => (h.name b hb).1
  have hquote (cs : List Char) :
      Utf8.encode (String.ofList ('"' :: cs)) = 0x22 :: Utf8.encode (String.ofList cs) := by
    rw [Utf8.encode_ofList, Utf8.encode_ofList]
    rfl
  have hempty : Utf8.encode (String.ofList []) = [] := rfl
  unfold bytes headerChars nameChars fileNameBytes contentTypeBytes
  rw [if_pos hname]
  cases p.fileName <;> cases p.contentType <;>
    simp only [String.ofList_append, String.ofList_toList, Utf8.encode_append, hquote, hempty,
      List.append_assoc, List.cons_append, List.nil_append, List.append_nil]

end Part

namespace ToldPart

variable {p : Part} {boundary : String}

/-- The name of a part is read up to its quote. -/
theorem quoted?_name (h : p.IsPlain) (rest : Bytes) :
    quoted? "name=\"" (Utf8.encode "name=\"" ++ (Utf8.encode p.name ++ 0x22 :: rest)) =
      some (p.name, rest) := by
  refine quoted?_append _ ?_
  rw [unquote?_append fun b hb => ⟨?_, (h.name b hb).2⟩]
  · simp [unquote?]
  · rintro rfl
    exact absurd (h.name _ hb).1 (by decide)

/-- Nothing of a line that ends a header is taken for a file name or a content type. -/
theorem quoted?_fileNameBytes (p : Part) {rest : Bytes} (hrest : rest.head? = some 0x0D) :
    (match quoted? "; filename=\"" (p.fileNameBytes ++ rest) with
      | some (fileName, rest) => (some fileName, rest)
      | none => (none, p.fileNameBytes ++ rest)) = (p.fileName, rest) := by
  unfold Part.fileNameBytes
  cases p.fileName with
  | none =>
    obtain ⟨more, rfl⟩ := List.head?_eq_some_iff.1 hrest
    have hnone : after? "; filename=\"" (0x0D :: more) = none :=
      after?_eq_none [] (c := 0x3B) rfl (by decide) more
    rw [List.nil_append, quoted?, hnone]
    rfl
  | some f =>
    have hread := quoted?_append "; filename=\"" (unquote?_fileName f.toList rest)
    rw [String.ofList_toList] at hread
    simp only [List.append_assoc, List.singleton_append, hread]

/-- The content type of a part is read up to the end of its line. -/
theorem after?_contentTypeBytes {p : Part}
    (h : ∀ m, p.contentType = some m → '\r' ∉ m.text.toList) (rest : Bytes) :
    (match after? "\r\nContent-Type: " (p.contentTypeBytes ++ (Utf8.encode "\r\n\r\n" ++ rest)) with
      | some rest => (Utf8.decode? (rest.takeWhile (· != 0x0D)), rest.dropWhile (· != 0x0D))
      | none => (none, p.contentTypeBytes ++ (Utf8.encode "\r\n\r\n" ++ rest))) =
      (p.contentType.map Mime.text, Utf8.encode "\r\n\r\n" ++ rest) := by
  unfold Part.contentTypeBytes
  cases htype : p.contentType with
  | none =>
    have hnone : after? "\r\nContent-Type: " (Utf8.encode "\r\n\r\n" ++ rest) = none :=
      after?_eq_none [0x0D, 0x0A] (c := 0x43) (b := 0x0D) rfl (by decide) (0x0A :: rest)
    rw [List.nil_append, hnone]
    rfl
  | some m =>
    have hline : ∀ b ∈ Utf8.encode m.text, (b != 0x0D) = true := by
      intro b hb
      rw [bne_iff_ne]
      rintro rfl
      exact h m htype (Utf8.mem_of_mem_encode hb (by decide))
    have hend : Utf8.encode "\r\n\r\n" = [0x0D, 0x0A, 0x0D, 0x0A] := rfl
    simp only [List.append_assoc, after?_append]
    rw [List.takeWhile_append_of_pos hline, List.dropWhile_append_of_pos hline, hend]
    simp [Utf8.decode?_encode]

/-- A part is read after a boundary, up to the next one. -/
theorem read?_bytes (h : p.IsPlain) (hline : 0x0D ∉ Utf8.encode boundary)
    (hdata : ¬ Utf8.encode ("\r\n--" ++ boundary) <:+: p.data) (rest : Bytes) :
    ∃ written, p.bytes boundary = Utf8.encode ("--" ++ boundary) ++ written ∧
      read? boundary (written ++ (Utf8.encode ("--" ++ boundary) ++ rest)) =
        some (p.told, rest) := by
  refine ⟨_, Part.bytes_eq h, ?_⟩
  have hnext : Utf8.encode ("\r\n--" ++ boundary) =
      0x0D :: (0x0A :: 0x2D :: 0x2D :: Utf8.encode boundary) := by
    rw [Utf8.encode_append]
    rfl
  have hjoined : Utf8.encode "\r\n" ++ (Utf8.encode ("--" ++ boundary) ++ rest) =
      0x0D :: (0x0A :: 0x2D :: 0x2D :: Utf8.encode boundary) ++ rest := by
    rw [Utf8.encode_append]
    rfl
  have hsplit : FormPart.splitAt? (Utf8.encode ("\r\n--" ++ boundary))
      (p.data ++ (Utf8.encode "\r\n" ++ (Utf8.encode ("--" ++ boundary) ++ rest))) =
        some (p.data, rest) := by
    rw [hnext] at hdata ⊢
    rw [hjoined]
    exact FormPart.splitAt?_append (by simp [hline]) hdata rest
  have hhead (bytes : Bytes) :
      (p.contentTypeBytes ++ (Utf8.encode "\r\n\r\n" ++ bytes)).head? = some 0x0D := by
    unfold Part.contentTypeBytes
    cases p.contentType <;> rfl
  simp only [List.append_assoc, List.cons_append]
  rw [read?, after?_append, Option.bind_eq_bind, Option.bind_some, after?_append]
  simp only [Option.bind_eq_bind, Option.bind_some, quoted?_name h,
    quoted?_fileNameBytes p (hhead _), after?_contentTypeBytes h.contentType, after?_append, hsplit]
  rfl

/-- The parts that follow a boundary are read. -/
theorem readMore?_body {parts : List Part} (hplain : ∀ p ∈ parts, p.IsPlain)
    (h : Separates boundary (parts.map Part.told)) :
    ∃ written, Payload.body boundary (.form parts) = Utf8.encode ("--" ++ boundary) ++ written ∧
      parts.length ≤ written.length ∧
      ∀ fuel, parts.length < fuel →
        readMore? boundary fuel written = some (parts.map Part.told) := by
  induction parts with
  | nil =>
    refine ⟨Utf8.encode "--\r\n", ?_, Nat.zero_le _, ?_⟩
    · rw [Payload.body, Utf8.encode_append]
      rfl
    · rintro (- | fuel) hfuel
      · cases hfuel
      · rw [readMore?, if_pos rfl]
        rfl
  | cons p parts ih =>
    obtain ⟨rest, hrest, hlength, hmore⟩ := ih (fun q hq => hplain q (.tail _ hq))
      ⟨h.line, fun q hq => h.data q (.tail _ hq)⟩
    obtain ⟨written, hwritten, hread⟩ :=
      read?_bytes (hplain p (.head _)) h.line (h.data p.told (.head _)) rest
    refine ⟨written ++ (Utf8.encode ("--" ++ boundary) ++ rest), ?_, ?_, ?_⟩
    · rw [Payload.body] at hrest ⊢
      rw [List.flatMap_cons, List.append_assoc, hrest, hwritten, List.append_assoc]
    · have hdelimiter : (Utf8.encode ("--" ++ boundary)).length ≠ 0 := by
        rw [Utf8.encode_append]
        exact nofun
      simp only [List.length_append, List.length_cons]
      omega
    · rintro (- | fuel) hfuel
      · cases hfuel
      · -- The end of a form is no part.
        have hend : ¬ written ++ (Utf8.encode ("--" ++ boundary) ++ rest) =
            Utf8.encode "--\r\n" := by
          intro heq
          have hnone : after? "\r\n" (Utf8.encode "--\r\n") = none :=
            after?_eq_none [] (c := 0x0D) rfl (by decide) _
          rw [heq, read?, hnone] at hread
          cases hread
        rw [readMore?, if_neg hend, hread]
        simp only [Option.bind_eq_bind, Option.bind_some,
          hmore fuel (Nat.lt_of_succ_lt_succ hfuel)]
        rfl

/-- A form is read as the parts that it was written from, in their order. -/
theorem readForm?_body {parts : List Part} (hplain : ∀ p ∈ parts, p.IsPlain)
    (h : Separates boundary (parts.map Part.told)) :
    readForm? boundary (Payload.body boundary (.form parts)) = some (parts.map Part.told) := by
  obtain ⟨written, hbody, hlength, hread⟩ := readMore?_body hplain h
  rw [readForm?, hbody, after?_append]
  exact hread _ (Nat.lt_succ_of_le hlength)

end ToldPart

/-- A form conveys what its parts tell. -/
theorem Payload.conveys_form {parts : List Part} (hplain : ∀ p ∈ parts, p.IsPlain) :
    (Payload.form parts).Conveys (parts.map Part.told) :=
  ⟨⟨parts, rfl, rfl⟩, fun _ h => ToldPart.readForm?_body hplain h⟩

end FinanceGateway
