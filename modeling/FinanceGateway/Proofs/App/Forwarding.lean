import FinanceGateway.Proofs.App.Upload
import FinanceGateway.Proofs.Http.Multipart

/-!
# Uploads are forwarded as they came

What becomes of the parts of an upload is said without the handlers: `BecomesStatement` and
`BecomesReceipt` give the form that goes on to the backend, part by part. A field of a call goes as
a part that tells what it holds (`FormField.Tells`), so that a service which sends a form conveys it
(`Service.IsUpload.onlySends`). The main statement, `App.uploads_are_forwarded_as_they_came`, is
that the endpoints of statements and receipts send these forms and nothing else. The texts of a
statement are never blank but for its name, which may be that of its file
(`App.forwarded_texts_are_not_blank_but_own_name`).
-/

namespace FinanceGateway

/-! ## What becomes of an upload -/

/-- The name that a statement goes by: the text given for it, trimmed, unless that is blank, and
else the name that its file came with. -/
inductive NamesUpload (others : Charset.Others) (parts : List FormPart) (file : FormPart) :
    String → Prop
  | given {part name} : part ∈ FormPart.last? parts false "file_name" →
      Text.isBlank (part.text others) = false → Text.Trims (part.text others) name →
        NamesUpload others parts file name
  | own {name} : ¬ HasText others parts "file_name" → file.fileName = some name →
      NamesUpload others parts file name

/-- A text that counts goes on trimmed. -/
inductive BecomesText (others : Charset.Others) (parts : List FormPart) (name : String) :
    ToldPart → Prop
  | intro {part text} : part ∈ FormPart.last? parts false name →
      Text.Trims (part.text others) text → BecomesText others parts name (.ofText name text)

/-- What goes on of a statement: the file that counts, with its data and content type as they came,
then the texts that count, and last the name that the file goes by too. -/
inductive BecomesStatement (others : Charset.Others) (parts : List FormPart) :
    List ToldPart → Prop
  | intro {file name start finish account user} :
      file ∈ FormPart.last? parts true "statement" → NamesUpload others parts file name →
      BecomesText others parts "statement_period_start" start →
      BecomesText others parts "statement_period_end" finish →
      BecomesText others parts "account_id" account → BecomesText others parts "user_id" user →
      BecomesStatement others parts [
        ⟨"statement", some name, file.contentType.map Mime.text, file.data⟩,
        start, finish, account, user, .ofText "file_name" name]

/-- What goes on of a receipt: the image that counts, as it came. -/
inductive BecomesReceipt (parts : List FormPart) : List ToldPart → Prop
  | intro {image} : image ∈ FormPart.last? parts true "image" →
      BecomesReceipt parts
        [⟨"image", image.fileName, image.contentType.map Mime.text, image.data⟩]

/-! ## Forms as payloads -/

/-- A field that goes as a part with a plain name, which tells what is expected. -/
def FormField.Tells (field : FormField) (told : ToldPart) : Prop :=
  ∃ part, Call.formPart field = .ok part ∧ part.IsPlain ∧ part.told = told

/-- A text tells itself. -/
theorem FormField.tells_text {name : String} (text : String)
    (hname : ∀ b ∈ Utf8.encode name, Part.keptInName b = true ∧ b ≠ 0x5C) :
    FormField.Tells ⟨name, .text text⟩ (.ofText name text) :=
  ⟨_, rfl, ⟨hname, nofun⟩, rfl⟩

/-- A file tells its content type as it was written, if that has been read. -/
theorem FormField.tells_file {name : String} (data : Bytes) (fileName : Option String)
    {type : Option Mime} (htype : ∀ m, type = some m → ∃ s, Mime.parse? s = some m)
    (hname : ∀ b ∈ Utf8.encode name, Part.keptInName b = true ∧ b ≠ 0x5C) :
    FormField.Tells ⟨name, .file data fileName (type.map Mime.text)⟩
      ⟨name, fileName, type.map Mime.text, data⟩ := by
  cases type with
  | none => exact ⟨_, rfl, ⟨hname, nofun⟩, rfl⟩
  | some m =>
    obtain ⟨s, hs⟩ := htype m rfl
    obtain ⟨hshown, htext⟩ := Mime.parse?_text hs
    refine ⟨⟨name, fileName, some m.shown, data⟩, ?_, ⟨hname, ?_⟩, ?_⟩
    · simp [Call.formPart, hshown]
    · rintro _ ⟨⟩
      exact Mime.return_not_mem_text hshown
    · simp [Part.told, htext]

/-- A field that tells something is not mistyped. -/
theorem isMistyped_eq_false {fields : List FormField} {told : List ToldPart}
    (h : List.Forall₂ FormField.Tells fields told) :
    ∀ field ∈ fields, field.isMistyped = false := by
  induction h with
  | nil => exact nofun
  | cons hfield _ ih =>
    obtain ⟨part, hpart, -, -⟩ := hfield
    refine List.forall_mem_cons.2 ⟨Bool.eq_false_iff.2 fun hmistyped => ?_, ih⟩
    cases hpart.symm.trans (Call.formPart_eq_error_iff.2 ⟨hmistyped, rfl⟩)

/-- The parts of a form tell what its fields tell. -/
theorem exists_formParts {fields : List FormField} {told : List ToldPart}
    (h : List.Forall₂ FormField.Tells fields told) :
    ∃ parts, Call.formParts fields = .ok parts ∧ (Payload.form parts).Conveys told := by
  suffices ∃ parts, Call.formParts fields = .ok parts ∧ (∀ p ∈ parts, p.IsPlain) ∧
      parts.map Part.told = told by
    obtain ⟨parts, hparts, hplain, rfl⟩ := this
    exact ⟨parts, hparts, Payload.conveys_form hplain⟩
  induction h with
  | nil => exact ⟨[], rfl, nofun, rfl⟩
  | cons hfield _ ih =>
    obtain ⟨part, hpart, hplain, rfl⟩ := hfield
    obtain ⟨parts, hparts, hplains, rfl⟩ := ih
    refine ⟨part :: parts, ?_, List.forall_mem_cons.2 ⟨hplain, hplains⟩, rfl⟩
    rw [Call.formParts, hpart, hparts]
    rfl

/-- A service that sends a form sends what its fields tell. -/
theorem Service.IsUpload.onlySends {s : Service} {path base : String} {fields : List FormField}
    {provider : Option Provider} {told : List ToldPart} (h : s.IsUpload path fields)
    (hfields : List.Forall₂ FormField.Tells fields told) :
    (s.execute base provider).OnlySends fun out => out.payload.Conveys told := by
  obtain ⟨call, hcall, -, -, -, hbody⟩ := h
  obtain ⟨parts, hparts, hconveys⟩ := exists_formParts hfields
  refine Service.execute_onlySends fun call' path' token out hcall' _ _ hrequest _ => ?_
  obtain rfl : call = call' := Except.ok.inj (hcall.symm.trans hcall')
  obtain ⟨payload, url, hpayload, -, -, rfl⟩ := Call.request_eq_ok_iff.1 hrequest
  rw [Call.payload, hbody] at hpayload
  dsimp only at hpayload
  rw [hparts] at hpayload
  cases hpayload
  exact hconveys

/-! ## Statements and receipts -/

/-- The content type of a part that counts has been read. -/
theorem FormPart.exists_parse?_of_last? {boundary : String} {body : Bytes} {parts : List FormPart}
    {part : FormPart} {isFile : Bool} {name : String} (hread : readParts boundary body = some parts)
    (h : last? parts isFile name = some part) :
    ∀ m, part.contentType = some m → ∃ s, Mime.parse? s = some m := fun _ =>
  exists_parse?_of_mem_readParts hread (mem_of_last? h)

variable {others : Charset.Others} {parts : List FormPart} {boundary : String} {body : Bytes}

/-- The text of a form goes on as the text that counts, trimmed. -/
theorem becomesText_of_text? {name text : String}
    (h : (UploadForm.ofParts others parts).text? name = some text) :
    BecomesText others parts name (.ofText name text) := by
  obtain ⟨part, hpart, -, htrim⟩ := UploadForm.text?_ofParts_eq_some_iff.1 h
  exact .intro hpart (Text.trims_iff.2 htrim)

/-- The name of a statement names its file. -/
theorem namesUpload_of_statementName? {file : FormPart} {name : String}
    (hfile : file ∈ FormPart.last? parts true "statement")
    (h : (UploadForm.ofParts others parts).statementName? = some name) :
    NamesUpload others parts file name := by
  rw [UploadForm.statementName?, Option.or_eq_some_iff, Option.map_eq_some_iff] at h
  rcases h with htext | ⟨hnone, upload, hupload, rfl⟩
  · obtain ⟨part, hpart, hblank, htrim⟩ := UploadForm.text?_ofParts_eq_some_iff.1 htext
    exact .given hpart hblank (Text.trims_iff.2 htrim)
  · obtain ⟨part, hpart, -, rfl⟩ := UploadForm.file?_ofParts_eq_some_iff.1 hupload
    cases hfile.symm.trans hpart
    exact .own (UploadForm.text?_ofParts_eq_none_iff.1 hnone) (FormPart.fileName_of_last? hpart)

/-- What a statement tells is what becomes of the parts that make it. -/
theorem exists_becomesStatement {upload : StatementUpload}
    (hread : FormPart.readParts boundary body = some parts)
    (h : (UploadForm.ofParts others parts).statement? = some upload) :
    ∃ told, BecomesStatement others parts told ∧
      List.Forall₂ FormField.Tells upload.fields told := by
  obtain ⟨file, hfile, hbytes, htype, hname, hstart, hfinish, haccount, huser⟩ :=
    UploadForm.statement?_eq_some_iff.1 h
  obtain ⟨part, hpart, -, rfl⟩ := UploadForm.file?_ofParts_eq_some_iff.1 hfile
  refine ⟨_, .intro hpart (namesUpload_of_statementName? hpart hname) (becomesText_of_text? hstart)
    (becomesText_of_text? hfinish) (becomesText_of_text? haccount) (becomesText_of_text? huser), ?_⟩
  rw [StatementUpload.fields, hbytes, htype]
  refine .cons (FormField.tells_file _ _ (FormPart.exists_parse?_of_last? hread hpart)
    (by decide +kernel)) ?_
  exact .cons (FormField.tells_text _ (by decide +kernel)) <|
    .cons (FormField.tells_text _ (by decide +kernel)) <|
    .cons (FormField.tells_text _ (by decide +kernel)) <|
    .cons (FormField.tells_text _ (by decide +kernel)) <|
    .cons (FormField.tells_text _ (by decide +kernel)) .nil

/-- The form of a receipt. -/
def UploadedFile.fields (image : UploadedFile) : List FormField :=
  [⟨"image", .file image.bytes (some image.fileName) image.contentType⟩]

/-- A receipt is uploaded to its path. -/
theorem UploadedFile.isUpload (image : UploadedFile) :
    (Service.parseReceipt image.bytes (some image.fileName) image.contentType).IsUpload
      "/transaction/image-parse" image.fields := by
  refine Service.isUpload_of_call rfl rfl rfl rfl ?_
  simp only [Service.place]
  decide +kernel

/-- What a receipt tells is what becomes of the parts that it is one of. -/
theorem exists_becomesReceipt {image : UploadedFile}
    (hread : FormPart.readParts boundary body = some parts)
    (h : (UploadForm.ofParts others parts).file? "image" = some image) :
    ∃ told, BecomesReceipt parts told ∧ List.Forall₂ FormField.Tells image.fields told := by
  obtain ⟨part, hpart, -, rfl⟩ := UploadForm.file?_ofParts_eq_some_iff.1 h
  refine ⟨_, .intro hpart, ?_⟩
  rw [FormPart.fileName_of_last? hpart]
  exact .cons (FormField.tells_file _ _ (FormPart.exists_parse?_of_last? hread hpart)
    (by decide +kernel)) .nil

/-- There is one text that a text becomes. -/
theorem BecomesText.eq_ofText {name text : String} {told : ToldPart}
    (h : BecomesText others parts name told)
    (htext : (FormPart.last? parts false name).map (fun part => Text.trim (part.text others)) =
      some text) :
    told = .ofText name text := by
  obtain ⟨hpart, htrims⟩ := h
  rw [Option.mem_def.1 hpart, Option.map_some, Text.trims_iff.1 htrims] at htext
  cases htext
  rfl

/-- There is one name that is given. -/
theorem NamesUpload.eq_of_text {file : FormPart} {name text : String}
    (h : NamesUpload others parts file name) (hgiven : HasText others parts "file_name")
    (htext : (FormPart.last? parts false "file_name").map
      (fun part => Text.trim (part.text others)) = some text) :
    name = text := by
  cases h with
  | given hpart _ htrims =>
    rw [Option.mem_def.1 hpart, Option.map_some, Text.trims_iff.1 htrims] at htext
    exact Option.some.inj htext
  | own hnone => exact absurd hgiven hnone

/-! ## Blank names -/

/-- A statement has a blank name when its file came with one, and no other is given. -/
def HasBlankName (others : Charset.Others) (parts : List FormPart) : Prop :=
  ¬ HasText others parts "file_name" ∧ ∃ file ∈ FormPart.last? parts true "statement",
    ∃ own ∈ file.fileName, Text.isBlank own = true

instance (others : Charset.Others) (parts : List FormPart) :
    Decidable (HasBlankName others parts) :=
  inferInstanceAs (Decidable (¬ HasText others parts "file_name" ∧
    ∃ file ∈ FormPart.last? parts true "statement", ∃ own ∈ file.fileName,
      Text.isBlank own = true))

/-- A text that a statement needs is not blank when it goes on. -/
theorem BecomesText.isBlank_eq_false {name : String} {told : ToldPart}
    (h : BecomesText others parts name told) (htext : HasText others parts name) :
    ∃ text, told = .ofText name text ∧ Text.isBlank text = false := by
  obtain ⟨hpart, htrims⟩ := h
  obtain ⟨part, hpart', hblank⟩ := htext
  cases hpart.symm.trans hpart'
  exact ⟨_, rfl, htrims.isBlank_eq.trans hblank⟩

/-- A statement goes by a blank name exactly when it has one. -/
theorem NamesUpload.isBlank_iff {file : FormPart} {name : String}
    (h : NamesUpload others parts file name)
    (hfile : file ∈ FormPart.last? parts true "statement") :
    Text.isBlank name = true ↔ HasBlankName others parts := by
  cases h with
  | given hpart hblank htrims =>
    refine iff_of_false (Bool.eq_false_iff.1 (htrims.isBlank_eq.trans hblank)) fun hbad => ?_
    exact hbad.1 ⟨_, hpart, hblank⟩
  | own htext hname =>
    refine ⟨fun hblank => ⟨htext, file, hfile, name, hname, hblank⟩, ?_⟩
    rintro ⟨-, file', hfile', own, hown, hblank⟩
    cases hfile.symm.trans hfile'
    cases hname.symm.trans hown
    exact hblank

/-- Of the texts that go along with a statement, only its name can be blank. -/
theorem BecomesStatement.isBlank_iff {told : List ToldPart} (h : BecomesStatement others parts told)
    (hmakes : MakesStatement others parts) :
    told.map ToldPart.name = "statement" :: statementTexts ++ ["file_name"] ∧
      ∀ p ∈ told, p.name ≠ "statement" → ∃ text, p = .ofText p.name text ∧
        (Text.isBlank text = true ↔ p.name = "file_name" ∧ HasBlankName others parts) := by
  have hneeded {name : String} {p : ToldPart} (hname : name ∈ statementTexts)
      (h : BecomesText others parts name p) : p.name = name ∧ ∃ text, p = .ofText p.name text ∧
        (Text.isBlank text = true ↔ p.name = "file_name" ∧ HasBlankName others parts) := by
    obtain ⟨text, rfl, hblank⟩ := h.isBlank_eq_false (hmakes.texts name hname)
    refine ⟨rfl, text, rfl, iff_of_false (Bool.eq_false_iff.1 hblank) ?_⟩
    rintro ⟨rfl, -⟩
    exact absurd hname (by decide)
  cases h with
  | intro hfile hname hstart hfinish haccount huser =>
    obtain ⟨hstart, hstart'⟩ := hneeded (by decide) hstart
    obtain ⟨hfinish, hfinish'⟩ := hneeded (by decide) hfinish
    obtain ⟨haccount, haccount'⟩ := hneeded (by decide) haccount
    obtain ⟨huser, huser'⟩ := hneeded (by decide) huser
    refine ⟨by simp [hstart, hfinish, haccount, huser, statementTexts, ToldPart.ofText], ?_⟩
    simp only [List.forall_mem_cons]
    refine ⟨fun hne => absurd rfl hne, fun _ => hstart', fun _ => hfinish', fun _ => haccount',
      fun _ => huser', fun _ => ⟨_, rfl, ?_⟩, List.forall_mem_nil _⟩
    exact (hname.isBlank_iff hfile).trans (iff_and_self.2 fun _ => rfl)

namespace App

variable {app : App} {session : Session} {request : Incoming} {url : Url}

/-! ## The endpoint of statements -/

/-- What the endpoint of statements sends is what the parts become, if they make a statement. -/
theorem statement_onlySends (hmethod : request.method = "POST")
    (hpath : request.path = "/dashboard/reconciliation/upload")
    (hparts : request.parts? = some parts) :
    (app.serveRoute (some session) request).OnlySends fun out =>
      MakesStatement app.charsets parts ∧
        ∃ told, BecomesStatement app.charsets parts told ∧ out.payload.Conveys told := by
  obtain ⟨boundary, -, hread⟩ := Option.bind_eq_some_iff.1 hparts
  rw [serveRoute_upload hmethod hpath, extractStatement_of_parts? hparts]
  cases hstatement : (UploadForm.ofParts app.charsets parts).statement? with
  | none => trivial
  | some upload =>
    obtain ⟨told, htold, hfields⟩ := exists_becomesStatement hread hstatement
    refine relay_onlySends 202 ((upload.isUpload.onlySends hfields).imp fun out hout => ?_)
    exact ⟨UploadForm.exists_statement?_iff.1 ⟨upload, hstatement⟩, told, htold, hout⟩

/-- A statement is sent once to where something can be sent. -/
theorem statement_posts (hmethod : request.method = "POST")
    (hpath : request.path = "/dashboard/reconciliation/upload")
    (hparts : request.parts? = some parts)
    (hmakes : MakesStatement app.charsets parts)
    (htoken : isHeaderValue (Utf8.encode session.token) = true)
    (hurl : Url.read (app.base ++ "/reconciliation/upload") = some (.address url))
    (hsend : isSendable url = true) : (app.serveRoute (some session) request).PostsOnce url := by
  obtain ⟨boundary, -, hread⟩ := Option.bind_eq_some_iff.1 hparts
  obtain ⟨upload, hupload⟩ := UploadForm.exists_statement?_iff.2 hmakes
  rw [serveRoute_upload hmethod hpath, extractStatement_of_parts? hparts, hupload]
  exact (relay_upload upload (fun type => UploadForm.exists_parse?_of_statement? hread hupload)
    htoken hurl).1 hsend

/-! ## The endpoint of receipts -/

/-- The receipt is taken from a form, or it is what the form lacks. -/
theorem extractReceipt_of_parts? (h : request.parts? = some parts) :
    extractReceipt others request =
      match (UploadForm.ofParts others parts).file? "image" with
      | some image => .ok image
      | none => .error (.form (UploadForm.missingParts ["image"])) := by
  rw [extractReceipt, extractForm_of_parts? h]
  rfl

/-- The endpoint of receipts. -/
theorem serveRoute_receipt (hmethod : request.method = "POST")
    (hpath : request.path = "/dashboard/transactions/image-parse") :
    app.serveRoute (some session) request =
      taking (extractReceipt app.charsets request) fun image =>
        app.relay (caller session.token) 200
          (.parseReceipt image.bytes (some image.fileName) image.contentType) := by
  have htarget : Route.target request.method request.path =
      .endpoint (.data .parseReceipt) "" := by
    rw [hmethod, hpath]
    decide +kernel
  rw [serveRoute, htarget]
  rfl

/-- What the endpoint of receipts sends is the image that counts, if that is not empty. -/
theorem receipt_onlySends (hmethod : request.method = "POST")
    (hpath : request.path = "/dashboard/transactions/image-parse")
    (hparts : request.parts? = some parts) :
    (app.serveRoute (some session) request).OnlySends fun out =>
      HasFile parts "image" ∧ ∃ told, BecomesReceipt parts told ∧ out.payload.Conveys told := by
  obtain ⟨boundary, -, hread⟩ := Option.bind_eq_some_iff.1 hparts
  rw [serveRoute_receipt hmethod hpath, extractReceipt_of_parts? hparts]
  cases himage : (UploadForm.ofParts app.charsets parts).file? "image" with
  | none => trivial
  | some image =>
    obtain ⟨told, htold, hfields⟩ := exists_becomesReceipt hread himage
    refine relay_onlySends 200 ((image.isUpload.onlySends hfields).imp fun out hout => ?_)
    exact ⟨UploadForm.exists_file?_ofParts_iff.1 ⟨image, himage⟩, told, htold, hout⟩

/-- An image that is not empty is sent once to where something can be sent. -/
theorem receipt_posts (hmethod : request.method = "POST")
    (hpath : request.path = "/dashboard/transactions/image-parse")
    (hparts : request.parts? = some parts) (hfile : HasFile parts "image")
    (htoken : isHeaderValue (Utf8.encode session.token) = true)
    (hurl : Url.read (app.base ++ "/transaction/image-parse") = some (.address url))
    (hsend : isSendable url = true) : (app.serveRoute (some session) request).PostsOnce url := by
  obtain ⟨boundary, -, hread⟩ := Option.bind_eq_some_iff.1 hparts
  obtain ⟨image, himage⟩ := UploadForm.exists_file?_ofParts_iff.2 hfile
  obtain ⟨told, -, hfields⟩ := exists_becomesReceipt hread himage
  rw [serveRoute_receipt hmethod hpath, extractReceipt_of_parts? hparts, himage]
  exact (relay_posts 200 image.isUpload (isMistyped_eq_false hfields) htoken hurl).1 hsend

/-! ## Uploads -/

/-- What goes on of an upload is what came. The endpoint of statements sends nothing but the form
that the parts of a statement become: the file with its data, its content type and one name, the
trimmed texts, and the name once more. The endpoint of receipts likewise sends the image alone, with
its data, content type and name. A form that is accepted is sent, once. -/
theorem uploads_are_forwarded_as_they_came (app : App) (session : Session) (request : Incoming)
    {parts : List FormPart} (hmethod : request.method = "POST")
    (hparts : request.parts? = some parts) :
    (request.path = "/dashboard/reconciliation/upload" →
      ((app.serveRoute (some session) request).OnlySends fun out =>
        MakesStatement app.charsets parts ∧
          ∃ told, BecomesStatement app.charsets parts told ∧ out.payload.Conveys told) ∧
      ∀ url, MakesStatement app.charsets parts → isHeaderValue (Utf8.encode session.token) = true →
        Url.read (app.base ++ "/reconciliation/upload") = some (.address url) →
        isSendable url = true → (app.serveRoute (some session) request).PostsOnce url) ∧
    (request.path = "/dashboard/transactions/image-parse" →
      ((app.serveRoute (some session) request).OnlySends fun out =>
        HasFile parts "image" ∧ ∃ told, BecomesReceipt parts told ∧ out.payload.Conveys told) ∧
      ∀ url, HasFile parts "image" → isHeaderValue (Utf8.encode session.token) = true →
        Url.read (app.base ++ "/transaction/image-parse") = some (.address url) →
        isSendable url = true → (app.serveRoute (some session) request).PostsOnce url) :=
  ⟨fun hpath => ⟨statement_onlySends hmethod hpath hparts,
      fun _ hmakes => statement_posts hmethod hpath hparts hmakes⟩,
    fun hpath => ⟨receipt_onlySends hmethod hpath hparts,
      fun _ hfile => receipt_posts hmethod hpath hparts hfile⟩⟩

/-- A statement whose bytes are no text and look like a boundary goes on as it came, and so does an
image with quotes in its name; the last name given is the one that counts, without the blanks around
it. Texts go on as what they say in the character set that their part or a mark at the front
names. -/
theorem odd_uploads_are_forwarded :
    let app : App := { base := "http://backend.test", validator := .fixed "tok" }
    let session : Session := { token := "tok" }
    let url (segments : List String) : Url :=
      { scheme := "http", login := none, host := "backend.test", port := none, segments,
        query := none, fragment := none }
    let part (name : String) (value : Bytes) :=
      Utf8.encode ("--b\r\nContent-Disposition: form-data; name=" ++ name ++ "\r\n\r\n") ++ value ++
        Utf8.encode "\r\n"
    let text (name value : String) := part name (Utf8.encode value)
    let bytes : Bytes := [0xFF, 0x00] ++ Utf8.encode "--b--" ++ [0xC0]
    let statement := part "statement; filename=may.csv\r\nContent-Type: Text/CSV" bytes ++
      text "file_name" "April" ++ text "statement_period_start" " 1 May " ++
      text "statement_period_end" "31 May" ++
      part "account_id\r\nContent-Type: text/plain; charset=ISO-8859-1" [0xA0, 0xC4] ++
      part "user_id" [0xFF, 0xFE, 0x75, 0x00] ++ text "file_name" "\tMay\n"
    let receipt := part "image; filename=\"a \\\"b\\\".png\"" bytes
    let request (path : String) (form : Bytes) : Incoming :=
      { method := "POST", path, query := none,
        headers := [("content-type", Utf8.encode "multipart/form-data; boundary=b")],
        body := form ++ Utf8.encode "--b--" }
    let upload := app.serveRoute (some session)
      (request "/dashboard/reconciliation/upload" statement)
    let parse := app.serveRoute (some session)
      (request "/dashboard/transactions/image-parse" receipt)
    (upload.PostsOnce (url ["reconciliation", "upload"]) ∧ upload.OnlySends fun out =>
      out.payload.Conveys [⟨"statement", some "May", some "text/csv", bytes⟩,
        .ofText "statement_period_start" "1 May", .ofText "statement_period_end" "31 May",
        .ofText "account_id" "Ä", .ofText "user_id" "u", .ofText "file_name" "May"]) ∧
    (parse.PostsOnce (url ["transaction", "image-parse"]) ∧ parse.OnlySends fun out =>
      out.payload.Conveys [⟨"image", some "a \"b\".png", none, bytes⟩]) := by
  intro app session url part text bytes statement receipt request upload parse
  have htoken : isHeaderValue (Utf8.encode session.token) = true := by decide +kernel
  constructor
  · obtain ⟨parts, hparts, hfile, htexts, hgiven, hcontent, hvalues⟩ :
        ∃ parts ∈ (request "/dashboard/reconciliation/upload" statement).parts?,
          HasFile parts "statement" ∧ (∀ name ∈ statementTexts, HasText app.charsets parts name) ∧
          HasText app.charsets parts "file_name" ∧
          (FormPart.last? parts true "statement").map
            (fun part => (part.contentType.map Mime.text, part.data)) =
              some (some "text/csv", bytes) ∧
          ["file_name", "statement_period_start", "statement_period_end", "account_id",
            "user_id"].map (fun name => (FormPart.last? parts false name).map
              fun part => Text.trim (part.text app.charsets)) =
              [some "May", some "1 May", some "31 May", some "Ä", some "u"] := by
      decide +kernel
    simp only [List.map_cons, List.map_nil, List.cons.injEq, and_true] at hvalues
    obtain ⟨hname, hstart, hfinish, haccount, huser⟩ := hvalues
    obtain ⟨hsends, hposts⟩ :=
      (uploads_are_forwarded_as_they_came app session _ rfl hparts).1 rfl
    refine ⟨hposts _ ⟨hfile, htexts⟩ htoken (by decide +kernel) rfl, hsends.imp fun out hout => ?_⟩
    obtain ⟨-, told, htold, hconveys⟩ := hout
    cases htold with
    | intro hfile' hname' hstart' hfinish' haccount' huser' =>
      rw [Option.mem_def.1 hfile', Option.map_some, Option.some.injEq, Prod.mk.injEq] at hcontent
      rw [hcontent.1, hcontent.2, hname'.eq_of_text hgiven hname, hstart'.eq_ofText hstart,
        hfinish'.eq_ofText hfinish, haccount'.eq_ofText haccount,
        huser'.eq_ofText huser] at hconveys
      exact hconveys
  · obtain ⟨parts, hparts, hfile, hcontent⟩ :
        ∃ parts ∈ (request "/dashboard/transactions/image-parse" receipt).parts?,
          HasFile parts "image" ∧ (FormPart.last? parts true "image").map
            (fun part => (part.fileName, part.contentType, part.data)) =
              some (some "a \"b\".png", none, bytes) := by
      decide +kernel
    obtain ⟨hsends, hposts⟩ :=
      (uploads_are_forwarded_as_they_came app session _ rfl hparts).2 rfl
    refine ⟨hposts _ hfile htoken (by decide +kernel) rfl, hsends.imp fun out hout => ?_⟩
    obtain ⟨-, told, htold, hconveys⟩ := hout
    cases htold with
    | intro himage =>
      rw [Option.mem_def.1 himage, Option.map_some, Option.some.injEq, Prod.mk.injEq,
        Prod.mk.injEq] at hcontent
      rw [hcontent.1, hcontent.2.1, hcontent.2.2] at hconveys
      exact hconveys

/-- No text that goes along with a statement is blank, unless it is the name of the statement and
its file came with a blank name and no other is given. -/
theorem forwarded_texts_are_not_blank_but_own_name (app : App) (session : Session)
    (request : Incoming) {parts : List FormPart} (hmethod : request.method = "POST")
    (hpath : request.path = "/dashboard/reconciliation/upload")
    (hparts : request.parts? = some parts) :
    (app.serveRoute (some session) request).OnlySends fun out =>
      ∃ told, out.payload.Conveys told ∧
        told.map ToldPart.name = "statement" :: statementTexts ++ ["file_name"] ∧
        ∀ p ∈ told, p.name ≠ "statement" → ∃ text, p = .ofText p.name text ∧
          (Text.isBlank text = true ↔ p.name = "file_name" ∧ HasBlankName app.charsets parts) := by
  refine (statement_onlySends hmethod hpath hparts).imp fun out hout => ?_
  obtain ⟨hmakes, told, htold, hconveys⟩ := hout
  exact ⟨told, hconveys, htold.isBlank_iff hmakes⟩

/-- A blank name that is given gives way to the name that the file came with, and then no text is
blank. -/
theorem blank_given_name_gives_way :
    let app : App := { base := "http://backend.test", validator := .fixed "tok" }
    let session : Session := { token := "tok" }
    let part (name value : String) :=
      "--b\r\nContent-Disposition: form-data; name=" ++ name ++ "\r\n\r\n" ++ value ++ "\r\n"
    let request : Incoming :=
      { method := "POST", path := "/dashboard/reconciliation/upload", query := none,
        headers := [("content-type", Utf8.encode "multipart/form-data; boundary=b")],
        body := Utf8.encode (part "statement; filename=may.csv" "a,b" ++
          part "statement_period_start" "1 May" ++ part "statement_period_end" "31 May" ++
          part "account_id" "a1" ++ part "user_id" "u1" ++ part "file_name" " " ++ "--b--") }
    (∃ parts, request.parts? = some parts ∧ MakesStatement app.charsets parts ∧
      ¬ HasText app.charsets parts "file_name") ∧
      (app.serveRoute (some session) request).OnlySends fun out =>
        ∃ told, out.payload.Conveys told ∧
          told.map ToldPart.name = "statement" :: statementTexts ++ ["file_name"] ∧
          ∀ p ∈ told, p.name ≠ "statement" →
            ∃ text, p = .ofText p.name text ∧ Text.isBlank text = false := by
  intro app session part request
  obtain ⟨parts, hparts, hfile, htexts, hname, hown⟩ :
      ∃ parts ∈ request.parts?, HasFile parts "statement" ∧
        (∀ name ∈ statementTexts, HasText app.charsets parts name) ∧
        ¬ HasText app.charsets parts "file_name" ∧
        ¬ HasBlankName app.charsets parts := by
    decide +kernel
  refine ⟨⟨parts, hparts, ⟨hfile, htexts⟩, hname⟩, ?_⟩
  refine (forwarded_texts_are_not_blank_but_own_name app session request rfl rfl hparts).imp
    fun out hout => ?_
  obtain ⟨told, hconveys, hnames, htold⟩ := hout
  refine ⟨told, hconveys, hnames, fun p hp hne => ?_⟩
  obtain ⟨text, htext, hblank⟩ := htold p hp hne
  exact ⟨text, htext, Bool.eq_false_iff.2 fun h => hown (hblank.1 h).2⟩

/-- A file that comes with a blank name is sent, and its name goes along as a blank text. -/
theorem blank_own_name_is_forwarded :
    let app : App := { base := "http://backend.test", validator := .fixed "tok" }
    let session : Session := { token := "tok" }
    let url : Url :=
      { scheme := "http", login := none, host := "backend.test", port := none,
        segments := ["reconciliation", "upload"], query := none, fragment := none }
    let part (name value : String) :=
      "--b\r\nContent-Disposition: form-data; name=" ++ name ++ "\r\n\r\n" ++ value ++ "\r\n"
    let request : Incoming :=
      { method := "POST", path := "/dashboard/reconciliation/upload", query := none,
        headers := [("content-type", Utf8.encode "multipart/form-data; boundary=b")],
        body := Utf8.encode (part "statement; filename=\" \"" "a,b" ++
          part "statement_period_start" "1 May" ++ part "statement_period_end" "31 May" ++
          part "account_id" "a1" ++ part "user_id" "u1" ++ "--b--") }
    (app.serveRoute (some session) request).PostsOnce url ∧
      (app.serveRoute (some session) request).OnlySends fun out =>
        ∃ told, out.payload.Conveys told ∧
          ∃ text, .ofText "file_name" text ∈ told ∧ Text.isBlank text = true := by
  intro app session url part request
  obtain ⟨parts, hparts, hfile, htexts, hown⟩ :
      ∃ parts ∈ request.parts?, HasFile parts "statement" ∧
        (∀ name ∈ statementTexts, HasText app.charsets parts name) ∧
        HasBlankName app.charsets parts := by
    decide +kernel
  refine ⟨statement_posts rfl rfl hparts ⟨hfile, htexts⟩ (by decide +kernel) (by decide +kernel)
    rfl, (statement_onlySends rfl rfl hparts).imp fun out hout => ?_⟩
  obtain ⟨hmakes, told, htold, hconveys⟩ := hout
  obtain ⟨hnames, htold⟩ := htold.isBlank_iff hmakes
  have hmem : "file_name" ∈ told.map ToldPart.name := by
    rw [hnames]
    decide
  obtain ⟨p, hp, hname⟩ := List.mem_map.1 hmem
  obtain ⟨text, htext, hblank⟩ := htold p hp (by rw [hname]; decide)
  rw [hname] at htext
  exact ⟨told, hconveys, text, htext ▸ hp, hblank.2 ⟨hname, hown⟩⟩

end App

end FinanceGateway
