import FinanceGateway.App.Form
import FinanceGateway.Finance.Statement
import FinanceGateway.Failure.ApiError

/-!
# Uploads

What the parts of an upload form stand for. Parts with a file name are files, the others texts; the
last part of a name counts. A statement upload needs a file that is not empty and texts that are not
blank; what is missing is reported all at once.
-/

namespace FinanceGateway

/-- A file of an upload. -/
structure UploadedFile where
  bytes : Bytes
  fileName : String
  contentType : Option String
  deriving Repr, DecidableEq

/-- The files and texts of an upload form, the last of each name. -/
structure UploadForm where
  files : Dictionary UploadedFile := []
  texts : Dictionary String := []
  deriving Repr, DecidableEq

namespace UploadForm

/-- The form with one more part. -/
def add (others : Charset.Others) (form : UploadForm) (part : FormPart) : UploadForm :=
  match part.fileName with
  | some fileName =>
    let file := ⟨part.data, fileName, part.contentType.map Mime.text⟩
    { form with files := Dictionary.insert part.name file form.files }
  | none => { form with texts := Dictionary.insert part.name (part.text others) form.texts }

/-- The form of a list of parts. -/
def ofParts (others : Charset.Others) (parts : List FormPart) : UploadForm :=
  parts.foldl (add others) {}

/-- The file of a name, unless it is empty. -/
def file? (form : UploadForm) (name : String) : Option UploadedFile :=
  (form.files.get? name).filter fun f => !f.bytes.isEmpty

/-- The trimmed text of a name, unless it is blank. -/
def text? (form : UploadForm) (name : String) : Option String :=
  (form.texts.get? name).bind Text.nonBlank?

/-- The name of the statement: the text given for it, else the file's own name. -/
def statementName? (form : UploadForm) : Option String :=
  (form.text? "file_name").or ((form.file? "statement").map (·.fileName))

/-- What a statement upload lacks. -/
def missingForStatement (form : UploadForm) : List String :=
  let texts := ["statement_period_start", "statement_period_end", "account_id", "user_id"]
  (if (form.file? "statement").isNone then ["statement"] else []) ++
    (if form.statementName?.isNone then ["file_name"] else []) ++
    texts.filter fun name => (form.text? name).isNone

/-- The statement upload of a form that lacks nothing. -/
def statement? (form : UploadForm) : Option StatementUpload := do
  let file ← form.file? "statement"
  some {
    statement := file.bytes
    contentType := file.contentType
    fileName := ← form.statementName?
    periodStart := ← form.text? "statement_period_start"
    periodEnd := ← form.text? "statement_period_end"
    accountId := ← form.text? "account_id"
    userId := ← form.text? "user_id" }

/-- The failure that names the parts an upload lacks. -/
def missingParts (names : List String) : ApiError :=
  .api {
    code := "BAD_REQUEST"
    message := "missing upload fields"
    status := 400
    fieldErrors := .ofList (names.map fun name => (name, "required")) }

/-- The failure of a body that is no form. -/
def malformed : ApiError :=
  .api {
    code := "BAD_REQUEST"
    message := "malformed multipart body: Error parsing `multipart/form-data` request"
    status := 400 }

/-- The form in a body with a boundary. -/
def read (others : Charset.Others) (boundary : String) (body : Bytes) :
    Except ApiError UploadForm :=
  match FormPart.readParts boundary body with
  | some parts => .ok (ofParts others parts)
  | none => .error malformed

end UploadForm

end FinanceGateway
