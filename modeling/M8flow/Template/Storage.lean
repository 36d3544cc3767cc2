import M8flow.Errors
import M8flow.Lib.Digits
import M8flow.Lib.Proc
import M8flow.Lib.Table

/-!
# Template rows and template storage

`models/native.py` has the rows of `m8flow_templates`, and
`template_storage_service.py` keeps the bytes of their files on disk, under
`{tenant}/{template_key}/{version}/{file_name}` with every part sanitised.

- `sanitize`, `fileTypeFromFilename` and `safeExtractZip` are its pure parts.
- `storeFile`, `getFile` and `deleteFile` act on a disk whose calls can fail: a
  failing write may leave part of a file behind.
-/

namespace M8flow.Template

open M8flow.Lib

/-- The content of a file. -/
abbrev Bytes := List UInt8

/-! ## Names of files -/

/-- `os.path.basename`. -/
def basename (path : Text) : Text := path.rtakeWhile (· ≠ '/')

/-- `os.path.splitext(filename)[1]`: what follows the last dot, with the dot, unless
only dots stand before it. -/
def extension (filename : Text) : Text :=
  let base := basename filename
  let stem := base.rdropWhile (· ≠ '.')
  if stem.dropLast.any (· ≠ '.') then '.' :: base.rtakeWhile (· ≠ '.') else []

/-- `FILE_EXT_TO_TYPE.get(ext, "other")`; no other letters lower to these. -/
def fileTypeFromFilename (filename : Text) : Text :=
  let ext := (extension filename).map Char.toLower
  if ext = ".bpmn".toList then "bpmn".toList
  else if ext = ".json".toList then "json".toList
  else if ext = ".dmn".toList then "dmn".toList
  else if ext = ".md".toList then "md".toList
  else "other".toList

/-- The characters that `_sanitize` replaces by a hyphen. -/
def invalidChars : List Char := ['/', '\\', ':', '*', '?', '"', '<', '>', '|']

def emptyName : ApiError := .of "invalid_input" "Name is empty after sanitization" 400

/-- `_sanitize`: strip null bytes, replace invalid characters, enforce the length. -/
def sanitize (s : Text) : Except ApiError Text :=
  let replaced := (s.filter fun c => c.toNat ≠ 0).map fun c => if c ∈ invalidChars then '-' else c
  let stripped := Text.stripWhere (fun c => c = '.' || c = ' ' || c = '-') replaced
  if stripped = [] then .error emptyName else .ok (stripped.take 255)

/-- The directory of one version of a template. -/
structure VersionDir where
  tenantId : Text
  templateKey : Text
  version : Text
  deriving Repr, DecidableEq

/-- The place of one file. -/
structure Path where
  dir : VersionDir
  name : Text
  deriving Repr, DecidableEq

/-- `_version_dir`. -/
def versionDir (tenantId templateKey version : Text) : Except ApiError VersionDir := do
  let tenant ← sanitize tenantId
  let key ← sanitize templateKey
  let version ← sanitize version
  pure ⟨tenant, key, version⟩

/-- `_file_path`: the name is sanitised before the directory. -/
def filePath (tenantId templateKey version fileName : Text) : Except ApiError Path := do
  let safeName ← sanitize (basename fileName)
  let dir ← versionDir tenantId templateKey version
  pure ⟨dir, safeName⟩

theorem dir_of_filePath {tenantId templateKey version fileName : Text} {path : Path}
    (h : filePath tenantId templateKey version fileName = .ok path) :
    versionDir tenantId templateKey version = .ok path.dir := by
  unfold filePath at h
  cases hname : sanitize (basename fileName) with
  | error e =>
      rw [hname] at h
      cases h
  | ok name =>
      cases hdir : versionDir tenantId templateKey version with
      | error e =>
          rw [hname, hdir] at h
          cases h
      | ok dir =>
          rw [hname, hdir] at h
          cases h
          rfl

/-- Different names can share a directory. -/
example : versionDir "t1".toList "key".toList "V1.".toList =
    versionDir "t1".toList "key".toList "V1".toList := by decide

/-! ## Archives -/

/-- A zip archive: its size, and its entries if it can be read. -/
structure ZipFile where
  size : Nat
  entries : Option (List (Text × Bytes))
  deriving Repr, DecidableEq

def maxZipSize : Nat := 50 * 1024 * 1024
def maxExtractedSize : Nat := 200 * 1024 * 1024
def maxZipEntries : Nat := 100

def tooLarge (message : String) : ApiError := .of "payload_too_large" message 400

/-- `zf.read(name)`: the last entry of the name. -/
def ZipFile.read (entries : List (Text × Bytes)) (name : Text) : Bytes :=
  ((entries.reverse.find? fun entry => entry.1 = name).map Prod.snd).getD []

/-- The loop of `safe_extract_zip`, with the number of bytes extracted so far. -/
def extractEntries (entries : List (Text × Bytes)) :
    List Text → Nat → Except ApiError (List (Text × Bytes))
  | [], _ => .ok []
  | name :: rest, total =>
      let base := basename name
      if base = [] ∨ base.head? = some '.' then extractEntries entries rest total
      else
        let content := ZipFile.read entries name
        if total + content.length > maxExtractedSize then
          .error (tooLarge "Extracted content exceeds maximum allowed size of 200 MB")
        else do
          let files ← extractEntries entries rest (total + content.length)
          pure ((base, content) :: files)

/-- `safe_extract_zip`. -/
def safeExtractZip (zip : ZipFile) : Except ApiError (List (Text × Bytes)) :=
  if zip.size > maxZipSize then
    .error (tooLarge "Zip file exceeds maximum allowed size of 50 MB")
  else
    match zip.entries with
    | none => .error (.of "invalid_content" "Invalid zip file: File is not a zip file" 400)
    | some entries =>
        let names := (entries.map Prod.fst).filter fun name => name.getLast? ≠ some '/'
        if names.length > maxZipEntries then
          .error (tooLarge "Zip contains too many entries (max 100)")
        else extractEntries entries names 0

/-! ## Rows -/

/-- An entry of `TemplateModel.files`; a key can be absent. -/
structure FileEntry where
  fileType : Option Text
  fileName : Option Text
  deriving Repr, DecidableEq

/-- The row of one version of a template. -/
structure TemplateModel where
  id : Nat
  templateKey : Text
  version : Text
  name : Text
  description : Option Text
  tags : Option (List Text)
  category : Option Text
  m8fTenantId : Text
  visibility : Text
  files : List FileEntry
  isPublished : Bool
  status : Option Text
  isDeleted : Bool
  createdBy : Text
  modifiedBy : Text
  deriving Repr, DecidableEq

/-- What the unique constraint compares. -/
def TemplateModel.uniqueKey (row : TemplateModel) : Text × Text × Text :=
  (row.m8fTenantId, row.templateKey, row.version)

/-- The directory of the row's files, if its names leave anything. -/
def TemplateModel.dir (row : TemplateModel) : Option VersionDir :=
  (versionDir row.m8fTenantId row.templateKey row.version).toOption

/-- A disk call that fails with an `OSError`; a write may have left bytes. -/
structure Fault where
  message : String
  left : Option Bytes
  deriving Repr, DecidableEq

/-- The database as the session sees it, the disk, and how the coming disk calls
of the operation end. -/
structure World where
  rows : List TemplateModel
  nextId : Nat
  disk : Path → Option Bytes
  faults : List (Option Fault)

/-- An empty database over any disk. -/
def World.start (disk : Path → Option Bytes) : World :=
  { rows := [], nextId := 1, disk, faults := [] }

/-- The row of an id. -/
def World.row (w : World) (id : Nat) : Option TemplateModel :=
  Table.lookup TemplateModel.id w.rows id

/-- Put a content, or nothing, in the place of a file. -/
def World.write (w : World) (path : Path) (content : Option Bytes) : World :=
  { w with disk := fun other => if other = path then content else w.disk other }

/-- What an operation can raise. -/
inductive Raised where
  | api (e : ApiError)
  | valueError
  | integrityError
  deriving Repr, DecidableEq

/-- A procedure of the service. -/
abbrev Service := Proc World Raised

def raiseApi {α : Type} (errorCode message : String) (statusCode : Nat) : Service α :=
  Proc.raise (.api (.of errorCode message statusCode))

/-! ## Storage -/

/-- How the next disk call ends. -/
def nextFault : Service (Option Fault) := fun w =>
  match w.faults with
  | [] => (.ok none, w)
  | fault :: faults => (.ok fault, { w with faults })

/-- `store_file`. -/
def storeFile (tenantId templateKey version fileName : Text) (content : Bytes) :
    Service Unit := do
  let path ← Proc.ofExcept Raised.api (filePath tenantId templateKey version fileName)
  match ← nextFault with
  | none => Proc.modify fun w => w.write path (some content)
  | some fault =>
      Proc.modify fun w =>
        match fault.left with
        | none => w
        | some left => w.write path (some left)
      raiseApi "storage_error" ("Failed to write file: " ++ fault.message) 500

/-- `get_file`. -/
def getFile (tenantId templateKey version fileName : Text) : Service Bytes := do
  let path ← Proc.ofExcept Raised.api (filePath tenantId templateKey version fileName)
  let w ← Proc.read
  match w.disk path with
  | none => raiseApi "not_found" ("File not found: " ++ String.ofList fileName) 404
  | some content =>
      match ← nextFault with
      | none => pure content
      | some fault => raiseApi "storage_error" ("Failed to read file: " ++ fault.message) 500

/-- `delete_file`. -/
def deleteFile (tenantId templateKey version fileName : Text) : Service Unit := do
  let path ← Proc.ofExcept Raised.api (filePath tenantId templateKey version fileName)
  let w ← Proc.read
  match w.disk path with
  | none => pure ()
  | some _ =>
      match ← nextFault with
      | none => Proc.modify fun w => w.write path none
      | some fault => raiseApi "storage_error" ("Failed to delete file: " ++ fault.message) 500

end M8flow.Template
