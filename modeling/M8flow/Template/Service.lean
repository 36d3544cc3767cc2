import M8flow.Template.Storage
import Mathlib.Data.List.MinMax

/-!
# The template service

`template_service.py` and `template_authorization_service.py`: the operations
that create, edit, publish, delete and restore template versions.  Every
operation runs in the session of its request, which commits when it returns and
rolls back when it raises; what it did to the disk stays either way.
-/

namespace M8flow.Template

open M8flow.Lib

/-! ## The request -/

/-- The permissions on `/m8flow/admin/templates`. -/
inductive Permission where
  | read
  | update
  | delete
  deriving Repr, DecidableEq

/-- What a request brings: the `user` argument and `g.user` by their usernames, the
tenant it is bound to, and the answers of the authorization module. -/
structure Request where
  user : Option Text
  gUser : Option Text
  tenantId : Option Text
  /-- `is_super_admin_request()`, which asks about `g.user`. -/
  superAdminRequest : Bool
  /-- `_is_super_admin_request(user)`, which asks about `user` first. -/
  superAdminActor : Bool
  adminPermission : Permission → Bool
  /-- `user_has_permission(user, "update", "/m8flow/templates")`. -/
  updateTemplates : Bool

/-- `has_admin_permission`. -/
def Request.hasAdminPermission (req : Request) (permission : Permission) : Bool :=
  req.user.isSome && req.adminPermission permission

def isCurrentTenantTemplate (req : Request) (template : TemplateModel) : Bool :=
  req.tenantId = some template.m8fTenantId

/-- `can_view`. -/
def canView (req : Request) (template : TemplateModel) : Bool :=
  if req.hasAdminPermission .read && isCurrentTenantTemplate req template then true
  else if req.superAdminActor then true
  else if template.visibility = "PUBLIC".toList then true
  else if template.visibility = "TENANT".toList then isCurrentTenantTemplate req template
  else if template.visibility = "PRIVATE".toList then
    req.user = some template.createdBy && isCurrentTenantTemplate req template
  else false

/-- `can_edit`. -/
def canEdit (req : Request) (template : TemplateModel) : Bool :=
  if req.superAdminActor then false
  else
    match req.user with
    | none => false
    | some username =>
        if ¬ isCurrentTenantTemplate req template then false
        else if template.createdBy = username then true
        else req.updateTemplates

/-- `filter_query_by_visibility`, for one row. -/
def visibleTo (req : Request) (template : TemplateModel) : Bool :=
  if req.superAdminActor then true
  else if template.visibility = "PUBLIC".toList then true
  else if ¬ isCurrentTenantTemplate req template then false
  else if template.visibility = "TENANT".toList then true
  else if template.visibility = "PRIVATE".toList then
    req.user.isSome && (req.hasAdminPermission .read || req.user = some template.createdBy)
  else false

/-! ## Versions -/

/-- `_version_key`: other formats sort before the V-series. -/
inductive VersionKey where
  | legacy (version : Text)
  | numbered (number : Nat)
  deriving Repr, DecidableEq

/-- The order of the tuples. -/
def VersionKey.lt : VersionKey → VersionKey → Bool
  | .legacy v, .legacy v' => decide (v < v')
  | .legacy _, .numbered _ => true
  | .numbered _, .legacy _ => false
  | .numbered n, .numbered n' => decide (n < n')

/-- The digits of a version of the V-series. -/
def vDigits (version : Text) : Option Text :=
  match version.strip with
  | c :: rest => if (c = 'V' ∨ c = 'v') ∧ Text.isdigit rest then some rest else none
  | [] => none

def versionKey (version : Text) : Except Raised VersionKey :=
  match vDigits version with
  | some digits =>
      match Text.intOfDigits digits with
      | some number => .ok (.numbered number)
      | none => .error .valueError
  | none => .ok (.legacy version.strip)

/-- `max(rows, key=...)`, which keeps the first of equal keys; `best` is the
maximum so far. -/
def maxVersion : List TemplateModel → TemplateModel × VersionKey →
    Except Raised TemplateModel
  | [], best => .ok best.1
  | row :: rows, best => do
      let key ← versionKey row.version
      maxVersion rows (if best.2.lt key then (row, key) else best)

/-- `f"V{number}"`. -/
def vVersion (number : Nat) : Text := 'V' :: Text.ofNat number

/-- `_next_version`. -/
def nextVersion (rows : List TemplateModel) (templateKey tenantId : Text) : Except Raised Text :=
  match rows.filter fun row => row.templateKey = templateKey ∧ row.m8fTenantId = tenantId with
  | [] => .ok (vVersion 1)
  | row :: rows => do
      let key ← versionKey row.version
      let latest ← maxVersion rows (row, key)
      match ← versionKey latest.version with
      | .numbered number =>
          -- the interpreter writes no longer integers
          if (Text.ofNat (number + 1)).length ≤ Text.intMaxStrDigits then
            pure (vVersion (number + 1))
          else .error .valueError
      -- a legacy format: the V-series starts
      | .legacy _ => pure (vVersion 1)

/-! ## Names -/

def templateNameMaxLength : Nat := 100

/-- `[A-Za-z0-9 _-]`. -/
def nameChar (c : Char) : Bool := c.isAlphanum || c = ' ' || c = '_' || c = '-'

/-- `_validate_template_name`. -/
def validateTemplateName (name : Text) : Except Raised Unit :=
  let stripped := name.strip
  if stripped.length > templateNameMaxLength then
    .error (.api (.of "template_name_too_long"
      "Template name must be 100 characters or fewer." 400))
  else if ¬ (stripped ≠ [] ∧ stripped.all nameChar) then
    .error (.api (.of "template_name_invalid_chars"
      "Template name may only contain letters, numbers, spaces, hyphens and underscores." 400))
  else .ok ()

/-- What stands before `_deleted_` and fourteen digits, on one line. -/
def deletedBase (name : Text) : Option Text :=
  -- `$` also matches before a newline at the end
  let body := if name.getLast? = some '\n' then name.dropLast else name
  let base := body.take (body.length - 23)
  let mark := body.drop (body.length - 23)
  if 23 ≤ body.length ∧ mark.take 9 = "_deleted_".toList ∧
      (mark.drop 9).all Text.isDecimal ∧ '\n' ∉ base then some base
  else none

/-! ## The session -/

def forbiddenSuperAdmin {α : Type} : Service α :=
  raiseApi "forbidden" "Super-admin is read-only across tenants." 403

/-- Flush the changes of one row. -/
def saveRow (id : Nat) (f : TemplateModel → TemplateModel) : Service Unit :=
  Proc.modify fun w => { w with rows := Table.updateAt TemplateModel.id id f w.rows }

/-- Flush a new row, which takes the next id. -/
def insertRow (row : TemplateModel) : Service TemplateModel := do
  let w ← Proc.read
  if w.rows.any fun other => other.uniqueKey = row.uniqueKey then
    Proc.raise .integrityError
  else do
    let row := { row with id := w.nextId }
    Proc.modify fun w => { w with rows := w.rows ++ [row], nextId := w.nextId + 1 }
    pure row

/-- Flush the deletion of a row. -/
def removeRow (id : Nat) : Service Unit :=
  Proc.modify fun w => { w with rows := w.rows.filter fun row => row.id ≠ id }

def conflict : ApiError :=
  .of "template_conflict"
    "A template with this key and version already exists for this tenant." 409

/-- `except IntegrityError: raise ApiError(template_conflict)`. -/
def conflictOr {α : Type} : Raised → Service α
  | .integrityError => Proc.raise (.api conflict)
  | e => Proc.raise e

/-- The tenant filter of `get_template`, which a request without a tenant skips. -/
def inRequestTenant (req : Request) (row : TemplateModel) : Bool :=
  match truthy req.tenantId with
  | some tenant => row.m8fTenantId = tenant
  | none => true

/-- `get_template`, with deleted rows left out. -/
def getTemplate (req : Request) (templateKey version : Text) : Service (Option TemplateModel) := do
  let w ← Proc.read
  let rows := w.rows.filter fun row => row.templateKey = templateKey ∧
    inRequestTenant req row ∧ row.isDeleted = false ∧ visibleTo req row
  if version ≠ [] then
    pure (rows.find? fun row => row.version = version)
  else
    match rows with
    | [] => pure none
    | row :: rows => do
        let key ← Proc.ofExcept id (versionKey row.version)
        let latest ← Proc.ofExcept id (maxVersion rows (row, key))
        pure (some latest)

/-- `get_template_by_id`. -/
def getTemplateById (req : Request) (templateId : Nat) (includeDeleted : Bool) :
    Service (Option TemplateModel) := do
  let w ← Proc.read
  match w.row templateId with
  | none => pure none
  | some template =>
      if (template.isDeleted ∧ ¬ includeDeleted) ∨ ¬ canView req template then pure none
      else pure (some template)

/-! ## Creating -/

/-- The metadata of a creation; a key can be absent. -/
structure Metadata where
  templateKey : Option Text
  name : Option Text
  version : Option Text
  visibility : Option Text
  tags : Option (List Text)
  category : Option Text
  description : Option Text
  status : Option Text
  isPublished : Bool
  deriving Repr, DecidableEq

/-- The loop that stores the files of a new version. -/
def storeFiles (tenantId templateKey version : Text) :
    List (Text × Bytes) → Service (List FileEntry)
  | [] => pure []
  | (fileName, content) :: files => do
      let fileType := fileTypeFromFilename fileName
      storeFile tenantId templateKey version fileName content
      let entries ← storeFiles tenantId templateKey version files
      pure (⟨some fileType, some fileName⟩ :: entries)

def hasBpmn (files : List (Text × Bytes)) : Bool :=
  files.any fun file => fileTypeFromFilename file.1 = "bpmn".toList

/-- `create_template_with_files` from the choice of the version on. -/
def createVersion (req : Request) (metadata : Metadata) (tenant templateKey name version : Text)
    (files : List (Text × Bytes)) : Service TemplateModel := do
  if ¬ hasBpmn files then
    raiseApi "missing_fields" "At least one BPMN file is required" 400
  else do
    let entries ← storeFiles tenant templateKey version files
    match req.gUser with
    | none => raiseApi "unauthorized" "User username not found in request context" 403
    | some username =>
        Proc.tryExcept
          (insertRow
            { id := 0, templateKey, version, name, description := metadata.description,
              tags := metadata.tags, category := metadata.category, m8fTenantId := tenant,
              visibility := metadata.visibility.getD "PRIVATE".toList, files := entries,
              isPublished := metadata.isPublished,
              status := some (metadata.status.getD "draft".toList), isDeleted := false,
              createdBy := username, modifiedBy := username })
          conflictOr

/-- The tenant of a creation: `tenant_id or g.m8flow_tenant_id`. -/
def Request.tenantFor (req : Request) (tenantId : Option Text) : Option Text :=
  (truthy tenantId).or req.tenantId

/-- `explicit_version or cls._next_version(template_key, tenant)`. -/
def chosenVersion (rows : List TemplateModel) (metadata : Metadata) (templateKey tenant : Text) :
    Except Raised Text :=
  match truthy metadata.version with
  | some version => .ok version
  | none => nextVersion rows templateKey tenant

/-- `create_template_with_files`. -/
def createTemplateWithFiles (req : Request) (metadata : Option Metadata)
    (files : List (Text × Bytes)) (tenantId : Option Text) : Service TemplateModel :=
  if req.user = none then
    raiseApi "unauthorized" "User must be authenticated to create templates" 403
  else if req.superAdminRequest then forbiddenSuperAdmin
  else
    match req.tenantFor tenantId, metadata with
    | none, _ => raiseApi "tenant_required" "Tenant context required" 400
    | some _, none => raiseApi "missing_fields" "metadata is required" 400
    | some tenant, some metadata =>
        match truthy metadata.templateKey, truthy metadata.name with
        | some templateKey, some name => do
            Proc.ofExcept id (validateTemplateName name)
            let w ← Proc.read
            if truthy metadata.version = none ∧
                (w.rows.any fun row => row.templateKey = templateKey ∧
                  row.m8fTenantId = tenant ∧ row.isDeleted = false) then
              raiseApi "template_name_exists"
                ("A template named '" ++ String.ofList name ++
                  "' already exists. Please choose a different name.") 409
            else do
              let version ← Proc.ofExcept id (chosenVersion w.rows metadata templateKey tenant)
              createVersion req metadata tenant templateKey name version files
        | _, _ => raiseApi "missing_fields" "template_key and name are required" 400

/-- `create_template`. -/
def createTemplate (req : Request) (metadata : Option Metadata) (bpmnBytes : Option Bytes)
    (tenantId : Option Text) : Service TemplateModel :=
  match bpmnBytes with
  | none => raiseApi "missing_fields" "bpmn_content is required" 400
  | some content =>
      createTemplateWithFiles req metadata [("diagram.bpmn".toList, content)] tenantId

/-- `import_template_from_zip`. -/
def importTemplateFromZip (req : Request) (zip : ZipFile) (metadata : Metadata)
    (tenantId : Option Text) : Service TemplateModel :=
  if req.user = none then raiseApi "unauthorized" "User must be authenticated" 403
  else if req.superAdminRequest then forbiddenSuperAdmin
  else
    match req.tenantFor tenantId with
    | none => raiseApi "tenant_required" "Tenant context required" 400
    | some tenant =>
        match truthy metadata.templateKey, truthy metadata.name with
        | some templateKey, some _ => do
            let w ← Proc.read
            let version ← Proc.ofExcept id (chosenVersion w.rows metadata templateKey tenant)
            let files ← Proc.ofExcept Raised.api (safeExtractZip zip)
            if ¬ hasBpmn files then
              raiseApi "missing_fields" "Zip must contain at least one .bpmn file" 400
            else
              createTemplateWithFiles req (some { metadata with version := some version }) files
                tenantId
        | _, _ => raiseApi "missing_fields" "template_key and name are required" 400

/-! ## Editing -/

/-- The keys of an update request; `files` is one of `update_template` only and
`is_published` of `update_template_by_id` only. -/
structure Updates where
  name : Option Text
  description : Option (Option Text)
  tags : Option (Option (List Text))
  category : Option (Option Text)
  visibility : Option Text
  status : Option (Option Text)
  files : Option (List FileEntry)
  isPublished : Bool
  deriving Repr, DecidableEq

/-- `setattr` for every key of the request but `status` and `files`. -/
def Updates.apply (updates : Updates) (row : TemplateModel) : TemplateModel :=
  { row with
    name := updates.name.getD row.name
    description := updates.description.getD row.description
    tags := updates.tags.getD row.tags
    category := updates.category.getD row.category
    visibility := updates.visibility.getD row.visibility }

def Updates.validateName (updates : Updates) : Except Raised Unit :=
  match updates.name with
  | some name => validateTemplateName name
  | none => .ok ()

/-- `update_template`. -/
def updateTemplate (req : Request) (templateKey version : Text) (updates : Updates) :
    Service Unit :=
  if req.superAdminRequest then forbiddenSuperAdmin
  else do
    match ← getTemplate req templateKey version with
    | none => raiseApi "not_found" "Template version not found" 404
    | some template =>
        if template.isPublished then
          raiseApi "immutable" "Published template versions cannot be updated" 400
        else if ¬ canEdit req template then
          raiseApi "forbidden" "You cannot edit this template" 403
        else do
          Proc.ofExcept id updates.validateName
          saveRow template.id fun row =>
            { updates.apply row with
              status := updates.status.getD row.status
              files := updates.files.getD row.files
              modifiedBy := req.gUser.getD row.modifiedBy }

/-- The loop that copies the files of a published version to its draft; a file that
cannot be copied is left out. -/
def copyFiles (tenantId templateKey version nextVersion : Text) :
    List FileEntry → Service (List FileEntry)
  | [] => pure []
  | entry :: files =>
      match truthy entry.fileName with
      | none => copyFiles tenantId templateKey version nextVersion files
      | some fileName => do
          let fileType := entry.fileType.getD (fileTypeFromFilename fileName)
          let copied ← Proc.tryExcept
            (do
              let content ← getFile tenantId templateKey version fileName
              storeFile tenantId templateKey nextVersion fileName content
              pure [(⟨some fileType, some fileName⟩ : FileEntry)])
            fun e =>
              match e with
              | .api _ => pure []
              | e => Proc.raise e
          let entries ← copyFiles tenantId templateKey version nextVersion files
          pure (copied ++ entries)

/-- The drafts of a template, of which the newest row is edited. -/
def existingDraft (rows : List TemplateModel) (templateKey tenant : Text) :
    Option TemplateModel :=
  (rows.filter fun row => row.templateKey = templateKey ∧ row.m8fTenantId = tenant ∧
    row.isPublished = false ∧ row.isDeleted = false).argmax TemplateModel.id

/-- `_get_or_create_draft_version`. -/
def getOrCreateDraftVersion (req : Request) (published : TemplateModel) :
    Service TemplateModel := do
  let tenant := published.m8fTenantId
  let key := published.templateKey
  let w ← Proc.read
  match existingDraft w.rows key tenant with
  | some draft => pure draft
  | none => do
      let next ← Proc.ofExcept id (nextVersion w.rows key tenant)
      let newFiles ← copyFiles tenant key published.version next published.files
      if newFiles = [] then
        raiseApi "storage_error" "Failed to copy any files for the new template version" 500
      else
        let username := req.gUser.getD "unknown".toList
        insertRow
          { published with
            id := 0, version := next, files := newFiles, isPublished := false,
            status := some "draft".toList, isDeleted := false, createdBy := username,
            modifiedBy := username }

/-- Store a diagram in a version: the file of the given name, or else its first BPMN
file, or else `diagram.bpmn`.  The answer is the version's list of files. -/
def writeBpmn (template : TemplateModel) (content : Bytes) (bpmnFileName : Option Text) :
    Service (List FileEntry) :=
  let store := fun name =>
    storeFile template.m8fTenantId template.templateKey template.version name content
  match truthy bpmnFileName with
  | some name => do
      store name
      if template.files.any fun e => e.fileName = some name ∧ e.fileType = some "bpmn".toList then
        pure template.files
      else pure (template.files ++ [⟨some "bpmn".toList, some name⟩])
  | none =>
      match template.files.find? fun e => e.fileType = some "bpmn".toList with
      | some entry => do
          store (entry.fileName.getD "diagram.bpmn".toList)
          pure template.files
      | none => do
          store "diagram.bpmn".toList
          pure (template.files ++ [⟨some "bpmn".toList, some "diagram.bpmn".toList⟩])

/-- The version's list of files, with the diagram of the request if it brings one. -/
def writeRequestedBpmn (template : TemplateModel) (bpmnBytes : Option Bytes)
    (bpmnFileName : Option Text) : Service (List FileEntry) :=
  match bpmnBytes with
  | some content => writeBpmn template content bpmnFileName
  | none => pure template.files

/-- `update_template_by_id`. -/
def updateTemplateById (req : Request) (templateId : Nat) (updates : Updates)
    (bpmnBytes : Option Bytes) (bpmnFileName : Option Text) : Service Unit :=
  if req.superAdminRequest then forbiddenSuperAdmin
  else do
    match ← getTemplateById req templateId false with
    | none => raiseApi "not_found" "Template not found" 404
    | some existing =>
        if ¬ canEdit req existing then raiseApi "forbidden" "You cannot edit this template" 403
        else do
          Proc.ofExcept id updates.validateName
          match req.gUser with
          | none => raiseApi "unauthorized" "User username not found in request context" 403
          | some username =>
              if existing.isPublished = false then do
                let files ← writeRequestedBpmn existing bpmnBytes bpmnFileName
                saveRow existing.id fun row =>
                  { updates.apply row with
                    isPublished := updates.isPublished || row.isPublished
                    -- a requested status overrides the one that publishing sets
                    status := updates.status.getD
                      (if updates.isPublished then some "published".toList else row.status)
                    files := files
                    modifiedBy := username }
              else do
                let target ← getOrCreateDraftVersion req existing
                let files ← writeRequestedBpmn target bpmnBytes bpmnFileName
                -- the draft stays a draft
                saveRow target.id fun row =>
                  { updates.apply row with files := files, modifiedBy := username }

/-- `get_file_content`. -/
def getFileContent (template : TemplateModel) (fileName : Text) : Service Bytes :=
  getFile template.m8fTenantId template.templateKey template.version fileName

/-- The version that an edit of one file goes to: the template itself, or the draft of
a published one. -/
def editTarget (req : Request) (template : TemplateModel) : Service TemplateModel :=
  if template.isPublished = false then pure template else getOrCreateDraftVersion req template

/-- `update_file_content`. -/
def updateFileContent (req : Request) (template : TemplateModel) (fileName : Text)
    (content : Bytes) : Service TemplateModel :=
  if req.superAdminRequest then forbiddenSuperAdmin
  else
    match template.files.find? fun e => e.fileName = some fileName with
    | none => raiseApi "not_found" ("File not found: " ++ String.ofList fileName) 404
    | some _ => do
        let target ← editTarget req template
        storeFile target.m8fTenantId target.templateKey target.version fileName content
        pure target

/-- `delete_file_from_template`. -/
def deleteFileFromTemplate (req : Request) (template : TemplateModel) (fileName : Text) :
    Service TemplateModel :=
  if req.superAdminRequest then forbiddenSuperAdmin
  else if template.files = [] then raiseApi "not_found" "Template has no files" 404
  else if ¬ template.files.any fun e => e.fileName = some fileName then
    raiseApi "not_found" ("File not found: " ++ String.ofList fileName) 404
  else
    let remaining := template.files.filter fun e => e.fileName ≠ some fileName
    if remaining = [] then
      raiseApi "forbidden" "Cannot delete the last file from a template" 403
    else if ¬ remaining.any fun e => e.fileType = some "bpmn".toList then
      raiseApi "forbidden" "Template must have at least one BPMN file" 403
    else do
      let target ← editTarget req template
      let remaining := target.files.filter fun e => e.fileName ≠ some fileName
      saveRow target.id fun row =>
        { row with files := remaining, modifiedBy := req.user.getD row.modifiedBy }
      -- a file that cannot be deleted is left behind
      Proc.tryExcept
        (deleteFile target.m8fTenantId target.templateKey target.version fileName)
        fun _ => pure ()
      pure { target with files := remaining, modifiedBy := req.user.getD target.modifiedBy }

/-! ## Deleting and restoring -/

/-- The loop that deletes the files of a draft, each as far as it can be. -/
def deleteFiles (template : TemplateModel) : List FileEntry → Service Unit
  | [] => pure ()
  | entry :: files =>
      match truthy entry.fileName with
      | none => deleteFiles template files
      | some fileName => do
          Proc.tryExcept
            (deleteFile template.m8fTenantId template.templateKey template.version fileName)
            fun _ => pure ()
          deleteFiles template files

/-- `delete_template_by_id`; `timestamp` is the current time in fourteen digits. -/
def deleteTemplateById (req : Request) (templateId : Nat) (timestamp : Text) : Service Unit :=
  if req.superAdminRequest then forbiddenSuperAdmin
  else do
    match ← getTemplateById req templateId true with
    | none => raiseApi "not_found" "Template not found" 404
    | some template =>
        if template.isDeleted then raiseApi "not_found" "Template not found" 404
        else if template.isPublished then
          if ¬ req.hasAdminPermission .delete then
            raiseApi "forbidden" "Insufficient permissions to delete published templates" 403
          else
            saveRow template.id fun row =>
              { row with
                name := (if row.name = [] then "template".toList else row.name) ++
                  "_deleted_".toList ++ timestamp
                isDeleted := true
                modifiedBy := (truthy req.user).getD row.modifiedBy }
        else if ¬ (req.user = some template.createdBy ∨ req.hasAdminPermission .delete) then
          raiseApi "forbidden" "You cannot delete this template" 403
        else do
          deleteFiles template template.files
          removeRow template.id

/-- `restore_template_by_id`. -/
def restoreTemplateById (req : Request) (templateId : Nat) : Service Unit := do
  match ← getTemplateById req templateId true with
  | none => raiseApi "not_found" "Template not found" 404
  | some template =>
      if ¬ template.isDeleted then raiseApi "invalid_state" "Template is not deleted" 400
      else if ¬ req.hasAdminPermission .update then
        raiseApi "forbidden" "Insufficient permissions to restore templates" 403
      else
        saveRow template.id fun row =>
          { row with
            name :=
              match deletedBase row.name with
              | some base => if base.strip = [] then row.name else base.strip
              | none => row.name
            isDeleted := false
            modifiedBy := (truthy req.user).getD row.modifiedBy }

/-! ## Operations -/

/-- The operations of the service.  Those on one file act on the row that the route
reads with `get_template_by_id`. -/
inductive Operation where
  | create (metadata : Option Metadata) (files : List (Text × Bytes)) (tenantId : Option Text)
  | createBpmn (metadata : Option Metadata) (bpmnBytes : Option Bytes) (tenantId : Option Text)
  | importZip (zip : ZipFile) (metadata : Metadata) (tenantId : Option Text)
  | update (templateKey version : Text) (updates : Updates)
  | updateById (templateId : Nat) (updates : Updates) (bpmnBytes : Option Bytes)
      (bpmnFileName : Option Text)
  | updateFile (templateId : Nat) (fileName : Text) (content : Bytes)
  | deleteFile (templateId : Nat) (fileName : Text)
  | delete (templateId : Nat) (timestamp : Text)
  | restore (templateId : Nat)
  deriving Repr, DecidableEq

/-- One operation of one request, and how its disk calls end. -/
structure Call where
  req : Request
  operation : Operation
  faults : List (Option Fault)

/-- Read a row for an operation on one of its files. -/
def withTemplate (req : Request) (templateId : Nat)
    (body : TemplateModel → Service TemplateModel) : Service Unit := do
  match ← getTemplateById req templateId false with
  | none => raiseApi "not_found" "Template not found" 404
  | some template => do
      let _ ← body template
      pure ()

def Operation.run (req : Request) : Operation → Service Unit
  | .create metadata files tenantId => do
      let _ ← createTemplateWithFiles req metadata files tenantId
      pure ()
  | .createBpmn metadata bpmnBytes tenantId => do
      let _ ← createTemplate req metadata bpmnBytes tenantId
      pure ()
  | .importZip zip metadata tenantId => do
      let _ ← importTemplateFromZip req zip metadata tenantId
      pure ()
  | .update templateKey version updates => updateTemplate req templateKey version updates
  | .updateById templateId updates bpmnBytes bpmnFileName =>
      updateTemplateById req templateId updates bpmnBytes bpmnFileName
  | .updateFile templateId fileName content =>
      withTemplate req templateId fun template => updateFileContent req template fileName content
  | .deleteFile templateId fileName =>
      withTemplate req templateId fun template => deleteFileFromTemplate req template fileName
  | .delete templateId timestamp => deleteTemplateById req templateId timestamp
  | .restore templateId => restoreTemplateById req templateId

/-- One request: the session commits if the operation returns and rolls back if it
raises; the disk keeps what was written either way. -/
def step (w : World) (call : Call) : Option World :=
  match call.operation.run call.req { w with faults := call.faults } with
  | (.ok _, done) => some { done with faults := [] }
  | (.error _, failed) => some { w with disk := failed.disk, faults := [] }

end M8flow.Template
