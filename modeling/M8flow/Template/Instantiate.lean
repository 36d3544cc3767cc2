import M8flow.Catalog.Service
import M8flow.Template.Service
import M8flow.Template.Transform

/-!
# Process models from templates

`create_process_model_from_template`: the files of a published template are read from
template storage, transformed, and written into a new process model of the catalog, whose
provenance is a row of its own.

The two services keep their own states, and a `Site` is both.  `prepare` is the part of the
function that checks and reads, `instantiate` the part from `add_process_model` on.
-/

namespace M8flow.Template

open M8flow.Lib

/-- A row of `m8flow_process_model_template`. -/
structure ProcessModelTemplateModel where
  processModelIdentifier : Text
  sourceTemplateId : Nat
  sourceTemplateKey : Text
  sourceTemplateVersion : Text
  sourceTemplateName : Text
  m8fTenantId : Text
  createdBy : Text
  deriving Repr, DecidableEq

/-- What `uq_process_model_identifier_tenant` compares. -/
def ProcessModelTemplateModel.uniqueKey (row : ProcessModelTemplateModel) : Text × Text :=
  (row.m8fTenantId, row.processModelIdentifier)

/-- The templates, the catalog of the request's tenant, and the provenance rows. -/
structure Site (δ : Type) where
  templates : World
  catalog : Catalog.World δ
  provenance : List ProcessModelTemplateModel

/-- What either service raises. -/
inductive Failure where
  | template (e : Raised)
  | catalog (e : Catalog.Raised)
  deriving Repr, DecidableEq

abbrev Instantiating (δ α : Type) := Proc (Site δ) Failure α

/-- What an instantiation works in. -/
structure Environment (δ : Type) where
  /-- The catalog of the tenant that the request is bound to. -/
  host : Catalog.Host δ
  /-- The letters drawn for the ids of a file, by its place in the loop. -/
  fuzz : Nat → Text
  /-- `str(e)`. -/
  errorText : Failure → Text
  /-- The checks of the database on a row that are not the unique constraint. -/
  admitsRow : ProcessModelTemplateModel → Bool

/-- The arguments, and the id of `g.user`; the route binds the request to the tenant that it
passes. -/
structure Instantiation where
  templateId : Nat
  processGroupId : Text
  processModelId : Text
  displayName : Text
  description : Option Text
  tenantId : Option Text
  userId : Nat

/-- `full_process_model_id`. -/
def Instantiation.fullProcessModelId (call : Instantiation) : Text :=
  call.processGroupId ++ '/' :: call.processModelId

variable {δ α : Type}

def onTemplates (x : Service α) : Instantiating δ α :=
  Proc.focus Site.templates (fun s templates => { s with templates }) .template x

def onCatalog (x : Catalog.Service δ α) : Instantiating δ α :=
  Proc.focus Site.catalog (fun s catalog => { s with catalog }) .catalog x

def refuse (errorCode message : String) (statusCode : Nat) : Instantiating δ α :=
  Proc.raise (.template (.api (.of errorCode message statusCode)))

/-! ## Checks and reads -/

/-- `get_template_by_id`, and the checks of what it answers. -/
def publishedTemplate (req : Request) (templateId : Nat) : Instantiating δ TemplateModel := do
  match ← onTemplates (getTemplateById req templateId false) with
  | none => refuse "not_found" "Template not found" 404
  | some template =>
      if ¬ template.isPublished then
        refuse "invalid_template_state"
          "Process models can only be created from a published template version" 400
      else if template.files = [] then refuse "invalid_template" "Template has no files" 400
      else pure template

/-- The group exists, and nothing in it has the identifier. -/
def requireFree (env : Environment δ) (call : Instantiation) : Instantiating δ Unit := do
  let full := call.fullProcessModelId
  let isGroup ← onCatalog (Catalog.inspect fun tree =>
    Catalog.isProcessGroupIdentifier env.host tree call.processGroupId)
  if ¬ isGroup then
    refuse "process_group_not_found"
      ("Process group '" ++ String.ofList call.processGroupId ++ "' does not exist") 404
  else do
    let isModel ← onCatalog (Catalog.inspect fun tree =>
      Catalog.isProcessModelIdentifier env.host tree full)
    if isModel then
      refuse "process_model_exists"
        ("Process model '" ++ String.ofList full ++ "' already exists") 409
    else do
      let taken ← onCatalog (Catalog.inspect fun tree =>
        Catalog.isProcessGroupIdentifier env.host tree full)
      if taken then
        refuse "process_group_exists"
          ("A process group with ID '" ++ String.ofList full ++ "' already exists") 409
      else pure ()

/-- The message for a file that cannot be read. -/
def readFailureMessage (env : Environment δ) (template : TemplateModel) (fileName : Text)
    (failure : Failure) : String :=
  let copyFailed (reason : String) :=
    "Failed to copy file '" ++ String.ofList fileName ++ "' from template: " ++ reason
  match failure with
  | .template (.api e) =>
      if e.errorCode = "not_found" then
        "Template '" ++ String.ofList template.name ++ "' (" ++ String.ofList template.version ++
          ") is missing file '" ++ String.ofList fileName ++
          "' in template storage, so no process model was created. Re-import the template " ++
          "or ask an administrator to restore its files, then try again."
      else copyFailed e.message
  | other => copyFailed (String.ofList (env.errorText other))

/-- `get_file_content`, with what it raises as the caller's error. -/
def readContent (env : Environment δ) (template : TemplateModel) (fileName : Text) :
    Instantiating δ Bytes :=
  Proc.tryExcept
    (onTemplates (getFile template.m8fTenantId template.templateKey template.version fileName))
    fun failure =>
      refuse "file_copy_failed" (readFailureMessage env template fileName failure) 500

/-- The loop that fills `contents`. -/
def readContents (env : Environment δ) (template : TemplateModel) (contents : Dict Text Bytes) :
    List FileEntry → Instantiating δ (Dict Text Bytes)
  | [] => pure contents
  | entry :: entries =>
      match truthy entry.fileName with
      | none => readContents env template contents entries
      | some fileName => do
          let content ← readContent env template fileName
          readContents env template (contents.set fileName content) entries

/-- What the checks and reads leave for the rest of the function. -/
structure Admission where
  username : Text
  tenant : Text
  template : TemplateModel
  contents : Dict Text Bytes

/-- The function up to `add_process_model`. -/
def prepare (env : Environment δ) (req : Request) (call : Instantiation) :
    Instantiating δ Admission :=
  match req.user with
  | none => refuse "unauthorized" "User must be authenticated" 403
  | some username =>
      match req.tenantFor call.tenantId with
      | none => refuse "tenant_required" "Tenant context required" 400
      | some tenant => do
          let template ← publishedTemplate req call.templateId
          requireFree env call
          let contents ← readContents env template Dict.empty template.files
          pure { username, tenant, template, contents }

/-! ## The new model -/

/-- `process_model_info` at first. -/
def Instantiation.processModelInfo (call : Instantiation) : List (Text × Text) :=
  [("display_name".toList, call.displayName), ("description".toList, call.description.getD []),
    ("status".toList, Catalog.ModelStatus.draft.text)]

/-- The variables of the loop over the files. -/
structure Copying where
  decisionIdMap : Dict Text Text
  primaryFileName : Option Text
  primaryProcessId : Option Text
  filesCopied : Nat

def Copying.start : Copying where
  decisionIdMap := Dict.empty
  primaryFileName := none
  primaryProcessId := none
  filesCopied := 0

/-- `process_model_info` at the end. -/
def Copying.processModelInfo (copying : Copying) (call : Instantiation) : List (Text × Text) :=
  call.processModelInfo ++
    Catalog.optionalField "primary_file_name" (truthy copying.primaryFileName) ++
    Catalog.optionalField "primary_process_id" (truthy copying.primaryProcessId)

/-- The transformation of one file, and the variables after it. -/
def transformEntry (env : Environment δ) (call : Instantiation) (place : Nat)
    (fileType : Option Text) (fileName : Text) (content : Lib.Bytes) (copying : Copying) :
    Lib.Bytes × Copying :=
  if fileType = some "dmn".toList then
    let transformed := transformDmnContent call.processModelId (env.fuzz place) content
    (transformed.1,
      { copying with decisionIdMap := copying.decisionIdMap.merge transformed.2 })
  else if fileType = some "bpmn".toList then
    let transformed :=
      transformBpmnContent call.processModelId (env.fuzz place) copying.decisionIdMap content
    (transformed.1,
      if copying.primaryFileName = none then
        { copying with primaryFileName := some fileName, primaryProcessId := transformed.2 }
      else copying)
  else (content, copying)

/-- `update_file`, with what it raises as the caller's error. -/
def writeEntry (env : Environment δ) (call : Instantiation) (fileName : Text)
    (content : Lib.Bytes) : Instantiating δ TreePath :=
  Proc.tryExcept
    (onCatalog
      (Catalog.updateFile env.host call.fullProcessModelId fileName content call.userId))
    fun failure =>
      refuse "file_write_failed"
        ("Failed to write file '" ++ String.ofList fileName ++ "' to process model: " ++
          String.ofList (env.errorText failure)) 500

/-- `contents[file_name]`, as the catalog has bytes; every name was read. -/
def contentOf (contents : Dict Text Bytes) (fileName : Text) : Lib.Bytes :=
  ⟨((contents.get? fileName).getD []).toArray⟩

/-- The loop that writes the files. -/
def copyEntries (env : Environment δ) (call : Instantiation) (contents : Dict Text Bytes) :
    List FileEntry → Nat → Copying → Instantiating δ Copying
  | [], _, copying => pure copying
  | entry :: entries, place, copying =>
      match truthy entry.fileName with
      | none => copyEntries env call contents entries place copying
      | some fileName => do
          let transformed := transformEntry env call place entry.fileType fileName
            (contentOf contents fileName) copying
          let _ ← writeEntry env call fileName transformed.1
          copyEntries env call contents entries (place + 1)
            { transformed.2 with filesCopied := transformed.2.filesCopied + 1 }

/-- `dmn_entries + other_entries`. -/
def orderedEntries (files : List FileEntry) : List FileEntry :=
  (files.filter fun entry => entry.fileType = some "dmn".toList) ++
    files.filter fun entry => entry.fileType ≠ some "dmn".toList

/-- The provenance row of a new model. -/
def Admission.provenance (admission : Admission) (call : Instantiation) :
    ProcessModelTemplateModel where
  processModelIdentifier := call.fullProcessModelId
  sourceTemplateId := admission.template.id
  sourceTemplateKey := admission.template.templateKey
  sourceTemplateVersion := admission.template.version
  sourceTemplateName := admission.template.name
  m8fTenantId := admission.tenant
  createdBy := admission.username

/-- The database takes the row. -/
def TakesRow (env : Environment δ) (rows : List ProcessModelTemplateModel)
    (row : ProcessModelTemplateModel) : Prop :=
  (∀ other ∈ rows, other.uniqueKey ≠ row.uniqueKey) ∧ env.admitsRow row = true

instance (env : Environment δ) (rows : List ProcessModelTemplateModel)
    (row : ProcessModelTemplateModel) : Decidable (TakesRow env rows row) :=
  inferInstanceAs (Decidable (_ ∧ _))

/-- Add the row and flush. -/
def insertProvenance (env : Environment δ) (row : ProcessModelTemplateModel) :
    Instantiating δ Unit := do
  let s ← Proc.read
  if TakesRow env s.provenance row then
    Proc.modify fun s => { s with provenance := s.provenance ++ [row] }
  else Proc.raise (.template .integrityError)

/-- What the function answers. -/
structure Instantiated where
  processModelInfo : List (Text × Text)
  templateInfo : ProcessModelTemplateModel
  deriving Repr, DecidableEq

/-- The function from the loop over the files on. -/
def fillModel (env : Environment δ) (call : Instantiation) (admission : Admission) :
    Instantiating δ Instantiated := do
  let full := call.fullProcessModelId
  let copied ← copyEntries env call admission.contents (orderedEntries admission.template.files) 0
    Copying.start
  if copied.filesCopied = 0 then
    refuse "no_files_copied" "No files could be copied from the template" 500
  else do
    let info := copied.processModelInfo call
    onCatalog (Catalog.addProcessModel env.host full info)
    insertProvenance env (admission.provenance call)
    -- the commit at this path is a best effort that raises nothing
    let _ ← onCatalog (Catalog.inspect fun tree => Catalog.modelFilePath env.host tree full)
    pure { processModelInfo := info, templateInfo := admission.provenance call }

/-- The function from `add_process_model` on. -/
def instantiate (env : Environment δ) (call : Instantiation) (admission : Admission) :
    Instantiating δ Instantiated := do
  onCatalog
    (Catalog.addProcessModel env.host call.fullProcessModelId call.processModelInfo)
  fillModel env call admission

/-- `create_process_model_from_template`. -/
def createProcessModelFromTemplate (env : Environment δ) (req : Request) (call : Instantiation) :
    Instantiating δ Instantiated := do
  let admission ← prepare env req call
  instantiate env call admission

/-- A request: what its session holds is stored if it succeeds, and given up if it raises. -/
def serve (x : Instantiating δ α) (s : Site δ) : Except Failure α × Site δ :=
  match x { s with catalog := { s.catalog with session := s.catalog.stored } } with
  | (.ok a, after) =>
      (.ok a, { after with catalog := { after.catalog with stored := after.catalog.session } })
  | (.error e, after) =>
      (.error e,
        { after with
          catalog := { after.catalog with session := after.catalog.stored }
          provenance := s.provenance })

end M8flow.Template
