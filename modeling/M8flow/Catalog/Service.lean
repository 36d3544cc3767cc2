import M8flow.Catalog.Identifiers
import M8flow.Lib.Proc

/-!
# The operations of the catalog

The functions of `catalog` that change files or import definitions, and the routes
over them.  A `Service` runs in one request: files change at once, and what the
session holds is stored when the request ends, unless it failed.

- `serve` is one request.
- `Operation` lists the requests, and `step` is the system.

Templates, the update of a group's metadata and script unit tests are not here.
-/

namespace M8flow.Catalog

open M8flow.Lib

/-- The tenant's files, and core's tables: as they are stored, and in the session. -/
structure World (δ : Type) where
  tree : FileTree
  stored : δ
  session : δ

/-- A procedure of the catalog. -/
abbrev Service (δ α : Type) := Proc (World δ) Raised α

variable {δ α : Type}

/-! ## Steps of procedures -/

/-- A check that reads nothing. -/
def check (answer : Except Raised α) : Service δ α := Proc.ofExcept id answer

/-- A check of the files. -/
def inspect (answer : FileTree → Except Raised α) : Service δ α :=
  Proc.read >>= fun w => check (answer w.tree)

def abort (errorCode message : String) (statusCode : Nat) : Service δ α :=
  Proc.raise (.api (.of errorCode message statusCode))

/-- The API error, unless the condition holds. -/
def require (holds : Bool) (errorCode message : String) (statusCode : Nat) : Service δ Unit :=
  if holds then pure () else abort errorCode message statusCode

/-- A change of the files that the file system can refuse. -/
def changeFiles (change : FileTree → Option FileTree) : Service δ Unit := fun w =>
  match change w.tree with
  | some tree => (.ok (), { w with tree })
  | none => (.error .osError, w)

/-- `path.mkdir(parents=True)`. -/
def makeDirs (path : TreePath) : Service δ Unit := changeFiles fun tree => tree.mkdirs path

/-- `path.write_bytes(content)`. -/
def writeBytes (path : TreePath) (content : Bytes) : Service δ Unit :=
  changeFiles fun tree => tree.write path content

/-- `shutil.rmtree(path)` or `path.unlink()`. -/
def removePath (path : TreePath) : Service δ Unit :=
  changeFiles fun tree => some (tree.remove path)

/-- Write a file, and make the directories that it lies in. -/
def writeFile (path : TreePath) (content : Bytes) : Service δ Unit := do
  makeDirs path.dropLast
  writeBytes path content

/-- `workflow.import_definition` in the session of the request. -/
def importDefinition (host : Host δ) (command : ImportCommand) : Service δ Unit := fun w =>
  match host.importDefinition command w.session with
  | (answer, session) => (answer, { w with session })

/-- `path.read_text` of a file; a text that is not UTF-8 raises what is given. -/
def readTextOr (path : TreePath) (undecodable : Raised) : Service δ Text :=
  inspect fun tree =>
    match tree.read path with
    | none => .error .osError
    | some content =>
        match readText content with
        | some s => .ok s
        | none => .error undecodable

def notFound (message : String) : Service δ α := abort "not_found" message 404

/-- The guard of the operations on a model. -/
def requireModel (host : Host δ) (processModelIdentifier : Text) : Service δ Unit := do
  let found ← inspect fun tree => modelExists host tree processModelIdentifier
  require found "not_found" "Process model not found" 404

/-! ## Identities -/

/-- The last segment of an identifier. -/
def identifierLeaf (identifier : Text) : Text :=
  Text.lastPart '/' (Text.rstripChar '/' identifier)

/-- What `get_model_identity` answers. -/
structure ModelIdentity where
  id : Text
  displayName : Text
  description : Text
  groupId : Text
  groupDisplayName : Text
  status : ModelStatus
  deriving Repr, DecidableEq

/-- `process_group_display_name`. -/
def processGroupDisplayName (host : Host δ) (tree : FileTree) (groupId : Text) :
    Except Raised Text :=
  if groupId = [] then .ok []
  else
    (tenantJson host tree [groupId, groupJson] groupPathError).map fun fields =>
      (strippedField fields "display_name").getD (identifierLeaf groupId)

/-- `get_model_identity`. -/
def getModelIdentity (host : Host δ) (tree : FileTree) (processModelIdentifier : Text) :
    Except Raised (Option ModelIdentity) := do
  if ← modelExists host tree processModelIdentifier then
    let groupId := processGroupIdForModel processModelIdentifier
    let fields ← tenantJson host tree [processModelIdentifier, modelJson] modelPathError
    let groupDisplayName ← processGroupDisplayName host tree groupId
    let status ← processModelStatus host tree processModelIdentifier
    pure (some {
      id := processModelIdentifier
      displayName :=
        (strippedField fields "display_name").getD (identifierLeaf processModelIdentifier)
      description := (strippedField fields "description").getD []
      groupId, groupDisplayName, status })
  else pure none

/-- The identity, or the error when there is none. -/
def requireIdentity (host : Host δ) (processModelIdentifier : Text) : Service δ ModelIdentity := do
  let identity ← inspect fun tree => getModelIdentity host tree processModelIdentifier
  match identity with
  | some identity => pure identity
  | none => notFound "Process model not found"

/-! ## Files of a model -/

/-- `write_spec_file`. -/
def writeSpecFile (host : Host δ) (path fileName : Text) (content : Bytes) :
    Service δ TreePath := do
  let target ← check (resolvedInsideTenant host [path, fileName] modelPathError)
  writeFile target content
  pure target

/-- `_write_process_model_json`. -/
def writeProcessModelJson (host : Host δ) (modelId : Text) (info : List (Text × Text)) :
    Service δ Unit := do
  let path ← check (resolvedInsideTenant host [modelId, modelJson] modelPathError)
  writeFile path (encodeUtf8 (JsonText.dumps info))

/-- `_write_process_group_json`. -/
def writeProcessGroupJson (host : Host δ) (groupId : Text) (info : List (Text × Text)) :
    Service δ Unit := do
  let path ← check (resolvedInsideTenant host [groupId, groupJson] groupPathError)
  writeFile path (encodeUtf8 (JsonText.dumps info))

/-- `add_process_model`. -/
def addProcessModel (host : Host δ) (modelId : Text) (info : List (Text × Text)) :
    Service δ Unit := do
  let path ← check (resolvedInsideTenant host [modelId] modelPathError)
  makeDirs path
  writeProcessModelJson host modelId info

/-- The names that `*.dmn` matches in a directory, and that are files. -/
def dmnNames (tree : FileTree) (dir : TreePath) : List Text :=
  (tree.children dir).filter fun name =>
    ".dmn".toList.isSuffixOf name && tree.isFile (dir ++ [name])

/-- `model_dmn_xml`; `pending` are files that are not written yet. -/
def modelDmnXml (host : Host δ) (tree : FileTree) (processModelIdentifier bpmnXml : Text)
    (pending : List (Text × Text)) : Except Raised (Option Text) := do
  let dir ← resolvedInsideTenant host [processModelIdentifier] modelPathError
  let onDisk ← (dmnNames tree dir).mapM fun name =>
    match (tree.read (dir ++ [name])).bind readText with
    | some s => Except.ok (name, s)
    | none =>
        Except.error (.api (.of "invalid_file_content" "DMN file is not valid UTF-8" 400))
  let sources := pending ++ onDisk
  let names := (sources.map Prod.fst).insertionSort fun name other => name ≤ other
  let called := calledDecisionIds (host.parseXml bpmnXml)
  let chosen := names.find? fun name =>
    (((sources.lookup name).map host.parseXml).bind dmnDecisionId).any fun id => id ∈ called
  pure ((chosen.or names.head?).bind fun name => sources.lookup name)

/-- `Path(path).name`. -/
def pathName (path : Text) : Text :=
  (((Text.splitOn ['/'] path).filter fun part => part ≠ [] ∧ part ≠ ['.']).getLast?).getD []

/-- Where `save` writes: at the name that the caller knows, or at the model's primary file. -/
def diskPath (host : Host δ) (tree : FileTree) (path : Text) (fileName : Option Text) :
    Except Raised TreePath :=
  match truthy fileName with
  | some fileName => resolvedInsideTenant host [path, fileName] modelPathError
  | none => modelFilePath host tree path

/-- `save`. -/
def save (host : Host δ) (path xml : Text) (userId : Nat) (fileName : Option Text) :
    Service δ Unit := do
  check (rejectUnsupportedConstructs host.casing (host.parseXml xml))
  let sourceDmnXml ← inspect fun tree => modelDmnXml host tree path xml []
  importDefinition host
    { userId, bpmnIdentifier := path, sourceBpmnXml := xml, sourceDmnXml, bpmnName := pathName path }
  let target ← inspect fun tree => diskPath host tree path fileName
  writeFile target (encodeUtf8 xml)

/-- The import again of the model's primary file, after one of its decisions changed. -/
def saveAgain (host : Host δ) (modelId : Text) (userId : Nat) : Service δ Unit := do
  let bpmnPath ← inspect fun tree => modelFilePath host tree modelId
  let isFile ← inspect fun tree => .ok (tree.isFile bpmnPath)
  if isFile then do
    let xml ← readTextOr bpmnPath .valueError
    save host modelId xml userId bpmnPath.getLast?
  else pure ()

/-- What `update_file` does after it wrote the file. -/
def importUpdated (host : Host δ) (modelId fileName : Text) (content : Bytes) (userId : Nat) :
    Service δ Unit :=
  let lower := host.casing.lower fileName
  if ".bpmn".toList.isSuffixOf lower then
    -- the `UnicodeDecodeError` is a `ValueError`
    match decodeUtf8 content with
    | some xml => save host modelId xml userId (some fileName)
    | none => Proc.raise .valueError
  else if ".dmn".toList.isSuffixOf lower then saveAgain host modelId userId
  else pure ()

/-- `update_file`. -/
def updateFile (host : Host δ) (modelId fileName : Text) (content : Bytes) (userId : Nat) :
    Service δ TreePath := do
  let path ← writeSpecFile host modelId fileName content
  importUpdated host modelId fileName content userId
  pure path

/-- `put_process_model_file`. -/
def putProcessModelFile (host : Host δ) (processModelIdentifier fileName : Text) (content : Bytes)
    (userId : Nat) : Service δ TreePath := do
  requireModel host processModelIdentifier
  let fileName ← check (validateLeafFileName fileName)
  require (!content.isEmpty) "missing_content" "Request body is required" 400
  updateFile host processModelIdentifier fileName content userId

/-- The body of a new file: the default one, or what was sent. -/
def newFileBody (host : Host δ) (name : Text) (content : Option Bytes) : Except Raised Bytes :=
  let suffix := fileSuffix host.casing name
  match content with
  | none =>
      if suffix ∈ defaultCreateSuffixes then .ok (defaultFileBytes host.casing name)
      else
        .error (.api (.of "unsupported_file_type"
          "Add file without content must be .bpmn, .dmn, .json, or .md" 400))
  | some content =>
      if suffix ∉ uploadSuffixes then
        .error (.api (.of "unsupported_file_type" "That file type is not allowed" 400))
      else if content.isEmpty then
        .error (.api (.of "missing_content" "Request body is required" 400))
      else .ok content

/-- The import before a new file is written. -/
def importNewFile (host : Host δ) (processModelIdentifier name : Text) (body : Bytes)
    (userId : Nat) : Service δ Unit :=
  let suffix := fileSuffix host.casing name
  if suffix = ".bpmn".toList then
    match decodeUtf8 body with
    | none => abort "invalid_file_content" "File is not valid UTF-8" 400
    | some xml => do
        check (rejectUnsupportedConstructs host.casing (host.parseXml xml))
        let sourceDmnXml ← inspect fun tree => modelDmnXml host tree processModelIdentifier xml []
        importDefinition host
          { userId, bpmnIdentifier := processModelIdentifier, sourceBpmnXml := xml, sourceDmnXml,
            bpmnName := name }
  else if suffix = ".dmn".toList then
    match decodeUtf8 body with
    | none => abort "invalid_file_content" "DMN file is not valid UTF-8" 400
    | some dmnXml => do
        require (dmnDecisionId (host.parseXml dmnXml)).isSome "invalid_file_content"
          "DMN file must be DMN XML with a decision" 400
        let bpmnPath ← inspect fun tree => modelFilePath host tree processModelIdentifier
        let isFile ← inspect fun tree => .ok (tree.isFile bpmnPath)
        if isFile then do
          let bpmnXml ← readTextOr bpmnPath .valueError
          let sourceDmnXml ← inspect fun tree =>
            modelDmnXml host tree processModelIdentifier bpmnXml [(name, dmnXml)]
          importDefinition host
            { userId, bpmnIdentifier := processModelIdentifier, sourceBpmnXml := bpmnXml,
              sourceDmnXml, bpmnName := bpmnPath.getLast?.getD [] }
        else pure ()
  else pure ()

/-- `create_model_file`. -/
def createModelFile (host : Host δ) (processModelIdentifier : Text) (fileName : TextArgument)
    (content : Option Bytes) (userId : Nat) : Service δ TreePath := do
  requireModel host processModelIdentifier
  let name ← check (validateLeafFileName ((fileName.map Text.strip).getD []))
  require (host.casing.lower name ∉ reservedModelFileNames) "reserved_file_name"
    "That file name is reserved" 400
  let body ← check (newFileBody host name content)
  let target ← check (resolvedInsideTenant host [processModelIdentifier, name] modelPathError)
  let taken ← inspect fun tree => .ok (tree.exists target)
  require (!taken) "file_exists" "A file with this name already exists" 409
  importNewFile host processModelIdentifier name body userId
  writeSpecFile host processModelIdentifier name body

/-- `delete_model_file`. -/
def deleteModelFile (host : Host δ) (processModelIdentifier fileName : Text) : Service δ Unit := do
  requireModel host processModelIdentifier
  let name ← check (validateLeafFileName fileName)
  require (host.casing.lower name ∉ reservedModelFileNames) "reserved_file_name"
    "That file name is reserved" 400
  let path ← check (resolvedInsideTenant host [processModelIdentifier, name] modelPathError)
  let isFile ← inspect fun tree => .ok (tree.isFile path)
  require isFile "not_found" ("File not found: " ++ String.ofList name) 404
  let fields ← inspect fun tree =>
    tenantJson host tree [processModelIdentifier, modelJson] modelPathError
  require (strippedField fields "primary_file_name" ≠ path.getLast?) "cannot_delete_primary"
    "Set another file as primary before deleting this one." 409
  removePath path

/-! ## Groups -/

/-- What `create_process_group` answers; the group has no models yet. -/
structure GroupRow where
  id : Text
  displayName : Text
  description : Text
  deriving Repr, DecidableEq

/-- `create_process_group`. -/
def createProcessGroup (host : Host δ) (groupId displayName description : TextArgument) :
    Service δ GroupRow := do
  let cleaned ← check (validateProcessGroupId groupId)
  let target ← check (resolvedInsideTenant host [cleaned] groupPathError)
  let isModel ← inspect fun tree => isProcessModelIdentifier host tree cleaned
  require (!isModel) "process_model_exists" "A process model already uses this id" 409
  let taken ← inspect fun tree => .ok (tree.exists target)
  require (!taken) "process_group_exists" "Process group already exists" 409
  makeDirs target
  let name := (truthy (displayName.map Text.strip)).getD (Text.lastPart '/' cleaned)
  let desc := (description.map Text.strip).getD []
  writeProcessGroupJson host cleaned
    [("display_name".toList, name), ("description".toList, desc)]
  pure { id := cleaned, displayName := name, description := desc }

/-- `catalog.delete_process_group`. -/
def deleteGroupTree (host : Host δ) (groupId : TextArgument) : Service δ Unit := do
  let cleaned ← check (validateProcessGroupId groupId)
  let target ← check (resolvedInsideTenant host [cleaned] groupPathError)
  let found ← inspect fun tree => processGroupExists host tree (some cleaned)
  require found "not_found" "Process group not found" 404
  removePath target

/-! ## Models -/

/-- `except Exception: rmtree(target); raise`. -/
def undoing (target : TreePath) (body : Service δ α) : Service δ α :=
  Proc.tryExcept body fun e => do
    removePath target
    Proc.raise e

/-- `create_process_model`. -/
def createProcessModel (host : Host δ) (groupId leafId displayName description : TextArgument)
    (userId : Nat) : Service δ ModelIdentity := do
  let group ← check (validateProcessGroupId groupId)
  let leaf ← check (resolveProcessModelLeaf host.casing leafId displayName)
  let found ← inspect fun tree => processGroupExists host tree (some group)
  require found "not_found" "Process group not found" 404
  let modelId := group ++ '/' :: leaf
  let target ← check (resolvedInsideTenant host [modelId] modelPathError)
  let isModel ← inspect fun tree => modelExists host tree modelId
  let taken ← inspect fun tree => .ok (tree.exists target)
  require (!(isModel || taken)) "process_model_exists" "Process model already exists" 409
  let name := (truthy (displayName.map Text.strip)).getD leaf
  let desc := (description.map Text.strip).getD []
  let processId := bpmnProcessId leaf
  let fileName := leaf ++ ".bpmn".toList
  let xml := defaultBpmnXml processId
  check (rejectUnsupportedConstructs host.casing (host.parseXml xml))
  undoing target do
    importDefinition host
      { userId, bpmnIdentifier := modelId, sourceBpmnXml := xml, sourceDmnXml := none,
        bpmnName := fileName }
    addProcessModel host modelId
      [("display_name".toList, name), ("description".toList, desc),
        ("status".toList, ModelStatus.draft.text), ("primary_file_name".toList, fileName),
        ("primary_process_id".toList, processId)]
    let _ ← writeSpecFile host modelId fileName (encodeUtf8 xml)
    pure ()
  requireIdentity host modelId

/-- A field of a metadata file, if there is a value for it. -/
def optionalField (name : String) (value : Option Text) : List (Text × Text) :=
  (value.map fun value => (name.toList, value)).toList

/-- The metadata that an update writes. -/
def updatedFields (name desc : Text) (status : ModelStatus) (primary processId : Option Text) :
    List (Text × Text) :=
  [("display_name".toList, name), ("description".toList, desc), ("status".toList, status.text)] ++
    optionalField "primary_file_name" primary ++ optionalField "primary_process_id" processId

/-- The primary file after an update: the one that is asked for, if it is a file. -/
def updatedPrimary (host : Host δ) (tree : FileTree) (processModelIdentifier : Text)
    (current : Option Text) (primaryFileName : TextArgument) : Except Raised (Option Text) :=
  match primaryFileName with
  | none => .ok current
  | some primary => do
      let candidate ← validateLeafFileName primary.strip
      let filePath ← resolvedInsideTenant host [processModelIdentifier, candidate] modelPathError
      if tree.isFile filePath then .ok (some candidate)
      else
        .error (.api (.of "invalid_primary_file"
          "Primary file not found in this process model" 400))

/-- The status after an update: the one that is asked for, if the transition is permitted. -/
def updatedStatus (host : Host δ) (current : ModelStatus) (status : Option TextArgument) :
    Except Raised ModelStatus :=
  match status with
  | none => .ok current
  | some requested => validatedStatusTransition host current requested

/-- `update_process_model_metadata`; an argument is absent, or a text or something else. -/
def updateProcessModelMetadata (host : Host δ) (processModelIdentifier : Text)
    (displayName description primaryFileName : TextArgument) (status : Option TextArgument) :
    Service δ ModelIdentity := do
  requireModel host processModelIdentifier
  let fields ← inspect fun tree =>
    tenantJson host tree [processModelIdentifier, modelJson] modelPathError
  let leaf := Text.lastPart '/' processModelIdentifier
  let name :=
    match displayName with
    | some displayName => (truthy (some displayName.strip)).getD leaf
    | none => (strippedField fields "display_name").getD leaf
  let desc :=
    match description with
    | some description => description.strip
    | none => (strippedField fields "description").getD []
  let primary ← inspect fun tree =>
    updatedPrimary host tree processModelIdentifier (strippedField fields "primary_file_name")
      primaryFileName
  let current ← inspect fun tree => processModelStatus host tree processModelIdentifier
  let next ← check (updatedStatus host current status)
  writeProcessModelJson host processModelIdentifier
    (updatedFields name desc next primary (strippedField fields "primary_process_id"))
  requireIdentity host processModelIdentifier

/-- The loop body of `copy_process_model`: a file is copied, unless it is the metadata. -/
def copyFile (sourceDir dest : TreePath) (name : Text) : Service δ Unit := do
  let content ← inspect fun tree => .ok (tree.read (sourceDir ++ [name]))
  match content with
  | some content => if name ≠ modelJson then writeBytes (dest ++ [name]) content else pure ()
  | none => pure ()

/-- The loop of `copy_process_model` over the names in the source directory. -/
def copyFiles (sourceDir dest : TreePath) : List Text → Service δ Unit
  | [] => pure ()
  | name :: names => do
      copyFile sourceDir dest name
      copyFiles sourceDir dest names

/-- The primary file that a copy names: the source's, if the copy has it, or the first
diagram. -/
def copiedPrimary (host : Host δ) (tree : FileTree) (destId : Text) (dest : TreePath)
    (fields : List (Text × Option Text)) : Except Raised (Option Text) :=
  let first := firstBpmnName host.casing tree dest
  match strippedField fields "primary_file_name" with
  | none => .ok first
  | some primary =>
      match resolvedInsideTenant host [destId, primary] modelPathError with
      | .error (.api _) => .ok first
      | .error other => .error other
      | .ok path => .ok (if tree.isFile path then some primary else first)

/-- The diagram of a copy: its primary file, if that is one, or the first. -/
def copiedBpmn (host : Host δ) (tree : FileTree) (dest : TreePath) (primary : Option Text) :
    Option Text :=
  match primary with
  | some primary =>
      if ".bpmn".toList.isSuffixOf (host.casing.lower primary) then some primary
      else firstBpmnName host.casing tree dest
  | none => firstBpmnName host.casing tree dest

/-- The import at the end of `copy_process_model`. -/
def importCopy (host : Host δ) (destId bpmnName : Text) (userId : Nat) : Service δ Unit := do
  let xmlPath ← check (resolvedInsideTenant host [destId, bpmnName] modelPathError)
  let xml ← readTextOr xmlPath
    (.api (.of "invalid_file_content" "File is not valid UTF-8" 400))
  check (rejectUnsupportedConstructs host.casing (host.parseXml xml))
  let sourceDmnXml ← inspect fun tree => modelDmnXml host tree destId xml []
  importDefinition host
    { userId, bpmnIdentifier := destId, sourceBpmnXml := xml, sourceDmnXml, bpmnName }

/-- The body of the `try` of `copy_process_model`. -/
def fillCopy (host : Host δ) (sourceDir dest : TreePath) (destId leaf : Text)
    (displayName : TextArgument) (userId : Nat) : Service δ Unit := do
  let names ← inspect fun tree => .ok (tree.children sourceDir)
  copyFiles sourceDir dest names
  let fields ← inspect fun tree => .ok (readJsonFile tree (sourceDir ++ [modelJson]))
  let primary ← inspect fun tree => copiedPrimary host tree destId dest fields
  writeProcessModelJson host destId
    (updatedFields ((truthy (displayName.map Text.strip)).getD leaf)
      ((strippedField fields "description").getD []) .draft primary
      (strippedField fields "primary_process_id"))
  let bpmnName ← inspect fun tree => .ok (copiedBpmn host tree dest primary)
  match bpmnName with
  | some bpmnName => importCopy host destId bpmnName userId
  | none => pure ()

/-- `copy_process_model`. -/
def copyProcessModel (host : Host δ) (sourceIdentifier : Text) (leafId displayName : TextArgument)
    (userId : Nat) : Service δ ModelIdentity := do
  requireModel host sourceIdentifier
  let group := processGroupIdForModel sourceIdentifier
  let leaf ← check (validateProcessModelLeaf leafId)
  let destId := if group = [] then leaf else group ++ '/' :: leaf
  let dest ← check (resolvedInsideTenant host [destId] modelPathError)
  let isModel ← inspect fun tree => modelExists host tree destId
  let taken ← inspect fun tree => .ok (tree.exists dest)
  require (!(isModel || taken)) "process_model_exists" "Process model already exists" 409
  let sourceDir ← check (resolvedInsideTenant host [sourceIdentifier] modelPathError)
  makeDirs dest
  undoing dest (fillCopy host sourceDir dest destId leaf displayName userId)
  requireIdentity host destId

/-- `catalog.delete_process_model`. -/
def deleteModelTree (host : Host δ) (processModelIdentifier : Text) : Service δ Unit := do
  let target ← check (resolvedInsideTenant host [processModelIdentifier] modelPathError)
  let found ← inspect fun tree => .ok (tree.isDir target)
  require found "not_found" "Process model not found" 404
  removePath target

/-! ## Instances -/

/-- `LIKE` with its wildcards and its escape character. -/
def like : (pattern : Text) → Text → Bool
  | [], s => s.isEmpty
  | '%' :: pattern, s => s.tails.any (like pattern)
  | '\\' :: c :: pattern, s => s.head? = some c && like pattern (s.drop 1)
  | '_' :: pattern, s => !s.isEmpty && like pattern (s.drop 1)
  | c :: pattern, s => s.head? = some c && like pattern (s.drop 1)

/-- `count_instances_for_process_model`, of the identifiers that the tenant's instances have. -/
def countInstancesForProcessModel (instances : List Text) (processModelIdentifier : Text) : Nat :=
  instances.countP fun identifier => identifier = processModelIdentifier

/-- `count_instances_for_process_group`; `startswith` does not escape the prefix. -/
def countInstancesForProcessGroup (instances : List Text) (groupId : Text) : Nat :=
  instances.countP fun identifier =>
    identifier = groupId || like (Text.rstripChar '/' groupId ++ ['/', '%']) identifier

/-- The route `delete_process_model`, with the instances that the tenant has. -/
def deleteProcessModel (host : Host δ) (processModelIdentifier : Text) (instances : List Text) :
    Service δ Unit := do
  requireModel host processModelIdentifier
  let count := countInstancesForProcessModel instances processModelIdentifier
  require (count = 0) "process_model_has_instances"
    ("This process model has " ++ toString count ++ " process instance(s) and cannot be deleted.")
    409
  deleteModelTree host processModelIdentifier

/-- The route `delete_process_group`. -/
def deleteProcessGroup (host : Host δ) (groupId : Text) (instances : List Text) :
    Service δ Unit := do
  let found ← inspect fun tree => processGroupExists host tree (some groupId)
  require found "not_found" "Process group not found" 404
  let count := countInstancesForProcessGroup instances groupId
  require (count = 0) "process_group_has_instances"
    ("This process group has " ++ toString count ++ " process instance(s) and cannot be deleted.")
    409
  deleteGroupTree host (some groupId)

/-! ## Requests -/

/-- A request that changes the catalog. -/
inductive Operation where
  | createProcessGroup (groupId displayName description : TextArgument)
  | createProcessModel (groupId leafId displayName description : TextArgument) (userId : Nat)
  | copyProcessModel (sourceIdentifier : Text) (leafId displayName : TextArgument) (userId : Nat)
  | updateProcessModelMetadata (processModelIdentifier : Text)
      (displayName description primaryFileName : TextArgument) (status : Option TextArgument)
  | createModelFile (processModelIdentifier : Text) (fileName : TextArgument)
      (content : Option Bytes) (userId : Nat)
  | deleteModelFile (processModelIdentifier fileName : Text)
  | putProcessModelFile (processModelIdentifier fileName : Text) (content : Bytes) (userId : Nat)
  | save (path xml : Text) (userId : Nat)
  | deleteProcessModel (processModelIdentifier : Text) (instances : List Text)
  | deleteProcessGroup (groupId : Text) (instances : List Text)

/-- What a request answers does not matter for what follows it. -/
def ignoring (service : Service δ α) : Service δ Unit := do
  let _ ← service
  pure ()

def Operation.run (host : Host δ) : Operation → Service δ Unit
  | createProcessGroup groupId displayName description =>
      ignoring (Catalog.createProcessGroup host groupId displayName description)
  | createProcessModel groupId leafId displayName description userId =>
      ignoring (Catalog.createProcessModel host groupId leafId displayName description userId)
  | copyProcessModel sourceIdentifier leafId displayName userId =>
      ignoring (Catalog.copyProcessModel host sourceIdentifier leafId displayName userId)
  | updateProcessModelMetadata identifier displayName description primaryFileName status =>
      ignoring (Catalog.updateProcessModelMetadata host identifier displayName description
        primaryFileName status)
  | createModelFile identifier fileName content userId =>
      ignoring (Catalog.createModelFile host identifier fileName content userId)
  | deleteModelFile identifier fileName => Catalog.deleteModelFile host identifier fileName
  | putProcessModelFile identifier fileName content userId =>
      ignoring (Catalog.putProcessModelFile host identifier fileName content userId)
  | save path xml userId => Catalog.save host path xml userId none
  | deleteProcessModel identifier instances => Catalog.deleteProcessModel host identifier instances
  | deleteProcessGroup groupId instances => Catalog.deleteProcessGroup host groupId instances

/-- A request: its session starts from what is stored, and is stored if the request succeeds. -/
def serve (service : Service δ α) (w : World δ) : Except Raised α × World δ :=
  match service { w with session := w.stored } with
  | (.ok a, after) => (.ok a, { after with stored := after.session })
  | (.error e, after) => (.error e, { after with session := after.stored })

/-- Every request can be sent; one that is refused can have changed files. -/
def step (host : Host δ) (w : World δ) (operation : Operation) : Option (World δ) :=
  some (serve (operation.run host) w).2

end M8flow.Catalog
