import M8flow.Catalog.Constructs
import M8flow.Lib.FileTree
import M8flow.Lib.JsonText

/-!
# Identifiers, metadata and statuses of the catalog

The part of `catalog` that only reads: where an identifier is on disk, what the
metadata files say, which identifiers and file names are valid, and the texts that
new files start with.

- `resolvedInsideTenant` is the one way from identifiers to paths.
- `validateProcessGroupId_segments`: a valid group identifier is the text of a path
  whose segments have letters, digits, dashes and underscores.
-/

namespace M8flow.Catalog

open M8flow.Lib

/-- An argument that is a text or not. -/
abbrev TextArgument := Option Text

/-- `ImportBpmnProcessDefinitionCommand`, of one tenant. -/
structure ImportCommand where
  userId : Nat
  bpmnIdentifier : Text
  sourceBpmnXml : Text
  sourceDmnXml : Option Text
  bpmnName : Text
  deriving Repr, DecidableEq

/-- What the catalog works in: the tables of casing, the tenant's directory, the XML parser,
and core's command on the tables of a session. -/
structure Host (δ : Type) where
  casing : Casing
  /-- `_tenant_models_root`. -/
  root : TreePath
  root_segments : ∀ segment ∈ root, IsSegment segment
  parseXml : Text → XmlParse
  /-- `workflow.import_definition`; it can change tables and then raise. -/
  importDefinition : ImportCommand → δ → Except Raised Unit × δ
  /-- `repr` of an argument. -/
  repr : TextArgument → Text

variable {δ : Type} {host : Host δ}

/-! ## Paths -/

/-- `_GROUP_PATH_ERROR`. -/
def groupPathError : ApiError :=
  .of "invalid_process_group" "Invalid process group identifier" 400

/-- `_MODEL_PATH_ERROR`. -/
def modelPathError : ApiError :=
  .of "invalid_process_model" "Invalid process model identifier" 400

/-- `_resolved_inside_tenant`; the file system refuses a NUL with a `ValueError`. -/
def resolvedInsideTenant (host : Host δ) (parts : List Text) (pathError : ApiError) :
    Except Raised TreePath :=
  if (joinParts host.root parts).any fun part => '\x00' ∈ part then .error .valueError
  else
    match resolveUnder host.root parts with
    | some path => .ok path
    | none => .error (.api pathError)

section Paths

variable {parts : List Text} {pathError : ApiError} {path : TreePath}

theorem resolvedInsideTenant_eq_ok :
    resolvedInsideTenant host parts pathError = .ok path ↔
      ((joinParts host.root parts).any fun part => '\x00' ∈ part) = false ∧
        resolveUnder host.root parts = some path := by
  unfold resolvedInsideTenant
  cases hnul : (joinParts host.root parts).any fun part => '\x00' ∈ part with
  | true => simp
  | false =>
      cases hpath : resolveUnder host.root parts with
      | none => simp
      | some found => simp

theorem isSegment_of_resolved (h : resolvedInsideTenant host parts pathError = .ok path) :
    ∀ segment ∈ path, IsSegment segment :=
  isSegment_of_resolveUnder host.root_segments (resolvedInsideTenant_eq_ok.mp h).2

theorem ne_nil_of_resolved (h : resolvedInsideTenant host parts pathError = .ok path) :
    path ≠ [] :=
  (resolveUnder_eq_some.mp (resolvedInsideTenant_eq_ok.mp h).2).1

/-- The error that a call site chooses does not decide where the path is. -/
theorem resolved_unique {pathError' : ApiError} {path' : TreePath}
    (h : resolvedInsideTenant host parts pathError = .ok path)
    (h' : resolvedInsideTenant host parts pathError' = .ok path') : path' = path := by
  have hpath := (resolvedInsideTenant_eq_ok.mp h).2
  rw [(resolvedInsideTenant_eq_ok.mp h').2] at hpath
  exact Option.some.inj hpath

/-- A file of a resolved directory lies in it. -/
theorem eq_concat_of_resolved {identifier name : Text} {pathError' : ApiError} {dir : TreePath}
    (hname : IsSegment name) (hdir : resolvedInsideTenant host [identifier] pathError' = .ok dir)
    (h : resolvedInsideTenant host [identifier, name] pathError = .ok path) :
    path = dir ++ [name] := by
  have hconcat := resolveUnder_concat hname (resolvedInsideTenant_eq_ok.mp hdir).2
  have hpath := (resolvedInsideTenant_eq_ok.mp h).2
  rw [List.singleton_append] at hconcat
  rw [hconcat] at hpath
  exact (Option.some.inj hpath).symm

theorem resolved_concat {identifier name : Text} {pathError' : ApiError} {dir : TreePath}
    (hname : IsSegment name) (hnul : '\x00' ∉ name)
    (hdir : resolvedInsideTenant host [identifier] pathError' = .ok dir) :
    resolvedInsideTenant host [identifier, name] pathError = .ok (dir ++ [name]) := by
  obtain ⟨hclean, hpath⟩ := resolvedInsideTenant_eq_ok.mp hdir
  have hjoin : joinParts host.root [identifier, name] = joinParts host.root [identifier] ++ [name] :=
    @joinParts_concat host.root [identifier] name hname
  rw [resolvedInsideTenant_eq_ok, hjoin, List.any_append, hclean]
  refine ⟨?_, resolveUnder_concat hname hpath⟩
  simp [hnul]

end Paths

/-- `process_model.json`. -/
def modelJson : Text := "process_model.json".toList

/-- `process_group.json`. -/
def groupJson : Text := "process_group.json".toList

theorem groupJson_ne_modelJson : groupJson ≠ modelJson := by decide

/-- The directory has an entry that `*.bpmn` matches. -/
def hasBpmn (tree : FileTree) (dir : TreePath) : Bool :=
  (tree.children dir).any fun name => ".bpmn".toList.isSuffixOf name

/-- `is_process_model_identifier`. -/
def isProcessModelIdentifier (host : Host δ) (tree : FileTree) (path : Text) :
    Except Raised Bool :=
  match resolvedInsideTenant host [path] modelPathError with
  | .error (.api _) => .ok false
  | .error other => .error other
  | .ok dir => .ok (tree.isDir dir && hasBpmn tree dir)

/-- `is_process_group_identifier`. -/
def isProcessGroupIdentifier (host : Host δ) (tree : FileTree) (group : Text) :
    Except Raised Bool :=
  match resolvedInsideTenant host [group] groupPathError with
  | .error (.api _) => .ok false
  | .error other => .error other
  | .ok dir => .ok (tree.isDir dir)

/-- `model_exists`. -/
def modelExists (host : Host δ) (tree : FileTree) (processModelIdentifier : Text) :
    Except Raised Bool :=
  isProcessModelIdentifier host tree processModelIdentifier

/-- A directory that holds a model. -/
def IsModel (tree : FileTree) (dir : TreePath) : Prop :=
  tree.isDir dir = true ∧ hasBpmn tree dir = true

theorem isModel_iff {tree : FileTree} {dir : TreePath} :
    IsModel tree dir ↔ (tree.isDir dir && hasBpmn tree dir) = true := by
  rw [IsModel, Bool.and_eq_true]

/-- Where the identifier resolves, the answer is about its directory. -/
theorem isProcessModelIdentifier_eq {tree : FileTree} {identifier : Text} {dir : TreePath}
    {pathError : ApiError} (h : resolvedInsideTenant host [identifier] pathError = .ok dir) :
    isProcessModelIdentifier host tree identifier = .ok (tree.isDir dir && hasBpmn tree dir) := by
  have hdir : resolvedInsideTenant host [identifier] modelPathError = .ok dir :=
    resolvedInsideTenant_eq_ok.mpr (resolvedInsideTenant_eq_ok.mp h)
  unfold isProcessModelIdentifier
  rw [hdir]

theorem isProcessGroupIdentifier_eq {tree : FileTree} {group : Text} {dir : TreePath}
    {pathError : ApiError} (h : resolvedInsideTenant host [group] pathError = .ok dir) :
    isProcessGroupIdentifier host tree group = .ok (tree.isDir dir) := by
  have hdir : resolvedInsideTenant host [group] groupPathError = .ok dir :=
    resolvedInsideTenant_eq_ok.mpr (resolvedInsideTenant_eq_ok.mp h)
  unfold isProcessGroupIdentifier
  rw [hdir]

theorem modelExists_iff {tree : FileTree} {identifier : Text} :
    modelExists host tree identifier = .ok true ↔
      ∃ dir, resolvedInsideTenant host [identifier] modelPathError = .ok dir ∧ IsModel tree dir := by
  unfold modelExists isProcessModelIdentifier IsModel
  split
  · rename_i e herror
    simp [herror]
  · rename_i e _ herror
    simp [herror]
  · rename_i dir hdir
    simp [hdir]

/-! ## Metadata -/

/-- `path.read_text` with the translation of line ends. -/
def translateNewlines : Text → Text
  | [] => []
  | '\r' :: '\n' :: rest => '\n' :: translateNewlines rest
  | c :: rest => (if c = '\r' then '\n' else c) :: translateNewlines rest

/-- `content.decode("utf-8")`. -/
def decodeUtf8 (content : Bytes) : Option Text := (String.fromUTF8? content).map String.toList

/-- `text.encode("utf-8")`. -/
def encodeUtf8 (s : Text) : Bytes := (String.ofList s).toUTF8

/-- `path.read_text(encoding="utf-8")`, from the file's content. -/
def readText (content : Bytes) : Option Text := (decodeUtf8 content).map translateNewlines

theorem decodeUtf8_encodeUtf8 (s : Text) : decodeUtf8 (encodeUtf8 s) = some s := by
  have hvalid : (encodeUtf8 s).IsValidUTF8 := (String.ofList s).isValidUTF8
  unfold decodeUtf8 String.fromUTF8?
  rw [dif_pos hvalid, Option.map_some]
  have hsame : String.fromUTF8 (encodeUtf8 s) hvalid = String.ofList s := rfl
  rw [hsame, String.toList_ofList]

theorem encodeUtf8_of_decodeUtf8 {content : Bytes} {s : Text} (h : decodeUtf8 content = some s) :
    encodeUtf8 s = content := by
  unfold decodeUtf8 String.fromUTF8? at h
  split at h
  · rename_i hvalid
    have hlist : (String.fromUTF8 content hvalid).toList = s := Option.some.inj h
    unfold encodeUtf8
    rw [← hlist, String.ofList_toList]
    rfl
  · cases h

theorem translateNewlines_eq_self {s : Text} (h : '\r' ∉ s) : translateNewlines s = s := by
  induction s with
  | nil => rfl
  | cons c s ih =>
      have hc : c ≠ '\r' := fun hsame => h (hsame ▸ List.mem_cons_self)
      have hs : '\r' ∉ s := fun hmem => h (List.mem_cons_of_mem c hmem)
      rw [translateNewlines, if_neg hc, ih hs]
      exact fun _ hreturn _ => hc hreturn

/-- A text without carriage returns is read as it was written. -/
theorem readText_encodeUtf8 {s : Text} (h : '\r' ∉ s) : readText (encodeUtf8 s) = some s := by
  rw [readText, decodeUtf8_encodeUtf8, Option.map_some, translateNewlines_eq_self h]

/-- What `read_json_file` makes of a content. -/
def jsonFields (content : Bytes) : List (Text × Option Text) :=
  match (readText content).bind JsonText.loads with
  | some (.dict fields) => fields
  | _ => []

/-- `read_json_file`. -/
def readJsonFile (tree : FileTree) (path : TreePath) : List (Text × Option Text) :=
  ((tree.read path).map jsonFields).getD []

/-- `_tenant_json`. -/
def tenantJson (host : Host δ) (tree : FileTree) (parts : List Text) (pathError : ApiError) :
    Except Raised (List (Text × Option Text)) :=
  (resolvedInsideTenant host parts pathError).map (readJsonFile tree)

/-- A field that is a text, stripped, if that leaves anything. -/
def strippedField (fields : List (Text × Option Text)) (name : String) : Option Text :=
  truthy ((JsonText.get fields name.toList).map Text.strip)

/-- `_model_file_path`. -/
def modelFilePath (host : Host δ) (tree : FileTree) (path : Text) : Except Raised TreePath := do
  let fields ← tenantJson host tree [path, modelJson] modelPathError
  match strippedField fields "primary_file_name" with
  | some primary => resolvedInsideTenant host [path, primary] modelPathError
  | none =>
      resolvedInsideTenant host
        [path, Text.lastPart '/' (Text.rstripChar '/' path) ++ ".bpmn".toList] modelPathError

/-! ## Statuses -/

/-- `PROCESS_MODEL_STATUSES`. -/
inductive ModelStatus where
  | draft
  | published
  | paused
  deriving Repr, DecidableEq

namespace ModelStatus

def text : ModelStatus → Text
  | draft => "draft".toList
  | published => "published".toList
  | paused => "paused".toList

/-- The status with the text. -/
def ofText (s : Text) : Option ModelStatus :=
  [draft, published, paused].find? fun status => status.text = s

/-- `_STATUS_TRANSITIONS`. -/
def transitions : ModelStatus → List ModelStatus
  | draft => [published]
  | published => [paused, draft]
  | paused => [published, draft]

end ModelStatus

/-- The status that fields of metadata say; an absent or unknown one reads as published. -/
def fieldsStatus (fields : List (Text × Option Text)) : ModelStatus :=
  ((JsonText.get fields "status".toList).bind fun status => ModelStatus.ofText status.strip).getD
    .published

/-- `process_model_status`. -/
def processModelStatus (host : Host δ) (tree : FileTree) (processModelIdentifier : Text) :
    Except Raised ModelStatus :=
  (tenantJson host tree [processModelIdentifier, modelJson] modelPathError).map fieldsStatus

/-- The status that a directory's metadata says. -/
def statusAt (tree : FileTree) (dir : TreePath) : ModelStatus :=
  fieldsStatus (readJsonFile tree (dir ++ [modelJson]))

/-- The status of an identifier is that of its directory. -/
theorem processModelStatus_eq {tree : FileTree} {identifier : Text} {dir : TreePath}
    {pathError : ApiError} (h : resolvedInsideTenant host [identifier] pathError = .ok dir) :
    processModelStatus host tree identifier = .ok (statusAt tree dir) := by
  unfold processModelStatus tenantJson
  rw [resolved_concat (by decide) (by decide) h]
  rfl

/-- The status is read back from metadata that was written. -/
theorem fieldsStatus_dumps {fields : List (Text × Text)} (hkeys : (fields.map Prod.fst).Nodup) :
    fieldsStatus (jsonFields (encodeUtf8 (JsonText.dumps fields))) =
      ((fields.lookup "status".toList).bind fun status => ModelStatus.ofText status.strip).getD
        .published := by
  obtain ⟨read, hloads, hget⟩ := JsonText.get_dumps hkeys "status".toList
  unfold fieldsStatus jsonFields
  rw [readText_encodeUtf8 (JsonText.return_not_mem_dumps fields), Option.bind_some, hloads]
  dsimp only
  rw [hget]

/-- `_validated_status_transition`. -/
def validatedStatusTransition (host : Host δ) (current : ModelStatus) (requested : TextArgument) :
    Except Raised ModelStatus :=
  match (requested.map Text.strip).bind ModelStatus.ofText with
  | none =>
      .error (.api (.of "invalid_status"
        ("Unknown process model status: " ++ String.ofList (host.repr requested)) 400))
  | some candidate =>
      if candidate = current then .ok candidate
      else if candidate ∈ current.transitions then .ok candidate
      else
        .error (.api (.of "invalid_status_transition"
          ("Cannot change process model status from " ++ String.ofList current.text ++ " to " ++
            String.ofList candidate.text) 400))

/-! ## Group and model identifiers -/

/-- `process_group_id_for_model`. -/
def processGroupIdForModel (processModelIdentifier : Text) : Text :=
  (Text.rpartition '/' processModelIdentifier).1

def isIdentifierStart (c : Char) : Bool :=
  ('A' ≤ c && c ≤ 'Z') || ('a' ≤ c && c ≤ 'z') || ('0' ≤ c && c ≤ '9')

def isIdentifierChar (c : Char) : Bool := isIdentifierStart c || c = '_' || c = '-'

/-- `_GROUP_SEGMENT_RE.match`; the pattern's end also matches before a last line feed. -/
def isGroupSegment (segment : Text) : Bool :=
  match if segment.getLast? = some '\n' then segment.dropLast else segment with
  | [] => false
  | c :: rest => isIdentifierStart c && rest.all isIdentifierChar

/-- `validate_process_group_id`. -/
def validateProcessGroupId (groupId : TextArgument) : Except Raised Text :=
  match truthy (groupId.map Text.strip) with
  | none => .error (.api (.of "invalid_process_group" "Process group id is required" 400))
  | some stripped =>
      let cleaned := Text.stripWhere (· = '/') stripped
      if cleaned = [] ∨ '\\' ∈ cleaned ∨ ':' ∈ cleaned then .error (.api groupPathError)
      else if (Text.splitOn ['/'] cleaned).all isGroupSegment then .ok cleaned
      else .error (.api groupPathError)

/-- `process_group_exists`. -/
def processGroupExists (host : Host δ) (tree : FileTree) (groupId : TextArgument) :
    Except Raised Bool :=
  let target := do
    let cleaned ← validateProcessGroupId groupId
    let target ← resolvedInsideTenant host [cleaned] groupPathError
    pure (cleaned, target)
  match target with
  | .error (.api _) => .ok false
  | .error other => .error other
  | .ok (cleaned, target) =>
      if tree.isDir target then (isProcessModelIdentifier host tree cleaned).map (!·)
      else .ok false

/-- `validate_process_model_leaf`. -/
def validateProcessModelLeaf (leafId : TextArgument) : Except Raised Text :=
  let cleaned := if leafId.isSome then validateProcessGroupId leafId else .ok []
  cleaned.bind fun cleaned =>
    if cleaned = [] ∨ '/' ∈ cleaned then
      .error (invalidProcessModel "Process model id must be a single path segment")
    else .ok cleaned

/-- Every run of the characters becomes one dash. -/
def squeeze (p : Char → Bool) : Text → Text
  | [] => []
  | c :: rest =>
      if p c then if rest.head?.any p then squeeze p rest else '-' :: squeeze p rest
      else c :: squeeze p rest

/-- `slugify_process_model_leaf`. -/
def slugifyProcessModelLeaf (casing : Casing) (displayName : Text) : Text :=
  let kept := fun c : Char =>
    ('a' ≤ c && c ≤ 'z') || ('0' ≤ c && c ≤ '9') || c = '_' || c = '-'
  let slug := (squeeze Text.isSpace (casing.lower displayName.strip)).filter kept
  Text.stripWhere (fun c => c = '-' || c = '_') (squeeze (· = '-') slug)

/-- `resolve_process_model_leaf`. -/
def resolveProcessModelLeaf (casing : Casing) (leafId displayName : TextArgument) :
    Except Raised Text :=
  match truthy (leafId.map Text.strip) with
  | some raw => validateProcessModelLeaf (some raw)
  | none =>
      match slugifyProcessModelLeaf casing (displayName.getD []) with
      | [] =>
          .error (invalidProcessModel
            "Process model id is required, or provide a display name to generate one")
      | slug => validateProcessModelLeaf (some slug)

section Segments

variable {segment : Text}

/-- A segment has a character, and only identifier characters and line feeds. -/
theorem isGroupSegment_chars (h : isGroupSegment segment = true) :
    segment ≠ [] ∧ ∀ c ∈ segment, isIdentifierChar c = true ∨ c = '\n' := by
  have hbody : ∀ body : Text, (match body with
      | [] => false
      | c :: rest => isIdentifierStart c && rest.all isIdentifierChar) = true →
      body ≠ [] ∧ ∀ c ∈ body, isIdentifierChar c = true := by
    intro body hmatch
    cases body with
    | nil => cases hmatch
    | cons c rest =>
        rw [Bool.and_eq_true, List.all_eq_true] at hmatch
        refine ⟨List.cons_ne_nil _ _, ?_⟩
        intro d hd
        rcases List.mem_cons.mp hd with hhead | htail
        · rw [hhead, isIdentifierChar, hmatch.1]
          rfl
        · exact hmatch.2 d htail
  unfold isGroupSegment at h
  by_cases hline : segment.getLast? = some '\n'
  · rw [if_pos hline] at h
    obtain ⟨hne, hchars⟩ := hbody _ h
    have hsplit : segment.dropLast ++ ['\n'] = segment := List.dropLast_append_getLast? _ hline
    constructor
    · intro hnil
      rw [hnil] at hne
      exact hne rfl
    · intro c hc
      rw [← hsplit] at hc
      rcases List.mem_append.mp hc with hin | hin
      · exact Or.inl (hchars c hin)
      · exact Or.inr (List.mem_singleton.mp hin)
  · rw [if_neg hline] at h
    obtain ⟨hne, hchars⟩ := hbody _ h
    exact ⟨hne, fun c hc => Or.inl (hchars c hc)⟩

theorem not_mem_of_isGroupSegment {c : Char} (h : isGroupSegment segment = true)
    (hchar : isIdentifierChar c = false) (hline : c ≠ '\n') : c ∉ segment := by
  intro hmem
  rcases (isGroupSegment_chars h).2 c hmem with hin | hin
  · rw [hchar] at hin
    cases hin
  · exact hline hin

theorem dot_not_mem_of_isGroupSegment (h : isGroupSegment segment = true) : '.' ∉ segment :=
  not_mem_of_isGroupSegment h (by decide) (by decide)

theorem isSegment_of_isGroupSegment (h : isGroupSegment segment = true) : IsSegment segment := by
  have hdot := dot_not_mem_of_isGroupSegment h
  refine ⟨(isGroupSegment_chars h).1, ?_, ?_, not_mem_of_isGroupSegment h (by decide) (by decide)⟩
  · intro hsame
    exact hdot (hsame ▸ List.mem_singleton_self _)
  · intro hsame
    exact hdot (hsame ▸ List.mem_cons_self)

/-- A valid group identifier is the text of a path with such segments. -/
theorem validateProcessGroupId_segments {groupId : TextArgument} {cleaned : Text}
    (h : validateProcessGroupId groupId = .ok cleaned) :
    '\\' ∉ cleaned ∧ ∀ segment ∈ Text.splitOn ['/'] cleaned, isGroupSegment segment = true := by
  unfold validateProcessGroupId at h
  split at h
  · cases h
  · dsimp only at h
    split at h
    · cases h
    · rename_i hchars
      split at h
      · rename_i hall
        rw [← Except.ok.inj h]
        rw [not_or, not_or] at hchars
        exact ⟨hchars.2.1, List.all_eq_true.mp hall⟩
      · cases h

/-- A valid leaf is one segment. -/
theorem validateProcessModelLeaf_segment {leafId : TextArgument} {leaf : Text}
    (h : validateProcessModelLeaf leafId = .ok leaf) : isGroupSegment leaf = true := by
  unfold validateProcessModelLeaf at h
  dsimp only at h
  split at h
  · cases hvalid : validateProcessGroupId leafId with
    | error e =>
        rw [hvalid] at h
        cases h
    | ok cleaned =>
        rw [hvalid, Except.bind] at h
        split at h
        · cases h
        · rename_i hsingle
          have hsame : cleaned = leaf := Except.ok.inj h
          rw [not_or] at hsingle
          apply (validateProcessGroupId_segments hvalid).2
          rw [Text.splitOn_of_not_mem hsingle.2, hsame]
          exact List.mem_singleton_self leaf
  · cases h

theorem resolveProcessModelLeaf_segment {casing : Casing} {leafId displayName : TextArgument}
    {leaf : Text} (h : resolveProcessModelLeaf casing leafId displayName = .ok leaf) :
    isGroupSegment leaf = true := by
  unfold resolveProcessModelLeaf at h
  split at h
  · exact validateProcessModelLeaf_segment h
  · split at h
    · cases h
    · exact validateProcessModelLeaf_segment h

/-- The text of a path with names of entries resolves to the path. -/
theorem eq_of_resolved_text {path target : TreePath} {pathError : ApiError} (hne : path ≠ [])
    (hsegments : ∀ segment ∈ path, IsSegment segment)
    (h : resolvedInsideTenant host [path.text] pathError = .ok target) : target = path := by
  have hpath := (resolvedInsideTenant_eq_ok.mp h).2
  rw [resolveUnder_text host.root_segments hne hsegments] at hpath
  exact (Option.some.inj hpath).symm

/-- A valid group identifier resolves to its segments. -/
theorem resolved_of_validateProcessGroupId {groupId : TextArgument} {cleaned : Text}
    {target : TreePath} {pathError : ApiError} (hvalid : validateProcessGroupId groupId = .ok cleaned)
    (h : resolvedInsideTenant host [cleaned] pathError = .ok target) :
    target = Text.splitOn ['/'] cleaned := by
  have hsegments := (validateProcessGroupId_segments hvalid).2
  rw [← text_splitOn cleaned] at h
  exact eq_of_resolved_text (splitOn_ne_nil cleaned)
    (fun segment hmem => isSegment_of_isGroupSegment (hsegments segment hmem)) h

/-- A leaf below a valid group identifier resolves to the path below the group's. -/
theorem resolved_of_leaf {groupId : TextArgument} {group leaf : Text} {target : TreePath}
    {pathError : ApiError} (hvalid : validateProcessGroupId groupId = .ok group)
    (hleaf : isGroupSegment leaf = true)
    (h : resolvedInsideTenant host [group ++ '/' :: leaf] pathError = .ok target) :
    target = Text.splitOn ['/'] group ++ [leaf] := by
  have hsegments := (validateProcessGroupId_segments hvalid).2
  have htext : TreePath.text (Text.splitOn ['/'] group ++ [leaf]) = group ++ '/' :: leaf := by
    rw [TreePath.text_append (splitOn_ne_nil group) (List.cons_ne_nil _ _), text_splitOn,
      TreePath.text_singleton]
  rw [← htext] at h
  apply eq_of_resolved_text (by simp) ?_ h
  intro segment hmem
  rcases List.mem_append.mp hmem with hin | hin
  · exact isSegment_of_isGroupSegment (hsegments segment hin)
  · rw [List.mem_singleton.mp hin]
    exact isSegment_of_isGroupSegment hleaf

/-- A valid group identifier does not end in a slash. -/
theorem rstripChar_of_validateProcessGroupId {groupId : TextArgument} {cleaned : Text}
    (hvalid : validateProcessGroupId groupId = .ok cleaned) :
    Text.rstripChar '/' cleaned = cleaned := by
  unfold validateProcessGroupId at hvalid
  split at hvalid
  · cases hvalid
  · dsimp only at hvalid
    split at hvalid
    · cases hvalid
    · split at hvalid
      · rw [← Except.ok.inj hvalid]
        apply Text.rstripChar_eq_self
        intro hne hlast
        exact Text.stripWhere_getLast hne (decide_eq_true hlast)
      · cases hvalid

end Segments

/-! ## File names -/

/-- `validate_leaf_file_name`. -/
def validateLeafFileName (fileName : Text) : Except Raised Text :=
  if fileName = [] ∨ fileName = ['.'] ∨ fileName = ['.', '.'] ∨ '/' ∈ fileName ∨ '\\' ∈ fileName then
    .error (.api (.of "invalid_file_name" "Invalid file name" 400))
  else .ok fileName

/-- `_RESERVED_MODEL_FILE_NAMES`. -/
def reservedModelFileNames : List Text := [modelJson, groupJson]

/-- `_DEFAULT_CREATE_SUFFIXES`. -/
def defaultCreateSuffixes : List Text :=
  [".bpmn".toList, ".dmn".toList, ".json".toList, ".md".toList]

/-- `_UPLOAD_SUFFIXES`. -/
def uploadSuffixes : List Text :=
  defaultCreateSuffixes ++
    [".txt".toList, ".xml".toList, ".svg".toList, ".html".toList, ".css".toList]

/-- `_file_suffix`. -/
def fileSuffix (casing : Casing) (fileName : Text) : Text :=
  let lower := casing.lower fileName
  if '.' ∈ lower then '.' :: Text.lastPart '.' lower else []

/-- `path.suffix`: a dot at the start or at the end of a name starts no suffix. -/
def pathSuffix (name : Text) : Text :=
  let suffix := Text.lastPart '.' name
  if '.' ∈ name ∧ suffix ≠ [] ∧ suffix.length + 1 < name.length then '.' :: suffix else []

/-- `_first_bpmn_name`, and nothing for the empty name. -/
def firstBpmnName (casing : Casing) (tree : FileTree) (dir : TreePath) : Option Text :=
  (((tree.children dir).filter fun name =>
    tree.isFile (dir ++ [name]) && casing.lower (pathSuffix name) = ".bpmn".toList).insertionSort
      fun name other => name ≤ other).head?

/-! ## Texts of new files -/

/-- `_bpmn_process_id`. -/
def bpmnProcessId (leaf : Text) : Text :=
  let cleaned := leaf.map fun c => if isIdentifierChar c then c else '_'
  match cleaned with
  | [] => "Process_model".toList
  | c :: _ => if ('0' ≤ c && c ≤ '9') || c = '-' then "Process_".toList ++ cleaned else cleaned

/-- `_DEFAULT_BPMN_TEMPLATE` with the process id in its two places. -/
def defaultBpmnXml (processId : Text) : Text :=
  "<?xml version=\"1.0\" encoding=\"UTF-8\"?>
<bpmn:definitions xmlns:bpmn=\"http://www.omg.org/spec/BPMN/20100524/MODEL\" xmlns:bpmndi=\"http://www.omg.org/spec/BPMN/20100524/DI\" xmlns:dc=\"http://www.omg.org/spec/DD/20100524/DC\" xmlns:di=\"http://www.omg.org/spec/DD/20100524/DI\" id=\"Definitions_1\" targetNamespace=\"http://bpmn.io/schema/bpmn\">
  <bpmn:process id=\"".toList ++ processId ++ "\" isExecutable=\"true\">
    <bpmn:startEvent id=\"StartEvent_1\">
      <bpmn:outgoing>Flow_1</bpmn:outgoing>
    </bpmn:startEvent>
    <bpmn:manualTask id=\"Activity_1\" name=\"Task\">
      <bpmn:incoming>Flow_1</bpmn:incoming>
      <bpmn:outgoing>Flow_2</bpmn:outgoing>
    </bpmn:manualTask>
    <bpmn:endEvent id=\"EndEvent_1\">
      <bpmn:incoming>Flow_2</bpmn:incoming>
    </bpmn:endEvent>
    <bpmn:sequenceFlow id=\"Flow_1\" sourceRef=\"StartEvent_1\" targetRef=\"Activity_1\" />
    <bpmn:sequenceFlow id=\"Flow_2\" sourceRef=\"Activity_1\" targetRef=\"EndEvent_1\" />
  </bpmn:process>
  <bpmndi:BPMNDiagram id=\"BPMNDiagram_1\">
    <bpmndi:BPMNPlane id=\"BPMNPlane_1\" bpmnElement=\"".toList ++ processId ++ "\">
      <bpmndi:BPMNShape id=\"StartEvent_1_di\" bpmnElement=\"StartEvent_1\">
        <dc:Bounds x=\"180\" y=\"160\" width=\"36\" height=\"36\" />
      </bpmndi:BPMNShape>
      <bpmndi:BPMNShape id=\"Activity_1_di\" bpmnElement=\"Activity_1\">
        <dc:Bounds x=\"270\" y=\"148\" width=\"150\" height=\"60\" />
      </bpmndi:BPMNShape>
      <bpmndi:BPMNShape id=\"EndEvent_1_di\" bpmnElement=\"EndEvent_1\">
        <dc:Bounds x=\"480\" y=\"160\" width=\"36\" height=\"36\" />
      </bpmndi:BPMNShape>
      <bpmndi:BPMNEdge id=\"Flow_1_di\" bpmnElement=\"Flow_1\">
        <di:waypoint x=\"216\" y=\"178\" />
        <di:waypoint x=\"270\" y=\"178\" />
      </bpmndi:BPMNEdge>
      <bpmndi:BPMNEdge id=\"Flow_2_di\" bpmnElement=\"Flow_2\">
        <di:waypoint x=\"420\" y=\"178\" />
        <di:waypoint x=\"480\" y=\"178\" />
      </bpmndi:BPMNEdge>
    </bpmndi:BPMNPlane>
  </bpmndi:BPMNDiagram>
</bpmn:definitions>
".toList

/-- `_DEFAULT_DMN_TEMPLATE` with the decision id in its three places. -/
def defaultDmnXml (decisionId : Text) : Text :=
  "<?xml version=\"1.0\" encoding=\"UTF-8\"?>
<definitions xmlns=\"https://www.omg.org/spec/DMN/20191111/MODEL/\" id=\"Definitions_1\" name=\"".toList ++
    decisionId ++ "\" namespace=\"https://m8flow.example/dmn\">
  <decision id=\"".toList ++ decisionId ++ "\" name=\"".toList ++ decisionId ++ "\">
    <decisionTable id=\"DecisionTable_1\">
      <input id=\"Input_1\">
        <inputExpression id=\"InputExpression_1\" typeRef=\"string\">
          <text></text>
        </inputExpression>
      </input>
      <output id=\"Output_1\" typeRef=\"string\" />
    </decisionTable>
  </decision>
</definitions>
".toList

/-- `_default_file_bytes`. -/
def defaultFileBytes (casing : Casing) (fileName : Text) : Bytes :=
  let suffix := fileSuffix casing fileName
  let stem := fileName.take (fileName.length - suffix.length)
  if suffix = ".bpmn".toList then encodeUtf8 (defaultBpmnXml (bpmnProcessId stem))
  else if suffix = ".dmn".toList then encodeUtf8 (defaultDmnXml (bpmnProcessId stem))
  else if suffix = ".json".toList then encodeUtf8 "\x7b\x7d\n".toList
  else encodeUtf8 []

end M8flow.Catalog
