import M8flow.Catalog.Status
import M8flow.Workflow.Start

/-!
# When a model stays

Whether a directory is a model is read off its entries (`*.bpmn`), and which diagram a model
starts is read off its metadata; the guard of `delete_model_file` compares with the metadata
alone.  This module says when requests on the files of a model keep the two together.

- `Healthy` is the invariant: a file is a diagram, and the primary file that the metadata
  names is called like one.
- `KeepsModel` is what a request must meet: a deletion leaves another diagram, and new
  metadata names a diagram.
- `healthy_step` is one request and `model_stays` every run.
-/

namespace M8flow.Catalog

open M8flow.Lib M8flow.Lib.FileTree

variable {δ : Type} {host : Host δ} {w : World δ} {identifier : Text} {dir : TreePath}

/-! ## Names -/

/-- The test of `_first_bpmn_name`. -/
def IsDiagram (casing : Casing) (name : Text) : Prop :=
  casing.lower (pathSuffix name) = ".bpmn".toList

/-- A name that the file system has and a path can be resolved to. -/
def Clean (name : Text) : Prop := IsSegment name ∧ '\x00' ∉ name

theorem isDiagram_of_suffix (casing : Casing) {name : Text}
    (h : pathSuffix name = ".bpmn".toList) : IsDiagram casing name := by
  unfold IsDiagram
  rw [h, casing.lower_ascii _ (by decide)]
  decide

theorem not_isDiagram_modelJson (casing : Casing) : ¬ IsDiagram casing modelJson := by
  have hsuffix : pathSuffix modelJson = ".json".toList := by decide
  unfold IsDiagram
  rw [hsuffix, casing.lower_ascii _ (by decide)]
  decide

/-- A name with the suffix matches `*.bpmn`. -/
theorem bpmn_of_pathSuffix {name : Text} (h : pathSuffix name = ".bpmn".toList) :
    ".bpmn".toList <:+ name := by
  unfold pathSuffix at h
  dsimp only at h
  split at h
  · rename_i hdot
    have hlast : Text.lastPart '.' name = "bpmn".toList := (List.cons.inj h).2
    have hsplit : name.rdropWhile (· ≠ '.') ++ Text.lastPart '.' name = name := by
      unfold Text.lastPart
      exact List.rdropWhile_append_rtakeWhile
    have hne : name.rdropWhile (· ≠ '.') ≠ [] := by
      intro hnil
      rw [List.rdropWhile_eq_nil_iff] at hnil
      have hnot := hnil '.' hdot.1
      simp at hnot
    have hends : (name.rdropWhile (· ≠ '.')).getLast hne = '.' := by
      have hnot := List.rdropWhile_last_not (fun c : Char => decide (c ≠ '.')) name hne
      simpa using hnot
    refine ⟨(name.rdropWhile (· ≠ '.')).dropLast, ?_⟩
    have hdropped : (name.rdropWhile (· ≠ '.')).dropLast ++ ['.'] =
        name.rdropWhile (· ≠ '.') := by
      have hparts := List.dropLast_append_getLast hne
      rw [hends] at hparts
      exact hparts
    calc (name.rdropWhile (· ≠ '.')).dropLast ++ ".bpmn".toList
        = ((name.rdropWhile (· ≠ '.')).dropLast ++ ['.']) ++ "bpmn".toList := by
          rw [List.append_assoc]
          rfl
      _ = name.rdropWhile (· ≠ '.') ++ Text.lastPart '.' name := by rw [hdropped, hlast]
      _ = name := hsplit
  · cases h

theorem mem_of_mem_normalizeSegments {segments : List Text} {segment : Text}
    (h : segment ∈ normalizeSegments segments) : segment ∈ segments := by
  have hgeneral : ∀ path : TreePath, ∀ segment ∈ segments.foldl pushSegment path,
      segment ∈ path ∨ segment ∈ segments := by
    clear h
    induction segments with
    | nil => exact fun path segment hmem => Or.inl hmem
    | cons part segments ih =>
        intro path segment hmem
        rcases ih _ segment hmem with hpath | hlater
        · unfold pushSegment at hpath
          split at hpath
          · exact Or.inl hpath
          · split at hpath
            · exact Or.inl (List.mem_of_mem_dropLast hpath)
            · rcases List.mem_append.mp hpath with hold | hnew
              · exact Or.inl hold
              · rw [List.mem_singleton.mp hnew]
                exact Or.inr List.mem_cons_self
        · exact Or.inr (List.mem_cons_of_mem part hlater)
  rcases hgeneral [] segment h with hnil | hmem
  · cases hnil
  · exact hmem

/-- A path that resolves has clean names. -/
theorem clean_of_resolved {parts : List Text} {pathError : ApiError} {path : TreePath}
    (h : resolvedInsideTenant host parts pathError = .ok path) : ∀ name ∈ path, Clean name := by
  intro name hname
  refine ⟨isSegment_of_resolved h name hname, ?_⟩
  obtain ⟨hnul, hpath⟩ := resolvedInsideTenant_eq_ok.mp h
  have hmem : name ∈ normalizeSegments (joinParts host.root parts) := by
    rw [(resolveUnder_eq_some.mp hpath).2]
    exact List.mem_append_right _ hname
  have hnone := List.any_eq_false.mp hnul name (mem_of_mem_normalizeSegments hmem)
  simpa using hnone

/-! ## The invariant -/

/-- The primary file that these fields of metadata name. -/
def primaryPath (host : Host δ) (identifier : Text) (fields : List (Text × Option Text)) :
    Except Raised TreePath :=
  match strippedField fields "primary_file_name" with
  | some primary => resolvedInsideTenant host [identifier, primary] modelPathError
  | none =>
      resolvedInsideTenant host
        [identifier, Text.lastPart '/' (Text.rstripChar '/' identifier) ++ ".bpmn".toList]
        modelPathError

/-- `_model_file_path` reads the metadata of the directory. -/
theorem modelFilePath_eq {tree : FileTree}
    (hdir : resolvedInsideTenant host [identifier] modelPathError = .ok dir) :
    modelFilePath host tree identifier =
      primaryPath host identifier (readJsonFile tree (dir ++ [modelJson])) := by
  have hmetadata : resolvedInsideTenant host [identifier, modelJson] modelPathError =
      .ok (dir ++ [modelJson]) := resolved_concat (by decide) (by decide) hdir
  unfold modelFilePath tenantJson
  rw [hmetadata]
  rfl

/-- The primary file that the fields name is called like a diagram. -/
def NamesDiagram (host : Host δ) (identifier : Text) (fields : List (Text × Option Text)) : Prop :=
  ∃ path name, primaryPath host identifier fields = .ok path ∧ path.getLast? = some name ∧
    IsDiagram host.casing name

/-- What the requests on a model keep. -/
structure Healthy (host : Host δ) (identifier : Text) (dir : TreePath) (tree : FileTree) :
    Prop where
  diagram : ∃ name, pathSuffix name = ".bpmn".toList ∧ tree.isFile (dir ++ [name]) = true
  primary : NamesDiagram host identifier (readJsonFile tree (dir ++ [modelJson]))
  names : ∀ name, tree.isFile (dir ++ [name]) = true → Clean name

theorem at?_of_isFile {tree : FileTree} {path : TreePath} (h : tree.isFile path = true) :
    ∃ content, tree.at? path = some (.file content) := by
  obtain ⟨content, hread⟩ := isFile_iff.mp h
  exact ⟨content, read_eq_some.mp hread⟩

theorem isFile_of_at? {tree : FileTree} {path : TreePath} {content : Bytes}
    (h : tree.at? path = some (.file content)) : tree.isFile path = true :=
  isFile_iff.mpr ⟨content, read_eq_some.mpr h⟩

theorem mem_children_of_isFile {tree : FileTree} {name : Text}
    (h : tree.isFile (dir ++ [name]) = true) : name ∈ tree.children dir := by
  obtain ⟨content, hat⟩ := at?_of_isFile h
  rw [mem_children, hat]
  exact Option.some_ne_none _

namespace Healthy

variable {tree : FileTree}

theorem isModel (h : Healthy host identifier dir tree) : IsModel tree dir := by
  obtain ⟨name, hsuffix, hfile⟩ := h.diagram
  have hmem := mem_children_of_isFile hfile
  refine ⟨isDir_of_child (mem_children.mp hmem), ?_⟩
  unfold hasBpmn
  rw [List.any_eq_true]
  exact ⟨name, hmem, List.isSuffixOf_iff_suffix.mpr (bpmn_of_pathSuffix hsuffix)⟩

/-- `model_exists` is true. -/
theorem modelExists (h : Healthy host identifier dir tree)
    (hdir : resolvedInsideTenant host [identifier] modelPathError = .ok dir) :
    modelExists host tree identifier = .ok true :=
  modelExists_iff.mpr ⟨dir, hdir, h.isModel⟩

end Healthy

theorem api_of_validateProcessGroupId {groupId : TextArgument} {e : Raised}
    (h : validateProcessGroupId groupId = .error e) : ∃ error, e = .api error := by
  unfold validateProcessGroupId at h
  split at h
  · cases h
    exact ⟨_, rfl⟩
  · dsimp only at h
    split at h
    · cases h
      exact ⟨_, rfl⟩
    · split at h
      · cases h
      · cases h
        exact ⟨_, rfl⟩

/-- `process_group_exists` looks at the directory, if it takes the identifier. -/
def LooksAt (host : Host δ) (identifier : Text) (dir : TreePath) : Prop :=
  ∀ cleaned, validateProcessGroupId (some identifier) = .ok cleaned →
    resolvedInsideTenant host [cleaned] groupPathError = .ok dir

/-- `read_primary_bpmn` finds a file that is called like a diagram, which it can read or
refuse. -/
def FindsDiagram (host : Host δ) (tree : FileTree) (identifier : Text) : Prop :=
  (∃ path name, Workflow.Start.primaryBpmnPath host tree identifier = .ok (some path) ∧
      tree.isFile path = true ∧ path.getLast? = some name ∧ IsDiagram host.casing name) ∧
    Workflow.Start.readPrimaryBpmn host tree identifier ≠ .ok none

/-- What is found for a directory with a file that counts as a diagram. -/
theorem firstBpmnName_spec {casing : Casing} {tree : FileTree} {name : Text}
    (hfile : tree.isFile (dir ++ [name]) = true) (hname : IsDiagram casing name) :
    ∃ first, firstBpmnName casing tree dir = some first ∧
      tree.isFile (dir ++ [first]) = true ∧ IsDiagram casing first := by
  have hmem : name ∈ ((tree.children dir).filter fun name =>
      tree.isFile (dir ++ [name]) && casing.lower (pathSuffix name) = ".bpmn".toList).insertionSort
        fun name other => name ≤ other := by
    rw [List.mem_insertionSort, List.mem_filter, Bool.and_eq_true]
    exact ⟨mem_children_of_isFile hfile, hfile, decide_eq_true hname⟩
  cases hfirst : firstBpmnName casing tree dir with
  | none =>
      unfold firstBpmnName at hfirst
      rw [List.head?_eq_none_iff] at hfirst
      rw [hfirst] at hmem
      cases hmem
  | some first =>
      unfold firstBpmnName at hfirst
      have hin := List.mem_of_mem_head? (Option.mem_def.mpr hfirst)
      rw [List.mem_insertionSort, List.mem_filter, Bool.and_eq_true] at hin
      have hcalled := of_decide_eq_true hin.2.2
      exact ⟨first, rfl, hin.2.1, hcalled⟩

/-- What `read_primary_bpmn` finds it can read or refuse. -/
theorem readPrimaryBpmn_ne_none {tree : FileTree} {path : TreePath}
    (h : Workflow.Start.primaryBpmnPath host tree identifier = .ok (some path))
    (hfile : tree.isFile path = true) :
    Workflow.Start.readPrimaryBpmn host tree identifier ≠ .ok none := by
  obtain ⟨content, hread⟩ := isFile_iff.mp hfile
  unfold Workflow.Start.readPrimaryBpmn
  rw [h]
  dsimp only
  rw [hread]
  dsimp only
  cases readText content with
  | none =>
      intro hnone
      cases hnone
  | some xml =>
      dsimp only
      cases rejectUnsupportedConstructs host.casing (host.parseXml xml) with
      | error e =>
          intro hnone
          cases hnone
      | ok a =>
          intro hnone
          cases hnone

namespace Healthy

variable {tree : FileTree}

/-- `process_group_exists` is false. -/
theorem not_group (h : Healthy host identifier dir tree) (hgroup : LooksAt host identifier dir) :
    processGroupExists host tree (some identifier) = .ok false := by
  unfold processGroupExists
  cases hvalid : validateProcessGroupId (some identifier) with
  | error e =>
      obtain ⟨error, he⟩ := api_of_validateProcessGroupId hvalid
      rw [he]
      rfl
  | ok cleaned =>
      have hresolved := hgroup cleaned hvalid
      have hmodel := isModel_iff.mp h.isModel
      dsimp only [bind, Except.bind, pure, Except.pure]
      rw [hresolved]
      dsimp only
      rw [h.isModel.1, if_pos rfl, isProcessModelIdentifier_eq hresolved, hmodel]
      rfl

/-- `read_primary_bpmn` finds a diagram: the primary file, or the first one. -/
theorem findsDiagram (h : Healthy host identifier dir tree)
    (hdir : resolvedInsideTenant host [identifier] modelPathError = .ok dir) :
    FindsDiagram host tree identifier := by
  obtain ⟨path, name, hprimary, hlast, hname⟩ := h.primary
  rw [← modelFilePath_eq hdir] at hprimary
  by_cases hfile : tree.isFile path = true
  · have hfound : Workflow.Start.primaryBpmnPath host tree identifier = .ok (some path) := by
      unfold Workflow.Start.primaryBpmnPath
      rw [hdir]
      dsimp only [bind, Except.bind]
      rw [h.isModel.1, hprimary]
      dsimp only
      rw [hfile]
      rfl
    exact ⟨⟨path, name, hfound, hfile, hlast, hname⟩, readPrimaryBpmn_ne_none hfound hfile⟩
  · obtain ⟨diagram, hsuffix, hdiagram⟩ := h.diagram
    obtain ⟨first, hfirst, hthere, hcalled⟩ :=
      firstBpmnName_spec hdiagram (isDiagram_of_suffix host.casing hsuffix)
    obtain ⟨hsegment, hnul⟩ := h.names first hthere
    have hplace : resolvedInsideTenant host [identifier, first] modelPathError =
        .ok (dir ++ [first]) := resolved_concat hsegment hnul hdir
    have hfound : Workflow.Start.primaryBpmnPath host tree identifier =
        .ok (some (dir ++ [first])) := by
      unfold Workflow.Start.primaryBpmnPath
      rw [hdir]
      dsimp only [bind, Except.bind]
      rw [h.isModel.1, hprimary]
      dsimp only
      rw [Bool.not_eq_true] at hfile
      rw [hfile, hfirst]
      dsimp only [Bool.not_true, Bool.false_eq_true, if_false]
      rw [hplace]
      rfl
    exact ⟨⟨_, first, hfound, hthere, List.getLast?_concat, hcalled⟩,
      readPrimaryBpmn_ne_none hfound hthere⟩

end Healthy

/-! ## What a change keeps -/

/-- Into the directory come files with clean names, and metadata that names a diagram; nothing
goes that was there. -/
def keepsHealthy (host : Host δ) (identifier : Text) (dir : TreePath) (tree : FileTree) :
    Footprint where
  dirs _ := True
  files path content := ∀ name, path = dir ++ [name] →
    Clean name ∧ (name = modelJson → NamesDiagram host identifier (jsonFields content))
  gone path := tree.at? path = none

theorem readJsonFile_congr {tree after : FileTree} {path : TreePath}
    (h : after.read path = tree.read path) : readJsonFile after path = readJsonFile tree path := by
  unfold readJsonFile
  rw [h]

theorem Healthy.of_changed {tree after : FileTree} (h : Healthy host identifier dir tree)
    (hchanged : Changed (keepsHealthy host identifier dir tree) tree after) :
    Healthy host identifier dir after where
  diagram := by
    obtain ⟨name, hsuffix, hfile⟩ := h.diagram
    refine ⟨name, hsuffix, ?_⟩
    obtain ⟨content, hat⟩ := at?_of_isFile hfile
    rcases hchanged (dir ++ [name]) with hsame | ⟨-, hnone, -⟩ | ⟨content', -, hafter⟩ | ⟨hgone, -⟩
    · exact isFile_of_at? (hsame.trans hat)
    · have hthere : tree.at? (dir ++ [name]) = none := hnone.elim id id
      rw [hat] at hthere
      cases hthere
    · exact isFile_of_at? hafter
    · have hthere : tree.at? (dir ++ [name]) = none := hgone
      rw [hat] at hthere
      cases hthere
  primary := by
    rcases hchanged.read (dir ++ [modelJson]) with hsame | ⟨content, hfile, hread⟩ | ⟨hgone, hread⟩
    · rw [readJsonFile_congr hsame]
      exact h.primary
    · have hfields : readJsonFile after (dir ++ [modelJson]) = jsonFields content := by
        unfold readJsonFile
        rw [hread]
        rfl
      rw [hfields]
      exact (hfile modelJson rfl).2 rfl
    · have hbefore : tree.read (dir ++ [modelJson]) = none := by
        have hnone : tree.at? (dir ++ [modelJson]) = none := hgone
        unfold FileTree.read
        rw [hnone]
      rw [readJsonFile_congr (hread.trans hbefore.symm)]
      exact h.primary
  names := by
    intro name hfile
    obtain ⟨content, hat⟩ := at?_of_isFile hfile
    rcases hchanged (dir ++ [name]) with hsame | ⟨-, -, hdir⟩ | ⟨content', hwritten, -⟩ | ⟨-, hnone⟩
    · exact h.names name (isFile_of_at? (hsame.symm.trans hat))
    · rw [hat] at hdir
      cases hdir
    · exact (hwritten name rfl).1
    · rw [hat] at hnone
      cases hnone

/-- A file goes that is not the metadata, and another diagram stays. -/
theorem Healthy.of_remove {tree : FileTree} {gone : Text} (h : Healthy host identifier dir tree)
    (hjson : gone ≠ modelJson)
    (hother : ∃ name, name ≠ gone ∧ pathSuffix name = ".bpmn".toList ∧
      tree.isFile (dir ++ [name]) = true) :
    Healthy host identifier dir (tree.remove (dir ++ [gone])) := by
  have hkept : ∀ name, name ≠ gone →
      (tree.remove (dir ++ [gone])).at? (dir ++ [name]) = tree.at? (dir ++ [name]) := by
    intro name hname
    rw [at?_remove, if_neg]
    intro hbelow
    have hsame := List.IsPrefix.eq_of_length hbelow (by simp)
    exact hname (List.append_singleton_inj.mp hsame).2.symm
  constructor
  · obtain ⟨name, hname, hsuffix, hfile⟩ := hother
    obtain ⟨content, hat⟩ := at?_of_isFile hfile
    exact ⟨name, hsuffix, isFile_of_at? ((hkept name hname).trans hat)⟩
  · have hread : (tree.remove (dir ++ [gone])).read (dir ++ [modelJson]) =
        tree.read (dir ++ [modelJson]) := by
      unfold FileTree.read
      rw [hkept modelJson hjson.symm]
    rw [readJsonFile_congr hread]
    exact h.primary
  · intro name hfile
    obtain ⟨content, hat⟩ := at?_of_isFile hfile
    rw [at?_remove] at hat
    split at hat
    · cases hat
    · exact h.names name (isFile_of_at? hat)

/-! ## Requests -/

/-- A request on the files or the metadata of the model, or a copy of it. -/
def OnModel (identifier : Text) : Operation → Prop
  | .createModelFile i _ _ _ => i = identifier
  | .deleteModelFile i _ => i = identifier
  | .putProcessModelFile i _ _ _ => i = identifier
  | .save i _ _ => i = identifier
  | .updateProcessModelMetadata i _ _ _ _ => i = identifier
  | .copyProcessModel i _ _ _ => i = identifier
  | _ => False

/-- The request leaves the model another diagram than the one it deletes, and metadata that
names one. -/
def LeavesDiagram (host : Host δ) (identifier : Text) (dir : TreePath) (w : World δ) :
    Operation → Prop
  | .deleteModelFile _ name =>
      strippedField (readJsonFile w.tree (dir ++ [modelJson])) "primary_file_name" = some name ∨
        ∃ other, other ≠ name ∧ pathSuffix other = ".bpmn".toList ∧
          w.tree.isFile (dir ++ [other]) = true
  | .putProcessModelFile _ name content _ =>
      name = modelJson → NamesDiagram host identifier (jsonFields content)
  | .updateProcessModelMetadata _ _ _ primary _ =>
      ∀ name, primary = some name → w.tree.isFile (dir ++ [name.strip]) = true →
        IsDiagram host.casing name.strip
  | _ => True

/-- What a run is made of. -/
def KeepsModel (host : Host δ) (identifier : Text) (dir : TreePath) (w : World δ)
    (operation : Operation) : Prop :=
  OnModel identifier operation ∧ LeavesDiagram host identifier dir w operation

section Requests

theorem createModelFile_keepsHealthy {fileName : TextArgument} {content : Option Bytes}
    {userId : Nat} :
    Touches (keepsHealthy host identifier dir w.tree)
      (createModelFile host identifier fileName content userId) w := by
  apply createModelFile_touches
  intro modelDir created hmodelDir _ hother hresolved
  refine ⟨fun _ _ => trivial, ?_⟩
  intro content name hplace
  obtain ⟨hsame, hname⟩ := List.append_singleton_inj.mp hplace
  rw [← hname]
  refine ⟨clean_of_resolved hresolved created (by simp), ?_⟩
  intro hjson
  exact absurd hjson hother

theorem copyProcessModel_keepsHealthy (h : Healthy host identifier dir w.tree)
    {leafId displayName : TextArgument} {userId : Nat} :
    Touches (keepsHealthy host identifier dir w.tree)
      (copyProcessModel host identifier leafId displayName userId) w := by
  apply copyProcessModel_touches
  intro sourceDir leaf dest _ _ _ _ hnew
  have hother := ne_of_isModel h.isModel hnew
  refine ⟨fun _ _ => trivial, ?_, ?_, ?_⟩
  · intro content _ name hplace
    exact absurd (List.append_singleton_inj.mp hplace).1 hother
  · intro copied content _ name hplace
    exact absurd (List.append_singleton_inj.mp hplace).1 hother
  · intro other hbelow
    exact at?_below hnew hbelow

variable (hdir : resolvedInsideTenant host [identifier] modelPathError = .ok dir)
  (h : Healthy host identifier dir w.tree)

include hdir h

/-- The primary file is not the metadata. -/
theorem primary_ne_modelJson {name : Text} {path : TreePath}
    (hpath : modelFilePath host w.tree identifier = .ok path) (hlast : path.getLast? = some name) :
    name ≠ modelJson := by
  obtain ⟨primary, primaryName, hprimary, hprimaryLast, hcalled⟩ := h.primary
  rw [modelFilePath_eq hdir, hprimary] at hpath
  rw [← Except.ok.inj hpath, hprimaryLast] at hlast
  rw [← Option.some.inj hlast]
  intro hjson
  rw [hjson] at hcalled
  exact not_isDiagram_modelJson host.casing hcalled

theorem save_keepsHealthy {xml : Text} {userId : Nat} :
    Touches (keepsHealthy host identifier dir w.tree) (save host identifier xml userId none) w := by
  apply save_touches
  intro target htarget
  refine ⟨fun _ _ => trivial, ?_⟩
  intro name hplace
  have hpath : modelFilePath host w.tree identifier = .ok target := htarget
  obtain ⟨parts, pathError, hresolved⟩ := resolved_of_modelFilePath hpath
  have hlast : target.getLast? = some name := by
    rw [hplace, List.getLast?_concat]
  refine ⟨clean_of_resolved hresolved name (List.mem_of_getLast? hlast), ?_⟩
  intro hjson
  exact absurd hjson (primary_ne_modelJson hdir h hpath hlast)

theorem putProcessModelFile_keepsHealthy {fileName : Text} {content : Bytes} {userId : Nat}
    (hnames : fileName = modelJson → NamesDiagram host identifier (jsonFields content)) :
    Touches (keepsHealthy host identifier dir w.tree)
      (putProcessModelFile host identifier fileName content userId) w := by
  apply putProcessModelFile_touches
  intro modelDir hmodelDir _ _ hresolved
  rw [resolved_unique hdir hmodelDir] at hresolved ⊢
  refine ⟨fun _ _ => trivial, ?_, ?_⟩
  · intro name hplace
    obtain ⟨-, hname⟩ := List.append_singleton_inj.mp hplace
    rw [← hname]
    exact ⟨clean_of_resolved hresolved fileName (by simp), hnames⟩
  · intro hdmn written hread bpmnPath bpmnName xml hbpmn hlast name hplace
    obtain ⟨-, hname⟩ := List.append_singleton_inj.mp hplace
    have hjson : dir ++ [modelJson] ≠ dir ++ [fileName] := by
      intro hpaths
      rw [← (List.append_singleton_inj.mp hpaths).2,
        host.casing.lower_ascii _ (by decide)] at hdmn
      exact absurd hdmn (by decide)
    have hkept := (hread (dir ++ [modelJson])).trans (if_neg hjson)
    rw [modelFilePath_congr hdir hkept] at hbpmn
    obtain ⟨parts, pathError, hplaced⟩ := resolved_of_modelFilePath hbpmn
    rw [← hname]
    refine ⟨clean_of_resolved hplaced bpmnName (List.mem_of_getLast? hlast), ?_⟩
    intro hsame
    exact absurd hsame (primary_ne_modelJson hdir h hbpmn hlast)

/-- New metadata names the primary file that it had, or the one that is asked for. -/
theorem namesDiagram_updatedFields {primary : Option Text} {primaryFileName : TextArgument}
    (hcalled : ∀ name, primaryFileName = some name →
      w.tree.isFile (dir ++ [name.strip]) = true → IsDiagram host.casing name.strip)
    (hprimary : updatedPrimary host w.tree identifier
      (strippedField (readJsonFile w.tree (dir ++ [modelJson])) "primary_file_name")
      primaryFileName = .ok primary) (name desc : Text) (next : ModelStatus)
    (processId : Option Text) :
    NamesDiagram host identifier (jsonFields (encodeUtf8
      (JsonText.dumps (updatedFields name desc next primary processId)))) := by
  unfold NamesDiagram primaryPath
  rw [primary_updatedFields]
  cases primaryFileName with
  | none =>
      rw [← Except.ok.inj hprimary]
      have hsame : truthy ((strippedField (readJsonFile w.tree (dir ++ [modelJson]))
          "primary_file_name").map Text.strip) =
          strippedField (readJsonFile w.tree (dir ++ [modelJson])) "primary_file_name" := by
        cases hfield : strippedField (readJsonFile w.tree (dir ++ [modelJson]))
            "primary_file_name" with
        | none => rfl
        | some stripped =>
            obtain ⟨hmap, hne⟩ := truthy_eq_some.mp hfield
            obtain ⟨value, -, hvalue⟩ := Option.map_eq_some_iff.mp hmap
            rw [← hvalue] at hne ⊢
            rw [Option.map_some, Text.strip_strip]
            exact truthy_eq_some.mpr ⟨rfl, hne⟩
      rw [hsame]
      exact h.primary
  | some primaryName =>
      unfold updatedPrimary at hprimary
      dsimp only [bind, Except.bind] at hprimary
      split at hprimary
      · cases hprimary
      · rename_i candidate hcandidate
        obtain ⟨hstripped, hsegment⟩ := isSegment_of_validateLeafFileName hcandidate
        split at hprimary
        · cases hprimary
        · rename_i path hpath
          have hplace := eq_concat_of_resolved hsegment hdir hpath
          split at hprimary
          · rename_i hfile
            rw [← Except.ok.inj hprimary, Option.map_some]
            rw [hplace, hstripped] at hfile hpath
            have hsome : truthy (some (Text.strip candidate)) = some primaryName.strip := by
              rw [hstripped, Text.strip_strip]
              exact truthy_eq_some.mpr ⟨rfl, hstripped ▸ hsegment.1⟩
            rw [hsome]
            exact ⟨_, _, hpath, List.getLast?_concat, hcalled primaryName rfl hfile⟩
          · cases hprimary

theorem updateProcessModelMetadata_keepsHealthy
    {displayName description primaryFileName : TextArgument} {status : Option TextArgument}
    (hcalled : ∀ name, primaryFileName = some name →
      w.tree.isFile (dir ++ [name.strip]) = true → IsDiagram host.casing name.strip) :
    Touches (keepsHealthy host identifier dir w.tree)
      (updateProcessModelMetadata host identifier displayName description primaryFileName status)
      w := by
  apply updateProcessModelMetadata_writes
  intro modelDir next primary name desc processId hmodelDir _ hprimary _
  rw [resolved_unique hdir hmodelDir] at hprimary ⊢
  refine ⟨fun _ _ => trivial, ?_⟩
  intro written hplace
  obtain ⟨-, hname⟩ := List.append_singleton_inj.mp hplace
  rw [← hname]
  refine ⟨⟨by decide, by decide⟩, ?_⟩
  intro _
  exact namesDiagram_updatedFields hdir h hcalled hprimary name desc next processId

theorem deleteModelFile_healthy {name : Text}
    (hkeeps : strippedField (readJsonFile w.tree (dir ++ [modelJson])) "primary_file_name" =
        some name ∨
      ∃ other, other ≠ name ∧ pathSuffix other = ".bpmn".toList ∧
        w.tree.isFile (dir ++ [other]) = true) :
    Healthy host identifier dir (deleteModelFile host identifier name w).2.tree := by
  rcases @deleteModelFile_ends δ host w identifier name with hsame | hremoved
  · rw [hsame]
    exact h
  · obtain ⟨modelDir, hmodelDir, -, hjson, -, hprimary, hafter⟩ := hremoved
    rw [resolved_unique hdir hmodelDir] at hprimary hafter
    rw [hafter]
    rcases hkeeps with hrefused | hother
    · exact absurd hrefused hprimary
    · exact h.of_remove hjson hother

/-- One request on the model keeps the invariant. -/
theorem healthy_step {operation : Operation}
    (hkeeps : KeepsModel host identifier dir w operation) :
    Healthy host identifier dir (serve (operation.run host) w).2.tree := by
  rw [serve_tree]
  have h' : Healthy host identifier dir { w with session := w.stored }.tree := h
  obtain ⟨hon, hleaves⟩ := hkeeps
  cases operation with
  | createProcessGroup groupId displayName description => exact hon.elim
  | createProcessModel groupId leafId displayName description userId => exact hon.elim
  | copyProcessModel source leafId displayName userId =>
      have hsame : source = identifier := hon
      rw [hsame]
      exact h'.of_changed (Touches.ignoring (copyProcessModel_keepsHealthy h'))
  | updateProcessModelMetadata updated displayName description primaryFileName status =>
      have hsame : updated = identifier := hon
      rw [hsame]
      exact h'.of_changed
        (Touches.ignoring (updateProcessModelMetadata_keepsHealthy hdir h' hleaves))
  | createModelFile updated fileName content userId =>
      have hsame : updated = identifier := hon
      rw [hsame]
      exact h'.of_changed (Touches.ignoring createModelFile_keepsHealthy)
  | deleteModelFile updated fileName =>
      have hsame : updated = identifier := hon
      rw [hsame]
      exact deleteModelFile_healthy hdir h' hleaves
  | putProcessModelFile updated fileName content userId =>
      have hsame : updated = identifier := hon
      rw [hsame]
      exact h'.of_changed (Touches.ignoring (putProcessModelFile_keepsHealthy hdir h' hleaves))
  | save path xml userId =>
      have hsame : path = identifier := hon
      rw [hsame]
      exact h'.of_changed (save_keepsHealthy hdir h')
  | deleteProcessModel deleted instances => exact hon.elim
  | deleteProcessGroup groupId instances => exact hon.elim

end Requests

/-! ## Runs -/

/-- After every run of requests that keep the model, it exists, is no group, and has a diagram
to start. -/
theorem model_stays {w' : World δ} {operations : List Operation}
    (hdir : resolvedInsideTenant host [identifier] modelPathError = .ok dir)
    (hgroup : LooksAt host identifier dir) (hstart : Healthy host identifier dir w.tree)
    (h : Run (step host) (KeepsModel host identifier dir) w operations w') :
    modelExists host w'.tree identifier = .ok true ∧
      processGroupExists host w'.tree (some identifier) = .ok false ∧
      FindsDiagram host w'.tree identifier := by
  have hend : Healthy host identifier dir w'.tree := by
    apply Run.invariant (P := fun w : World δ => Healthy host identifier dir w.tree) h hstart
    intro u operation u' hu hkeeps hstep
    rw [← Option.some.inj hstep]
    exact healthy_step hdir hu hkeeps
  exact ⟨hend.modelExists hdir, hend.not_group hgroup, hend.findsDiagram hdir⟩

/-! ### Examples -/

def orderDir : TreePath := ["sales".toList, "order".toList]

theorem resolved_order :
    resolvedInsideTenant exampleHost [order] modelPathError = .ok orderDir := by decide +kernel

theorem looksAt_order : LooksAt exampleHost order orderDir := by
  intro cleaned hvalid
  have hcleaned : validateProcessGroupId (some order) = .ok order := by decide +kernel
  rw [hcleaned] at hvalid
  rw [← Except.ok.inj hvalid]
  decide +kernel

theorem healthy_draftOrder : Healthy exampleHost order orderDir draftOrder.tree where
  diagram := ⟨"order.bpmn".toList, by decide, by decide +kernel⟩
  primary := by
    refine ⟨orderDir ++ ["order.bpmn".toList], "order.bpmn".toList, by decide +kernel, rfl, ?_⟩
    exact isDiagram_of_suffix _ (by decide)
  names := by
    have hchildren : draftOrder.tree.children orderDir = ["order.bpmn".toList, modelJson] := by
      decide +kernel
    intro name hfile
    have hmem := mem_children_of_isFile hfile
    rw [hchildren, List.mem_cons, List.mem_singleton] at hmem
    rcases hmem with hdiagram | hjson
    · rw [hdiagram]
      exact ⟨by decide, by decide⟩
    · rw [hjson]
      exact ⟨by decide, by decide⟩

def createNotes : Operation := .createModelFile order (some "notes.md".toList) none 1

def deleteNotes : Operation := .deleteModelFile order "notes.md".toList

/-- The update that makes the notes the primary file. -/
def notesPrimary : Operation :=
  .updateProcessModelMetadata order none none (some "notes.md".toList) none

def deleteDiagram : Operation := .deleteModelFile order "order.bpmn".toList

/-- Notes come and go. -/
theorem model_stays_notes :
    ∃ w', Run (step exampleHost) (KeepsModel exampleHost order orderDir) draftOrder
        [createNotes, deleteNotes] w' ∧
      modelExists exampleHost w'.tree order = .ok true ∧
      processGroupExists exampleHost w'.tree (some order) = .ok false ∧
      FindsDiagram exampleHost w'.tree order := by
  let created := (serve (createNotes.run exampleHost) draftOrder).2
  have hcreate : KeepsModel exampleHost order orderDir draftOrder createNotes := ⟨rfl, trivial⟩
  have hdelete : KeepsModel exampleHost order orderDir created deleteNotes :=
    ⟨rfl, Or.inr ⟨"order.bpmn".toList, by decide, by decide, by decide +kernel⟩⟩
  have hrun : Run (step exampleHost) (KeepsModel exampleHost order orderDir) draftOrder
      [createNotes, deleteNotes] (serve (deleteNotes.run exampleHost) created).2 :=
    Run.cons hcreate rfl (Run.cons hdelete rfl (Run.nil _))
  exact ⟨_, hrun, model_stays resolved_order looksAt_order healthy_draftOrder hrun⟩

/-- Once the notes are the primary file, the last diagram can be deleted. -/
theorem last_diagram_deleted :
    ∃ w', Run (step exampleHost) (fun _ operation => OnModel order operation) draftOrder
        [createNotes, notesPrimary, deleteDiagram] w' ∧
      modelExists exampleHost draftOrder.tree order = .ok true ∧
      modelExists exampleHost w'.tree order = .ok false ∧
      processGroupExists exampleHost w'.tree (some order) = .ok true := by
  refine ⟨_, Run.cons rfl rfl (Run.cons rfl rfl (Run.cons rfl rfl (Run.nil _))), ?_⟩
  decide +kernel

end M8flow.Catalog
