import M8flow.Catalog.Effects
import M8flow.Lib.Run

/-!
# The lifecycle of models

The status of a model is what its `process_model.json` says.

- `step_alongTransitions`: a request that does not write over that file from outside
  changes the status of a model only where it is an update of its metadata, and only
  along `_STATUS_TRANSITIONS`.
- `status_changes_along_transitions` is that for whole runs, and with it a model
  becomes published only by such an update.
- `put_bypasses_transitions`: `put_process_model_file` can name `process_model.json`.
-/

namespace M8flow.Catalog

open M8flow.Lib M8flow.Lib.FileTree

variable {δ : Type} {host : Host δ} {w : World δ}

/-! ## The condition -/

/-- The primary file of the model is its metadata file, by the path or by the name. -/
def primaryIsMetadata (host : Host δ) (tree : FileTree) (identifier : Text) : Bool :=
  match modelFilePath host tree identifier with
  | .ok path => path.getLast? = some modelJson
  | .error _ => false

/-- The request does not write what it is sent over a metadata file. -/
def LeavesMetadata (host : Host δ) (w : World δ) : Operation → Prop
  | .putProcessModelFile identifier fileName _ _ =>
      fileName ≠ modelJson ∧
        (".dmn".toList.isSuffixOf (host.casing.lower fileName) →
          primaryIsMetadata host w.tree identifier = false)
  | .save path _ _ => primaryIsMetadata host w.tree path = false
  | _ => True

instance (w : World δ) (operation : Operation) : Decidable (LeavesMetadata host w operation) := by
  unfold LeavesMetadata
  split <;> infer_instance

/-- The request is an update of the metadata of the model, which asks for the status. -/
def Updates (host : Host δ) (identifier : Text) (status : ModelStatus) : Operation → Prop
  | .updateProcessModelMetadata updated _ _ _ (some requested) =>
      resolvedInsideTenant host [updated] modelPathError =
          resolvedInsideTenant host [identifier] modelPathError ∧
        (requested.map Text.strip).bind ModelStatus.ofText = some status
  | _ => False

/-- The status of every model that is there before the request and after it stays, or follows
a transition for which the request asks. -/
def AlongTransitions (host : Host δ) (w : World δ) (operation : Operation) : Prop :=
  ∀ identifier status status',
    modelExists host w.tree identifier = .ok true →
    modelExists host (serve (operation.run host) w).2.tree identifier = .ok true →
    processModelStatus host w.tree identifier = .ok status →
    processModelStatus host (serve (operation.run host) w).2.tree identifier = .ok status' →
    status' = status ∨ (status' ∈ status.transitions ∧ Updates host identifier status' operation)

/-! ## One request -/

theorem serve_tree {α : Type} (service : Service δ α) :
    (serve service w).2.tree = (service { w with session := w.stored }).2.tree := by
  unfold serve
  split
  · rename_i hrun
    rw [hrun]
  · rename_i hrun
    rw [hrun]

/-- The metadata of one directory is written only with a status that is allowed, and is
removed only where it is not there. -/
def metadataFootprint (tree : FileTree) (dir : TreePath) (allowed : ModelStatus → Prop) :
    Footprint where
  dirs _ := True
  files path content := path = dir ++ [modelJson] → allowed (fieldsStatus (jsonFields content))
  gone path := path = dir ++ [modelJson] → tree.read path = none

theorem statusAt_congr {tree after : FileTree} {dir : TreePath}
    (h : after.read (dir ++ [modelJson]) = tree.read (dir ++ [modelJson])) :
    statusAt after dir = statusAt tree dir := by
  unfold statusAt readJsonFile
  rw [h]

/-- The status stays or becomes an allowed one. -/
theorem statusAt_of_changed {tree after : FileTree} {dir : TreePath}
    {allowed : ModelStatus → Prop}
    (h : Changed (metadataFootprint tree dir allowed) tree after) :
    statusAt after dir = statusAt tree dir ∨ allowed (statusAt after dir) := by
  rcases h.read (dir ++ [modelJson]) with hsame | ⟨content, hfile, hread⟩ | ⟨hgone, hread⟩
  · exact Or.inl (statusAt_congr hsame)
  · right
    have hstatus : statusAt after dir = fieldsStatus (jsonFields content) := by
      unfold statusAt readJsonFile
      rw [hread]
      rfl
    rw [hstatus]
    exact hfile rfl
  · left
    exact statusAt_congr (hread.trans (hgone rfl).symm)

/-- What is removed without the directory does not have its metadata, unless it is that. -/
theorem statusAt_remove {tree : FileTree} {dir path : TreePath}
    (hdir : (tree.remove path).isDir dir = true) (hne : dir ≠ [])
    (hjson : path = dir ++ [modelJson] → tree.read path = none) :
    statusAt (tree.remove path) dir = statusAt tree dir := by
  apply statusAt_congr
  have hbelow : ¬ path <+: dir := by
    intro hbelow
    rcases isDir_iff.mp hdir with hroot | hat
    · exact hne hroot
    · rw [at?_remove, if_pos hbelow] at hat
      cases hat
  by_cases hsame : path = dir ++ [modelJson]
  · have hgone : (tree.remove path).read (dir ++ [modelJson]) = none := by
      unfold FileTree.read
      rw [at?_remove, if_pos (hsame ▸ List.prefix_refl path)]
    rw [hgone, ← hjson hsame, hsame]
  · have hkept : ¬ path <+: dir ++ [modelJson] := by
      intro hconcat
      rcases List.prefix_concat_iff.mp hconcat with hwhole | habove
      · exact hsame hwhole
      · exact hbelow habove
    unfold FileTree.read
    rw [at?_remove, if_neg hkept]

/-- A path without an entry is not that of a model's directory. -/
theorem ne_of_isModel {tree : FileTree} {dir target : TreePath} (hmodel : IsModel tree dir)
    (hnew : tree.exists target = false) : target ≠ dir := by
  intro hsame
  have hnone := at?_below hnew (List.prefix_refl target)
  unfold «exists» at hnew
  rw [Bool.or_eq_false_iff, decide_eq_false_iff_not] at hnew
  rcases isDir_iff.mp hmodel.1 with hroot | hdir
  · exact hnew.1 (hsame.trans hroot)
  · rw [hsame, hdir] at hnone
    cases hnone

theorem read_eq_none_of_new {tree : FileTree} {target other : TreePath}
    (hnew : tree.exists target = false) (hbelow : target <+: other) : tree.read other = none := by
  unfold FileTree.read
  rw [at?_below hnew hbelow]

section Requests

variable {dir : TreePath}

/-- The footprint in which the metadata of one directory stays. -/
abbrev keepsMetadata (tree : FileTree) (dir : TreePath) : Footprint :=
  metadataFootprint tree dir fun _ => False

theorem createProcessGroup_keeps {groupId displayName description : TextArgument} :
    Touches (keepsMetadata w.tree dir)
      (createProcessGroup host groupId displayName description) w := by
  apply createProcessGroup_touches
  intro cleaned target _ _ _
  refine ⟨fun _ _ => trivial, ?_⟩
  intro content hsame
  exact groupJson_ne_modelJson (List.append_singleton_inj.mp hsame).2

/-- A model that is made is in no directory of a model that is there. -/
theorem createProcessModel_keeps (hmodel : IsModel w.tree dir)
    {groupId leafId displayName description : TextArgument} {userId : Nat} :
    Touches (keepsMetadata w.tree dir)
      (createProcessModel host groupId leafId displayName description userId) w := by
  apply createProcessModel_touches
  intro group leaf target _ _ _ _ hnew
  have hother := ne_of_isModel hmodel hnew
  refine ⟨fun _ _ => trivial, ?_, ?_, ?_⟩
  · intro content _ hsame
    exact hother (List.append_singleton_inj.mp hsame).1
  · intro content hsame
    exact hother (List.append_singleton_inj.mp hsame).1
  · intro other hbelow _
    exact read_eq_none_of_new hnew hbelow

theorem copyProcessModel_keeps (hmodel : IsModel w.tree dir) {sourceIdentifier : Text}
    {leafId displayName : TextArgument} {userId : Nat} :
    Touches (keepsMetadata w.tree dir)
      (copyProcessModel host sourceIdentifier leafId displayName userId) w := by
  apply copyProcessModel_touches
  intro sourceDir leaf dest _ _ _ _ hnew
  have hother := ne_of_isModel hmodel hnew
  refine ⟨fun _ _ => trivial, ?_, ?_, ?_⟩
  · intro content _ hsame
    exact hother (List.append_singleton_inj.mp hsame).1
  · intro name content _ hsame
    exact hother (List.append_singleton_inj.mp hsame).1
  · intro other hbelow _
    exact read_eq_none_of_new hnew hbelow

theorem createModelFile_keeps {identifier : Text} {fileName : TextArgument}
    {content : Option Bytes} {userId : Nat} :
    Touches (keepsMetadata w.tree dir)
      (createModelFile host identifier fileName content userId) w := by
  apply createModelFile_touches
  intro modelDir name _ _ hname _
  refine ⟨fun _ _ => trivial, ?_⟩
  intro content hsame
  exact hname (List.append_singleton_inj.mp hsame).2

/-- A status that the update gives is the one that was there, or a permitted one that was
asked for. -/
theorem updatedStatus_cases {current next : ModelStatus} {status : Option TextArgument}
    (h : updatedStatus host current status = .ok next) :
    next = current ∨ (next ∈ current.transitions ∧ ∃ requested, status = some requested ∧
      (requested.map Text.strip).bind ModelStatus.ofText = some next) := by
  unfold updatedStatus validatedStatusTransition at h
  split at h
  · exact Or.inl (Except.ok.inj h).symm
  · rename_i requested
    split at h
    · cases h
    · rename_i candidate hcandidate
      split at h
      · rename_i hsame
        exact Or.inl ((Except.ok.inj h).symm.trans hsame)
      · split at h
        · rename_i hpermitted
          have hnext := Except.ok.inj h
          rw [← hnext]
          exact Or.inr ⟨hpermitted, requested, rfl, hcandidate⟩
        · cases h

theorem updateProcessModelMetadata_follows {identifier updated : Text}
    (hdir : resolvedInsideTenant host [identifier] modelPathError = .ok dir)
    {displayName description primaryFileName : TextArgument} {status : Option TextArgument} :
    Touches (metadataFootprint w.tree dir fun next => next = statusAt w.tree dir ∨
        (next ∈ (statusAt w.tree dir).transitions ∧ Updates host identifier next
          (.updateProcessModelMetadata updated displayName description primaryFileName status)))
      (updateProcessModelMetadata host updated displayName description primaryFileName status) w := by
  apply updateProcessModelMetadata_touches
  intro updatedDir next hupdated _ hnext
  refine ⟨fun _ _ => trivial, ?_⟩
  intro content hstatus hsame
  have hsameDir : updatedDir = dir := (List.append_singleton_inj.mp hsame).1
  rw [hstatus]
  rw [hsameDir] at hupdated hnext
  rcases updatedStatus_cases hnext with hstays | ⟨hpermitted, requested, hrequested, hasked⟩
  · exact Or.inl hstays
  · right
    refine ⟨hpermitted, ?_⟩
    rw [hrequested]
    exact ⟨hupdated.trans hdir.symm, hasked⟩

/-- Where the path of a primary file comes from the same metadata, it is the same. -/
theorem modelFilePath_congr {tree after : FileTree} {identifier : Text}
    (hdir : resolvedInsideTenant host [identifier] modelPathError = .ok dir)
    (h : after.read (dir ++ [modelJson]) = tree.read (dir ++ [modelJson])) :
    modelFilePath host after identifier = modelFilePath host tree identifier := by
  have hjson : tenantJson host after [identifier, modelJson] modelPathError =
      tenantJson host tree [identifier, modelJson] modelPathError := by
    unfold tenantJson
    rw [resolved_concat (by decide) (by decide) hdir]
    show Except.ok (readJsonFile after (dir ++ [modelJson])) =
      Except.ok (readJsonFile tree (dir ++ [modelJson]))
    unfold readJsonFile
    rw [h]
  unfold modelFilePath
  rw [hjson]

theorem getLast_ne_of_not_primaryIsMetadata {tree : FileTree} {identifier name : Text}
    {path : TreePath} (h : primaryIsMetadata host tree identifier = false)
    (hpath : modelFilePath host tree identifier = .ok path) (hlast : path.getLast? = some name) :
    name ≠ modelJson := by
  unfold primaryIsMetadata at h
  rw [hpath] at h
  intro hsame
  exact of_decide_eq_false h (hlast.trans (congrArg some hsame))

theorem putProcessModelFile_keeps {identifier fileName : Text} {content : Bytes} {userId : Nat}
    (h : LeavesMetadata host w (.putProcessModelFile identifier fileName content userId)) :
    Touches (keepsMetadata w.tree dir)
      (putProcessModelFile host identifier fileName content userId) w := by
  obtain ⟨hname, hprimary⟩ := h
  apply putProcessModelFile_touches
  intro modelDir hdir _ _ _
  refine ⟨fun _ _ => trivial, ?_, ?_⟩
  · intro hsame
    exact hname (List.append_singleton_inj.mp hsame).2
  · intro hdmn written hread bpmnPath name xml hbpmn hlast hsame
    have hjson : modelDir ++ [modelJson] ≠ modelDir ++ [fileName] := by
      intro hpaths
      exact hname (List.append_singleton_inj.mp hpaths).2.symm
    have hkept := (hread (modelDir ++ [modelJson])).trans (if_neg hjson)
    rw [modelFilePath_congr hdir hkept] at hbpmn
    have hother := getLast_ne_of_not_primaryIsMetadata (hprimary hdmn) hbpmn hlast
    exact hother (List.append_singleton_inj.mp hsame).2

theorem save_keeps {path xml : Text} {userId : Nat}
    (h : LeavesMetadata host w (.save path xml userId)) :
    Touches (keepsMetadata w.tree dir) (save host path xml userId none) w := by
  apply save_touches
  intro target htarget
  refine ⟨fun _ _ => trivial, ?_⟩
  intro hsame
  have hlast : target.getLast? = some modelJson := by
    rw [hsame, List.getLast?_concat]
  exact getLast_ne_of_not_primaryIsMetadata h htarget hlast rfl

/-- A deletion leaves the status of a model that is still there. -/
theorem statusAt_of_deleted {after : World δ} {removed : TreePath}
    (hmodel : IsModel after.tree dir) (hne : dir ≠ [])
    (hafter : after.tree = w.tree.remove removed)
    (hjson : removed = dir ++ [modelJson] → w.tree.read removed = none) :
    statusAt after.tree dir = statusAt w.tree dir := by
  rw [hafter] at hmodel ⊢
  exact statusAt_remove hmodel.1 hne hjson

end Requests

theorem statusAt_of_keeps {α : Type} {service : Service δ α} {dir : TreePath}
    (h : Touches (keepsMetadata w.tree dir) service w) :
    statusAt (service w).2.tree dir = statusAt w.tree dir :=
  (statusAt_of_changed h).resolve_right id

/-- The status of a model's directory after an operation, where the model is still there. -/
theorem run_alongTransitions {operation : Operation} {identifier : Text} {dir : TreePath}
    (h : LeavesMetadata host w operation)
    (hdir : resolvedInsideTenant host [identifier] modelPathError = .ok dir)
    (hmodel : IsModel w.tree dir) (hafter : IsModel (operation.run host w).2.tree dir) :
    statusAt (operation.run host w).2.tree dir = statusAt w.tree dir ∨
      (statusAt (operation.run host w).2.tree dir ∈ (statusAt w.tree dir).transitions ∧
        Updates host identifier (statusAt (operation.run host w).2.tree dir) operation) := by
  have hne := ne_nil_of_resolved hdir
  cases operation with
  | createProcessGroup groupId displayName description =>
      exact Or.inl (statusAt_of_keeps (Touches.ignoring createProcessGroup_keeps))
  | createProcessModel groupId leafId displayName description userId =>
      exact Or.inl (statusAt_of_keeps (Touches.ignoring (createProcessModel_keeps hmodel)))
  | copyProcessModel sourceIdentifier leafId displayName userId =>
      exact Or.inl (statusAt_of_keeps (Touches.ignoring (copyProcessModel_keeps hmodel)))
  | updateProcessModelMetadata updated displayName description primaryFileName requested =>
      have htouches := Touches.ignoring (@updateProcessModelMetadata_follows δ host w dir identifier
        updated hdir displayName description primaryFileName requested)
      rcases statusAt_of_changed htouches with hstays | hstays | hmoves
      · exact Or.inl hstays
      · exact Or.inl hstays
      · exact Or.inr hmoves
  | createModelFile updated fileName content userId =>
      exact Or.inl (statusAt_of_keeps (Touches.ignoring createModelFile_keeps))
  | deleteModelFile updated fileName =>
      left
      rcases @deleteModelFile_ends δ host w updated fileName with hsame | hremoved
      · exact congrArg (statusAt · dir) hsame
      · obtain ⟨modelDir, _, _, hname, _, _, hremove⟩ := hremoved
        apply statusAt_of_deleted hafter hne hremove
        intro hsame
        exact absurd (List.append_singleton_inj.mp hsame).2 hname
  | putProcessModelFile updated fileName content userId =>
      exact Or.inl (statusAt_of_keeps (Touches.ignoring (putProcessModelFile_keeps h)))
  | save path xml userId => exact Or.inl (statusAt_of_keeps (save_keeps h))
  | deleteProcessModel deleted instances =>
      left
      rcases @deleteProcessModel_ends δ host w deleted instances with hsame | hremoved
      · exact congrArg (statusAt · dir) hsame
      · obtain ⟨removed, hresolved, hwas, _, hremove⟩ := hremoved
        apply statusAt_of_deleted hafter hne hremove
        intro _
        rcases isDir_iff.mp hwas.1 with hroot | hat
        · exact absurd hroot (ne_nil_of_resolved hresolved)
        · unfold FileTree.read
          rw [hat]
  | deleteProcessGroup groupId instances =>
      left
      rcases @deleteProcessGroup_ends δ host w groupId instances with hsame | hremoved
      · exact congrArg (statusAt · dir) hsame
      · obtain ⟨cleaned, target, hvalid, hresolved, _, hremove⟩ := hremoved
        apply statusAt_of_deleted hafter hne hremove
        intro hsame
        have htarget := resolved_of_validateProcessGroupId hvalid hresolved
        have hmem : modelJson ∈ Text.splitOn ['/'] cleaned := by
          rw [← htarget, hsame]
          exact List.mem_append_right dir (List.mem_singleton_self modelJson)
        have hsegment := (validateProcessGroupId_segments hvalid).2 modelJson hmem
        exact absurd hsegment (by decide)

/-- One request keeps to the transitions. -/
theorem step_alongTransitions {operation : Operation} (h : LeavesMetadata host w operation) :
    AlongTransitions host w operation := by
  intro identifier status status' hbefore hafter hstatus hstatus'
  obtain ⟨dir, hdir, hmodel⟩ := modelExists_iff.mp hbefore
  obtain ⟨dir', hdir', hmodel'⟩ := modelExists_iff.mp hafter
  rw [resolved_unique hdir hdir'] at hmodel'
  rw [processModelStatus_eq hdir] at hstatus hstatus'
  rw [← Except.ok.inj hstatus, ← Except.ok.inj hstatus']
  rw [serve_tree] at hmodel' ⊢
  have h' : LeavesMetadata host { w with session := w.stored } operation := h
  exact run_alongTransitions h' hdir hmodel hmodel'

/-! ## Runs -/

/-- Where no request of a run writes what it is sent over a metadata file, every request keeps
to the transitions; and a model that is there throughout, is not published at first and is at
the end, was published by an update of its metadata that asked for it. -/
theorem status_changes_along_transitions {w' : World δ} {operations : List Operation}
    (h : Run (step host) (LeavesMetadata host) w operations w') :
    Run (step host) (AlongTransitions host) w operations w' ∧
      ∀ identifier status,
        (∀ before after u, operations = before ++ after →
          Run (step host) (LeavesMetadata host) w before u →
          modelExists host u.tree identifier = .ok true) →
        processModelStatus host w.tree identifier = .ok status → status ≠ .published →
        processModelStatus host w'.tree identifier = .ok .published →
        ∃ before operation after u status, operations = before ++ operation :: after ∧
          Run (step host) (LeavesMetadata host) w before u ∧
          processModelStatus host u.tree identifier = .ok status ∧
          .published ∈ status.transitions ∧ Updates host identifier .published operation := by
  refine ⟨h.mono fun u operation hleaves => step_alongTransitions hleaves, ?_⟩
  intro identifier status hthere hstart hdraft hend
  have hnot : ¬ processModelStatus host w.tree identifier = .ok .published := by
    intro hpublished
    rw [hstart] at hpublished
    exact hdraft (Except.ok.inj hpublished)
  obtain ⟨before, operation, after, u, u', hoperations, hbefore, hleaves, hstep, hrest, hwas, his⟩ :=
    Run.entered (P := fun u : World δ => processModelStatus host u.tree identifier = .ok .published)
      h hnot hend
  have hu : modelExists host u.tree identifier = .ok true :=
    hthere before (operation :: after) u hoperations hbefore
  have hnext : (serve (operation.run host) u).2 = u' := Option.some.inj hstep
  have hu' : modelExists host u'.tree identifier = .ok true := by
    apply hthere (before ++ [operation]) after u'
    · rw [hoperations, List.append_assoc, List.singleton_append]
    · exact hbefore.append (Run.cons hleaves hstep (Run.nil u'))
  obtain ⟨dir, hdir, -⟩ := modelExists_iff.mp hu
  have hstatus := @processModelStatus_eq δ host u.tree identifier dir _ hdir
  refine ⟨before, operation, after, u, statusAt u.tree dir, hoperations, hbefore, hstatus, ?_⟩
  rw [← hnext] at hu' his
  rcases step_alongTransitions hleaves identifier _ _ hu hu' hstatus his with hsame | hmoves
  · rw [← hsame] at hstatus
    exact absurd hstatus hwas
  · exact hmoves

/-! ## A file put over the metadata -/

/-- A host with core's tables left out, whose parser finds a root in everything. -/
def exampleHost : Host Unit where
  casing := .ascii
  root := ["models".toList, "acme".toList]
  root_segments := by decide
  parseXml _ := .root (.mk (some "definitions".toList) none [] [])
  importDefinition _ session := (.ok (), session)
  repr _ := []

/-- The metadata of a draft, and its directory and diagram. -/
def orderEntries : List (TreePath × Node) :=
  [(["sales".toList], .dir), (["sales".toList, "order".toList], .dir),
    (["sales".toList, "order".toList, "order.bpmn".toList], .file (encodeUtf8 "<definitions/>".toList)),
    (["sales".toList, "order".toList, modelJson],
      .file (encodeUtf8 (JsonText.dumps [("status".toList, "draft".toList)])))]

/-- A catalog with the draft. -/
def draftOrder : World Unit where
  tree := ⟨orderEntries, closed_of_forall (by decide +kernel), by decide +kernel⟩
  stored := ()
  session := ()

def order : Text := "sales/order".toList

/-- The update that publishes the model. -/
def publishOrder : Operation :=
  .updateProcessModelMetadata order none none none (some (some "published".toList))

/-- A metadata file that says paused, put over the model's. -/
def putPaused : Operation :=
  .putProcessModelFile order modelJson
    (encodeUtf8 (JsonText.dumps [("status".toList, "paused".toList)])) 1

/-- Whether the model is there, and its status. -/
def observe (w : World Unit) : Except Raised Bool × Except Raised ModelStatus :=
  (modelExists exampleHost w.tree order, processModelStatus exampleHost w.tree order)

theorem observe_draftOrder : observe draftOrder = (.ok true, .ok .draft) := by decide +kernel

theorem observe_publishOrder :
    observe (serve (publishOrder.run exampleHost) draftOrder).2 = (.ok true, .ok .published) := by
  decide +kernel

theorem observe_putPaused :
    observe (serve (putPaused.run exampleHost) draftOrder).2 = (.ok true, .ok .paused) := by
  decide +kernel

/-- The update publishes the draft. -/
theorem status_changes_along_transitions_order :
    ∃ before operation rest u status, [publishOrder] = before ++ operation :: rest ∧
      Run (step exampleHost) (LeavesMetadata exampleHost) draftOrder before u ∧
      processModelStatus exampleHost u.tree order = .ok status ∧
      .published ∈ status.transitions ∧ Updates exampleHost order .published operation := by
  obtain ⟨hdraft, hstatus⟩ := Prod.mk.inj observe_draftOrder
  obtain ⟨hpublished, hstatus'⟩ := Prod.mk.inj observe_publishOrder
  have hrun : Run (step exampleHost) (LeavesMetadata exampleHost) draftOrder [publishOrder]
      (serve (publishOrder.run exampleHost) draftOrder).2 := Run.cons trivial rfl (Run.nil _)
  apply (status_changes_along_transitions hrun).2 order .draft ?_ hstatus (by decide) hstatus'
  intro before rest u hsplit hbefore
  cases hbefore with
  | nil => exact hdraft
  | @cons _ operation u' before _ hleaves hstep hrest =>
      obtain ⟨hoperation, hnil⟩ := List.cons.inj hsplit
      have hbefore : before = [] := (List.append_eq_nil_iff.mp hnil.symm).1
      rw [hbefore] at hrest
      cases hrest
      rw [← hoperation] at hstep
      rw [← Option.some.inj hstep]
      exact hpublished

/-- The put pauses the draft, which no transition does. -/
theorem put_bypasses_transitions :
    ∃ w, Run (step exampleHost) (fun _ _ => True) draftOrder [putPaused] w ∧
      ¬ Run (step exampleHost) (AlongTransitions exampleHost) draftOrder [putPaused] w := by
  refine ⟨(serve (putPaused.run exampleHost) draftOrder).2, Run.cons trivial rfl (Run.nil _), ?_⟩
  intro hrun
  cases hrun with
  | cons halong hstep hrest =>
      obtain ⟨hdraft, hstatus⟩ := Prod.mk.inj observe_draftOrder
      obtain ⟨hpaused, hstatus'⟩ := Prod.mk.inj observe_putPaused
      rcases halong order .draft .paused hdraft hpaused hstatus hstatus' with hsame | hmoves
      · cases hsame
      · exact absurd hmoves.1 (by decide)

end M8flow.Catalog
