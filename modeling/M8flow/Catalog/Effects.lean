import M8flow.Catalog.Service

/-!
# What an operation can do to the files

`Ends Q service w` says that the procedure ends in a state with the property `Q`,
whatever comes of it, and `Touches F service w` that the files differ afterwards only
as the footprint `F` allows.  There is one rule for each step of a procedure, and one
lemma for each operation, which says where it makes directories, what it writes where,
and what it removes.
-/

namespace M8flow.Catalog

open M8flow.Lib M8flow.Lib.FileTree

variable {δ α β : Type} {host : Host δ} {w : World δ} {F : Footprint}

/-! ## Runs of the steps -/

theorem check_run (answer : Except Raised α) : (check answer : Service δ α) w = (answer, w) := by
  cases answer with
  | ok a => rfl
  | error e => rfl

theorem inspect_run (answer : FileTree → Except Raised α) :
    (inspect answer : Service δ α) w = (answer w.tree, w) :=
  check_run (answer w.tree)

theorem require_run_ok {holds : Bool} {errorCode message : String} {statusCode : Nat} {a : Unit}
    {after : World δ}
    (h : (require holds errorCode message statusCode : Service δ Unit) w = (.ok a, after)) :
    holds = true ∧ after = w := by
  cases holds with
  | true =>
      cases h
      exact ⟨rfl, rfl⟩
  | false => cases h

theorem requireModel_run_ok {identifier : Text} {a : Unit} {after : World δ}
    (h : requireModel host identifier w = (.ok a, after)) :
    modelExists host w.tree identifier = .ok true ∧ after = w := by
  obtain ⟨found, between, hinspect, hrequire⟩ := Proc.bind_eq_ok.mp h
  rw [inspect_run] at hinspect
  obtain ⟨hanswer, hsame⟩ := Prod.mk.inj hinspect
  obtain ⟨hfound, hafter⟩ := require_run_ok hrequire
  rw [hanswer, hfound, hafter, hsame]
  exact ⟨rfl, rfl⟩

theorem changeFiles_run {change : FileTree → Option FileTree} {tree : FileTree}
    (h : change w.tree = some tree) :
    (changeFiles change : Service δ Unit) w = (.ok (), { w with tree }) := by
  unfold changeFiles
  rw [h]

theorem changeFiles_run_none {change : FileTree → Option FileTree} (h : change w.tree = none) :
    (changeFiles change : Service δ Unit) w = (.error .osError, w) := by
  unfold changeFiles
  rw [h]

theorem changeFiles_run_ok {change : FileTree → Option FileTree} {a : Unit} {after : World δ}
    (h : changeFiles change w = (.ok a, after)) :
    ∃ tree, change w.tree = some tree ∧ after = { w with tree } := by
  unfold changeFiles at h
  split at h
  · rename_i tree htree
    cases h
    exact ⟨tree, htree, rfl⟩
  · cases h

/-- After a file was written, every file reads as before, and it as what was written. -/
theorem writeFile_run_ok {path : TreePath} {content : Bytes} {a : Unit} {after : World δ}
    (h : writeFile path content w = (.ok a, after)) (other : TreePath) :
    after.tree.read other = if other = path then some content else w.tree.read other := by
  obtain ⟨_, between, hdirs, hwrite⟩ := Proc.bind_eq_ok.mp h
  obtain ⟨made, hmade, hbetween⟩ := changeFiles_run_ok hdirs
  obtain ⟨written, hwritten, hafter⟩ := changeFiles_run_ok hwrite
  rw [hbetween] at hwritten
  rw [hafter, read_write hwritten, read_mkdirs hmade]

theorem writeSpecFile_run_ok {identifier name : Text} {dir : TreePath} {pathError : ApiError}
    {content : Bytes} {path : TreePath} {after : World δ} (hname : IsSegment name)
    (hdir : resolvedInsideTenant host [identifier] pathError = .ok dir)
    (h : writeSpecFile host identifier name content w = (.ok path, after)) (other : TreePath) :
    after.tree.read other = if other = dir ++ [name] then some content else w.tree.read other := by
  obtain ⟨target, between, hcheck, hrest⟩ := Proc.bind_eq_ok.mp h
  rw [check_run] at hcheck
  obtain ⟨htarget, hbetween⟩ := Prod.mk.inj hcheck
  obtain ⟨_, written, hwrite, hpure⟩ := Proc.bind_eq_ok.mp hrest
  have hafter : written = after := congrArg Prod.snd hpure
  rw [← hafter, writeFile_run_ok hwrite, eq_concat_of_resolved hname hdir htarget, hbetween]

/-- A file is written into a directory that is there, unless a directory has its name. -/
theorem writeFile_runs {dir : TreePath} {name : Text} (content : Bytes)
    (hdir : w.tree.isDir dir = true) (hfile : w.tree.at? (dir ++ [name]) ≠ some .dir) :
    ∃ tree, writeFile (dir ++ [name]) content w = (.ok (), { w with tree }) := by
  obtain ⟨made, hmade, hsame⟩ := mkdirs_of_isDir hdir
  have hdir' : made.isDir dir = true := by
    rw [isDir_iff, hsame]
    exact isDir_iff.mp hdir
  obtain ⟨written, hwritten⟩ := write_of_isDir content hdir' (hsame (dir ++ [name]) ▸ hfile)
  have hmakeDirs : (makeDirs (dir ++ [name]).dropLast : Service δ Unit) w =
      (.ok (), { w with tree := made }) := by
    rw [List.dropLast_concat]
    exact changeFiles_run hmade
  refine ⟨written, ?_⟩
  unfold writeFile
  rw [Proc.bind_run_ok hmakeDirs]
  exact changeFiles_run hwritten

/-! ## Rules -/

/-- Whatever comes of the procedure, it ends in a state with the property. -/
def Ends (Q : World δ → Prop) (service : Service δ α) (w : World δ) : Prop := Q (service w).2

namespace Ends

variable {Q : World δ → Prop}

theorem bind {x : Service δ α} {f : α → Service δ β} (hx : Ends Q x w)
    (hf : ∀ a after, x w = (.ok a, after) → Ends Q (f a) after) : Ends Q (x >>= f) w := by
  unfold Ends at hx ⊢
  rcases hrun : x w with ⟨result, after⟩
  cases result with
  | ok a =>
      rw [Proc.bind_run_ok hrun]
      exact hf a after hrun
  | error e =>
      rw [hrun] at hx
      rw [Proc.bind_run_error hrun]
      exact hx

theorem check_bind {answer : Except Raised α} {f : α → Service δ β} (hw : Q w)
    (h : ∀ a, answer = .ok a → Ends Q (f a) w) : Ends Q (check answer >>= f) w := by
  apply bind
  · unfold Ends
    rw [check_run]
    exact hw
  · intro a after hrun
    rw [check_run] at hrun
    obtain ⟨hanswer, hsame⟩ := Prod.mk.inj hrun
    rw [← hsame]
    exact h a hanswer

theorem inspect_bind {answer : FileTree → Except Raised α} {f : α → Service δ β} (hw : Q w)
    (h : ∀ a, answer w.tree = .ok a → Ends Q (f a) w) : Ends Q (inspect answer >>= f) w :=
  check_bind hw h

theorem require_bind {holds : Bool} {errorCode message : String} {statusCode : Nat}
    {f : Unit → Service δ β} (hw : Q w) (h : holds = true → Ends Q (f ()) w) :
    Ends Q (require holds errorCode message statusCode >>= f) w := by
  cases holds with
  | true => exact h rfl
  | false => exact hw

theorem requireModel_bind {identifier : Text} {f : Unit → Service δ β} (hw : Q w)
    (h : modelExists host w.tree identifier = .ok true → Ends Q (f ()) w) :
    Ends Q (requireModel host identifier >>= f) w := by
  apply bind
  · apply inspect_bind hw
    intro found _
    cases found with
    | true => exact hw
    | false => exact hw
  · intro a after hrun
    obtain ⟨hfound, hsame⟩ := requireModel_run_ok hrun
    rw [hsame]
    exact h hfound

end Ends

/-- Whatever comes of the procedure, files change only as the footprint allows. -/
def Touches (F : Footprint) (service : Service δ α) (w : World δ) : Prop :=
  Ends (fun after => Changed F w.tree after.tree) service w

namespace Touches

theorem pure (a : α) : Touches F (Pure.pure a : Service δ α) w := Changed.refl w.tree

theorem raise (e : Raised) : Touches F (Proc.raise e : Service δ α) w := Changed.refl w.tree

/-- The second procedure starts from where the first one ends. -/
theorem bind {x : Service δ α} {f : α → Service δ β} (hx : Touches F x w)
    (hf : ∀ a after, x w = (.ok a, after) → Touches F (f a) after) : Touches F (x >>= f) w := by
  apply Ends.bind hx
  intro a after hrun
  have hfirst : Changed F w.tree (x w).2.tree := hx
  rw [hrun] at hfirst
  exact hfirst.trans (hf a after hrun)

theorem inspect (answer : FileTree → Except Raised α) : Touches F (Catalog.inspect answer) w := by
  unfold Touches Ends
  rw [inspect_run]
  exact Changed.refl w.tree

theorem check_bind {answer : Except Raised α} {f : α → Service δ β}
    (h : ∀ a, answer = .ok a → Touches F (f a) w) : Touches F (Catalog.check answer >>= f) w :=
  Ends.check_bind (Changed.refl w.tree) h

theorem inspect_bind {answer : FileTree → Except Raised α} {f : α → Service δ β}
    (h : ∀ a, answer w.tree = .ok a → Touches F (f a) w) :
    Touches F (Catalog.inspect answer >>= f) w :=
  Ends.inspect_bind (Changed.refl w.tree) h

theorem require_bind {holds : Bool} {errorCode message : String} {statusCode : Nat}
    {f : Unit → Service δ β} (h : holds = true → Touches F (f ()) w) :
    Touches F (Catalog.require holds errorCode message statusCode >>= f) w :=
  Ends.require_bind (Changed.refl w.tree) h

theorem requireModel_bind {identifier : Text} {f : Unit → Service δ β}
    (h : modelExists host w.tree identifier = .ok true → Touches F (f ()) w) :
    Touches F (Catalog.requireModel host identifier >>= f) w :=
  Ends.requireModel_bind (Changed.refl w.tree) h

theorem changeFiles {change : FileTree → Option FileTree}
    (h : ∀ tree, change w.tree = some tree → Changed F w.tree tree) :
    Touches F (Catalog.changeFiles change : Service δ Unit) w := by
  unfold Touches Ends Catalog.changeFiles
  cases hchange : change w.tree with
  | some tree => exact h tree hchange
  | none => exact Changed.refl w.tree

theorem makeDirs {path : TreePath} (hdirs : ∀ above, above <+: path → F.dirs above) :
    Touches F (Catalog.makeDirs path : Service δ Unit) w :=
  changeFiles fun _ hmade => Changed.of_mkdirs hmade fun above habove _ => hdirs above habove

theorem writeBytes {path : TreePath} {content : Bytes} (hfile : F.files path content) :
    Touches F (Catalog.writeBytes path content : Service δ Unit) w :=
  changeFiles fun _ hwritten => Changed.of_write hwritten hfile

theorem removePath {path : TreePath} (hgone : ∀ other, path <+: other → F.gone other) :
    Touches F (Catalog.removePath path : Service δ Unit) w := by
  apply changeFiles
  intro tree htree
  rw [← Option.some.inj htree]
  exact Changed.of_remove hgone

theorem writeFile {path : TreePath} {content : Bytes}
    (hdirs : ∀ above, above <+: path.dropLast → F.dirs above) (hfile : F.files path content) :
    Touches F (Catalog.writeFile path content : Service δ Unit) w :=
  bind (makeDirs hdirs) fun _ _ _ => writeBytes hfile

theorem importDefinition (command : ImportCommand) :
    Touches F (Catalog.importDefinition host command) w :=
  Changed.refl w.tree

theorem readTextOr (path : TreePath) (undecodable : Raised) :
    Touches F (Catalog.readTextOr path undecodable) w :=
  inspect _

theorem requireIdentity (identifier : Text) :
    Touches F (Catalog.requireIdentity host identifier) w := by
  apply inspect_bind
  intro identity _
  cases identity with
  | some identity => exact pure identity
  | none => exact raise _

/-- What the body leaves is removed if it raises. -/
theorem undoing {target : TreePath} {body : Service δ α} (hbody : Touches F body w)
    (hgone : ∀ other, target <+: other → F.gone other) :
    Touches F (Catalog.undoing target body) w := by
  have hfirst : Changed F w.tree (body w).2.tree := hbody
  unfold Touches Ends Catalog.undoing
  rcases hrun : body w with ⟨result, after⟩
  rw [hrun] at hfirst
  cases result with
  | ok a =>
      rw [Proc.tryExcept_run_ok hrun]
      exact hfirst
  | error e =>
      rw [Proc.tryExcept_run_error hrun]
      have hrest : Touches F (Catalog.removePath target >>= fun _ => Proc.raise e : Service δ α)
          after := bind (removePath hgone) fun _ _ _ => raise e
      exact hfirst.trans hrest

theorem ignoring {service : Service δ α} (h : Touches F service w) :
    Touches F (Catalog.ignoring service) w :=
  bind h fun _ _ _ => pure ()

/-- The import before a new file is written touches no file. -/
theorem importNewFile (identifier name : Text) (body : Bytes) (userId : Nat) :
    Touches F (Catalog.importNewFile host identifier name body userId) w := by
  unfold Catalog.importNewFile
  dsimp only
  split
  · split
    · exact raise _
    · apply check_bind
      intro _ _
      apply inspect_bind
      intro _ _
      exact importDefinition _
  · split
    · split
      · exact raise _
      · apply require_bind
        intro _
        apply inspect_bind
        intro bpmnPath _
        apply inspect_bind
        intro isFile _
        split
        · apply bind (readTextOr _ _)
          intro _ _ _
          apply inspect_bind
          intro _ _
          exact importDefinition _
        · exact pure ()
    · exact pure ()

/-- The import of a copy touches no file. -/
theorem importCopy (destId bpmnName : Text) (userId : Nat) :
    Touches F (Catalog.importCopy host destId bpmnName userId) w := by
  apply check_bind
  intro xmlPath _
  apply bind (readTextOr _ _)
  intro xml _ _
  apply check_bind
  intro _ _
  apply inspect_bind
  intro _ _
  exact importDefinition _

/-! ### Writes -/

section Writes

variable {identifier name : Text} {dir : TreePath} {pathError : ApiError} {content : Bytes}

theorem writeSpecFile (hdir : resolvedInsideTenant host [identifier] pathError = .ok dir)
    (hname : IsSegment name) (hdirs : ∀ above, above <+: dir → F.dirs above)
    (hfile : resolvedInsideTenant host [identifier, name] modelPathError = .ok (dir ++ [name]) →
      F.files (dir ++ [name]) content) :
    Touches F (Catalog.writeSpecFile host identifier name content) w := by
  apply check_bind
  intro target htarget
  have hdirs' : ∀ above, above <+: (dir ++ [name]).dropLast → F.dirs above := by
    rw [List.dropLast_concat]
    exact hdirs
  have hplace := eq_concat_of_resolved hname hdir htarget
  rw [hplace] at htarget ⊢
  exact bind (writeFile hdirs' (hfile htarget)) fun _ _ _ => pure _

theorem writeProcessModelJson {info : List (Text × Text)}
    (hdir : resolvedInsideTenant host [identifier] pathError = .ok dir)
    (hdirs : ∀ above, above <+: dir → F.dirs above)
    (hfile : F.files (dir ++ [modelJson]) (encodeUtf8 (JsonText.dumps info))) :
    Touches F (Catalog.writeProcessModelJson host identifier info) w := by
  apply check_bind
  intro path hpath
  have hdirs' : ∀ above, above <+: (dir ++ [modelJson]).dropLast → F.dirs above := by
    rw [List.dropLast_concat]
    exact hdirs
  rw [eq_concat_of_resolved (by decide) hdir hpath]
  exact writeFile hdirs' hfile

theorem writeProcessGroupJson {info : List (Text × Text)}
    (hdir : resolvedInsideTenant host [identifier] pathError = .ok dir)
    (hdirs : ∀ above, above <+: dir → F.dirs above)
    (hfile : F.files (dir ++ [groupJson]) (encodeUtf8 (JsonText.dumps info))) :
    Touches F (Catalog.writeProcessGroupJson host identifier info) w := by
  apply check_bind
  intro path hpath
  have hdirs' : ∀ above, above <+: (dir ++ [groupJson]).dropLast → F.dirs above := by
    rw [List.dropLast_concat]
    exact hdirs
  rw [eq_concat_of_resolved (by decide) hdir hpath]
  exact writeFile hdirs' hfile

theorem addProcessModel {info : List (Text × Text)}
    (hdir : resolvedInsideTenant host [identifier] pathError = .ok dir)
    (hdirs : ∀ above, above <+: dir → F.dirs above)
    (hfile : F.files (dir ++ [modelJson]) (encodeUtf8 (JsonText.dumps info))) :
    Touches F (Catalog.addProcessModel host identifier info) w := by
  apply check_bind
  intro path hpath
  rw [resolved_unique hdir hpath]
  exact bind (makeDirs hdirs) fun _ _ _ => writeProcessModelJson hdir hdirs hfile

theorem copyFiles {sourceDir dest : TreePath} (names : List Text)
    (hfiles : ∀ name content, name ≠ modelJson → F.files (dest ++ [name]) content) :
    Touches F (Catalog.copyFiles sourceDir dest names : Service δ Unit) w := by
  induction names generalizing w with
  | nil => exact pure ()
  | cons name names ih =>
      have hfile : Touches F (Catalog.copyFile sourceDir dest name : Service δ Unit) w := by
        apply inspect_bind
        intro content _
        cases content with
        | none => exact pure ()
        | some content =>
            show Touches F (if name ≠ modelJson then _ else _) w
            split
            · rename_i hname
              exact writeBytes (hfiles name content hname)
            · exact pure ()
      exact bind hfile fun _ _ _ => ih

end Writes

end Touches

/-! ## Operations -/

theorem optionalField_keys (name : String) (value : Option Text) :
    List.Sublist ((optionalField name value).map Prod.fst) [name.toList] := by
  cases value with
  | none => exact List.nil_sublist _
  | some value => exact List.Sublist.refl _

theorem nodup_updatedFields (name desc : Text) (status : ModelStatus)
    (primary processId : Option Text) :
    ((updatedFields name desc status primary processId).map Prod.fst).Nodup := by
  have hfirst : List.Sublist (["display_name", "description", "status"].map String.toList) _ :=
    List.Sublist.refl _
  have hsub := (hfirst.append (optionalField_keys "primary_file_name" primary)).append
    (optionalField_keys "primary_process_id" processId)
  unfold updatedFields
  rw [List.map_append, List.map_append]
  exact hsub.nodup (by decide)

/-- The status that new or updated metadata says. -/
theorem fieldsStatus_updatedFields (name desc : Text) (status : ModelStatus)
    (primary processId : Option Text) :
    fieldsStatus (jsonFields (encodeUtf8
      (JsonText.dumps (updatedFields name desc status primary processId)))) = status := by
  have hkeys := nodup_updatedFields name desc status primary processId
  have hlookup : (updatedFields name desc status primary processId).lookup "status".toList =
      some status.text := rfl
  have hstrip : ModelStatus.ofText status.text.strip = some status := by
    cases status with
    | draft => decide
    | published => decide
    | paused => decide
  rw [fieldsStatus_dumps hkeys, hlookup, Option.bind_some, hstrip, Option.getD_some]

/-- The primary file that new or updated metadata names. -/
theorem primary_updatedFields (name desc : Text) (status : ModelStatus)
    (primary processId : Option Text) :
    strippedField (jsonFields (encodeUtf8
        (JsonText.dumps (updatedFields name desc status primary processId))))
        "primary_file_name" = truthy (primary.map Text.strip) := by
  have hkeys := nodup_updatedFields name desc status primary processId
  have hlookup : (updatedFields name desc status primary processId).lookup
      "primary_file_name".toList = primary := by
    cases primary with
    | some primary => rfl
    | none =>
        cases processId with
        | some processId => rfl
        | none => rfl
  obtain ⟨read, hloads, hget⟩ := JsonText.get_dumps hkeys "primary_file_name".toList
  unfold strippedField jsonFields
  rw [readText_encodeUtf8 (JsonText.return_not_mem_dumps _), Option.bind_some, hloads]
  dsimp only
  rw [hget, hlookup]

theorem isSegment_of_validateLeafFileName {fileName name : Text}
    (h : validateLeafFileName fileName = .ok name) : name = fileName ∧ IsSegment name := by
  unfold validateLeafFileName at h
  split at h
  · cases h
  · rename_i hvalid
    have hsame := Except.ok.inj h
    rw [not_or, not_or, not_or, not_or] at hvalid
    rw [← hsame]
    exact ⟨rfl, hvalid.1, hvalid.2.1, hvalid.2.2.1, hvalid.2.2.2.1⟩

theorem ne_modelJson_of_not_reserved {name : Text}
    (h : host.casing.lower name ∉ reservedModelFileNames) : name ≠ modelJson := by
  intro hsame
  have hlower : host.casing.lower modelJson = modelJson := host.casing.lower_ascii _ (by decide)
  rw [hsame, hlower] at h
  exact h List.mem_cons_self

theorem importDefinition_run_ok {command : ImportCommand} {a : Unit} {after : World δ}
    (h : importDefinition host command w = (.ok a, after)) :
    after.tree = w.tree ∧ after.stored = w.stored := by
  have hafter : (importDefinition host command w).2 = after := congrArg Prod.snd h
  rw [← hafter]
  exact ⟨rfl, rfl⟩

/-- What a name of a copy or of a new model is, besides the metadata. -/
theorem isSegment_bpmn {leaf : Text} (h : isGroupSegment leaf = true) :
    IsSegment (leaf ++ ".bpmn".toList) := by
  have hslash := (isSegment_of_isGroupSegment h).2.2.2
  refine ⟨by simp, ?_, ?_, by simpa using hslash⟩
  · intro hsame
    have hlength := congrArg List.length hsame
    simp at hlength
  · intro hsame
    have hlength := congrArg List.length hsame
    simp at hlength

/-- `create_process_group` makes a directory that was not there, and its metadata. -/
theorem createProcessGroup_touches {groupId displayName description : TextArgument}
    (h : ∀ cleaned target, validateProcessGroupId groupId = .ok cleaned →
      resolvedInsideTenant host [cleaned] groupPathError = .ok target →
      w.tree.exists target = false →
      (∀ above, above <+: target → F.dirs above) ∧
        ∀ content, F.files (target ++ [groupJson]) content) :
    Touches F (createProcessGroup host groupId displayName description) w := by
  apply Touches.check_bind
  intro cleaned hcleaned
  apply Touches.check_bind
  intro target htarget
  apply Touches.inspect_bind
  intro isModel _
  apply Touches.require_bind
  intro _
  apply Touches.inspect_bind
  intro taken htaken
  apply Touches.require_bind
  intro hfree
  have hnew : w.tree.exists target = false := by
    rw [Except.ok.inj htaken]
    exact Bool.not_eq_true' taken ▸ hfree
  obtain ⟨hdirs, hfiles⟩ := h cleaned target hcleaned htarget hnew
  apply Touches.bind (Touches.makeDirs hdirs)
  intro _ made _
  apply Touches.bind (Touches.writeProcessGroupJson htarget hdirs (hfiles _))
  intro _ written _
  exact Touches.pure _

/-- `create_process_model` makes the directory of a model that was not there, with draft
metadata and a diagram, or removes it again. -/
theorem createProcessModel_touches {groupId leafId displayName description : TextArgument}
    {userId : Nat}
    (h : ∀ group leaf target, validateProcessGroupId groupId = .ok group →
      resolveProcessModelLeaf host.casing leafId displayName = .ok leaf →
      processGroupExists host w.tree (some group) = .ok true →
      resolvedInsideTenant host [group ++ '/' :: leaf] modelPathError = .ok target →
      w.tree.exists target = false →
      (∀ above, above <+: target → F.dirs above) ∧
        (∀ content, fieldsStatus (jsonFields content) = .draft →
          F.files (target ++ [modelJson]) content) ∧
        (∀ content, F.files (target ++ [leaf ++ ".bpmn".toList]) content) ∧
        ∀ other, target <+: other → F.gone other) :
    Touches F (createProcessModel host groupId leafId displayName description userId) w := by
  apply Touches.check_bind
  intro group hgroup
  apply Touches.check_bind
  intro leaf hleaf
  apply Touches.inspect_bind
  intro found hfound
  apply Touches.require_bind
  intro hexists
  apply Touches.check_bind
  intro target htarget
  apply Touches.inspect_bind
  intro isModel _
  apply Touches.inspect_bind
  intro taken htaken
  apply Touches.require_bind
  intro hfree
  have hnew : w.tree.exists target = false := by
    rw [Except.ok.inj htaken]
    cases taken with
    | false => rfl
    | true =>
        rw [Bool.or_true] at hfree
        cases hfree
  have hsegment := resolveProcessModelLeaf_segment hleaf
  rw [hexists] at hfound
  obtain ⟨hdirs, hjson, hbpmn, hgone⟩ := h group leaf target hgroup hleaf hfound htarget hnew
  apply Touches.check_bind
  intro _ _
  apply Touches.bind ?_ fun _ _ _ => Touches.requireIdentity _
  apply Touches.undoing ?_ hgone
  apply Touches.bind (Touches.importDefinition _)
  intro _ imported _
  have hdraft := fieldsStatus_updatedFields
    ((truthy (displayName.map Text.strip)).getD leaf) ((description.map Text.strip).getD [])
    .draft (some (leaf ++ ".bpmn".toList)) (some (bpmnProcessId leaf))
  apply Touches.bind (Touches.addProcessModel htarget hdirs (hjson _ hdraft))
  intro _ added _
  apply Touches.bind (Touches.writeSpecFile htarget (isSegment_bpmn hsegment) hdirs fun _ => hbpmn _)
  intro _ written _
  exact Touches.pure ()

/-- `update_process_model_metadata` writes the metadata of the model, with the primary file and
the status that it decides on. -/
theorem updateProcessModelMetadata_writes {identifier : Text}
    {displayName description primaryFileName : TextArgument} {status : Option TextArgument}
    (h : ∀ dir next primary name desc processId,
      resolvedInsideTenant host [identifier] modelPathError = .ok dir →
      IsModel w.tree dir →
      updatedPrimary host w.tree identifier
          (strippedField (readJsonFile w.tree (dir ++ [modelJson])) "primary_file_name")
          primaryFileName = .ok primary →
      updatedStatus host (statusAt w.tree dir) status = .ok next →
      (∀ above, above <+: dir → F.dirs above) ∧
        F.files (dir ++ [modelJson])
          (encodeUtf8 (JsonText.dumps (updatedFields name desc next primary processId)))) :
    Touches F (updateProcessModelMetadata host identifier displayName description primaryFileName
      status) w := by
  apply Touches.requireModel_bind
  intro hfound
  obtain ⟨dir, hdir, hmodel⟩ := modelExists_iff.mp hfound
  apply Touches.inspect_bind
  intro fields hfields
  have hmetadata : resolvedInsideTenant host [identifier, modelJson] modelPathError =
      .ok (dir ++ [modelJson]) := resolved_concat (by decide) (by decide) hdir
  unfold tenantJson at hfields
  rw [hmetadata] at hfields
  have hread : readJsonFile w.tree (dir ++ [modelJson]) = fields := Except.ok.inj hfields
  apply Touches.inspect_bind
  intro primary hprimary
  rw [← hread] at hprimary
  apply Touches.inspect_bind
  intro current hcurrent
  apply Touches.check_bind
  intro next hnext
  rw [processModelStatus_eq hdir] at hcurrent
  rw [← Except.ok.inj hcurrent] at hnext
  obtain ⟨hdirs, hfile⟩ := h dir next primary _ _ _ hdir hmodel hprimary hnext
  apply Touches.bind (Touches.writeProcessModelJson hdir hdirs hfile)
  intro _ written _
  exact Touches.requireIdentity _

/-- `update_process_model_metadata` writes metadata with the status it had, or one that is
permitted after it and was asked for. -/
theorem updateProcessModelMetadata_touches {identifier : Text}
    {displayName description primaryFileName : TextArgument} {status : Option TextArgument}
    (h : ∀ dir next, resolvedInsideTenant host [identifier] modelPathError = .ok dir →
      IsModel w.tree dir →
      updatedStatus host (statusAt w.tree dir) status = .ok next →
      (∀ above, above <+: dir → F.dirs above) ∧
        ∀ content, fieldsStatus (jsonFields content) = next →
          F.files (dir ++ [modelJson]) content) :
    Touches F (updateProcessModelMetadata host identifier displayName description primaryFileName
      status) w := by
  apply updateProcessModelMetadata_writes
  intro dir next primary name desc processId hdir hmodel _ hnext
  obtain ⟨hdirs, hfiles⟩ := h dir next hdir hmodel hnext
  exact ⟨hdirs, hfiles _ (fieldsStatus_updatedFields name desc next primary processId)⟩

/-- `create_model_file` writes a file of the model that is not its metadata. -/
theorem createModelFile_touches {identifier : Text} {fileName : TextArgument}
    {content : Option Bytes} {userId : Nat}
    (h : ∀ dir name, resolvedInsideTenant host [identifier] modelPathError = .ok dir →
      IsModel w.tree dir → name ≠ modelJson →
      resolvedInsideTenant host [identifier, name] modelPathError = .ok (dir ++ [name]) →
      (∀ above, above <+: dir → F.dirs above) ∧ ∀ content, F.files (dir ++ [name]) content) :
    Touches F (createModelFile host identifier fileName content userId) w := by
  apply Touches.requireModel_bind
  intro hfound
  obtain ⟨dir, hdir, hmodel⟩ := modelExists_iff.mp hfound
  apply Touches.check_bind
  intro name hname
  apply Touches.require_bind
  intro hfree
  have hsegment := (isSegment_of_validateLeafFileName hname).2
  have hother := ne_modelJson_of_not_reserved (of_decide_eq_true hfree)
  apply Touches.check_bind
  intro body _
  apply Touches.check_bind
  intro target htarget
  rw [eq_concat_of_resolved hsegment hdir htarget] at htarget
  obtain ⟨hdirs, hfiles⟩ := h dir name hdir hmodel hother htarget
  apply Touches.inspect_bind
  intro taken _
  apply Touches.require_bind
  intro _
  apply Touches.bind (Touches.importNewFile identifier name body userId)
  intro _ imported _
  exact Touches.writeSpecFile hdir hsegment hdirs fun _ => hfiles body

/-- `copy_process_model` makes the directory of a model that was not there, with draft
metadata and other files, or removes it again. -/
theorem copyProcessModel_touches {sourceIdentifier : Text} {leafId displayName : TextArgument}
    {userId : Nat}
    (h : ∀ sourceDir leaf dest,
      resolvedInsideTenant host [sourceIdentifier] modelPathError = .ok sourceDir →
      IsModel w.tree sourceDir → validateProcessModelLeaf leafId = .ok leaf →
      resolvedInsideTenant host [if processGroupIdForModel sourceIdentifier = [] then leaf
        else processGroupIdForModel sourceIdentifier ++ '/' :: leaf] modelPathError = .ok dest →
      w.tree.exists dest = false →
      (∀ above, above <+: dest → F.dirs above) ∧
        (∀ content, fieldsStatus (jsonFields content) = .draft →
          F.files (dest ++ [modelJson]) content) ∧
        (∀ name content, name ≠ modelJson → F.files (dest ++ [name]) content) ∧
        ∀ other, dest <+: other → F.gone other) :
    Touches F (copyProcessModel host sourceIdentifier leafId displayName userId) w := by
  apply Touches.requireModel_bind
  intro hfound
  obtain ⟨sourceDir, hsource, hmodel⟩ := modelExists_iff.mp hfound
  apply Touches.check_bind
  intro leaf hleaf
  apply Touches.check_bind
  intro dest hdest
  apply Touches.inspect_bind
  intro isModel _
  apply Touches.inspect_bind
  intro taken htaken
  apply Touches.require_bind
  intro hfree
  have hnew : w.tree.exists dest = false := by
    rw [Except.ok.inj htaken]
    cases taken with
    | false => rfl
    | true =>
        rw [Bool.or_true] at hfree
        cases hfree
  obtain ⟨hdirs, hjson, hfiles, hgone⟩ :=
    h sourceDir leaf dest hsource hmodel hleaf hdest hnew
  apply Touches.check_bind
  intro _ _
  apply Touches.bind (Touches.makeDirs hdirs)
  intro _ made _
  apply Touches.bind ?_ fun _ _ _ => Touches.requireIdentity _
  apply Touches.undoing ?_ hgone
  apply Touches.inspect_bind
  intro names _
  apply Touches.bind (Touches.copyFiles names hfiles)
  intro _ copied _
  apply Touches.inspect_bind
  intro fields _
  apply Touches.inspect_bind
  intro primary _
  apply Touches.bind (Touches.writeProcessModelJson hdest hdirs
    (hjson _ (fieldsStatus_updatedFields _ _ .draft primary _)))
  intro _ written _
  apply Touches.inspect_bind
  intro bpmnName _
  cases bpmnName with
  | none => exact Touches.pure ()
  | some bpmnName => exact Touches.importCopy _ bpmnName userId

/-- `save` writes the diagram where `diskPath` says, and nothing else. -/
theorem save_touches {path xml : Text} {userId : Nat} {fileName : Option Text}
    (h : ∀ target, diskPath host w.tree path fileName = .ok target →
      (∀ above, above <+: target.dropLast → F.dirs above) ∧ F.files target (encodeUtf8 xml)) :
    Touches F (save host path xml userId fileName) w := by
  apply Touches.check_bind
  intro _ _
  apply Touches.inspect_bind
  intro sourceDmnXml _
  apply Touches.bind (Touches.importDefinition _)
  intro _ imported himported
  apply Touches.inspect_bind
  intro target htarget
  rw [(importDefinition_run_ok himported).1] at htarget
  obtain ⟨hdirs, hfile⟩ := h target htarget
  exact Touches.writeFile hdirs hfile

/-- Where `save` writes a file whose name it is given. -/
theorem diskPath_of_name {tree : FileTree} {identifier name : Text} {dir target : TreePath}
    {pathError : ApiError} (hname : IsSegment name)
    (hdir : resolvedInsideTenant host [identifier] pathError = .ok dir)
    (h : diskPath host tree identifier (some name) = .ok target) : target = dir ++ [name] := by
  have htruthy : truthy (some name) = some name := truthy_eq_some.mpr ⟨rfl, hname.1⟩
  unfold diskPath at h
  rw [htruthy] at h
  exact eq_concat_of_resolved hname hdir h

/-- `save` of a file whose name it is given. -/
theorem save_named_touches {identifier xml name : Text} {userId : Nat} {dir : TreePath}
    {pathError : ApiError} (hname : IsSegment name)
    (hdir : resolvedInsideTenant host [identifier] pathError = .ok dir)
    (hdirs : ∀ above, above <+: dir → F.dirs above)
    (hfile : F.files (dir ++ [name]) (encodeUtf8 xml)) :
    Touches F (save host identifier xml userId (some name)) w := by
  apply save_touches
  intro target htarget
  rw [diskPath_of_name hname hdir htarget, List.dropLast_concat]
  exact ⟨hdirs, hfile⟩

/-- A model's primary file lies in the tenant's directory. -/
theorem resolved_of_modelFilePath {tree : FileTree} {identifier : Text} {path : TreePath}
    (h : modelFilePath host tree identifier = .ok path) :
    ∃ parts pathError, resolvedInsideTenant host parts pathError = .ok path := by
  unfold modelFilePath at h
  cases hfields : tenantJson host tree [identifier, modelJson] modelPathError with
  | error e =>
      rw [hfields] at h
      cases h
  | ok fields =>
      rw [hfields] at h
      dsimp only [bind, Except.bind] at h
      split at h
      · exact ⟨_, _, h⟩
      · exact ⟨_, _, h⟩

/-- Its last name is that of an entry. -/
theorem getLast_of_modelFilePath {tree : FileTree} {identifier : Text} {path : TreePath}
    (h : modelFilePath host tree identifier = .ok path) :
    ∃ name, path.getLast? = some name ∧ IsSegment name := by
  obtain ⟨parts, pathError, hresolved⟩ := resolved_of_modelFilePath h
  have hlast := List.getLast?_eq_some_getLast (ne_nil_of_resolved hresolved)
  exact ⟨_, hlast, isSegment_of_resolved hresolved _ (List.mem_of_getLast? hlast)⟩

/-- `put_process_model_file` writes the file that it names, and, after a decision, the
model's primary file. -/
theorem putProcessModelFile_touches {identifier fileName : Text} {content : Bytes} {userId : Nat}
    (h : ∀ dir, resolvedInsideTenant host [identifier] modelPathError = .ok dir →
      IsModel w.tree dir → IsSegment fileName →
      resolvedInsideTenant host [identifier, fileName] modelPathError = .ok (dir ++ [fileName]) →
      (∀ above, above <+: dir → F.dirs above) ∧ F.files (dir ++ [fileName]) content ∧
        (".dmn".toList.isSuffixOf (host.casing.lower fileName) →
          ∀ written : FileTree, (∀ other, written.read other =
            if other = dir ++ [fileName] then some content else w.tree.read other) →
          ∀ bpmnPath name xml, modelFilePath host written identifier = .ok bpmnPath →
            bpmnPath.getLast? = some name → F.files (dir ++ [name]) (encodeUtf8 xml))) :
    Touches F (putProcessModelFile host identifier fileName content userId) w := by
  apply Touches.requireModel_bind
  intro hfound
  obtain ⟨dir, hdir, hmodel⟩ := modelExists_iff.mp hfound
  apply Touches.check_bind
  intro name hname
  obtain ⟨hsame, hsegment⟩ := isSegment_of_validateLeafFileName hname
  rw [hsame] at hsegment ⊢
  apply Touches.require_bind
  intro _
  unfold updateFile writeSpecFile
  apply Touches.bind ?_ ?_
  · apply Touches.check_bind
    intro target htarget
    have hplace := eq_concat_of_resolved hsegment hdir htarget
    rw [hplace] at htarget ⊢
    obtain ⟨hdirs, hfile, -⟩ := h dir hdir hmodel hsegment htarget
    have hdirs' : ∀ above, above <+: (dir ++ [fileName]).dropLast → F.dirs above := by
      rw [List.dropLast_concat]
      exact hdirs
    exact Touches.bind (Touches.writeFile hdirs' hfile) fun _ _ _ => Touches.pure _
  intro path written hwritten
  have hread := writeSpecFile_run_ok hsegment hdir hwritten
  obtain ⟨target, _, hcheck, -⟩ := Proc.bind_eq_ok.mp hwritten
  rw [check_run] at hcheck
  have htarget := (Prod.mk.inj hcheck).1
  rw [eq_concat_of_resolved hsegment hdir htarget] at htarget
  obtain ⟨hdirs, hfile, hagain⟩ := h dir hdir hmodel hsegment htarget
  apply Touches.bind ?_ fun _ _ _ => Touches.pure path
  unfold importUpdated
  dsimp only
  split
  · split
    · rename_i xml hxml
      have hbytes := encodeUtf8_of_decodeUtf8 hxml
      exact save_named_touches hsegment hdir hdirs (hbytes ▸ hfile)
    · exact Touches.raise _
  · split
    · rename_i hdmn
      apply Touches.inspect_bind
      intro bpmnPath hbpmn
      apply Touches.inspect_bind
      intro isFile _
      split
      · apply Touches.bind (Touches.readTextOr _ _)
        intro xml read hrun
        obtain ⟨name, hlast, hname⟩ := getLast_of_modelFilePath hbpmn
        rw [hlast]
        exact save_named_touches hname hdir hdirs (hagain hdmn _ hread bpmnPath name xml hbpmn hlast)
      · exact Touches.pure ()
    · exact Touches.pure ()

/-! ### Removals -/

/-- `delete_model_file` removes nothing, or a file of the model that is neither its metadata
nor the primary file that the metadata names. -/
theorem deleteModelFile_ends {identifier fileName : Text} :
    Ends (fun after => after.tree = w.tree ∨ ∃ dir,
        resolvedInsideTenant host [identifier] modelPathError = .ok dir ∧ IsModel w.tree dir ∧
          fileName ≠ modelJson ∧ w.tree.isFile (dir ++ [fileName]) = true ∧
          strippedField (readJsonFile w.tree (dir ++ [modelJson])) "primary_file_name" ≠
            some fileName ∧
          after.tree = w.tree.remove (dir ++ [fileName]))
      (deleteModelFile host identifier fileName) w := by
  have hsame : w.tree = w.tree := rfl
  apply Ends.requireModel_bind (Or.inl hsame)
  intro hfound
  obtain ⟨dir, hdir, hmodel⟩ := modelExists_iff.mp hfound
  apply Ends.check_bind (Or.inl hsame)
  intro name hname
  apply Ends.require_bind (Or.inl hsame)
  intro hfree
  apply Ends.check_bind (Or.inl hsame)
  intro path hpath
  apply Ends.inspect_bind (Or.inl hsame)
  intro isFile hfile
  apply Ends.require_bind (Or.inl hsame)
  intro hisFile
  apply Ends.inspect_bind (Or.inl hsame)
  intro fields hfields
  apply Ends.require_bind (Or.inl hsame)
  intro hprimary
  obtain ⟨hfileName, hsegment⟩ := isSegment_of_validateLeafFileName hname
  have hother := ne_modelJson_of_not_reserved (of_decide_eq_true hfree)
  have hplace := eq_concat_of_resolved hsegment hdir hpath
  have hmetadata : resolvedInsideTenant host [identifier, modelJson] modelPathError =
      .ok (dir ++ [modelJson]) := resolved_concat (by decide) (by decide) hdir
  unfold tenantJson at hfields
  rw [hmetadata] at hfields
  have hread : readJsonFile w.tree (dir ++ [modelJson]) = fields := Except.ok.inj hfields
  rw [hplace] at hfile hprimary ⊢
  rw [List.getLast?_concat] at hprimary
  have hthere : w.tree.isFile (dir ++ [name]) = true := (Except.ok.inj hfile).trans hisFile
  rw [hfileName] at hother hthere hprimary ⊢
  rw [← hread] at hprimary
  exact Or.inr ⟨dir, hdir, hmodel, hother, hthere, of_decide_eq_true hprimary, rfl⟩

/-- `delete_process_model` removes nothing, or the directory of a model that no instance
names. -/
theorem deleteProcessModel_ends {identifier : Text} {instances : List Text} :
    Ends (fun after => after.tree = w.tree ∨ ∃ dir,
        resolvedInsideTenant host [identifier] modelPathError = .ok dir ∧ IsModel w.tree dir ∧
          identifier ∉ instances ∧ after.tree = w.tree.remove dir)
      (deleteProcessModel host identifier instances) w := by
  have hsame : w.tree = w.tree := rfl
  apply Ends.requireModel_bind (Or.inl hsame)
  intro hfound
  obtain ⟨dir, hdir, hmodel⟩ := modelExists_iff.mp hfound
  apply Ends.require_bind (Or.inl hsame)
  intro hcount
  apply Ends.check_bind (Or.inl hsame)
  intro target htarget
  apply Ends.inspect_bind (Or.inl hsame)
  intro found _
  apply Ends.require_bind (Or.inl hsame)
  intro _
  have hnone : identifier ∉ instances := by
    have hzero := of_decide_eq_true hcount
    unfold countInstancesForProcessModel at hzero
    rw [List.countP_eq_zero] at hzero
    intro hmem
    exact hzero identifier hmem (decide_eq_true rfl)
  rw [resolved_unique hdir htarget]
  exact Or.inr ⟨dir, hdir, hmodel, hnone, rfl⟩

/-- `delete_process_group` removes nothing, or the directory of a group for which no instance
is counted. -/
theorem deleteProcessGroup_ends {groupId : Text} {instances : List Text} :
    Ends (fun after => after.tree = w.tree ∨ ∃ cleaned target,
        validateProcessGroupId (some groupId) = .ok cleaned ∧
          resolvedInsideTenant host [cleaned] groupPathError = .ok target ∧
          countInstancesForProcessGroup instances groupId = 0 ∧
          after.tree = w.tree.remove target)
      (deleteProcessGroup host groupId instances) w := by
  have hsame : w.tree = w.tree := rfl
  apply Ends.inspect_bind (Or.inl hsame)
  intro found _
  apply Ends.require_bind (Or.inl hsame)
  intro _
  apply Ends.require_bind (Or.inl hsame)
  intro hcount
  apply Ends.check_bind (Or.inl hsame)
  intro cleaned hcleaned
  apply Ends.check_bind (Or.inl hsame)
  intro target htarget
  apply Ends.inspect_bind (Or.inl hsame)
  intro found' _
  apply Ends.require_bind (Or.inl hsame)
  intro _
  exact Or.inr ⟨cleaned, target, hcleaned, htarget, of_decide_eq_true hcount, rfl⟩

end M8flow.Catalog
