import M8flow.Catalog.Effects

/-!
# Requests that are accepted

When the operations that write a model's files return, in terms of the files and of what the
session holds, and what they cannot take away.

- `save_returns`, `updateFile_returns` and `addProcessModel_returns`: the conditions.
- `Stays` is a property of the files that making directories and writing files keeps, and
  `updateFile_preserves` says that `update_file` keeps it, whatever comes of it.
-/

namespace M8flow.Catalog

open M8flow.Lib M8flow.Lib.FileTree M8flow.Lib.Proc

variable {δ α β : Type} {host : Host δ} {w : World δ}

/-! ## What stays -/

/-- The property is kept where directories are made and files are written. -/
structure Stays (P : FileTree → Prop) : Prop where
  mkdirs : ∀ {tree after : FileTree} {path : TreePath}, tree.mkdirs path = some after →
    P tree → P after
  write : ∀ {tree after : FileTree} {path : TreePath} {content : Bytes},
    tree.write path content = some after → P tree → P after

/-- A directory stays one. -/
theorem stays_dir (dir : TreePath) : Stays fun tree => tree.at? dir = some .dir where
  mkdirs := by
    intro tree after path hmade h
    rw [at?_mkdirs hmade, h]
    rfl
  write := by
    intro tree after path content hwritten h
    have hother : dir ≠ path := by
      intro hsame
      unfold FileTree.write at hwritten
      split at hwritten
      · rename_i hcond
        exact hcond.2.1 (hsame ▸ h)
      · cases hwritten
    rw [at?_write hwritten, if_neg hother, h]

/-- A file stays one, with this content or another. -/
theorem stays_file (path : TreePath) : Stays fun tree => tree.isFile path = true where
  mkdirs := by
    intro tree after other hmade h
    unfold isFile at h ⊢
    rw [at?_mkdirs hmade]
    cases hnode : tree.at? path with
    | none =>
        rw [hnode] at h
        cases h
    | some node =>
        rw [hnode] at h
        exact h
  write := by
    intro tree after other content hwritten h
    unfold isFile at h ⊢
    rw [at?_write hwritten]
    by_cases hsame : path = other
    · rw [if_pos hsame]
    · rw [if_neg hsame]
      exact h

theorem Stays.and {P P' : FileTree → Prop} (h : Stays P) (h' : Stays P') :
    Stays fun tree => P tree ∧ P' tree where
  mkdirs := fun hmade hboth => ⟨h.mkdirs hmade hboth.1, h'.mkdirs hmade hboth.2⟩
  write := fun hwritten hboth => ⟨h.write hwritten hboth.1, h'.write hwritten hboth.2⟩

section Preserves

variable {P : FileTree → Prop}

theorem check_preserves {Q : World δ → Prop} (answer : Except Raised α) :
    Preserves Q (check answer : Service δ α) :=
  Preserves.ofExcept id answer

theorem inspect_preserves {Q : World δ → Prop} (answer : FileTree → Except Raised α) :
    Preserves Q (inspect answer : Service δ α) :=
  Preserves.bind Preserves.read fun w => check_preserves (answer w.tree)

theorem readTextOr_preserves {Q : World δ → Prop} (path : TreePath) (undecodable : Raised) :
    Preserves Q (readTextOr path undecodable : Service δ Text) :=
  inspect_preserves _

theorem importDefinition_preserves (command : ImportCommand) :
    Preserves (fun w : World δ => P w.tree) (importDefinition host command) :=
  fun _ h => h

theorem changeFiles_preserves {change : FileTree → Option FileTree}
    (h : ∀ tree after, change tree = some after → P tree → P after) :
    Preserves (fun w : World δ => P w.tree) (changeFiles change) := by
  intro w hw
  unfold changeFiles
  cases hchange : change w.tree with
  | some tree => exact h w.tree tree hchange hw
  | none => exact hw

variable (hP : Stays P)
include hP

theorem makeDirs_preserves (path : TreePath) :
    Preserves (fun w : World δ => P w.tree) (makeDirs path) :=
  changeFiles_preserves fun _ _ hmade => hP.mkdirs hmade

theorem writeFile_preserves (path : TreePath) (content : Bytes) :
    Preserves (fun w : World δ => P w.tree) (writeFile path content) :=
  Preserves.bind (makeDirs_preserves hP _) fun _ =>
    changeFiles_preserves fun _ _ hwritten => hP.write hwritten

theorem writeSpecFile_preserves (identifier fileName : Text) (content : Bytes) :
    Preserves (fun w : World δ => P w.tree) (writeSpecFile host identifier fileName content) := by
  refine Preserves.bind (check_preserves _) fun target => ?_
  exact Preserves.bind (writeFile_preserves hP _ _) fun _ => Preserves.pure _

theorem addProcessModel_preserves (identifier : Text) (info : List (Text × Text)) :
    Preserves (fun w : World δ => P w.tree) (addProcessModel host identifier info) := by
  refine Preserves.bind (check_preserves _) fun path => ?_
  refine Preserves.bind (makeDirs_preserves hP _) fun _ => ?_
  exact Preserves.bind (check_preserves _) fun _ => writeFile_preserves hP _ _

theorem save_preserves (path xml : Text) (userId : Nat) (fileName : Option Text) :
    Preserves (fun w : World δ => P w.tree) (save host path xml userId fileName) := by
  refine Preserves.bind (check_preserves _) fun _ => ?_
  refine Preserves.bind (inspect_preserves _) fun dmn => ?_
  refine Preserves.bind (importDefinition_preserves _) fun _ => ?_
  exact Preserves.bind (inspect_preserves _) fun _ => writeFile_preserves hP _ _

theorem saveAgain_preserves (identifier : Text) (userId : Nat) :
    Preserves (fun w : World δ => P w.tree) (saveAgain host identifier userId) := by
  refine Preserves.bind (inspect_preserves _) fun bpmnPath => ?_
  refine Preserves.bind (inspect_preserves _) fun isFile => ?_
  refine Preserves.ite ?_ ?_
  · exact Preserves.bind (readTextOr_preserves _ _) fun _ => save_preserves hP _ _ _ _
  · exact Preserves.pure _

theorem importUpdated_preserves (identifier fileName : Text) (content : Bytes) (userId : Nat) :
    Preserves (fun w : World δ => P w.tree)
      (importUpdated host identifier fileName content userId) := by
  unfold importUpdated
  refine Preserves.ite ?_ ?_
  · cases decodeUtf8 content with
    | some xml => exact save_preserves hP _ _ _ _
    | none => exact Preserves.raise _
  · exact Preserves.ite (saveAgain_preserves hP _ _) (Preserves.pure _)

theorem updateFile_preserves (identifier fileName : Text) (content : Bytes) (userId : Nat) :
    Preserves (fun w : World δ => P w.tree)
      (updateFile host identifier fileName content userId) := by
  refine Preserves.bind (writeSpecFile_preserves hP _ _ _) fun target => ?_
  exact Preserves.bind (importUpdated_preserves hP _ _ _ _) fun _ => Preserves.pure _

end Preserves

/-! ## Steps that return -/

theorem returns_check_bind {answer : Except Raised α} {f : α → Service δ β} :
    Returns (check answer >>= f) w ↔ ∃ a, answer = .ok a ∧ Returns (f a) w := by
  rw [returns_bind, check_run]
  constructor
  · intro h
    obtain ⟨a, t, hrun, hrest⟩ := h
    obtain ⟨hanswer, hsame⟩ := Prod.mk.inj hrun
    exact ⟨a, hanswer, hsame ▸ hrest⟩
  · intro h
    obtain ⟨a, hanswer, hrest⟩ := h
    exact ⟨a, w, by rw [hanswer], hrest⟩

theorem returns_inspect_bind {answer : FileTree → Except Raised α} {f : α → Service δ β} :
    Returns (inspect answer >>= f) w ↔ ∃ a, answer w.tree = .ok a ∧ Returns (f a) w :=
  returns_check_bind

theorem returns_importDefinition_bind {command : ImportCommand} {f : Unit → Service δ β} :
    Returns (importDefinition host command >>= f) w ↔
      (host.importDefinition command w.session).1 = .ok () ∧
        Returns (f ()) { w with session := (host.importDefinition command w.session).2 } := by
  rw [returns_bind]
  unfold importDefinition
  constructor
  · intro h
    obtain ⟨_, t, hrun, hrest⟩ := h
    obtain ⟨hanswer, hsame⟩ := Prod.mk.inj hrun
    exact ⟨hanswer, hsame ▸ hrest⟩
  · intro h
    exact ⟨(), _, Prod.ext h.1 rfl, h.2⟩

theorem returns_pure (a : α) : Returns (Pure.pure a : Service δ α) w := ⟨a, w, rfl⟩

theorem not_returns_raise (e : Raised) : ¬ Returns (Proc.raise e : Service δ α) w := by
  intro h
  obtain ⟨a, t, hrun⟩ := h
  cases hrun

/-- A file is written where its path is writable. -/
theorem writeFile_returns {path : TreePath} (content : Bytes) (hne : path ≠ []) :
    Returns (writeFile path content) w ↔ w.tree.Writable path := by
  unfold writeFile
  rw [returns_bind, writable_iff content hne]
  constructor
  · intro h
    obtain ⟨_, t, hdirs, _, u, hwrite⟩ := h
    obtain ⟨made, hmade, ht⟩ := changeFiles_run_ok hdirs
    obtain ⟨written, hwritten, -⟩ := changeFiles_run_ok hwrite
    rw [ht] at hwritten
    exact ⟨made, hmade, written, hwritten⟩
  · intro h
    obtain ⟨made, hmade, written, hwritten⟩ := h
    exact ⟨(), { w with tree := made }, changeFiles_run hmade, (), _, changeFiles_run hwritten⟩

theorem writeSpecFile_returns_iff {identifier fileName : Text} {content : Bytes} :
    Returns (writeSpecFile host identifier fileName content) w ↔
      ∃ target, resolvedInsideTenant host [identifier, fileName] modelPathError = .ok target ∧
        w.tree.Writable target := by
  unfold writeSpecFile
  rw [returns_check_bind]
  apply exists_congr
  intro target
  constructor
  · intro h
    obtain ⟨htarget, hrest⟩ := h
    obtain ⟨_, t, hwrite, -⟩ := returns_bind.mp hrest
    exact ⟨htarget, (writeFile_returns content (ne_nil_of_resolved htarget)).mp ⟨_, t, hwrite⟩⟩
  · intro h
    obtain ⟨htarget, hwritable⟩ := h
    obtain ⟨_, t, hwrite⟩ :=
      (writeFile_returns content (ne_nil_of_resolved htarget)).mpr hwritable
    exact ⟨htarget, returns_bind.mpr ⟨_, t, hwrite, returns_pure target⟩⟩

/-! ## Conditions -/

/-- `save` takes the diagram: its constructs are supported, the decisions beside it can be
read, it is imported, and its file can be written. -/
def SaveFits (host : Host δ) (path xml : Text) (userId : Nat) (fileName : Option Text)
    (w : World δ) : Prop :=
  rejectUnsupportedConstructs host.casing (host.parseXml xml) = .ok () ∧
    ∃ sourceDmnXml, modelDmnXml host w.tree path xml [] = .ok sourceDmnXml ∧
      (host.importDefinition
        { userId, bpmnIdentifier := path, sourceBpmnXml := xml, sourceDmnXml,
          bpmnName := pathName path } w.session).1 = .ok () ∧
      ∃ target, diskPath host w.tree path fileName = .ok target ∧ w.tree.Writable target

theorem ne_nil_of_diskPath {tree : FileTree} {path : Text} {fileName : Option Text}
    {target : TreePath} (h : diskPath host tree path fileName = .ok target) : target ≠ [] := by
  unfold diskPath at h
  split at h
  · exact ne_nil_of_resolved h
  · unfold modelFilePath at h
    cases hfields : tenantJson host tree [path, modelJson] modelPathError with
    | error e =>
        rw [hfields] at h
        cases h
    | ok fields =>
        rw [hfields] at h
        dsimp only [bind, Except.bind] at h
        split at h
        · exact ne_nil_of_resolved h
        · exact ne_nil_of_resolved h

theorem save_returns {path xml : Text} {userId : Nat} {fileName : Option Text} :
    Returns (save host path xml userId fileName) w ↔ SaveFits host path xml userId fileName w := by
  unfold save SaveFits
  rw [returns_check_bind]
  constructor
  · intro h
    obtain ⟨_, hconstructs, hrest⟩ := h
    obtain ⟨dmn, hdmn, hrest⟩ := returns_inspect_bind.mp hrest
    obtain ⟨himport, hrest⟩ := returns_importDefinition_bind.mp hrest
    obtain ⟨target, htarget, hwrite⟩ := returns_inspect_bind.mp hrest
    have hwritable := (writeFile_returns _ (ne_nil_of_diskPath htarget)).mp hwrite
    exact ⟨hconstructs, dmn, hdmn, himport, target, htarget, hwritable⟩
  · intro h
    obtain ⟨hconstructs, dmn, hdmn, himport, target, htarget, hwritable⟩ := h
    refine ⟨(), hconstructs, returns_inspect_bind.mpr ⟨dmn, hdmn, ?_⟩⟩
    refine returns_importDefinition_bind.mpr ⟨himport, ?_⟩
    refine returns_inspect_bind.mpr ⟨target, htarget, ?_⟩
    exact (writeFile_returns _ (ne_nil_of_diskPath htarget)).mpr hwritable

/-- The model's primary file, if there is one, is taken again. -/
def SaveAgainFits (host : Host δ) (identifier : Text) (userId : Nat) (w : World δ) : Prop :=
  ∃ bpmnPath, modelFilePath host w.tree identifier = .ok bpmnPath ∧
    ∀ content, w.tree.read bpmnPath = some content →
      ∃ xml, readText content = some xml ∧
        SaveFits host identifier xml userId bpmnPath.getLast? w

theorem saveAgain_returns {identifier : Text} {userId : Nat} :
    Returns (saveAgain host identifier userId) w ↔ SaveAgainFits host identifier userId w := by
  unfold saveAgain SaveAgainFits
  rw [returns_inspect_bind]
  apply exists_congr
  intro bpmnPath
  apply and_congr_right
  intro _
  rw [returns_inspect_bind]
  have hsome : (∃ isFile, Except.ok (ε := Raised) (w.tree.isFile bpmnPath) = .ok isFile ∧
      Returns (if isFile then (do
        let xml ← readTextOr bpmnPath .valueError
        save host identifier xml userId bpmnPath.getLast?) else pure ()) w) ↔
      Returns (if w.tree.isFile bpmnPath then (do
        let xml ← readTextOr bpmnPath .valueError
        save host identifier xml userId bpmnPath.getLast?) else pure ()) w := by
    constructor
    · intro h
      obtain ⟨isFile, hfile, hrest⟩ := h
      rw [Except.ok.inj hfile]
      exact hrest
    · intro h
      exact ⟨_, rfl, h⟩
  rw [hsome]
  cases hread : w.tree.read bpmnPath with
  | none =>
      have hfile : w.tree.isFile bpmnPath = false := by
        rw [← Bool.not_eq_true, isFile_iff, hread]
        simp
      rw [hfile, if_neg Bool.false_ne_true]
      constructor
      · intro _ content hcontent
        cases hcontent
      · intro _
        exact returns_pure ()
  | some content =>
      have hfile : w.tree.isFile bpmnPath = true := isFile_iff.mpr ⟨content, hread⟩
      rw [hfile, if_pos rfl]
      unfold readTextOr
      rw [returns_inspect_bind, hread]
      constructor
      · intro h content' hcontent
        rw [← Option.some.inj hcontent]
        obtain ⟨xml, hxml, hsave⟩ := h
        refine ⟨xml, ?_, save_returns.mp hsave⟩
        dsimp only at hxml
        cases htext : readText content with
        | none =>
            rw [htext] at hxml
            cases hxml
        | some s =>
            rw [htext] at hxml
            rw [Except.ok.inj hxml]
      · intro h
        obtain ⟨xml, hxml, hfits⟩ := h content rfl
        refine ⟨xml, ?_, save_returns.mpr hfits⟩
        dsimp only
        rw [hxml]

/-- What `update_file` does after the write returns. -/
def ImportFits (host : Host δ) (identifier fileName : Text) (content : Bytes) (userId : Nat)
    (w : World δ) : Prop :=
  if ".bpmn".toList.isSuffixOf (host.casing.lower fileName) then
    ∃ xml, decodeUtf8 content = some xml ∧ SaveFits host identifier xml userId (some fileName) w
  else if ".dmn".toList.isSuffixOf (host.casing.lower fileName) then
    SaveAgainFits host identifier userId w
  else True

theorem importUpdated_returns {identifier fileName : Text} {content : Bytes} {userId : Nat} :
    Returns (importUpdated host identifier fileName content userId) w ↔
      ImportFits host identifier fileName content userId w := by
  unfold importUpdated ImportFits
  dsimp only
  by_cases hbpmn : ".bpmn".toList.isSuffixOf (host.casing.lower fileName)
  · rw [if_pos hbpmn, if_pos hbpmn]
    cases decodeUtf8 content with
    | some xml => simp [save_returns]
    | none => simp [not_returns_raise]
  · rw [if_neg hbpmn, if_neg hbpmn]
    by_cases hdmn : ".dmn".toList.isSuffixOf (host.casing.lower fileName)
    · rw [if_pos hdmn, if_pos hdmn, saveAgain_returns]
    · rw [if_neg hdmn, if_neg hdmn]
      exact iff_true_intro (returns_pure ())

/-- `update_file` takes the file: its path can be written, and what follows the write
returns where it is written. -/
def UpdateFits (host : Host δ) (identifier fileName : Text) (content : Bytes) (userId : Nat)
    (w : World δ) : Prop :=
  ∃ target, resolvedInsideTenant host [identifier, fileName] modelPathError = .ok target ∧
    w.tree.Writable target ∧
    ImportFits host identifier fileName content userId
      (writeSpecFile host identifier fileName content w).2

theorem updateFile_returns {identifier fileName : Text} {content : Bytes} {userId : Nat} :
    Returns (updateFile host identifier fileName content userId) w ↔
      UpdateFits host identifier fileName content userId w := by
  unfold updateFile UpdateFits
  rw [returns_bind]
  constructor
  · intro h
    obtain ⟨path, t, hwrite, hrest⟩ := h
    obtain ⟨target, htarget, hwritable⟩ := writeSpecFile_returns_iff.mp ⟨path, t, hwrite⟩
    obtain ⟨_, u, himport, -⟩ := returns_bind.mp hrest
    refine ⟨target, htarget, hwritable, ?_⟩
    rw [hwrite]
    exact importUpdated_returns.mp ⟨_, u, himport⟩
  · intro h
    obtain ⟨target, htarget, hwritable, hfits⟩ := h
    obtain ⟨path, t, hwrite⟩ := writeSpecFile_returns_iff.mpr ⟨target, htarget, hwritable⟩
    rw [hwrite] at hfits
    obtain ⟨_, u, himport⟩ := importUpdated_returns.mpr hfits
    exact ⟨path, t, hwrite, returns_bind.mpr ⟨_, u, himport, returns_pure path⟩⟩

/-! ## The directory of a model -/

section Directory

variable {identifier : Text} {dir : TreePath} (info : List (Text × Text))

/-- The directory of a model, with its metadata. -/
def HasMetadata (dir : TreePath) (tree : FileTree) : Prop :=
  tree.at? dir = some .dir ∧ tree.isFile (dir ++ [modelJson]) = true

theorem stays_hasMetadata (dir : TreePath) : Stays (HasMetadata dir) :=
  (stays_dir dir).and (stays_file (dir ++ [modelJson]))

/-- Without a file in the way `add_process_model` makes the directory and writes the metadata,
unless something of the name is a directory. -/
theorem addProcessModel_runs (hdir : resolvedInsideTenant host [identifier] modelPathError = .ok dir)
    (hway : ∀ above ∈ dir.inits, w.tree.isFile above = false)
    (hjson : w.tree.at? (dir ++ [modelJson]) ≠ some .dir) :
    ∃ tree, addProcessModel host identifier info w = (.ok (), { w with tree }) ∧
      HasMetadata dir tree := by
  have hcheck : (check (resolvedInsideTenant host [identifier] modelPathError) :
      Service δ TreePath) w = (.ok dir, w) := by rw [check_run, hdir]
  obtain ⟨made, hmade⟩ : ∃ made, w.tree.mkdirs dir = some made := by
    unfold FileTree.mkdirs
    rw [dif_pos hway]
    exact ⟨_, rfl⟩
  have hne := ne_nil_of_resolved hdir
  have hat : made.at? dir = some .dir := by
    have hself := hway dir ((List.mem_inits _ _).mpr (List.prefix_refl dir))
    rw [at?_mkdirs hmade, if_pos ⟨List.prefix_refl dir, hne⟩]
    cases hnode : w.tree.at? dir with
    | none => rfl
    | some node =>
        cases node with
        | dir => rfl
        | file content =>
            unfold isFile at hself
            rw [hnode] at hself
            cases hself
  have hnew : made.at? (dir ++ [modelJson]) ≠ some .dir := by
    have hbeyond : ¬ (dir ++ [modelJson] <+: dir ∧ dir ++ [modelJson] ≠ []) := by
      intro hbelow
      have hle := hbelow.1.length_le
      rw [List.length_append, List.length_singleton] at hle
      omega
    rw [at?_mkdirs hmade, if_neg hbeyond, Option.or_none]
    exact hjson
  have hmakeDirs : (makeDirs dir : Service δ Unit) w = (.ok (), { w with tree := made }) :=
    changeFiles_run hmade
  have hpath : (check (resolvedInsideTenant host [identifier, modelJson] modelPathError) :
      Service δ TreePath) { w with tree := made } =
        (.ok (dir ++ [modelJson]), { w with tree := made }) := by
    rw [check_run, resolved_concat (by decide) (by decide) hdir]
  have hisDir : made.isDir dir = true := isDir_iff.mpr (Or.inr hat)
  obtain ⟨tree, hwrite⟩ := @writeFile_runs δ { w with tree := made } dir modelJson
    (encodeUtf8 (JsonText.dumps info)) hisDir hnew
  refine ⟨tree, ?_, ?_, ?_⟩
  · unfold addProcessModel writeProcessModelJson
    rw [Proc.bind_run_ok hcheck, Proc.bind_run_ok hmakeDirs, Proc.bind_run_ok hpath, hwrite]
  · have hkept := writeFile_preserves (stays_dir dir) (dir ++ [modelJson])
      (encodeUtf8 (JsonText.dumps info)) { w with tree := made } hat
    rw [hwrite] at hkept
    exact hkept
  · have hread := writeFile_run_ok hwrite (dir ++ [modelJson])
    rw [if_pos rfl] at hread
    exact isFile_iff.mpr ⟨_, hread⟩

/-- Metadata that is there can be written again. -/
theorem addProcessModel_runs_again
    (hdir : resolvedInsideTenant host [identifier] modelPathError = .ok dir)
    (h : HasMetadata dir w.tree) :
    ∃ tree, addProcessModel host identifier info w = (.ok (), { w with tree }) ∧
      HasMetadata dir tree := by
  have hisDir : w.tree.isDir dir = true := isDir_iff.mpr (Or.inr h.1)
  apply addProcessModel_runs info hdir
  · intro above hmem
    by_cases hne : above = []
    · unfold isFile at?
      rw [hne, w.tree.root]
    · exact isFile_of_isDir hne (isDir_above hisDir ((List.mem_inits _ _).mp hmem))
  · intro hjson
    have hfile := h.2
    unfold isFile at hfile
    rw [hjson] at hfile
    cases hfile

/-- Where the identifier does not resolve, or a file is in the way, nothing changes. -/
theorem addProcessModel_refused
    (h : ∀ dir, resolvedInsideTenant host [identifier] modelPathError = .ok dir →
      ∃ above ∈ dir.inits, w.tree.isFile above = true) :
    ∃ e, addProcessModel host identifier info w = (.error e, w) := by
  unfold addProcessModel
  cases hdir : resolvedInsideTenant host [identifier] modelPathError with
  | error e => exact ⟨e, rfl⟩
  | ok dir =>
      obtain ⟨above, hmem, hfile⟩ := h dir hdir
      have hnone : w.tree.mkdirs dir = none := by
        unfold FileTree.mkdirs
        rw [dif_neg]
        intro hway
        rw [hway above hmem] at hfile
        cases hfile
      have hcheck : (check (.ok dir) : Service δ TreePath) w = (.ok dir, w) := rfl
      have hmakeDirs : (makeDirs dir : Service δ Unit) w = (.error .osError, w) :=
        changeFiles_run_none hnone
      refine ⟨.osError, ?_⟩
      rw [Proc.bind_run_ok hcheck, Proc.bind_run_error hmakeDirs]

end Directory

end M8flow.Catalog
