import M8flow.Catalog.Status

/-!
# Deletions and instances

The delete routes count the instances of an identifier and remove a directory.  They
agree where no directory lies below a model, which is what `Flat` says of a tree.

- `flat_of_created`: a directory that is made outside every model keeps the tree flat.
- `like_prefix`: the count of a group covers everything below it.
- `deletion_spares_instances`: from the empty catalog, where groups are made outside
  of models, and copies and deletions name directories canonically, every deletion
  removes only directories with no model that has an instance.
- `delete_beside_count`: another name of the directory is not counted.
-/

namespace M8flow.Catalog

open M8flow.Lib M8flow.Lib.FileTree

variable {δ : Type} {host : Host δ} {w : World δ}

/-! ## The condition -/

/-- The identifier is the text of the path that it resolves to. -/
def IsCanonical (host : Host δ) (identifier : Text) : Prop :=
  ∀ dir, resolvedInsideTenant host [identifier] modelPathError = .ok dir → identifier = dir.text

/-- No model lies above the path. -/
def OutsideModels (tree : FileTree) (path : TreePath) : Prop :=
  ∀ above, above <+: path → above ≠ [] → above ≠ path → ¬ IsModel tree above

/-- The requests that make and remove directories of models and groups: a group is made
outside of models, and the group of a new model, and what is copied or deleted, is named
canonically. -/
def KeepsApart (host : Host δ) (w : World δ) : Operation → Prop
  | .createProcessGroup groupId _ _ =>
      ∀ cleaned, validateProcessGroupId groupId = .ok cleaned →
        OutsideModels w.tree (Text.splitOn ['/'] cleaned)
  | .createProcessModel groupId _ _ _ _ =>
      ∀ group, validateProcessGroupId groupId = .ok group →
        validateProcessGroupId (some group) = .ok group
  | .copyProcessModel sourceIdentifier _ _ _ => IsCanonical host sourceIdentifier
  | .deleteProcessModel identifier _ => IsCanonical host identifier
  | .deleteProcessGroup groupId _ => validateProcessGroupId (some groupId) = .ok groupId
  | _ => False

/-- The identifiers that instances have when a deletion is asked for. -/
def Operation.instances : Operation → List Text
  | .deleteProcessModel _ instances => instances
  | .deleteProcessGroup _ instances => instances
  | _ => []

/-- No model at or below a directory that the request removes has an instance. -/
def SparesInstances (host : Host δ) (w : World δ) (operation : Operation) : Prop :=
  ∀ removed : TreePath, removed ≠ [] → w.tree.isDir removed = true →
    (serve (operation.run host) w).2.tree.isDir removed = false →
    ∀ dir : TreePath, removed <+: dir → IsModel w.tree dir → dir.text ∉ operation.instances

/-! ## Flat trees -/

/-- No directory lies below a model. -/
def Flat (tree : FileTree) : Prop :=
  ∀ dir below, dir ≠ [] → IsModel tree dir → tree.isDir below = true → dir <+: below → below = dir

theorem not_isDir_empty {path : TreePath} (hne : path ≠ []) :
    FileTree.empty.isDir path = false := by
  unfold isDir
  rw [decide_eq_false hne]
  rfl

theorem flat_empty : Flat FileTree.empty := by
  intro dir below hne hmodel _ _
  have hnot := not_isDir_empty hne
  rw [hmodel.1] at hnot
  cases hnot

theorem hasBpmn_iff {tree : FileTree} {dir : TreePath} :
    hasBpmn tree dir = true ↔
      ∃ name, ".bpmn".toList.isSuffixOf name = true ∧ tree.at? (dir ++ [name]) ≠ none := by
  unfold hasBpmn
  rw [List.any_eq_true]
  constructor
  · intro h
    obtain ⟨name, hmem, hsuffix⟩ := h
    exact ⟨name, hsuffix, mem_children.mp hmem⟩
  · intro h
    obtain ⟨name, hsuffix, hchild⟩ := h
    exact ⟨name, mem_children.mpr hchild, hsuffix⟩

theorem isModel_iff_bpmn {tree : FileTree} {dir : TreePath} :
    IsModel tree dir ↔
      ∃ name, ".bpmn".toList.isSuffixOf name = true ∧ tree.at? (dir ++ [name]) ≠ none := by
  rw [IsModel, hasBpmn_iff]
  constructor
  · exact And.right
  · intro h
    refine ⟨?_, h⟩
    obtain ⟨name, -, hchild⟩ := h
    exact isDir_of_child hchild

theorem dot_mem_of_bpmn {name : Text} (h : ".bpmn".toList.isSuffixOf name = true) : '.' ∈ name := by
  have hsuffix := List.isSuffixOf_iff_suffix.mp h
  exact hsuffix.subset List.mem_cons_self

/-- The directories that are made on the way to a new one, the files in it, and its removal. -/
def createdFootprint (creates : TreePath → Prop) : Footprint where
  dirs path := ∃ target, creates target ∧ path <+: target
  files path _ := ∃ target name, creates target ∧ path = target ++ [name]
  gone path := ∃ target, creates target ∧ target <+: path

/-- What it takes of a new directory that the tree stays flat: it was not there, lies outside
every model, and no new name on the way to it is that of a diagram. -/
structure CanCreate (tree : FileTree) (target : TreePath) : Prop where
  fresh : tree.exists target = false
  outside : OutsideModels tree target
  names : ∀ above name, above ++ [name] <+: target → tree.at? (above ++ [name]) = none → '.' ∉ name

theorem flat_of_created {tree after : FileTree} {creates : TreePath → Prop} (hflat : Flat tree)
    (hchanged : Changed (createdFootprint creates) tree after)
    (hcreates : ∀ target, creates target → CanCreate tree target)
    (hunique : ∀ target target', creates target → creates target' → target = target') :
    Flat after := by
  intro dir below hne hmodel hbelow hstarts
  have hnothing : ∀ target other, creates target → target <+: other → tree.at? other = none :=
    fun target other hcreate habove => at?_below (hcreates target hcreate).fresh habove
  have hdirBelow : tree.isDir below = true ∨ ∃ target, creates target ∧ below <+: target := by
    rcases isDir_iff.mp hbelow with hroot | hat
    · exact Or.inl (isDir_iff.mpr (Or.inl hroot))
    · rcases hchanged below with hsame | ⟨hdir, -, -⟩ | ⟨content, -, hfile⟩ | ⟨-, hgone⟩
      · rw [hsame] at hat
        exact Or.inl (isDir_iff.mpr (Or.inr hat))
      · exact Or.inr hdir
      · rw [hat] at hfile
        cases hfile
      · rw [hat] at hgone
        cases hgone
  have hdirModel : IsModel tree dir ∨ creates dir := by
    obtain ⟨name, hsuffix, hchild⟩ := isModel_iff_bpmn.mp hmodel
    rcases hchanged (dir ++ [name]) with hsame | ⟨hdir, hbefore, -⟩ | ⟨content, hfile, -⟩ | ⟨-, hgone⟩
    · rw [hsame] at hchild
      exact Or.inl (isModel_iff_bpmn.mpr ⟨name, hsuffix, hchild⟩)
    · obtain ⟨target, hcreate, hway⟩ := hdir
      have hnone : tree.at? (dir ++ [name]) = none := by
        rcases hbefore with hnone | ⟨target', hcreate', hgone⟩
        · exact hnone
        · exact hnothing target' _ hcreate' hgone
      exact absurd (dot_mem_of_bpmn hsuffix) ((hcreates target hcreate).names dir name hway hnone)
    · obtain ⟨target, name', hcreate, hsame⟩ := hfile
      rw [(List.append_singleton_inj.mp hsame).1]
      exact Or.inr hcreate
    · exact absurd hgone hchild
  rcases hdirModel with hold | hcreate
  · rcases hdirBelow with hthere | ⟨target, hcreate, habove⟩
    · exact hflat dir below hne hold hthere hstarts
    · -- a model that was there lies on the way to the new directory
      have hother : dir ≠ target := by
        intro hsame
        have hnone := hnothing target dir hcreate (hsame ▸ List.prefix_refl target)
        rw [(isDir_iff.mp hold.1).resolve_left hne] at hnone
        cases hnone
      exact absurd hold ((hcreates target hcreate).outside dir (hstarts.trans habove) hne hother)
  · rcases hdirBelow with hthere | ⟨target, hcreate', habove⟩
    · rcases isDir_iff.mp hthere with hroot | hat
      · rw [hroot] at hstarts
        exact absurd (List.prefix_nil.mp hstarts) hne
      · rw [hnothing dir below hcreate hstarts] at hat
        cases hat
    · rw [← hunique dir target hcreate hcreate'] at habove
      exact habove.eq_of_length_le hstarts.length_le

/-- A removal keeps the tree flat. -/
theorem flat_remove {tree : FileTree} (hflat : Flat tree) (path : TreePath) :
    Flat (tree.remove path) := by
  have hkept : ∀ other, (tree.remove path).at? other ≠ none →
      (tree.remove path).at? other = tree.at? other := by
    intro other hother
    rw [at?_remove] at hother ⊢
    split at hother
    · exact absurd rfl hother
    · rename_i hbelow
      rw [if_neg hbelow]
  intro dir below hne hmodel hbelow hprefix
  obtain ⟨name, hsuffix, hchild⟩ := isModel_iff_bpmn.mp hmodel
  have hold : IsModel tree dir := isModel_iff_bpmn.mpr ⟨name, hsuffix, hkept _ hchild ▸ hchild⟩
  apply hflat dir below hne hold ?_ hprefix
  rcases isDir_iff.mp hbelow with hroot | hat
  · exact isDir_iff.mpr (Or.inl hroot)
  · have hthere : (tree.remove path).at? below ≠ none := by
      rw [hat]
      exact Option.some_ne_none _
    exact isDir_iff.mpr (Or.inr (hkept below hthere ▸ hat))

/-! ## Requests -/

/-- The names on the way to a group are no names of diagrams. -/
theorem dot_not_mem_of_group {groupId : TextArgument} {cleaned : Text}
    (hvalid : validateProcessGroupId groupId = .ok cleaned) {name : Text} {above : TreePath}
    (h : above ++ [name] <+: Text.splitOn ['/'] cleaned) : '.' ∉ name := by
  have hmem : name ∈ Text.splitOn ['/'] cleaned :=
    h.subset (List.mem_append_right above (List.mem_singleton_self name))
  exact dot_not_mem_of_isGroupSegment ((validateProcessGroupId_segments hvalid).2 name hmem)

theorem createProcessGroup_flat (hflat : Flat w.tree)
    {groupId displayName description : TextArgument}
    (h : KeepsApart host w (.createProcessGroup groupId displayName description)) :
    Flat (createProcessGroup host groupId displayName description w).2.tree := by
  let creates : TreePath → Prop := fun target => ∃ cleaned,
    validateProcessGroupId groupId = .ok cleaned ∧ target = Text.splitOn ['/'] cleaned ∧
      w.tree.exists target = false
  have htouches : Touches (createdFootprint creates)
      (createProcessGroup host groupId displayName description) w := by
    apply createProcessGroup_touches
    intro cleaned target hvalid htarget hnew
    have hcreate : creates target :=
      ⟨cleaned, hvalid, resolved_of_validateProcessGroupId hvalid htarget, hnew⟩
    exact ⟨fun above habove => ⟨target, hcreate, habove⟩,
      fun content => ⟨target, groupJson, hcreate, rfl⟩⟩
  apply flat_of_created hflat htouches
  · intro target hcreate
    obtain ⟨cleaned, hvalid, htarget, hnew⟩ := hcreate
    refine ⟨hnew, ?_, ?_⟩
    · rw [htarget]
      exact h cleaned hvalid
    · intro above name hway _
      rw [htarget] at hway
      exact dot_not_mem_of_group hvalid hway
  · intro target target' hcreate hcreate'
    obtain ⟨cleaned, hvalid, htarget, -⟩ := hcreate
    obtain ⟨cleaned', hvalid', htarget', -⟩ := hcreate'
    rw [hvalid] at hvalid'
    rw [htarget, htarget', Except.ok.inj hvalid']

/-- A group that exists under its canonical identifier is a directory without a diagram. -/
theorem isDir_of_processGroupExists {tree : FileTree} {group : Text}
    (hvalid : validateProcessGroupId (some group) = .ok group)
    (h : processGroupExists host tree (some group) = .ok true) :
    tree.isDir (Text.splitOn ['/'] group) = true ∧
      ¬ IsModel tree (Text.splitOn ['/'] group) := by
  unfold processGroupExists at h
  rw [hvalid] at h
  dsimp only [bind, Except.bind] at h
  cases hresolved : resolvedInsideTenant host [group] groupPathError with
  | error e =>
      rw [hresolved] at h
      cases e with
      | api e => cases h
      | valueError => cases h
      | osError => cases h
  | ok target =>
      rw [hresolved] at h
      have hpath := resolved_of_validateProcessGroupId hvalid hresolved
      rw [← hpath, isModel_iff]
      change (if tree.isDir target then (isProcessModelIdentifier host tree group).map (!·)
        else .ok false) = .ok true at h
      rw [isProcessModelIdentifier_eq hresolved] at h
      split at h
      · rename_i hisDir
        refine ⟨hisDir, ?_⟩
        intro hmodel
        rw [hmodel] at h
        cases h
      · cases h

theorem createProcessModel_flat (hflat : Flat w.tree)
    {groupId leafId displayName description : TextArgument} {userId : Nat}
    (h : KeepsApart host w (.createProcessModel groupId leafId displayName description userId)) :
    Flat (createProcessModel host groupId leafId displayName description userId w).2.tree := by
  let creates : TreePath → Prop := fun target => ∃ group leaf,
    validateProcessGroupId groupId = .ok group ∧
      resolveProcessModelLeaf host.casing leafId displayName = .ok leaf ∧
      processGroupExists host w.tree (some group) = .ok true ∧
      resolvedInsideTenant host [group ++ '/' :: leaf] modelPathError = .ok target ∧
      w.tree.exists target = false
  have htouches : Touches (createdFootprint creates)
      (createProcessModel host groupId leafId displayName description userId) w := by
    apply createProcessModel_touches
    intro group leaf target hvalid hleaf hgroup htarget hnew
    have hcreate : creates target := ⟨group, leaf, hvalid, hleaf, hgroup, htarget, hnew⟩
    exact ⟨fun above habove => ⟨target, hcreate, habove⟩,
      fun content _ => ⟨target, modelJson, hcreate, rfl⟩,
      fun content => ⟨target, leaf ++ ".bpmn".toList, hcreate, rfl⟩,
      fun other hbelow => ⟨target, hcreate, hbelow⟩⟩
  apply flat_of_created hflat htouches
  · intro target hcreate
    obtain ⟨group, leaf, hvalid, hleaf, hgroup, htarget, hnew⟩ := hcreate
    have hsegment := resolveProcessModelLeaf_segment hleaf
    have hpath := resolved_of_leaf hvalid hsegment htarget
    obtain ⟨hisDir, hnotModel⟩ := isDir_of_processGroupExists (h group hvalid) hgroup
    rw [hpath] at hnew ⊢
    refine ⟨hnew, ?_, ?_⟩
    · intro above habove hne hother hmodel
      have hparent := (List.prefix_concat_iff.mp habove).resolve_left hother
      rw [hflat above _ hne hmodel hisDir hparent] at hnotModel
      exact hnotModel hmodel
    · intro above name hway _
      rcases List.prefix_concat_iff.mp hway with hlast | hparent
      · rw [(List.append_singleton_inj.mp hlast).2]
        exact dot_not_mem_of_isGroupSegment hsegment
      · exact dot_not_mem_of_group hvalid hparent
  · intro target target' hcreate hcreate'
    obtain ⟨group, leaf, hvalid, hleaf, -, htarget, -⟩ := hcreate
    obtain ⟨group', leaf', hvalid', hleaf', -, htarget', -⟩ := hcreate'
    rw [hvalid] at hvalid'
    rw [hleaf] at hleaf'
    rw [← Except.ok.inj hvalid', ← Except.ok.inj hleaf'] at htarget'
    exact resolved_unique htarget' htarget

/-- The group of a model that is named by the text of its path is the text of the path above. -/
theorem processGroupIdForModel_text {parent : TreePath} {last : Text} (hlast : '/' ∉ last) :
    processGroupIdForModel (TreePath.text (parent ++ [last])) = parent.text := by
  unfold processGroupIdForModel
  by_cases hroot : parent = []
  · rw [hroot, List.nil_append, TreePath.text_singleton, Text.rpartition, if_neg hlast]
    rfl
  · rw [TreePath.text_append hroot (List.cons_ne_nil _ _), TreePath.text_singleton,
      Text.rpartition_append hlast]

/-- A copy of a canonically named model lies beside it. -/
theorem resolved_of_copy {sourceIdentifier leaf : Text} {sourceDir dest : TreePath}
    {pathError : ApiError} (hcanonical : IsCanonical host sourceIdentifier)
    (hsource : resolvedInsideTenant host [sourceIdentifier] modelPathError = .ok sourceDir)
    (hleaf : isGroupSegment leaf = true)
    (hdest : resolvedInsideTenant host [if processGroupIdForModel sourceIdentifier = [] then leaf
      else processGroupIdForModel sourceIdentifier ++ '/' :: leaf] pathError = .ok dest) :
    ∃ parent last, sourceDir = parent ++ [last] ∧ dest = parent ++ [leaf] := by
  have hne := ne_nil_of_resolved hsource
  have hsegments := isSegment_of_resolved hsource
  have hsplit := List.dropLast_append_getLast hne
  refine ⟨sourceDir.dropLast, sourceDir.getLast hne, hsplit.symm, ?_⟩
  have hlast := (hsegments _ (List.getLast_mem hne)).2.2.2
  have hgroup : processGroupIdForModel sourceIdentifier = TreePath.text sourceDir.dropLast := by
    rw [hcanonical sourceDir hsource]
    nth_rewrite 1 [← hsplit]
    exact processGroupIdForModel_text hlast
  have hparent : ∀ segment ∈ sourceDir.dropLast, IsSegment segment :=
    fun segment hmem => hsegments segment (List.mem_of_mem_dropLast hmem)
  have htext : (if processGroupIdForModel sourceIdentifier = [] then leaf
      else processGroupIdForModel sourceIdentifier ++ '/' :: leaf) =
      TreePath.text (sourceDir.dropLast ++ [leaf]) := by
    rw [hgroup]
    by_cases hroot : sourceDir.dropLast = []
    · rw [hroot, List.nil_append, TreePath.text_singleton]
      exact if_pos rfl
    · have hnonempty : TreePath.text sourceDir.dropLast ≠ [] := by
        intro hnil
        have hback := splitOn_text hroot hparent
        rw [hnil] at hback
        have hempty := hparent [] (hback ▸ List.mem_singleton_self [])
        exact hempty.1 rfl
      rw [if_neg hnonempty, TreePath.text_append hroot (List.cons_ne_nil _ _),
        TreePath.text_singleton]
  rw [htext] at hdest
  apply eq_of_resolved_text (by simp) ?_ hdest
  intro segment hmem
  rcases List.mem_append.mp hmem with hin | hin
  · exact hparent segment hin
  · rw [List.mem_singleton.mp hin]
    exact isSegment_of_isGroupSegment hleaf

theorem copyProcessModel_flat (hflat : Flat w.tree) {sourceIdentifier : Text}
    {leafId displayName : TextArgument} {userId : Nat}
    (h : KeepsApart host w (.copyProcessModel sourceIdentifier leafId displayName userId)) :
    Flat (copyProcessModel host sourceIdentifier leafId displayName userId w).2.tree := by
  let creates : TreePath → Prop := fun dest => ∃ sourceDir leaf,
    resolvedInsideTenant host [sourceIdentifier] modelPathError = .ok sourceDir ∧
      IsModel w.tree sourceDir ∧ validateProcessModelLeaf leafId = .ok leaf ∧
      resolvedInsideTenant host [if processGroupIdForModel sourceIdentifier = [] then leaf
        else processGroupIdForModel sourceIdentifier ++ '/' :: leaf] modelPathError = .ok dest ∧
      w.tree.exists dest = false
  have htouches : Touches (createdFootprint creates)
      (copyProcessModel host sourceIdentifier leafId displayName userId) w := by
    apply copyProcessModel_touches
    intro sourceDir leaf dest hsource hmodel hleaf hdest hnew
    have hcreate : creates dest := ⟨sourceDir, leaf, hsource, hmodel, hleaf, hdest, hnew⟩
    exact ⟨fun above habove => ⟨dest, hcreate, habove⟩,
      fun content _ => ⟨dest, modelJson, hcreate, rfl⟩,
      fun name content _ => ⟨dest, name, hcreate, rfl⟩,
      fun other hbelow => ⟨dest, hcreate, hbelow⟩⟩
  apply flat_of_created hflat htouches
  · intro dest hcreate
    obtain ⟨sourceDir, leaf, hsource, hmodel, hleaf, hdest, hnew⟩ := hcreate
    have hsegment := validateProcessModelLeaf_segment hleaf
    obtain ⟨parent, last, hsplit, hbeside⟩ := resolved_of_copy h hsource hsegment hdest
    have hparent : parent <+: sourceDir := ⟨[last], hsplit.symm⟩
    refine ⟨hnew, ?_, ?_⟩
    · intro above habove hne hother hmodel'
      rw [hbeside] at habove hother
      have habove' := (List.prefix_concat_iff.mp habove).resolve_left hother
      -- the source lies below that model, so it is that model
      have hsame := hflat above sourceDir hne hmodel' hmodel.1 (habove'.trans hparent)
      have hlength := habove'.length_le
      rw [← hsame, hsplit, List.length_append, List.length_singleton] at hlength
      omega
    · intro above name hway hnone
      rw [hbeside] at hway
      rcases List.prefix_concat_iff.mp hway with hlast | habove
      · rw [(List.append_singleton_inj.mp hlast).2]
        exact dot_not_mem_of_isGroupSegment hsegment
      · have hisDir := isDir_above hmodel.1 (habove.trans hparent)
        rw [(isDir_iff.mp hisDir).resolve_left (by simp)] at hnone
        cases hnone
  · intro dest dest' hcreate hcreate'
    obtain ⟨sourceDir, leaf, -, -, hleaf, hdest, -⟩ := hcreate
    obtain ⟨sourceDir', leaf', -, -, hleaf', hdest', -⟩ := hcreate'
    rw [hleaf] at hleaf'
    rw [← Except.ok.inj hleaf'] at hdest'
    exact resolved_unique hdest' hdest

/-! ## Counts -/

/-- The pattern of a text without an escape character matches what starts with the text. -/
theorem like_prefix {text : Text} (h : '\\' ∉ text) (rest : Text) :
    like (text ++ ['%']) (text ++ rest) = true := by
  induction text with
  | nil =>
      show rest.tails.any (like []) = true
      rw [List.any_eq_true]
      exact ⟨[], (List.mem_tails _ _).mpr List.nil_suffix, rfl⟩
  | cons c text ih =>
      have hrest := ih fun hmem => h (List.mem_cons_of_mem c hmem)
      have hescape : c ≠ '\\' := fun hsame => h (hsame ▸ List.mem_cons_self)
      rw [List.cons_append, List.cons_append]
      unfold like
      split
      · rename_i hnil
        cases hnil
      · rename_i pattern _ hpattern
        obtain ⟨-, hsame⟩ := List.cons.inj hpattern
        rw [List.any_eq_true]
        refine ⟨text ++ rest, (List.mem_tails _ _).mpr (List.suffix_cons _ _), ?_⟩
        rw [← hsame]
        exact hrest
      · rename_i hpattern
        exact absurd (List.cons.inj hpattern).1 hescape
      · rename_i hpattern
        obtain ⟨-, hsame⟩ := List.cons.inj hpattern
        rw [← hsame]
        simpa using hrest
      · rename_i hpattern
        obtain ⟨hhead, hsame⟩ := List.cons.inj hpattern
        rw [← hsame, ← hhead]
        simpa using hrest

/-- No instance is counted for a group only if none names the group or what is below it. -/
theorem not_mem_of_countInstancesForProcessGroup {groupId : Text} {instances : List Text}
    (hvalid : validateProcessGroupId (some groupId) = .ok groupId)
    (hcount : countInstancesForProcessGroup instances groupId = 0) {dir : TreePath}
    (hbelow : Text.splitOn ['/'] groupId <+: dir) : dir.text ∉ instances := by
  intro hmem
  unfold countInstancesForProcessGroup at hcount
  rw [List.countP_eq_zero] at hcount
  apply hcount _ hmem
  obtain ⟨rest, hrest⟩ := hbelow
  rw [Bool.or_eq_true, decide_eq_true_eq]
  by_cases hnil : rest = []
  · left
    rw [← hrest, hnil, List.append_nil, text_splitOn]
  · right
    have htext : dir.text = (groupId ++ ['/']) ++ TreePath.text rest := by
      rw [← hrest, TreePath.text_append (splitOn_ne_nil groupId) hnil, text_splitOn,
        List.append_assoc, List.singleton_append]
    have hpattern : groupId ++ ['/', '%'] = (groupId ++ ['/']) ++ ['%'] := by simp
    have hescape : '\\' ∉ groupId ++ ['/'] := by
      have hgroup := (validateProcessGroupId_segments hvalid).1
      simpa using hgroup
    rw [rstripChar_of_validateProcessGroupId hvalid, htext, hpattern]
    exact like_prefix hescape _

/-! ## Runs -/

theorem ignoring_run {α : Type} (service : Service δ α) :
    (ignoring service w).2 = (service w).2 := by
  rcases hrun : service w with ⟨result, after⟩
  unfold ignoring
  cases result with
  | ok a =>
      rw [Proc.bind_run_ok hrun]
      rfl
  | error e => rw [Proc.bind_run_error hrun]

/-- An operation under the condition keeps the tree flat. -/
theorem run_flat {operation : Operation} (hflat : Flat w.tree)
    (h : KeepsApart host w operation) : Flat (operation.run host w).2.tree := by
  cases operation with
  | createProcessGroup groupId displayName description =>
      show Flat (ignoring _ w).2.tree
      rw [ignoring_run]
      exact createProcessGroup_flat hflat h
  | createProcessModel groupId leafId displayName description userId =>
      show Flat (ignoring _ w).2.tree
      rw [ignoring_run]
      exact createProcessModel_flat hflat h
  | copyProcessModel sourceIdentifier leafId displayName userId =>
      show Flat (ignoring _ w).2.tree
      rw [ignoring_run]
      exact copyProcessModel_flat hflat h
  | deleteProcessModel identifier instances =>
      show Flat (deleteProcessModel host identifier instances w).2.tree
      rcases @deleteProcessModel_ends δ host w identifier instances with hsame | hremoved
      · rw [hsame]
        exact hflat
      · obtain ⟨dir, -, -, -, hafter⟩ := hremoved
        rw [hafter]
        exact flat_remove hflat dir
  | deleteProcessGroup groupId instances =>
      show Flat (deleteProcessGroup host groupId instances w).2.tree
      rcases @deleteProcessGroup_ends δ host w groupId instances with hsame | hremoved
      · rw [hsame]
        exact hflat
      · obtain ⟨cleaned, target, -, -, -, hafter⟩ := hremoved
        rw [hafter]
        exact flat_remove hflat target
  | updateProcessModelMetadata => exact h.elim
  | createModelFile => exact h.elim
  | deleteModelFile => exact h.elim
  | putProcessModelFile => exact h.elim
  | save => exact h.elim

/-- A directory that a removal took lies at or below the path that was removed. -/
theorem below_of_removed {tree : FileTree} {path removed : TreePath} (hne : removed ≠ [])
    (hwas : tree.isDir removed = true) (hgone : (tree.remove path).isDir removed = false) :
    path <+: removed := by
  by_contra hbelow
  have hat := (isDir_iff.mp hwas).resolve_left hne
  have hstays : (tree.remove path).isDir removed = true := by
    rw [isDir_iff, at?_remove, if_neg hbelow]
    exact Or.inr hat
  rw [hstays] at hgone
  cases hgone

/-- What a deletion removes from a flat tree has no model with an instance. -/
theorem run_spares {operation : Operation} (hflat : Flat w.tree)
    (h : KeepsApart host w operation) {removed dir : TreePath} (hne : removed ≠ [])
    (hwas : w.tree.isDir removed = true)
    (hgone : (operation.run host w).2.tree.isDir removed = false) (hbelow : removed <+: dir)
    (hmodel : IsModel w.tree dir) : dir.text ∉ operation.instances := by
  cases operation with
  | deleteProcessModel identifier instances =>
      change (deleteProcessModel host identifier instances w).2.tree.isDir removed = false at hgone
      rcases @deleteProcessModel_ends δ host w identifier instances with hsame | hremoved
      · rw [hsame, hwas] at hgone
        cases hgone
      · obtain ⟨target, htarget, hmodel', hnone, hafter⟩ := hremoved
        rw [hafter] at hgone
        have habove := (below_of_removed hne hwas hgone).trans hbelow
        -- the directory is that of the model which was deleted
        have hsame := hflat target dir (ne_nil_of_resolved htarget) hmodel' hmodel.1 habove
        rw [hsame, ← h target htarget]
        exact hnone
  | deleteProcessGroup groupId instances =>
      change (deleteProcessGroup host groupId instances w).2.tree.isDir removed = false at hgone
      rcases @deleteProcessGroup_ends δ host w groupId instances with hsame | hremoved
      · rw [hsame, hwas] at hgone
        cases hgone
      · obtain ⟨cleaned, target, hcleaned, htarget, hcount, hafter⟩ := hremoved
        rw [hafter] at hgone
        have hvalid : validateProcessGroupId (some groupId) = .ok groupId := h
        rw [hvalid] at hcleaned
        rw [← Except.ok.inj hcleaned] at htarget
        have habove := (below_of_removed hne hwas hgone).trans hbelow
        rw [resolved_of_validateProcessGroupId hvalid htarget] at habove
        exact not_mem_of_countInstancesForProcessGroup hvalid hcount habove
  | _ => exact List.not_mem_nil

/-- One request keeps the tree flat, and spares the models that have instances. -/
theorem step_spares {w' : World δ} {operation : Operation} (hflat : Flat w.tree)
    (h : KeepsApart host w operation) (hstep : step host w operation = some w') :
    Flat w'.tree ∧ SparesInstances host w operation := by
  have h' : KeepsApart host { w with session := w.stored } operation := h
  constructor
  · rw [← Option.some.inj hstep, serve_tree]
    exact @run_flat δ host { w with session := w.stored } operation hflat h'
  · intro removed hne hwas hgone dir hbelow hmodel
    rw [serve_tree] at hgone
    exact @run_spares δ host { w with session := w.stored } operation hflat h' removed dir hne hwas
      hgone hbelow hmodel

/-- In every run from the empty catalog whose requests meet the condition, no deletion removes
a model that has an instance. -/
theorem deletion_spares_instances {w' : World δ} {operations : List Operation}
    (hempty : w.tree = FileTree.empty)
    (h : Run (step host) (KeepsApart host) w operations w') :
    Run (step host) (SparesInstances host) w operations w' := by
  have hflat : Flat w.tree := hempty ▸ flat_empty
  clear hempty
  induction h with
  | nil w => exact Run.nil w
  | cons hkeeps hstep hrest ih =>
      obtain ⟨hflat', hspares⟩ := step_spares hflat hkeeps hstep
      exact Run.cons hspares hstep (ih hflat')

/-- The catalog of a new tenant. -/
def emptyCatalog : World Unit where
  tree := FileTree.empty
  stored := ()
  session := ()

def createSales : Operation := .createProcessGroup (some "sales".toList) none none

def createOrder : Operation :=
  .createProcessModel (some "sales".toList) (some "order".toList) none none 1

/-- The state after the requests, whatever they answer. -/
def afterAll (host : Host δ) (w : World δ) (operations : List Operation) : World δ :=
  operations.foldl (fun w operation => (serve (operation.run host) w).2) w

/-- The catalog with the group and the model. -/
def salesOrder : World Unit := afterAll exampleHost emptyCatalog [createSales, createOrder]

/-- A deletion of the model under the identifier, where it has an instance. -/
def deleteOrder (identifier : Text) : Operation := .deleteProcessModel identifier [order]

theorem isModel_order :
    salesOrder.tree.isDir ["sales".toList, "order".toList] = true ∧
      hasBpmn salesOrder.tree ["sales".toList, "order".toList] = true := by
  decide +kernel

theorem not_isDir_order :
    (serve ((deleteOrder "sales/order/".toList).run exampleHost) salesOrder).2.tree.isDir
      ["sales".toList, "order".toList] = false := by
  decide +kernel

/-- The deletion under the model's own identifier is refused. -/
theorem deletion_spares_instances_order :
    Run (step exampleHost) (SparesInstances exampleHost) emptyCatalog
      [createSales, createOrder, deleteOrder order]
      (serve ((deleteOrder order).run exampleHost) salesOrder).2 := by
  have hgroup : validateProcessGroupId (some "sales".toList) = .ok "sales".toList := by decide
  apply deletion_spares_instances rfl
  refine Run.cons ?_ rfl (Run.cons ?_ rfl (Run.cons ?_ rfl (Run.nil _)))
  · intro cleaned _ above _ hne _ hmodel
    have hisDir : FileTree.empty.isDir above = true := hmodel.1
    rw [not_isDir_empty hne] at hisDir
    cases hisDir
  · intro group hvalid
    rw [hgroup] at hvalid
    rw [← Except.ok.inj hvalid, hgroup]
  · intro dir hdir
    have horder : resolvedInsideTenant exampleHost [order] modelPathError =
        .ok ["sales".toList, "order".toList] := by decide
    rw [horder] at hdir
    rw [← Except.ok.inj hdir]
    decide

/-- Under another identifier of the directory no instance is counted. -/
theorem delete_beside_count :
    ∃ w, Run (step exampleHost) (fun _ _ => True) emptyCatalog
        [createSales, createOrder, deleteOrder "sales/order/".toList] w ∧
      ¬ Run (step exampleHost) (SparesInstances exampleHost) emptyCatalog
        [createSales, createOrder, deleteOrder "sales/order/".toList] w := by
  refine ⟨(serve ((deleteOrder "sales/order/".toList).run exampleHost) salesOrder).2, ?_, ?_⟩
  · exact Run.cons trivial rfl (Run.cons trivial rfl (Run.cons trivial rfl (Run.nil _)))
  · intro hrun
    cases hrun with
    | cons _ hsales hrest =>
        cases hrest with
        | cons _ horder hrest' =>
            cases hrest' with
            | cons hspares _ _ =>
                rw [← Option.some.inj hsales] at horder
                rw [← Option.some.inj horder] at hspares
                have hmem : order ∉ [order] := hspares ["sales".toList, "order".toList] (by simp)
                  isModel_order.1 not_isDir_order _ (List.prefix_refl _) isModel_order
                exact hmem List.mem_cons_self

end M8flow.Catalog
