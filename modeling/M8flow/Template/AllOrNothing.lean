import M8flow.Catalog.Accepted
import M8flow.Catalog.Rejected
import M8flow.Template.Instantiate
import M8flow.Template.Usable

/-!
# What is left of an instantiation that raises

`create_process_model_from_template` makes the directory of the new model and then writes
files, imports definitions and inserts a row.  It has no undo: the directory stays when a
later step raises, and the same call is refused from then on.

- `Admitted` are the checks and reads before the directory is made, and `Completes` that
  nothing after it is refused.
- `instantiate_keeps_iff`: whatever the request raises, the site is as before exactly where
  an admitted call whose directory can be made completes.
- `retry_refused`: otherwise the same call is not admitted again.
-/

namespace M8flow.Template

open M8flow.Lib M8flow.Lib.FileTree M8flow.Lib.Proc

variable {δ α : Type} {env : Environment δ} {req : Request} {call : Instantiation} {s : Site δ}

/-! ## Runs of the steps -/

theorem onTemplates_getTemplateById (req : Request) (templateId : Nat) :
    (onTemplates (getTemplateById req templateId false) : Instantiating δ _) s =
      (.ok (s.templates.found req templateId false), s) :=
  focus_run_ok (getTemplateById_run req templateId false s.templates)

theorem onCatalog_inspect_ok {answer : FileTree → Except Catalog.Raised α} {a : α}
    (h : answer s.catalog.tree = .ok a) :
    (onCatalog (Catalog.inspect answer) : Instantiating δ α) s = (.ok a, s) := by
  have hrun : (Catalog.inspect answer : Catalog.Service δ α) s.catalog = (.ok a, s.catalog) := by
    rw [Catalog.inspect_run, h]
  exact focus_run_ok hrun

theorem onCatalog_inspect_eq_ok {answer : FileTree → Except Catalog.Raised α} {a : α}
    {after : Site δ}
    (h : (onCatalog (Catalog.inspect answer) : Instantiating δ α) s = (.ok a, after)) :
    answer s.catalog.tree = .ok a ∧ after = s := by
  cases hanswer : answer s.catalog.tree with
  | ok a' =>
      rw [onCatalog_inspect_ok hanswer] at h
      obtain ⟨ha, hsame⟩ := Prod.mk.inj h
      exact ⟨congrArg Except.ok (Except.ok.inj ha), hsame.symm⟩
  | error e =>
      have hrun : (Catalog.inspect answer : Catalog.Service δ α) s.catalog =
          (.error e, s.catalog) := by rw [Catalog.inspect_run, hanswer]
      unfold onCatalog at h
      rw [focus_run_error hrun] at h
      cases h

/-! ## Before the directory is made -/

/-- The catalog and the provenance rows are those of the first site. -/
def Untouched (s after : Site δ) : Prop :=
  after.catalog = s.catalog ∧ after.provenance = s.provenance

theorem onTemplates_untouched (x : Service α) :
    Preserves (Untouched s) (onTemplates x : Instantiating δ α) :=
  Preserves.focus_other fun _ _ h => h

theorem inspect_untouched (answer : FileTree → Except Catalog.Raised α) :
    Preserves (Untouched s) (onCatalog (Catalog.inspect answer) : Instantiating δ α) := by
  intro t h
  unfold onCatalog focus
  rw [Catalog.inspect_run]
  cases answer t.catalog.tree with
  | ok a => exact h
  | error e => exact h

theorem publishedTemplate_untouched (templateId : Nat) :
    Preserves (Untouched s) (publishedTemplate req templateId : Instantiating δ _) := by
  refine Preserves.bind (onTemplates_untouched _) fun found => ?_
  cases found with
  | none => exact Preserves.raise _
  | some template =>
      exact Preserves.ite (Preserves.raise _)
        (Preserves.ite (Preserves.raise _) (Preserves.pure _))

theorem requireFree_untouched : Preserves (Untouched s) (requireFree env call) := by
  refine Preserves.bind (inspect_untouched _) fun isGroup => ?_
  refine Preserves.ite (Preserves.raise _) ?_
  refine Preserves.bind (inspect_untouched _) fun isModel => ?_
  refine Preserves.ite (Preserves.raise _) ?_
  refine Preserves.bind (inspect_untouched _) fun taken => ?_
  exact Preserves.ite (Preserves.raise _) (Preserves.pure _)

theorem readContents_untouched (template : TemplateModel) (contents : Dict Text Bytes)
    (entries : List FileEntry) :
    Preserves (Untouched s) (readContents env template contents entries) := by
  induction entries generalizing contents with
  | nil => exact Preserves.pure contents
  | cons entry entries ih =>
      unfold readContents
      cases truthy entry.fileName with
      | none => exact ih contents
      | some fileName =>
          refine Preserves.bind ?_ fun content => ih _
          exact Preserves.tryExcept (onTemplates_untouched _) fun _ => Preserves.raise _

theorem prepare_untouched : Preserves (Untouched s) (prepare env req call) := by
  unfold prepare
  cases req.user with
  | none => exact Preserves.raise _
  | some username =>
      dsimp only
      cases req.tenantFor call.tenantId with
      | none => exact Preserves.raise _
      | some tenant =>
          refine Preserves.bind (publishedTemplate_untouched _) fun template => ?_
          refine Preserves.bind requireFree_untouched fun _ => ?_
          exact Preserves.bind (readContents_untouched _ _ _) fun _ => Preserves.pure _

/-- The template that a request can instantiate. -/
def Published (s : Site δ) (req : Request) (templateId : Nat) (template : TemplateModel) : Prop :=
  s.templates.found req templateId false = some template ∧ template.isPublished = true ∧
    template.files ≠ []

theorem publishedTemplate_eq_ok {templateId : Nat} {template : TemplateModel} {after : Site δ} :
    publishedTemplate req templateId s = (.ok template, after) ↔
      Published s req templateId template ∧ after = s := by
  unfold publishedTemplate Published
  rw [bind_run_ok (onTemplates_getTemplateById req templateId)]
  cases hfound : s.templates.found req templateId false with
  | none =>
      constructor
      · intro h
        cases h
      · intro h
        cases h.1.1
  | some found =>
      dsimp only
      by_cases hpublished : found.isPublished = true
      · rw [if_neg (not_not.mpr hpublished)]
        by_cases hfiles : found.files = []
        · rw [if_pos hfiles]
          constructor
          · intro h
            cases h
          · intro h
            obtain ⟨⟨hsame, -, hne⟩, -⟩ := h
            exact absurd (Option.some.inj hsame ▸ hfiles) hne
        · rw [if_neg hfiles]
          constructor
          · intro h
            cases h
            exact ⟨⟨rfl, hpublished, hfiles⟩, rfl⟩
          · intro h
            obtain ⟨⟨hsame, -, -⟩, hafter⟩ := h
            rw [Option.some.inj hsame, hafter]
            rfl
      · rw [if_pos hpublished]
        constructor
        · intro h
          cases h
        · intro h
          obtain ⟨⟨hsame, hpublished', -⟩, -⟩ := h
          exact absurd (Option.some.inj hsame ▸ hpublished') hpublished

/-- The group is there, and the identifier is free in it. -/
structure Free (env : Environment δ) (call : Instantiation) (tree : FileTree) : Prop where
  group : Catalog.isProcessGroupIdentifier env.host tree call.processGroupId = .ok true
  noModel : Catalog.isProcessModelIdentifier env.host tree call.fullProcessModelId = .ok false
  noGroup : Catalog.isProcessGroupIdentifier env.host tree call.fullProcessModelId = .ok false

theorem requireFree_eq_ok {after : Site δ} :
    requireFree env call s = (.ok (), after) ↔ Free env call s.catalog.tree ∧ after = s := by
  constructor
  · intro h
    obtain ⟨isGroup, t, hgroup, hrest⟩ := bind_eq_ok.mp h
    obtain ⟨hgroup, ht⟩ := onCatalog_inspect_eq_ok hgroup
    rw [ht] at hrest
    cases isGroup with
    | false => cases hrest
    | true =>
        obtain ⟨isModel, u, hmodel, hrest⟩ := bind_eq_ok.mp hrest
        obtain ⟨hmodel, hu⟩ := onCatalog_inspect_eq_ok hmodel
        rw [hu] at hrest
        cases isModel with
        | true => cases hrest
        | false =>
            obtain ⟨taken, v, htaken, hrest⟩ := bind_eq_ok.mp hrest
            obtain ⟨htaken, hv⟩ := onCatalog_inspect_eq_ok htaken
            rw [hv] at hrest
            cases taken with
            | true => cases hrest
            | false =>
                cases hrest
                exact ⟨⟨hgroup, hmodel, htaken⟩, rfl⟩
  · intro h
    obtain ⟨hfree, hafter⟩ := h
    unfold requireFree
    rw [bind_run_ok (onCatalog_inspect_ok hfree.group), if_neg (by simp),
      bind_run_ok (onCatalog_inspect_ok hfree.noModel), if_neg (by simp),
      bind_run_ok (onCatalog_inspect_ok hfree.noGroup), if_neg (by simp), hafter]
    rfl

/-- The call passes every check, and every file of the template is read. -/
structure Admitted (env : Environment δ) (req : Request) (call : Instantiation) (s : Site δ)
    (admission : Admission) : Prop where
  user : req.user = some admission.username
  tenant : req.tenantFor call.tenantId = some admission.tenant
  template : Published s req call.templateId admission.template
  free : Free env call s.catalog.tree
  contents : (readContents env admission.template Dict.empty admission.template.files s).1 =
    .ok admission.contents

theorem prepare_returns_iff {admission : Admission} :
    (prepare env req call s).1 = .ok admission ↔ Admitted env req call s admission := by
  unfold prepare
  constructor
  · intro h
    cases huser : req.user with
    | none =>
        rw [huser] at h
        cases h
    | some username =>
        rw [huser] at h
        dsimp only at h
        cases htenant : req.tenantFor call.tenantId with
        | none =>
            rw [htenant] at h
            cases h
        | some tenant =>
            rw [htenant] at h
            dsimp only at h
            obtain ⟨template, t, htemplate, hrest⟩ := bind_eq_ok.mp (Prod.ext h rfl)
            obtain ⟨hpublished, ht⟩ := publishedTemplate_eq_ok.mp htemplate
            rw [ht] at hrest
            obtain ⟨_, u, hfree, hrest⟩ := bind_eq_ok.mp hrest
            obtain ⟨hfree, hu⟩ := requireFree_eq_ok.mp hfree
            rw [hu] at hrest
            obtain ⟨contents, v, hcontents, hpure⟩ := bind_eq_ok.mp hrest
            have hadmission := Except.ok.inj (congrArg Prod.fst hpure)
            rw [← hadmission]
            exact ⟨huser, htenant, hpublished, hfree, congrArg Prod.fst hcontents⟩
  · intro h
    have htemplate : publishedTemplate req call.templateId s = (.ok admission.template, s) :=
      publishedTemplate_eq_ok.mpr ⟨h.template, rfl⟩
    have hfree : requireFree env call s = (.ok (), s) := requireFree_eq_ok.mpr ⟨h.free, rfl⟩
    rw [h.user]
    dsimp only
    rw [h.tenant]
    dsimp only
    rw [bind_run_ok htemplate, bind_run_ok hfree, bind_run_ok (Prod.ext h.contents rfl)]
    rfl

/-! ## After the directory is made -/

theorem writeEntry_ok {fileName : Text} {content : Lib.Bytes} {target : TreePath}
    {w : Catalog.World δ}
    (h : Catalog.updateFile env.host call.fullProcessModelId fileName content call.userId
      s.catalog = (.ok target, w)) :
    writeEntry env call fileName content s = (.ok target, { s with catalog := w }) :=
  tryExcept_run_ok (focus_run_ok h)

theorem writeEntry_eq_ok {fileName : Text} {content : Lib.Bytes} {target : TreePath}
    {after : Site δ} (h : writeEntry env call fileName content s = (.ok target, after)) :
    ∃ w, Catalog.updateFile env.host call.fullProcessModelId fileName content call.userId
      s.catalog = (.ok target, w) ∧ after = { s with catalog := w } := by
  rcases hrun : Catalog.updateFile env.host call.fullProcessModelId fileName content call.userId
    s.catalog with ⟨result, w⟩
  cases result with
  | ok target' =>
      rw [writeEntry_ok hrun] at h
      obtain ⟨hsame, hafter⟩ := Prod.mk.inj h
      rw [Except.ok.inj hsame]
      exact ⟨w, rfl, hafter.symm⟩
  | error e =>
      unfold writeEntry at h
      have hfocus := @focus_run_error _ _ _ _ _ _ _ Site.catalog
        (fun s catalog => { s with catalog }) Failure.catalog s e hrun
      unfold onCatalog at h
      rw [tryExcept_run_error hfocus] at h
      cases h

/-- Every file is taken in the catalog that the files before it left, and what the loop ends
with has the property. -/
def EntriesFit (env : Environment δ) (call : Instantiation) (contents : Dict Text Bytes)
    (last : Copying → Catalog.World δ → Prop) :
    List FileEntry → Nat → Copying → Catalog.World δ → Prop
  | [], _, copying, w => last copying w
  | entry :: entries, place, copying, w =>
      match truthy entry.fileName with
      | none => EntriesFit env call contents last entries place copying w
      | some fileName =>
          let transformed := transformEntry env call place entry.fileType fileName
            (contentOf contents fileName) copying
          Catalog.UpdateFits env.host call.fullProcessModelId fileName transformed.1 call.userId w ∧
            EntriesFit env call contents last entries (place + 1)
              { transformed.2 with filesCopied := transformed.2.filesCopied + 1 }
              (Catalog.updateFile env.host call.fullProcessModelId fileName transformed.1
                call.userId w).2

theorem entriesFit_iff (env : Environment δ) (call : Instantiation) (contents : Dict Text Bytes)
    (last : Copying → Catalog.World δ → Prop) (entries : List FileEntry) (place : Nat) (copying : Copying) (s : Site δ) :
    EntriesFit env call contents last entries place copying s.catalog ↔
      ∃ copied after, copyEntries env call contents entries place copying s = (.ok copied, after) ∧
        last copied after.catalog := by
  induction entries generalizing place copying s with
  | nil =>
      constructor
      · intro h
        exact ⟨copying, s, rfl, h⟩
      · intro h
        obtain ⟨copied, after, hrun, hlast⟩ := h
        cases hrun
        exact hlast
  | cons entry entries ih =>
      unfold EntriesFit copyEntries
      cases truthy entry.fileName with
      | none => exact ih place copying s
      | some fileName =>
          dsimp only
          rw [← Catalog.updateFile_returns]
          constructor
          · intro h
            obtain ⟨⟨target, w, hupdate⟩, hrest⟩ := h
            rw [hupdate] at hrest
            obtain ⟨copied, after, hrun, hlast⟩ := (ih _ _ { s with catalog := w }).mp hrest
            exact ⟨copied, after, by rw [bind_run_ok (writeEntry_ok hupdate), hrun], hlast⟩
          · intro h
            obtain ⟨copied, after, hrun, hlast⟩ := h
            obtain ⟨target, t, hwrite, hrest⟩ := bind_eq_ok.mp hrun
            obtain ⟨w, hupdate, ht⟩ := writeEntry_eq_ok hwrite
            rw [ht] at hrest
            refine ⟨⟨target, w, hupdate⟩, ?_⟩
            rw [hupdate]
            exact (ih _ _ { s with catalog := w }).mpr ⟨copied, after, hrest, hlast⟩

section Kept

variable {P : FileTree → Prop}

theorem onCatalog_preserves {x : Catalog.Service δ α}
    (h : Preserves (fun w : Catalog.World δ => P w.tree) x) :
    Preserves (fun s : Site δ => P s.catalog.tree) (onCatalog x) :=
  Preserves.focus (fun _ _ => rfl) h

theorem copyEntries_preserves (env : Environment δ) (call : Instantiation)
    (hP : Catalog.Stays P) (contents : Dict Text Bytes) (entries : List FileEntry) (place : Nat)
    (copying : Copying) :
    Preserves (fun s : Site δ => P s.catalog.tree)
      (copyEntries env call contents entries place copying) := by
  induction entries generalizing place copying with
  | nil => exact Preserves.pure copying
  | cons entry entries ih =>
      unfold copyEntries
      cases truthy entry.fileName with
      | none => exact ih place copying
      | some fileName =>
          refine Preserves.bind ?_ fun _ => ih _ _
          exact Preserves.tryExcept (onCatalog_preserves (Catalog.updateFile_preserves hP _ _ _ _))
            fun _ => Preserves.raise _

theorem insertProvenance_run {row : ProcessModelTemplateModel}
    (h : TakesRow env s.provenance row) :
    insertProvenance env row s = (.ok (), { s with provenance := s.provenance ++ [row] }) := by
  unfold insertProvenance
  rw [read_bind_run, if_pos h]
  rfl

theorem insertProvenance_preserves (row : ProcessModelTemplateModel) :
    Preserves (fun s : Site δ => P s.catalog.tree) (insertProvenance env row) := by
  refine Preserves.bind Preserves.read fun s => ?_
  exact Preserves.ite (fun _ h => h) (Preserves.raise _)

/-- From the loop on, no step of the function takes anything away. -/
theorem fillModel_preserves (hP : Catalog.Stays P) (env : Environment δ) (call : Instantiation)
    (admission : Admission) :
    Preserves (fun s : Site δ => P s.catalog.tree) (fillModel env call admission) := by
  refine Preserves.bind (copyEntries_preserves _ _ hP _ _ _ _) fun copied => ?_
  refine Preserves.ite (Preserves.raise _) ?_
  refine Preserves.bind (onCatalog_preserves (Catalog.addProcessModel_preserves hP _ _)) fun _ => ?_
  refine Preserves.bind (insertProvenance_preserves _) fun _ => ?_
  exact Preserves.bind (onCatalog_preserves (Catalog.inspect_preserves _)) fun _ => Preserves.pure _

end Kept

theorem copyEntries_provenance (env : Environment δ) (call : Instantiation)
    (rows : List ProcessModelTemplateModel) (contents : Dict Text Bytes)
    (entries : List FileEntry) (place : Nat) (copying : Copying) :
    Preserves (fun s : Site δ => s.provenance = rows)
      (copyEntries env call contents entries place copying) := by
  induction entries generalizing place copying with
  | nil => exact Preserves.pure copying
  | cons entry entries ih =>
      unfold copyEntries
      cases truthy entry.fileName with
      | none => exact ih place copying
      | some fileName =>
          refine Preserves.bind ?_ fun _ => ih _ _
          exact Preserves.tryExcept (Preserves.focus_other fun _ _ h => h) fun _ => Preserves.raise _

/-- A file was written, the database takes the provenance row, and the file to commit is in
the tenant's directory. -/
def Finishes (env : Environment δ) (call : Instantiation) (admission : Admission)
    (rows : List ProcessModelTemplateModel) (copied : Copying) (w : Catalog.World δ) : Prop :=
  copied.filesCopied ≠ 0 ∧ TakesRow env rows (admission.provenance call) ∧
    ∃ path, Catalog.modelFilePath env.host
      (Catalog.addProcessModel env.host call.fullProcessModelId (copied.processModelInfo call)
        w).2.tree call.fullProcessModelId = .ok path

/-- From the new directory on, nothing is refused. -/
def Completes (env : Environment δ) (call : Instantiation) (admission : Admission)
    (w : Catalog.World δ) (rows : List ProcessModelTemplateModel) : Prop :=
  EntriesFit env call admission.contents (Finishes env call admission rows)
    (orderedEntries admission.template.files) 0 Copying.start
    (Catalog.addProcessModel env.host call.fullProcessModelId call.processModelInfo w).2

/-- What follows the loop returns where the directory has its metadata. -/
theorem finish_returns {admission : Admission} {copied : Copying} {dir : TreePath}
    (hdir : Catalog.resolvedInsideTenant env.host [call.fullProcessModelId]
      Catalog.modelPathError = .ok dir)
    (hmetadata : Catalog.HasMetadata dir s.catalog.tree) :
    Returns (if copied.filesCopied = 0 then
        refuse "no_files_copied" "No files could be copied from the template" 500
      else do
        onCatalog (Catalog.addProcessModel env.host call.fullProcessModelId
          (copied.processModelInfo call))
        insertProvenance env (admission.provenance call)
        let _ ← onCatalog (Catalog.inspect fun tree =>
          Catalog.modelFilePath env.host tree call.fullProcessModelId)
        pure ({ processModelInfo := copied.processModelInfo call,
                templateInfo := admission.provenance call } : Instantiated)) s ↔
      Finishes env call admission s.provenance copied s.catalog := by
  unfold Finishes
  by_cases hzero : copied.filesCopied = 0
  · rw [if_pos hzero]
    constructor
    · intro h
      obtain ⟨_, _, hrun⟩ := h
      cases hrun
    · intro h
      exact absurd hzero h.1
  · obtain ⟨tree, hadd, -⟩ := Catalog.addProcessModel_runs_again
      (copied.processModelInfo call) hdir hmetadata
    have hrun : (onCatalog (Catalog.addProcessModel env.host call.fullProcessModelId
        (copied.processModelInfo call)) : Instantiating δ Unit) s =
          (.ok (), { s with catalog := { s.catalog with tree } }) := focus_run_ok hadd
    rw [if_neg hzero, hadd, returns_bind]
    constructor
    · intro h
      obtain ⟨_, t, hfirst, hrest⟩ := h
      rw [hrun] at hfirst
      obtain ⟨-, ht⟩ := Prod.mk.inj hfirst
      obtain ⟨_, u, hinsert, hrest⟩ := returns_bind.mp hrest
      rw [← ht] at hinsert
      unfold insertProvenance at hinsert
      rw [read_bind_run] at hinsert
      by_cases htakes : TakesRow env s.provenance (admission.provenance call)
      · rw [if_pos htakes] at hinsert
        obtain ⟨-, hu⟩ := Prod.mk.inj hinsert
        obtain ⟨path, v, hpath, -⟩ := returns_bind.mp hrest
        obtain ⟨hpath, -⟩ := onCatalog_inspect_eq_ok hpath
        rw [← hu] at hpath
        exact ⟨hzero, htakes, path, hpath⟩
      · rw [if_neg htakes] at hinsert
        cases hinsert
    · intro h
      obtain ⟨-, htakes, path, hpath⟩ := h
      have hinsert := @insertProvenance_run δ env { s with catalog := { s.catalog with tree } }
        (admission.provenance call) htakes
      refine ⟨(), _, hrun, returns_bind.mpr ⟨(), _, hinsert, ?_⟩⟩
      exact returns_bind.mpr ⟨path, _, onCatalog_inspect_ok hpath, _, _, rfl⟩

/-- Where the directory can be made, the function from there on returns exactly if nothing is
refused. -/
theorem instantiate_returns_iff {admission : Admission} {dir : TreePath}
    (hdir : Catalog.resolvedInsideTenant env.host [call.fullProcessModelId]
      Catalog.modelPathError = .ok dir)
    (hway : ∀ above ∈ dir.inits, s.catalog.tree.isFile above = false)
    (hjson : s.catalog.tree.at? (dir ++ [Catalog.modelJson]) ≠ some .dir) :
    Returns (instantiate env call admission) s ↔
      Completes env call admission s.catalog s.provenance := by
  obtain ⟨tree, hadd, hmetadata⟩ := Catalog.addProcessModel_runs call.processModelInfo hdir
    hway hjson
  have hrun : (onCatalog (Catalog.addProcessModel env.host call.fullProcessModelId
      call.processModelInfo) : Instantiating δ Unit) s =
        (.ok (), { s with catalog := { s.catalog with tree } }) := focus_run_ok hadd
  have hreached : ∀ copied after, copyEntries env call admission.contents
      (orderedEntries admission.template.files) 0 Copying.start
        { s with catalog := { s.catalog with tree } } = (.ok copied, after) →
      Catalog.HasMetadata dir after.catalog.tree ∧ after.provenance = s.provenance := by
    intro copied after hcopy
    have hkept := copyEntries_preserves env call (Catalog.stays_hasMetadata dir) admission.contents
      (orderedEntries admission.template.files) 0 Copying.start
      { s with catalog := { s.catalog with tree } } hmetadata
    have hrows := copyEntries_provenance env call s.provenance admission.contents
      (orderedEntries admission.template.files) 0 Copying.start
      { s with catalog := { s.catalog with tree } } rfl
    rw [hcopy] at hkept hrows
    exact ⟨hkept, hrows⟩
  unfold Completes
  rw [hadd]
  have hfit := entriesFit_iff env call admission.contents
    (Finishes env call admission s.provenance) (orderedEntries admission.template.files) 0
    Copying.start { s with catalog := { s.catalog with tree } }
  rw [hfit]
  have hrest : Returns (instantiate env call admission) s ↔
      Returns (fillModel env call admission)
        { s with catalog := { s.catalog with tree } } := by
    unfold instantiate Returns
    rw [bind_run_ok hrun]
  rw [hrest]
  unfold fillModel
  rw [returns_bind]
  constructor
  · intro h
    obtain ⟨copied, after, hcopy, hfinish⟩ := h
    obtain ⟨hkept, hrows⟩ := hreached copied after hcopy
    refine ⟨copied, after, hcopy, ?_⟩
    rw [← hrows]
    exact (finish_returns hdir hkept).mp hfinish
  · intro h
    obtain ⟨copied, after, hcopy, hfinish⟩ := h
    obtain ⟨hkept, hrows⟩ := hreached copied after hcopy
    rw [← hrows] at hfinish
    refine ⟨copied, after, hcopy, ?_⟩
    exact (finish_returns hdir hkept).mpr hfinish

/-! ## Requests -/

/-- The files, what is stored, and the provenance rows are those of the first site. -/
structure Unchanged (s after : Site δ) : Prop where
  tree : ∀ path, after.catalog.tree.at? path = s.catalog.tree.at? path
  stored : after.catalog.stored = s.catalog.stored
  provenance : after.provenance = s.provenance

/-- The site at the start of a request. -/
def Site.begin (s : Site δ) : Site δ :=
  { s with catalog := { s.catalog with session := s.catalog.stored } }

theorem serve_raises {x : Instantiating δ α} {e : Failure} {after : Site δ}
    (h : serve x s = (.error e, after)) :
    ∃ t, x s.begin = (.error e, t) ∧ after.catalog.tree = t.catalog.tree ∧
      after.catalog.stored = t.catalog.stored ∧ after.provenance = s.provenance := by
  unfold serve at h
  split at h
  · cases h
  · rename_i e' t hrun
    obtain ⟨he, hafter⟩ := Prod.mk.inj h
    refine ⟨t, ?_, ?_⟩
    · rw [← Except.error.inj he]
      exact hrun
    · rw [← hafter]
      exact ⟨rfl, rfl, rfl⟩

theorem serve_of_raises {x : Instantiating δ α} {e : Failure} {t : Site δ}
    (h : x s.begin = (.error e, t)) :
    ∃ after, serve x s = (.error e, after) ∧ after.catalog.tree = t.catalog.tree := by
  have hrun : x { s with catalog := { s.catalog with session := s.catalog.stored } } =
      (.error e, t) := h
  unfold serve
  rw [hrun]
  exact ⟨_, rfl, rfl⟩

section Requests

variable {admission : Admission} {dir : TreePath}

/-- A free identifier that resolves has no directory, and its metadata none either. -/
theorem absent_of_free (hfree : Free env call s.catalog.tree)
    (hdir : Catalog.resolvedInsideTenant env.host [call.fullProcessModelId]
      Catalog.modelPathError = .ok dir) :
    s.catalog.tree.at? dir ≠ some .dir ∧
      s.catalog.tree.at? (dir ++ [Catalog.modelJson]) ≠ some .dir := by
  have hnoGroup := hfree.noGroup
  rw [Catalog.isProcessGroupIdentifier_eq hdir] at hnoGroup
  have hisDir := Except.ok.inj hnoGroup
  constructor
  · intro hat
    rw [isDir_iff.mpr (Or.inr hat)] at hisDir
    cases hisDir
  · intro hat
    have hbelow : s.catalog.tree.at? (dir ++ [Catalog.modelJson]) ≠ none := by
      rw [hat]
      exact Option.some_ne_none _
    rw [isDir_of_child hbelow] at hisDir
    cases hisDir

/-- Past the checks the function is what follows them, in the same catalog. -/
theorem create_of_admitted (h : Admitted env req call s admission) :
    ∃ t, Untouched s t ∧
      createProcessModelFromTemplate env req call s = instantiate env call admission t := by
  have hprepare : prepare env req call s = (.ok admission, (prepare env req call s).2) :=
    Prod.ext (prepare_returns_iff.mpr h) rfl
  refine ⟨(prepare env req call s).2, prepare_untouched s ⟨rfl, rfl⟩, ?_⟩
  unfold createProcessModelFromTemplate
  rw [bind_run_ok hprepare]

/-- An admitted call whose directory can be made, and that does not complete, raises and
leaves the directory. -/
theorem leaves_directory (h : Admitted env req call s.begin admission)
    (hdir : Catalog.resolvedInsideTenant env.host [call.fullProcessModelId]
      Catalog.modelPathError = .ok dir)
    (hway : ∀ above ∈ dir.inits, s.catalog.tree.isFile above = false)
    (hfails : ¬ Completes env call admission s.begin.catalog s.provenance) :
    ∃ e after, serve (createProcessModelFromTemplate env req call) s = (.error e, after) ∧
      after.catalog.tree.at? dir = some .dir := by
  obtain ⟨t, ⟨hcatalog, hrows⟩, hcreate⟩ := create_of_admitted h
  have habsent := absent_of_free h.free hdir
  have hway' : ∀ above ∈ dir.inits, t.catalog.tree.isFile above = false := by
    rw [hcatalog]
    exact hway
  have hjson' : t.catalog.tree.at? (dir ++ [Catalog.modelJson]) ≠ some .dir := by
    rw [hcatalog]
    exact habsent.2
  have hnot : ¬ Returns (instantiate env call admission) t := by
    rw [instantiate_returns_iff hdir hway' hjson', hcatalog, hrows]
    exact hfails
  obtain ⟨e, u, hrun⟩ := not_returns hnot
  obtain ⟨tree, hadd, hmetadata⟩ := Catalog.addProcessModel_runs call.processModelInfo hdir hway'
    hjson'
  have hfirst : (onCatalog (Catalog.addProcessModel env.host call.fullProcessModelId
      call.processModelInfo) : Instantiating δ Unit) t =
        (.ok (), { t with catalog := { t.catalog with tree } }) := focus_run_ok hadd
  have hkept : u.catalog.tree.at? dir = some .dir := by
    have hrest := fillModel_preserves (Catalog.stays_dir dir) env call admission
      { t with catalog := { t.catalog with tree } } hmetadata.1
    unfold instantiate at hrun
    rw [bind_run_ok hfirst] at hrun
    rw [hrun] at hrest
    exact hrest
  obtain ⟨after, hserve, htree⟩ := serve_of_raises (hcreate.trans hrun)
  exact ⟨e, after, hserve, by rw [htree, hkept]⟩

/-- The call is refused wherever the directory is there. -/
theorem retry_refused {t : Site δ} (hdir : Catalog.resolvedInsideTenant env.host
      [call.fullProcessModelId] Catalog.modelPathError = .ok dir)
    (hthere : t.catalog.tree.at? dir = some .dir) (req : Request) :
    ¬ ∃ admission, Admitted env req call t admission := by
  intro h
  obtain ⟨admission, hadmitted⟩ := h
  exact (absent_of_free hadmitted.free hdir).1 hthere

/-- Whatever an instantiation raises, the files and what is stored are as before, exactly where
an admitted call whose directory can be made completes. -/
theorem instantiate_keeps_iff (env : Environment δ) (req : Request) (call : Instantiation)
    (s : Site δ) :
    (∀ e after, serve (createProcessModelFromTemplate env req call) s = (.error e, after) →
        Unchanged s after) ↔
      ∀ admission dir, Admitted env req call s.begin admission →
        Catalog.resolvedInsideTenant env.host [call.fullProcessModelId] Catalog.modelPathError =
          .ok dir →
        (∀ above ∈ dir.inits, s.catalog.tree.isFile above = false) →
        Completes env call admission s.begin.catalog s.provenance := by
  constructor
  · intro h admission dir hadmitted hdir hway
    by_contra hfails
    obtain ⟨e, after, hserve, hthere⟩ := leaves_directory hadmitted hdir hway hfails
    rw [(h e after hserve).tree dir] at hthere
    exact (absent_of_free hadmitted.free hdir).1 hthere
  · intro h e after hserve
    obtain ⟨t, hrun, htree, hstored, hrows⟩ := serve_raises hserve
    have hsame : t.catalog = s.begin.catalog → Unchanged s after := by
      intro hcatalog
      refine ⟨fun path => ?_, ?_, hrows⟩
      · rw [htree, hcatalog]
        rfl
      · rw [hstored, hcatalog]
        rfl
    rcases bind_eq_error.mp hrun with hprepare | ⟨admission, u, hprepare, hrest⟩
    · have huntouched : Untouched s.begin (prepare env req call s.begin).2 :=
        prepare_untouched s.begin ⟨rfl, rfl⟩
      rw [hprepare] at huntouched
      exact hsame huntouched.1
    · have hadmitted := prepare_returns_iff.mp (congrArg Prod.fst hprepare)
      obtain ⟨u', ⟨hcatalog, hrows'⟩, hcreate⟩ := create_of_admitted hadmitted
      rw [hcreate] at hrun
      by_cases hmade : ∃ dir, Catalog.resolvedInsideTenant env.host [call.fullProcessModelId]
          Catalog.modelPathError = .ok dir ∧
            ∀ above ∈ dir.inits, s.catalog.tree.isFile above = false
      · obtain ⟨dir, hdir, hway⟩ := hmade
        have hcompletes := h admission dir hadmitted hdir hway
        have hway' : ∀ above ∈ dir.inits, u'.catalog.tree.isFile above = false := by
          rw [hcatalog]
          exact hway
        have hjson' : u'.catalog.tree.at? (dir ++ [Catalog.modelJson]) ≠ some .dir := by
          rw [hcatalog]
          exact (absent_of_free hadmitted.free hdir).2
        have hrows'' : u'.provenance = s.provenance := hrows'
        rw [← hcatalog, ← hrows''] at hcompletes
        obtain ⟨a, v, hreturn⟩ := (instantiate_returns_iff hdir hway' hjson').mpr hcompletes
        rw [hreturn] at hrun
        cases hrun
      · have hrefused : ∀ dir, Catalog.resolvedInsideTenant env.host [call.fullProcessModelId]
            Catalog.modelPathError = .ok dir → ∃ above ∈ dir.inits,
              u'.catalog.tree.isFile above = true := by
          intro dir hdir
          by_contra hnone
          apply hmade
          refine ⟨dir, hdir, fun above hmem => ?_⟩
          rw [← Bool.not_eq_true]
          intro hfile
          exact hnone ⟨above, hmem, by rw [hcatalog]; exact hfile⟩
        obtain ⟨e', hadd⟩ := Catalog.addProcessModel_refused call.processModelInfo hrefused
        have hfirst := @focus_run_error _ _ _ _ _ _ _ Site.catalog
          (fun (s : Site δ) catalog => { s with catalog }) Failure.catalog u' e' hadd
        unfold instantiate onCatalog at hrun
        rw [bind_run_error hfirst] at hrun
        apply hsame
        rw [← (Prod.mk.inj hrun).2]
        exact hcatalog

end Requests

/-! ## A rejected diagram -/

/-- The environment of a host that rejects malformed diagrams. -/
def strictEnvironment : Environment Unit where
  host := Catalog.strictHost
  fuzz _ := "abc1234".toList
  errorText _ := "BPMN XML is malformed".toList
  admitsRow _ := true

/-- A published template with one diagram. -/
def leaveTemplate : TemplateModel where
  id := 1
  templateKey := "leave".toList
  version := "V1".toList
  name := "Leave".toList
  description := none
  tags := none
  category := none
  m8fTenantId := "t1".toList
  visibility := "TENANT".toList
  files := [⟨some "bpmn".toList, some "leave.bpmn".toList⟩]
  isPublished := true
  status := none
  isDeleted := false
  createdBy := "ann".toList
  modifiedBy := "ann".toList

/-- The template's diagram is malformed. -/
def leaveSite : Site Unit where
  templates :=
    { rows := [leaveTemplate], nextId := 2, faults := [],
      disk := fun path =>
        if path = ⟨⟨"t1".toList, "leave".toList, "V1".toList⟩, "leave.bpmn".toList⟩ then
          some [60, 97]
        else none }
  catalog := Catalog.draftOrder
  provenance := []

def instantiateLeave : Instantiation where
  templateId := 1
  processGroupId := "sales".toList
  processModelId := "leave".toList
  displayName := "Leave".toList
  description := none
  tenantId := none
  userId := 1

/-- Instantiate the template once more. -/
def leaveAgain (s : Site Unit) : Except Failure Instantiated × Site Unit :=
  serve (createProcessModelFromTemplate strictEnvironment editorRequest instantiateLeave) s

/-- The code of the error that a request is answered with. -/
def errorCode : Except Failure Instantiated → Option String
  | .error (.template (.api e)) => some e.errorCode
  | _ => none

/-- The instantiation is refused and leaves the directory, and the same call is then refused
because of it. -/
theorem rejected_diagram_leaves_directory :
    ∃ e after, leaveAgain leaveSite = (.error e, after) ∧
      errorCode (.error e) = some "file_write_failed" ∧ ¬ Unchanged leaveSite after ∧
      errorCode (leaveAgain after).1 = some "process_model_exists" := by
  have hcode : errorCode (leaveAgain leaveSite).1 = some "file_write_failed" := by decide +kernel
  have hthere : (leaveAgain leaveSite).2.catalog.tree.isDir ["sales".toList, "leave".toList] =
      true := by decide +kernel
  have habsent : leaveSite.catalog.tree.isDir ["sales".toList, "leave".toList] = false := by
    decide +kernel
  have hagain : errorCode (leaveAgain (leaveAgain leaveSite).2).1 = some "process_model_exists" := by
    decide +kernel
  rcases hrun : leaveAgain leaveSite with ⟨result, after⟩
  rw [hrun] at hcode hthere hagain
  cases result with
  | ok a => cases hcode
  | error e =>
      refine ⟨e, after, rfl, hcode, ?_, hagain⟩
      intro hunchanged
      have hsame := hunchanged.tree ["sales".toList, "leave".toList]
      unfold isDir at hthere habsent
      rw [hsame, habsent] at hthere
      cases hthere

end M8flow.Template
