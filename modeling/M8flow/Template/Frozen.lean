import M8flow.Lib.Run
import M8flow.Template.Service

/-!
# Published versions are frozen

A published version keeps its list of files and the bytes of each of them as
long as every new version gets a directory of its own.

- `RowsInv` says that rows have distinct ids and distinct directories.
- An operation works on the directory of a draft or of a version it is about to
  create; `Working` says that the disk under the published directories is as it
  was before the operation, which also holds where the operation raises.
- `committed_run` is the step lemma, with one lemma per operation before it.

The service itself does not give every version a directory of its own: it writes
the files of a new version before the database compares versions, and the
directory is a sanitised, lossy form of the names.
-/

namespace M8flow.Template

open M8flow.Lib
open M8flow.Lib.Proc

/-! ## What stays -/

/-- What is frozen in a published row, beside the bytes of its files. -/
def TemplateModel.frozen (row : TemplateModel) :
    Nat × (Text × Text × Text) × List FileEntry × Bool :=
  (row.id, row.uniqueKey, row.files, row.isPublished)

theorem dir_eq_of_uniqueKey {row row' : TemplateModel} (h : row.uniqueKey = row'.uniqueKey) :
    row.dir = row'.dir := by
  simp only [TemplateModel.uniqueKey, Prod.mk.injEq] at h
  obtain ⟨htenant, hkey, hversion⟩ := h
  unfold TemplateModel.dir
  rw [htenant, hkey, hversion]

/-- A published version has its files under the directory. -/
def World.Published (w : World) (dir : VersionDir) : Prop :=
  ∃ row ∈ w.rows, row.isPublished ∧ row.dir = some dir

/-- The files of every version published in `before` are as they were. -/
def DiskKept (before w : World) : Prop :=
  ∀ path, before.Published path.dir → w.disk path = before.disk path

/-- Every published row of the first table is in the second, with the same files. -/
def RowsKept (rows rows' : List TemplateModel) : Prop :=
  ∀ row ∈ rows, row.isPublished → ∃ row' ∈ rows', row'.frozen = row.frozen

/-- Rows have ids of their own and directories of their own. -/
structure RowsInv (rows : List TemplateModel) (nextId : Nat) : Prop where
  ids : (rows.map TemplateModel.id).Nodup
  fresh : ∀ row ∈ rows, row.id < nextId
  dirs : ∀ row ∈ rows, ∀ row' ∈ rows, ∀ dir, row.dir = some dir → row'.dir = some dir →
    row.id = row'.id

/-- What an operation that returns has done. -/
structure Committed (before w : World) : Prop where
  disk : DiskKept before w
  rows : RowsKept before.rows w.rows
  inv : RowsInv w.rows w.nextId

/-- An operation is under way: the session shows `rows`, and the published files
are as they were. -/
structure Working (before : World) (rows : List TemplateModel) (nextId : Nat) (w : World) :
    Prop where
  rows : w.rows = rows
  nextId : w.nextId = nextId
  disk : DiskKept before w

theorem rowsKept_refl (rows : List TemplateModel) : RowsKept rows rows :=
  fun row hmem _ => ⟨row, hmem, rfl⟩

theorem eq_of_id {rows : List TemplateModel} {nextId : Nat} (hinv : RowsInv rows nextId)
    {row row' : TemplateModel} (h : row ∈ rows) (h' : row' ∈ rows) (hid : row.id = row'.id) :
    row = row' := by
  have hlook := Table.lookup_of_mem hinv.ids h
  have hlook' := Table.lookup_of_mem hinv.ids h'
  rw [hid, hlook'] at hlook
  exact (Option.some.inj hlook).symm

/-! ## Rows -/

section Rows

variable {rows : List TemplateModel} {nextId : Nat} {f : TemplateModel → TemplateModel}

theorem mem_updateAt {id : Nat} {row : TemplateModel}
    (h : row ∈ Table.updateAt TemplateModel.id id f rows) :
    ∃ old ∈ rows, row = if old.id = id then f old else old := by
  obtain ⟨old, hold, rfl⟩ := List.mem_map.mp h
  refine ⟨old, hold, ?_⟩
  simp only [decide_eq_true_eq]

theorem updateAt_mem {id : Nat} {old : TemplateModel} (h : old ∈ rows) :
    (if old.id = id then f old else old) ∈ Table.updateAt TemplateModel.id id f rows := by
  refine List.mem_map.mpr ⟨old, h, ?_⟩
  simp only [decide_eq_true_eq]

/-- Saving a row keeps the invariant if ids and versions stay. -/
theorem rowsInv_updateAt (hinv : RowsInv rows nextId) (id : Nat)
    (hid : ∀ row, (f row).id = row.id) (hkey : ∀ row, (f row).uniqueKey = row.uniqueKey) :
    RowsInv (Table.updateAt TemplateModel.id id f rows) nextId := by
  have hsame : ∀ old : TemplateModel, (if old.id = id then f old else old).id = old.id ∧
      (if old.id = id then f old else old).dir = old.dir := by
    intro old
    split
    · exact ⟨hid old, dir_eq_of_uniqueKey (hkey old)⟩
    · exact ⟨rfl, rfl⟩
  constructor
  · have hids : (Table.updateAt TemplateModel.id id f rows).map TemplateModel.id =
        rows.map TemplateModel.id := Table.keys_updateWhere hid rows
    rw [hids]
    exact hinv.ids
  · intro row hmem
    obtain ⟨old, hold, rfl⟩ := mem_updateAt hmem
    rw [(hsame old).1]
    exact hinv.fresh old hold
  · intro row hmem row' hmem' dir hdir hdir'
    obtain ⟨old, hold, rfl⟩ := mem_updateAt hmem
    obtain ⟨old', hold', rfl⟩ := mem_updateAt hmem'
    rw [(hsame old).2] at hdir
    rw [(hsame old').2] at hdir'
    rw [(hsame old).1, (hsame old').1]
    exact hinv.dirs old hold old' hold' dir hdir hdir'

/-- Saving a row keeps the published ones, if it is not one of them or what is
frozen in it stays. -/
theorem rowsKept_updateAt {before : List TemplateModel} (hkept : RowsKept before rows) (id : Nat)
    (h : ∀ row ∈ before, row.isPublished → row.id = id → ∀ row', (f row').frozen = row'.frozen) :
    RowsKept before (Table.updateAt TemplateModel.id id f rows) := by
  intro row hmem hpublished
  obtain ⟨row', hmem', hfrozen⟩ := hkept row hmem hpublished
  refine ⟨_, updateAt_mem hmem', ?_⟩
  split
  · rename_i hid
    have hids : row'.id = row.id := congrArg Prod.fst hfrozen
    rw [h row hmem hpublished (by rw [← hids]; exact hid), hfrozen]
  · exact hfrozen

theorem rowsInv_filter (hinv : RowsInv rows nextId) (p : TemplateModel → Bool) :
    RowsInv (rows.filter p) nextId := by
  constructor
  · exact (List.filter_sublist.map TemplateModel.id).nodup hinv.ids
  · intro row hmem
    exact hinv.fresh row (List.mem_filter.mp hmem).1
  · intro row hmem row' hmem'
    exact hinv.dirs row (List.mem_filter.mp hmem).1 row' (List.mem_filter.mp hmem').1

/-- A new row with a directory that no row has keeps the invariant. -/
theorem rowsInv_append (hinv : RowsInv rows nextId) {row : TemplateModel}
    (hid : row.id = nextId)
    (hdir : ∀ dir, row.dir = some dir → ∀ other ∈ rows, other.dir ≠ some dir) :
    RowsInv (rows ++ [row]) (nextId + 1) := by
  constructor
  · rw [List.map_append, List.nodup_append]
    refine ⟨hinv.ids, List.pairwise_singleton _ _, ?_⟩
    intro id hmem id' hmem' heq
    obtain ⟨old, hold, hold'⟩ := List.mem_map.mp hmem
    have hlt := hinv.fresh old hold
    have hnew : id' = row.id := List.mem_singleton.mp hmem'
    omega
  · intro other hmem
    rcases List.mem_append.mp hmem with hold | hnew
    · have hlt := hinv.fresh other hold
      omega
    · rw [List.mem_singleton.mp hnew, hid]
      omega
  · intro first hfirst second hsecond dir hdir1 hdir2
    rcases List.mem_append.mp hfirst with hold1 | hnew1
    · rcases List.mem_append.mp hsecond with hold2 | hnew2
      · exact hinv.dirs first hold1 second hold2 dir hdir1 hdir2
      · rw [List.mem_singleton.mp hnew2] at hdir2
        exact absurd hdir1 (hdir dir hdir2 first hold1)
    · rcases List.mem_append.mp hsecond with hold2 | hnew2
      · rw [List.mem_singleton.mp hnew1] at hdir1
        exact absurd hdir2 (hdir dir hdir1 second hold2)
      · rw [List.mem_singleton.mp hnew1, List.mem_singleton.mp hnew2]

end Rows

/-- The maximum of a list of rows is one of them. -/
theorem mem_of_maxVersion {rows : List TemplateModel} {best : TemplateModel × VersionKey}
    {latest : TemplateModel} (h : maxVersion rows best = .ok latest) : latest ∈ best.1 :: rows := by
  induction rows generalizing best with
  | nil =>
      cases h
      exact List.mem_cons_self
  | cons row rows ih =>
      unfold maxVersion at h
      cases hkey : versionKey row.version with
      | error e =>
          rw [hkey] at h
          cases h
      | ok key =>
          rw [hkey] at h
          have hmem := ih h
          split at hmem
          · exact List.mem_cons_of_mem _ hmem
          · rcases List.mem_cons.mp hmem with hbest | hrest
            · rw [hbest]
              exact List.mem_cons_self
            · exact List.mem_cons_of_mem _ (List.mem_cons_of_mem _ hrest)

/-! ## Drafts -/

/-- No published version has its files where this version has its own. -/
def Writable (before : World) (tenantId templateKey version : Text) : Prop :=
  ∀ dir, versionDir tenantId templateKey version = .ok dir → ¬ before.Published dir

/-- A version that the operation may write to: a draft of `before`, or one that is new. -/
structure Draft (before : World) (rows : List TemplateModel) (nextId : Nat)
    (target : TemplateModel) : Prop where
  inv : RowsInv rows nextId
  kept : RowsKept before.rows rows
  writable : Writable before target.m8fTenantId target.templateKey target.version
  unpublished : ∀ row ∈ before.rows, row.isPublished → row.id ≠ target.id

theorem dir_of_versionDir {row : TemplateModel} {dir : VersionDir}
    (h : versionDir row.m8fTenantId row.templateKey row.version = .ok dir) :
    row.dir = some dir := by
  unfold TemplateModel.dir
  rw [h]
  rfl

/-- An unpublished row is a draft to write to. -/
theorem draft_of_unpublished {before : World} (hinv : RowsInv before.rows before.nextId)
    {target : TemplateModel} (hmem : target ∈ before.rows) (h : target.isPublished = false) :
    Draft before before.rows before.nextId target := by
  have hother : ∀ row ∈ before.rows, row.isPublished → row.id ≠ target.id := by
    intro row hrow hpublished hid
    rw [eq_of_id hinv hrow hmem hid, h] at hpublished
    cases hpublished
  refine ⟨hinv, rowsKept_refl _, ?_, hother⟩
  intro dir hdir ⟨row, hrow, hpublished, hrowDir⟩
  have hid := hinv.dirs row hrow target hmem dir hrowDir (dir_of_versionDir hdir)
  exact hother row hrow hpublished hid

/-! ## Storage -/

section Specs

variable {before : World} {rows : List TemplateModel} {nextId : Nat}

theorem working_start (w : World) (faults : List (Option Fault)) :
    Working w w.rows w.nextId { w with faults := faults } :=
  ⟨rfl, rfl, fun _ _ => rfl⟩

theorem working_nextFault {post : Option Fault → World → Prop} {exc : Raised → World → Prop}
    (h : ∀ fault w, Working before rows nextId w → post fault w) :
    Triple (Working before rows nextId) nextFault post exc := by
  intro w hw
  unfold nextFault
  cases hfaults : w.faults with
  | nil => exact h none w hw
  | cons fault faults => exact h fault _ ⟨hw.rows, hw.nextId, hw.disk⟩

/-- Writing outside the published directories keeps them. -/
theorem working_write {w : World} (hw : Working before rows nextId w) {path : Path}
    (hpath : ¬ before.Published path.dir) (content : Option Bytes) :
    Working before rows nextId (w.write path content) := by
  refine ⟨hw.rows, hw.nextId, ?_⟩
  intro other hother
  show (if other = path then content else w.disk other) = before.disk other
  have hne : other ≠ path := by
    rintro rfl
    exact hpath hother
  rw [if_neg hne]
  exact hw.disk other hother

theorem working_ofExcept {α δ : Type} {wrap : δ → Raised} {check : Except δ α} :
    Triple (Working before rows nextId) (Proc.ofExcept wrap check)
      (fun a w => check = .ok a ∧ Working before rows nextId w)
      (fun _ => Working before rows nextId) :=
  Triple.ofExcept (fun _ _ hcheck hw => ⟨hcheck, hw⟩) fun _ _ _ hw => hw

theorem working_raise {α : Type} {e : Raised} {post : α → World → Prop} :
    Triple (Working before rows nextId) (Proc.raise e) post
      (fun _ => Working before rows nextId) :=
  Triple.raise fun _ hw => hw

/-- The session shows the rows of the operation. -/
theorem working_read {α : Type} {f : World → Service α} {post : α → World → Prop}
    {exc : Raised → World → Prop}
    (h : ∀ w, w.rows = rows → w.nextId = nextId →
      Triple (Working before rows nextId) (f w) post exc) :
    Triple (Working before rows nextId) (Proc.read >>= f) post exc := by
  refine Triple.bind (fun w w' => (w.rows = rows ∧ w.nextId = nextId) ∧
    Working before rows nextId w') ?_ ?_
  · exact Triple.read fun w hw => ⟨⟨hw.rows, hw.nextId⟩, hw⟩
  · intro w
    exact Triple.assume fun hfacts => h w hfacts.1 hfacts.2

theorem storeFile_spec {tenantId templateKey version : Text}
    (hwritable : Writable before tenantId templateKey version) (fileName : Text)
    (content : Bytes) :
    Triple (Working before rows nextId) (storeFile tenantId templateKey version fileName content)
      (fun _ => Working before rows nextId) (fun _ => Working before rows nextId) := by
  unfold storeFile
  refine Triple.bind _ working_ofExcept fun path => Triple.assume fun hpath => ?_
  have hdir : ¬ before.Published path.dir := hwritable _ (dir_of_filePath hpath)
  refine Triple.bind (fun _ => Working before rows nextId) (working_nextFault fun _ _ hw => hw) ?_
  intro fault
  cases fault with
  | none => exact Triple.modify fun w hw => working_write hw hdir _
  | some fault =>
      refine Triple.bind (fun _ => Working before rows nextId) ?_ fun _ => working_raise
      refine Triple.modify fun w hw => ?_
      cases fault.left with
      | none => exact hw
      | some left => exact working_write hw hdir _

theorem getFile_spec (tenantId templateKey version fileName : Text) :
    Triple (Working before rows nextId) (getFile tenantId templateKey version fileName)
      (fun _ => Working before rows nextId) (fun _ => Working before rows nextId) := by
  unfold getFile
  refine Triple.bind _ working_ofExcept fun path => Triple.assume fun _ => ?_
  refine working_read fun w _ _ => ?_
  cases w.disk path with
  | none => exact working_raise
  | some content =>
      refine Triple.bind (fun _ => Working before rows nextId)
        (working_nextFault fun _ _ hw => hw) ?_
      intro fault
      cases fault with
      | none => exact Triple.pure fun _ hw => hw
      | some fault => exact working_raise

theorem deleteFile_spec {tenantId templateKey version : Text}
    (hwritable : Writable before tenantId templateKey version) (fileName : Text) :
    Triple (Working before rows nextId) (deleteFile tenantId templateKey version fileName)
      (fun _ => Working before rows nextId) (fun _ => Working before rows nextId) := by
  unfold deleteFile
  refine Triple.bind _ working_ofExcept fun path => Triple.assume fun hpath => ?_
  have hdir : ¬ before.Published path.dir := hwritable _ (dir_of_filePath hpath)
  refine working_read fun w _ _ => ?_
  cases w.disk path with
  | none => exact Triple.pure fun _ hw => hw
  | some content =>
      refine Triple.bind (fun _ => Working before rows nextId)
        (working_nextFault fun _ _ hw => hw) ?_
      intro fault
      cases fault with
      | none => exact Triple.modify fun w hw => working_write hw hdir _
      | some fault => exact working_raise

/-- A deletion whose failure is only logged. -/
theorem tryDelete_spec {tenantId templateKey version : Text}
    (hwritable : Writable before tenantId templateKey version) (fileName : Text) :
    Triple (Working before rows nextId)
      (Proc.tryExcept (deleteFile tenantId templateKey version fileName) fun _ => pure ())
      (fun _ => Working before rows nextId) (fun _ => Working before rows nextId) := by
  refine Triple.tryExcept (fun _ => Working before rows nextId)
    (deleteFile_spec hwritable fileName) ?_
  intro _
  exact Triple.pure fun _ hw => hw

theorem storeFiles_spec {tenantId templateKey version : Text}
    (hwritable : Writable before tenantId templateKey version) (files : List (Text × Bytes)) :
    Triple (Working before rows nextId) (storeFiles tenantId templateKey version files)
      (fun _ => Working before rows nextId) (fun _ => Working before rows nextId) := by
  induction files with
  | nil => exact Triple.pure fun _ hw => hw
  | cons file files ih =>
      unfold storeFiles
      refine Triple.bind (fun _ => Working before rows nextId)
        (storeFile_spec hwritable _ _) fun _ => ?_
      refine Triple.bind (fun _ => Working before rows nextId) ih fun _ => ?_
      exact Triple.pure fun _ hw => hw

theorem copyFiles_spec {tenantId templateKey next : Text}
    (hwritable : Writable before tenantId templateKey next) (version : Text)
    (files : List FileEntry) :
    Triple (Working before rows nextId) (copyFiles tenantId templateKey version next files)
      (fun _ => Working before rows nextId) (fun _ => Working before rows nextId) := by
  induction files with
  | nil => exact Triple.pure fun _ hw => hw
  | cons entry files ih =>
      unfold copyFiles
      split
      · exact ih
      · refine Triple.bind (fun _ => Working before rows nextId) ?_ fun _ => ?_
        · refine Triple.tryExcept (fun _ => Working before rows nextId) ?_ ?_
          · refine Triple.bind (fun _ => Working before rows nextId)
              (getFile_spec _ _ _ _) fun content => ?_
            refine Triple.bind (fun _ => Working before rows nextId)
              (storeFile_spec hwritable _ _) fun _ => ?_
            exact Triple.pure fun _ hw => hw
          · intro e
            cases e with
            | api e => exact Triple.pure fun _ hw => hw
            | valueError => exact working_raise
            | integrityError => exact working_raise
        · refine Triple.bind (fun _ => Working before rows nextId) ih fun _ => ?_
          exact Triple.pure fun _ hw => hw

theorem deleteFiles_spec {template : TemplateModel}
    (hwritable : Writable before template.m8fTenantId template.templateKey template.version)
    (files : List FileEntry) :
    Triple (Working before rows nextId) (deleteFiles template files)
      (fun _ => Working before rows nextId) (fun _ => Working before rows nextId) := by
  induction files with
  | nil => exact Triple.pure fun _ hw => hw
  | cons entry files ih =>
      unfold deleteFiles
      split
      · exact ih
      · refine Triple.bind (fun _ => Working before rows nextId)
          (tryDelete_spec hwritable _) fun _ => ?_
        exact ih

theorem writeBpmn_spec {template : TemplateModel}
    (hwritable : Writable before template.m8fTenantId template.templateKey template.version)
    (content : Bytes) (bpmnFileName : Option Text) :
    Triple (Working before rows nextId) (writeBpmn template content bpmnFileName)
      (fun _ => Working before rows nextId) (fun _ => Working before rows nextId) := by
  unfold writeBpmn
  split
  · refine Triple.bind (fun _ => Working before rows nextId)
      (storeFile_spec hwritable _ _) fun _ => ?_
    split
    · exact Triple.pure fun _ hw => hw
    · exact Triple.pure fun _ hw => hw
  · split
    · refine Triple.bind (fun _ => Working before rows nextId)
        (storeFile_spec hwritable _ _) fun _ => ?_
      exact Triple.pure fun _ hw => hw
    · refine Triple.bind (fun _ => Working before rows nextId)
        (storeFile_spec hwritable _ _) fun _ => ?_
      exact Triple.pure fun _ hw => hw

theorem writeRequestedBpmn_spec {template : TemplateModel}
    (hwritable : Writable before template.m8fTenantId template.templateKey template.version)
    (bpmnBytes : Option Bytes) (bpmnFileName : Option Text) :
    Triple (Working before rows nextId) (writeRequestedBpmn template bpmnBytes bpmnFileName)
      (fun _ => Working before rows nextId) (fun _ => Working before rows nextId) := by
  unfold writeRequestedBpmn
  split
  · exact writeBpmn_spec hwritable _ _
  · exact Triple.pure fun _ hw => hw

/-! ## Rows of the session -/

/-- An operation that raises leaves the disk kept; the session rolls back. -/
theorem disk_raise {α : Type} {e : Raised} {post : α → World → Prop} :
    Triple (Working before rows nextId) (Proc.raise e) post (fun _ => DiskKept before) :=
  Triple.raise fun _ hw => hw.disk

/-- Weaken what a procedure says of raising to what the step needs. -/
theorem disk_of_working {α : Type} {x : Service α} {post : α → World → Prop}
    (h : Triple (Working before rows nextId) x post (fun _ => Working before rows nextId)) :
    Triple (Working before rows nextId) x post (fun _ => DiskKept before) :=
  h.consequence (fun _ hw => hw) (fun _ _ hpost => hpost) fun _ _ hw => hw.disk

theorem getTemplateById_spec (req : Request) (templateId : Nat) (includeDeleted : Bool) :
    Triple (Working before rows nextId) (getTemplateById req templateId includeDeleted)
      (fun found w =>
        (∀ template, found = some template →
          Table.lookup TemplateModel.id rows templateId = some template) ∧
        Working before rows nextId w)
      (fun _ => DiskKept before) := by
  unfold getTemplateById
  refine working_read fun w hrows _ => ?_
  unfold World.row
  rw [hrows]
  cases hlook : Table.lookup TemplateModel.id rows templateId with
  | none => exact Triple.pure fun _ hw => ⟨nofun, hw⟩
  | some template =>
      simp only
      split
      · exact Triple.pure fun _ hw => ⟨nofun, hw⟩
      · exact Triple.pure fun _ hw => ⟨fun _ h => h, hw⟩

theorem getTemplate_spec (req : Request) (templateKey version : Text) :
    Triple (Working before rows nextId) (getTemplate req templateKey version)
      (fun found w => (∀ template, found = some template → template ∈ rows) ∧
        Working before rows nextId w)
      (fun _ => DiskKept before) := by
  unfold getTemplate
  refine working_read fun w hrows _ => ?_
  rw [hrows]
  split
  · refine Triple.pure fun w hw => ⟨fun template h => ?_, hw⟩
    exact (List.mem_filter.mp (List.mem_of_find?_eq_some h)).1
  · dsimp only
    split
    · exact Triple.pure fun _ hw => ⟨nofun, hw⟩
    · rename_i row others hfilter
      refine Triple.bind _ (disk_of_working working_ofExcept) fun key =>
        Triple.assume fun _ => ?_
      refine Triple.bind _ (disk_of_working working_ofExcept) fun latest =>
        Triple.assume fun hlatest => ?_
      refine Triple.pure fun w hw => ⟨fun template h => ?_, hw⟩
      cases h
      have hmem := mem_of_maxVersion hlatest
      rw [← hfilter] at hmem
      exact (List.mem_filter.mp hmem).1

theorem committed_of_working {w : World} (hinv : RowsInv rows nextId)
    (hkept : RowsKept before.rows rows) (hw : Working before rows nextId w) :
    Committed before w :=
  ⟨hw.disk, by rw [hw.rows]; exact hkept, by rw [hw.rows, hw.nextId]; exact hinv⟩

theorem committed_of_draft {target : TemplateModel} {w : World}
    (hdraft : Draft before rows nextId target) (hw : Working before rows nextId w) :
    Committed before w :=
  committed_of_working hdraft.inv hdraft.kept hw

theorem saveRow_working (id : Nat) (f : TemplateModel → TemplateModel)
    {exc : Raised → World → Prop} :
    Triple (Working before rows nextId) (saveRow id f)
      (fun _ => Working before (Table.updateAt TemplateModel.id id f rows) nextId) exc := by
  refine Triple.modify fun w hw => ⟨?_, hw.nextId, hw.disk⟩
  show Table.updateAt TemplateModel.id id f w.rows = _
  rw [hw.rows]

/-- Saving a row of which nothing frozen changes commits. -/
theorem saveRow_spec (hinv : RowsInv rows nextId) (hkept : RowsKept before.rows rows) (id : Nat)
    {f : TemplateModel → TemplateModel} (hfrozen : ∀ row, (f row).frozen = row.frozen) :
    Triple (Working before rows nextId) (saveRow id f) (fun _ => Committed before)
      (fun _ => DiskKept before) := by
  have hid : ∀ row, (f row).id = row.id := fun row => congrArg Prod.fst (hfrozen row)
  have hkey : ∀ row, (f row).uniqueKey = row.uniqueKey := fun row =>
    congrArg (fun frozen => frozen.2.1) (hfrozen row)
  refine (saveRow_working id f).consequence (fun _ hw => hw) ?_ fun _ _ hexc => hexc
  intro _ w hw
  refine committed_of_working (rowsInv_updateAt hinv id hid hkey) ?_ hw
  exact rowsKept_updateAt hkept id fun _ _ _ _ => hfrozen

/-- A saved draft is still a draft. -/
theorem draft_updateAt {target : TemplateModel} (hdraft : Draft before rows nextId target)
    {f : TemplateModel → TemplateModel}
    (hid : ∀ row, (f row).id = row.id) (hkey : ∀ row, (f row).uniqueKey = row.uniqueKey) :
    Draft before (Table.updateAt TemplateModel.id target.id f rows) nextId target := by
  refine ⟨rowsInv_updateAt hdraft.inv target.id hid hkey, ?_, hdraft.writable,
    hdraft.unpublished⟩
  apply rowsKept_updateAt hdraft.kept
  intro row hmem hpublished hsame
  exact absurd hsame (hdraft.unpublished row hmem hpublished)

/-- Saving a draft commits. -/
theorem saveDraft_spec {target : TemplateModel} (hdraft : Draft before rows nextId target)
    {f : TemplateModel → TemplateModel}
    (hid : ∀ row, (f row).id = row.id) (hkey : ∀ row, (f row).uniqueKey = row.uniqueKey) :
    Triple (Working before rows nextId) (saveRow target.id f) (fun _ => Committed before)
      (fun _ => DiskKept before) := by
  have hsaved := draft_updateAt hdraft hid hkey
  refine (saveRow_working target.id f).consequence (fun _ hw => hw) ?_ fun _ _ hexc => hexc
  intro _ w hw
  exact committed_of_draft hsaved hw

/-- Deleting a draft commits. -/
theorem removeRow_spec {target : TemplateModel} (hdraft : Draft before rows nextId target) :
    Triple (Working before rows nextId) (removeRow target.id) (fun _ => Committed before)
      (fun _ => DiskKept before) := by
  refine Triple.modify fun w hw => ⟨hw.disk, ?_, ?_⟩
  · intro row hmem hpublished
    obtain ⟨row', hmem', hfrozen⟩ := hdraft.kept row hmem hpublished
    have hids : row'.id = row.id := congrArg Prod.fst hfrozen
    refine ⟨row', List.mem_filter.mpr ⟨?_, ?_⟩, hfrozen⟩
    · rw [hw.rows]
      exact hmem'
    · rw [hids]
      simpa using hdraft.unpublished row hmem hpublished
  · show RowsInv (w.rows.filter fun row => row.id ≠ target.id) w.nextId
    rw [hw.rows, hw.nextId]
    exact rowsInv_filter hdraft.inv _

/-! ## New versions -/

/-- No row has the directory of the version, a draft of this very version apart. -/
def DirFree (w : World) (tenantId templateKey version : Text) : Prop :=
  ∀ dir ∈ (versionDir tenantId templateKey version).toOption, ∀ row ∈ w.rows,
    row.dir = some dir →
      row.uniqueKey = (tenantId, templateKey, version) ∧ row.isPublished = false

theorem writable_of_dirFree {tenantId templateKey version : Text}
    (hfree : DirFree before tenantId templateKey version) :
    Writable before tenantId templateKey version := by
  intro dir hdir ⟨row, hmem, hpublished, hrowDir⟩
  have hmemDir : dir ∈ (versionDir tenantId templateKey version).toOption := by
    rw [hdir]
    rfl
  have hunpublished := (hfree dir hmemDir row hmem hrowDir).2
  rw [hunpublished] at hpublished
  cases hpublished

/-- A row that the database accepts, in a directory that is free, is a new draft or
a new published version; either way no version of `before` is touched. -/
theorem insertRow_spec (hinv : RowsInv before.rows before.nextId) {row : TemplateModel}
    (hfree : DirFree before row.m8fTenantId row.templateKey row.version) :
    Triple (Working before before.rows before.nextId) (insertRow row)
      (fun target w => Draft before (before.rows ++ [target]) (before.nextId + 1) target ∧
        Working before (before.rows ++ [target]) (before.nextId + 1) w)
      (fun _ => Working before before.rows before.nextId) := by
  unfold insertRow
  refine working_read fun w hrows hnext => ?_
  rw [hrows, hnext]
  split
  · exact working_raise
  · rename_i hunique
    have hnew : ∀ dir, row.dir = some dir → ∀ other ∈ before.rows, other.dir ≠ some dir := by
      intro dir hdir other hother hotherDir
      have hsame := (hfree dir hdir other hother hotherDir).1
      apply hunique
      refine List.any_eq_true.mpr ⟨other, hother, ?_⟩
      simpa [TemplateModel.uniqueKey] using hsame
    have hdraft : Draft before (before.rows ++ [{ row with id := before.nextId }])
        (before.nextId + 1) { row with id := before.nextId } := by
      refine ⟨rowsInv_append hinv rfl hnew, ?_, writable_of_dirFree hfree, ?_⟩
      · intro old hold _
        exact ⟨old, List.mem_append_left _ hold, rfl⟩
      · intro old hold _ hid
        have hlt := hinv.fresh old hold
        simp only at hid
        omega
    refine Triple.bind (fun _ => Working before
      (before.rows ++ [{ row with id := before.nextId }]) (before.nextId + 1)) ?_ fun _ => ?_
    · refine Triple.modify fun w hw => ?_
      refine ⟨?_, ?_, hw.disk⟩
      · show w.rows ++ [{ row with id := before.nextId }] = _
        rw [hw.rows]
      · show w.nextId + 1 = _
        rw [hw.nextId]
    · exact Triple.pure fun w hw => ⟨hdraft, hw⟩

theorem existingDraft_spec {key tenant : Text} {draft : TemplateModel}
    (h : existingDraft rows key tenant = some draft) :
    draft ∈ rows ∧ draft.isPublished = false := by
  have hmem := List.mem_filter.mp (List.argmax_mem h)
  refine ⟨hmem.1, ?_⟩
  have hcond := hmem.2
  simp only [decide_eq_true_eq] at hcond
  exact hcond.2.2.1

/-- An edit of a published version has a directory to make its draft in. -/
def DraftFree (w : World) (published : TemplateModel) : Prop :=
  existingDraft w.rows published.templateKey published.m8fTenantId = none →
    ∀ version ∈ (nextVersion w.rows published.templateKey published.m8fTenantId).toOption,
      DirFree w published.m8fTenantId published.templateKey version

theorem mem_toOption {ε α : Type} {x : Except ε α} {a : α} (h : x = .ok a) : a ∈ x.toOption := by
  rw [h]
  rfl

theorem getOrCreateDraftVersion_spec (hinv : RowsInv before.rows before.nextId) (req : Request)
    {published : TemplateModel} (hfree : DraftFree before published) :
    Triple (Working before before.rows before.nextId) (getOrCreateDraftVersion req published)
      (fun target w => ∃ rows nextId, Draft before rows nextId target ∧
        Working before rows nextId w)
      (fun _ => DiskKept before) := by
  unfold getOrCreateDraftVersion
  refine working_read fun w hrows _ => ?_
  rw [hrows]
  split
  · rename_i draft hdraft
    obtain ⟨hmem, hunpublished⟩ := existingDraft_spec hdraft
    exact Triple.pure fun w hw => ⟨_, _, draft_of_unpublished hinv hmem hunpublished, hw⟩
  · rename_i hnone
    refine Triple.bind _ (disk_of_working working_ofExcept) fun next =>
      Triple.assume fun hnext => ?_
    have hdir := hfree hnone next (mem_toOption hnext)
    refine Triple.bind (fun _ => Working before before.rows before.nextId)
      (disk_of_working (copyFiles_spec (writable_of_dirFree hdir) _ _)) fun newFiles => ?_
    split
    · exact disk_raise
    · refine (insertRow_spec hinv hdir).consequence (fun _ hw => hw) ?_ fun _ _ hw => hw.disk
      intro target w hpost
      exact ⟨_, _, hpost⟩

/-! ## Creating -/

/-- A creation has a directory of its own for the version it chooses. -/
def CreationFree (w : World) (req : Request) (metadata : Metadata) (tenantId : Option Text) :
    Prop :=
  ∀ tenant ∈ req.tenantFor tenantId, ∀ key ∈ truthy metadata.templateKey,
    ∀ version ∈ (chosenVersion w.rows metadata key tenant).toOption,
      DirFree w tenant key version

theorem working_conflictOr {α : Type} (e : Raised) {post : α → World → Prop} :
    Triple (Working before rows nextId) (conflictOr e) post (fun _ => DiskKept before) := by
  cases e with
  | api e => exact disk_raise
  | valueError => exact disk_raise
  | integrityError => exact disk_raise

theorem createVersion_spec (hinv : RowsInv before.rows before.nextId) (req : Request)
    (metadata : Metadata) {tenant templateKey version : Text} (name : Text)
    (hfree : DirFree before tenant templateKey version) (files : List (Text × Bytes)) :
    Triple (Working before before.rows before.nextId)
      (createVersion req metadata tenant templateKey name version files)
      (fun _ => Committed before) (fun _ => DiskKept before) := by
  unfold createVersion
  split
  · exact disk_raise
  · refine Triple.bind (fun _ => Working before before.rows before.nextId)
      (disk_of_working (storeFiles_spec (writable_of_dirFree hfree) files)) fun entries => ?_
    split
    · exact disk_raise
    · refine Triple.tryExcept (fun _ => Working before before.rows before.nextId) ?_
        fun e => working_conflictOr e
      refine (insertRow_spec hinv hfree).consequence (fun _ hw => hw) ?_ fun _ _ hw => hw
      intro target w hpost
      exact committed_of_draft hpost.1 hpost.2

theorem createTemplateWithFiles_spec (hinv : RowsInv before.rows before.nextId) (req : Request)
    (metadata : Option Metadata) (files : List (Text × Bytes)) (tenantId : Option Text)
    (hfree : ∀ given ∈ metadata, CreationFree before req given tenantId) :
    Triple (Working before before.rows before.nextId)
      (createTemplateWithFiles req metadata files tenantId)
      (fun _ => Committed before) (fun _ => DiskKept before) := by
  unfold createTemplateWithFiles
  split
  · exact disk_raise
  · split
    · exact disk_raise
    · split
      · exact disk_raise
      · exact disk_raise
      · rename_i tenant given htenant
        split
        · rename_i templateKey name hkey hname
          refine Triple.bind _ (disk_of_working working_ofExcept) fun _ =>
            Triple.assume fun _ => ?_
          refine working_read fun w hrows _ => ?_
          rw [hrows]
          split
          · exact disk_raise
          · refine Triple.bind _ (disk_of_working working_ofExcept) fun version =>
              Triple.assume fun hversion => ?_
            apply createVersion_spec hinv
            exact hfree given rfl tenant htenant templateKey hkey version (mem_toOption hversion)
        · exact disk_raise

/-- The next version is one of the V-series. -/
theorem nextVersion_eq_vVersion {templateKey tenant version : Text}
    (h : nextVersion rows templateKey tenant = .ok version) : ∃ number, version = vVersion number := by
  unfold nextVersion at h
  split at h
  · cases h
    exact ⟨1, rfl⟩
  · rename_i row others _
    cases hfirst : versionKey row.version with
    | error e =>
        rw [hfirst] at h
        cases h
    | ok first =>
        rw [hfirst] at h
        simp only [bind, Except.bind] at h
        split at h
        · cases h
        · split at h
          · cases h
          · split at h
            · split at h
              · cases h
                exact ⟨_, rfl⟩
              · cases h
            · cases h
              exact ⟨1, rfl⟩

/-- A version that was chosen is not blank. -/
theorem chosenVersion_ne_nil {metadata : Metadata} {key tenant version : Text}
    (h : chosenVersion rows metadata key tenant = .ok version) : version ≠ [] := by
  unfold chosenVersion at h
  split at h
  · rename_i found htruthy
    cases h
    exact of_decide_eq_true (Option.filter_eq_some_iff.mp htruthy).2
  · obtain ⟨number, hnumber⟩ := nextVersion_eq_vVersion h
    rw [hnumber]
    exact List.cons_ne_nil _ _

/-- An import passes on the version it chose. -/
theorem chosenVersion_again {metadata : Metadata} {key tenant version : Text}
    (h : chosenVersion rows metadata key tenant = .ok version) (rows' : List TemplateModel) :
    chosenVersion rows' { metadata with version := some version } key tenant = .ok version := by
  have hne := chosenVersion_ne_nil h
  have htruthy : truthy (some version) = some version := by
    unfold truthy
    rw [Option.filter_some, if_pos (decide_eq_true hne)]
  unfold chosenVersion
  simp only [htruthy]

theorem importTemplateFromZip_spec (hinv : RowsInv before.rows before.nextId) (req : Request)
    (zip : ZipFile) (metadata : Metadata) (tenantId : Option Text)
    (hfree : CreationFree before req metadata tenantId) :
    Triple (Working before before.rows before.nextId)
      (importTemplateFromZip req zip metadata tenantId)
      (fun _ => Committed before) (fun _ => DiskKept before) := by
  unfold importTemplateFromZip
  split
  · exact disk_raise
  · split
    · exact disk_raise
    · split
      · exact disk_raise
      · rename_i tenant htenant
        split
        · rename_i templateKey name hkey hname
          refine working_read fun w hrows _ => ?_
          rw [hrows]
          refine Triple.bind _ (disk_of_working working_ofExcept) fun version =>
            Triple.assume fun hversion => ?_
          refine Triple.bind _ (disk_of_working working_ofExcept) fun files =>
            Triple.assume fun _ => ?_
          split
          · exact disk_raise
          · apply createTemplateWithFiles_spec hinv
            intro given hgiven tenant' htenant' key' hkey' version' hversion'
            cases hgiven
            have htenants : tenant' = tenant := Option.some.inj (htenant'.symm.trans htenant)
            have hkeys : key' = templateKey := Option.some.inj (hkey'.symm.trans hkey)
            rw [htenants, hkeys] at hversion' ⊢
            rw [chosenVersion_again hversion] at hversion'
            cases hversion'
            exact hfree tenant htenant templateKey hkey version (mem_toOption hversion)
        · exact disk_raise

/-! ## Editing -/

/-- An edit of a template writes to it or, if it is published, to its draft. -/
def EditFree (w : World) (templateId : Nat) : Prop :=
  ∀ template ∈ w.row templateId, template.isPublished → DraftFree w template

theorem updateTemplate_spec (hinv : RowsInv before.rows before.nextId) (req : Request)
    (templateKey version : Text) (updates : Updates) :
    Triple (Working before before.rows before.nextId)
      (updateTemplate req templateKey version updates)
      (fun _ => Committed before) (fun _ => DiskKept before) := by
  unfold updateTemplate
  split
  · exact disk_raise
  · refine Triple.bind _ (getTemplate_spec req _ _) fun found => Triple.assume fun hfound => ?_
    cases found with
    | none => exact disk_raise
    | some template =>
        dsimp only
        split
        · exact disk_raise
        · rename_i hpublished
          split
          · exact disk_raise
          · refine Triple.bind _ (disk_of_working working_ofExcept) fun _ =>
              Triple.assume fun _ => ?_
            have hdraft := draft_of_unpublished hinv (hfound template rfl)
              (Bool.eq_false_iff.mpr hpublished)
            exact saveDraft_spec hdraft (fun _ => rfl) fun _ => rfl

/-- The version that an edit of the template writes to. -/
theorem editTarget_spec (hinv : RowsInv before.rows before.nextId) (req : Request)
    {template : TemplateModel} (hmem : template ∈ before.rows)
    (hfree : template.isPublished → DraftFree before template) :
    Triple (Working before before.rows before.nextId) (editTarget req template)
      (fun target w => ∃ rows nextId, Draft before rows nextId target ∧
        Working before rows nextId w)
      (fun _ => DiskKept before) := by
  unfold editTarget
  refine Triple.ite ?_ ?_
  · intro hunpublished
    exact Triple.pure fun w hw => ⟨_, _, draft_of_unpublished hinv hmem hunpublished, hw⟩
  · intro hpublished
    exact getOrCreateDraftVersion_spec hinv req (hfree (Bool.not_eq_false _ |>.mp hpublished))

/-- Continue from a version that may be written to. -/
theorem draft_bind {α : Type} {f : Service α} {target : TemplateModel} {post : α → World → Prop}
    (h : ∀ rows nextId, Draft before rows nextId target →
      Triple (Working before rows nextId) f post (fun _ => DiskKept before)) :
    Triple (fun w => ∃ rows nextId, Draft before rows nextId target ∧
      Working before rows nextId w) f post (fun _ => DiskKept before) := by
  intro w ⟨rows, nextId, hdraft, hw⟩
  exact h rows nextId hdraft w hw

theorem updateTemplateById_spec (hinv : RowsInv before.rows before.nextId) (req : Request)
    (templateId : Nat) (updates : Updates) (bpmnBytes : Option Bytes)
    (bpmnFileName : Option Text) (hfree : EditFree before templateId) :
    Triple (Working before before.rows before.nextId)
      (updateTemplateById req templateId updates bpmnBytes bpmnFileName)
      (fun _ => Committed before) (fun _ => DiskKept before) := by
  unfold updateTemplateById
  split
  · exact disk_raise
  · refine Triple.bind _ (getTemplateById_spec req _ _) fun found =>
      Triple.assume fun hfound => ?_
    cases found with
    | none => exact disk_raise
    | some existing =>
        have hrow := hfound existing rfl
        dsimp only
        split
        · exact disk_raise
        · refine Triple.bind _ (disk_of_working working_ofExcept) fun _ =>
            Triple.assume fun _ => ?_
          split
          · exact disk_raise
          · split
            · rename_i hunpublished
              have hdraft := draft_of_unpublished hinv (Table.mem_of_lookup hrow) hunpublished
              refine Triple.bind (fun _ => Working before before.rows before.nextId)
                (disk_of_working (writeRequestedBpmn_spec hdraft.writable _ _)) fun files => ?_
              exact saveDraft_spec hdraft (fun _ => rfl) fun _ => rfl
            · rename_i hpublished
              refine Triple.bind _ (getOrCreateDraftVersion_spec hinv req
                (hfree existing hrow (Bool.not_eq_false _ |>.mp hpublished))) fun target => ?_
              refine draft_bind fun rows nextId hdraft => ?_
              refine Triple.bind (fun _ => Working before rows nextId)
                (disk_of_working (writeRequestedBpmn_spec hdraft.writable _ _)) fun files => ?_
              exact saveDraft_spec hdraft (fun _ => rfl) fun _ => rfl

theorem updateFileContent_spec (hinv : RowsInv before.rows before.nextId) (req : Request)
    {template : TemplateModel} (hmem : template ∈ before.rows)
    (hfree : template.isPublished → DraftFree before template) (fileName : Text)
    (content : Bytes) :
    Triple (Working before before.rows before.nextId)
      (updateFileContent req template fileName content)
      (fun _ => Committed before) (fun _ => DiskKept before) := by
  unfold updateFileContent
  split
  · exact disk_raise
  · split
    · exact disk_raise
    · refine Triple.bind _ (editTarget_spec hinv req hmem hfree) fun target => ?_
      refine draft_bind fun rows nextId hdraft => ?_
      refine Triple.bind (fun _ => Working before rows nextId)
        (disk_of_working (storeFile_spec hdraft.writable _ _)) fun _ => ?_
      exact Triple.pure fun w hw => committed_of_draft hdraft hw

theorem deleteFileFromTemplate_spec (hinv : RowsInv before.rows before.nextId) (req : Request)
    {template : TemplateModel} (hmem : template ∈ before.rows)
    (hfree : template.isPublished → DraftFree before template) (fileName : Text) :
    Triple (Working before before.rows before.nextId)
      (deleteFileFromTemplate req template fileName)
      (fun _ => Committed before) (fun _ => DiskKept before) := by
  unfold deleteFileFromTemplate
  split
  · exact disk_raise
  · split
    · exact disk_raise
    · split
      · exact disk_raise
      · dsimp only
        split
        · exact disk_raise
        · split
          · exact disk_raise
          · refine Triple.bind _ (editTarget_spec hinv req hmem hfree) fun target => ?_
            refine draft_bind fun rows nextId hdraft => ?_
            refine Triple.bind _ (saveRow_working target.id _) fun _ => ?_
            refine Triple.bind (fun _ => Working before _ nextId)
              (disk_of_working (tryDelete_spec hdraft.writable _)) fun _ => ?_
            refine Triple.pure fun w hw => ?_
            refine committed_of_draft (draft_updateAt hdraft ?_ ?_) hw
            · intro _
              rfl
            · intro _
              rfl

/-! ## Deleting and restoring -/

theorem deleteTemplateById_spec (hinv : RowsInv before.rows before.nextId) (req : Request)
    (templateId : Nat) (timestamp : Text) :
    Triple (Working before before.rows before.nextId)
      (deleteTemplateById req templateId timestamp)
      (fun _ => Committed before) (fun _ => DiskKept before) := by
  unfold deleteTemplateById
  split
  · exact disk_raise
  · refine Triple.bind _ (getTemplateById_spec req _ _) fun found =>
      Triple.assume fun hfound => ?_
    cases found with
    | none => exact disk_raise
    | some template =>
        dsimp only
        split
        · exact disk_raise
        · split
          · split
            · exact disk_raise
            · -- a soft deletion renames the row and leaves its files
              exact saveRow_spec hinv (rowsKept_refl _) template.id fun _ => rfl
          · rename_i hpublished
            split
            · exact disk_raise
            · have hdraft := draft_of_unpublished hinv (Table.mem_of_lookup (hfound template rfl))
                (Bool.eq_false_iff.mpr hpublished)
              refine Triple.bind (fun _ => Working before before.rows before.nextId)
                (disk_of_working (deleteFiles_spec hdraft.writable _)) fun _ => ?_
              exact removeRow_spec hdraft

theorem restoreTemplateById_spec (hinv : RowsInv before.rows before.nextId) (req : Request)
    (templateId : Nat) :
    Triple (Working before before.rows before.nextId) (restoreTemplateById req templateId)
      (fun _ => Committed before) (fun _ => DiskKept before) := by
  unfold restoreTemplateById
  refine Triple.bind _ (getTemplateById_spec req _ _) fun found => Triple.assume fun _ => ?_
  cases found with
  | none => exact disk_raise
  | some template =>
      dsimp only
      split
      · exact disk_raise
      · split
        · exact disk_raise
        · exact saveRow_spec hinv (rowsKept_refl _) template.id fun _ => rfl

end Specs

/-! ## Runs -/

/-- A call gives every version that it may create a directory of its own. -/
def Safe (w : World) (call : Call) : Prop :=
  match call.operation with
  | .create metadata _ tenantId | .createBpmn metadata _ tenantId =>
      ∀ given ∈ metadata, CreationFree w call.req given tenantId
  | .importZip _ metadata tenantId => CreationFree w call.req metadata tenantId
  | .updateById templateId _ _ _ | .updateFile templateId _ _ | .deleteFile templateId _ =>
      EditFree w templateId
  | .update _ _ _ | .delete _ _ | .restore _ => True

instance (w : World) (tenantId templateKey version : Text) :
    Decidable (DirFree w tenantId templateKey version) :=
  inferInstanceAs (Decidable (∀ dir ∈ _, ∀ row ∈ w.rows, _ → _))

instance (w : World) (published : TemplateModel) : Decidable (DraftFree w published) :=
  inferInstanceAs (Decidable (_ → ∀ version ∈ _, DirFree w _ _ version))

instance (w : World) (req : Request) (metadata : Metadata) (tenantId : Option Text) :
    Decidable (CreationFree w req metadata tenantId) :=
  inferInstanceAs (Decidable (∀ tenant ∈ _, ∀ key ∈ _, ∀ version ∈ _,
    DirFree w tenant key version))

instance (w : World) (templateId : Nat) : Decidable (EditFree w templateId) :=
  inferInstanceAs (Decidable (∀ template ∈ w.row templateId, _ → DraftFree w template))

instance (w : World) : ∀ call, Decidable (Safe w call)
  | ⟨req, .create metadata _ tenantId, _⟩ | ⟨req, .createBpmn metadata _ tenantId, _⟩ =>
      inferInstanceAs (Decidable (∀ given ∈ metadata, CreationFree w req given tenantId))
  | ⟨req, .importZip _ metadata tenantId, _⟩ =>
      inferInstanceAs (Decidable (CreationFree w req metadata tenantId))
  | ⟨_, .updateById templateId _ _ _, _⟩ | ⟨_, .updateFile templateId _ _, _⟩
  | ⟨_, .deleteFile templateId _, _⟩ => inferInstanceAs (Decidable (EditFree w templateId))
  | ⟨_, .update _ _ _, _⟩ | ⟨_, .delete _ _, _⟩ | ⟨_, .restore _, _⟩ => .isTrue trivial

/-- An operation whose answer the route does not need. -/
theorem ignore_result {before : World} {α : Type} {x : Service α}
    (h : Triple (Working before before.rows before.nextId) x (fun _ => Committed before)
      (fun _ => DiskKept before)) :
    Triple (Working before before.rows before.nextId) (do let _ ← x; pure ())
      (fun _ => Committed before) (fun _ => DiskKept before) :=
  Triple.bind _ h fun _ => Triple.pure fun _ hw => hw

theorem withTemplate_spec {before : World} (req : Request) (templateId : Nat)
    {body : TemplateModel → Service TemplateModel}
    (hbody : ∀ template, before.row templateId = some template →
      Triple (Working before before.rows before.nextId) (body template)
        (fun _ => Committed before) (fun _ => DiskKept before)) :
    Triple (Working before before.rows before.nextId) (withTemplate req templateId body)
      (fun _ => Committed before) (fun _ => DiskKept before) := by
  unfold withTemplate
  refine Triple.bind _ (getTemplateById_spec req _ _) fun found => Triple.assume fun hfound => ?_
  cases found with
  | none => exact disk_raise
  | some template => exact ignore_result (hbody template (hfound template rfl))

/-- Every safe operation keeps the published versions, also where it raises. -/
theorem run_spec {before : World} {call : Call} (hinv : RowsInv before.rows before.nextId)
    (hsafe : Safe before call) :
    Triple (Working before before.rows before.nextId) (call.operation.run call.req)
      (fun _ => Committed before) (fun _ => DiskKept before) := by
  obtain ⟨req, operation, faults⟩ := call
  cases operation with
  | create metadata files tenantId =>
      exact ignore_result (createTemplateWithFiles_spec hinv req metadata files tenantId hsafe)
  | createBpmn metadata bpmnBytes tenantId =>
      cases bpmnBytes with
      | none => exact ignore_result disk_raise
      | some content =>
          exact ignore_result (createTemplateWithFiles_spec hinv req metadata _ tenantId hsafe)
  | importZip zip metadata tenantId =>
      exact ignore_result (importTemplateFromZip_spec hinv req zip metadata tenantId hsafe)
  | update templateKey version updates =>
      exact updateTemplate_spec hinv req templateKey version updates
  | updateById templateId updates bpmnBytes bpmnFileName =>
      exact updateTemplateById_spec hinv req templateId updates bpmnBytes bpmnFileName hsafe
  | updateFile templateId fileName content =>
      refine withTemplate_spec req templateId fun template hrow => ?_
      exact updateFileContent_spec hinv req (Table.mem_of_lookup hrow) (hsafe template hrow) _ _
  | deleteFile templateId fileName =>
      refine withTemplate_spec req templateId fun template hrow => ?_
      exact deleteFileFromTemplate_spec hinv req (Table.mem_of_lookup hrow) (hsafe template hrow) _
  | delete templateId timestamp => exact deleteTemplateById_spec hinv req templateId timestamp
  | restore templateId => exact restoreTemplateById_spec hinv req templateId

/-- One safe call, whether the session commits or rolls back. -/
theorem step_committed {w w' : World} {call : Call} (hinv : RowsInv w.rows w.nextId)
    (hsafe : Safe w call) (h : step w call = some w') : Committed w w' := by
  have hspec := run_spec hinv hsafe
  have hstart := working_start w call.faults
  unfold step at h
  rcases hrun : call.operation.run call.req { w with faults := call.faults } with ⟨result, done⟩
  rw [hrun] at h
  cases result with
  | ok _ =>
      have hdone := hspec.of_ok hstart hrun
      cases h
      exact ⟨hdone.disk, hdone.rows, hdone.inv⟩
  | error e =>
      have hdisk := hspec.of_error hstart hrun
      cases h
      exact ⟨hdisk, rowsKept_refl _, hinv⟩

/-- What `get_file` answers for a file of the version, with a disk that can be read. -/
def World.content (w : World) (row : TemplateModel) (fileName : Text) : Except Raised Bytes :=
  (getFileContent row fileName { w with faults := [] }).1

theorem content_eq {w : World} {row : TemplateModel} (fileName : Text) :
    w.content row fileName =
      match filePath row.m8fTenantId row.templateKey row.version fileName with
      | .error e => .error (.api e)
      | .ok path =>
          match w.disk path with
          | some content => .ok content
          | none => .error (.api (.of "not_found" ("File not found: " ++ String.ofList fileName) 404)) := by
  unfold World.content getFileContent getFile
  cases hpath : filePath row.m8fTenantId row.templateKey row.version fileName with
  | error e => rfl
  | ok path =>
      cases hdisk : w.disk path with
      | none =>
          simp [bind, Proc.bind, Proc.ofExcept, Proc.pure, Proc.read, raiseApi, Proc.raise, hdisk]
      | some content =>
          simp [bind, Proc.bind, Proc.ofExcept, Proc.pure, Proc.read, nextFault, pure, hdisk]

/-- A version with the same directory has the same files on a disk that kept them. -/
theorem content_kept {w w' : World} {row row' : TemplateModel} (hmem : row ∈ w.rows)
    (hpublished : row.isPublished) (hkey : row'.uniqueKey = row.uniqueKey)
    (hdisk : DiskKept w w') (fileName : Text) :
    w'.content row' fileName = w.content row fileName := by
  simp only [TemplateModel.uniqueKey, Prod.mk.injEq] at hkey
  obtain ⟨htenant, htemplate, hversion⟩ := hkey
  rw [content_eq, content_eq, htenant, htemplate, hversion]
  cases hpath : filePath row.m8fTenantId row.templateKey row.version fileName with
  | error e => rfl
  | ok path =>
      have hdir : w.Published path.dir :=
        ⟨row, hmem, hpublished, dir_of_versionDir (dir_of_filePath hpath)⟩
      simp only [hdisk path hdir]

/-- What the row of an id shows: what is frozen in it, and what `get_file` answers for
each name. -/
def World.shown (w : World) (id : Nat) :
    Option ((Nat × (Text × Text × Text) × List FileEntry × Bool) ×
      (Text → Except Raised Bytes)) :=
  (w.row id).map fun row => (row.frozen, w.content row)

/-- One safe call leaves what a published version shows. -/
theorem shown_step {w w' : World} {call : Call} (hinv : RowsInv w.rows w.nextId)
    (hsafe : Safe w call) (h : step w call = some w') {id : Nat} {row : TemplateModel}
    (hrow : w.row id = some row) (hpublished : row.isPublished) : w'.shown id = w.shown id := by
  have hdone := step_committed hinv hsafe h
  have hmem : row ∈ w.rows := Table.mem_of_lookup hrow
  obtain ⟨row', hmem', hfrozen⟩ := hdone.rows row hmem hpublished
  have hid : row'.id = id := by
    rw [← Table.key_of_lookup hrow]
    exact congrArg Prod.fst hfrozen
  have hkey : row'.uniqueKey = row.uniqueKey := congrArg (fun frozen => frozen.2.1) hfrozen
  have hrow' : w'.row id = some row' := by
    rw [← hid]
    exact Table.lookup_of_mem hdone.inv.ids hmem'
  unfold World.shown
  rw [hrow, hrow', Option.map_some, Option.map_some, hfrozen]
  congr 2
  funext fileName
  exact content_kept hmem hpublished hkey hdone.disk fileName

theorem rowsInv_start : RowsInv [] 1 :=
  ⟨List.nodup_nil, nofun, nofun⟩

/-- Along a run of safe calls from an empty database, a version that is published stays
published, with the same list of files and the same answer of `get_file` for every name. -/
theorem published_version_frozen {disk : Path → Option Bytes} {es fs : List Call} {s t : World}
    (hreach : Run step Safe (World.start disk) es s) (hrun : Run step Safe s fs t)
    {id : Nat} {row : TemplateModel} (hrow : s.row id = some row) (hpublished : row.isPublished) :
    ∃ row', t.row id = some row' ∧ row'.isPublished ∧ row'.files = row.files ∧
      ∀ fileName, t.content row' fileName = s.content row fileName := by
  have hkeep : ∀ w call w', RowsInv w.rows w.nextId → Safe w call → step w call = some w' →
      RowsInv w'.rows w'.nextId :=
    fun _ _ _ hinv hsafe hstep => (step_committed hinv hsafe hstep).inv
  have hinv : RowsInv s.rows s.nextId := hreach.invariant rowsInv_start hkeep
  have hshown : t.shown id = s.shown id := by
    refine hrun.frozen (fun w => w.shown id)
      (fun value => ∃ shown, value = some shown ∧ shown.1.2.2.2 = true) hinv hkeep ?_ ?_
    · intro w call w' hw hsafe hstep ⟨shown, hvalue, htrue⟩
      obtain ⟨found, hfound, rfl⟩ := Option.map_eq_some_iff.mp hvalue
      exact shown_step hw hsafe hstep hfound htrue
    · exact ⟨_, by unfold World.shown; rw [hrow]; rfl, hpublished⟩
  have hvalue : s.shown id = some (row.frozen, s.content row) := by
    unfold World.shown
    rw [hrow]
    rfl
  rw [hvalue] at hshown
  obtain ⟨row', hrow', hsame⟩ := Option.map_eq_some_iff.mp hshown
  obtain ⟨hfrozen, hcontent⟩ := Prod.mk.inj hsame
  refine ⟨row', hrow', ?_, ?_, fun fileName => congrFun hcontent fileName⟩
  · rw [show row'.isPublished = row.isPublished from congrArg (fun frozen => frozen.2.2.2) hfrozen]
    exact hpublished
  · exact congrArg (fun frozen => frozen.2.2.1) hfrozen

/-! ## Concrete runs -/

/-- A request of an editor of tenant `t1`. -/
def editorRequest : Request where
  user := some "ann".toList
  gUser := some "ann".toList
  tenantId := some "t1".toList
  superAdminRequest := false
  superAdminActor := false
  adminPermission := fun _ => false
  updateTemplates := true

/-- The metadata of a published version of the template `leave`. -/
def leaveMetadata (version : Text) : Metadata where
  templateKey := some "leave".toList
  name := some "Leave".toList
  version := some version
  visibility := none
  tags := none
  category := none
  description := none
  status := none
  isPublished := true

/-- Create and publish a version of the template `leave` with one file. -/
def publishLeave (version : Text) (content : Bytes) : Call where
  req := editorRequest
  operation :=
    .create (some (leaveMetadata version)) [("leave.bpmn".toList, content)] none
  faults := []

/-- The bytes that `get_file` returns for the diagram of a row. -/
def World.diagram (w : World) (id : Nat) : Option Bytes :=
  (w.row id).bind fun row => (w.content row "leave.bpmn".toList).toOption

/-- A published version is edited: the edit goes to a draft. -/
theorem edit_leaves_published_version :
    ∃ s t row row', Run step Safe (World.start fun _ => none) [publishLeave "V1".toList [1]] s ∧
      Run step Safe s
        [⟨editorRequest, .updateFile 1 "leave.bpmn".toList [2], []⟩] t ∧
      s.row 1 = some row ∧ t.row 1 = some row' ∧ t.rows.length = 2 ∧
      t.content row' "leave.bpmn".toList = s.content row "leave.bpmn".toList := by
  have hexec : ∃ s, Run step Safe (World.start fun _ => none) [publishLeave "V1".toList [1]] s ∧
      ((s.row 1).isSome, (s.row 1).map TemplateModel.isPublished,
        (exec step Safe s [⟨editorRequest, .updateFile 1 "leave.bpmn".toList [2], []⟩]).map
          fun t => t.rows.length) = (true, some true, some 2) := run_of_exec_map (by decide)
  obtain ⟨s, hreach, hvalue⟩ := hexec
  simp only [Prod.mk.injEq] at hvalue
  obtain ⟨hsome, hpublished, hlater⟩ := hvalue
  obtain ⟨t, hrun, hlength⟩ := run_of_exec_map hlater
  obtain ⟨row, hrow⟩ := Option.isSome_iff_exists.mp hsome
  rw [hrow] at hpublished
  obtain ⟨row', hrow', _, _, hcontent⟩ :=
    published_version_frozen hreach hrun hrow (Option.some.inj hpublished)
  exact ⟨s, t, row, row', hreach, hrun, hrow, hrow', hlength, hcontent _⟩

/-- A second creation of version `V1` is refused with a conflict, and a creation of
version `V1.` is accepted; both write into the files of the published `V1`. -/
theorem creation_overwrites_published_version :
    (∃ s t, Run step (fun _ _ => True) (World.start fun _ => none)
        [publishLeave "V1".toList [1]] s ∧
      Run step (fun _ _ => True) s [publishLeave "V1".toList [2]] t ∧
      s.diagram 1 = some [1] ∧ t.diagram 1 = some [2]) ∧
    ∃ s t, Run step (fun _ _ => True) (World.start fun _ => none)
        [publishLeave "V1".toList [1]] s ∧
      Run step (fun _ _ => True) s [publishLeave "V1.".toList [2]] t ∧
      s.diagram 1 = some [1] ∧ t.diagram 1 = some [2] := by
  have hfirst : ∃ s, Run step (fun _ _ => True) (World.start fun _ => none)
      [publishLeave "V1".toList [1]] s ∧
      (s.diagram 1,
        (exec step (fun _ _ => True) s [publishLeave "V1".toList [2]]).map fun t => t.diagram 1,
        (exec step (fun _ _ => True) s [publishLeave "V1.".toList [2]]).map fun t =>
          t.diagram 1) =
      (some [1], some (some [2]), some (some [2])) :=
    run_of_exec_map (by decide)
  obtain ⟨s, hreach, hvalue⟩ := hfirst
  simp only [Prod.mk.injEq] at hvalue
  obtain ⟨hbefore, hsame, hsanitized⟩ := hvalue
  obtain ⟨t, hrun, hafter⟩ := run_of_exec_map hsame
  obtain ⟨t', hrun', hafter'⟩ := run_of_exec_map hsanitized
  exact ⟨⟨s, t, hreach, hrun, hbefore, hafter⟩, s, t', hreach, hrun', hbefore, hafter'⟩

end M8flow.Template
