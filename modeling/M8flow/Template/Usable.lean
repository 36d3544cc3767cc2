import M8flow.Template.Frozen
import Mathlib.Data.Set.Insert

/-!
# Live versions are usable

A version that is not deleted lists a BPMN file, and `get_file` answers for every
file that it lists, as long as every operation `Fits`.

- `Keeps` says which places of the disk a procedure may have emptied; it composes.
- `Shelves` and `Stock` are the invariant of the rows.  They speak of the deleted
  rows too, which can be restored.
- `Target` is what an edit knows of the version that it goes to.
- `run_stocks` is the step lemma, with one lemma per operation before it.

The service checks a list of files when it creates a version, and on the version
that a removal names.  It does not check the list of an update, the draft that an
edit is redirected to, or the files that a failing disk keeps out of a new draft,
and it removes a file without asking who else lists its place.
-/

namespace M8flow.Template

open M8flow.Lib
open M8flow.Lib.Proc

/-! ## Lists of files and the places of the disk -/

/-- A BPMN file is on the list. -/
def ListsBpmn (files : List FileEntry) : Prop :=
  ∃ entry ∈ files, entry.fileType = some "bpmn".toList

/-- Every version that is not deleted lists a BPMN file, and each file it lists can be
read. -/
def World.Usable (w : World) : Prop :=
  ∀ row ∈ w.rows, row.isDeleted = false → ListsBpmn row.files ∧
    ∀ entry ∈ row.files, ∃ fileName ∈ entry.fileName, (w.content row fileName).isOk

/-- The place of a file of a version; a version is what the unique constraint compares. -/
def placeOf (key : Text × Text × Text) (fileName : Text) : Option Path :=
  (filePath key.1 key.2.1 key.2.2 fileName).toOption

/-- The place of an entry, if it has a name. -/
def FileEntry.place (entry : FileEntry) (key : Text × Text × Text) : Option Path :=
  entry.fileName.bind (placeOf key)

/-- Every entry of the list has a place under the version, with a file in it. -/
def Stored (w : World) (key : Text × Text × Text) (files : List FileEntry) : Prop :=
  ∀ entry ∈ files, ∃ path ∈ entry.place key, (w.disk path).isSome

theorem placeOf_eq_some {key : Text × Text × Text} {fileName : Text} {path : Path} :
    placeOf key fileName = some path ↔ filePath key.1 key.2.1 key.2.2 fileName = .ok path := by
  unfold placeOf
  cases filePath key.1 key.2.1 key.2.2 fileName with
  | error e => exact ⟨nofun, nofun⟩
  | ok found => exact ⟨fun h => congrArg Except.ok (Option.some.inj h), fun h => by rw [h]; rfl⟩

/-- A stored entry has a name, whose place has a file. -/
theorem stored_entry {w : World} {key : Text × Text × Text} {files : List FileEntry}
    (h : Stored w key files) {entry : FileEntry} (hmem : entry ∈ files) :
    ∃ fileName path, entry.fileName = some fileName ∧
      filePath key.1 key.2.1 key.2.2 fileName = .ok path ∧ (w.disk path).isSome := by
  obtain ⟨path, hplace, hdisk⟩ := h entry hmem
  obtain ⟨fileName, hname, hpath⟩ := Option.bind_eq_some_iff.mp hplace
  exact ⟨fileName, path, hname, placeOf_eq_some.mp hpath, hdisk⟩

theorem stored_cons {w : World} {key : Text × Text × Text} {entry : FileEntry}
    {files : List FileEntry} (hentry : Stored w key [entry]) (hfiles : Stored w key files) :
    Stored w key (entry :: files) := by
  intro other hmem
  rcases List.mem_cons.mp hmem with heq | hrest
  · rw [heq]
    exact hentry entry List.mem_cons_self
  · exact hfiles other hrest

theorem stored_append {w : World} {key : Text × Text × Text} {files more : List FileEntry}
    (hfiles : Stored w key files) (hmore : Stored w key more) : Stored w key (files ++ more) := by
  intro entry hmem
  rcases List.mem_append.mp hmem with hleft | hright
  · exact hfiles entry hleft
  · exact hmore entry hright

/-- A list with one file, which is on the disk. -/
theorem stored_singleton {w : World} {key : Text × Text × Text} {fileName : Text} {path : Path}
    (hpath : filePath key.1 key.2.1 key.2.2 fileName = .ok path) (hdisk : (w.disk path).isSome)
    (fileType : Option Text) : Stored w key [⟨fileType, some fileName⟩] := by
  intro entry hmem
  rw [List.mem_singleton.mp hmem]
  exact ⟨path, placeOf_eq_some.mpr hpath, hdisk⟩

/-! ## What a procedure keeps -/

/-- The session shows the same rows, and no place outside `removed` has lost its file. -/
structure Keeps (removed : Set Path) (w w' : World) : Prop where
  rows : w'.rows = w.rows
  nextId : w'.nextId = w.nextId
  disk : ∀ path ∉ removed, (w.disk path).isSome → (w'.disk path).isSome

/-- The disk has lost no file; this is all that stays of an operation that raises. -/
def Grown (w w' : World) : Prop := ∀ path, (w.disk path).isSome → (w'.disk path).isSome

theorem Keeps.refl (removed : Set Path) (w : World) : Keeps removed w w :=
  ⟨rfl, rfl, fun _ _ h => h⟩

theorem Keeps.trans {removed : Set Path} {w w' w'' : World} (h : Keeps removed w w')
    (h' : Keeps removed w' w'') : Keeps removed w w'' :=
  ⟨h'.rows.trans h.rows, h'.nextId.trans h.nextId,
    fun path hpath hdisk => h'.disk path hpath (h.disk path hpath hdisk)⟩

theorem Keeps.mono {removed more : Set Path} {w w' : World} (h : Keeps removed w w')
    (hsub : removed ⊆ more) : Keeps more w w' :=
  ⟨h.rows, h.nextId, fun path hpath => h.disk path fun hmem => hpath (hsub hmem)⟩

theorem Keeps.grown {w w' : World} (h : Keeps ∅ w w') : Grown w w' :=
  fun path => h.disk path (Set.notMem_empty path)

theorem Grown.refl (w : World) : Grown w w := fun _ h => h

theorem Grown.trans {w w' w'' : World} (h : Grown w w') (h' : Grown w' w'') : Grown w w'' :=
  fun path hdisk => h' path (h path hdisk)

/-- What is stored outside the removed places stays stored. -/
theorem Stored.keeps {removed : Set Path} {w w' : World} {key : Text × Text × Text}
    {files : List FileEntry} (h : Stored w key files) (hkeeps : Keeps removed w w')
    (hfree : ∀ entry ∈ files, ∀ path ∈ entry.place key, path ∉ removed) : Stored w' key files := by
  intro entry hmem
  obtain ⟨path, hplace, hdisk⟩ := h entry hmem
  exact ⟨path, hplace, hkeeps.disk path (hfree entry hmem path hplace) hdisk⟩

theorem Stored.kept {w w' : World} {key : Text × Text × Text} {files : List FileEntry}
    (h : Stored w key files) (hkeeps : Keeps ∅ w w') : Stored w' key files :=
  h.keeps hkeeps fun _ _ path _ => Set.notMem_empty path

/-! ## Storage -/

/-- Use up the fault of one disk call. -/
def World.spend (w : World) : World := { w with faults := w.faults.tail }

@[simp] theorem spend_faults (w : World) : w.spend.faults = w.faults.tail := rfl

@[simp] theorem write_faults (w : World) (path : Path) (content : Option Bytes) :
    (w.write path content).faults = w.faults := rfl

theorem nextFault_run (w : World) : nextFault w = (.ok (w.faults.headD none), w.spend) := by
  obtain ⟨rows, nextId, disk, faults⟩ := w
  cases faults with
  | nil => rfl
  | cons fault faults => rfl

theorem spend_keeps (removed : Set Path) (w : World) : Keeps removed w w.spend :=
  ⟨rfl, rfl, fun _ _ h => h⟩

/-- A write fills its place and empties none. -/
theorem write_some_keeps (w : World) (path : Path) (content : Bytes) :
    Keeps ∅ w (w.write path (some content)) ∧
      ((w.write path (some content)).disk path).isSome := by
  refine ⟨⟨rfl, rfl, ?_⟩, ?_⟩
  · intro other _ hdisk
    show (if other = path then some content else w.disk other).isSome
    split
    · rfl
    · exact hdisk
  · show (if path = path then some content else w.disk path).isSome
    rw [if_pos rfl]
    rfl

/-- A deletion empties its own place only. -/
theorem write_none_keeps (w : World) (path : Path) : Keeps {path} w (w.write path none) := by
  refine ⟨rfl, rfl, ?_⟩
  intro other hother hdisk
  show (if other = path then none else w.disk other).isSome
  rw [if_neg (fun heq => hother (Set.mem_singleton_iff.mpr heq))]
  exact hdisk

section StorageSpecs

variable {tenantId templateKey version fileName : Text} {path : Path}

/-- What a failed write leaves. -/
def World.leftBy (w : World) (path : Path) (fault : Fault) : World :=
  match fault.left with
  | none => w
  | some left => w.write path (some left)

theorem leftBy_keeps (w : World) (path : Path) (fault : Fault) :
    Keeps ∅ w (w.leftBy path fault) := by
  unfold World.leftBy
  split
  · exact Keeps.refl _ w
  · exact (write_some_keeps w path _).1

theorem leftBy_faults (w : World) (path : Path) (fault : Fault) :
    (w.leftBy path fault).faults = w.faults := by
  unfold World.leftBy
  split
  · rfl
  · rfl

/-- `store_file` on a name with a place: the next disk call decides. -/
theorem storeFile_run (hpath : filePath tenantId templateKey version fileName = .ok path)
    (content : Bytes) (w : World) :
    storeFile tenantId templateKey version fileName content w =
      match w.faults.headD none with
      | none => (.ok (), w.spend.write path (some content))
      | some fault =>
          (.error (.api (.of "storage_error" ("Failed to write file: " ++ fault.message) 500)),
            w.spend.leftBy path fault) := by
  unfold storeFile
  rw [hpath, ofExcept_ok_bind_run, bind_run_ok (nextFault_run w)]
  cases w.faults.headD none with
  | none => rfl
  | some fault => exact bind_run_ok rfl

/-- `get_file` on a place with a file: the next disk call decides. -/
theorem getFile_run {content : Bytes}
    (hpath : filePath tenantId templateKey version fileName = .ok path) {w : World}
    (hdisk : w.disk path = some content) :
    getFile tenantId templateKey version fileName w =
      match w.faults.headD none with
      | none => (.ok content, w.spend)
      | some fault =>
          (.error (.api (.of "storage_error" ("Failed to read file: " ++ fault.message) 500)),
            w.spend) := by
  unfold getFile
  rw [hpath, ofExcept_ok_bind_run, read_bind_run, hdisk]
  show (nextFault >>= _) w = _
  rw [bind_run_ok (nextFault_run w)]
  cases w.faults.headD none with
  | none => rfl
  | some fault => rfl

/-- A file that was stored can be read, and nothing was lost, also where storing fails. -/
theorem storeFile_keeps (key : Text × Text × Text) (fileName : Text) (content : Bytes)
    (w : World) :
    Triple (fun s => s = w) (storeFile key.1 key.2.1 key.2.2 fileName content)
      (fun _ w' => Keeps ∅ w w' ∧ ∀ fileType, Stored w' key [⟨fileType, some fileName⟩])
      (fun _ w' => Keeps ∅ w w') := by
  intro s hs
  rw [hs]
  cases hpath : filePath key.1 key.2.1 key.2.2 fileName with
  | error e =>
      unfold storeFile
      rw [hpath, ofExcept_error_bind_run]
      exact Keeps.refl _ w
  | ok path =>
      rw [storeFile_run hpath]
      cases w.faults.headD none with
      | none =>
          obtain ⟨hkeeps, hdisk⟩ := write_some_keeps w.spend path content
          exact ⟨(spend_keeps _ w).trans hkeeps, stored_singleton hpath hdisk⟩
      | some fault => exact (spend_keeps _ w).trans (leftBy_keeps _ path fault)

/-- A deletion whose failure is only logged removes the file of its name at most. -/
theorem tryDelete_keeps (key : Text × Text × Text) (fileName : Text) (w : World) :
    Triple (fun s => s = w)
      (Proc.tryExcept (deleteFile key.1 key.2.1 key.2.2 fileName) fun _ => pure ())
      (fun _ => Keeps {path | placeOf key fileName = some path} w) (fun _ _ => False) := by
  have hdelete : Triple (fun s => s = w) (deleteFile key.1 key.2.1 key.2.2 fileName)
      (fun _ => Keeps {path | placeOf key fileName = some path} w)
      (fun _ => Keeps {path | placeOf key fileName = some path} w) := by
    intro s hs
    rw [hs]
    unfold deleteFile
    cases hpath : filePath key.1 key.2.1 key.2.2 fileName with
    | error e =>
        rw [ofExcept_error_bind_run]
        exact Keeps.refl _ w
    | ok path =>
        rw [ofExcept_ok_bind_run, read_bind_run]
        cases hdisk : w.disk path with
        | none => exact Keeps.refl _ w
        | some content =>
            dsimp only
            rw [bind_run_ok (nextFault_run w)]
            cases w.faults.headD none with
            | none =>
                refine (spend_keeps _ w).trans ((write_none_keeps w.spend path).mono ?_)
                intro other hother
                rw [Set.mem_singleton_iff.mp hother]
                exact placeOf_eq_some.mpr hpath
            | some fault => exact spend_keeps _ w
  refine Triple.tryExcept _ hdelete fun e => ?_
  exact Triple.pure fun _ hw => hw

end StorageSpecs

/-! ## Copying to a draft -/

/-- The entry of a draft for an entry of the version that it copies. -/
def copyOf (entry : FileEntry) : FileEntry :=
  ⟨some (entry.fileType.getD (fileTypeFromFilename (entry.fileName.getD []))), entry.fileName⟩

/-- What reaches the draft of one entry whose read and write end as the list of faults
says, with the rest of the list. -/
def copiedEntry (entry : FileEntry) (faults : List (Option Fault)) :
    List FileEntry × List (Option Fault) :=
  match faults.headD none, faults.tail.headD none with
  | some _, _ => ([], faults.tail)
  | none, some _ => ([], faults.tail.tail)
  | none, none => ([copyOf entry], faults.tail.tail)

/-- The entries that reach the draft of a version with all its files on the disk. -/
def copied : List FileEntry → List (Option Fault) → List FileEntry
  | [], _ => []
  | entry :: files, faults =>
      let (entries, rest) := copiedEntry entry faults
      entries ++ copied files rest

/-- A name with a character that stays is not sanitised away. -/
theorem sanitize_ok {s : Text} {c : Char} (hmem : c ∈ s) (hnull : c.toNat ≠ 0)
    (hvalid : c ∉ invalidChars) (hkeep : ¬ (c = '.' ∨ c = ' ' ∨ c = '-')) :
    ∃ clean, sanitize s = .ok clean := by
  unfold sanitize
  rw [if_neg]
  · exact ⟨_, rfl⟩
  · apply Text.stripWhere_ne_nil (c := c)
    · refine List.mem_map.mpr ⟨c, List.mem_filter.mpr ⟨hmem, decide_eq_true hnull⟩, ?_⟩
      rw [if_neg hvalid]
    · simpa [or_assoc] using hkeep

/-- A name with a place is not empty. -/
theorem ne_nil_of_filePath {tenantId templateKey version fileName : Text} {path : Path}
    (h : filePath tenantId templateKey version fileName = .ok path) : fileName ≠ [] := by
  intro hnil
  have hempty : sanitize (basename []) = .error emptyName := by decide
  rw [hnil, filePath, hempty] at h
  cases h

/-- A name with a place in one version has one in every version of the V-series. -/
theorem filePath_vVersion {tenantId templateKey version fileName : Text} {path : Path}
    (h : filePath tenantId templateKey version fileName = .ok path) (number : Nat) :
    ∃ path', filePath tenantId templateKey (vVersion number) fileName = .ok path' := by
  obtain ⟨clean, hclean⟩ : ∃ clean, sanitize (vVersion number) = .ok clean :=
    sanitize_ok List.mem_cons_self (by decide) (by decide) (by decide)
  unfold filePath versionDir at h ⊢
  rw [hclean]
  cases hname : sanitize (basename fileName) with
  | error e =>
      rw [hname] at h
      cases h
  | ok name =>
      cases htenant : sanitize tenantId with
      | error e =>
          rw [hname, htenant] at h
          cases h
      | ok tenant =>
          cases hkey : sanitize templateKey with
          | error e =>
              rw [hname, htenant, hkey] at h
              cases h
          | ok key => exact ⟨_, rfl⟩

/-- Copying one entry: its file is read and written, or nothing is listed for it. -/
theorem copyFile_copies {key : Text × Text × Text} {entry : FileEntry} {fileName next : Text}
    {path path' : Path} {content : Bytes} {w : World} (hname : entry.fileName = some fileName)
    (hpath : filePath key.1 key.2.1 key.2.2 fileName = .ok path)
    (hdisk : w.disk path = some content)
    (hnext : filePath key.1 key.2.1 next fileName = .ok path')
    {handler : Raised → Service (List FileEntry)} (hhandler : ∀ e, handler (.api e) = pure []) :
    Triple (fun s => s = w)
      (Proc.tryExcept
        (do
          let content ← getFile key.1 key.2.1 key.2.2 fileName
          storeFile key.1 key.2.1 next fileName content
          pure [⟨some (entry.fileType.getD (fileTypeFromFilename fileName)), some fileName⟩])
        handler)
      (fun entries w' => (entries, w'.faults) = copiedEntry entry w.faults ∧ Keeps ∅ w w' ∧
        Stored w' (key.1, key.2.1, next) entries)
      (fun _ _ => False) := by
  intro s hs
  rw [hs]
  have hget := getFile_run hpath hdisk
  have hstore := storeFile_run hnext content w.spend
  rw [spend_faults] at hstore
  unfold copiedEntry Proc.tryExcept
  cases hread : w.faults.headD none with
  | some fault =>
      rw [hread] at hget
      rw [bind_run_error hget]
      dsimp only
      rw [hhandler]
      exact ⟨rfl, spend_keeps _ w, nofun⟩
  | none =>
      rw [hread] at hget
      cases hwrite : w.faults.tail.headD none with
      | some fault =>
          rw [hwrite] at hstore
          rw [bind_run_ok hget, bind_run_error hstore]
          dsimp only
          rw [hhandler]
          refine ⟨?_, (spend_keeps _ w).trans ((spend_keeps _ _).trans (leftBy_keeps _ _ _)), nofun⟩
          rw [leftBy_faults, spend_faults, spend_faults]
      | none =>
          rw [hwrite] at hstore
          rw [bind_run_ok hget, bind_run_ok hstore]
          obtain ⟨hkeeps, hfilled⟩ := write_some_keeps w.spend.spend path' content
          refine ⟨?_, (spend_keeps _ w).trans ((spend_keeps _ _).trans hkeeps), ?_⟩
          · unfold copyOf
            rw [hname]
            rfl
          · exact stored_singleton hnext hfilled _

/-- The draft of a version lists what the disk calls let through, and has each file. -/
theorem copyFiles_copies {key : Text × Text × Text} (number : Nat) (files : List FileEntry) :
    ∀ w, Stored w key files →
      Triple (fun s => s = w) (copyFiles key.1 key.2.1 key.2.2 (vVersion number) files)
        (fun entries w' => entries = copied files w.faults ∧ Keeps ∅ w w' ∧
          Stored w' (key.1, key.2.1, vVersion number) entries)
        (fun _ _ => False) := by
  induction files with
  | nil =>
      intro w _
      refine Triple.pure fun s hs => ?_
      rw [hs]
      exact ⟨rfl, Keeps.refl _ w, nofun⟩
  | cons entry files ih =>
      intro w hstored
      obtain ⟨fileName, path, hname, hpath, hdisk⟩ := stored_entry hstored List.mem_cons_self
      obtain ⟨content, hcontent⟩ := Option.isSome_iff_exists.mp hdisk
      obtain ⟨path', hnext⟩ := filePath_vVersion hpath number
      have htruthy : truthy entry.fileName = some fileName :=
        truthy_eq_some.mpr ⟨hname, ne_nil_of_filePath hpath⟩
      unfold copyFiles
      rw [htruthy]
      refine Triple.bind _ (copyFile_copies hname hpath hcontent hnext fun _ => rfl)
        fun entries => Triple.ofState fun w₁ hfirst => ?_
      obtain ⟨hentries, hkeeps, hcopied⟩ := hfirst
      have hrest : Stored w₁ key files :=
        Stored.kept (fun other hmem => hstored other (List.mem_cons_of_mem _ hmem)) hkeeps
      refine Triple.bind _ (ih w₁ hrest) fun more => Triple.pure fun w₂ hsecond => ?_
      obtain ⟨hmore, hkeeps', hcopied'⟩ := hsecond
      refine ⟨?_, hkeeps.trans hkeeps', stored_append (hcopied.kept hkeeps') hcopied'⟩
      rw [hmore, copied, ← hentries]

/-! ## The rows of a committed state -/

/-- Rows have ids and versions of their own, and every file that a row lists, be it
deleted or not, is on the disk. -/
structure Shelves (w : World) : Prop where
  ids : ∀ row ∈ w.rows, ∀ row' ∈ w.rows, row.id = row'.id → row = row'
  fresh : ∀ row ∈ w.rows, row.id < w.nextId
  keys : ∀ row ∈ w.rows, ∀ row' ∈ w.rows, row.uniqueKey = row'.uniqueKey → row.id = row'.id
  stored : ∀ row ∈ w.rows, Stored w row.uniqueKey row.files

/-- Every row lists a BPMN file as well. -/
structure Stock (w : World) : Prop extends Shelves w where
  bpmn : ∀ row ∈ w.rows, ListsBpmn row.files

theorem stock_start (disk : Path → Option Bytes) : Stock (World.start disk) :=
  ⟨⟨nofun, nofun, nofun, nofun⟩, nofun⟩

/-- The rows stay, and so does every place that one of them lists. -/
theorem Shelves.keeps {removed : Set Path} {w w' : World} (h : Shelves w)
    (hkeeps : Keeps removed w w')
    (hfree : ∀ row ∈ w.rows, ∀ entry ∈ row.files, ∀ path ∈ entry.place row.uniqueKey,
      path ∉ removed) : Shelves w' := by
  have hrows := hkeeps.rows
  have hnext := hkeeps.nextId
  constructor
  · rw [hrows]
    exact h.ids
  · rw [hrows, hnext]
    exact h.fresh
  · rw [hrows]
    exact h.keys
  · rw [hrows]
    intro row hmem
    exact (h.stored row hmem).keeps hkeeps (hfree row hmem)

theorem Shelves.kept {w w' : World} (h : Shelves w) (hkeeps : Keeps ∅ w w') : Shelves w' :=
  h.keeps hkeeps fun _ _ _ _ path _ => Set.notMem_empty path

theorem Stock.kept {w w' : World} (h : Stock w) (hkeeps : Keeps ∅ w w') : Stock w' :=
  ⟨h.toShelves.kept hkeeps, by rw [hkeeps.rows]; exact h.bpmn⟩

/-- A step that rolls back leaves the rows and a disk that lost nothing. -/
theorem Stock.rolledBack {w w' : World} (h : Stock w) (hgrown : Grown w w') :
    Stock { w with disk := w'.disk, faults := [] } :=
  h.kept ⟨rfl, rfl, fun path _ => hgrown path⟩

section SaveRow

variable {w : World} {id : Nat} {f : TemplateModel → TemplateModel}

/-- The table with one row saved. -/
def World.saved (w : World) (id : Nat) (f : TemplateModel → TemplateModel) : World :=
  { w with rows := Table.updateAt TemplateModel.id id f w.rows }

/-- Saving a row keeps the shelves if what the row then lists is stored. -/
theorem Shelves.saved (h : Shelves w) (hid : ∀ row, (f row).id = row.id)
    (hkey : ∀ row, (f row).uniqueKey = row.uniqueKey)
    (hstored : ∀ row ∈ w.rows, row.id = id → Stored w row.uniqueKey (f row).files) :
    Shelves (w.saved id f) := by
  have hsame : ∀ old : TemplateModel, (if old.id = id then f old else old).id = old.id ∧
      (if old.id = id then f old else old).uniqueKey = old.uniqueKey := by
    intro old
    split
    · exact ⟨hid old, hkey old⟩
    · exact ⟨rfl, rfl⟩
  constructor
  · intro row hmem row' hmem' heq
    obtain ⟨old, hold, rfl⟩ := mem_updateAt hmem
    obtain ⟨old', hold', rfl⟩ := mem_updateAt hmem'
    rw [(hsame old).1, (hsame old').1] at heq
    rw [h.ids old hold old' hold' heq]
  · intro row hmem
    obtain ⟨old, hold, rfl⟩ := mem_updateAt hmem
    rw [(hsame old).1]
    exact h.fresh old hold
  · intro row hmem row' hmem' heq
    obtain ⟨old, hold, rfl⟩ := mem_updateAt hmem
    obtain ⟨old', hold', rfl⟩ := mem_updateAt hmem'
    rw [(hsame old).2, (hsame old').2] at heq
    rw [(hsame old).1, (hsame old').1]
    exact h.keys old hold old' hold' heq
  · intro row hmem
    obtain ⟨old, hold, rfl⟩ := mem_updateAt hmem
    rw [(hsame old).2]
    split
    · rename_i hthis
      exact hstored old hold hthis
    · exact h.stored old hold

/-- Saving a row keeps the stock if all rows but this one list a BPMN file before, and
this one does after. -/
theorem Shelves.saved_stock (h : Shelves w) (hid : ∀ row, (f row).id = row.id)
    (hkey : ∀ row, (f row).uniqueKey = row.uniqueKey)
    (hothers : ∀ row ∈ w.rows, row.id ≠ id → ListsBpmn row.files)
    (hthis : ∀ row ∈ w.rows, row.id = id →
      Stored w row.uniqueKey (f row).files ∧ ListsBpmn (f row).files) :
    Stock (w.saved id f) := by
  refine ⟨h.saved hid hkey fun row hmem hrow => (hthis row hmem hrow).1, ?_⟩
  intro row hmem
  obtain ⟨old, hold, rfl⟩ := mem_updateAt hmem
  split
  · rename_i hrow
    exact (hthis old hold hrow).2
  · rename_i hrow
    exact hothers old hold hrow

/-- Saving other data than the list of files. -/
theorem Stock.saved (h : Stock w) (hid : ∀ row, (f row).id = row.id)
    (hkey : ∀ row, (f row).uniqueKey = row.uniqueKey) (hfiles : ∀ row, (f row).files = row.files) :
    Stock (w.saved id f) := by
  refine h.toShelves.saved_stock hid hkey (fun row hmem _ => h.bpmn row hmem) ?_
  intro row hmem _
  rw [hfiles]
  exact ⟨h.stored row hmem, h.bpmn row hmem⟩

end SaveRow

/-- The table with one row more. -/
def World.inserted (w : World) (row : TemplateModel) : World :=
  { w with rows := w.rows ++ [row], nextId := w.nextId + 1 }

/-- A new row has a version of its own, and the database gives it an id of its own. -/
theorem Shelves.inserted {w : World} (h : Shelves w) {row : TemplateModel}
    (hid : row.id = w.nextId) (hkey : ∀ other ∈ w.rows, other.uniqueKey ≠ row.uniqueKey)
    (hstored : Stored w row.uniqueKey row.files) : Shelves (w.inserted row) := by
  have hne : ∀ other ∈ w.rows, other.id ≠ row.id := by
    intro other hmem heq
    have hlt := h.fresh other hmem
    omega
  constructor
  · intro first hfirst second hsecond heq
    rcases List.mem_append.mp hfirst with hold | hnew
    · rcases List.mem_append.mp hsecond with hold' | hnew'
      · exact h.ids first hold second hold' heq
      · rw [List.mem_singleton.mp hnew'] at heq
        exact absurd heq (hne first hold)
    · rw [List.mem_singleton.mp hnew] at heq ⊢
      rcases List.mem_append.mp hsecond with hold' | hnew'
      · exact absurd heq.symm (hne second hold')
      · exact (List.mem_singleton.mp hnew').symm
  · intro other hmem
    show other.id < w.nextId + 1
    rcases List.mem_append.mp hmem with hold | hnew
    · have hlt := h.fresh other hold
      omega
    · rw [List.mem_singleton.mp hnew]
      omega
  · intro first hfirst second hsecond heq
    rcases List.mem_append.mp hfirst with hold | hnew
    · rcases List.mem_append.mp hsecond with hold' | hnew'
      · exact h.keys first hold second hold' heq
      · rw [List.mem_singleton.mp hnew'] at heq
        exact absurd heq (hkey first hold)
    · rw [List.mem_singleton.mp hnew] at heq ⊢
      rcases List.mem_append.mp hsecond with hold' | hnew'
      · exact absurd heq.symm (hkey second hold')
      · rw [List.mem_singleton.mp hnew']
  · intro other hmem
    rcases List.mem_append.mp hmem with hold | hnew
    · exact h.stored other hold
    · rw [List.mem_singleton.mp hnew]
      exact hstored

/-- `flush` of a new row: the unique constraint holds, or nothing happens. -/
theorem insertRow_inserts (row : TemplateModel) (w : World) :
    Triple (fun s => s = w) (insertRow row)
      (fun target w' => target = { row with id := w.nextId } ∧ w' = w.inserted target ∧
        ∀ other ∈ w.rows, other.uniqueKey ≠ row.uniqueKey)
      (fun _ w' => w' = w) := by
  intro s hs
  rw [hs]
  unfold insertRow
  rw [read_bind_run]
  by_cases hunique : (w.rows.any fun other => other.uniqueKey = row.uniqueKey)
  · rw [if_pos hunique]
    exact rfl
  · rw [if_neg hunique]
    refine ⟨rfl, rfl, ?_⟩
    intro other hmem heq
    exact hunique (List.any_eq_true.mpr ⟨other, hmem, decide_eq_true heq⟩)

/-! ## Reading -/

section Reading

variable {w : World}

/-- What raises from the state of the start has lost no file. -/
theorem grown_raise {α : Type} {e : Raised} {post : α → World → Prop} :
    Triple (fun s => s = w) (Proc.raise e) post (fun _ => Grown w) := by
  refine Triple.raise fun s hs => ?_
  rw [hs]
  exact Grown.refl w

theorem check_here {α δ : Type} {wrap : δ → Raised} {check : Except δ α} :
    Triple (fun s => s = w) (Proc.ofExcept wrap check) (fun a s => check = .ok a ∧ s = w)
      (fun _ => Grown w) := by
  refine Triple.ofExcept (fun _ _ hcheck hs => ⟨hcheck, hs⟩) fun _ s _ hs => ?_
  rw [hs]
  exact Grown.refl w

theorem read_here {α : Type} {f : World → Service α} {post : α → World → Prop}
    {exc : Raised → World → Prop} (h : Triple (fun s => s = w) (f w) post exc) :
    Triple (fun s => s = w) (Proc.read >>= f) post exc := by
  intro s hs
  rw [hs]
  exact h w rfl

/-- Raising later, from a state that has lost no file, has lost none. -/
theorem grown_after {α : Type} {w₁ : World} {x : Service α} {post : α → World → Prop}
    (hgrown : Grown w w₁) (h : Triple (fun s => s = w₁) x post (fun _ => Grown w₁)) :
    Triple (fun s => s = w₁) x post (fun _ => Grown w) :=
  h.consequence (fun _ hs => hs) (fun _ _ hpost => hpost) fun _ _ hmore => hgrown.trans hmore

/-- The row that a request reads by its id. -/
def World.found (w : World) (req : Request) (templateId : Nat) (includeDeleted : Bool) :
    Option TemplateModel :=
  (w.row templateId).filter fun row => (!row.isDeleted || includeDeleted) && canView req row

theorem getTemplateById_run (req : Request) (templateId : Nat) (includeDeleted : Bool) (w : World) :
    getTemplateById req templateId includeDeleted w =
      (.ok (w.found req templateId includeDeleted), w) := by
  unfold getTemplateById World.found
  rw [read_bind_run]
  cases w.row templateId with
  | none => rfl
  | some template =>
      dsimp only
      rw [Option.filter_some]
      have hiff : ((!template.isDeleted || includeDeleted) && canView req template) = true ↔
          ¬ ((template.isDeleted ∧ ¬ includeDeleted) ∨ ¬ canView req template) := by
        cases template.isDeleted <;> cases includeDeleted <;> cases canView req template <;> decide
      by_cases hhidden : (template.isDeleted ∧ ¬ includeDeleted) ∨ ¬ canView req template
      · rw [if_pos hhidden, if_neg fun h => hiff.mp h hhidden]
        rfl
      · rw [if_neg hhidden, if_pos (hiff.mpr hhidden)]
        rfl

theorem getTemplateById_here (req : Request) (templateId : Nat) (includeDeleted : Bool) :
    Triple (fun s => s = w) (getTemplateById req templateId includeDeleted)
      (fun found s => found = w.found req templateId includeDeleted ∧ s = w)
      (fun _ => Grown w) := by
  intro s hs
  rw [hs, getTemplateById_run]
  exact ⟨rfl, rfl⟩

theorem mem_of_found {req : Request} {templateId : Nat} {includeDeleted : Bool}
    {template : TemplateModel} (h : w.found req templateId includeDeleted = some template) :
    template ∈ w.rows :=
  Table.mem_of_lookup (Option.filter_eq_some_iff.mp h).1

/-- The row that a request reads by its key and version. -/
def World.addressed (w : World) (req : Request) (templateKey version : Text) :
    Option TemplateModel :=
  match (getTemplate req templateKey version w).1 with
  | .ok found => found
  | .error _ => none

/-- Reading changes nothing. -/
theorem getTemplate_state (req : Request) (templateKey version : Text) :
    Triple (fun s => s = w) (getTemplate req templateKey version) (fun _ s => s = w)
      (fun _ s => s = w) := by
  have hcheck : ∀ {α : Type} {check : Except Raised α},
      Triple (fun s => s = w) (Proc.ofExcept id check) (fun _ s => s = w) (fun _ s => s = w) :=
    fun {_ _} => Triple.ofExcept (fun _ _ _ hs => hs) fun _ _ _ hs => hs
  unfold getTemplate
  refine read_here ?_
  split
  · exact Triple.pure fun _ hs => hs
  · dsimp only
    split
    · exact Triple.pure fun _ hs => hs
    · refine Triple.bind _ hcheck fun key => Triple.bind _ hcheck fun latest => ?_
      exact Triple.pure fun _ hs => hs

theorem getTemplate_here (req : Request) (templateKey version : Text) :
    Triple (fun s => s = w) (getTemplate req templateKey version)
      (fun found s => (found = w.addressed req templateKey version ∧
        ∀ template, found = some template → template ∈ w.rows) ∧ s = w)
      (fun _ => Grown w) := by
  have hstate := getTemplate_state (w := w) req templateKey version
  have hstart : Working w w.rows w.nextId w := working_start w w.faults
  refine Triple.intro ?_ ?_
  · intro s found s' hs hrun
    have hsame := hstate.of_ok hs hrun
    rw [hs] at hrun
    refine ⟨⟨?_, ((getTemplate_spec req templateKey version).of_ok hstart hrun).1⟩, hsame⟩
    unfold World.addressed
    rw [hrun]
  · intro s e s' hs hrun
    rw [hstate.of_error hs hrun]
    exact Grown.refl w

end Reading

/-! ## Creating -/

/-- A creation lists the files that it has stored. -/
theorem storeFiles_stores (key : Text × Text × Text) (files : List (Text × Bytes)) :
    ∀ w, Triple (fun s => s = w) (storeFiles key.1 key.2.1 key.2.2 files)
      (fun entries w' =>
        entries = files.map (fun file => ⟨some (fileTypeFromFilename file.1), some file.1⟩) ∧
        Keeps ∅ w w' ∧ Stored w' key entries)
      (fun _ => Grown w) := by
  induction files with
  | nil =>
      intro w
      refine Triple.pure fun s hs => ?_
      rw [hs]
      exact ⟨rfl, Keeps.refl _ w, nofun⟩
  | cons file files ih =>
      intro w
      unfold storeFiles
      refine Triple.bind _ ((storeFile_keeps key file.1 file.2 w).consequence (fun _ hs => hs)
        (fun _ _ hpost => hpost) fun _ _ hkeeps => hkeeps.grown) fun _ =>
          Triple.ofState fun w₁ hfirst => ?_
      obtain ⟨hkeeps, hstored⟩ := hfirst
      refine Triple.bind _ (grown_after hkeeps.grown (ih w₁)) fun entries =>
        Triple.pure fun w₂ hsecond => ?_
      obtain ⟨hentries, hkeeps', hstored'⟩ := hsecond
      refine ⟨?_, hkeeps.trans hkeeps', stored_cons ((hstored _).kept hkeeps') hstored'⟩
      rw [hentries]
      rfl

theorem listsBpmn_of_hasBpmn {files : List (Text × Bytes)} (h : hasBpmn files) :
    ListsBpmn (files.map fun file => ⟨some (fileTypeFromFilename file.1), some file.1⟩) := by
  obtain ⟨file, hmem, htype⟩ := List.any_eq_true.mp h
  exact ⟨_, List.mem_map.mpr ⟨file, hmem, rfl⟩, congrArg some (of_decide_eq_true htype)⟩

theorem createVersion_stocks {w : World} (hstock : Stock w) (req : Request) (metadata : Metadata)
    (tenant templateKey name version : Text) (files : List (Text × Bytes)) :
    Triple (fun s => s = w) (createVersion req metadata tenant templateKey name version files)
      (fun _ => Stock) (fun _ => Grown w) := by
  unfold createVersion
  refine Triple.ite (fun _ => grown_raise) fun hbpmn => ?_
  have hlists := listsBpmn_of_hasBpmn (Decidable.not_not.mp hbpmn)
  refine Triple.bind _ (storeFiles_stores (tenant, templateKey, version) files w) fun entries =>
    Triple.ofState fun w₁ hstored => grown_after hstored.2.1.grown ?_
  obtain ⟨hentries, hkeeps, hstored⟩ := hstored
  rw [← hentries] at hlists
  split
  · exact grown_raise
  · refine Triple.tryExcept (fun _ w' => w' = w₁) ?_ ?_
    · refine (insertRow_inserts _ w₁).consequence (fun _ hs => hs) ?_ fun _ _ hs => hs
      intro target w' hinsert
      obtain ⟨htarget, hw', hkey⟩ := hinsert
      have hold := hstock.kept hkeeps
      rw [hw']
      refine ⟨hold.toShelves.inserted (by rw [htarget]) (by rw [htarget]; exact hkey) ?_, ?_⟩
      · rw [htarget]
        exact hstored
      · intro row hmem
        rcases List.mem_append.mp hmem with hrow | hrow
        · exact hold.bpmn row hrow
        · rw [List.mem_singleton.mp hrow, htarget]
          exact hlists
    · intro e
      cases e with
      | api e => exact grown_raise
      | valueError => exact grown_raise
      | integrityError => exact grown_raise

theorem createTemplateWithFiles_stocks {w : World} (hstock : Stock w) (req : Request)
    (metadata : Option Metadata) (files : List (Text × Bytes)) (tenantId : Option Text) :
    Triple (fun s => s = w) (createTemplateWithFiles req metadata files tenantId)
      (fun _ => Stock) (fun _ => Grown w) := by
  unfold createTemplateWithFiles
  refine Triple.ite (fun _ => grown_raise) fun _ => ?_
  refine Triple.ite (fun _ => grown_raise) fun _ => ?_
  split
  · exact grown_raise
  · exact grown_raise
  · split
    · refine Triple.bind _ check_here fun _ => Triple.assume fun _ => read_here ?_
      refine Triple.ite (fun _ => grown_raise) fun _ => ?_
      refine Triple.bind _ check_here fun version => Triple.assume fun _ => ?_
      exact createVersion_stocks hstock _ _ _ _ _ _ _
    · exact grown_raise

theorem importTemplateFromZip_stocks {w : World} (hstock : Stock w) (req : Request)
    (zip : ZipFile) (metadata : Metadata) (tenantId : Option Text) :
    Triple (fun s => s = w) (importTemplateFromZip req zip metadata tenantId)
      (fun _ => Stock) (fun _ => Grown w) := by
  unfold importTemplateFromZip
  refine Triple.ite (fun _ => grown_raise) fun _ => ?_
  refine Triple.ite (fun _ => grown_raise) fun _ => ?_
  split
  · exact grown_raise
  · split
    · refine read_here ?_
      refine Triple.bind _ check_here fun version => Triple.assume fun _ => ?_
      refine Triple.bind _ check_here fun files => Triple.assume fun _ => ?_
      refine Triple.ite (fun _ => grown_raise) fun _ => ?_
      exact createTemplateWithFiles_stocks hstock _ _ _ _
    · exact grown_raise

/-! ## Editing -/

/-- The list of files of the version that an edit of the template goes to. -/
def editedFiles (w : World) (template : TemplateModel) : List FileEntry :=
  if template.isPublished = false then template.files
  else
    match existingDraft w.rows template.templateKey template.m8fTenantId with
    | some draft => draft.files
    | none => copied template.files w.faults

/-- The version that an edit of the template goes to. -/
def editedVersion (w : World) (template : TemplateModel) : Option Text :=
  if template.isPublished = false then some template.version
  else
    match existingDraft w.rows template.templateKey template.m8fTenantId with
    | some draft => some draft.version
    | none => (nextVersion w.rows template.templateKey template.m8fTenantId).toOption

/-- What an edit that started in `w` knows of the version that it goes to. -/
structure Target (w : World) (template target : TemplateModel) (w' : World) : Prop where
  mem : target ∈ w'.rows
  key : target.uniqueKey = (template.m8fTenantId, template.templateKey, target.version)
  version : editedVersion w template = some target.version
  files : target.files = editedFiles w template
  nonempty : target.files ≠ []
  others : ∀ row ∈ w'.rows, row.id ≠ target.id → row ∈ w.rows
  shelves : Shelves w'
  grown : Grown w w'

theorem ListsBpmn.ne_nil {files : List FileEntry} (h : ListsBpmn files) : files ≠ [] := by
  obtain ⟨entry, hmem, _⟩ := h
  exact List.ne_nil_of_mem hmem

section Edits

variable {w w' w'' : World} {template target : TemplateModel}

/-- A row of the table that is edited in place, be it the template or its draft. -/
theorem target_here (hstock : Stock w) (hmem : target ∈ w.rows)
    (hkey : target.uniqueKey = (template.m8fTenantId, template.templateKey, target.version))
    (hversion : editedVersion w template = some target.version)
    (hfiles : target.files = editedFiles w template) : Target w template target w :=
  ⟨hmem, hkey, hversion, hfiles, (hstock.bpmn target hmem).ne_nil, fun _ hrow _ => hrow,
    hstock.toShelves, Grown.refl w⟩

theorem target_self (hstock : Stock w) (hmem : template ∈ w.rows)
    (hpublished : template.isPublished = false) : Target w template template w := by
  refine target_here hstock hmem rfl ?_ ?_
  · rw [editedVersion, if_pos hpublished]
  · rw [editedFiles, if_pos hpublished]

theorem existingDraft_key {rows : List TemplateModel} {key tenant : Text} {draft : TemplateModel}
    (h : existingDraft rows key tenant = some draft) :
    draft.uniqueKey = (tenant, key, draft.version) := by
  have hcond := (List.mem_filter.mp (List.argmax_mem h)).2
  simp only [decide_eq_true_eq] at hcond
  rw [TemplateModel.uniqueKey, hcond.1, hcond.2.1]

theorem getOrCreateDraftVersion_targets (hstock : Stock w) (req : Request)
    (hmem : template ∈ w.rows) (hpublished : ¬ template.isPublished = false) :
    Triple (fun s => s = w) (getOrCreateDraftVersion req template)
      (fun target w' => Target w template target w') (fun _ => Grown w) := by
  have hfiles := editedFiles.eq_def w template
  have hversion := editedVersion.eq_def w template
  rw [if_neg hpublished] at hfiles hversion
  unfold getOrCreateDraftVersion
  refine read_here ?_
  dsimp only
  cases hdraft : existingDraft w.rows template.templateKey template.m8fTenantId with
  | some draft =>
      rw [hdraft] at hfiles hversion
      refine Triple.pure fun s hs => ?_
      rw [hs]
      exact target_here hstock (existingDraft_spec hdraft).1 (existingDraft_key hdraft) hversion
        hfiles.symm
  | none =>
      rw [hdraft] at hfiles hversion
      refine Triple.bind _ check_here fun next => Triple.assume fun hnext => ?_
      obtain ⟨number, hnumber⟩ := nextVersion_eq_vVersion hnext
      have hcopies := copyFiles_copies number template.files w (hstock.stored template hmem)
      rw [← hnumber] at hcopies
      refine Triple.bind _ (hcopies.consequence (fun _ hs => hs) (fun _ _ hpost => hpost)
        fun _ _ hfalse => hfalse.elim) fun newFiles => Triple.ofState fun w₁ hcopied =>
          grown_after hcopied.2.1.grown ?_
      obtain ⟨hnew, hkeeps, hstored⟩ := hcopied
      refine Triple.ite (fun _ => grown_raise) fun hnonempty => ?_
      refine (insertRow_inserts _ w₁).consequence (fun _ hs => hs) ?_ ?_
      · intro target w' hinsert
        obtain ⟨htarget, hw', hkey⟩ := hinsert
        have hshelves := (hstock.kept hkeeps).toShelves
        rw [hw']
        refine ⟨List.mem_append_right _ (List.mem_singleton.mpr rfl), ?_, ?_, ?_, ?_, ?_, ?_, ?_⟩
        · rw [htarget]
          rfl
        · rw [hversion, htarget, hnext]
          rfl
        · rw [hfiles, htarget]
          exact hnew
        · rw [htarget]
          exact hnonempty
        · intro row hrow hne
          rcases List.mem_append.mp hrow with hold | hself
          · rw [← hkeeps.rows]
            exact hold
          · exact absurd (by rw [List.mem_singleton.mp hself]) hne
        · refine hshelves.inserted (by rw [htarget]) (by rw [htarget]; exact hkey) ?_
          rw [htarget]
          exact hstored
        · exact hkeeps.grown
      · intro _ s hs
        rw [hs]
        exact Grown.refl w₁

theorem editTarget_targets (hstock : Stock w) (req : Request) (hmem : template ∈ w.rows) :
    Triple (fun s => s = w) (editTarget req template)
      (fun target w' => Target w template target w') (fun _ => Grown w) := by
  unfold editTarget
  refine Triple.ite ?_ fun hpublished =>
    getOrCreateDraftVersion_targets hstock req hmem hpublished
  intro hunpublished
  refine Triple.pure fun s hs => ?_
  rw [hs]
  exact target_self hstock hmem hunpublished

/-- The rows beside the target list a BPMN file, as they did at the start. -/
theorem Target.others_bpmn (ht : Target w template target w') (hstock : Stock w) :
    ∀ row ∈ w'.rows, row.id ≠ target.id → ListsBpmn row.files :=
  fun row hrow hne => hstock.bpmn row (ht.others row hrow hne)

/-- An edit that leaves the list of its target. -/
theorem Target.stock (ht : Target w template target w') (hstock : Stock w)
    (hbpmn : ListsBpmn target.files) : Stock w' := by
  refine ⟨ht.shelves, ?_⟩
  intro row hrow
  by_cases hid : row.id = target.id
  · rw [ht.shelves.ids row hrow target ht.mem hid]
    exact hbpmn
  · exact ht.others_bpmn hstock row hrow hid

/-- An edit that gives its target a list with a BPMN file, of files that are on the disk. -/
theorem Target.saved (ht : Target w template target w') (hstock : Stock w)
    (hkeeps : Keeps ∅ w' w'') {f : TemplateModel → TemplateModel}
    (hid : ∀ row, (f row).id = row.id) (hkey : ∀ row, (f row).uniqueKey = row.uniqueKey)
    (hstored : Stored w'' target.uniqueKey (f target).files) (hbpmn : ListsBpmn (f target).files) :
    Stock (w''.saved target.id f) := by
  refine (ht.shelves.kept hkeeps).saved_stock hid hkey ?_ ?_
  · rw [hkeeps.rows]
    exact ht.others_bpmn hstock
  · rw [hkeeps.rows]
    intro row hrow hsame
    rw [ht.shelves.ids row hrow target ht.mem hsame]
    exact ⟨hstored, hbpmn⟩

end Edits

/-! ## What an operation needs -/

/-- An edit that does not bring a diagram goes to a version with one.  An edit whose
draft gets no file is refused. -/
def EditFits (w : World) (template : TemplateModel) : Prop :=
  editedFiles w template = [] ∨ ListsBpmn (editedFiles w template)

/-- No other name of the version and no other version has its file in the place of the
name. -/
def SoleUse (w : World) (key : Text × Text × Text) (files : List FileEntry) (fileName : Text) :
    Prop :=
  (∀ entry ∈ files, entry.place key = placeOf key fileName → entry.fileName = some fileName) ∧
    ∀ row ∈ w.rows, row.uniqueKey ≠ key → ∀ entry ∈ row.files,
      entry.place row.uniqueKey ≠ placeOf key fileName

/-- The version that loses the file keeps a BPMN file, and the file is its own. -/
def RemovalFits (w : World) (template : TemplateModel) (fileName : Text) : Prop :=
  editedFiles w template = [] ∨
    ListsBpmn ((editedFiles w template).filter fun entry => entry.fileName ≠ some fileName) ∧
      ∀ version ∈ editedVersion w template,
        SoleUse w (template.m8fTenantId, template.templateKey, version) (editedFiles w template)
          fileName

/-- No other version lists the place of one of the template's files. -/
def OwnFiles (w : World) (template : TemplateModel) : Prop :=
  ∀ row ∈ w.rows, row.id ≠ template.id → ∀ entry ∈ row.files, ∀ own ∈ template.files,
    entry.place row.uniqueKey ≠ own.place template.uniqueKey

/-- A fact about the template of an id, where the request gets as far as reading it. -/
def ForFound (w : World) (req : Request) (templateId : Nat) (fact : TemplateModel → Prop) : Prop :=
  req.superAdminRequest = false → ∀ template ∈ w.found req templateId false, fact template

/-- What an operation needs so as to leave every live version usable; the disk calls end
as the faults of `w` say. -/
def Fits (w : World) (req : Request) : Operation → Prop
  | .create _ _ _ | .createBpmn _ _ _ | .importZip _ _ _ | .restore _ => True
  | .update templateKey version updates =>
      req.superAdminRequest = false → ∀ template ∈ w.addressed req templateKey version,
        template.isPublished = false → canEdit req template → updates.validateName = .ok () →
          ∀ files ∈ updates.files, ListsBpmn files ∧ Stored w template.uniqueKey files
  | .updateById templateId updates bpmnBytes _ =>
      ForFound w req templateId fun template =>
        canEdit req template → updates.validateName = .ok () → req.gUser ≠ none →
          bpmnBytes = none → EditFits w template
  | .updateFile templateId fileName _ =>
      ForFound w req templateId fun template =>
        (∃ entry ∈ template.files, entry.fileName = some fileName) → EditFits w template
  | .deleteFile templateId fileName =>
      ForFound w req templateId fun template =>
        (∃ entry ∈ template.files, entry.fileName = some fileName) →
          ListsBpmn (template.files.filter fun entry => entry.fileName ≠ some fileName) →
            RemovalFits w template fileName
  | .delete templateId _ =>
      ForFound w req templateId fun template =>
        template.isPublished = false →
          (req.user = some template.createdBy ∨ req.hasAdminPermission .delete) →
            OwnFiles w template

/-- The condition on one call. -/
def Meets (w : World) (call : Call) : Prop :=
  Fits { w with faults := call.faults } call.req call.operation

section Operations

variable {w w' : World} {template target : TemplateModel}

/-- An update of a list that is checked against the disk. -/
theorem updateTemplate_stocks (hstock : Stock w) (req : Request) (templateKey version : Text)
    (updates : Updates) (hfits : Fits w req (.update templateKey version updates)) :
    Triple (fun s => s = w) (updateTemplate req templateKey version updates)
      (fun _ => Stock) (fun _ => Grown w) := by
  unfold updateTemplate
  refine Triple.ite (fun _ => grown_raise) fun hadmin => ?_
  refine Triple.bind _ (getTemplate_here req _ _) fun found => Triple.assume fun hfound => ?_
  obtain ⟨haddressed, hmem⟩ := hfound
  cases found with
  | none => exact grown_raise
  | some template =>
      refine Triple.ite (fun _ => grown_raise) fun hpublished => ?_
      refine Triple.ite (fun _ => grown_raise) fun hedit => ?_
      refine Triple.bind _ check_here fun _ => Triple.assume fun hname => ?_
      refine Triple.modify fun s hs => ?_
      rw [hs]
      have hpublished : template.isPublished = false := Bool.eq_false_iff.mpr hpublished
      have ht := target_self hstock (hmem template rfl) hpublished
      have hlist := hfits (Bool.eq_false_iff.mpr hadmin) template haddressed.symm hpublished
        (Decidable.not_not.mp hedit) hname
      have hold : ListsBpmn template.files ∧ Stored w template.uniqueKey template.files :=
        ⟨hstock.bpmn template ht.mem, hstock.stored template ht.mem⟩
      have hnew : ListsBpmn (updates.files.getD template.files) ∧
          Stored w template.uniqueKey (updates.files.getD template.files) := by
        cases hfiles : updates.files with
        | none => exact hold
        | some files => exact hlist files hfiles
      exact ht.saved hstock (Keeps.refl _ w) (fun _ => rfl) (fun _ => rfl) hnew.2 hnew.1

/-- A diagram that was stored is on the list. -/
theorem writeBpmn_stores (hstored : Stored w template.uniqueKey template.files) (content : Bytes)
    (bpmnFileName : Option Text) :
    Triple (fun s => s = w) (writeBpmn template content bpmnFileName)
      (fun files w' => Keeps ∅ w w' ∧ Stored w' template.uniqueKey files ∧ ListsBpmn files)
      (fun _ => Grown w) := by
  have hstore : ∀ fileName,
      Triple (fun s => s = w)
        (storeFile template.m8fTenantId template.templateKey template.version fileName content)
        (fun _ w' => Keeps ∅ w w' ∧
          ∀ fileType, Stored w' template.uniqueKey [⟨fileType, some fileName⟩])
        (fun _ => Grown w) :=
    fun fileName => (storeFile_keeps template.uniqueKey fileName content w).consequence
      (fun _ hs => hs) (fun _ _ hpost => hpost) fun _ _ hkeeps => hkeeps.grown
  have hadded : ∀ fileName (s : World), Keeps ∅ w s →
      (∀ fileType, Stored s template.uniqueKey [⟨fileType, some fileName⟩]) →
      Keeps ∅ w s ∧
        Stored s template.uniqueKey (template.files ++ [⟨some "bpmn".toList, some fileName⟩]) ∧
        ListsBpmn (template.files ++ [⟨some "bpmn".toList, some fileName⟩]) :=
    fun fileName s hkeeps hone =>
      ⟨hkeeps, stored_append (hstored.kept hkeeps) (hone _),
        ⟨_, List.mem_append_right _ (List.mem_singleton.mpr rfl), rfl⟩⟩
  unfold writeBpmn
  dsimp only
  split
  · rename_i fileName _
    refine Triple.bind _ (hstore fileName) fun _ => ?_
    split
    · rename_i hlisted
      obtain ⟨entry, hmem, hentry⟩ := List.any_eq_true.mp hlisted
      refine Triple.pure fun s hs => ⟨hs.1, hstored.kept hs.1, entry, hmem, ?_⟩
      exact (of_decide_eq_true hentry).2
    · exact Triple.pure fun s hs => hadded fileName s hs.1 hs.2
  · split
    · rename_i entry hfound
      refine Triple.bind _ (hstore _) fun _ => ?_
      have htype := List.find?_some hfound
      refine Triple.pure fun s hs => ⟨hs.1, hstored.kept hs.1, entry, ?_, ?_⟩
      · exact List.mem_of_find?_eq_some hfound
      · exact of_decide_eq_true htype
    · refine Triple.bind _ (hstore _) fun _ => ?_
      exact Triple.pure fun s hs => hadded _ s hs.1 hs.2

theorem writeRequestedBpmn_stores (hstored : Stored w template.uniqueKey template.files)
    (bpmnBytes : Option Bytes) (bpmnFileName : Option Text)
    (hbpmn : bpmnBytes = none → ListsBpmn template.files) :
    Triple (fun s => s = w) (writeRequestedBpmn template bpmnBytes bpmnFileName)
      (fun files w' => Keeps ∅ w w' ∧ Stored w' template.uniqueKey files ∧ ListsBpmn files)
      (fun _ => Grown w) := by
  unfold writeRequestedBpmn
  cases bpmnBytes with
  | some content => exact writeBpmn_stores hstored content bpmnFileName
  | none =>
      refine Triple.pure fun s hs => ?_
      rw [hs]
      exact ⟨Keeps.refl _ w, hstored, hbpmn rfl⟩

/-- Where an edit fits, the version that it goes to lists a BPMN file. -/
theorem Target.lists (ht : Target w template target w') (hfits : EditFits w template) :
    ListsBpmn target.files := by
  rw [ht.files]
  exact hfits.resolve_left fun hnil => ht.nonempty (ht.files.trans hnil)

/-- The end of an edit by id: the diagram of the request is written and the row is saved. -/
theorem Target.written (ht : Target w template target w') (hstock : Stock w)
    (bpmnBytes : Option Bytes) (bpmnFileName : Option Text)
    (hfits : bpmnBytes = none → EditFits w template)
    {f : List FileEntry → TemplateModel → TemplateModel}
    (hid : ∀ files row, (f files row).id = row.id)
    (hkey : ∀ files row, (f files row).uniqueKey = row.uniqueKey)
    (hfiles : ∀ files row, (f files row).files = files) :
    Triple (fun s => s = w')
      (do
        let files ← writeRequestedBpmn target bpmnBytes bpmnFileName
        saveRow target.id (f files))
      (fun _ => Stock) (fun _ => Grown w) := by
  refine grown_after ht.grown ?_
  refine Triple.bind _ (writeRequestedBpmn_stores (ht.shelves.stored target ht.mem) bpmnBytes
    bpmnFileName fun hnone => ht.lists (hfits hnone)) fun files => ?_
  refine Triple.modify fun s hs => ?_
  obtain ⟨hkeeps, hstored, hbpmn⟩ := hs
  refine ht.saved hstock hkeeps (hid files) (hkey files) ?_ ?_
  · rw [hfiles]
    exact hstored
  · rw [hfiles]
    exact hbpmn

theorem updateTemplateById_stocks (hstock : Stock w) (req : Request) (templateId : Nat)
    (updates : Updates) (bpmnBytes : Option Bytes) (bpmnFileName : Option Text)
    (hfits : Fits w req (.updateById templateId updates bpmnBytes bpmnFileName)) :
    Triple (fun s => s = w) (updateTemplateById req templateId updates bpmnBytes bpmnFileName)
      (fun _ => Stock) (fun _ => Grown w) := by
  unfold updateTemplateById
  refine Triple.ite (fun _ => grown_raise) fun hadmin => ?_
  refine Triple.bind _ (getTemplateById_here req _ _) fun found => Triple.assume fun hfound => ?_
  cases found with
  | none => exact grown_raise
  | some existing =>
      have hmem := mem_of_found hfound.symm
      refine Triple.ite (fun _ => grown_raise) fun hedit => ?_
      refine Triple.bind _ check_here fun _ => Triple.assume fun hname => ?_
      cases huser : req.gUser with
      | none => exact grown_raise
      | some username =>
          have hedits : bpmnBytes = none → EditFits w existing :=
            hfits (Bool.eq_false_iff.mpr hadmin) existing hfound.symm (Decidable.not_not.mp hedit)
              hname (by rw [huser]; exact Option.some_ne_none _)
          refine Triple.ite ?_ ?_
          · intro hunpublished
            exact (target_self hstock hmem hunpublished).written hstock bpmnBytes bpmnFileName
              hedits (fun _ _ => rfl) (fun _ _ => rfl) fun _ _ => rfl
          · intro hpublished
            refine Triple.bind _ (getOrCreateDraftVersion_targets hstock req hmem hpublished)
              fun target => Triple.ofState fun w₁ ht => ?_
            exact ht.written hstock bpmnBytes bpmnFileName hedits (fun _ _ => rfl) (fun _ _ => rfl)
              fun _ _ => rfl

theorem updateFileContent_stocks (hstock : Stock w) (req : Request) (hmem : template ∈ w.rows)
    (fileName : Text) (content : Bytes)
    (hfits : req.superAdminRequest = false →
      (∃ entry ∈ template.files, entry.fileName = some fileName) → EditFits w template) :
    Triple (fun s => s = w) (updateFileContent req template fileName content)
      (fun _ => Stock) (fun _ => Grown w) := by
  unfold updateFileContent
  refine Triple.ite (fun _ => grown_raise) fun hadmin => ?_
  cases hfound : template.files.find? fun e => e.fileName = some fileName with
  | none => exact grown_raise
  | some entry =>
      have hentry := List.find?_some hfound
      have hedits := hfits (Bool.eq_false_iff.mpr hadmin)
        ⟨entry, List.mem_of_find?_eq_some hfound, of_decide_eq_true hentry⟩
      refine Triple.bind _ (editTarget_targets hstock req hmem) fun target =>
        Triple.ofState fun w₁ ht => grown_after ht.grown ?_
      refine Triple.bind _ ((storeFile_keeps target.uniqueKey fileName content w₁).consequence
        (fun _ hs => hs) (fun _ _ hpost => hpost) fun _ _ hkeeps => hkeeps.grown) fun _ => ?_
      exact Triple.pure fun s hs => (ht.stock hstock (ht.lists hedits)).kept hs.1

/-! ## Removing -/

/-- Where a removal fits, nothing but the removed entry is in its place, and a BPMN file
stays on the list. -/
theorem Target.removal (ht : Target w template target w') {fileName : Text}
    (hfits : RemovalFits w template fileName) :
    ListsBpmn (target.files.filter fun entry => entry.fileName ≠ some fileName) ∧
      SoleUse w target.uniqueKey target.files fileName := by
  obtain ⟨hbpmn, hsole⟩ := hfits.resolve_left fun hnil => ht.nonempty (ht.files.trans hnil)
  rw [ht.files, ht.key]
  exact ⟨hbpmn, hsole target.version ht.version⟩

theorem deleteFileFromTemplate_stocks (hstock : Stock w) (req : Request)
    (hmem : template ∈ w.rows) (fileName : Text)
    (hfits : req.superAdminRequest = false →
      (∃ entry ∈ template.files, entry.fileName = some fileName) →
        ListsBpmn (template.files.filter fun entry => entry.fileName ≠ some fileName) →
          RemovalFits w template fileName) :
    Triple (fun s => s = w) (deleteFileFromTemplate req template fileName)
      (fun _ => Stock) (fun _ => Grown w) := by
  unfold deleteFileFromTemplate
  refine Triple.ite (fun _ => grown_raise) fun hadmin => ?_
  refine Triple.ite (fun _ => grown_raise) fun _ => ?_
  refine Triple.ite (fun _ => grown_raise) fun hlisted => ?_
  dsimp only
  refine Triple.ite (fun _ => grown_raise) fun _ => ?_
  refine Triple.ite (fun _ => grown_raise) fun hbpmn => ?_
  have hremoval : RemovalFits w template fileName := by
    obtain ⟨entry, hentry, hname⟩ := List.any_eq_true.mp (Decidable.not_not.mp hlisted)
    obtain ⟨other, hother, htype⟩ := List.any_eq_true.mp (Decidable.not_not.mp hbpmn)
    exact hfits (Bool.eq_false_iff.mpr hadmin) ⟨entry, hentry, of_decide_eq_true hname⟩
      ⟨other, hother, of_decide_eq_true htype⟩
  refine Triple.bind _ (editTarget_targets hstock req hmem) fun target =>
    Triple.ofState fun w₁ ht => grown_after ht.grown ?_
  obtain ⟨hlists, hentries, hrows⟩ := ht.removal hremoval
  have hstored : Stored w₁ target.uniqueKey target.files := ht.shelves.stored target ht.mem
  let f : TemplateModel → TemplateModel := fun row =>
    { row with
      files := target.files.filter fun e => e.fileName ≠ some fileName
      modifiedBy := req.user.getD row.modifiedBy }
  have hsaved : Stock (w₁.saved target.id f) :=
    ht.saved hstock (Keeps.refl _ w₁) (fun _ => rfl) (fun _ => rfl)
      (fun entry hentry => hstored entry (List.mem_filter.mp hentry).1) hlists
  -- no row of the table lists the place that is emptied
  have hfree : ∀ row ∈ (w₁.saved target.id f).rows, ∀ entry ∈ row.files,
      ∀ path ∈ entry.place row.uniqueKey,
        path ∉ {path | placeOf target.uniqueKey fileName = some path} := by
    intro row hrow entry hentry path hplace hpath
    have hsame : entry.place row.uniqueKey = placeOf target.uniqueKey fileName :=
      hplace.trans hpath.symm
    obtain ⟨old, hold, rfl⟩ := mem_updateAt hrow
    by_cases hid : old.id = target.id
    · rw [if_pos hid] at hentry hsame
      have hold : old = target := ht.shelves.ids old hold target ht.mem hid
      rw [hold] at hentry hsame
      obtain ⟨hmem, hname⟩ := List.mem_filter.mp hentry
      exact of_decide_eq_true hname (hentries entry hmem hsame)
    · rw [if_neg hid] at hentry hsame
      refine hrows old (ht.others old hold hid) ?_ entry hentry hsame
      intro hkey
      exact hid (ht.shelves.keys old hold target ht.mem hkey)
  refine Triple.bind (fun _ s => s = w₁.saved target.id f) ?_ fun _ => ?_
  · refine Triple.modify fun s hs => ?_
    rw [hs]
    rfl
  · refine Triple.bind _ ((tryDelete_keeps target.uniqueKey fileName _).consequence
      (fun _ hs => hs) (fun _ _ hpost => hpost) fun _ _ hfalse => hfalse.elim) fun _ => ?_
    refine Triple.pure fun s hkeeps => ⟨hsaved.toShelves.keeps hkeeps hfree, ?_⟩
    rw [hkeeps.rows]
    exact hsaved.bpmn

/-- Deleting the files of a draft empties their places at most. -/
theorem deleteFiles_keeps (template : TemplateModel) (files : List FileEntry) :
    ∀ w, Triple (fun s => s = w) (deleteFiles template files)
      (fun _ => Keeps {path | ∃ entry ∈ files, entry.place template.uniqueKey = some path} w)
      (fun _ _ => False) := by
  induction files with
  | nil =>
      intro w
      refine Triple.pure fun s hs => ?_
      rw [hs]
      exact Keeps.refl _ w
  | cons entry files ih =>
      intro w
      have hrest : ∀ path : Path,
          path ∈ {path | ∃ entry ∈ files, entry.place template.uniqueKey = some path} →
          path ∈ {path | ∃ own ∈ entry :: files, own.place template.uniqueKey = some path} :=
        fun path ⟨own, hmem, hplace⟩ => ⟨own, List.mem_cons_of_mem _ hmem, hplace⟩
      unfold deleteFiles
      split
      · exact (ih w).consequence (fun _ hs => hs) (fun _ _ hkeeps => hkeeps.mono hrest)
          fun _ _ hfalse => hfalse
      · rename_i fileName htruthy
        obtain ⟨hname, _⟩ := truthy_eq_some.mp htruthy
        refine Triple.bind _ (tryDelete_keeps template.uniqueKey fileName w) fun _ =>
          Triple.ofState fun w₁ hkeeps => ?_
        refine (ih w₁).consequence (fun _ hs => hs) ?_ fun _ _ hfalse => hfalse
        intro _ w₂ hkeeps'
        refine Keeps.trans (hkeeps.mono ?_) (hkeeps'.mono hrest)
        intro path hpath
        refine ⟨entry, List.mem_cons_self, ?_⟩
        rw [FileEntry.place, hname]
        exact hpath

/-- The rows that remain when a version and its own files are gone. -/
theorem Stock.removed (hstock : Stock w) (hown : OwnFiles w template)
    (hkeeps : Keeps {path | ∃ entry ∈ template.files, entry.place template.uniqueKey = some path}
      w w') :
    Stock { w' with rows := w'.rows.filter fun row => row.id ≠ template.id } := by
  have hrow : ∀ row ∈ w'.rows.filter fun row => row.id ≠ template.id,
      row ∈ w.rows ∧ row.id ≠ template.id := by
    intro row hmem
    obtain ⟨hold, hne⟩ := List.mem_filter.mp hmem
    rw [hkeeps.rows] at hold
    exact ⟨hold, of_decide_eq_true hne⟩
  refine ⟨⟨?_, ?_, ?_, ?_⟩, ?_⟩
  · intro row hmem row' hmem' heq
    exact hstock.ids row (hrow row hmem).1 row' (hrow row' hmem').1 heq
  · intro row hmem
    show row.id < w'.nextId
    rw [hkeeps.nextId]
    exact hstock.fresh row (hrow row hmem).1
  · intro row hmem row' hmem' heq
    exact hstock.keys row (hrow row hmem).1 row' (hrow row' hmem').1 heq
  · intro row hmem
    obtain ⟨hold, hne⟩ := hrow row hmem
    have hstored : Stored w' row.uniqueKey row.files := by
      refine (hstock.stored row hold).keeps hkeeps ?_
      intro entry hentry path hplace ⟨own, hmemOwn, howned⟩
      exact hown row hold hne entry hentry own hmemOwn (hplace.trans howned.symm)
    exact hstored
  · intro row hmem
    exact hstock.bpmn row (hrow row hmem).1

theorem deleteTemplateById_stocks (hstock : Stock w) (req : Request) (templateId : Nat)
    (timestamp : Text) (hfits : Fits w req (.delete templateId timestamp)) :
    Triple (fun s => s = w) (deleteTemplateById req templateId timestamp)
      (fun _ => Stock) (fun _ => Grown w) := by
  unfold deleteTemplateById
  refine Triple.ite (fun _ => grown_raise) fun hadmin => ?_
  refine Triple.bind _ (getTemplateById_here req _ _) fun found => Triple.assume fun hfound => ?_
  cases found with
  | none => exact grown_raise
  | some template =>
      refine Triple.ite (fun _ => grown_raise) fun hdeleted => ?_
      refine Triple.ite ?_ fun hpublished => ?_
      · intro _
        refine Triple.ite (fun _ => grown_raise) fun _ => ?_
        refine Triple.modify fun s hs => ?_
        rw [hs]
        exact hstock.saved (fun _ => rfl) (fun _ => rfl) fun _ => rfl
      · refine Triple.ite (fun _ => grown_raise) fun hallowed => ?_
        have hlive : w.found req templateId false = some template := by
          obtain ⟨hrow, hread⟩ := Option.filter_eq_some_iff.mp hfound.symm
          refine Option.filter_eq_some_iff.mpr ⟨hrow, ?_⟩
          rw [Bool.eq_false_iff.mpr hdeleted]
          simpa using hread
        have hown := hfits (Bool.eq_false_iff.mpr hadmin) template hlive
          (Bool.eq_false_iff.mpr hpublished) (Decidable.not_not.mp hallowed)
        refine Triple.bind _ ((deleteFiles_keeps template template.files w).consequence
          (fun _ hs => hs) (fun _ _ hpost => hpost) fun _ _ hfalse => hfalse.elim) fun _ => ?_
        exact Triple.modify fun s hkeeps => hstock.removed hown hkeeps

theorem restoreTemplateById_stocks (hstock : Stock w) (req : Request) (templateId : Nat) :
    Triple (fun s => s = w) (restoreTemplateById req templateId)
      (fun _ => Stock) (fun _ => Grown w) := by
  unfold restoreTemplateById
  refine Triple.bind _ (getTemplateById_here req _ _) fun found => Triple.assume fun _ => ?_
  cases found with
  | none => exact grown_raise
  | some template =>
      refine Triple.ite (fun _ => grown_raise) fun _ => ?_
      refine Triple.ite (fun _ => grown_raise) fun _ => ?_
      refine Triple.modify fun s hs => ?_
      rw [hs]
      exact hstock.saved (fun _ => rfl) (fun _ => rfl) fun _ => rfl

end Operations

/-! ## Runs -/

section Runs

variable {w w' : World}

/-- An operation whose answer the route does not need. -/
theorem stocks_ignore {α : Type} {x : Service α}
    (h : Triple (fun s => s = w) x (fun _ => Stock) (fun _ => Grown w)) :
    Triple (fun s => s = w) (do let _ ← x; pure ()) (fun _ => Stock) (fun _ => Grown w) :=
  Triple.bind _ h fun _ => Triple.pure fun _ hw => hw

theorem withTemplate_stocks (req : Request) (templateId : Nat)
    {body : TemplateModel → Service TemplateModel}
    (hbody : ∀ template, w.found req templateId false = some template →
      Triple (fun s => s = w) (body template) (fun _ => Stock) (fun _ => Grown w)) :
    Triple (fun s => s = w) (withTemplate req templateId body)
      (fun _ => Stock) (fun _ => Grown w) := by
  unfold withTemplate
  refine Triple.bind _ (getTemplateById_here req _ _) fun found => Triple.assume fun hfound => ?_
  cases found with
  | none => exact grown_raise
  | some template => exact stocks_ignore (hbody template hfound.symm)

/-- Every operation that fits keeps the stock; one that raises has removed no file. -/
theorem run_stocks (hstock : Stock w) (req : Request) (operation : Operation)
    (hfits : Fits w req operation) :
    Triple (fun s => s = w) (operation.run req) (fun _ => Stock) (fun _ => Grown w) := by
  cases operation with
  | create metadata files tenantId =>
      exact stocks_ignore (createTemplateWithFiles_stocks hstock req metadata files tenantId)
  | createBpmn metadata bpmnBytes tenantId =>
      cases bpmnBytes with
      | none => exact stocks_ignore grown_raise
      | some content =>
          exact stocks_ignore (createTemplateWithFiles_stocks hstock req metadata _ tenantId)
  | importZip zip metadata tenantId =>
      exact stocks_ignore (importTemplateFromZip_stocks hstock req zip metadata tenantId)
  | update templateKey version updates =>
      exact updateTemplate_stocks hstock req templateKey version updates hfits
  | updateById templateId updates bpmnBytes bpmnFileName =>
      exact updateTemplateById_stocks hstock req templateId updates bpmnBytes bpmnFileName hfits
  | updateFile templateId fileName content =>
      refine withTemplate_stocks req templateId fun template hfound => ?_
      exact updateFileContent_stocks hstock req (mem_of_found hfound) fileName content
        fun hadmin => hfits hadmin template hfound
  | deleteFile templateId fileName =>
      refine withTemplate_stocks req templateId fun template hfound => ?_
      exact deleteFileFromTemplate_stocks hstock req (mem_of_found hfound) fileName
        fun hadmin => hfits hadmin template hfound
  | delete templateId timestamp =>
      exact deleteTemplateById_stocks hstock req templateId timestamp hfits
  | restore templateId => exact restoreTemplateById_stocks hstock req templateId

/-- One call, whether the session commits or rolls back. -/
theorem step_stock {call : Call} (hstock : Stock w) (hmeets : Meets w call)
    (h : step w call = some w') : Stock w' := by
  have hstart : Stock { w with faults := call.faults } :=
    hstock.kept ⟨rfl, rfl, fun _ _ hdisk => hdisk⟩
  have hspec := run_stocks hstart call.req call.operation hmeets
  unfold step at h
  rcases hrun : call.operation.run call.req { w with faults := call.faults } with ⟨result, done⟩
  rw [hrun] at h
  cases result with
  | ok _ =>
      have hdone := hspec.of_ok rfl hrun
      cases h
      exact hdone.kept ⟨rfl, rfl, fun _ _ hdisk => hdisk⟩
  | error e =>
      have hgrown := hspec.of_error rfl hrun
      cases h
      exact hstart.rolledBack hgrown

/-- Stored files are what `get_file` answers. -/
theorem Stock.usable (hstock : Stock w) : w.Usable := by
  intro row hmem _
  refine ⟨hstock.bpmn row hmem, ?_⟩
  intro entry hentry
  obtain ⟨fileName, path, hname, hpath, hdisk⟩ := stored_entry (hstock.stored row hmem) hentry
  refine ⟨fileName, hname, ?_⟩
  obtain ⟨content, hcontent⟩ := Option.isSome_iff_exists.mp hdisk
  rw [content_eq]
  simp only [TemplateModel.uniqueKey] at hpath
  rw [hpath]
  simp only [hcontent]
  rfl

/-- Along a run of calls that meet the condition, from an empty database over any disk,
every version that is not deleted lists a BPMN file and has all its files. -/
theorem templates_usable {disk : Path → Option Bytes} {calls : List Call}
    (h : Run step Meets (World.start disk) calls w) : w.Usable := by
  have hstock : Stock w :=
    h.invariant (stock_start disk) fun _ _ _ hstock hmeets hstep => step_stock hstock hmeets hstep
  exact hstock.usable

end Runs

/-! ## Concrete runs -/

instance (files : List FileEntry) : Decidable (ListsBpmn files) :=
  inferInstanceAs (Decidable (∃ entry ∈ files, _))

instance (w : World) : Decidable w.Usable :=
  inferInstanceAs (Decidable (∀ row ∈ w.rows, _ → ListsBpmn row.files ∧
    ∀ entry ∈ row.files, ∃ fileName ∈ entry.fileName, _))

instance (w : World) (key : Text × Text × Text) (files : List FileEntry) :
    Decidable (Stored w key files) :=
  inferInstanceAs (Decidable (∀ entry ∈ files, ∃ path ∈ entry.place key, _))

instance (w : World) (template : TemplateModel) : Decidable (EditFits w template) :=
  inferInstanceAs (Decidable (_ ∨ _))

instance (w : World) (key : Text × Text × Text) (files : List FileEntry) (fileName : Text) :
    Decidable (SoleUse w key files fileName) :=
  inferInstanceAs (Decidable ((∀ entry ∈ files, _ → _) ∧
    ∀ row ∈ w.rows, _ → ∀ entry ∈ row.files, _))

instance (w : World) (template : TemplateModel) (fileName : Text) :
    Decidable (RemovalFits w template fileName) :=
  inferInstanceAs (Decidable (_ ∨ _ ∧ ∀ version ∈ editedVersion w template, _))

instance (w : World) (template : TemplateModel) : Decidable (OwnFiles w template) :=
  inferInstanceAs (Decidable (∀ row ∈ w.rows, _ → ∀ entry ∈ row.files, ∀ own ∈ template.files, _))

instance (w : World) (req : Request) (templateId : Nat) (fact : TemplateModel → Prop)
    [∀ template, Decidable (fact template)] : Decidable (ForFound w req templateId fact) :=
  inferInstanceAs (Decidable (_ → ∀ template ∈ w.found req templateId false, fact template))

instance (w : World) (req : Request) : ∀ operation, Decidable (Fits w req operation)
  | .create _ _ _ | .createBpmn _ _ _ | .importZip _ _ _ | .restore _ => .isTrue trivial
  | .update templateKey version updates =>
      inferInstanceAs (Decidable (_ → ∀ template ∈ w.addressed req templateKey version, _ → _ → _ →
        ∀ files ∈ updates.files, ListsBpmn files ∧ Stored w template.uniqueKey files))
  | .updateById _ _ _ _ =>
      inferInstanceAs (Decidable (ForFound _ _ _ fun template => _ → _ → _ → _ → EditFits w template))
  | .updateFile _ _ _ =>
      inferInstanceAs (Decidable (ForFound _ _ _ fun template =>
        (∃ entry ∈ template.files, _) → EditFits w template))
  | .deleteFile _ fileName =>
      inferInstanceAs (Decidable (ForFound _ _ _ fun template =>
        (∃ entry ∈ template.files, _) → ListsBpmn _ → RemovalFits w template fileName))
  | .delete _ _ =>
      inferInstanceAs (Decidable (ForFound _ _ _ fun template => _ → _ → OwnFiles w template))

instance (w : World) (call : Call) : Decidable (Meets w call) :=
  inferInstanceAs (Decidable (Fits _ _ _))

/-- Create a version of the template `leave` with one file for each name. -/
def createLeave (version : Text) (isPublished : Bool) (fileNames : List Text) : Call where
  req := editorRequest
  operation :=
    .create (some { leaveMetadata version with isPublished }) (fileNames.map fun name => (name, [1]))
      none
  faults := []

def removeFile (templateId : Nat) (fileName : Text) : Call :=
  ⟨editorRequest, .deleteFile templateId fileName, []⟩

/-- An update request that gives a list of files, or none. -/
def updateFiles (files : Option (List FileEntry)) (isPublished : Bool) : Updates where
  name := none
  description := none
  tags := none
  category := none
  visibility := none
  status := none
  files := files
  isPublished := isPublished

/-- A published version with two diagrams is edited, its draft loses one of them and is
published, and the first version is deleted and restored. -/
def ordinaryCalls : List Call :=
  let admin : Request := { editorRequest with adminPermission := fun _ => true }
  [createLeave "V1".toList true ["a.bpmn".toList, "b.bpmn".toList],
    ⟨editorRequest, .updateFile 1 "a.bpmn".toList [2], []⟩,
    removeFile 1 "a.bpmn".toList,
    ⟨editorRequest, .updateById 2 (updateFiles none true) none none, []⟩,
    ⟨admin, .delete 1 "20260101000000".toList, []⟩,
    ⟨admin, .restore 1, []⟩]

theorem ordinary_templates_usable :
    ∃ w, Run step Meets (World.start fun _ => none) ordinaryCalls w ∧
      w.rows.map (fun row => (row.isDeleted, row.files.length)) = [(false, 2), (false, 1)] ∧
        w.Usable := by
  have hexec : (exec step Meets (World.start fun _ => none) ordinaryCalls).map
      (fun w => w.rows.map fun row => (row.isDeleted, row.files.length)) =
        some [(false, 2), (false, 1)] := by decide +kernel
  obtain ⟨w, hrun, hrows⟩ := run_of_exec_map hexec
  exact ⟨w, hrun, hrows, templates_usable hrun⟩

/-- Two removals from a published version, each of which leaves that version a diagram:
both go to its draft, which loses all it has. -/
def drainedDraft : List Call :=
  [createLeave "V1".toList true ["a.bpmn".toList, "b.bpmn".toList],
    removeFile 1 "a.bpmn".toList,
    removeFile 1 "b.bpmn".toList]

/-- An update of a draft with an empty list of files. -/
def emptiedDraft : List Call :=
  [createLeave "V1".toList false ["a.bpmn".toList],
    ⟨editorRequest, .update "leave".toList "V1".toList (updateFiles (some []) false), []⟩]

/-- Two drafts whose versions are sanitised to one directory; one of them is deleted. -/
def sharedDirectory : List Call :=
  [createLeave "V1".toList false ["a.bpmn".toList],
    createLeave "V1.".toList false ["a.bpmn".toList],
    ⟨editorRequest, .delete 1 "20260101000000".toList, []⟩]

/-- The first edit of a published version, whose diagram cannot be read for the draft. -/
def failedCopy : List Call :=
  [createLeave "V1".toList true ["a.bpmn".toList, "form.json".toList],
    ⟨editorRequest, .updateFile 1 "form.json".toList [2],
      [some ⟨"Input/output error", none⟩]⟩]

/-- Each of these runs ends with a version that is not deleted and has no BPMN file or a
file that cannot be read. -/
theorem live_template_unusable :
    (∃ w, Run step (fun _ _ => True) (World.start fun _ => none) drainedDraft w ∧ ¬ w.Usable) ∧
    (∃ w, Run step (fun _ _ => True) (World.start fun _ => none) emptiedDraft w ∧ ¬ w.Usable) ∧
    (∃ w, Run step (fun _ _ => True) (World.start fun _ => none) sharedDirectory w ∧
      ¬ w.Usable) ∧
    ∃ w, Run step (fun _ _ => True) (World.start fun _ => none) failedCopy w ∧ ¬ w.Usable := by
  have hend : ∀ calls,
      (exec step (fun _ _ => True) (World.start fun _ => none) calls).map
        (fun w => decide w.Usable) = some false →
      ∃ w, Run step (fun _ _ => True) (World.start fun _ => none) calls w ∧ ¬ w.Usable := by
    intro calls hexec
    obtain ⟨w, hrun, hvalue⟩ := run_of_exec_map hexec
    exact ⟨w, hrun, of_decide_eq_false hvalue⟩
  exact ⟨hend _ (by decide +kernel), hend _ (by decide +kernel), hend _ (by decide +kernel),
    hend _ (by decide +kernel)⟩

end M8flow.Template
