import M8flow.Lib.Codec
import M8flow.Template.FileEdits

/-!
# Archives of templates

`export_template_zip` writes the files of a version to an archive under their listed
names.  `import_template_from_zip` makes a new version of what `safe_extract_zip` leaves of
an archive.

- `ZipLibrary` is `zipfile`, which reads back the entries that it has written.
- `streamZip_run`: a version whose files can be read is archived whole.
- `safeExtractZip_eq_ok`: the extraction loop without its error paths.
- `storeFiles_run`: what the places of a new version hold.
- `MayCreate` and `import_run`: what an import makes of its archive, where the service lets the
  request create a version.
-/

namespace M8flow.Template

open M8flow.Lib Proc

/-! ## Export -/

/-- `zipfile`: an archive of named contents, and the entries of some bytes. -/
structure ZipLibrary where
  write : List (Text × Bytes) → Bytes
  entries : Bytes → Option (List (Text × Bytes))
  entries_write : ∀ files, entries (write files) = some files

/-- The bytes of a request as an archive. -/
def ZipLibrary.file (zip : ZipLibrary) (bytes : Bytes) : ZipFile :=
  ⟨bytes.length, zip.entries bytes⟩

/-- The loop of `stream_zip`; a file that cannot be read is left out. -/
def streamZip (tenantId templateKey version : Text) :
    List FileEntry → Service (List (Text × Bytes))
  | [] => pure []
  | entry :: entries =>
      match truthy entry.fileName with
      | none => streamZip tenantId templateKey version entries
      | some name => do
          let written ← Proc.tryExcept
            (do
              let content ← getFile tenantId templateKey version name
              pure [(name, content)])
            fun e =>
              match e with
              | .api _ => pure []
              | e => Proc.raise e
          let others ← streamZip tenantId templateKey version entries
          pure (written ++ others)

/-- `export_template_zip`. -/
def exportTemplateZip (zip : ZipLibrary) (req : Request) (templateId : Nat) :
    Service (Bytes × Text) := do
  match ← getTemplateById req templateId false with
  | none => raiseApi "not_found" "Template not found" 404
  | some template =>
      if template.files = [] then
        raiseApi "not_found" "Template has no files to export" 404
      else do
        let entries ← streamZip template.m8fTenantId template.templateKey template.version
          template.files
        pure (zip.write entries,
          "template-".toList ++ template.templateKey ++ "-".toList ++ template.version ++
            ".zip".toList)

/-- None of the coming disk calls fails. -/
def World.Calm (w : World) : Prop := ∀ fault ∈ w.faults, fault = none

theorem World.Calm.head {w : World} (h : w.Calm) : w.faults.headD none = none := by
  cases hfaults : w.faults with
  | nil => rfl
  | cons fault faults =>
      refine h fault ?_
      rw [hfaults]
      exact List.mem_cons_self

theorem World.Calm.spend {w : World} (h : w.Calm) : w.spend.Calm :=
  fun fault hmem => h fault (List.mem_of_mem_tail hmem)

/-- Two names that are stored under one have the same bytes. -/
theorem content_sameStored {w : World} {row : TemplateModel} {fileName other : Text}
    {content : Bytes} (h : w.content row fileName = .ok content)
    (hsame : storedName other = storedName fileName) :
    w.content row other = .ok content := by
  obtain ⟨path, hpath, hdisk⟩ := content_eq_ok.mp h
  obtain ⟨hdir, hname⟩ := filePath_eq_ok.mp (placeOf_eq_some.mp hpath)
  exact content_eq_ok.mpr ⟨path, placeOf_eq_some.mpr (filePath_eq_ok.mpr
    ⟨hdir, hsame.trans hname⟩), hdisk⟩

/-- A name with a file leaves something after sanitising. -/
theorem storedName_of_content {w : World} {row : TemplateModel} {fileName : Text}
    {content : Bytes} (h : w.content row fileName = .ok content) :
    ∃ name, storedName fileName = some name := by
  obtain ⟨path, hpath, -⟩ := content_eq_ok.mp h
  exact ⟨path.name, (filePath_eq_ok.mp (placeOf_eq_some.mp hpath)).2⟩

/-- The named contents of a list of files, in its order. -/
def archived (w : World) (row : TemplateModel) (files : List FileEntry) : List (Text × Bytes) :=
  files.filterMap fun entry => entry.fileName.bind fun name =>
    (w.content row name).toOption.map fun content => (name, content)

/-- Every listed file has a name and can be read. -/
def Readable (w : World) (row : TemplateModel) (files : List FileEntry) : Prop :=
  ∀ entry ∈ files, ∃ fileName ∈ entry.fileName, (w.content row fileName).isOk

/-- An entry stands in the archive with its name and its content. -/
def ArchivedAs (w : World) (row : TemplateModel) (entry : FileEntry) (file : Text × Bytes) :
    Prop :=
  entry.fileName = some file.1 ∧ w.content row file.1 = .ok file.2

theorem readable_cons {w : World} {row : TemplateModel} {entry : FileEntry}
    {files : List FileEntry} (h : Readable w row (entry :: files)) :
    ∃ file, ArchivedAs w row entry file ∧
      archived w row (entry :: files) = file :: archived w row files := by
  obtain ⟨fileName, hname, hok⟩ := h entry List.mem_cons_self
  cases hcontent : w.content row fileName with
  | error e =>
      rw [hcontent] at hok
      cases hok
  | ok content =>
      refine ⟨(fileName, content), ⟨hname, hcontent⟩, ?_⟩
      refine List.filterMap_cons_some ?_
      rw [Option.mem_def.mp hname, Option.bind_some, hcontent]
      rfl

/-- The archive of readable files has one entry for each of them. -/
theorem forall_archived {w : World} {row : TemplateModel} {files : List FileEntry}
    (h : Readable w row files) : List.Forall₂ (ArchivedAs w row) files (archived w row files) := by
  induction files with
  | nil => exact List.Forall₂.nil
  | cons entry files ih =>
      obtain ⟨file, hentry, hcons⟩ := readable_cons h
      rw [hcons]
      exact List.Forall₂.cons hentry (ih fun other hmem => h other (List.mem_cons_of_mem _ hmem))

theorem getFile_calm {w : World} {row : TemplateModel} {fileName : Text} {content : Bytes}
    (hcalm : w.Calm) (h : w.content row fileName = .ok content) :
    getFile row.m8fTenantId row.templateKey row.version fileName w = (.ok content, w.spend) := by
  obtain ⟨path, hpath, hdisk⟩ := content_eq_ok.mp h
  have hrun := getFile_run (placeOf_eq_some.mp hpath) hdisk
  rw [hcalm.head] at hrun
  exact hrun

/-- The loop archives all of a list whose files can be read. -/
theorem streamZip_run (row : TemplateModel) (files : List FileEntry) :
    ∀ w : World, w.Calm → Readable w row files → ∃ w',
      streamZip row.m8fTenantId row.templateKey row.version files w =
        (.ok (archived w row files), w') := by
  induction files with
  | nil => exact fun w _ _ => ⟨w, rfl⟩
  | cons entry files ih =>
      intro w hcalm hreadable
      obtain ⟨file, ⟨hname, hcontent⟩, hcons⟩ := readable_cons hreadable
      obtain ⟨path, hpath, -⟩ := content_eq_ok.mp hcontent
      have htruthy : truthy entry.fileName = some file.1 :=
        truthy_eq_some.mpr ⟨hname, ne_nil_of_filePath (placeOf_eq_some.mp hpath)⟩
      obtain ⟨w', hrest⟩ := ih w.spend hcalm.spend
        fun other hmem => hreadable other (List.mem_cons_of_mem _ hmem)
      refine ⟨w', ?_⟩
      unfold streamZip
      rw [htruthy]
      dsimp only
      have hread : (do
          let content ← getFile row.m8fTenantId row.templateKey row.version file.1
          pure [(file.1, content)] : Service (List (Text × Bytes))) w =
            (.ok [(file.1, file.2)], w.spend) := by
        rw [bind_run_ok (getFile_calm hcalm hcontent)]
        rfl
      rw [bind_run_ok (tryExcept_run_ok hread), bind_run_ok hrest, hcons]
      rfl

/-! ## Extraction -/

/-- The names that the loop does not skip. -/
def extractable (name : Text) : Bool := basename name ≠ [] ∧ (basename name).head? ≠ some '.'

/-- What the loop takes of the names of an archive. -/
def extracted (entries : List (Text × Bytes)) (names : List Text) : List (Text × Bytes) :=
  (names.filter extractable).map fun name => (basename name, ZipFile.read entries name)

/-- The number of bytes of some files. -/
def totalSize (files : List (Text × Bytes)) : Nat := (files.map fun file => file.2.length).sum

/-- The names of an archive that are not those of directories. -/
def fileNames (entries : List (Text × Bytes)) : List Text :=
  (entries.map Prod.fst).filter fun name => name.getLast? ≠ some '/'

theorem extractEntries_eq_ok {entries files : List (Text × Bytes)} {names : List Text} :
    ∀ {total : Nat}, total ≤ maxExtractedSize →
      (extractEntries entries names total = .ok files ↔
        files = extracted entries names ∧ total + totalSize files ≤ maxExtractedSize) := by
  induction names generalizing files with
  | nil =>
      intro total htotal
      constructor
      · intro h
        cases h
        exact ⟨rfl, htotal⟩
      · intro h
        rw [h.1]
        rfl
  | cons name names ih =>
      intro total htotal
      by_cases hskip : basename name = [] ∨ (basename name).head? = some '.'
      · have hnot : ¬ extractable name = true := by
          intro h
          obtain ⟨hbase, hhead⟩ := of_decide_eq_true h
          exact hskip.elim hbase hhead
        have hextracted : extracted entries (name :: names) = extracted entries names := by
          unfold extracted
          rw [List.filter_cons_of_neg hnot]
        unfold extractEntries
        rw [if_pos hskip, ih htotal, hextracted]
      · have hkept : extractable name = true := decide_eq_true (not_or.mp hskip)
        have hextracted : extracted entries (name :: names) =
            (basename name, ZipFile.read entries name) :: extracted entries names := by
          unfold extracted
          rw [List.filter_cons_of_pos hkept]
          rfl
        unfold extractEntries
        dsimp only
        rw [if_neg hskip, hextracted]
        by_cases hlarge : total + (ZipFile.read entries name).length > maxExtractedSize
        · rw [if_pos hlarge]
          constructor
          · intro h
            cases h
          · intro h
            obtain ⟨hfiles, hsize⟩ := h
            rw [hfiles] at hsize
            have hhead : (ZipFile.read entries name).length ≤
                totalSize ((basename name, ZipFile.read entries name) ::
                  extracted entries names) :=
              Nat.le_add_right _ _
            omega
        · rw [if_neg hlarge]
          have hroom := Nat.le_of_not_gt hlarge
          cases hrest : extractEntries entries names
              (total + (ZipFile.read entries name).length) with
          | error e =>
              constructor
              · intro h
                cases h
              · intro h
                obtain ⟨hfiles, hsize⟩ := h
                rw [hfiles] at hsize
                have hsum : totalSize ((basename name, ZipFile.read entries name) ::
                    extracted entries names) =
                      (ZipFile.read entries name).length +
                        totalSize (extracted entries names) := rfl
                have hgood : extractEntries entries names
                    (total + (ZipFile.read entries name).length) =
                      .ok (extracted entries names) :=
                  (ih hroom).mpr ⟨rfl, by omega⟩
                rw [hrest] at hgood
                cases hgood
          | ok others =>
              obtain ⟨hothers, hsize⟩ := (ih hroom).mp hrest
              have hsum : totalSize ((basename name, ZipFile.read entries name) :: others) =
                  (ZipFile.read entries name).length + totalSize others := rfl
              rw [← hothers]
              constructor
              · intro h
                cases h
                exact ⟨rfl, by omega⟩
              · intro h
                rw [h.1]
                rfl

/-- The extraction succeeds within its limits. -/
theorem safeExtractZip_eq_ok {zip : ZipFile} {entries files : List (Text × Bytes)}
    (hentries : zip.entries = some entries) :
    safeExtractZip zip = .ok files ↔
      zip.size ≤ maxZipSize ∧ (fileNames entries).length ≤ maxZipEntries ∧
        files = extracted entries (fileNames entries) ∧ totalSize files ≤ maxExtractedSize := by
  unfold safeExtractZip
  rw [hentries]
  by_cases hsize : zip.size > maxZipSize
  · rw [if_pos hsize]
    constructor
    · intro h
      cases h
    · intro h
      exact absurd hsize (Nat.not_lt.mpr h.1)
  · rw [if_neg hsize]
    show (if (fileNames entries).length > maxZipEntries then _ else _) = _ ↔ _
    by_cases hcount : (fileNames entries).length > maxZipEntries
    · rw [if_pos hcount]
      constructor
      · intro h
        cases h
      · intro h
        exact absurd hcount (Nat.not_lt.mpr h.2.1)
    · rw [if_neg hcount]
      show extractEntries entries (fileNames entries) 0 = _ ↔ _
      rw [extractEntries_eq_ok (Nat.zero_le _), Nat.zero_add]
      constructor
      · intro h
        exact ⟨Nat.le_of_not_gt hsize, Nat.le_of_not_gt hcount, h⟩
      · intro h
        exact h.2.2

/-- What is read under a name of the archive is one of its entries. -/
theorem read_mem {entries : List (Text × Bytes)} {name : Text}
    (h : name ∈ entries.map Prod.fst) : (name, ZipFile.read entries name) ∈ entries := by
  obtain ⟨entry, hmem, hname⟩ := List.mem_map.mp h
  have hsome : (entries.reverse.find? fun entry => entry.1 = name).isSome :=
    List.find?_isSome.mpr ⟨entry, List.mem_reverse.mpr hmem, decide_eq_true hname⟩
  obtain ⟨found, hfound⟩ := Option.isSome_iff_exists.mp hsome
  have hmatch := List.find?_some hfound
  have hread : ZipFile.read entries name = found.2 := by
    unfold ZipFile.read
    rw [hfound]
    rfl
  rw [hread, ← of_decide_eq_true hmatch]
  exact List.mem_reverse.mp (List.mem_of_find?_eq_some hfound)

/-! ## Creation -/

/-- The entry that a creation lists for a file. -/
def entryOf (fileName : Text) : FileEntry := ⟨some (fileTypeFromFilename fileName), some fileName⟩

/-- One of the files has its content in the place. -/
def WrittenBy (key : Text × Text × Text) (files : List (Text × Bytes)) (disk : Path → Option Bytes)
    (path : Path) : Prop :=
  ∃ file ∈ files, placeOf key file.1 = some path ∧ disk path = some file.2

theorem WrittenBy.later {key : Text × Text × Text} {file : Text × Bytes}
    {files : List (Text × Bytes)} {disk : Path → Option Bytes} {path : Path}
    (h : WrittenBy key files disk path) : WrittenBy key (file :: files) disk path := by
  obtain ⟨other, hmem, hother⟩ := h
  exact ⟨other, List.mem_cons_of_mem _ hmem, hother⟩

theorem storeFile_calm {key : Text × Text × Text} {fileName : Text} {path : Path} {w : World}
    (hcalm : w.Calm) (hplace : placeOf key fileName = some path) (content : Bytes) :
    storeFile key.1 key.2.1 key.2.2 fileName content w =
      (.ok (), w.spend.write path (some content)) := by
  rw [storeFile_run (placeOf_eq_some.mp hplace), hcalm.head]

/-- The files of a new version are all stored; each place has the content of one of them. -/
theorem storeFiles_run (key : Text × Text × Text) (files : List (Text × Bytes)) :
    ∀ w : World, w.Calm → (∀ file ∈ files, (placeOf key file.1).isSome) → ∃ w',
      storeFiles key.1 key.2.1 key.2.2 files w =
        (.ok (files.map fun file => entryOf file.1), w') ∧
      w'.rows = w.rows ∧
      (∀ path, w'.disk path = w.disk path ∨ WrittenBy key files w'.disk path) ∧
      ∀ file ∈ files, ∀ path, placeOf key file.1 = some path →
        WrittenBy key files w'.disk path := by
  induction files with
  | nil =>
      intro w _ _
      refine ⟨w, rfl, rfl, fun path => Or.inl rfl, ?_⟩
      intro file hmem
      cases hmem
  | cons file files ih =>
      intro w hcalm hplaces
      obtain ⟨path, hpath⟩ := Option.isSome_iff_exists.mp (hplaces file List.mem_cons_self)
      have hcalm' : (w.spend.write path (some file.2)).Calm := hcalm.spend
      obtain ⟨w', hrun, hrows, hdisk, hwritten⟩ := ih _ hcalm'
        fun other hmem => hplaces other (List.mem_cons_of_mem _ hmem)
      have hfirst : ∀ other, w'.disk other = w.disk other ∨
          WrittenBy key (file :: files) w'.disk other := by
        intro other
        cases hdisk other with
        | inr hlater => exact Or.inr hlater.later
        | inl hsame =>
            have hwrite : (w.spend.write path (some file.2)).disk other =
                if other = path then some file.2 else w.disk other := rfl
            rw [hwrite] at hsame
            by_cases hhere : other = path
            · rw [if_pos hhere] at hsame
              rw [← hhere] at hpath
              exact Or.inr ⟨file, List.mem_cons_self, hpath, hsame⟩
            · rw [if_neg hhere] at hsame
              exact Or.inl hsame
      refine ⟨w', ?_, hrows, hfirst, ?_⟩
      · unfold storeFiles
        dsimp only
        rw [bind_run_ok (storeFile_calm hcalm hpath file.2), bind_run_ok hrun]
        rfl
      · intro other hmem otherPath hother
        cases List.mem_cons.mp hmem with
        | inr hrest => exact (hwritten other hrest otherPath hother).later
        | inl heq =>
            rw [heq, hpath] at hother
            rw [← Option.some.inj hother]
            cases hdisk path with
            | inr hlater => exact hlater.later
            | inl hsame =>
                have hwrite : (w.spend.write path (some file.2)).disk path = some file.2 :=
                  if_pos rfl
                exact ⟨file, List.mem_cons_self, hpath, hsame.trans hwrite⟩

/-! ## Import -/

/-- The service lets the request create the version of the metadata: what it checks beside
the files, with the tenant, the key and the version that it settles on. -/
structure MayCreate (req : Request) (w : World) (metadata : Metadata) (tenantId : Option Text)
    (key : Text × Text × Text) : Prop where
  user : req.user ≠ none
  tenantMember : req.superAdminRequest = false
  username : req.gUser ≠ none
  tenant : req.tenantFor tenantId = some key.1
  templateKey : truthy metadata.templateKey = some key.2.1
  name : ∃ name, truthy metadata.name = some name ∧ validateTemplateName name = .ok ()
  version : chosenVersion w.rows metadata key.2.1 key.1 = .ok key.2.2
  free : ∀ row ∈ w.rows, row.uniqueKey ≠ key
  directory : (dirOf key).isSome

section Import

variable {req : Request} {w : World} {metadata : Metadata} {tenantId : Option Text}
  {key : Text × Text × Text}

/-- A name that leaves something has a place in a version that may be created. -/
theorem MayCreate.place (h : MayCreate req w metadata tenantId key) {fileName : Text}
    (hname : (storedName fileName).isSome) : (placeOf key fileName).isSome := by
  obtain ⟨dir, hdir⟩ := Option.isSome_iff_exists.mp h.directory
  obtain ⟨name, hname⟩ := Option.isSome_iff_exists.mp hname
  rw [placeOf_eq, hdir, hname]
  rfl

/-- A creation that is let through goes on to its files. -/
theorem MayCreate.create (h : MayCreate req w metadata tenantId key) (files : List (Text × Bytes)) :
    ∃ name, createTemplateWithFiles req (some { metadata with version := some key.2.2 }) files
        tenantId w =
      createVersion req { metadata with version := some key.2.2 } key.1 key.2.1 name key.2.2
        files w := by
  obtain ⟨name, hname, hvalid⟩ := h.name
  have htruthy : truthy (some key.2.2) = some key.2.2 :=
    truthy_eq_some.mpr ⟨rfl, chosenVersion_ne_nil h.version⟩
  have hnew : ¬ (truthy (some key.2.2) = none ∧
      (w.rows.any fun row => row.templateKey = key.2.1 ∧ row.m8fTenantId = key.1 ∧
        row.isDeleted = false)) := by
    intro hclash
    rw [htruthy] at hclash
    cases hclash.1
  refine ⟨name, ?_⟩
  unfold createTemplateWithFiles
  rw [if_neg h.user, h.tenantMember, if_neg Bool.false_ne_true, h.tenant]
  dsimp only
  rw [h.templateKey, hname]
  dsimp only
  rw [hvalid, ofExcept_ok_bind_run, read_bind_run, if_neg hnew,
    chosenVersion_again h.version, ofExcept_ok_bind_run]

/-- A creation whose files are stored flushes its row. -/
theorem MayCreate.flush (h : MayCreate req w metadata tenantId key) {files : List (Text × Bytes)}
    (hbpmn : hasBpmn files) (name : Text) {entries : List FileEntry} {w' : World}
    (hstore : storeFiles key.1 key.2.1 key.2.2 files w = (.ok entries, w'))
    (hrows : w'.rows = w.rows) :
    ∃ target : TemplateModel,
      createVersion req { metadata with version := some key.2.2 } key.1 key.2.1 name key.2.2
        files w = (.ok target, w'.inserted target) ∧
      target.files = entries ∧ target.uniqueKey = key := by
  obtain ⟨username, husername⟩ := Option.ne_none_iff_exists'.mp h.username
  have hfree : ∀ row : TemplateModel, row.uniqueKey = key →
      insertRow row w' = (.ok { row with id := w'.nextId },
        w'.inserted { row with id := w'.nextId }) := by
    intro row hkey
    have hunique : ¬ (w'.rows.any fun other => other.uniqueKey = row.uniqueKey) := by
      intro hany
      obtain ⟨other, hmem, hsame⟩ := List.any_eq_true.mp hany
      rw [hrows] at hmem
      exact h.free other hmem ((of_decide_eq_true hsame).trans hkey)
    unfold insertRow
    rw [read_bind_run, if_neg hunique]
    rfl
  unfold createVersion
  rw [if_neg (not_not_intro hbpmn), bind_run_ok hstore, husername]
  exact ⟨_, tryExcept_run_ok (hfree _ rfl), rfl, rfl⟩

/-- What an import does with the files of its archive. -/
theorem MayCreate.importZip (h : MayCreate req w metadata tenantId key) {zip : ZipFile}
    {files : List (Text × Bytes)} (hfiles : safeExtractZip zip = .ok files)
    (hbpmn : hasBpmn files) :
    importTemplateFromZip req zip metadata tenantId w =
      createTemplateWithFiles req (some { metadata with version := some key.2.2 }) files
        tenantId w := by
  obtain ⟨name, hname, -⟩ := h.name
  unfold importTemplateFromZip
  rw [if_neg h.user, h.tenantMember, if_neg Bool.false_ne_true, h.tenant]
  dsimp only
  rw [h.templateKey, hname]
  dsimp only
  rw [read_bind_run, h.version, ofExcept_ok_bind_run, hfiles, ofExcept_ok_bind_run,
    if_neg (not_not_intro hbpmn)]

/-- An import that returns has extracted a BPMN file. -/
theorem MayCreate.extracted (h : MayCreate req w metadata tenantId key) {zip : ZipFile}
    {target : TemplateModel} {w' : World}
    (hrun : importTemplateFromZip req zip metadata tenantId w = (.ok target, w')) :
    ∃ files, safeExtractZip zip = .ok files ∧ hasBpmn files := by
  obtain ⟨name, hname, -⟩ := h.name
  unfold importTemplateFromZip at hrun
  rw [if_neg h.user, h.tenantMember, if_neg Bool.false_ne_true, h.tenant] at hrun
  dsimp only at hrun
  rw [h.templateKey, hname] at hrun
  dsimp only at hrun
  rw [read_bind_run, h.version, ofExcept_ok_bind_run] at hrun
  cases hfiles : safeExtractZip zip with
  | error e =>
      rw [hfiles, ofExcept_error_bind_run] at hrun
      cases hrun
  | ok files =>
      refine ⟨files, rfl, ?_⟩
      rw [hfiles, ofExcept_ok_bind_run] at hrun
      by_cases hbpmn : hasBpmn files
      · exact hbpmn
      · rw [if_pos hbpmn] at hrun
        cases hrun

/-- An import that returns lists the files that it has extracted. -/
theorem MayCreate.lists (h : MayCreate req w metadata tenantId key) {zip : ZipFile}
    {target : TemplateModel} {w' : World} {files : List (Text × Bytes)}
    (hfiles : safeExtractZip zip = .ok files) (hbpmn : hasBpmn files)
    (hrun : importTemplateFromZip req zip metadata tenantId w = (.ok target, w')) :
    target.files = files.map fun file => entryOf file.1 := by
  obtain ⟨name, hcreate⟩ := h.create files
  rw [h.importZip hfiles hbpmn, hcreate] at hrun
  have hstored := storeFiles_stores key files w w rfl
  rcases hstore : storeFiles key.1 key.2.1 key.2.2 files w with ⟨result, w₁⟩
  rw [hstore] at hstored
  cases result with
  | error e =>
      unfold createVersion at hrun
      rw [if_neg (not_not_intro hbpmn), bind_run_error hstore] at hrun
      cases hrun
  | ok entries =>
      obtain ⟨hentries, hkeeps, -⟩ := hstored
      obtain ⟨made, hmade, hlist, -⟩ := h.flush hbpmn name hstore hkeeps.rows
      rw [hmade] at hrun
      cases hrun
      exact hlist.trans hentries

/-- An import whose files all have places succeeds; the new version lists them, and each of
their places has the content of one of them. -/
theorem MayCreate.import_run (h : MayCreate req w metadata tenantId key) (hcalm : w.Calm)
    {zip : ZipFile} {files : List (Text × Bytes)} (hfiles : safeExtractZip zip = .ok files)
    (hbpmn : hasBpmn files) (hnames : ∀ file ∈ files, (storedName file.1).isSome) :
    ∃ target w', importTemplateFromZip req zip metadata tenantId w = (.ok target, w') ∧
      target ∈ w'.rows ∧ target.uniqueKey = key ∧
      (target.files = files.map fun file => entryOf file.1) ∧
      ∀ file ∈ files, ∀ path, placeOf key file.1 = some path →
        WrittenBy key files w'.disk path := by
  obtain ⟨name, hcreate⟩ := h.create files
  obtain ⟨w₁, hstore, hrows, -, hwritten⟩ := storeFiles_run key files w hcalm
    fun file hmem => h.place (hnames file hmem)
  obtain ⟨target, hrun, hlist, hkey⟩ := h.flush hbpmn name hstore hrows
  refine ⟨target, w₁.inserted target, ?_, List.mem_append_right _ List.mem_cons_self, hkey,
    hlist, hwritten⟩
  rw [h.importZip hfiles hbpmn, hcreate, hrun]

end Import

end M8flow.Template
