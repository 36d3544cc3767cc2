import M8flow.Template.Archive
import Mathlib.Data.List.Forall2

/-!
# Exporting a template and importing it again

The exporter writes every file of a version under its listed name.  The importer takes the
base name of an entry, skips dotfiles and has limits for the archive, its entries and their
content, and a creation derives the type of a file from its name.

- `RoundTrips`: the import of the exported bytes gives a version with the same list and the
  same bytes.
- `Importable`: the names, types and sizes that the importer leaves as they are.
- `extracted_archived`: the extraction of an archive with such names is the archive.
- `roundTrips_iff`: the round trip is there exactly for importable versions.
- `unportable_templates`: versions that a creation accepts and that are not importable.
-/

namespace M8flow.Template

open M8flow.Lib Proc

/-- The import keeps the name of the entry, and a creation gives it the type. -/
def Portable (entry : FileEntry) : Prop :=
  ∃ name ∈ entry.fileName, entry.fileType = some (fileTypeFromFilename name) ∧
    basename name = name ∧ extractable name

/-- What the importer leaves as it is, of a template that is exported from `w`. -/
structure Importable (zip : ZipLibrary) (w : World) (template : TemplateModel) : Prop where
  names : ∀ entry ∈ template.files, Portable entry
  bpmn : ListsBpmn template.files
  count : template.files.length ≤ maxZipEntries
  extracted : totalSize (archived w template template.files) ≤ maxExtractedSize
  size : (zip.write (archived w template template.files)).length ≤ maxZipSize

/-- The row has the files of the template, with the bytes that the template has in `w`. -/
structure CopyOf (w : World) (template : TemplateModel) (w' : World) (row : TemplateModel) :
    Prop where
  mem : row ∈ w'.rows
  files : row.files = template.files
  contents : ∀ entry ∈ template.files, ∀ fileName ∈ entry.fileName,
    w'.content row fileName = w.content template fileName

/-- A template is exported and the bytes are imported, each by a request of its own and in a
world of its own: the import gives a copy of the template. -/
def RoundTrips (zip : ZipLibrary) (exported : World) (req : Request) (template : TemplateModel)
    (imported : World) (importReq : Request) (metadata : Metadata) (tenantId : Option Text) :
    Prop :=
  ∃ bytes suggested w row w',
    exportTemplateZip zip req template.id exported = (.ok (bytes, suggested), w) ∧
    importTemplateFromZip importReq (zip.file bytes) metadata tenantId imported =
      (.ok row, w') ∧
    CopyOf exported template w' row

/-! ## The archive of readable files -/

section Archive

variable {w : World} {row : TemplateModel} {files : List FileEntry}

theorem fileNames_archived (h : Readable w row files) :
    files.map FileEntry.fileName = (archived w row files).map fun file => some file.1 := by
  have hall := forall_archived h
  generalize archived w row files = entries at hall ⊢
  induction hall with
  | nil => rfl
  | cons hentry _ ih =>
      rw [List.map_cons, List.map_cons, hentry.1, ih fun other hmem =>
        h other (List.mem_cons_of_mem _ hmem)]

theorem content_archived {file : Text × Bytes} (hmem : file ∈ archived w row files) :
    w.content row file.1 = .ok file.2 := by
  obtain ⟨entry, -, hentry⟩ := List.mem_filterMap.mp hmem
  obtain ⟨name, -, hname⟩ := Option.bind_eq_some_iff.mp hentry
  obtain ⟨content, hcontent, heq⟩ := Option.map_eq_some_iff.mp hname
  rw [← heq]
  cases hread : w.content row name with
  | error e =>
      rw [hread] at hcontent
      cases hcontent
  | ok stored =>
      rw [hread] at hcontent
      cases hcontent
      rfl

/-- Entries of one name have the same content, so that any of them is the right one. -/
theorem read_archived {file : Text × Bytes} (hmem : file ∈ archived w row files) :
    ZipFile.read (archived w row files) file.1 = file.2 := by
  have hread := content_archived (read_mem (List.mem_map_of_mem hmem))
  rw [content_archived hmem] at hread
  exact (Except.ok.inj hread).symm

end Archive

/-! ## Its extraction -/

/-- A directory has no base name. -/
theorem not_directory_of_extractable {name : Text} (h : extractable name) :
    name.getLast? ≠ some '/' := by
  intro hlast
  refine (of_decide_eq_true h).1 ?_
  obtain ⟨init, hinit⟩ := List.getLast?_eq_some_iff.mp hlast
  unfold basename
  rw [hinit, List.rtakeWhile_concat_neg]
  decide

/-- The entries of directories are skipped again by the loop. -/
theorem filter_fileNames (entries : List (Text × Bytes)) :
    (fileNames entries).filter extractable = (entries.map Prod.fst).filter extractable := by
  unfold fileNames
  rw [List.filter_filter]
  refine List.filter_congr fun name _ => ?_
  cases hkept : extractable name with
  | false => rfl
  | true =>
      rw [Bool.true_and]
      exact decide_eq_true (not_directory_of_extractable hkept)

/-- Names that are their own base names are extracted as they are. -/
theorem extracted_archived {entries : List (Text × Bytes)}
    (hread : ∀ file ∈ entries, ZipFile.read entries file.1 = file.2)
    (hnames : ∀ file ∈ entries, basename file.1 = file.1 ∧ extractable file.1) :
    extracted entries (fileNames entries) = entries := by
  unfold extracted
  have hall : (entries.map Prod.fst).filter extractable = entries.map Prod.fst := by
    refine List.filter_eq_self.mpr fun name hmem => ?_
    obtain ⟨file, hfile, hname⟩ := List.mem_map.mp hmem
    rw [← hname]
    exact (hnames file hfile).2
  rw [filter_fileNames, hall, List.map_map]
  have hsame : entries.map ((fun name => (basename name, ZipFile.read entries name)) ∘ Prod.fst) =
      entries.map id := by
    refine List.map_congr_left fun file hfile => ?_
    show (basename file.1, ZipFile.read entries file.1) = file
    rw [(hnames file hfile).1, hread file hfile]
  rw [hsame, List.map_id]

/-- An extraction that lists the archived names has left each of them as it is. -/
theorem names_of_listed {entries : List (Text × Bytes)}
    (h : (extracted entries (fileNames entries)).map (fun file => some file.1) =
      entries.map fun file => some file.1) :
    ∀ file ∈ entries, basename file.1 = file.1 ∧ extractable file.1 := by
  have hmap : (extracted entries (fileNames entries)).map (fun file => some file.1) =
      ((entries.map Prod.fst).filter extractable).map fun name => some (basename name) := by
    unfold extracted
    rw [filter_fileNames, List.map_map]
    rfl
  rw [hmap] at h
  have hlength : ((entries.map Prod.fst).filter extractable).length =
      (entries.map Prod.fst).length := by
    have hboth := congrArg List.length h
    rw [List.length_map, List.length_map] at hboth
    rw [hboth, List.length_map]
  have hkept := List.length_filter_eq_length_iff.mp hlength
  rw [List.filter_eq_self.mpr hkept, List.map_map] at h
  intro file hmem
  have hbase : some (basename file.1) = some file.1 := List.map_inj_left.mp h file hmem
  exact ⟨Option.some.inj hbase, hkept file.1 (List.mem_map_of_mem hmem)⟩

/-! ## The round trip -/

section RoundTrip

variable {zip : ZipLibrary} {w : World} {req : Request} {templateId : Nat}
  {template : TemplateModel}

/-- A template whose files can be read is exported, if it has any. -/
theorem exportTemplateZip_run (hcalm : w.Calm)
    (hfound : w.found req templateId false = some template)
    (hreadable : Readable w template template.files) (hne : template.files ≠ []) :
    ∃ suggested w', exportTemplateZip zip req templateId w =
      (.ok (zip.write (archived w template template.files), suggested), w') := by
  obtain ⟨w', hstream⟩ := streamZip_run template template.files w hcalm hreadable
  have hget := getTemplateById_run req templateId false w
  rw [hfound] at hget
  unfold exportTemplateZip
  rw [bind_run_ok hget]
  dsimp only
  rw [if_neg hne, bind_run_ok hstream]
  exact ⟨_, w', rfl⟩

/-- A template without files is not exported. -/
theorem files_of_export (hfound : w.found req templateId false = some template)
    {answer : Bytes × Text} {w' : World}
    (hrun : exportTemplateZip zip req templateId w = (.ok answer, w')) : template.files ≠ [] := by
  have hget := getTemplateById_run req templateId false w
  rw [hfound] at hget
  intro hnone
  unfold exportTemplateZip at hrun
  rw [bind_run_ok hget] at hrun
  dsimp only at hrun
  rw [if_pos hnone] at hrun
  cases hrun

/-- The files of an importable template are what its archive lists. -/
theorem Importable.listed (h : Importable zip w template)
    (hreadable : Readable w template template.files) :
    (archived w template template.files).map (fun file => entryOf file.1) = template.files := by
  have hall := forall_archived hreadable
  have hnames := h.names
  generalize archived w template template.files = entries at hall
  generalize template.files = files at hall hnames
  induction hall with
  | nil => rfl
  | @cons entry file files entries hentry _ ih =>
      obtain ⟨name, hname, htype, -⟩ := hnames entry List.mem_cons_self
      have hsame : name = file.1 := Option.some.inj ((Option.mem_def.mp hname).symm.trans hentry.1)
      have hhead : entryOf file.1 = entry := by
        obtain ⟨fileType, fileName⟩ := entry
        rw [← hsame]
        unfold entryOf
        rw [← htype, ← Option.mem_def.mp hname]
      rw [List.map_cons, hhead, ih fun other hmem => hnames other (List.mem_cons_of_mem _ hmem)]

/-- The archived names of an importable template are extracted as they are. -/
theorem Importable.archived_names (h : Importable zip w template)
    (hreadable : Readable w template template.files) :
    ∀ file ∈ archived w template template.files,
      basename file.1 = file.1 ∧ extractable file.1 := by
  intro file hmem
  have hentry : entryOf file.1 ∈ template.files := by
    rw [← h.listed hreadable]
    exact List.mem_map.mpr ⟨file, hmem, rfl⟩
  obtain ⟨name, hname, -, hbase, hkept⟩ := h.names _ hentry
  rw [Option.some.inj (Option.mem_def.mp hname)]
  exact ⟨hbase, hkept⟩

theorem Importable.hasBpmn (h : Importable zip w template)
    (hreadable : Readable w template template.files) :
    hasBpmn (archived w template template.files) := by
  obtain ⟨entry, hmem, htype⟩ := h.bpmn
  rw [← h.listed hreadable] at hmem
  obtain ⟨file, hfile, hentry⟩ := List.mem_map.mp hmem
  rw [← hentry] at htype
  exact List.any_eq_true.mpr ⟨file, hfile, decide_eq_true (Option.some.inj htype)⟩

/-- The extraction gives the archive back. -/
theorem Importable.extracts (h : Importable zip w template)
    (hreadable : Readable w template template.files) :
    safeExtractZip (zip.file (zip.write (archived w template template.files))) =
      .ok (archived w template template.files) := by
  have hsame := extracted_archived (fun file => read_archived) (h.archived_names hreadable)
  refine (safeExtractZip_eq_ok (zip.entries_write _)).mpr ⟨h.size, ?_, hsame.symm, h.extracted⟩
  have hlength : (archived w template template.files).length = template.files.length := by
    rw [← congrArg List.length (h.listed hreadable), List.length_map]
  refine Nat.le_trans (List.length_filter_le _ _) ?_
  rw [List.length_map, hlength]
  exact h.count

variable {imported : World} {importReq : Request} {metadata : Metadata} {tenantId : Option Text}
  {key : Text × Text × Text}

/-- What is written to the places of an importable template's names is what it has there. -/
theorem Importable.contents (hreadable : Readable w template template.files)
    (hmay : MayCreate importReq imported metadata tenantId key) {w' : World}
    {row : TemplateModel} (hkey : row.uniqueKey = key)
    (hwritten : ∀ file ∈ archived w template template.files, ∀ path,
      placeOf key file.1 = some path →
        WrittenBy key (archived w template template.files) w'.disk path) :
    ∀ entry ∈ template.files, ∀ fileName ∈ entry.fileName,
      w'.content row fileName = w.content template fileName := by
  intro entry hmem fileName hname
  have hsome : some fileName ∈ template.files.map FileEntry.fileName :=
    List.mem_map.mpr ⟨entry, hmem, Option.mem_def.mp hname⟩
  rw [fileNames_archived hreadable] at hsome
  obtain ⟨file, hfile, hsame⟩ := List.mem_map.mp hsome
  rw [← Option.some.inj hsame]
  have hcontent := content_archived hfile
  obtain ⟨stored, hstored⟩ := storedName_of_content hcontent
  obtain ⟨path, hplace⟩ := Option.isSome_iff_exists.mp
    (hmay.place (Option.isSome_iff_exists.mpr ⟨stored, hstored⟩))
  obtain ⟨other, hother, hplace', hdisk⟩ := hwritten file hfile path hplace
  have hshared : storedName file.1 = storedName other.1 :=
    (filePath_eq_ok.mp (placeOf_eq_some.mp hplace)).2.trans
      (filePath_eq_ok.mp (placeOf_eq_some.mp hplace')).2.symm
  rw [content_sameStored (content_archived hother) hshared]
  rw [← hkey] at hplace
  exact content_eq_ok.mpr ⟨path, hplace, hdisk⟩

/-- The files of a template that came back are those of an importable one. -/
theorem importable_of_listed (hreadable : Readable w template template.files)
    {files : List (Text × Bytes)}
    (hfiles : safeExtractZip (zip.file (zip.write (archived w template template.files))) =
      .ok files)
    (hbpmn : hasBpmn files)
    (hlisted : template.files = files.map fun file => entryOf file.1) :
    Importable zip w template := by
  obtain ⟨hsize, hcount, hextracted, htotal⟩ :=
    (safeExtractZip_eq_ok (zip.entries_write _)).mp hfiles
  have hnames : ∀ file ∈ archived w template template.files,
      basename file.1 = file.1 ∧ extractable file.1 := by
    refine names_of_listed ?_
    rw [← hextracted, ← fileNames_archived hreadable]
    conv_rhs => rw [hlisted]
    rw [List.map_map]
    rfl
  have hsame := extracted_archived (fun file => read_archived) hnames
  rw [hsame] at hextracted
  refine ⟨?_, ?_, ?_, ?_, hsize⟩
  · intro entry hmem
    rw [hlisted] at hmem
    obtain ⟨file, hfile, hentry⟩ := List.mem_map.mp hmem
    rw [hextracted] at hfile
    rw [← hentry]
    exact ⟨file.1, rfl, rfl, hnames file hfile⟩
  · rw [hlisted]
    exact listsBpmn_of_hasBpmn hbpmn
  · have hlength : template.files.length =
        (extracted (archived w template template.files)
          (fileNames (archived w template template.files))).length := by
      rw [hsame, ← hextracted]
      conv_lhs => rw [hlisted]
      rw [List.length_map]
    rw [hlength]
    unfold extracted
    rw [List.length_map]
    exact Nat.le_trans (List.length_filter_le _ _) hcount
  · rw [← hextracted]
    exact htotal

/-- A template that came back is importable. -/
theorem importable_of_roundTrips (hcalm : w.Calm)
    (hfound : w.found req template.id false = some template)
    (hreadable : Readable w template template.files)
    (hmay : MayCreate importReq imported metadata tenantId key)
    (h : RoundTrips zip w req template imported importReq metadata tenantId) :
    Importable zip w template := by
  obtain ⟨bytes, suggested, w₁, row, w', hexport, himport, hcopy⟩ := h
  have hne := files_of_export hfound hexport
  have hrun : ∃ expected w₂, exportTemplateZip zip req template.id w =
      (.ok (zip.write (archived w template template.files), expected), w₂) :=
    exportTemplateZip_run hcalm hfound hreadable hne
  obtain ⟨expected, w₂, hrun⟩ := hrun
  rw [hrun] at hexport
  cases hexport
  obtain ⟨files, hfiles, hbpmn⟩ := hmay.extracted himport
  have hlist := hmay.lists hfiles hbpmn himport
  exact importable_of_listed hreadable hfiles hbpmn (hcopy.files.symm.trans hlist)

/-- The round trip of a readable template, for any request and metadata that may create the
copy: it is there exactly if the importer leaves the template's files as they are. -/
theorem roundTrips_iff (hcalm : w.Calm) (hfound : w.found req template.id false = some template)
    (hreadable : Readable w template template.files) (hcalm' : imported.Calm)
    (hmay : MayCreate importReq imported metadata tenantId key) :
    RoundTrips zip w req template imported importReq metadata tenantId ↔
      Importable zip w template := by
  constructor
  · exact importable_of_roundTrips hcalm hfound hreadable hmay
  · intro h
    obtain ⟨entry, hentry, -⟩ := h.bpmn
    have hexport : ∃ suggested w₁, exportTemplateZip zip req template.id w =
        (.ok (zip.write (archived w template template.files), suggested), w₁) :=
      exportTemplateZip_run hcalm hfound hreadable (List.ne_nil_of_mem hentry)
    obtain ⟨suggested, w₁, hexport⟩ := hexport
    have hstored : ∀ file ∈ archived w template template.files, (storedName file.1).isSome := by
      intro file hmem
      obtain ⟨name, hname⟩ := storedName_of_content (content_archived hmem)
      rw [hname]
      rfl
    obtain ⟨row, w', himport, hmem, hkey, hlist, hwritten⟩ :=
      hmay.import_run hcalm' (h.extracts hreadable) (h.hasBpmn hreadable) hstored
    exact ⟨_, suggested, w₁, row, w', hexport, himport, hmem, hlist.trans (h.listed hreadable),
      Importable.contents hreadable hmay hkey hwritten⟩

end RoundTrip

/-! ## Templates that come back, and templates that do not -/

instance (w : World) (row : TemplateModel) (files : List FileEntry) :
    Decidable (Readable w row files) :=
  inferInstanceAs (Decidable (∀ entry ∈ files, ∃ fileName ∈ entry.fileName, _))

instance (entry : FileEntry) : Decidable (Portable entry) :=
  inferInstanceAs (Decidable (∃ name ∈ entry.fileName, _ ∧ _ ∧ _))

/-- An archive without compression. -/
def plainZip : ZipLibrary where
  write := (Codec.list (Codec.pair (Codec.list Codec.char) (Codec.list Codec.byte))).put
  entries := (Codec.list (Codec.pair (Codec.list Codec.char) (Codec.list Codec.byte))).decode
  entries_write := Codec.decode_put _

/-- A version of `leave` beside the first one. -/
def secondLeave : Text × Text × Text := ("t1".toList, "leave".toList, "V2".toList)

theorem mayCreate_secondLeave {w : World}
    (hfree : secondLeave ∉ w.rows.map TemplateModel.uniqueKey) :
    MayCreate editorRequest w (leaveMetadata "V2".toList) none secondLeave where
  user := by decide
  tenantMember := rfl
  username := by decide
  tenant := by decide
  templateKey := by decide
  name := ⟨"Leave".toList, by decide, by decide⟩
  version := rfl
  free row hmem hkey := hfree (List.mem_map.mpr ⟨row, hmem, hkey⟩)
  directory := by decide

/-- What there is to see of the first template after its creation. -/
def World.firstTemplate (w : World) : List (Option Fault) × Bool × Option (Nat × Bool × Bool) :=
  (w.faults, decide (secondLeave ∈ w.rows.map TemplateModel.uniqueKey),
    (w.found editorRequest 1 false).map fun template =>
      (template.id, decide (Readable w template template.files),
        decide ((∀ entry ∈ template.files, Portable entry) ∧ ListsBpmn template.files ∧
          template.files.length ≤ maxZipEntries ∧
          totalSize (archived w template template.files) ≤ maxExtractedSize ∧
          (plainZip.write (archived w template template.files)).length ≤ maxZipSize)))

theorem template_of_firstTemplate {w : World} {importable : Bool}
    (h : w.firstTemplate = ([], false, some (1, true, importable))) :
    ∃ template, w.found editorRequest template.id false = some template ∧
      Readable w template template.files ∧ w.Calm ∧
      MayCreate editorRequest w (leaveMetadata "V2".toList) none secondLeave ∧
      (importable = true ↔ Importable plainZip w template) := by
  obtain ⟨hfaults, hrest⟩ := Prod.mk.inj h
  obtain ⟨hfree, hfound⟩ := Prod.mk.inj hrest
  obtain ⟨template, htemplate, hvalue⟩ := Option.map_eq_some_iff.mp hfound
  obtain ⟨hid, hflags⟩ := Prod.mk.inj hvalue
  obtain ⟨hreadable, himportable⟩ := Prod.mk.inj hflags
  refine ⟨template, ?_, of_decide_eq_true hreadable, ?_,
    mayCreate_secondLeave (of_decide_eq_false hfree), ?_⟩
  · rw [hid]
    exact htemplate
  · intro fault hmem
    rw [hfaults] at hmem
    cases hmem
  · rw [← himportable, decide_eq_true_iff]
    constructor
    · intro hall
      obtain ⟨hnames, hbpmn, hcount, hextracted, hsize⟩ := hall
      exact ⟨hnames, hbpmn, hcount, hextracted, hsize⟩
    · intro hall
      exact ⟨hall.names, hall.bpmn, hall.count, hall.extracted, hall.size⟩

/-- A diagram and its form come back. -/
theorem leave_roundTrips :
    ∃ w template, Run step (fun _ _ => True) (World.start fun _ => none)
        [createLeave "V1".toList false ["leave.bpmn".toList, "form.json".toList]] w ∧
      w.found editorRequest template.id false = some template ∧
      RoundTrips plainZip w editorRequest template w editorRequest (leaveMetadata "V2".toList)
        none := by
  have hexec : ∃ w, Run step (fun _ _ => True) (World.start fun _ => none)
      [createLeave "V1".toList false ["leave.bpmn".toList, "form.json".toList]] w ∧
      w.firstTemplate = ([], false, some (1, true, true)) := run_of_exec_map (by decide +kernel)
  obtain ⟨w, hrun, hvalue⟩ := hexec
  obtain ⟨template, hfound, hreadable, hcalm, hmay, himportable⟩ :=
    template_of_firstTemplate hvalue
  exact ⟨w, template, hrun, hfound,
    (roundTrips_iff hcalm hfound hreadable hcalm hmay).mpr (himportable.mp rfl)⟩

/-- Files that a creation accepts: a dotfile, a name with a directory, and more files than
an archive may have. -/
def unportableNames : List (List Text) :=
  [["leave.bpmn".toList, ".notes.md".toList],
    ["leave.bpmn".toList, "forms/leave.json".toList],
    List.replicate 101 "leave.bpmn".toList]

/-- A template of the file names that comes to be in a run, may be exported and imported again,
and is not the same afterwards. -/
def Unportable (fileNames : List Text) : Prop :=
  ∃ w template,
    Run step (fun _ _ => True) (World.start fun _ => none)
      [createLeave "V1".toList false fileNames] w ∧
    w.found editorRequest template.id false = some template ∧
    Readable w template template.files ∧ w.Calm ∧
    MayCreate editorRequest w (leaveMetadata "V2".toList) none secondLeave ∧
    ¬ RoundTrips plainZip w editorRequest template w editorRequest
      (leaveMetadata "V2".toList) none

theorem unportable_of_mem {fileNames : List Text} (hmem : fileNames ∈ unportableNames) :
    Unportable fileNames := by
  have hexec : unportableNames.all (fun fileNames =>
      (exec step (fun _ _ => True) (World.start fun _ => none)
        [createLeave "V1".toList false fileNames]).map World.firstTemplate =
          some ([], false, some (1, true, false))) = true := by decide +kernel
  obtain ⟨w, hrun, hvalue⟩ :=
    run_of_exec_map (of_decide_eq_true (List.all_eq_true.mp hexec fileNames hmem))
  obtain ⟨template, hfound, hreadable, hcalm, hmay, himportable⟩ :=
    template_of_firstTemplate hvalue
  refine ⟨w, template, hrun, hfound, hreadable, hcalm, hmay, ?_⟩
  intro hcopies
  cases himportable.mpr (importable_of_roundTrips hcalm hfound hreadable hmay hcopies)

theorem unportable_templates :
    Unportable ["leave.bpmn".toList, ".notes.md".toList] ∧
      Unportable ["leave.bpmn".toList, "forms/leave.json".toList] ∧
      Unportable (List.replicate 101 "leave.bpmn".toList) := by
  refine ⟨unportable_of_mem ?_, unportable_of_mem ?_, unportable_of_mem ?_⟩
  · exact List.mem_cons_self
  · exact List.mem_cons_of_mem _ List.mem_cons_self
  · exact List.mem_cons_of_mem _ (List.mem_cons_of_mem _ List.mem_cons_self)

end M8flow.Template
