import M8flow.Template.Usable

/-!
# Edits of one file

`update_file_content` stores the new bytes in the version itself, or in the draft of a
published one, which is found or made from its files.  The file is looked up in the version
that was asked for, and written to the version that the edit goes to.

- `copyFiles_run`: the copy loop as a fold, from any state.
- `disk_foldl_copyEntry`: what a place of the draft holds after the loop.
- `Kept`: the edit is in the version that it went to, and nothing else changed there.
- `edit_kept_iff`: that is so exactly when `Fitting` holds before the call.
- `edit_lost`: an edit of a file that the draft does not list any more.
-/

namespace M8flow.Template

open M8flow.Lib Proc

/-! ## Places -/

/-- The name under which a version stores a file. -/
def storedName (fileName : Text) : Option Text := (sanitize (basename fileName)).toOption

theorem filePath_eq_ok {tenantId templateKey version fileName : Text} {path : Path} :
    filePath tenantId templateKey version fileName = .ok path ↔
      versionDir tenantId templateKey version = .ok path.dir ∧
        storedName fileName = some path.name := by
  unfold filePath storedName
  cases sanitize (basename fileName) with
  | error e => exact ⟨nofun, fun h => nomatch h.2⟩
  | ok name =>
      cases versionDir tenantId templateKey version with
      | error e => exact ⟨nofun, fun h => nomatch h.1⟩
      | ok dir =>
          constructor
          · intro h
            cases h
            exact ⟨rfl, rfl⟩
          · intro h
            obtain ⟨hdir, hname⟩ := h
            cases hdir
            cases hname
            rfl

/-- The directory of a version, if its names leave anything. -/
def dirOf (key : Text × Text × Text) : Option VersionDir :=
  (versionDir key.1 key.2.1 key.2.2).toOption

theorem placeOf_eq {key : Text × Text × Text} {fileName : Text} :
    placeOf key fileName =
      (dirOf key).bind fun dir => (storedName fileName).map fun name => ⟨dir, name⟩ := by
  unfold placeOf dirOf storedName filePath
  cases sanitize (basename fileName) with
  | error e =>
      cases versionDir key.1 key.2.1 key.2.2 with
      | error e => rfl
      | ok dir => rfl
  | ok name =>
      cases versionDir key.1 key.2.1 key.2.2 with
      | error e => rfl
      | ok dir => rfl

/-- The version has a file in the place of the name. -/
def isStored (w : World) (key : Text × Text × Text) (fileName : Text) : Bool :=
  ((placeOf key fileName).bind w.disk).isSome

/-! ## The copy loop -/

/-- How the copy of one entry ends. -/
inductive CopyEnd where
  /-- nothing was written -/
  | skipped
  | copied
  /-- a write that failed and left bytes -/
  | spoiled (left : Bytes)
  deriving Repr, DecidableEq

/-- How the copy of an entry ends, and the disk calls after it. -/
def copyEnd (stored : Text → Bool) (entry : FileEntry) (faults : List (Option Fault)) :
    CopyEnd × List (Option Fault) :=
  match truthy entry.fileName with
  | none => (.skipped, faults)
  | some fileName =>
      if stored fileName = false then (.skipped, faults)
      else
        match faults.headD none with
        | some _ => (.skipped, faults.tail)
        | none =>
            match faults.tail.headD none with
            | none => (.copied, faults.tail.tail)
            | some fault => ((fault.left.map CopyEnd.spoiled).getD .skipped, faults.tail.tail)

/-- How the copies of a list of entries end. -/
def copyEnds (stored : Text → Bool) :
    List FileEntry → List (Option Fault) → List (FileEntry × CopyEnd)
  | [], _ => []
  | entry :: files, faults =>
      (entry, (copyEnd stored entry faults).1) ::
        copyEnds stored files (copyEnd stored entry faults).2

/-- The list of the draft. -/
def listed (ends : List (FileEntry × CopyEnd)) : List FileEntry :=
  (ends.filter fun ended => ended.2 = .copied).map fun ended => copyOf ended.1

theorem listed_cons (entry : FileEntry) (ended : CopyEnd) (ends : List (FileEntry × CopyEnd)) :
    listed ((entry, ended) :: ends) =
      if ended = .copied then copyOf entry :: listed ends else listed ends := by
  unfold listed
  split
  · rename_i hcopied
    simp [hcopied]
  · rename_i hother
    simp [hother]

/-- The state after the copy of one entry. -/
def World.copyEntry (key next : Text × Text × Text) (w : World) (entry : FileEntry) : World :=
  let ended := copyEnd (isStored w key) entry w.faults
  let rest := { w with faults := ended.2 }
  match entry.place next with
  | none => rest
  | some path =>
      match ended.1 with
      | .skipped => rest
      | .copied => rest.write path ((entry.place key).bind w.disk)
      | .spoiled left => rest.write path (some left)

section Copy

variable {key next : Text × Text × Text} {w : World}

theorem copyEntry_rows (entry : FileEntry) :
    (w.copyEntry key next entry).rows = w.rows ∧
      (w.copyEntry key next entry).nextId = w.nextId ∧
      (w.copyEntry key next entry).faults = (copyEnd (isStored w key) entry w.faults).2 := by
  unfold World.copyEntry
  dsimp only
  split
  · exact ⟨rfl, rfl, rfl⟩
  · split
    · exact ⟨rfl, rfl, rfl⟩
    · exact ⟨rfl, rfl, rfl⟩
    · exact ⟨rfl, rfl, rfl⟩

theorem placeOf_of_isStored {fileName : Text} (h : isStored w key fileName = true) :
    ∃ path content, placeOf key fileName = some path ∧ w.disk path = some content := by
  obtain ⟨content, hcontent⟩ := Option.isSome_iff_exists.mp h
  obtain ⟨path, hpath, hdisk⟩ := Option.bind_eq_some_iff.mp hcontent
  exact ⟨path, content, hpath, hdisk⟩

/-- A file that is not there is not read. -/
theorem getFile_not_stored {fileName : Text} (h : isStored w key fileName = false) :
    ∃ e, getFile key.1 key.2.1 key.2.2 fileName w = (.error (.api e), w) := by
  unfold getFile
  cases hpath : filePath key.1 key.2.1 key.2.2 fileName with
  | error e =>
      rw [ofExcept_error_bind_run]
      exact ⟨e, rfl⟩
  | ok path =>
      have hdisk : w.disk path = none := by
        unfold isStored at h
        rw [placeOf_eq_some.mpr hpath, Option.bind_some] at h
        exact Option.isSome_eq_false_iff.mp h |> Option.isNone_iff_eq_none.mp
      rw [ofExcept_ok_bind_run, read_bind_run, hdisk]
      exact ⟨_, rfl⟩

/-- An entry that is not skipped has a name with a file. -/
theorem stored_of_copyEnd {stored : Text → Bool} {entry : FileEntry}
    {faults : List (Option Fault)} (h : (copyEnd stored entry faults).1 ≠ .skipped) :
    ∃ fileName, entry.fileName = some fileName ∧ stored fileName = true := by
  unfold copyEnd at h
  split at h
  · exact absurd rfl h
  · rename_i fileName hname
    split at h
    · exact absurd rfl h
    · rename_i hstored
      exact ⟨fileName, (truthy_eq_some.mp hname).1, Bool.eq_true_of_not_eq_false hstored⟩

/-- What a place holds after the copy of one entry. -/
theorem disk_copyEntry (entry : FileEntry) (path : Path) :
    (w.copyEntry key next entry).disk path =
      if entry.place next = some path then
        match (copyEnd (isStored w key) entry w.faults).1 with
        | .skipped => w.disk path
        | .copied => (entry.place key).bind w.disk
        | .spoiled left => some left
      else w.disk path := by
  unfold World.copyEntry
  dsimp only
  cases hplace : entry.place next with
  | none => rfl
  | some other =>
      dsimp only
      by_cases hsame : other = path
      · subst hsame
        rw [if_pos rfl]
        cases (copyEnd (isStored w key) entry w.faults).1 with
        | skipped => rfl
        | copied => exact if_pos rfl
        | spoiled left => exact if_pos rfl
      · rw [if_neg (fun h => hsame (Option.some.inj h))]
        cases (copyEnd (isStored w key) entry w.faults).1 with
        | skipped => rfl
        | copied => exact if_neg (Ne.symm hsame)
        | spoiled left => exact if_neg (Ne.symm hsame)

/-- The parts of a place. -/
theorem placeOf_parts {fileName : Text} {path : Path} (h : placeOf key fileName = some path) :
    dirOf key = some path.dir ∧ storedName fileName = some path.name := by
  rw [placeOf_eq] at h
  obtain ⟨dir, hdir, hrest⟩ := Option.bind_eq_some_iff.mp h
  obtain ⟨name, hname, hpath⟩ := Option.map_eq_some_iff.mp hrest
  rw [← hpath]
  exact ⟨hdir, hname⟩

/-- Where the draft shares its directory with the version, an entry that is not skipped is
copied onto itself. -/
theorem own_place {entry : FileEntry} {fileName : Text} {path : Path}
    (hpath : placeOf key fileName = some path) (hplace : entry.place next = some path)
    (hended : (copyEnd (isStored w key) entry w.faults).1 ≠ .skipped) :
    entry.place key = some path ∧ (w.disk path).isSome = true := by
  obtain ⟨name, hname, hstored⟩ := stored_of_copyEnd hended
  unfold FileEntry.place at hplace ⊢
  rw [hname, Option.bind_some] at hplace ⊢
  obtain ⟨hdir, -⟩ := placeOf_parts hpath
  obtain ⟨-, hclean⟩ := placeOf_parts hplace
  have hown : placeOf key name = some path := by
    rw [placeOf_eq, hdir, hclean]
    rfl
  refine ⟨hown, ?_⟩
  unfold isStored at hstored
  rw [hown] at hstored
  exact hstored

/-- The copy of one entry does not change which files the version has. -/
theorem isStored_copyEntry (entry : FileEntry) :
    isStored (w.copyEntry key next entry) key = isStored w key := by
  funext fileName
  unfold isStored
  cases hpath : placeOf key fileName with
  | none => rfl
  | some path =>
      rw [Option.bind_some, Option.bind_some, disk_copyEntry]
      split
      · rename_i hplace
        cases hended : (copyEnd (isStored w key) entry w.faults).1 with
        | skipped => rfl
        | copied =>
            obtain ⟨hown, hdisk⟩ := own_place hpath hplace (by rw [hended]; decide)
            dsimp only
            rw [hown]
            rfl
        | spoiled left =>
            obtain ⟨-, hdisk⟩ := own_place hpath hplace (by rw [hended]; nofun)
            exact hdisk.symm
      · rfl

/-- The body of the copy loop. -/
theorem copyEntry_run {number : Nat} {entry : FileEntry} {fileName : Text}
    (hname : truthy entry.fileName = some fileName)
    {handler : Raised → Service (List FileEntry)} (hhandler : ∀ e, handler (.api e) = pure []) :
    Proc.tryExcept
      (do
        let content ← getFile key.1 key.2.1 key.2.2 fileName
        storeFile key.1 key.2.1 (vVersion number) fileName content
        pure [⟨some (entry.fileType.getD (fileTypeFromFilename fileName)), some fileName⟩])
      handler w =
      (.ok (listed [(entry, (copyEnd (isStored w key) entry w.faults).1)]),
        w.copyEntry key (key.1, key.2.1, vVersion number) entry) := by
  obtain ⟨hentry, -⟩ := truthy_eq_some.mp hname
  have hplace : ∀ version, entry.place version = placeOf version fileName := by
    intro version
    unfold FileEntry.place
    rw [hentry, Option.bind_some]
  unfold World.copyEntry copyEnd
  rw [hname, hplace, hplace]
  dsimp only
  cases hstored : isStored w key fileName with
  | false =>
      obtain ⟨e, hget⟩ := getFile_not_stored hstored
      rw [tryExcept_run_error (bind_run_error hget), hhandler]
      rw [if_pos rfl]
      cases placeOf (key.1, key.2.1, vVersion number) fileName with
      | none => rfl
      | some path => rfl
  | true =>
      obtain ⟨path, content, hpath, hdisk⟩ := placeOf_of_isStored hstored
      have hfile := placeOf_eq_some.mp hpath
      obtain ⟨path', hnext⟩ := filePath_vVersion hfile number
      have hplace' : placeOf (key.1, key.2.1, vVersion number) fileName = some path' :=
        placeOf_eq_some.mpr hnext
      have hget := getFile_run hfile hdisk
      have hstore := storeFile_run hnext content w.spend
      rw [spend_faults] at hstore
      rw [if_neg (by decide), hplace', hpath, Option.bind_some, hdisk]
      dsimp only
      cases hread : w.faults.headD none with
      | some fault =>
          rw [hread] at hget
          rw [tryExcept_run_error (bind_run_error hget), hhandler]
          rfl
      | none =>
          rw [hread] at hget
          cases hwrite : w.faults.tail.headD none with
          | some fault =>
              rw [hwrite] at hstore
              rw [tryExcept_run_error ((bind_run_ok hget).trans (bind_run_error hstore)), hhandler]
              unfold World.leftBy
              dsimp only
              cases fault.left with
              | none => rfl
              | some left => rfl
          | none =>
              rw [hwrite] at hstore
              rw [tryExcept_run_ok ((bind_run_ok hget).trans (bind_run_ok hstore))]
              dsimp only
              rw [listed_cons, if_pos rfl]
              unfold copyOf
              rw [hentry]
              rfl

/-- An entry without a name, or that is skipped, leaves the disk. -/
theorem copyEntry_nameless {entry : FileEntry} (h : truthy entry.fileName = none) :
    copyEnd (isStored w key) entry w.faults = (.skipped, w.faults) ∧
      w.copyEntry key next entry = w := by
  have hended : copyEnd (isStored w key) entry w.faults = (.skipped, w.faults) := by
    unfold copyEnd
    rw [h]
  refine ⟨hended, ?_⟩
  unfold World.copyEntry
  rw [hended]
  cases entry.place next with
  | none => rfl
  | some path => rfl

/-- The copy loop returns the entries that were copied. -/
theorem copyFiles_run (number : Nat) (files : List FileEntry) :
    ∀ w, copyFiles key.1 key.2.1 key.2.2 (vVersion number) files w =
      (.ok (listed (copyEnds (isStored w key) files w.faults)),
        files.foldl (World.copyEntry key (key.1, key.2.1, vVersion number)) w) := by
  induction files with
  | nil =>
      intro w
      rfl
  | cons entry files ih =>
      intro w
      have hrest := ih (w.copyEntry key (key.1, key.2.1, vVersion number) entry)
      obtain ⟨-, -, hfaults⟩ := @copyEntry_rows key (key.1, key.2.1, vVersion number) w entry
      rw [isStored_copyEntry, hfaults] at hrest
      rw [List.foldl_cons]
      unfold copyFiles copyEnds
      cases hname : truthy entry.fileName with
      | none =>
          obtain ⟨hended, hsame⟩ :=
            @copyEntry_nameless key (key.1, key.2.1, vVersion number) w entry hname
          rw [hended, hsame] at hrest ⊢
          rw [listed_cons, if_neg fun h => by cases h]
          exact hrest
      | some fileName =>
          dsimp only
          refine (bind_run_ok (copyEntry_run hname fun _ => rfl)).trans ?_
          rw [bind_run_ok hrest, listed_cons, listed_cons]
          split
          · rfl
          · rfl

end Copy

/-! ## What the draft holds -/

/-- The bytes that failed writes of the loop have left in the place of a name, and that no
later copy has replaced; a copy of a file onto itself replaces nothing. -/
def leftover (same : Bool) (name : Text) :
    List (FileEntry × CopyEnd) → Option Bytes → Option Bytes
  | [], left => left
  | ended :: ends, left =>
      leftover same name ends
        (if ended.1.fileName.bind storedName = some name then
          match ended.2 with
          | .skipped => left
          | .copied => if same then left else none
          | .spoiled bytes => some bytes
        else left)

section Draft

variable {key next : Text × Text × Text} {src dst : VersionDir} {name : Text} {content : Bytes}

theorem place_eq_some (hdir : dirOf key = some src) {entry : FileEntry} {path : Path} :
    entry.place key = some path ↔
      path.dir = src ∧ entry.fileName.bind storedName = some path.name := by
  unfold FileEntry.place
  cases entry.fileName with
  | none => simp
  | some fileName =>
      rw [Option.bind_some, Option.bind_some, placeOf_eq, hdir, Option.bind_some,
        Option.map_eq_some_iff]
      constructor
      · intro h
        obtain ⟨other, hname, hpath⟩ := h
        rw [← hpath]
        exact ⟨rfl, hname⟩
      · intro h
        obtain ⟨rfl, hname⟩ := h
        exact ⟨path.name, hname, rfl⟩

/-- What the place of the name holds in the version that is copied: its content, or what is
left there if the draft shares the place. -/
def Source (src dst : VersionDir) (name : Text) (content : Bytes) (left : Option Bytes)
    (w : World) : Prop :=
  w.disk ⟨src, name⟩ = some (if src = dst then left.getD content else content)

/-- The place of the name in the draft has been written: it holds what is left there, or
else the content. -/
def Filled (dst : VersionDir) (name : Text) (content : Bytes) (left : Option Bytes)
    (w : World) : Prop :=
  w.disk ⟨dst, name⟩ = some (left.getD content)

theorem disk_copyEntry_other {w : World} {entry : FileEntry} {dir : VersionDir}
    (hnext : dirOf next = some dst) (h : entry.fileName.bind storedName ≠ some name) :
    (w.copyEntry key next entry).disk ⟨dir, name⟩ = w.disk ⟨dir, name⟩ := by
  rw [disk_copyEntry, if_neg]
  intro hplace
  exact h ((place_eq_some hnext).mp hplace).2

/-- The copy of one entry, at the place of a name. -/
theorem copyEntry_filled {w : World} {left : Option Bytes} (hkey : dirOf key = some src)
    (hnext : dirOf next = some dst) (hsource : Source src dst name content left w)
    (entry : FileEntry) {ended : CopyEnd}
    (hended : (copyEnd (isStored w key) entry w.faults).1 = ended) :
    Source src dst name content (leftover (src = dst) name [(entry, ended)] left)
        (w.copyEntry key next entry) ∧
      (Filled dst name content left w ∨
          ended = .copied ∧ entry.fileName.bind storedName = some name →
        Filled dst name content (leftover (src = dst) name [(entry, ended)] left)
          (w.copyEntry key next entry)) := by
  unfold Source Filled leftover leftover
  by_cases hname : entry.fileName.bind storedName = some name
  · have hplace : entry.place next = some ⟨dst, name⟩ := (place_eq_some hnext).mpr ⟨rfl, hname⟩
    have hown : entry.place key = some ⟨src, name⟩ := (place_eq_some hkey).mpr ⟨rfl, hname⟩
    have hat := @disk_copyEntry key next w entry ⟨dst, name⟩
    rw [if_pos hplace, hended, hown, Option.bind_some] at hat
    have hsrc : src ≠ dst →
        (w.copyEntry key next entry).disk ⟨src, name⟩ = w.disk ⟨src, name⟩ := by
      intro hne
      rw [disk_copyEntry, if_neg]
      rw [hplace]
      intro hsame
      exact hne (congrArg Path.dir (Option.some.inj hsame)).symm
    unfold Source at hsource
    dsimp only
    rw [if_pos hname]
    by_cases hdirs : src = dst
    · subst hdirs
      rw [if_pos rfl] at hsource ⊢
      cases ended with
      | skipped => exact ⟨hat.trans hsource, fun _ => hat.trans hsource⟩
      | copied =>
          rw [decide_eq_true rfl]
          exact ⟨hat.trans hsource, fun _ => hat.trans hsource⟩
      | spoiled bytes => exact ⟨hat, fun _ => hat⟩
    · rw [if_neg hdirs] at hsource ⊢
      refine ⟨(hsrc hdirs).trans hsource, ?_⟩
      intro h
      cases ended with
      | skipped =>
          rcases h with hfilled | ⟨hcopied, -⟩
          · exact hat.trans hfilled
          · cases hcopied
      | copied =>
          rw [decide_eq_false hdirs]
          exact hat.trans hsource
      | spoiled bytes => exact hat
  · have hsame := fun dir => @disk_copyEntry_other key next dst name w entry dir hnext hname
    dsimp only
    rw [if_neg hname, hsame, hsame]
    refine ⟨hsource, ?_⟩
    intro h
    rcases h with hfilled | ⟨-, hhit⟩
    · exact hfilled
    · exact absurd hhit hname

/-- A file that the draft lists has its content in the draft, or what is left there. -/
theorem copyEntries_filled (hkey : dirOf key = some src) (hnext : dirOf next = some dst)
    (files : List FileEntry) :
    ∀ w left, Source src dst name content left w →
      (Filled dst name content left w ∨
        ∃ entry ∈ listed (copyEnds (isStored w key) files w.faults),
          entry.fileName.bind storedName = some name) →
      Filled dst name content
        (leftover (src = dst) name (copyEnds (isStored w key) files w.faults) left)
        (files.foldl (World.copyEntry key next) w) := by
  induction files with
  | nil =>
      intro w left _ h
      rcases h with hfilled | ⟨entry, hentry, -⟩
      · exact hfilled
      · cases hentry
  | cons entry files ih =>
      intro w left hsource h
      obtain ⟨hsource', hfilled'⟩ := copyEntry_filled hkey hnext hsource entry rfl
      have hrest := ih (w.copyEntry key next entry) _ hsource'
      obtain ⟨-, -, hfaults⟩ := @copyEntry_rows key next w entry
      rw [isStored_copyEntry, hfaults] at hrest
      apply hrest
      unfold copyEnds at h
      rw [listed_cons] at h
      rcases h with hfilled | ⟨other, hother, hname⟩
      · exact Or.inl (hfilled' (Or.inl hfilled))
      · split at hother
        · rename_i hcopied
          rcases List.mem_cons.mp hother with hsame | hlater
          · rw [hsame] at hname
            exact Or.inl (hfilled' (Or.inr ⟨hcopied, hname⟩))
          · exact Or.inr ⟨other, hlater, hname⟩
        · exact Or.inr ⟨other, hother, hname⟩

/-- A file that the draft lists is one of the version, with a content. -/
theorem stored_of_listed {stored : Text → Bool} (files : List FileEntry) :
    ∀ faults, ∀ entry ∈ listed (copyEnds stored files faults),
      ∃ fileName, entry.fileName = some fileName ∧ stored fileName = true := by
  induction files with
  | nil =>
      intro faults entry hentry
      cases hentry
  | cons first files ih =>
      intro faults entry hentry
      unfold copyEnds at hentry
      rw [listed_cons] at hentry
      split at hentry
      · rename_i hcopied
        have hnot : (copyEnd stored first faults).1 ≠ .skipped := by
          rw [hcopied]
          decide
        rcases List.mem_cons.mp hentry with hsame | hlater
        · rw [hsame]
          exact stored_of_copyEnd hnot
        · exact ih _ entry hlater
      · exact ih _ entry hentry

end Draft

/-! ## Edits -/

/-- The version that an edit starts from: the draft that it goes to, if there is one. -/
def editBase (w : World) (template : TemplateModel) : TemplateModel :=
  if template.isPublished = false then template
  else (existingDraft w.rows template.templateKey template.m8fTenantId).getD template

/-- The edit makes a draft. -/
def makesDraft (w : World) (template : TemplateModel) : Bool :=
  template.isPublished && (existingDraft w.rows template.templateKey template.m8fTenantId).isNone

/-- How the files of the version are copied to the draft that is made. -/
def draftEnds (w : World) (template : TemplateModel) : List (FileEntry × CopyEnd) :=
  copyEnds (isStored w template.uniqueKey) template.files w.faults

/-- The draft that is made has the directory of the version. -/
def sharesDir (w : World) (template : TemplateModel) : Bool :=
  match nextVersion w.rows template.templateKey template.m8fTenantId with
  | .error _ => false
  | .ok next =>
      dirOf template.uniqueKey = dirOf (template.m8fTenantId, template.templateKey, next)

/-- The list of the version that the edit goes to. -/
def targetFiles (w : World) (template : TemplateModel) : List FileEntry :=
  if makesDraft w template then listed (draftEnds w template) else (editBase w template).files

/-- The version that the edit returned lists the file and has the new bytes, and its other
files are as they were in the version that the edit started from. -/
structure Kept (w w' : World) (template target : TemplateModel) (fileName : Text)
    (content : Bytes) : Prop where
  lists : ∃ entry ∈ target.files, entry.fileName = some fileName
  reads : w'.content target fileName = .ok content
  others : ∀ entry ∈ target.files, ∀ other ∈ entry.fileName, other ≠ fileName →
    w'.content target other = w.content (editBase w template) other

/-- The version that the edit goes to lists the file, no other name of it has the place of
the file unless the bytes are there already, and no failed copy has left other bytes. -/
structure Fitting (w : World) (template : TemplateModel) (fileName : Text) (content : Bytes) :
    Prop where
  lists : ∃ entry ∈ targetFiles w template, entry.fileName = some fileName
  alone : ∀ entry ∈ targetFiles w template, ∀ other ∈ entry.fileName, other ≠ fileName →
    storedName other = storedName fileName →
      w.content (editBase w template) fileName = .ok content
  intact : makesDraft w template = true → ∀ entry ∈ targetFiles w template,
    ∀ other ∈ entry.fileName, storedName other ≠ storedName fileName →
      ∀ name ∈ storedName other,
        ∀ bytes ∈ leftover (sharesDir w template) name (draftEnds w template) none,
          w.content template other = .ok bytes

section Edit

variable {w w' w₁ : World} {template target row : TemplateModel} {req : Request}
  {fileName other : Text} {content : Bytes} {path : Path}

theorem content_of_place (hplace : placeOf row.uniqueKey fileName = some path) :
    w.content row fileName =
      match w.disk path with
      | some content => .ok content
      | none =>
          .error (.api (.of "not_found" ("File not found: " ++ String.ofList fileName) 404)) := by
  have hpath : filePath row.m8fTenantId row.templateKey row.version fileName = .ok path :=
    placeOf_eq_some.mp hplace
  have hcontent : w.content row fileName = _ := content_eq fileName
  rw [hpath] at hcontent
  exact hcontent

theorem content_eq_ok :
    w.content row fileName = .ok content ↔
      ∃ path, placeOf row.uniqueKey fileName = some path ∧ w.disk path = some content := by
  cases hplace : placeOf row.uniqueKey fileName with
  | some path =>
      rw [content_of_place hplace]
      cases hdisk : w.disk path with
      | none => simp [hdisk]
      | some bytes => simp [hdisk]
  | none =>
      have hpath := placeOf_eq.symm.trans hplace
      constructor
      · intro h
        rw [content_eq] at h
        cases hfile : filePath row.m8fTenantId row.templateKey row.version fileName with
        | error e =>
            rw [hfile] at h
            cases h
        | ok path =>
            have hsome : placeOf row.uniqueKey fileName = some path := placeOf_eq_some.mpr hfile
            rw [hplace] at hsome
            cases hsome
      · intro h
        obtain ⟨path, hsome, -⟩ := h
        cases hsome

/-- Two names with one stored name read the same file. -/
theorem content_same_name (h : storedName other = storedName fileName) :
    w.content row other = .ok content ↔ w.content row fileName = .ok content := by
  rw [content_eq_ok, content_eq_ok, placeOf_eq, placeOf_eq, h]

theorem content_congr (h : ∀ path, placeOf row.uniqueKey fileName = some path →
    w'.disk path = w.disk path) : w'.content row fileName = w.content row fileName := by
  rw [content_eq, content_eq]
  cases hfile : filePath row.m8fTenantId row.templateKey row.version fileName with
  | error e => rfl
  | ok path => simp only [h path (placeOf_eq_some.mpr hfile)]

/-- What an edit that returns has done: it has found or made its target, and has written the
file there. -/
theorem updateFileContent_ok
    (h : updateFileContent req template fileName content w = (.ok target, w')) :
    ∃ w₁ path, editTarget req template w = (.ok target, w₁) ∧
      placeOf target.uniqueKey fileName = some path ∧
      w' = w₁.spend.write path (some content) := by
  unfold updateFileContent at h
  split at h
  · cases h
  · cases hlisted : template.files.find? fun e => e.fileName = some fileName with
    | none =>
        rw [hlisted] at h
        cases h
    | some entry =>
        rw [hlisted] at h
        obtain ⟨found, w₁, hfound, hrest⟩ := bind_eq_ok.mp h
        obtain ⟨_, w₂, hstore, hpure⟩ := bind_eq_ok.mp hrest
        cases hpure
        cases hpath : filePath target.m8fTenantId target.templateKey target.version fileName with
        | error e =>
            unfold storeFile at hstore
            rw [hpath, ofExcept_error_bind_run] at hstore
            cases hstore
        | ok path =>
            rw [storeFile_run hpath] at hstore
            split at hstore
            · cases hstore
              exact ⟨w₁, path, hfound, placeOf_eq_some.mpr hpath, rfl⟩
            · cases hstore

/-- An edit that makes no draft goes to its base. -/
theorem editTarget_base (hmakes : makesDraft w template = false)
    (h : editTarget req template w = (.ok target, w₁)) :
    target = editBase w template ∧ w₁ = w := by
  unfold editTarget at h
  unfold editBase
  by_cases hpublished : template.isPublished = false
  · rw [if_pos hpublished] at h ⊢
    cases h
    exact ⟨rfl, rfl⟩
  · rw [if_neg hpublished] at h ⊢
    unfold makesDraft at hmakes
    rw [Bool.eq_true_of_not_eq_false hpublished, Bool.true_and,
      Option.isNone_eq_false_iff, Option.isSome_iff_exists] at hmakes
    obtain ⟨draft, hdraft⟩ := hmakes
    unfold getOrCreateDraftVersion at h
    rw [read_bind_run, hdraft] at h
    rw [hdraft]
    cases h
    exact ⟨rfl, rfl⟩

/-- A draft that is made: its row, and the disk after the copy loop. -/
theorem editTarget_made (hmakes : makesDraft w template = true)
    (h : editTarget req template w = (.ok target, w₁)) :
    ∃ number, nextVersion w.rows template.templateKey template.m8fTenantId =
        .ok (vVersion number) ∧
      target.uniqueKey = (template.m8fTenantId, template.templateKey, vVersion number) ∧
      target.files = listed (draftEnds w template) ∧
      w₁.disk = (template.files.foldl (World.copyEntry template.uniqueKey
        (template.m8fTenantId, template.templateKey, vVersion number)) w).disk := by
  unfold makesDraft at hmakes
  rw [Bool.and_eq_true, Option.isNone_iff_eq_none] at hmakes
  obtain ⟨hpublished, hdraft⟩ := hmakes
  unfold editTarget at h
  rw [if_neg (by rw [hpublished]; decide)] at h
  unfold getOrCreateDraftVersion at h
  rw [read_bind_run, hdraft] at h
  dsimp only at h
  cases hnext : nextVersion w.rows template.templateKey template.m8fTenantId with
  | error e =>
      rw [hnext, ofExcept_error_bind_run] at h
      cases h
  | ok next =>
      obtain ⟨number, hnumber⟩ := nextVersion_eq_vVersion hnext
      rw [hnext, ofExcept_ok_bind_run] at h
      have hcopies := @copyFiles_run template.uniqueKey number template.files w
      subst hnumber
      refine ⟨number, rfl, ?_⟩
      have hrun := (bind_run_ok hcopies).symm.trans h
      split at hrun
      · cases hrun
      · unfold insertRow at hrun
        rw [read_bind_run] at hrun
        split at hrun
        · cases hrun
        · cases hrun
          exact ⟨rfl, rfl, rfl⟩

/-- The list of the version that the edit went to. -/
theorem files_of_editTarget (h : editTarget req template w = (.ok target, w₁)) :
    target.files = targetFiles w template := by
  unfold targetFiles
  cases hmakes : makesDraft w template with
  | false =>
      obtain ⟨htarget, -⟩ := editTarget_base hmakes h
      rw [htarget]
      rfl
  | true =>
      obtain ⟨number, -, -, hfiles, -⟩ := editTarget_made hmakes h
      exact hfiles

/-- A file that a new draft lists has its content there, or what a failed copy left. -/
theorem content_made (hmakes : makesDraft w template = true)
    (h : editTarget req template w = (.ok target, w₁)) {entry : FileEntry}
    (hentry : entry ∈ target.files) (hother : entry.fileName = some other) :
    ∃ name bytes, storedName other = some name ∧ w.content template other = .ok bytes ∧
      w₁.content target other =
        .ok ((leftover (sharesDir w template) name (draftEnds w template) none).getD bytes) := by
  obtain ⟨number, hnext, hkey, hfiles, hdisk⟩ := editTarget_made hmakes h
  rw [hfiles] at hentry
  obtain ⟨fileName, hname, hstored⟩ := stored_of_listed _ _ entry hentry
  cases hother.symm.trans hname
  obtain ⟨path, bytes, hplace, hbytes⟩ := placeOf_of_isStored hstored
  obtain ⟨hsrc, hclean⟩ := placeOf_parts hplace
  obtain ⟨path', hfile⟩ := filePath_vVersion (placeOf_eq_some.mp hplace) number
  have hplace' : placeOf target.uniqueKey other = some path' := hkey ▸ placeOf_eq_some.mpr hfile
  obtain ⟨hdst, hclean'⟩ := placeOf_parts hplace'
  have hpath' : path' = ⟨path'.dir, path.name⟩ := by
    rw [← Option.some.inj (hclean'.symm.trans hclean)]
  have hshares : sharesDir w template = decide (path.dir = path'.dir) := by
    unfold sharesDir
    rw [hnext]
    dsimp only
    rw [hsrc, ← hkey, hdst]
    simp
  have hsource : Source path.dir path'.dir path.name bytes none w := by
    unfold Source
    rw [hbytes, Option.getD_none, ite_self]
  have hentryName : entry.fileName.bind storedName = some path.name := by
    rw [hother]
    exact hclean
  have hfilled := copyEntries_filled hsrc (hkey ▸ hdst) template.files w none hsource
    (Or.inr ⟨entry, hentry, hentryName⟩)
  refine ⟨path.name, bytes, hclean, content_eq_ok.mpr ⟨path, hplace, hbytes⟩, ?_⟩
  rw [hshares]
  refine content_eq_ok.mpr ⟨path', hplace', ?_⟩
  rw [hdisk, hpath']
  exact hfilled

/-- Before the file is written, another file of the version that the edit goes to is as it
was, or a failed copy has left other bytes. -/
theorem content_target_iff (h : editTarget req template w = (.ok target, w₁)) {entry : FileEntry}
    (hentry : entry ∈ target.files) (hother : entry.fileName = some other) :
    w₁.content target other = w.content (editBase w template) other ↔
      (makesDraft w template = true → ∀ name ∈ storedName other,
        ∀ bytes ∈ leftover (sharesDir w template) name (draftEnds w template) none,
          w.content template other = .ok bytes) := by
  cases hmakes : makesDraft w template with
  | false =>
      obtain ⟨htarget, hworld⟩ := editTarget_base hmakes h
      rw [htarget, hworld]
      exact ⟨fun _ => nofun, fun _ => rfl⟩
  | true =>
      obtain ⟨name, bytes, hname, hbefore, hafter⟩ := content_made hmakes h hentry hother
      have hbase : editBase w template = template := by
        unfold makesDraft at hmakes
        rw [Bool.and_eq_true, Option.isNone_iff_eq_none] at hmakes
        unfold editBase
        rw [hmakes.2, Option.getD_none, ite_self]
      rw [hbase, hbefore, hafter, hname]
      cases hleft : leftover (sharesDir w template) name (draftEnds w template) none with
      | none =>
          refine ⟨?_, fun _ => rfl⟩
          intro _ _ name' hname' left hin
          cases hname'
          rw [hleft] at hin
          cases hin
      | some left =>
          constructor
          · intro hsame _ name' hname' left' hin
            cases hname'
            rw [hleft] at hin
            cases hin
            exact hsame.symm
          · intro hintact
            exact (hintact rfl name rfl left hleft).symm

/-- A write, at the names of its place and at the others. -/
theorem content_written (hplace : placeOf row.uniqueKey fileName = some path) :
    (storedName other = storedName fileName →
      (w.write path (some content)).content row other = .ok content) ∧
    (storedName other ≠ storedName fileName →
      (w.write path (some content)).content row other = w.content row other) := by
  constructor
  · intro hsame
    rw [content_same_name hsame]
    exact content_eq_ok.mpr ⟨path, hplace, if_pos rfl⟩
  · intro hne
    apply content_congr
    intro path' hplace'
    apply if_neg
    intro hpath
    subst hpath
    exact hne ((placeOf_parts hplace').2.trans (placeOf_parts hplace).2.symm)

end Edit

/-- An edit that returns is kept exactly when the state before the call fits it. -/
theorem edit_kept_iff {req : Request} {template target : TemplateModel} {fileName : Text}
    {content : Bytes} {w w' : World}
    (h : updateFileContent req template fileName content w = (.ok target, w')) :
    Kept w w' template target fileName content ↔ Fitting w template fileName content := by
  obtain ⟨w₁, path, htarget, hplace, hw'⟩ := updateFileContent_ok h
  have hfiles := files_of_editTarget htarget
  have hwritten := fun other => @content_written w₁.spend target fileName other content path hplace
  have hspent : ∀ other, w₁.spend.content target other = w₁.content target other :=
    fun other => content_congr fun _ _ => rfl
  rw [← hw'] at hwritten
  constructor
  · intro hkept
    refine ⟨hfiles ▸ hkept.lists, ?_, ?_⟩
    · intro entry hentry other hother hne hsame
      have hbefore := hkept.others entry (hfiles ▸ hentry) other hother hne
      rw [(hwritten other).1 hsame] at hbefore
      exact (content_same_name hsame).mp hbefore.symm
    · intro hmakes entry hentry other hother hname
      have hne : other ≠ fileName := fun heq => hname (congrArg storedName heq)
      have hbefore := hkept.others entry (hfiles ▸ hentry) other hother hne
      rw [(hwritten other).2 hname, hspent] at hbefore
      exact (content_target_iff htarget (hfiles ▸ hentry) hother).mp hbefore hmakes
  · intro hfits
    refine ⟨hfiles ▸ hfits.lists, (hwritten fileName).1 rfl, ?_⟩
    intro entry hentry other hother hne
    have hlisted : entry ∈ targetFiles w template := hfiles ▸ hentry
    by_cases hsame : storedName other = storedName fileName
    · rw [(hwritten other).1 hsame]
      exact ((content_same_name hsame).mpr (hfits.alone entry hlisted other hother hne hsame)).symm
    · rw [(hwritten other).2 hsame, hspent, content_target_iff htarget hentry hother]
      intro hmakes
      exact hfits.intact hmakes entry hlisted other hother hsame

set_option synthInstance.maxSize 512 in
instance (w : World) (template : TemplateModel) (fileName : Text) (content : Bytes) :
    Decidable (Fitting w template fileName content) :=
  decidable_of_iff
    ((∃ entry ∈ targetFiles w template, entry.fileName = some fileName) ∧
      (∀ entry ∈ targetFiles w template, ∀ other ∈ entry.fileName, other ≠ fileName →
        storedName other = storedName fileName →
          w.content (editBase w template) fileName = .ok content) ∧
      (makesDraft w template = true → ∀ entry ∈ targetFiles w template,
        ∀ other ∈ entry.fileName, storedName other ≠ storedName fileName →
          ∀ name ∈ storedName other,
            ∀ bytes ∈ leftover (sharesDir w template) name (draftEnds w template) none,
              w.content template other = .ok bytes))
    ⟨fun h => ⟨h.1, h.2.1, h.2.2⟩, fun h => ⟨h.lists, h.alone, h.intact⟩⟩

/-- The list of the version that an edit of a file of a row returns. -/
def World.editedList (w : World) (id : Nat) (fileName : Text) (content : Bytes) :
    Option (List FileEntry) :=
  (w.row id).bind fun template =>
    ((updateFileContent editorRequest template fileName content w).1.toOption).map
      TemplateModel.files

theorem edit_of_editedList {w : World} {id : Nat} {fileName : Text} {content : Bytes}
    {files : List FileEntry} (h : w.editedList id fileName content = some files) :
    ∃ template target w', w.row id = some template ∧
      updateFileContent editorRequest template fileName content w = (.ok target, w') ∧
      target.files = files := by
  obtain ⟨template, hrow, hedit⟩ := Option.bind_eq_some_iff.mp h
  obtain ⟨target, hresult, hfiles⟩ := Option.map_eq_some_iff.mp hedit
  rcases hrun : updateFileContent editorRequest template fileName content w with ⟨result, w'⟩
  rw [hrun] at hresult
  cases result with
  | error e => cases hresult
  | ok answer =>
      cases hresult
      exact ⟨template, _, w', hrow, hrun, hfiles⟩

/-- The first edit of a published version makes a draft, which has the new bytes. -/
theorem first_edit_kept :
    ∃ w template target w', Run step (fun _ _ => True) (World.start fun _ => none)
        [createLeave "V1".toList true ["a.bpmn".toList, "form.json".toList]] w ∧
      w.row 1 = some template ∧
      updateFileContent editorRequest template "form.json".toList [2] w = (.ok target, w') ∧
      Kept w w' template target "form.json".toList [2] := by
  have hexec : ∃ w, Run step (fun _ _ => True) (World.start fun _ => none)
      [createLeave "V1".toList true ["a.bpmn".toList, "form.json".toList]] w ∧
      ((w.editedList 1 "form.json".toList [2]).isSome,
        (w.row 1).map fun template => decide (Fitting w template "form.json".toList [2])) =
      (true, some true) := run_of_exec_map (by decide +kernel)
  obtain ⟨w, hrun, hvalue⟩ := hexec
  obtain ⟨hsome, hfits⟩ := Prod.mk.inj hvalue
  obtain ⟨files, hlist⟩ := Option.isSome_iff_exists.mp hsome
  obtain ⟨template, target, w', hrow, hedit, -⟩ := edit_of_editedList hlist
  rw [hrow, Option.map_some] at hfits
  exact ⟨w, template, target, w', hrun, hrow, hedit,
    (edit_kept_iff hedit).mpr (of_decide_eq_true (Option.some.inj hfits))⟩

/-- The form is removed from a published version, which takes it from the draft; an edit of
the form of the published version then goes to the draft, which does not list it. -/
theorem edit_lost :
    ∃ w template target w', Run step (fun _ _ => True) (World.start fun _ => none)
        [createLeave "V1".toList true ["a.bpmn".toList, "form.json".toList],
          removeFile 1 "form.json".toList] w ∧
      w.row 1 = some template ∧
      updateFileContent editorRequest template "form.json".toList [2] w = (.ok target, w') ∧
      target.files = [⟨some "bpmn".toList, some "a.bpmn".toList⟩] ∧
      ¬ Kept w w' template target "form.json".toList [2] := by
  have hexec : ∃ w, Run step (fun _ _ => True) (World.start fun _ => none)
      [createLeave "V1".toList true ["a.bpmn".toList, "form.json".toList],
        removeFile 1 "form.json".toList] w ∧
      w.editedList 1 "form.json".toList [2] =
        some [⟨some "bpmn".toList, some "a.bpmn".toList⟩] := run_of_exec_map (by decide +kernel)
  obtain ⟨w, hrun, hlist⟩ := hexec
  obtain ⟨template, target, w', hrow, hedit, hfiles⟩ := edit_of_editedList hlist
  refine ⟨w, template, target, w', hrun, hrow, hedit, hfiles, ?_⟩
  intro hkept
  obtain ⟨entry, hentry, hname⟩ := hkept.lists
  rw [hfiles, List.mem_singleton] at hentry
  rw [hentry] at hname
  exact absurd hname (by decide)

end M8flow.Template
