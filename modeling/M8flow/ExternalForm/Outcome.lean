import M8flow.ExternalForm.Submit
import M8flow.Workflow.Durability

/-!
# What a submission leaves behind

The row and the human task are two records of one fact.  When `submit` returns,
both say that the recipient completed the task, and every open sibling link is
superseded (`Completed`).  When it raises without having committed the completed
task, the task and every sibling are as they were and the row says why it was
refused (`Refused`).
-/

namespace M8flow.ExternalForm

open M8flow.Lib M8flow.Workflow

variable {κ : Type}

/-! ## Outcomes -/

/-- The human task, open when the submission read it, is completed in `tables`. -/
def DoneTask (core : Core κ) (workItem : Option WorkItem) (tables : κ) : Prop :=
  ∃ item, workItem = some item ∧ item.completed = false ∧ core.Done tables item.id

/-- The row is completed, the open siblings are superseded, and the task is done. -/
structure Completed (core : Core κ) (db : Db κ) (row : Request) (form : FormData)
    (after : Db κ) : Prop where
  task : DoneTask core (humanTaskFor core db.core row) after.core
  own : Table.lookup Request.id after.rows row.id = some (completedRow form row)
  siblings : ∀ sibling ∈ db.rows, row.isOpenSibling sibling →
    Table.lookup Request.id after.rows sibling.id = some (supersededRow sibling)
  noneOpen : ∀ other ∈ after.rows, row.isOpenSibling other = false

/-- The ways a refused submission may leave its row. -/
inductive RefusedRow (env : Env) (workItem : Option WorkItem) (row : Request)
    (failure : Failure) (row' : Request) : Prop where
  | unchanged : row' = row → RefusedRow env workItem row failure row'
  | failed : row'.status = .failed → RefusedRow env workItem row failure row'
  /-- The link had expired. -/
  | expired (expiry : Int) : row'.status = .expired →
      row.expiresAtInSeconds = some expiry → expiry < env.now →
      RefusedRow env workItem row failure row'
  /-- The task had closed without the link. -/
  | cancelled (item : WorkItem) : row'.status = .cancelled → workItem = some item →
      item.completed = true → RefusedRow env workItem row failure row'
  /-- Core said that the task is no longer open. -/
  | alreadyDone : row'.status = .completed → failure = .api taskAlreadyCompleted →
      RefusedRow env workItem row failure row'

/-- The task and every other row are as they were. -/
structure Refused (env : Env) (core : Core κ) (db : Db κ) (row : Request)
    (failure : Failure) (after : Db κ) : Prop where
  task : after.core = db.core
  others : ∀ id, id ≠ row.id →
    Table.lookup Request.id after.rows id = Table.lookup Request.id db.rows id
  own : ∃ row', Table.lookup Request.id after.rows row.id = some row' ∧
    RefusedRow env (humanTaskFor core db.core row) row failure row'

/-! ## Writing one row -/

/-- The tables with the row of `row'.id` replaced by `row'`. -/
def withRow (db : Db κ) (row' : Request) : Db κ :=
  { db with
    rows := Table.updateAt Request.id row'.id row'.over db.rows }

theorem lookup_withRow_ne (db : Db κ) (row' : Request) {id : Nat} (hne : id ≠ row'.id) :
    Table.lookup Request.id (withRow db row').rows id = Table.lookup Request.id db.rows id :=
  Table.lookup_updateAt_ne (over_id row') hne.symm db.rows

theorem lookup_withRow_self {db : Db κ} {row row' : Request} (hid : row'.id = row.id)
    (hrow : Table.lookup Request.id db.rows row.id = some row) :
    Table.lookup Request.id (withRow db row').rows row.id = some row' := by
  show Table.lookup Request.id (Table.updateAt Request.id row'.id row'.over db.rows) row.id = _
  rw [hid, Table.lookup_updateAt_self (over_id row'), hrow, Option.map_some, over_eq hid]

/-- A commit of one changed row on top of tables that are otherwise untouched. -/
theorem commit_withRow {s : Session κ} {db : Db κ} {row' : Request}
    (hworking : s.working = db) (hdirty : s.dirty = some row') :
    s.commit.committed = withRow db row' := by
  unfold Session.commit Session.flush
  rw [hdirty, hworking]
  rfl

section Rules

variable {env : Env} {core : Core κ} {db : Db κ} {row : Request} {done : κ → Prop}

/-- The row is remarked and waits for its commit. -/
def Remarked (db : Db κ) (row : Request) (done : κ → Prop) (change : Request → Request)
    (s : Session κ) : Prop :=
  (done s.committed.core ∧ done s.working.core) ∨
    (s.committed = db ∧ s.working = db ∧ s.dirty = some (change row))

theorem remarkRow_spec {change : Request → Request} {stale : Request}
    (hrow : Table.lookup Request.id db.rows row.id = some row) (hstale : stale.id = row.id)
    {exc : Failure → Session κ → Prop} :
    Proc.Triple (Kept db done) (remarkRow stale change)
      (fun _ => Remarked db row done change) exc := by
  unfold remarkRow currentRow setRow
  apply Proc.Triple.bind fun _ s => Kept db done s ∧ s.working = s.committed ∧ s.dirty = none
  · exact Proc.Triple.modify fun s hs => ⟨hs, rfl, rfl⟩
  intro _
  apply Proc.Triple.bind fun loaded s =>
    Kept db done s ∧ s.working = s.committed ∧ s.dirty = none ∧
      (s.committed = db → loaded = row)
  · apply Proc.Triple.bind fun seen s =>
      (Kept db done s ∧ s.working = s.committed ∧ s.dirty = none) ∧ seen = s
    · exact Proc.Triple.read fun _ hs => ⟨hs, rfl⟩
    intro seen
    apply Proc.Triple.pure
    intro s hs
    obtain ⟨⟨hkept, hworking, hclean⟩, rfl⟩ := hs
    refine ⟨hkept, hworking, hclean, ?_⟩
    intro hcommitted
    rw [flush_of_clean hclean, hworking, hcommitted, hstale, hrow]
    rfl
  intro loaded
  apply Proc.Triple.modify
  intro s hs
  obtain ⟨hkept, hworking, hclean, hloaded⟩ := hs
  rw [flush_of_clean hclean]
  rcases hkept with hcommitted | hdone
  · right
    refine ⟨hcommitted, hworking.trans hcommitted, ?_⟩
    show some (change loaded) = some (change row)
    rw [hloaded hcommitted]
  · left
    refine ⟨hdone, ?_⟩
    show done s.working.core
    rw [hworking]
    exact hdone

/-- The committed tables show the completed task, or are the original ones with
the row replaced. -/
def Noted (db : Db κ) (done : κ → Prop) (row' : Request) (s : Session κ) : Prop :=
  done s.committed.core ∨ s.committed = withRow db row'

theorem commitAt_remarked {change : Request → Request} (point : CommitPoint) :
    Proc.Triple (Remarked db row done change) (commitAt env point)
      (fun _ => Noted db done (change row)) (fun _ => Kept db done) := by
  unfold commitAt
  split
  · apply Proc.Triple.modify
    intro s hs
    rcases hs with ⟨_, hdone⟩ | ⟨_, hworking, hdirty⟩
    · left
      show done s.flush.working.core
      rw [flush_working_core]
      exact hdone
    · right
      exact commit_withRow hworking hdirty
  · apply Proc.Triple.raise
    intro s hs
    rcases hs with ⟨hdone, _⟩ | ⟨hcommitted, _⟩
    · exact Or.inr hdone
    · exact Or.inl hcommitted

theorem recordFailure_spec {stale : Request} {reason : String}
    (hrow : Table.lookup Request.id db.rows row.id = some row) (hstale : stale.id = row.id)
    {exc : Failure → Session κ → Prop} :
    Proc.Triple (Kept db done) (recordFailure env stale reason)
      (fun _ s => Kept db done s ∨ Noted db done (failedRow reason.toList row) s) exc := by
  unfold recordFailure
  apply Proc.Triple.bind _ (remarkRow_spec hrow hstale)
  intro _
  apply Proc.Triple.tryExcept fun _ => Kept db done
  · exact (commitAt_remarked .failure).consequence (fun _ hs => hs)
      (fun _ _ hs => Or.inr hs) (fun _ _ hs => hs)
  · intro _
    exact Proc.Triple.modify fun _ hs => Or.inl hs

/-! ## Admission -/

/-- Where a submission that raises may leave the committed tables. -/
def Raised (env : Env) (core : Core κ) (db : Db κ) (row : Request) (failure : Failure)
    (s : Session κ) : Prop :=
  Kept db (DoneTask core (humanTaskFor core db.core row)) s ∨
    ∃ row', row'.id = row.id ∧ RefusedRow env (humanTaskFor core db.core row) row failure row' ∧
      s.committed = withRow db row'

theorem saveRow_spec (point : CommitPoint) (row' : Request) :
    Proc.Triple (fun s => s = Session.start db) (saveRow env point row row')
      (fun saved s =>
        (row'.status = row.status ∧ saved = row ∧ s = Session.start db) ∨
          (row'.status ≠ row.status ∧ saved = row' ∧ s.committed = withRow db row'))
      (fun _ s => s.committed = db) := by
  unfold saveRow setRow
  apply Proc.Triple.ite
  · intro hsame
    apply Proc.Triple.pure
    intro s hs
    exact Or.inl ⟨hsame, rfl, hs⟩
  · intro hchanged
    apply Proc.Triple.bind fun _ s => s = { Session.start db with dirty := some row' }
    · apply Proc.Triple.modify
      intro s hs
      rw [hs]
      rfl
    intro _
    apply Proc.Triple.bind fun _ s => s.committed = withRow db row'
    · unfold commitAt
      split
      · apply Proc.Triple.modify
        intro s hs
        rw [hs]
        exact commit_withRow rfl rfl
      · apply Proc.Triple.raise
        intro s hs
        rw [hs]
        rfl
    intro _
    apply Proc.Triple.pure
    intro s hs
    exact Or.inr ⟨hchanged, rfl, hs⟩

/-- Refusing a row by its status, once the row's change is committed. -/
theorem refuse_spec {saved : Request} {e : ApiError} {pre : Session κ → Prop}
    {post : Request → Session κ → Prop} {exc : Failure → Session κ → Prop}
    (hraise : raiseForUnusableStatus saved = .error e)
    (hexc : ∀ s, pre s → exc (.api e) s) :
    Proc.Triple pre (do
      Proc.ofExcept Failure.api (raiseForUnusableStatus saved)
      pure saved : Tx κ Request) post exc := by
  apply Proc.Triple.bind fun _ _ => False
  · apply Proc.Triple.ofExcept
    · intro a s hok
      rw [hraise] at hok
      cases hok
    · intro d s herror hs
      rw [hraise] at herror
      cases herror
      exact hexc s hs
  · intro _ s hs
    cases hs

theorem expireIfNeeded_cases (now : Int) (row : Request) :
    expireIfNeeded now row = row ∨
      ((expireIfNeeded now row).status = .expired ∧
        ∃ expiry, row.expiresAtInSeconds = some expiry ∧ expiry < now) := by
  unfold expireIfNeeded
  split
  · rename_i expiry hexpiry
    split
    · rename_i hpast
      exact Or.inr ⟨rfl, expiry, hexpiry, hpast.2⟩
    · exact Or.inl rfl
  · exact Or.inl rfl

theorem cancelIfTaskClosed_cases (workItem : Option WorkItem) (row : Request) :
    cancelIfTaskClosed workItem row = row ∨
      ((cancelIfTaskClosed workItem row).status = .cancelled ∧
        ∃ item, workItem = some item ∧ item.completed = true) := by
  unfold cancelIfTaskClosed
  split
  · rename_i item
    split
    · rename_i hclosed
      exact Or.inr ⟨rfl, item, rfl, hclosed.2⟩
    · exact Or.inl rfl
  · exact Or.inl rfl

theorem admitLink_spec :
    Proc.Triple (fun s => s = Session.start db) (admitLink env row)
      (fun admitted s => admitted = row ∧ row.isActionable ∧ s = Session.start db)
      (Raised env core db row) := by
  unfold admitLink
  apply Proc.Triple.bind fun _ s => row.isActionable ∧ s = Session.start db
  · apply Proc.Triple.ofExcept
    · intro _ s hok hs
      exact ⟨(raiseForUnusableStatus_eq_ok_iff row).mp hok, hs⟩
    · intro e s _ hs
      left
      left
      rw [hs]
      rfl
  intro _
  apply Proc.Triple.bind fun saved s => row.isActionable ∧
    ((saved = row ∧ s = Session.start db) ∨
      (saved = expireIfNeeded env.now row ∧ saved.status = .expired ∧
        (∃ expiry, row.expiresAtInSeconds = some expiry ∧ expiry < env.now) ∧
        s.committed = withRow db saved))
  · apply Proc.Triple.intro
    · intro s saved s' hs hrun
      refine ⟨hs.1, ?_⟩
      rcases (saveRow_spec .expire _).of_ok hs.2 hrun with ⟨_, hsaved, hstart⟩ | ⟨hne, hsaved, hcommitted⟩
      · exact Or.inl ⟨hsaved, hstart⟩
      · right
        rw [hsaved]
        rcases expireIfNeeded_cases env.now row with hsame | ⟨hexpired, hpast⟩
        · rw [hsame] at hne
          exact absurd rfl hne
        · exact ⟨rfl, hexpired, hpast, hcommitted⟩
    · intro s e s' hs hrun
      left
      left
      exact (saveRow_spec .expire _).of_error hs.2 hrun
  intro saved
  apply Proc.Triple.ite
  · intro hexpired
    have hraise : raiseForUnusableStatus saved =
        .error (.of "reference_expired" "This link has expired." 410) := by
      unfold raiseForUnusableStatus
      rw [hexpired]
    apply refuse_spec hraise
    intro s hs
    obtain ⟨hact, hcase⟩ := hs
    rcases hcase with ⟨rfl, _⟩ | ⟨hsaved, _, ⟨expiry, hexpiry, hpast⟩, hcommitted⟩
    · simp [Request.isActionable, actionableStatuses, hexpired] at hact
    · right
      refine ⟨saved, ?_, .expired expiry hexpired hexpiry hpast, hcommitted⟩
      rw [hsaved]
      exact expireIfNeeded_id env.now row
  · intro hlive
    apply Proc.Triple.pure
    intro s hs
    obtain ⟨hact, hcase⟩ := hs
    rcases hcase with ⟨hsaved, hstart⟩ | ⟨_, hexpired, _⟩
    · exact ⟨hsaved, hact, hstart⟩
    · exact absurd hexpired hlive

theorem admitOpenTask_spec (hactionable : row.isActionable) :
    Proc.Triple (fun s => s = Session.start db)
      (admitOpenTask env (humanTaskFor core db.core row) row)
      (fun admitted s => admitted = row ∧
        (∀ item, humanTaskFor core db.core row = some item → item.completed = false) ∧
        s = Session.start db)
      (Raised env core db row) := by
  have hlive : row.status ≠ .cancelled := by
    intro h
    simp [Request.isActionable, actionableStatuses, h] at hactionable
  unfold admitOpenTask
  apply Proc.Triple.bind fun saved s =>
    (saved = row ∧ s = Session.start db ∧
      ∀ item, humanTaskFor core db.core row = some item → item.completed = false) ∨
    (saved.id = row.id ∧ saved.status = .cancelled ∧ s.committed = withRow db saved ∧
      ∃ item, humanTaskFor core db.core row = some item ∧ item.completed = true)
  · apply Proc.Triple.intro
    · intro s saved s' hs hrun
      rcases (saveRow_spec .cancel _).of_ok hs hrun with
        ⟨hsame, hsaved, hstart⟩ | ⟨hne, hsaved, hcommitted⟩
      · left
        refine ⟨hsaved, hstart, ?_⟩
        intro item hitem
        by_contra hclosed
        have hretired : cancelIfTaskClosed (some item) row = retire row := by
          simp [cancelIfTaskClosed, isOpen_of_isActionable hactionable, hclosed]
        rw [hitem, hretired] at hsame
        exact hlive hsame.symm
      · right
        rcases cancelIfTaskClosed_cases (humanTaskFor core db.core row) row with
          hsame | ⟨hcancelled, item, hitem, hclosed⟩
        · rw [hsame] at hne
          exact absurd rfl hne
        · rw [hsaved]
          refine ⟨cancelIfTaskClosed_id _ row, hcancelled, ?_, item, hitem, hclosed⟩
          rw [← hsaved] at hcommitted ⊢
          exact hcommitted
    · intro s e s' hs hrun
      left
      left
      exact (saveRow_spec .cancel _).of_error hs hrun
  intro saved
  apply Proc.Triple.ite
  · intro hcancelled
    have hraise : raiseForUnusableStatus saved = .error (.of "reference_cancelled"
        "This form is no longer needed: the workflow task it belonged to was closed." 410) := by
      unfold raiseForUnusableStatus
      rw [hcancelled]
    apply refuse_spec hraise
    intro s hs
    rcases hs with ⟨hsaved, _⟩ | ⟨hid, _, hcommitted, item, hitem, hclosed⟩
    · rw [hsaved] at hcancelled
      exact absurd hcancelled hlive
    · exact Or.inr ⟨saved, hid, .cancelled item hcancelled hitem hclosed, hcommitted⟩
  · intro hnot
    apply Proc.Triple.pure
    intro s hs
    rcases hs with ⟨hsaved, hstart, hopen⟩ | ⟨_, hcancelled, _⟩
    · exact ⟨hsaved, hopen, hstart⟩
    · exact absurd hcancelled hnot

/-! ## Completion -/

theorem kept_mono {done' : κ → Prop} (himp : ∀ tables, done tables → done' tables)
    {s : Session κ} (h : Kept db done s) : Kept db done' s := by
  rcases h with hsame | hdone
  · exact Or.inl hsame
  · exact Or.inr (himp _ hdone)

theorem resumed_mono {done' : κ → Prop} (himp : ∀ tables, done tables → done' tables)
    {rows : List Request} {s : Session κ} (h : Resumed env db rows done s) :
    Resumed env db rows done' s := by
  obtain ⟨hkept, hshown⟩ := h
  refine ⟨kept_mono himp hkept, ?_⟩
  intro hsaved
  obtain ⟨hdone, hrows⟩ := hshown hsaved
  exact ⟨himp _ hdone, hrows⟩

theorem resumeTask_spec (hlaws : core.Laws) {rows : List Request} {workItem : Option WorkItem}
    (hopen : ∀ item, workItem = some item → item.completed = false) (form : FormData) :
    Proc.Triple (InFlight db rows) (resumeTask env core row workItem form)
      (fun _ => Resumed env db rows (DoneTask core workItem))
      (fun _ => Kept db (DoneTask core workItem)) := by
  unfold resumeTask
  split
  · exact Proc.Triple.raise fun _ hs => kept_of_inFlight hs
  · rename_i item
    have hdone : ∀ tables, core.Done tables item.id → DoneTask core (some item) tables :=
      fun _ h => ⟨item, rfl, hopen item rfl, h⟩
    apply Proc.Triple.bind fun _ => Resumed env db rows (DoneTask core (some item))
    · exact (submitExternalForm_resumed hlaws row.m8fTenantId item.id row.recipientUserId
        (some form)).consequence (fun _ hs => hs) (fun _ _ hs => resumed_mono hdone hs)
        (fun _ _ hs => kept_mono hdone hs)
    intro _
    exact Proc.Triple.pure fun _ hs => hs

theorem raised_of_failed {s : Session κ} {reason : Text} {failure : Failure}
    (h : Kept db (DoneTask core (humanTaskFor core db.core row)) s ∨
      Noted db (DoneTask core (humanTaskFor core db.core row)) (failedRow reason row) s) :
    Raised env core db row failure s := by
  rcases h with hkept | hdone | hcommitted
  · exact Or.inl hkept
  · exact Or.inl (Or.inr hdone)
  · exact Or.inr ⟨failedRow reason row, rfl, .failed rfl, hcommitted⟩

theorem submitHandler_spec
    (hrow : Table.lookup Request.id db.rows row.id = some row) (form : FormData)
    (failure : Failure) {post : Unit → Session κ → Prop} :
    Proc.Triple (Kept db (DoneTask core (humanTaskFor core db.core row)))
      (submitHandler env row form failure) post (Raised env core db row) := by
  unfold submitHandler
  split
  · apply Proc.Triple.ite
    · intro _
      apply Proc.Triple.bind _ (remarkRow_spec hrow rfl)
      intro _
      apply Proc.Triple.bind
        (fun _ => Noted db (DoneTask core (humanTaskFor core db.core row)) (completedRow form row))
      · exact (commitAt_remarked .alreadyDone).consequence (fun _ hs => hs)
          (fun _ _ hs => hs) (fun _ _ hs => Or.inl hs)
      intro _
      apply Proc.Triple.raise
      intro s hs
      rcases hs with hdone | hcommitted
      · exact Or.inl (Or.inr hdone)
      · exact Or.inr ⟨completedRow form row, rfl, .alreadyDone rfl rfl, hcommitted⟩
    · intro _
      apply Proc.Triple.bind _ (recordFailure_spec hrow rfl)
      intro _
      exact Proc.Triple.raise fun _ hs => raised_of_failed hs
  · apply Proc.Triple.bind _ (recordFailure_spec hrow rfl)
    intro _
    exact Proc.Triple.raise fun _ hs => raised_of_failed hs

/-! ## The end of a submission -/

/-- The rows the transaction shows while the completion runs. -/
def submittedRows (db : Db κ) (row : Request) (form : FormData) : List Request :=
  Table.updateAt Request.id row.id (submittedRow form row).over db.rows

/-- The rows that a finished submission commits. -/
def finishedRows (db : Db κ) (row : Request) (form : FormData) (added : List Request) :
    List Request :=
  Table.updateWhere row.isOpenSibling supersededRow
    (Table.updateAt Request.id row.id (completedRow form row).over
      (submittedRows db row form ++ added))

/-- An id that an open sibling has is not the row's own. -/
theorem isOpenSibling_ne {row other : Request} (h : row.isOpenSibling other) :
    other.id ≠ row.id := by
  unfold Request.isOpenSibling at h
  exact (of_decide_eq_true h).2.2.1

theorem lookup_submittedRows_self (hrow : Table.lookup Request.id db.rows row.id = some row)
    (form : FormData) (added : List Request) :
    Table.lookup Request.id (submittedRows db row form ++ added) row.id =
      some (submittedRow form row) := by
  unfold submittedRows
  rw [Table.lookup_append, Table.lookup_updateAt_self (over_id _), hrow, Option.map_some,
    over_eq (submittedRow_id form row), Option.some_or]

theorem completed_of_finishedRows
    (hkeys : (db.rows.map Request.id).Nodup)
    (hrow : Table.lookup Request.id db.rows row.id = some row) (form : FormData)
    {after : Db κ} {added : List Request}
    (htask : DoneTask core (humanTaskFor core db.core row) after.core)
    (hrows : after.rows = finishedRows db row form added) :
    Completed core db row form after := by
  refine ⟨htask, ?_, ?_, ?_⟩
  · have hself : row.isOpenSibling (completedRow form row) = false := by
      simp [Request.isOpenSibling, completedRow]
    rw [hrows]
    unfold finishedRows
    have hover : (completedRow form row).over (submittedRow form row) = completedRow form row :=
      over_eq (submittedRow_id form row).symm
    rw [Table.lookup_updateWhere supersededRow_id, Table.lookup_updateAt_self (over_id _),
      lookup_submittedRows_self hrow, Option.map_some, Option.map_some, hover, hself]
    rfl
  · intro sibling hmem hsibling
    have hne := isOpenSibling_ne hsibling
    have hlookup : Table.lookup Request.id db.rows sibling.id = some sibling :=
      Table.lookup_of_mem hkeys hmem
    rw [hrows]
    unfold finishedRows submittedRows
    rw [Table.lookup_updateWhere supersededRow_id, Table.lookup_updateAt_ne (over_id _) hne.symm,
      Table.lookup_append, Table.lookup_updateAt_ne (over_id _) hne.symm, hlookup,
      Option.some_or, Option.map_some, if_pos hsibling]
  · intro other hmem
    rw [hrows] at hmem
    unfold finishedRows Table.updateWhere at hmem
    obtain ⟨before, _, hbefore⟩ := List.mem_map.mp hmem
    rw [← hbefore]
    split
    · simp [Request.isOpenSibling, Request.isOpen, supersededRow, openStatuses,
        actionableStatuses]
    · rename_i hnot
      exact Bool.eq_false_iff.mpr hnot

theorem finishSubmission_spec
    (hkeys : (db.rows.map Request.id).Nodup)
    (hrow : Table.lookup Request.id db.rows row.id = some row) (form : FormData) :
    Proc.Triple
      (Resumed env db (submittedRows db row form) (DoneTask core (humanTaskFor core db.core row)))
      (finishSubmission env row)
      (fun _ s => EmissionSaved env → Completed core db row form s.committed)
      (Raised env core db row) := by
  unfold finishSubmission currentRow setRow supersedeSiblings
  apply Proc.Triple.bind fun loaded s =>
    Resumed env db (submittedRows db row form) (DoneTask core (humanTaskFor core db.core row)) s ∧
      (EmissionSaved env → loaded = submittedRow form row)
  · apply Proc.Triple.bind fun seen s =>
      Resumed env db (submittedRows db row form)
        (DoneTask core (humanTaskFor core db.core row)) s ∧ seen = s
    · exact Proc.Triple.read fun _ hs => ⟨hs, rfl⟩
    intro seen
    apply Proc.Triple.pure
    intro s hs
    obtain ⟨hresumed, rfl⟩ := hs
    refine ⟨hresumed, ?_⟩
    intro hsaved
    obtain ⟨_, added, hrows⟩ := hresumed.2 hsaved
    rw [hrows, lookup_submittedRows_self hrow]
    rfl
  intro loaded
  apply Proc.Triple.bind fun _ s =>
    Kept db (DoneTask core (humanTaskFor core db.core row)) s ∧
      (EmissionSaved env → loaded = submittedRow form row ∧
        DoneTask core (humanTaskFor core db.core row) s.working.core ∧
        ∃ added, s.flush.working.rows =
          Table.updateAt Request.id row.id (completedRow form row).over
            (submittedRows db row form ++ added))
  · apply Proc.Triple.modify
    intro s hs
    obtain ⟨⟨hkept, hshown⟩, hloaded⟩ := hs
    refine ⟨?_, ?_⟩
    · unfold Kept
      rw [flush_committed]
      exact hkept
    · intro hsaved
      obtain ⟨hdone, added, hrows⟩ := hshown hsaved
      have hsubmitted := hloaded hsaved
      refine ⟨hsubmitted, ?_, added, ?_⟩
      · rw [flush_working_core]
        exact hdone
      · rw [hsubmitted, ← hrows]
        rfl
  intro _
  apply Proc.Triple.bind fun _ s =>
    Kept db (DoneTask core (humanTaskFor core db.core row)) s ∧
      (EmissionSaved env → DoneTask core (humanTaskFor core db.core row) s.working.core ∧
        s.dirty = none ∧ ∃ added, s.working.rows = finishedRows db row form added)
  · apply Proc.Triple.modify
    intro s hs
    obtain ⟨hkept, hshown⟩ := hs
    refine ⟨?_, ?_⟩
    · unfold Kept
      rw [flush_committed]
      exact hkept
    · intro hsaved
      obtain ⟨hloaded, hdone, added, hrows⟩ := hshown hsaved
      refine ⟨?_, flush_dirty s, added, ?_⟩
      · rw [flush_working_core]
        exact hdone
      · rw [hrows, hloaded]
        rfl
  intro _
  apply Proc.Triple.bind fun _ s => EmissionSaved env → Completed core db row form s.committed
  · unfold commitAt
    split
    · apply Proc.Triple.modify
      intro s hs hsaved
      obtain ⟨hdone, hclean, added, hrows⟩ := hs.2 hsaved
      have hcommitted : s.commit.committed = s.working := by
        unfold Session.commit
        rw [flush_of_clean hclean]
      rw [hcommitted]
      exact completed_of_finishedRows hkeys hrow form hdone hrows
    · apply Proc.Triple.raise
      intro s hs
      exact Or.inl hs.1
  intro _
  exact Proc.Triple.pure fun _ hs => hs

theorem findRequestOrRaise_spec {referenceId : String}
    (hfind : (db.rows.find? fun row => row.referenceId = referenceId) = some row)
    {exc : Failure → Session κ → Prop} :
    Proc.Triple (fun s => s = Session.start db) (findRequestOrRaise referenceId)
      (fun found s => found = row ∧ s = Session.start db) exc := by
  unfold findRequestOrRaise
  apply Proc.Triple.bind fun seen s => seen = Session.start db ∧ s = Session.start db
  · exact Proc.Triple.read fun _ hs => ⟨hs, hs⟩
  intro seen s hs
  obtain ⟨rfl, rfl⟩ := hs
  have hfound : (Session.start db).working.rows.find?
      (fun row => row.referenceId = referenceId) = some row := hfind
  rw [hfound]
  exact ⟨rfl, rfl⟩

/-- The row is marked, and the completion may start. -/
theorem inFlight_submitted (form : FormData) (flag : Bool) :
    InFlight db (submittedRows db row form)
      { Session.start db with dirty := some (submittedRow form row), completionFlag := flag } :=
  ⟨rfl, rfl⟩

theorem submit_spec (hlaws : core.Laws) (hkeys : (db.rows.map Request.id).Nodup)
    {referenceId : String}
    (hfind : (db.rows.find? fun row => row.referenceId = referenceId) = some row)
    (form : FormData) :
    Proc.Triple (fun s => s = Session.start db) (submit env core referenceId form)
      (fun _ s => EmissionSaved env → Completed core db row form s.committed)
      (Raised env core db row) := by
  have hrow : Table.lookup Request.id db.rows row.id = some row :=
    Table.lookup_of_mem hkeys (List.mem_of_find?_eq_some hfind)
  unfold submit
  apply Proc.Triple.bind _ (findRequestOrRaise_spec hfind)
  intro found
  apply Proc.Triple.assume
  rintro rfl
  apply Proc.Triple.bind _ admitLink_spec
  intro admitted
  apply Proc.Triple.assume
  rintro rfl
  apply Proc.Triple.assume
  intro hactionable
  apply Proc.Triple.bind fun seen s => seen = Session.start db ∧ s = Session.start db
  · exact Proc.Triple.read fun _ hs => ⟨hs, hs⟩
  intro seen
  apply Proc.Triple.assume
  rintro rfl
  apply Proc.Triple.bind _ (admitOpenTask_spec hactionable)
  intro opened
  apply Proc.Triple.assume
  rintro rfl
  apply Proc.Triple.assume
  intro hopen
  apply Proc.Triple.bind fun _ s =>
    s = { Session.start db with dirty := some (submittedRow form opened) }
  · apply Proc.Triple.modify
    rintro s rfl
    rfl
  intro _
  apply Proc.Triple.ite
  · intro _
    apply Proc.Triple.bind fun _ s =>
      Kept db (DoneTask core (humanTaskFor core db.core opened)) s ∨
        Noted db (DoneTask core (humanTaskFor core db.core opened))
          (failedRow "Recipient user no longer exists.".toList opened) s
    · refine (recordFailure_spec hrow rfl).consequence ?_ (fun _ _ hs => hs) (fun _ _ hs => hs)
      rintro s rfl
      exact Or.inl rfl
    intro _
    exact Proc.Triple.raise fun _ hs => raised_of_failed hs
  · intro _
    apply Proc.Triple.bind fun _ => InFlight db (submittedRows db opened form)
    · apply Proc.Triple.modify
      rintro s rfl
      exact inFlight_submitted form true
    intro _
    apply Proc.Triple.bind fun _ => Resumed env db (submittedRows db opened form)
      (DoneTask core (humanTaskFor core db.core opened))
    · apply Proc.Triple.tryExcept
        (fun _ => Kept db (DoneTask core (humanTaskFor core db.core opened)))
      · exact resumeTask_spec hlaws hopen form
      · intro failure
        exact submitHandler_spec hrow form failure
    intro _
    exact finishSubmission_spec hkeys hrow form

/-- Leaving the committed tables as they were, but for a note on the row, refuses
the submission without touching anything else. -/
theorem refused_of_raised (hrow : Table.lookup Request.id db.rows row.id = some row)
    {failure : Failure} {s : Session κ} (h : Raised env core db row failure s)
    (hnot : ¬ DoneTask core (humanTaskFor core db.core row) s.committed.core) :
    Refused env core db row failure s.committed := by
  rcases h with (hsame | hdone) | ⟨row', hid, hrefused, hcommitted⟩
  · rw [hsame]
    exact ⟨rfl, fun _ _ => rfl, row, hrow, .unchanged rfl⟩
  · exact absurd hdone hnot
  · rw [hcommitted]
    refine ⟨rfl, ?_, row', lookup_withRow_self hid hrow, hrefused⟩
    intro id hne
    exact lookup_withRow_ne db row' (by rw [hid]; exact hne)

/-- What `submit` leaves in the committed tables.  If it returns, and no save of
follow-up links was refused on the way, the row is completed, every open sibling
is superseded and the human task is completed.  If it raises and the completed
task is not committed, the task and every other row are untouched, and the row is
as it was, `failed`, `expired` past its expiry, `cancelled` because its task had
closed, or `completed` when core answered that the task is no longer open. -/
theorem submit_outcome (hlaws : core.Laws) (hkeys : (db.rows.map Request.id).Nodup)
    {referenceId : String}
    (hfind : (db.rows.find? fun row => row.referenceId = referenceId) = some row)
    (form : FormData) :
    match submit env core referenceId form (Session.start db) with
    | (.ok _, s) => EmissionSaved env → Completed core db row form s.committed
    | (.error failure, s) =>
        ¬ DoneTask core (humanTaskFor core db.core row) s.committed.core →
          Refused env core db row failure s.committed := by
  have hrow : Table.lookup Request.id db.rows row.id = some row :=
    Table.lookup_of_mem hkeys (List.mem_of_find?_eq_some hfind)
  have hspec : Proc.Triple (fun s => s = Session.start db) (submit env core referenceId form)
      (fun _ s => EmissionSaved env → Completed core db row form s.committed)
      (Raised env core db row) := submit_spec hlaws hkeys hfind form
  rcases hrun : submit env core referenceId form (Session.start db) with ⟨result, s⟩
  cases result with
  | ok response => exact hspec.of_ok rfl hrun
  | error failure =>
      intro hnot
      exact refused_of_raised hrow (hspec.of_error rfl hrun) hnot

end Rules

/-! ## Two submissions -/

/-- A core whose tables are its work items and whose completion marks the item. -/
def listCore : Core (List WorkItem) where
  workItems := id
  readyTasks := fun _ _ _ => []
  suspended := fun _ _ => false
  userIds := fun _ => [11, 12]
  taskData := fun _ _ _ => []
  hasCompletedEvent := fun _ _ _ _ => false
  flushes := true
  claimTask := fun items _ _ _ => (.ok (), items)
  completeTask := fun items _ workItemId _ _ =>
    match Table.lookup WorkItem.id items workItemId with
    | none => (.error (.core .notFound "no such work item"), items)
    | some item =>
        (.ok item.processInstanceId,
          Table.updateAt WorkItem.id workItemId (fun item => { item with completed := true }) items)
  recordEvent := fun items _ _ _ _ _ => (.ok (), items)
  errorInstance := fun items _ _ _ => (.ok (), items)

theorem listCore_laws : listCore.Laws where
  completes := by
    intro items items' tenantId workItemId userId payload instanceId hrun
    simp only [listCore] at hrun
    cases hitem : Table.lookup WorkItem.id items workItemId with
    | none => simp [hitem] at hrun
    | some item =>
        simp only [hitem, Prod.mk.injEq] at hrun
        refine ⟨{ item with completed := true }, ?_, rfl⟩
        show Table.lookup WorkItem.id items' workItemId = _
        rw [← hrun.2, Table.lookup_updateAt_self, hitem]
        · rfl
        · intro _
          rfl
  recordEvent_keeps := fun _ _ _ _ _ _ _ hdone => hdone
  errorInstance_keeps := fun _ _ _ _ _ hdone => hdone

/-- A quiet outside world at second 50. -/
def quietEnv : Env where
  now := 50
  ttl := 3600
  newReferenceId := fun id => "new-" ++ toString id
  redactBounded := id
  stringify := fun _ => []
  commitFails := fun _ => none

/-- Tables with `reviewTask` open and the given links. -/
def reviewDb (rows : List Request) : Db (List WorkItem) :=
  { core := [reviewTask], rows := rows, errors := [] }

/-- The first of two recipients submits: both records agree. -/
theorem submit_first_link :
    Completed listCore (reviewDb [reviewLink 1 .notified none, reviewLink 2 .notified none])
      (reviewLink 1 .notified none) []
      (submit quietEnv listCore "ref-1" []
        (Session.start (reviewDb [reviewLink 1 .notified none, reviewLink 2 .notified none]))
        ).2.committed := by
  have hkeys : ((reviewDb [reviewLink 1 .notified none, reviewLink 2 .notified none]).rows.map
      Request.id).Nodup := by decide
  have hreturned : EmissionSaved quietEnv →
      Completed listCore (reviewDb [reviewLink 1 .notified none, reviewLink 2 .notified none])
        (reviewLink 1 .notified none) []
        (submit quietEnv listCore "ref-1" []
          (Session.start (reviewDb [reviewLink 1 .notified none, reviewLink 2 .notified none]))
          ).2.committed :=
    @submit_outcome _ quietEnv _ _ (reviewLink 1 .notified none) listCore_laws hkeys "ref-1" rfl []
  exact hreturned fun _ => rfl

/-- The row is completed and every open sibling superseded if and only if the
task is durably completed; otherwise the row stays open or failed and no sibling
changes. -/
def RowFollowsTask (core : Core κ) (db : Db κ) (row : Request) (after : Db κ) : Prop :=
  let own := Table.lookup Request.id after.rows row.id
  let settled := (∃ row', own = some row' ∧ row'.status = .completed) ∧
    ∀ sibling ∈ db.rows, row.isOpenSibling sibling →
      (Table.lookup Request.id after.rows sibling.id).map Request.status = some .superseded
  (settled ↔ DoneTask core (humanTaskFor core db.core row) after.core) ∧
    (¬ settled → (∃ row', own = some row' ∧ (row'.isOpen ∨ row'.status = .failed)) ∧
      ∀ id, id ≠ row.id →
        Table.lookup Request.id after.rows id = Table.lookup Request.id db.rows id)

/-- A link past its expiry is neither settled nor left open or failed: it expires. -/
theorem expired_link_expires :
    ¬ RowFollowsTask listCore (reviewDb [reviewLink 1 .notified (some 40)])
      (reviewLink 1 .notified (some 40))
      (submit quietEnv listCore "ref-1" []
        (Session.start (reviewDb [reviewLink 1 .notified (some 40)]))).2.committed := by
  intro hfollows
  have hown : Table.lookup Request.id (submit quietEnv listCore "ref-1" []
      (Session.start (reviewDb [reviewLink 1 .notified (some 40)]))).2.committed.rows
      (reviewLink 1 .notified (some 40)).id = some (reviewLink 1 .expired (some 40)) := rfl
  obtain ⟨_, hrest⟩ := hfollows
  obtain ⟨⟨row', hrow', hstatus⟩, _⟩ := hrest (by
    intro hsettled
    obtain ⟨row', hrow', hcompleted⟩ := hsettled.1
    rw [hown] at hrow'
    cases hrow'
    cases hcompleted)
  rw [hown] at hrow'
  cases hrow'
  rcases hstatus with hopen | hfailed
  · exact absurd hopen (by decide)
  · cases hfailed

end M8flow.ExternalForm
