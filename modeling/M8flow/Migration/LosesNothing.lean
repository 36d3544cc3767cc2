import M8flow.Lib.Results
import M8flow.Migration.CoreUpgrade
import Mathlib.Data.List.Forall2

/-!
# What the core 0.2.1 upgrade keeps

An upgrade that returns is to have kept every human task as a work item, every
assignment, every route and command, and the time of every event, and to have left a
digest with every process definition; one that raises because of the data is not to have
dropped a legacy column that holds data.

The work items and the routes are kept always.  `upgrade_keepsAll_iff` says when the rest
is: no assignment was there with other details, every definition had its digest before,
the dialect converts every time exactly, and no route is dropped before an event is found
that cannot be migrated.

A row that has both its new and its legacy form stands for the new one: a resource pair is
the route, an `occurred_at` the time, and a digest that is already there the digest.
-/

namespace M8flow.Migration.CoreContract

open M8flow.Lib M8flow.Lib.Sql M8flow.Lib.Proc

/-! ## What is to hold -/

/-- The moment that an epoch time is. -/
def instantOf : Option Value → Option Value
  | some (.int seconds) => some (.instant (seconds * 1000000))
  | some (.decimal millionths) => some (.instant millionths)
  | _ => none

def eventTime (row : Row) : Option Value := (row .occurredAt).or (instantOf (row .timestamp))

/-- The resource pair that a permission target stands for. -/
def route (row : Row) : Option Value × Option Value :=
  if hasPair row then (row .resourceType, row .resourceId)
  else (some (.text "tenant".toList), row .uri)

def definitionDigest (row : Row) : Option Value :=
  (row .processXmlDigest).or (canonicalDigest row)

def CarriesDigest (before after : Row) : Prop :=
  after .processXmlDigest ≠ none ∧ after .processXmlDigest = definitionDigest before

def KeepsTarget (before after : Row) : Prop :=
  (after .resourceType, after .resourceId) = route before ∧ after .command = before .command

def KeepsTime (before after : Row) : Prop :=
  after .occurredAt ≠ none ∧ after .occurredAt = eventTime before

/-- After an upgrade that returned. -/
structure Completed (before after : Db) : Prop where
  workItems : ∀ humanTask ∈ before.rows .humanTask, ∃ workItem ∈ after.rows .workItem,
    ∀ column ∈ targetColumns, workItem column = humanTask column
  assignments : ∀ humanTaskUser ∈ before.rows .humanTaskUser,
    ∃ workItemUser ∈ after.rows .workItemUser,
      Assignment.ofWorkItemUser workItemUser = Assignment.ofHumanTaskUser humanTaskUser
  digests : List.Forall₂ CarriesDigest (before.rows .bpmnProcessDefinition)
    (after.rows .bpmnProcessDefinition)
  targets : List.Forall₂ KeepsTarget (before.rows .permissionTarget)
    (after.rows .permissionTarget)
  events : List.Forall₂ KeepsTime (before.rows .processInstanceEvent)
    (after.rows .processInstanceEvent)

/-- The tables and columns that the upgrade removes with the data it has moved. -/
def Legacy (table : TableName) (column : Column) : Prop :=
  table = .humanTask ∨ table = .humanTaskUser ∨
    (table, column) ∈ [(TableName.bpmnProcessDefinition, Column.fullProcessModelHash),
      (.bpmnProcessDefinition, .singleProcessHash), (.permissionTarget, .uri),
      (.processInstanceEvent, .timestamp)]

/-- Some row has a value in the column. -/
def Holds (db : Db) (table : TableName) (column : Column) : Prop :=
  ∃ row ∈ db.rows table, row column ≠ none

/-- No legacy column with data has been dropped. -/
def LegacyKept (before after : Db) : Prop :=
  ∀ table column, Legacy table column → Holds before table column →
    column ∈ after.columns table

def KeepsAll (engine : Engine) (db : Db) : Prop :=
  match upgrade engine db with
  | (.ok _, after) => Completed db after
  | (.error error, after) => error.ofData → LegacyKept db after

/-! ## When it holds -/

/-- What is already assigned is assigned with the same details. -/
def AssignmentsAgree (db : Db) : Prop :=
  ∀ humanTaskUser ∈ db.rows .humanTaskUser,
    alreadyAssigned db (Assignment.ofHumanTaskUser humanTaskUser) = true →
      ∃ workItemUser ∈ db.rows .workItemUser,
        Assignment.ofWorkItemUser workItemUser = Assignment.ofHumanTaskUser humanTaskUser

/-- The digests are there before the upgrade. -/
def DigestsThere (db : Db) : Prop :=
  ∀ row ∈ db.rows .bpmnProcessDefinition, row .processXmlDigest ≠ none

/-- The dialect's expression gives the moment of every epoch time that it converts. -/
def TimesConvert (engine : Engine) (db : Db) : Prop :=
  ∀ row ∈ db.rows .processInstanceEvent, row .occurredAt = none →
    ∀ expression, eventTimestampExpression engine = some expression →
      expression (row .timestamp) = instantOf (row .timestamp)

/-! ## Legacy columns -/

theorem legacyKept_refl (db : Db) : LegacyKept db db := by
  intro table column _ hholds
  obtain ⟨row, hrow, hvalue⟩ := hholds
  unfold Database.rows at hrow
  unfold Database.columns
  cases htable : db table with
  | none =>
      rw [htable] at hrow
      cases hrow
  | some found =>
      rw [htable] at hrow
      exact Decidable.byContradiction fun hcolumn => hvalue (found.absent row hrow column hcolumn)

section LegacyKept

variable {before db : Db} {n : TableName}

theorem LegacyKept.set (h : LegacyKept before db) (hn : ∀ column, ¬ Legacy n column)
    (table : Option (Table Column Value)) : LegacyKept before (db.set n table) := by
  intro m column hlegacy hholds
  have hother : m ≠ n := fun hsame => hn column (hsame ▸ hlegacy)
  rw [Database.columns_congr (Database.set_other db hother table)]
  exact h m column hlegacy hholds

/-- A change that drops no legacy column with data. -/
theorem LegacyKept.change (h : LegacyKept before db) {f : Table Column Value → Table Column Value}
    (hf : ∀ table column, Legacy n column → Holds before n column → column ∈ table.columns →
      column ∈ (f table).columns) : LegacyKept before (db.change n f) := by
  intro m column hlegacy hholds
  have hkept := h m column hlegacy hholds
  by_cases hsame : m = n
  · subst hsame
    unfold Database.columns at hkept ⊢
    rw [Database.change_same]
    cases htable : db m with
    | none => rwa [htable] at hkept
    | some table =>
        rw [htable] at hkept
        exact hf table column hlegacy hholds hkept
  · rwa [Database.columns_congr (Database.change_other db hsame f)]

/-- A change of a table that has no legacy column. -/
theorem LegacyKept.change_other (h : LegacyKept before db) (hn : ∀ column, ¬ Legacy n column)
    (f : Table Column Value → Table Column Value) : LegacyKept before (db.change n f) :=
  h.set hn _

end LegacyKept

theorem not_legacy {n : TableName} (hn : n ∉ [TableName.humanTask, .humanTaskUser,
    .bpmnProcessDefinition, .permissionTarget, .processInstanceEvent]) (column : Column) :
    ¬ Legacy n column := by
  unfold Legacy
  simp only [List.mem_cons, List.not_mem_nil, not_or, or_false, Prod.mk.injEq] at hn ⊢
  tauto

/-- A statement that drops no legacy column, refused or not. -/
theorem execute_keeps {before : Db} {engine : Engine} {statement : Statement} {change : Db → Db}
    (h : ∀ db, LegacyKept before db → LegacyKept before (change db)) :
    Preserves (LegacyKept before) (execute engine statement change) :=
  Preserves.bind (Preserves.check _) fun _ => Preserves.modify h

theorem renameGroupTable_keeps (before : Db) :
    Preserves (LegacyKept before) renameGroupTable := by
  refine Preserves.bind (Preserves.check _) fun _ => ?_
  refine Preserves.branch (Preserves.modify fun db h => ?_) (Preserves.pure ())
  exact (h.set (not_legacy (by decide)) _).set (not_legacy (by decide)) _

theorem migrateWorkItems_keeps (before : Db) (engine : Engine) :
    Preserves (LegacyKept before) (migrateWorkItems engine) := by
  have hcreate : Preserves (LegacyKept before) (createWorkItems engine) := by
    refine Preserves.bind (renameGroupTable_keeps before) fun _ => ?_
    refine Preserves.bind (Preserves.check _) fun _ => ?_
    refine Preserves.bind (Preserves.modify fun db h => h.set (not_legacy (by decide)) _)
      fun _ => ?_
    refine Preserves.bind (Preserves.check _) fun _ => ?_
    exact execute_keeps fun db h => h.change_other (not_legacy (by decide)) _
  refine Preserves.branch (Preserves.pure ()) ?_
  refine Preserves.bind (Preserves.branch (Preserves.pure ()) hcreate) fun _ => ?_
  refine Preserves.bind (Preserves.check _) fun _ => ?_
  refine Preserves.bind (Preserves.check _) fun columns => ?_
  refine Preserves.bind (Preserves.modify fun db h => h.change_other (not_legacy (by decide)) _)
    fun _ => ?_
  exact Preserves.check _

theorem migrateAssignments_keeps (before : Db) (engine : Engine) :
    Preserves (LegacyKept before) (migrateAssignments engine) := by
  refine Preserves.branch ?_ (Preserves.pure ())
  refine Preserves.bind (Preserves.branch (Preserves.pure ())
    (Preserves.modify fun db h => h.set (not_legacy (by decide)) _)) fun _ => ?_
  refine Preserves.bind (execute_keeps fun db h => h) fun _ => ?_
  refine Preserves.bind (Preserves.check _) fun _ => ?_
  exact execute_keeps fun db h => h.change_other (not_legacy (by decide)) _

/-- The routes are dropped last, after the checks of the targets. -/
theorem migratePermissionTargets_keeps (before : Db) (engine : Engine) :
    Triple (LegacyKept before) (migratePermissionTargets engine)
      (fun _ db => ¬ Holds before .permissionTarget .uri → LegacyKept before db)
      (fun _ => LegacyKept before) := by
  have hadd : ∀ db, LegacyKept before db → LegacyKept before (pairColumnsAdded db) := by
    intro db h
    refine h.change fun table column _ _ hcolumn => ?_
    rw [Table.mem_addColumn_columns, Table.mem_addColumn_columns]
    exact .inl (.inl hcolumn)
  have hroutes : ∀ db, LegacyKept before db →
      LegacyKept before (db.change .permissionTarget fun table => table.update setRoute) :=
    fun db h => h.change fun table column _ _ hcolumn => hcolumn
  refine Triple.branch ?_ (Triple.pure fun db h _ => h)
  refine Triple.bind (fun _ => LegacyKept before) (Preserves.modify hadd).triple fun _ => ?_
  refine Triple.bind (fun _ => LegacyKept before) ?_ fun _ => ?_
  · exact (Preserves.branch (Preserves.bind (Preserves.check _) fun _ => execute_keeps hroutes)
      (Preserves.pure ())).triple
  refine Triple.bind (fun _ => LegacyKept before) (Preserves.check _).triple fun _ => ?_
  refine Triple.modify fun db h hnone => h.change fun table column _ hholds hcolumn => ?_
  refine (Table.mem_dropColumns_columns _).mpr ⟨hcolumn, fun huri => hnone ?_⟩
  exact List.mem_singleton.mp huri ▸ hholds

/-- Up to the events a legacy column is only dropped where nothing raises any more. -/
theorem handoff_keeps (before : Db) (engine : Engine) :
    Triple (LegacyKept before) (handoff engine)
      (fun _ db => ¬ Holds before .permissionTarget .uri → LegacyKept before db)
      (fun _ => LegacyKept before) := by
  refine Triple.bind (fun _ => LegacyKept before) (Preserves.check _).triple fun present => ?_
  refine Triple.bind (fun _ => LegacyKept before) (Preserves.check _).triple fun _ => ?_
  refine Triple.bind (fun _ => LegacyKept before) (renameGroupTable_keeps before).triple
    fun _ => ?_
  refine Triple.bind (fun _ => LegacyKept before) (Preserves.check _).triple fun _ => ?_
  refine Triple.bind (fun _ => LegacyKept before) (Preserves.check _).triple fun _ => ?_
  refine Triple.bind (fun _ => LegacyKept before) (migrateWorkItems_keeps before engine).triple
    fun _ => ?_
  refine Triple.bind (fun _ => LegacyKept before) (migrateAssignments_keeps before engine).triple
    fun _ => ?_
  exact migratePermissionTargets_keeps before engine

/-- Until the events are migrated only columns of their table are added. -/
theorem migrateEvents_raises {P : Db → Prop} (engine : Engine)
    (hP : ∀ db f, (∀ (table : Table Column Value) column, column ∈ table.columns →
      column ∈ (f table).columns) → P db → P (db.change .processInstanceEvent f)) :
    Triple P (migrateEvents engine) (fun _ _ => True) (fun _ => P) := by
  have hadd : ∀ column, Preserves P (modify (ε := MigrationError) fun db : Db =>
      db.change .processInstanceEvent fun table => table.addColumn column) := by
    intro column
    refine Preserves.modify fun db h => hP db _ (fun table other hother => ?_) h
    exact (Table.mem_addColumn_columns _).mpr (.inl hother)
  have hupdate : ∀ statement f, Preserves P (execute engine statement fun db =>
      db.change .processInstanceEvent fun table => table.update f) := by
    intro statement f
    refine Preserves.bind (Preserves.check _) fun _ => ?_
    exact Preserves.modify fun db h => hP db _ (fun table column hcolumn => hcolumn) h
  refine Triple.branch ?_ (Triple.pure fun _ _ => trivial)
  refine Triple.bind (fun _ => P) (Preserves.check _).triple fun columns => ?_
  refine Triple.bind (fun _ => P) ?_ fun _ => ?_
  · refine (Preserves.ite (Preserves.pure ()) (Preserves.bind (hadd _) fun _ => ?_)).triple
    refine Preserves.ite ?_ (Preserves.pure ())
    cases eventTimestampExpression engine with
    | none => exact Preserves.raise _
    | some expression => exact hupdate _ _
  refine Triple.bind (fun _ => P) (hadd _).triple fun _ => ?_
  refine Triple.bind (fun _ => P) (Preserves.check _).triple fun _ => ?_
  refine Triple.bind (fun _ => P) (hupdate _ _).triple fun _ => ?_
  refine Triple.bind (fun _ => P) (Preserves.check _).triple fun _ => ?_
  exact Triple.modify fun _ _ => trivial

/-! ## The runs -/

theorem not_uri_targetsMigrated (db : Db) :
    .uri ∉ (targetsMigrated db).columns .permissionTarget := by
  unfold targetsMigrated Database.columns
  split
  · rw [Database.change_same]
    cases routesSet db .permissionTarget with
    | none => exact List.not_mem_nil
    | some table =>
        exact fun huri => ((Table.mem_dropColumns_columns _).mp huri).2 List.mem_cons_self
  · rename_i hnone
    unfold Database.has at hnone
    rw [Option.not_isSome_iff_eq_none.mp hnone]
    exact List.not_mem_nil

/-- A check before the events fails. -/
theorem keepsAll_of_error {engine : Engine} {db : Db} {error : MigrationError}
    (h : checksBeforeEvents engine db = .error error) : KeepsAll engine db := by
  obtain ⟨after, hrun⟩ := (handoff_outcome engine db).of_error h
  unfold KeepsAll
  rw [upgrade_eq, bind_run_error hrun]
  exact fun _ => (handoff_keeps db engine).of_error (legacyKept_refl db) hrun

/-- A check of the events fails: then the routes have been dropped. -/
theorem keepsAll_iff_of_event_error {engine : Engine} {db : Db} {error : MigrationError}
    (h : checksBeforeEvents engine db = .ok ()) (hevents : eventChecks engine db = .error error) :
    KeepsAll engine db ↔ (error.ofData → ¬ Holds db .permissionTarget .uri) := by
  have hrun := (handoff_outcome engine db).of_ok h
  have hsame : beforeEvents db .processInstanceEvent = db .processInstanceEvent :=
    beforeEvents_other (by decide) (by decide) (by decide) (by decide) (by decide)
  obtain ⟨after, hevent⟩ := (migrateEvents_outcome engine (beforeEvents db)).of_error
    ((eventChecks_congr hsame engine).trans hevents)
  have hlegacy : LegacyKept db after ↔ ¬ Holds db .permissionTarget .uri := by
    constructor
    · intro hkept hholds
      have hdropped : Triple (fun db : Db => .uri ∉ db.columns .permissionTarget)
          (migrateEvents engine) (fun _ _ => True)
          (fun _ db => .uri ∉ db.columns .permissionTarget) := by
        refine migrateEvents_raises engine fun db f _ huri => ?_
        have hother : TableName.permissionTarget ≠ .processInstanceEvent := by decide
        rwa [Database.columns_congr (Database.change_other db hother f)]
      exact hdropped.of_error (not_uri_targetsMigrated _) hevent
        (hkept .permissionTarget .uri (.inr (.inr (by decide))) hholds)
    · intro hholds
      have hbefore := (handoff_keeps db engine).of_ok (legacyKept_refl db) hrun hholds
      exact (migrateEvents_raises engine fun db f hf h => h.change fun table column _ _ hcolumn =>
        hf table column hcolumn).of_error hbefore hevent
  unfold KeepsAll
  rw [upgrade_eq, bind_run_ok hrun, bind_run_error hevent]
  exact imp_congr_right fun _ => hlegacy

/-! ## Work items -/

theorem validateWorkItemBackfill_spec {db : Db} (h : validateWorkItemBackfill db = .ok ()) :
    ∀ humanTask ∈ db.rows .humanTask, ∃ workItem ∈ db.rows .workItem,
      ∀ column ∈ targetColumns, workItem column = humanTask column := by
  intro humanTask hmem
  unfold validateWorkItemBackfill at h
  split at h
  · rename_i hnone
    rw [Database.rows_of_not_has (Bool.eq_false_iff.mp ((Bool.not_eq_true' _).mp hnone))] at hmem
    cases hmem
  · dsimp only at h
    rw [check_bind_eq_ok, check_bind_eq_ok, stopAt_filter_eq_ok, stopAt_filter_eq_ok] at h
    obtain ⟨-, hfound, hequal⟩ := h
    have hfound := hfound humanTask hmem
    have hequal := hequal humanTask hmem
    obtain ⟨workItem, hjoined⟩ := List.exists_mem_of_ne_nil _ (List.isEmpty_eq_false_iff.mp hfound)
    obtain ⟨hworkItem, hid⟩ := List.mem_filter.mp hjoined
    refine ⟨workItem, hworkItem, fun column hcolumn => ?_⟩
    cases List.mem_cons.mp hcolumn with
    | inl hcolumn => exact hcolumn ▸ (same_eq_true.mp hid).2
    | inr hcolumn =>
        refine Decidable.byContradiction fun hdiffers => ?_
        exact List.any_eq_false.mp hequal workItem hjoined
          (List.any_eq_true.mpr ⟨column, hcolumn, decide_eq_true (Ne.symm hdiffers)⟩)

/-- Every human task is a work item with its fields. -/
theorem workItems_kept {engine : Engine} {db : Db} (h : workItemChecks engine db = .ok ()) :
    ∀ humanTask ∈ db.rows .humanTask, ∃ workItem ∈ (workItemsMigrated db).rows .workItem,
      ∀ column ∈ targetColumns, workItem column = humanTask column := by
  have hthere : (workItemsThere db).rows .humanTask = db.rows .humanTask :=
    Database.rows_congr (workItemsThere_other (by decide) (by decide) (by decide))
  unfold workItemChecks at h
  unfold workItemsMigrated
  split at h
  · rename_i hnone
    intro humanTask hmem
    rw [Bool.and_eq_true, Bool.not_eq_true', Bool.not_eq_true'] at hnone
    rw [Database.rows_of_not_has (Bool.eq_false_iff.mp hnone.2)] at hmem
    cases hmem
  · rename_i htables
    rw [if_neg htables]
    rw [check_bind_eq_ok, check_bind_eq_ok] at h
    intro humanTask hmem
    obtain ⟨workItem, hworkItem, hequal⟩ :=
      validateWorkItemBackfill_spec h.2.1 humanTask (hthere ▸ hmem)
    rw [Database.rows_change (fun table _ => table.dropColumns_rows _) rfl]
    refine ⟨_, List.mem_map_of_mem hworkItem, fun column hcolumn => ?_⟩
    have hkept : ∀ column ∈ targetColumns,
        column ∉ Column.taskId :: coreEpochColumns .workItem := by
      decide
    rw [if_neg (hkept column hcolumn)]
    exact hequal column hcolumn

/-! ## Assignments -/

section Assignments

variable {engine : Engine} {db : Db}

theorem assignmentTableThere_rows (db : Db) :
    (assignmentTableThere db).rows .workItemUser = db.rows .workItemUser := by
  unfold assignmentTableThere
  split
  · rfl
  · rename_i hnone
    rw [Database.rows_of_not_has hnone]
    unfold Database.rows
    rw [Database.set_same]
    rfl

theorem assignmentTableThere_some (db : Db) :
    ∃ table, assignmentTableThere db .workItemUser = some table := by
  unfold assignmentTableThere
  split
  · rename_i hthere
    exact Option.isSome_iff_exists.mp hthere
  · exact ⟨_, Database.set_same db _ _⟩

/-- A variant that is written into a table with its columns. -/
theorem ofWorkItemUser_toRow {columns : List Column}
    (h : ∀ column ∈ assignmentColumns, column ∈ columns) (variant : Assignment) :
    Assignment.ofWorkItemUser (restrict columns variant.toRow) = variant := by
  unfold Assignment.ofWorkItemUser
  rw [restrict_of_mem (h .workItemId (by decide)), restrict_of_mem (h .userId (by decide)),
    restrict_of_mem (h .addedBy (by decide)), restrict_of_mem (h .m8fTenantId (by decide))]
  rfl

theorem mem_sourceVariants {db : Db} {variant : Assignment} :
    variant ∈ sourceVariants db ↔ ∃ row ∈ db.rows .humanTaskUser, hasWorkItem db row = true ∧
      Assignment.ofHumanTaskUser row = variant := by
  unfold sourceVariants
  rw [List.mem_eraseDups, List.mem_map]
  constructor
  · intro h
    obtain ⟨row, hrow, hvariant⟩ := h
    obtain ⟨hmem, hitem⟩ := List.mem_filter.mp hrow
    exact ⟨row, hmem, hitem, hvariant⟩
  · intro h
    obtain ⟨row, hmem, hitem, hvariant⟩ := h
    exact ⟨row, List.mem_filter.mpr ⟨hmem, hitem⟩, hvariant⟩

/-- An assignment is there afterwards unless it was there with other details. -/
theorem assignmentsMigrated_iff (h : assignmentChecks engine db = .ok ()) {humanTaskUser : Row}
    (hmem : humanTaskUser ∈ db.rows .humanTaskUser) :
    (∃ row ∈ (assignmentsMigrated db).rows .workItemUser,
        Assignment.ofWorkItemUser row = Assignment.ofHumanTaskUser humanTaskUser) ↔
      (alreadyAssigned db (Assignment.ofHumanTaskUser humanTaskUser) = true →
        ∃ row ∈ db.rows .workItemUser,
          Assignment.ofWorkItemUser row = Assignment.ofHumanTaskUser humanTaskUser) := by
  have hhas : db.has .humanTaskUser = true := by
    refine Decidable.byContradiction fun hnone => ?_
    rw [Database.rows_of_not_has hnone] at hmem
    cases hmem
  have hsource : (assignmentTableThere db).rows .humanTaskUser = db.rows .humanTaskUser :=
    Database.rows_congr (assignmentTableThere_other (by decide))
  have halready : ∀ variant,
      alreadyAssigned (assignmentTableThere db) variant = alreadyAssigned db variant := by
    intro variant
    unfold alreadyAssigned
    rw [assignmentTableThere_rows]
  unfold assignmentChecks at h
  rw [if_pos hhas, check_bind_eq_ok, check_bind_eq_ok] at h
  have hchecks := h.2.1
  unfold checkAssignments at hchecks
  simp only [check_bind_eq_ok, stopAt_filter_eq_ok] at hchecks
  obtain ⟨-, -, horphaned, -, -, hcolumns⟩ := hchecks
  obtain ⟨table, htable⟩ := assignmentTableThere_some db
  have hcolumns : ∀ column ∈ assignmentColumns, column ∈ table.columns := by
    have hrequired := (require_eq_ok.mp hcolumns).2
    unfold Database.columns at hrequired
    rw [htable] at hrequired
    exact hrequired
  have hrows : table.rows = db.rows .workItemUser := by
    rw [← assignmentTableThere_rows db]
    unfold Database.rows
    rw [htable]
    rfl
  unfold assignmentsMigrated
  rw [if_pos hhas, Database.rows_change_of_some htable, Table.insert_rows, hrows]
  constructor
  · intro hafter halreadyThere
    obtain ⟨row, hrow, hequal⟩ := hafter
    cases List.mem_append.mp hrow with
    | inl hold => exact ⟨row, hold, hequal⟩
    | inr hnew =>
        obtain ⟨written, hwritten, hrowEq⟩ := List.mem_map.mp hnew
        obtain ⟨variant, hvariant, hwrittenEq⟩ := List.mem_map.mp hwritten
        have hfresh := (List.mem_filter.mp hvariant).2
        have hself : variant = Assignment.ofHumanTaskUser humanTaskUser := by
          rw [← hequal, ← hrowEq, ← hwrittenEq, ofWorkItemUser_toRow hcolumns]
        rw [halready, hself, halreadyThere] at hfresh
        cases hfresh
  · intro hagree
    cases hthere : alreadyAssigned db (Assignment.ofHumanTaskUser humanTaskUser) with
    | true =>
        obtain ⟨row, hrow, hequal⟩ := hagree hthere
        exact ⟨row, List.mem_append_left _ hrow, hequal⟩
    | false =>
        have hvariant : Assignment.ofHumanTaskUser humanTaskUser ∈
            sourceVariants (assignmentTableThere db) := by
          refine mem_sourceVariants.mpr ⟨humanTaskUser, hsource.symm ▸ hmem, ?_, rfl⟩
          have hitem := horphaned humanTaskUser (hsource.symm ▸ hmem)
          exact (Bool.not_eq_false' _).mp hitem
        refine ⟨_, List.mem_append_right _ (List.mem_map_of_mem (List.mem_map_of_mem
          (List.mem_filter.mpr ⟨hvariant, ?_⟩))), ofWorkItemUser_toRow hcolumns _⟩
        rw [halready, hthere]
        rfl

end Assignments

/-! ## Digests -/

/-- The upgrade does not change a digest. -/
theorem digests_iff {before after : Db}
    (h : after .bpmnProcessDefinition = before .bpmnProcessDefinition) :
    List.Forall₂ CarriesDigest (before.rows .bpmnProcessDefinition)
        ((cleanedUp after).rows .bpmnProcessDefinition) ↔ DigestsThere before := by
  rw [cleanedUp_rows (by decide), Database.rows_congr h, List.forall₂_map_right_iff,
    List.forall₂_same]
  refine forall₂_congr fun row _ => ?_
  unfold CarriesDigest definitionDigest
  dsimp only
  rw [if_neg (by decide)]
  constructor
  · exact fun h => h.1
  · intro hdigest
    refine ⟨hdigest, ?_⟩
    cases hrow : row .processXmlDigest with
    | none => exact absurd hrow hdigest
    | some digest => rfl

/-! ## Permission targets -/

/-- What is in a row of a table after a function of the row that sets columns of the table. -/
theorem restrict_apply {table : Table Column Value} {row changed : Row} (hrow : row ∈ table.rows)
    {column : Column} (h : changed column = row column) :
    restrict table.columns changed column = row column := by
  unfold restrict
  split
  · exact h
  · rename_i hcolumn
    exact (table.absent row hrow column hcolumn).symm

theorem setRoute_pair (row : Row) :
    (setRoute row .resourceType, setRoute row .resourceId) = route row := by
  unfold setRoute route
  split
  · rfl
  · rfl

theorem setRoute_command (row : Row) : setRoute row .command = row .command := by
  unfold setRoute
  split
  · rfl
  · rfl

/-- The columns that are dropped in the end are not those of a target. -/
theorem KeepsTarget.dropped {before after : Row} (h : KeepsTarget before after) :
    KeepsTarget before fun column =>
      if column ∈ coreEpochColumns .permissionTarget then none
      else if column ∈ [Column.uri] then none else after column := h

theorem targets_kept {engine : Engine} {before after : Db}
    (h : targetChecks engine before = .ok ())
    (hafter : after .permissionTarget = targetsMigrated before .permissionTarget) :
    List.Forall₂ KeepsTarget (before.rows .permissionTarget)
      ((cleanedUp after).rows .permissionTarget) := by
  rw [cleanedUp_rows (by decide), Database.rows_congr hafter]
  unfold targetChecks at h
  unfold targetsMigrated
  by_cases hhas : before.has .permissionTarget = true
  · rw [if_pos hhas, check_bind_eq_ok] at h
    have hchecks := h.2
    unfold checkTargets at hchecks
    simp only [check_bind_eq_ok, stopAt_filter_eq_ok] at hchecks
    have hpairs := hchecks.2.1
    obtain ⟨start, hstart⟩ := Option.isSome_iff_exists.mp hhas
    have hadded : pairColumnsAdded before .permissionTarget =
        some ((start.addColumn .resourceType).addColumn .resourceId) := by
      unfold pairColumnsAdded
      rw [Database.change_same, hstart]
      rfl
    generalize hcolumns : (start.addColumn .resourceType).addColumn .resourceId = added at hadded
    have hrows : added.rows = before.rows .permissionTarget := by
      rw [← hcolumns, Table.addColumn_rows, Table.addColumn_rows]
      unfold Database.rows
      rw [hstart]
      rfl
    rw [if_pos hhas, Database.rows_change (fun table _ => table.dropColumns_rows _) rfl,
      List.map_map]
    unfold routesSet at hpairs ⊢
    by_cases huri : hasUri (pairColumnsAdded before) = true
    · rw [if_pos huri, Database.rows_change_of_some hadded, Table.update_rows, List.map_map,
        hrows, List.forall₂_map_right_iff, List.forall₂_same]
      intro row hrow
      refine KeepsTarget.dropped ⟨?_, ?_⟩
      · have htype : .resourceType ∈ added.columns := by
          rw [← hcolumns, Table.mem_addColumn_columns, Table.mem_addColumn_columns]
          exact .inl (.inr rfl)
        have hid : .resourceId ∈ added.columns := by
          rw [← hcolumns, Table.mem_addColumn_columns]
          exact .inr rfl
        rw [restrict_of_mem htype, restrict_of_mem hid]
        exact setRoute_pair row
      · exact restrict_apply (hrows.symm ▸ hrow) (setRoute_command row)
    · rw [if_neg huri] at hpairs ⊢
      have hsame : (pairColumnsAdded before).rows .permissionTarget =
          before.rows .permissionTarget := by
        rw [← hrows]
        unfold Database.rows
        rw [hadded]
        rfl
      rw [hsame] at hpairs ⊢
      rw [List.forall₂_map_right_iff, List.forall₂_same]
      intro row hrow
      have hpair : hasPair row = true := (Bool.not_eq_false' _).mp (hpairs row hrow)
      refine KeepsTarget.dropped ⟨?_, rfl⟩
      unfold route
      rw [if_pos hpair]
  · rw [if_neg hhas, Database.rows_of_not_has hhas]
    exact List.Forall₂.nil

/-! ## Events -/

theorem setTime_occurredAt (expression : Option Value → Option Value) {row : Row}
    (h : row .occurredAt = none) :
    setTime expression row .occurredAt = expression (row .timestamp) := by
  unfold setTime
  rw [h]
  rfl

theorem setCategory_occurredAt (engine : Engine) (row : Row) :
    setCategory engine row .occurredAt = row .occurredAt := by
  unfold setCategory
  split
  · rfl
  · rfl

/-- The times that `timesSet` leaves are those that the upgrade leaves, and none is null. -/
theorem events_of_times {engine : Engine} {before after : Db} {times : Table Column Value}
    (h : eventChecks engine before = .ok ()) (hhas : before.has .processInstanceEvent = true)
    (hafter : after .processInstanceEvent = eventsMigrated engine before .processInstanceEvent)
    (htimes : timesSet engine before .processInstanceEvent = some times)
    (hcolumn : .occurredAt ∈ times.columns) :
    (∀ row ∈ times.rows, row .occurredAt ≠ none) ∧
      ∀ rows, List.Forall₂ KeepsTime rows ((cleanedUp after).rows .processInstanceEvent) ↔
        List.Forall₂ KeepsTime rows times.rows := by
  have hcategory : categoryAdded (timesSet engine before) .processInstanceEvent =
      some (times.addColumn .category) := by
    unfold categoryAdded
    rw [Database.change_same, htimes]
    rfl
  have hset : (categoriesSet engine (timesSet engine before)).rows .processInstanceEvent =
      times.rows.map fun row =>
        restrict (times.addColumn .category).columns (setCategory engine row) := by
    unfold categoriesSet
    rw [Database.rows_change_of_some hcategory, Table.update_rows, Table.addColumn_rows]
  have htime : ∀ row, restrict (times.addColumn .category).columns (setCategory engine row)
      .occurredAt = row .occurredAt := by
    intro row
    rw [restrict_of_mem ((Table.mem_addColumn_columns _).mpr (.inl hcolumn))]
    exact setCategory_occurredAt engine row
  constructor
  · unfold eventChecks at h
    rw [if_pos hhas, check_bind_eq_ok, check_bind_eq_ok, check_bind_eq_ok] at h
    have hchecks := h.2.2.2
    unfold checkEvents at hchecks
    rw [check_bind_eq_ok, stopAt_filter_eq_ok, hset] at hchecks
    intro row hrow hnull
    have hcomplete := hchecks.2 _ (List.mem_map_of_mem hrow)
    exact of_decide_eq_false hcomplete (.inr ((htime row).trans hnull))
  · intro rows
    rw [cleanedUp_rows (by decide), Database.rows_congr hafter]
    unfold eventsMigrated
    rw [if_pos hhas, Database.rows_change (fun table _ => table.dropColumns_rows _) rfl, hset,
      List.map_map, List.map_map, List.forall₂_map_right_iff]
    have hsame : ∀ old row, KeepsTime old ((fun row column =>
        if column ∈ coreEpochColumns .processInstanceEvent then none
        else if column ∈ [Column.timestamp] then none else row column)
        (restrict (times.addColumn .category).columns (setCategory engine row))) ↔
        KeepsTime old row := by
      intro old row
      unfold KeepsTime
      dsimp only
      rw [if_neg (by decide), if_neg (by decide), htime row]
    exact ⟨List.Forall₂.imp fun old row => (hsame old row).mp,
      List.Forall₂.imp fun old row => (hsame old row).mpr⟩

theorem events_iff {engine : Engine} {before after : Db}
    (h : eventChecks engine before = .ok ())
    (hafter : after .processInstanceEvent = eventsMigrated engine before .processInstanceEvent) :
    List.Forall₂ KeepsTime (before.rows .processInstanceEvent)
        ((cleanedUp after).rows .processInstanceEvent) ↔ TimesConvert engine before := by
  unfold TimesConvert
  by_cases hhas : before.has .processInstanceEvent = true
  case neg =>
    have hnone : eventsMigrated engine before = before := if_neg hhas
    rw [cleanedUp_rows (by decide), Database.rows_congr hafter, hnone,
      Database.rows_of_not_has hhas]
    exact iff_of_true List.Forall₂.nil fun row hrow => by cases hrow
  case pos =>
    obtain ⟨start, hstart⟩ := Option.isSome_iff_exists.mp hhas
    have hrows : before.rows .processInstanceEvent = start.rows := by
      unfold Database.rows
      rw [hstart]
      rfl
    have hcolumns : before.columns .processInstanceEvent = start.columns := by
      unfold Database.columns
      rw [hstart]
      rfl
    have htimeChecks : timeChecks engine before = .ok () := by
      unfold eventChecks at h
      rw [if_pos hhas, check_bind_eq_ok] at h
      exact h.1
    have hadded : (before.change .processInstanceEvent fun table => table.addColumn .occurredAt)
        .processInstanceEvent = some (start.addColumn .occurredAt) := by
      rw [Database.change_same, hstart]
      rfl
    have hin : .occurredAt ∈ (start.addColumn .occurredAt).columns :=
      (Table.mem_addColumn_columns _).mpr (.inr rfl)
    rw [hrows]
    by_cases hthere : .occurredAt ∈ start.columns
    · -- the column was there: its times are kept, and none of them is null
      have htimes : timesSet engine before .processInstanceEvent = some start := by
        unfold timesSet
        rw [hcolumns, if_pos hthere, hstart]
      obtain ⟨hcomplete, hsame⟩ := events_of_times h hhas hafter htimes hthere
      rw [hsame, List.forall₂_same]
      refine iff_of_true (fun row hrow => ⟨hcomplete row hrow, ?_⟩) fun row hrow hnull =>
        absurd hnull (hcomplete row hrow)
      unfold eventTime
      cases htime : row .occurredAt with
      | none => exact absurd htime (hcomplete row hrow)
      | some time => rfl
    · have habsent : ∀ row ∈ start.rows, row .occurredAt = none :=
        fun row hrow => start.absent row hrow _ hthere
      unfold timeChecks at htimeChecks
      rw [hcolumns, if_neg hthere] at htimeChecks
      by_cases hlegacy : .timestamp ∈ start.columns
      · rw [if_pos hlegacy] at htimeChecks
        cases hexpression : eventTimestampExpression engine with
        | none =>
            rw [hexpression] at htimeChecks
            cases htimeChecks
        | some expression =>
            have htimes : timesSet engine before .processInstanceEvent =
                some ((start.addColumn .occurredAt).update (setTime expression)) := by
              unfold timesSet
              rw [hcolumns, if_neg hthere, if_pos hlegacy, hexpression]
              dsimp only
              rw [Database.change_same, hadded]
              rfl
            obtain ⟨hcomplete, hsame⟩ := events_of_times h hhas hafter htimes hin
            rw [Table.update_rows, Table.addColumn_rows] at hcomplete
            rw [hsame, Table.update_rows, Table.addColumn_rows, List.forall₂_map_right_iff,
              List.forall₂_same]
            refine forall₂_congr fun row hrow => ?_
            have hset : restrict (start.addColumn .occurredAt).columns (setTime expression row)
                .occurredAt = expression (row .timestamp) := by
              rw [restrict_of_mem hin]
              exact setTime_occurredAt expression (habsent row hrow)
            have hvalue := hcomplete _ (List.mem_map_of_mem hrow)
            unfold KeepsTime eventTime
            rw [habsent row hrow, hset, Option.none_or]
            rw [hset] at hvalue
            constructor
            · intro hkept _ other hother
              cases hother
              exact hkept.2
            · exact fun hconvert => ⟨hvalue, hconvert rfl expression rfl⟩
      · -- without either column there is no event
        have htimes : timesSet engine before .processInstanceEvent =
            some (start.addColumn .occurredAt) := by
          unfold timesSet
          rw [hcolumns, if_neg hthere, if_neg hlegacy]
          exact hadded
        obtain ⟨hcomplete, hsame⟩ := events_of_times h hhas hafter htimes hin
        rw [Table.addColumn_rows] at hcomplete
        have hempty : start.rows = [] := by
          refine List.eq_nil_iff_forall_not_mem.mpr fun row hrow => ?_
          exact hcomplete row hrow (habsent row hrow)
        rw [hsame, Table.addColumn_rows, hempty]
        exact iff_of_true List.Forall₂.nil fun row hrow => by cases hrow

/-! ## The whole upgrade -/

/-- What the checks before the events say of each part. -/
theorem checksBeforeEvents_parts {engine : Engine} {db : Db}
    (h : checksBeforeEvents engine db = .ok ()) :
    workItemChecks engine (groupsRenamed db) = .ok () ∧
      assignmentChecks engine (workItemsMigrated (groupsRenamed db)) = .ok () ∧
      targetChecks engine
        (assignmentsMigrated (workItemsMigrated (groupsRenamed db))) = .ok () := by
  unfold checksBeforeEvents at h
  obtain ⟨present, -, hrest⟩ := Results.bind_eq_ok.mp h
  simp only [check_bind_eq_ok] at hrest
  exact hrest.2.2.2.2

section Upgraded

variable {engine : Engine} {db : Db}

/-- The tables that the work items leave. -/
theorem assigning_other {n : TableName} (hgroup : n ≠ .group) (hm8fGroup : n ≠ .m8fGroup)
    (hworkItem : n ≠ .workItem) : workItemsMigrated (groupsRenamed db) n = db n := by
  rw [workItemsMigrated_other hgroup hm8fGroup hworkItem, groupsRenamed_other hgroup hm8fGroup]

theorem upgraded_workItems (h : workItemChecks engine (groupsRenamed db) = .ok ()) :
    ∀ humanTask ∈ db.rows .humanTask, ∃ workItem ∈ (upgraded engine db).rows .workItem,
      ∀ column ∈ targetColumns, workItem column = humanTask column := by
  intro humanTask hmem
  have hbefore : (groupsRenamed db).rows .humanTask = db.rows .humanTask :=
    Database.rows_congr (groupsRenamed_other (by decide) (by decide))
  have hafter : eventsMigrated engine (beforeEvents db) .workItem =
      workItemsMigrated (groupsRenamed db) .workItem := by
    rw [eventsMigrated_other (by decide)]
    unfold beforeEvents
    rw [targetsMigrated_other (by decide), assignmentsMigrated_other (by decide)]
  obtain ⟨workItem, hworkItem, hequal⟩ := workItems_kept h humanTask (hbefore ▸ hmem)
  unfold upgraded
  rw [cleanedUp_rows (by decide), Database.rows_congr hafter]
  refine ⟨_, List.mem_map_of_mem hworkItem, fun column hcolumn => ?_⟩
  have hkept : ∀ column ∈ targetColumns, column ∉ coreEpochColumns .workItem := by decide
  rw [if_neg (hkept column hcolumn)]
  exact hequal column hcolumn

theorem upgraded_assignments_iff
    (h : assignmentChecks engine (workItemsMigrated (groupsRenamed db)) = .ok ())
    {humanTaskUser : Row} (hmem : humanTaskUser ∈ db.rows .humanTaskUser) :
    (∃ row ∈ (upgraded engine db).rows .workItemUser,
        Assignment.ofWorkItemUser row = Assignment.ofHumanTaskUser humanTaskUser) ↔
      (alreadyAssigned db (Assignment.ofHumanTaskUser humanTaskUser) = true →
        ∃ row ∈ db.rows .workItemUser,
          Assignment.ofWorkItemUser row = Assignment.ofHumanTaskUser humanTaskUser) := by
  have hsource : (workItemsMigrated (groupsRenamed db)).rows .humanTaskUser =
      db.rows .humanTaskUser :=
    Database.rows_congr (assigning_other (by decide) (by decide) (by decide))
  have hexisting : (workItemsMigrated (groupsRenamed db)).rows .workItemUser =
      db.rows .workItemUser :=
    Database.rows_congr (assigning_other (by decide) (by decide) (by decide))
  have hafter : eventsMigrated engine (beforeEvents db) .workItemUser =
      assignmentsMigrated (workItemsMigrated (groupsRenamed db)) .workItemUser := by
    rw [eventsMigrated_other (by decide)]
    exact targetsMigrated_other (by decide)
  have hiff := assignmentsMigrated_iff h (hsource.symm ▸ hmem)
  unfold alreadyAssigned at hiff ⊢
  rw [hexisting] at hiff
  unfold upgraded
  rw [cleanedUp_rows (by decide), Database.rows_congr hafter, ← hiff]
  constructor
  · intro h
    obtain ⟨row, hrow, hequal⟩ := h
    obtain ⟨source, hmem, hrowEq⟩ := List.mem_map.mp hrow
    exact ⟨source, hmem, (congrArg Assignment.ofWorkItemUser hrowEq).trans hequal⟩
  · intro h
    obtain ⟨row, hrow, hequal⟩ := h
    exact ⟨_, List.mem_map_of_mem hrow, hequal⟩

theorem upgraded_digests_iff :
    List.Forall₂ CarriesDigest (db.rows .bpmnProcessDefinition)
        ((upgraded engine db).rows .bpmnProcessDefinition) ↔ DigestsThere db := by
  refine digests_iff ?_
  rw [eventsMigrated_other (by decide)]
  exact beforeEvents_other (by decide) (by decide) (by decide) (by decide) (by decide)

theorem upgraded_targets
    (h : targetChecks engine
      (assignmentsMigrated (workItemsMigrated (groupsRenamed db))) = .ok ()) :
    List.Forall₂ KeepsTarget (db.rows .permissionTarget)
      ((upgraded engine db).rows .permissionTarget) := by
  have hbefore : assignmentsMigrated (workItemsMigrated (groupsRenamed db)) .permissionTarget =
      db .permissionTarget := by
    rw [assignmentsMigrated_other (by decide)]
    exact assigning_other (by decide) (by decide) (by decide)
  rw [← Database.rows_congr hbefore]
  exact targets_kept h (eventsMigrated_other (by decide))

theorem upgraded_times_iff (h : eventChecks engine db = .ok ()) :
    List.Forall₂ KeepsTime (db.rows .processInstanceEvent)
        ((upgraded engine db).rows .processInstanceEvent) ↔ TimesConvert engine db := by
  have hbefore : beforeEvents db .processInstanceEvent = db .processInstanceEvent :=
    beforeEvents_other (by decide) (by decide) (by decide) (by decide) (by decide)
  have hchecks : eventChecks engine (beforeEvents db) = .ok () :=
    (eventChecks_congr hbefore engine).trans h
  have hiff := events_iff hchecks (Eq.refl (eventsMigrated engine (beforeEvents db) _))
  unfold TimesConvert at hiff ⊢
  rwa [Database.rows_congr hbefore] at hiff

/-- An upgrade that returns keeps everything exactly when the assignments agree, the digests
are there and the times convert. -/
theorem completed_iff (h : checksBeforeEvents engine db = .ok ())
    (hevents : eventChecks engine db = .ok ()) :
    Completed db (upgraded engine db) ↔
      AssignmentsAgree db ∧ DigestsThere db ∧ TimesConvert engine db := by
  obtain ⟨hworkItems, hassignments, htargets⟩ := checksBeforeEvents_parts h
  constructor
  · intro hcompleted
    refine ⟨fun row hrow => ?_, upgraded_digests_iff.mp hcompleted.digests,
      (upgraded_times_iff hevents).mp hcompleted.events⟩
    exact (upgraded_assignments_iff hassignments hrow).mp (hcompleted.assignments row hrow)
  · intro hconditions
    obtain ⟨hagree, hthere, hconvert⟩ := hconditions
    refine ⟨upgraded_workItems hworkItems, fun row hrow => ?_, upgraded_digests_iff.mpr hthere,
      upgraded_targets htargets, (upgraded_times_iff hevents).mpr hconvert⟩
    exact (upgraded_assignments_iff hassignments hrow).mpr (hagree row hrow)

theorem keepsAll_iff_of_ok (h : checksBeforeEvents engine db = .ok ())
    (hevents : eventChecks engine db = .ok ()) :
    KeepsAll engine db ↔ AssignmentsAgree db ∧ DigestsThere db ∧ TimesConvert engine db := by
  have hbefore : beforeEvents db .processInstanceEvent = db .processInstanceEvent :=
    beforeEvents_other (by decide) (by decide) (by decide) (by decide) (by decide)
  have hverdict : (checksBeforeEvents engine db >>= fun _ =>
      eventChecks engine (beforeEvents db)) = .ok () :=
    check_bind_eq_ok.mpr ⟨h, (eventChecks_congr hbefore engine).trans hevents⟩
  unfold KeepsAll
  rw [(upgrade_outcome engine db).of_ok hverdict]
  exact completed_iff h hevents

end Upgraded

/-- The upgrade loses nothing exactly when it is stopped before the events, or can migrate them
where the assignments agree, the digests are there and the times convert, or is stopped at the
events with no route to lose. -/
theorem upgrade_keepsAll_iff (engine : Engine) (db : Db) :
    KeepsAll engine db ↔
      (checksBeforeEvents engine db = .ok () →
        (eventChecks engine db = .ok () →
          AssignmentsAgree db ∧ DigestsThere db ∧ TimesConvert engine db) ∧
        ∀ error, eventChecks engine db = .error error → error.ofData →
          ¬ Holds db .permissionTarget .uri) := by
  cases hchecks : checksBeforeEvents engine db with
  | error error => exact iff_of_true (keepsAll_of_error hchecks) fun h => by cases h
  | ok done =>
      cases hevents : eventChecks engine db with
      | error error =>
          rw [keepsAll_iff_of_event_error hchecks hevents]
          constructor
          · intro h _
            refine ⟨fun hok => ?_, fun other hother => ?_⟩
            · cases hok
            · cases hother
              exact h
          · exact fun h => (h rfl).2 error rfl
      | ok done =>
          rw [keepsAll_iff_of_ok hchecks hevents]
          constructor
          · exact fun h _ => ⟨fun _ => h, fun error herror => by cases herror⟩
          · exact fun h => (h rfl).1 rfl

/-- An engine that refuses nothing. -/
def plainEngine : Engine where
  dialect := .sqlite
  strftime := instantOf
  toTimestamp := instantOf
  fromUnixtime := instantOf
  folded := id
  refuses := fun _ => false

/-- A definition with its legacy hash. -/
def hashedDefinition : Row
  | .id => some (.int 1)
  | .m8fTenantId => some (.text "a".toList)
  | .fullProcessModelHash => some (.text "f00".toList)
  | _ => none

/-- A legacy database with one process definition. -/
def hashedDb : Db
  | .user | .m8flowTenant | .processInstance | .task | .m8fGroup => some (Table.of [.id] [])
  | .permissionTarget => some (Table.of [.id, .uri, .command] [])
  | .processInstanceEvent => some (Table.of [.id, .eventType, .timestamp] [])
  | .bpmnProcessDefinition =>
      some (Table.of [.id, .m8fTenantId, .fullProcessModelHash] [hashedDefinition])
  | _ => none

/-- The upgrade returns, and the definition has no digest. -/
theorem hashed_definition_without_digest : ¬ ∀ engine db, KeepsAll engine db := by
  intro h
  have hchecks : checksBeforeEvents plainEngine hashedDb = .ok () := rfl
  have hevents : eventChecks plainEngine hashedDb = .ok () := rfl
  have hkept := (keepsAll_iff_of_ok hchecks hevents).mp (h plainEngine hashedDb)
  exact hkept.2.1 _ (List.mem_singleton.mpr rfl) rfl

end M8flow.Migration.CoreContract
