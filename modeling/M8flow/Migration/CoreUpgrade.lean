import M8flow.Migration.CoreContract

/-!
# What the core 0.2.1 upgrade comes to

For each part of `upgrade`, the checks that it makes, in the order and the states in
which it makes them, and the database that it leaves if it returns:

- `migrateWorkItems_outcome`, `migrateAssignments_outcome`,
  `migratePermissionTargets_outcome`, `migrateEvents_outcome`;
- `handoff_outcome` for the upgrade up to the events, `upgrade_outcome` for the whole.

Each part changes its own tables and leaves the others (`beforeEvents_other`), and the
events are checked by their own table alone (`eventChecks_congr`).
-/

namespace M8flow.Migration.CoreContract

open M8flow.Lib M8flow.Lib.Sql M8flow.Lib.Proc

/-! ## Checks -/

theorem require_eq_ok {condition : Prop} [Decidable condition] {error : MigrationError} :
    require condition error = .ok () ↔ condition := by
  unfold require
  split
  · rename_i h
    exact iff_of_true rfl h
  · rename_i h
    exact iff_of_false (fun hok => by cases hok) h

theorem stopAt_eq_ok {α : Type} [DecidableEq α] {error : List α → MigrationError}
    {found : List α} : stopAt error found = .ok () ↔ found = [] := require_eq_ok

/-- A query over rows that finds none. -/
theorem stopAt_filter_eq_ok {α : Type} [DecidableEq α] {error : List α → MigrationError}
    {rows : List Row} {found : Row → Bool} {shown : Row → α} :
    stopAt error ((rows.filter found).map shown) = .ok () ↔ ∀ row ∈ rows, found row = false := by
  rw [stopAt_eq_ok, List.map_eq_nil_iff, List.filter_eq_nil_iff]
  exact forall₂_congr fun row _ => Bool.eq_false_iff.symm

/-- The checks before the last and the last. -/
theorem check_bind_eq_ok {first rest : Except MigrationError Unit} :
    (first >>= fun _ => rest) = .ok () ↔ first = .ok () ∧ rest = .ok () := by
  cases first with
  | ok a => exact (and_iff_right rfl).symm
  | error e => exact iff_of_false (fun h => by cases h) fun h => by cases h.1

/-! ## Statements -/

def refusal (engine : Engine) (statement : Statement) : Except MigrationError Unit :=
  require (engine.refuses statement = false) (.integrityError statement)

theorem execute_outcome (engine : Engine) (statement : Statement) (change : Db → Db) (db : Db) :
    Outcome (execute engine statement change) db (refusal engine statement) (change db) :=
  Outcome.andThen (Outcome.check fun _ => refusal engine statement) rfl

/-! ## Groups -/

def groupChecks (db : Db) : Except MigrationError Unit :=
  require (¬ (db.has .group ∧ db.has .m8fGroup)) .bothGroupTables

def groupsRenamed (db : Db) : Db :=
  if db.has .group then (db.set .m8fGroup (db .group)).set .group none else db

theorem renameGroupTable_outcome (db : Db) :
    Outcome renameGroupTable db (groupChecks db) (groupsRenamed db) :=
  Outcome.andThen (Outcome.check groupChecks) (Outcome.branch_run rfl rfl)

/-! ## Work items -/

/-- With the new table, before the insert. -/
def workItemTableCreated (db : Db) : Db :=
  (groupsRenamed db).set .workItem (some (Table.of targetColumns []))

def workItemsInserted (db : Db) : Db :=
  (workItemTableCreated db).change .workItem fun table =>
    table.insert ((workItemTableCreated db).rows .humanTask)

def createWorkItemsChecks (engine : Engine) (db : Db) : Except MigrationError Unit := do
  groupChecks db
  require ((groupsRenamed db).has .m8fGroup) .noGroupForWorkItems
  requireColumns .humanTask targetColumns (workItemTableCreated db)
  refusal engine .insertWorkItems

theorem createWorkItems_outcome (engine : Engine) (db : Db) :
    Outcome (createWorkItems engine) db (createWorkItemsChecks engine db)
      (workItemsInserted db) :=
  (renameGroupTable_outcome db).seq <| (Outcome.check _).seq <| Outcome.afterModify <|
    (Outcome.check _).seq <| execute_outcome engine .insertWorkItems _ _

/-- With a work item table, before its own clean-up. -/
def workItemsThere (db : Db) : Db := if db.has .workItem then db else workItemsInserted db

def workItemsMigrated (db : Db) : Db :=
  if !db.has .workItem && !db.has .humanTask then db
  else
    (workItemsThere db).change .workItem fun table =>
      table.dropColumns (.taskId :: coreEpochColumns .workItem)

def workItemChecks (engine : Engine) (db : Db) : Except MigrationError Unit :=
  if !db.has .workItem && !db.has .humanTask then .ok ()
  else do
    (if db.has .workItem then .ok () else createWorkItemsChecks engine db)
    validateWorkItemBackfill (workItemsThere db)
    require (.taskGuid ∈ (workItemsThere db).columns .workItem) .noTaskGuid

theorem migrateWorkItems_outcome (engine : Engine) (db : Db) :
    Outcome (migrateWorkItems engine) db (workItemChecks engine db) (workItemsMigrated db) := by
  have hcreate := Outcome.branch (c := fun db : Db => db.has .workItem) (s := db)
    (fun _ => Outcome.pure ()) fun _ => createWorkItems_outcome engine db
  refine Outcome.branch (fun _ => Outcome.pure ()) fun _ => ?_
  refine hcreate.seq <| (Outcome.check _).seq <| Outcome.after rfl <| Outcome.after rfl ?_
  exact Outcome.check _

/-! ## Assignments -/

/-- With an assignment table, before the insert. -/
def assignmentTableThere (db : Db) : Db :=
  if db.has .workItemUser then db
  else db.set .workItemUser (some (Table.of assignmentColumns []))

def assignmentsMigrated (db : Db) : Db :=
  if db.has .humanTaskUser then
    (assignmentTableThere db).change .workItemUser fun table =>
      table.insert (((sourceVariants (assignmentTableThere db)).filter fun variant =>
        !alreadyAssigned (assignmentTableThere db) variant).map Assignment.toRow)
  else db

def assignmentChecks (engine : Engine) (db : Db) : Except MigrationError Unit :=
  if db.has .humanTaskUser then do
    refusal engine .addAssignmentConstraints
    checkAssignments (assignmentTableThere db)
    refusal engine .insertAssignments
  else .ok ()

theorem migrateAssignments_outcome (engine : Engine) (db : Db) :
    Outcome (migrateAssignments engine) db (assignmentChecks engine db)
      (assignmentsMigrated db) := by
  refine Outcome.branch (fun _ => ?_) fun _ => Outcome.pure ()
  exact Outcome.after (Outcome.branch_run rfl rfl) <|
    (execute_outcome engine .addAssignmentConstraints id _).seq <|
      (Outcome.check _).seq <| execute_outcome engine .insertAssignments _ _

/-! ## Permission targets -/

def pairColumnsAdded (db : Db) : Db :=
  db.change .permissionTarget fun table => (table.addColumn .resourceType).addColumn .resourceId

/-- With the resource pairs, and the routes still there. -/
def routesSet (db : Db) : Db :=
  if hasUri (pairColumnsAdded db) then
    (pairColumnsAdded db).change .permissionTarget fun table => table.update setRoute
  else pairColumnsAdded db

def targetsMigrated (db : Db) : Db :=
  if db.has .permissionTarget then
    (routesSet db).change .permissionTarget fun table => table.dropColumns [.uri]
  else db

def targetChecks (engine : Engine) (db : Db) : Except MigrationError Unit :=
  if db.has .permissionTarget then do
    (if hasUri (pairColumnsAdded db) then do
        checkRoutes (pairColumnsAdded db)
        refusal engine .setRoutes
      else .ok ())
    checkTargets (routesSet db)
  else .ok ()

theorem migratePermissionTargets_outcome (engine : Engine) (db : Db) :
    Outcome (migratePermissionTargets engine) db (targetChecks engine db)
      (targetsMigrated db) := by
  refine Outcome.branch (fun _ => ?_) fun _ => Outcome.pure ()
  refine Outcome.afterModify (Outcome.seq (Outcome.branch (fun _ => ?_) fun _ => Outcome.pure ())
    ((Outcome.check checkTargets).andThen rfl))
  exact (Outcome.check checkRoutes).seq (execute_outcome engine .setRoutes _ _)

/-! ## Events -/

/-- With `occurred_at` in every event, if it can be. -/
def timesSet (engine : Engine) (db : Db) : Db :=
  if .occurredAt ∈ db.columns .processInstanceEvent then db
  else
    let added := db.change .processInstanceEvent fun table => table.addColumn .occurredAt
    if .timestamp ∈ db.columns .processInstanceEvent then
      match eventTimestampExpression engine with
      | none => added
      | some expression =>
          added.change .processInstanceEvent fun table => table.update (setTime expression)
    else added

def timeChecks (engine : Engine) (db : Db) : Except MigrationError Unit :=
  if .occurredAt ∈ db.columns .processInstanceEvent then .ok ()
  else if .timestamp ∈ db.columns .processInstanceEvent then
    match eventTimestampExpression engine with
    | none => .error .unsupportedDialect
    | some _ => refusal engine .setTimes
  else .ok ()

theorem convertTimes_outcome (engine : Engine) (db : Db) :
    Outcome
      (if .occurredAt ∈ db.columns .processInstanceEvent then pure ()
        else convertTimes engine (db.columns .processInstanceEvent)) db
      (timeChecks engine db) (timesSet engine db) := by
  unfold timeChecks timesSet
  split
  · exact Outcome.pure ()
  · refine Outcome.afterModify ?_
    split
    · cases eventTimestampExpression engine with
      | none => exact ⟨_, rfl⟩
      | some expression => exact execute_outcome engine .setTimes _ _
    · exact Outcome.pure ()

def categoryAdded (db : Db) : Db :=
  db.change .processInstanceEvent fun table => table.addColumn .category

def categoriesSet (engine : Engine) (db : Db) : Db :=
  (categoryAdded db).change .processInstanceEvent fun table => table.update (setCategory engine)

def eventsMigrated (engine : Engine) (db : Db) : Db :=
  if db.has .processInstanceEvent then
    (categoriesSet engine (timesSet engine db)).change .processInstanceEvent fun table =>
      table.dropColumns [.timestamp]
  else db

def eventChecks (engine : Engine) (db : Db) : Except MigrationError Unit :=
  if db.has .processInstanceEvent then do
    timeChecks engine db
    checkEventTypes engine (categoryAdded (timesSet engine db))
    refusal engine .setCategories
    checkEvents (categoriesSet engine (timesSet engine db))
  else .ok ()

theorem migrateEvents_outcome (engine : Engine) (db : Db) :
    Outcome (migrateEvents engine) db (eventChecks engine db) (eventsMigrated engine db) := by
  refine Outcome.branch (fun _ => ?_) fun _ => Outcome.pure ()
  refine Outcome.after (f := fun columns => _) rfl ?_
  exact (convertTimes_outcome engine db).seq <| Outcome.afterModify <|
    (Outcome.check _).seq <| (execute_outcome engine .setCategories _ _).seq <|
      (Outcome.check _).andThen rfl

/-! ## The upgrade -/

/-- With all that the events do not need. -/
def beforeEvents (db : Db) : Db :=
  targetsMigrated (assignmentsMigrated (workItemsMigrated (groupsRenamed db)))

/-- The checks that come before those of the events. -/
def checksBeforeEvents (engine : Engine) (db : Db) : Except MigrationError Unit := do
  let coreHeadWasPresent ← requireCoreBreakingHead db
  (if coreHeadWasPresent then .ok () else validateCoreHandoffSchema db)
  groupChecks db
  require (coreHeadWasPresent ∨ (groupsRenamed db).has .m8fGroup) .noGroupTable
  validateProcessDigests (groupsRenamed db)
  workItemChecks engine (groupsRenamed db)
  assignmentChecks engine (workItemsMigrated (groupsRenamed db))
  targetChecks engine (assignmentsMigrated (workItemsMigrated (groupsRenamed db)))

/-- Without what is no longer needed, and with the marker. -/
def cleanedUp (db : Db) : Db :=
  recordCoreBreakingHead
    (((dropCoreSourceIsOpenId (dropCoreEpochColumns (enforceIdentityAndNames db))).set
      .humanTaskUser none).set .humanTask none)

/-- The upgrade up to the events. -/
def handoff (engine : Engine) : Proc Db MigrationError Unit := do
  let coreHeadWasPresent ← check requireCoreBreakingHead
  check fun db => if coreHeadWasPresent then .ok () else validateCoreHandoffSchema db
  renameGroupTable
  check fun db => require (coreHeadWasPresent ∨ db.has .m8fGroup) .noGroupTable
  check validateProcessDigests
  migrateWorkItems engine
  migrateAssignments engine
  migratePermissionTargets engine

theorem handoff_outcome (engine : Engine) (db : Db) :
    Outcome (handoff engine) db (checksBeforeEvents engine db) (beforeEvents db) := by
  refine Outcome.bind (Outcome.check _) fun present _ => ?_
  exact (Outcome.check _).seq <| (renameGroupTable_outcome db).seq <| (Outcome.check _).seq <|
    (Outcome.check _).seq <| (migrateWorkItems_outcome engine _).seq <|
      (migrateAssignments_outcome engine _).seq <| migratePermissionTargets_outcome engine _

/-- The clean-up returns whatever the database is. -/
theorem upgrade_eq (engine : Engine) :
    upgrade engine =
      handoff engine >>= fun _ => migrateEvents engine >>= fun _ => modify cleanedUp := by
  unfold handoff
  simp only [Proc.bind_assoc]
  rfl

/-- The database of an upgrade that returns. -/
def upgraded (engine : Engine) (db : Db) : Db :=
  cleanedUp (eventsMigrated engine (beforeEvents db))

theorem upgrade_outcome (engine : Engine) (db : Db) :
    Outcome (upgrade engine) db
      (checksBeforeEvents engine db >>= fun _ => eventChecks engine (beforeEvents db))
      (upgraded engine db) := by
  rw [upgrade_eq]
  exact (handoff_outcome engine db).seq ((migrateEvents_outcome engine _).andThen rfl)

/-! ## The other tables -/

theorem groupsRenamed_other {db : Db} {n : TableName} (hgroup : n ≠ .group)
    (hm8fGroup : n ≠ .m8fGroup) : groupsRenamed db n = db n := by
  unfold groupsRenamed
  split
  · rw [Database.set_other _ hgroup, Database.set_other _ hm8fGroup]
  · rfl

theorem workItemsThere_other {db : Db} {n : TableName} (hgroup : n ≠ .group)
    (hm8fGroup : n ≠ .m8fGroup) (hworkItem : n ≠ .workItem) : workItemsThere db n = db n := by
  unfold workItemsThere workItemsInserted workItemTableCreated
  split
  · rfl
  · rw [Database.change_other _ hworkItem, Database.set_other _ hworkItem,
      groupsRenamed_other hgroup hm8fGroup]

theorem workItemsMigrated_other {db : Db} {n : TableName} (hgroup : n ≠ .group)
    (hm8fGroup : n ≠ .m8fGroup) (hworkItem : n ≠ .workItem) : workItemsMigrated db n = db n := by
  unfold workItemsMigrated
  split
  · rfl
  · rw [Database.change_other _ hworkItem, workItemsThere_other hgroup hm8fGroup hworkItem]

theorem assignmentTableThere_other {db : Db} {n : TableName} (h : n ≠ .workItemUser) :
    assignmentTableThere db n = db n := by
  unfold assignmentTableThere
  split
  · rfl
  · exact Database.set_other _ h _

theorem assignmentsMigrated_other {db : Db} {n : TableName} (h : n ≠ .workItemUser) :
    assignmentsMigrated db n = db n := by
  unfold assignmentsMigrated
  split
  · rw [Database.change_other _ h, assignmentTableThere_other h]
  · rfl

theorem routesSet_other {db : Db} {n : TableName} (h : n ≠ .permissionTarget) :
    routesSet db n = db n := by
  unfold routesSet pairColumnsAdded
  split
  · rw [Database.change_other _ h, Database.change_other _ h]
  · exact Database.change_other _ h _

theorem targetsMigrated_other {db : Db} {n : TableName} (h : n ≠ .permissionTarget) :
    targetsMigrated db n = db n := by
  unfold targetsMigrated
  split
  · rw [Database.change_other _ h, routesSet_other h]
  · rfl

theorem timesSet_other {engine : Engine} {db : Db} {n : TableName}
    (h : n ≠ .processInstanceEvent) : timesSet engine db n = db n := by
  unfold timesSet
  split
  · rfl
  · dsimp only
    split
    · cases eventTimestampExpression engine with
      | none => exact Database.change_other _ h _
      | some expression =>
          dsimp only
          rw [Database.change_other _ h, Database.change_other _ h]
    · exact Database.change_other _ h _

theorem eventsMigrated_other {engine : Engine} {db : Db} {n : TableName}
    (h : n ≠ .processInstanceEvent) : eventsMigrated engine db n = db n := by
  unfold eventsMigrated categoriesSet categoryAdded
  split
  · rw [Database.change_other _ h, Database.change_other _ h, Database.change_other _ h,
      timesSet_other h]
  · rfl

/-- The tables that the parts before the events do not touch. -/
theorem beforeEvents_other {db : Db} {n : TableName} (hgroup : n ≠ .group)
    (hm8fGroup : n ≠ .m8fGroup) (hworkItem : n ≠ .workItem) (hworkItemUser : n ≠ .workItemUser)
    (htarget : n ≠ .permissionTarget) : beforeEvents db n = db n := by
  unfold beforeEvents
  rw [targetsMigrated_other htarget, assignmentsMigrated_other hworkItemUser,
    workItemsMigrated_other hgroup hm8fGroup hworkItem, groupsRenamed_other hgroup hm8fGroup]

/-- The clean-up of the tables in question drops their epoch columns. -/
theorem cleanedUp_rows {db : Db} {n : TableName}
    (hn : n ∉ [TableName.user, .processInstance, .m8fGroup, .humanTask, .humanTaskUser,
      .m8flowCoreAlembicVersion]) :
    (cleanedUp db).rows n =
      (db.rows n).map fun row column =>
        if column ∈ coreEpochColumns n then none else row column := by
  simp only [List.mem_cons, List.not_mem_nil, not_or, or_false] at hn
  obtain ⟨huser, hinstance, hgroup, htask, htaskUser, hmarker⟩ := hn
  have htable : cleanedUp db n =
      (db n).map fun table => table.dropColumns (coreEpochColumns n) := by
    unfold cleanedUp recordCoreBreakingHead dropCoreSourceIsOpenId dropCoreEpochColumns
      enforceIdentityAndNames
    split <;> rw [Database.set_other _ hmarker, Database.set_other _ htask,
      Database.set_other _ htaskUser, Database.change_other _ hgroup,
      Database.change_other _ hinstance, Database.change_other _ huser]
  unfold Database.rows
  rw [htable]
  cases db n with
  | none => rfl
  | some table => exact table.dropColumns_rows _

/-! ## The checks of the events -/

section SameEvents

variable {db other : Db} (h : db .processInstanceEvent = other .processInstanceEvent)

include h

theorem requireColumns_congr (columns : List Column) :
    requireColumns .processInstanceEvent columns db =
      requireColumns .processInstanceEvent columns other := by
  unfold requireColumns
  rw [Database.has_congr h, Database.columns_congr h]

theorem timesSet_congr (engine : Engine) :
    timesSet engine db .processInstanceEvent = timesSet engine other .processInstanceEvent := by
  have hadd := Database.change_congr h fun table => table.addColumn .occurredAt
  unfold timesSet
  rw [Database.columns_congr h]
  split
  · exact h
  · split
    · cases eventTimestampExpression engine with
      | none => exact hadd
      | some expression => exact Database.change_congr hadd _
    · exact hadd

theorem checkEventTypes_congr (engine : Engine) :
    checkEventTypes engine db = checkEventTypes engine other := by
  unfold checkEventTypes
  rw [requireColumns_congr h, Database.rows_congr h]

theorem checkEvents_congr : checkEvents db = checkEvents other := by
  unfold checkEvents
  rw [requireColumns_congr h, Database.rows_congr h]

/-- The checks of the events read no other table. -/
theorem eventChecks_congr (engine : Engine) : eventChecks engine db = eventChecks engine other := by
  have htimes := timesSet_congr h engine
  have hcategory := Database.change_congr htimes fun table => table.addColumn .category
  have hset := Database.change_congr hcategory fun table => table.update (setCategory engine)
  unfold eventChecks timeChecks
  rw [Database.has_congr h, Database.columns_congr h]
  unfold categoriesSet categoryAdded
  rw [checkEventTypes_congr hcategory, checkEvents_congr hset]

end SameEvents

end M8flow.Migration.CoreContract
