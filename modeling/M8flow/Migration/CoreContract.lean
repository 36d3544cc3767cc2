import M8flow.Lib.Proc
import M8flow.Lib.Sql
import M8flow.Lib.Text

/-!
# The core 0.2.1 contract

`upgrade` of the migration `c4d5e6f7a8b9`, over any database: every table and every column
may be there or not, and what is there may hold anything.  A check that fails raises, and
what was changed before it stays changed.

What the database itself decides is a parameter, `Engine`: the dialect with its conversion
of epoch times, how `LIKE` folds letters, and whether a constraint refuses a statement.
Indexes, foreign keys, row policies and nullability are not part of a table here; a column
is only made non-null where the migration has checked that it has no null.
-/

namespace M8flow.Migration.CoreContract

open M8flow.Lib M8flow.Lib.Sql M8flow.Lib.Proc

inductive TableName where
  | user | m8flowTenant | bpmnProcessDefinition | bpmnProcess | taskDefinition | task
  | processInstance | futureTask | processInstanceEvent | processInstanceMetadata
  | processModelBpmnVersion | schedulerJob | workItem | workItemUser | humanTask | humanTaskUser
  | group | m8fGroup | permissionTarget | m8flowCoreAlembicVersion | alembicVersion
  deriving DecidableEq

inductive Column where
  | id | m8fTenantId | processInstanceId | taskGuid | laneAssignmentId | completedByUserId
  | actualOwnerId | taskStatus | completed | updatedAt | createdAt | taskId
  | humanTaskId | workItemId | userId | addedBy
  | processXmlDigest | singleProcessHash | fullProcessModelHash
  | uri | resourceType | resourceId | command
  | timestamp | occurredAt | category | eventType
  | createdAtInSeconds | updatedAtInSeconds | startInSeconds | endInSeconds
  | taskUpdatedAtInSeconds | runAtInSeconds | queuedToRunAtInSeconds | lockedAtInSeconds
  | tenantSpecificField1 | tenantSpecificField2 | tenantSpecificField3
  | realmIdentifier | externalOrgId | externalUserId
  | spiffSerializerVersion | workflowEngineVersion | sourceIsOpenId | versionNum
  | other (name : Text)
  deriving DecidableEq

inductive Value where
  | int (n : Int)
  | text (s : Text)
  | bool (b : Bool)
  /-- A decimal number of six places, in millionths. -/
  | decimal (millionths : Int)
  /-- A moment, in microseconds since the epoch. -/
  | instant (microseconds : Int)
  deriving DecidableEq

abbrev Row : Type := Sql.Row Column Value

abbrev Db : Type := Database TableName Column Value

/-! ## The database engine -/

/-- The statements that a constraint of the tables may refuse. -/
inductive Statement where
  | insertWorkItems | addAssignmentConstraints | insertAssignments | setRoutes | setTimes
  | setCategories
  deriving DecidableEq

inductive Dialect where
  | sqlite | postgresql | mysql | mariadb
  | other (name : Text)

structure Engine where
  dialect : Dialect
  /-- SQLite's `strftime("%Y-%m-%d %H:%M:%f+00:00", timestamp, "unixepoch")`, as it is read back. -/
  strftime : Option Value → Option Value
  toTimestamp : Option Value → Option Value
  fromUnixtime : Option Value → Option Value
  /-- The letters that `LIKE` takes for one. -/
  folded : Char → Char
  refuses : Statement → Bool

/-- `_event_timestamp_expression`. -/
def eventTimestampExpression (engine : Engine) : Option (Option Value → Option Value) :=
  match engine.dialect with
  | .sqlite => some engine.strftime
  | .postgresql => some engine.toTimestamp
  | .mysql => some engine.fromUnixtime
  | .mariadb => some engine.fromUnixtime
  | .other _ => none

/-- `LIKE` with a pattern of letters, `_` and `%`: one more character at the least. -/
def likeMore (engine : Engine) (start : Text) : Option Value → Bool
  | some (.text s) =>
      (start.map engine.folded).isPrefixOf (s.map engine.folded) && start.length < s.length
  | _ => false

/-! ## What is raised -/

/-- With the rows, columns or tables that the message lists. -/
inductive MigrationError where
  | bothGroupTables
  | mixedLegacyMarker (revisions : List (Option Value))
  | wrongCoreRevision (revisions : List (Option Value))
  | missingTables (tables : List TableName)
  | noGroupTable
  | noLegacyDigest
  | digestCollisions (found : List (Option Value × Option Value))
  | noGroupForWorkItems
  | missingColumns (found : List (TableName × Column))
  | withoutWorkItem (ids : List (Option Value))
  | workItemDiffers (ids : List (Option Value))
  | noTaskGuid
  | unmappedAssignments
  | orphanedAssignments (found : List (Option Value × Option Value))
  | conflictingAssignments (found : List (Option Value × Option Value))
  | blankTargets (ids : List (Option Value))
  | unresolvedTargets (ids : List (Option Value))
  | targetCollisions (found : List (Option Value × Option Value × Option Value))
  | unsupportedDialect
  | unknownEventTypes (found : List (Option Value))
  | incompleteEvents (ids : List (Option Value))
  /-- A statement names a table or column that is not there. -/
  | operationalError (table : TableName)
  /-- A constraint refuses the statement. -/
  | integrityError (statement : Statement)
  deriving DecidableEq

/-- Raised because of what the rows hold, and not of which tables and columns there are. -/
def MigrationError.ofData : MigrationError → Bool
  | .digestCollisions _ | .withoutWorkItem _ | .workItemDiffers _ | .orphanedAssignments _
  | .conflictingAssignments _ | .blankTargets _ | .unresolvedTargets _ | .targetCollisions _
  | .unknownEventTypes _ | .incompleteEvents _ | .integrityError _ => true
  | .bothGroupTables | .mixedLegacyMarker _ | .wrongCoreRevision _ | .missingTables _
  | .noGroupTable | .noLegacyDigest | .noGroupForWorkItems | .missingColumns _ | .noTaskGuid
  | .unmappedAssignments | .unsupportedDialect | .operationalError _ => false

/-- Raise unless the condition holds. -/
def require (condition : Prop) [Decidable condition] (error : MigrationError) :
    Except MigrationError Unit :=
  if condition then .ok () else .error error

/-- The statement needs the table and the columns. -/
def requireColumns (table : TableName) (columns : List Column) (db : Db) :
    Except MigrationError Unit :=
  require (db.has table ∧ ∀ column ∈ columns, column ∈ db.columns table)
    (.operationalError table)

/-- Raise if a query found rows; the message shows five of them. -/
def stopAt {α : Type} [DecidableEq α] (error : List α → MigrationError) (found : List α) :
    Except MigrationError Unit :=
  require (found = []) (error (found.take 5))

/-- The keys of the groups with more than one row. -/
def repeated {α : Type} [DecidableEq α] (keys : List α) : List α :=
  (keys.filter fun key => 1 < keys.count key).eraseDups

/-- Run a statement. -/
def execute (engine : Engine) (statement : Statement) (change : Db → Db) :
    Proc Db MigrationError Unit := do
  check fun _ => require (engine.refuses statement = false) (.integrityError statement)
  modify change

/-! ## The core marker -/

/-- `REQUIRED_CORE_MIGRATION`. -/
def requiredCoreMigration : Option Value := some (.text "k2l3m4n5o6p7".toList)

def versionNums (table : TableName) (db : Db) : Except MigrationError (List (Option Value)) := do
  requireColumns table [.versionNum] db
  return (db.rows table).map fun row => row .versionNum

/-- The part of `_core_marker_revisions` that reads the legacy table. -/
def legacyMarkerRevisions (db : Db) : Except MigrationError (Option (List (Option Value))) :=
  if db.has .alembicVersion then do
    let revisions ← versionNums .alembicVersion db
    if requiredCoreMigration ∉ revisions then return some []
    else if revisions ≠ [requiredCoreMigration] then throw (.mixedLegacyMarker revisions)
    else return some [requiredCoreMigration]
  else if db.has .m8flowCoreAlembicVersion then return some []
  else return none

/-- `_core_marker_revisions`. -/
def coreMarkerRevisions (db : Db) : Except MigrationError (Option (List (Option Value))) :=
  if db.has .m8flowCoreAlembicVersion then do
    let revisions ← versionNums .m8flowCoreAlembicVersion db
    if revisions ≠ [] then return some revisions
    else legacyMarkerRevisions db
  else legacyMarkerRevisions db

/-- `_require_core_breaking_head`. -/
def requireCoreBreakingHead (db : Db) : Except MigrationError Bool := do
  let revisions := (← coreMarkerRevisions db).getD []
  if revisions = [] then return false
  else if revisions ≠ [requiredCoreMigration] then throw (.wrongCoreRevision revisions)
  else return true

/-- `_validate_core_handoff_schema`. -/
def validateCoreHandoffSchema (db : Db) : Except MigrationError Unit :=
  let requiredTables : List TableName :=
    [.m8flowTenant, .permissionTarget, .processInstance, .processInstanceEvent, .task, .user]
  let missing := requiredTables.filter fun table => !db.has table
  require (missing = []) (.missingTables missing)

/-- `_record_core_breaking_head`; that the column is there was seen when the marker was read. -/
def recordCoreBreakingHead (db : Db) : Db :=
  let table := (db .m8flowCoreAlembicVersion).getD (Table.of [.versionNum] [])
  if requiredCoreMigration ∈ table.rows.map fun row => row .versionNum then
    db.set .m8flowCoreAlembicVersion (some table)
  else
    db.set .m8flowCoreAlembicVersion (some (table.insert [fun _ => requiredCoreMigration]))

/-! ## Groups and digests -/

/-- `_rename_group_table`. -/
def renameGroupTable : Proc Db MigrationError Unit := do
  check fun db => require (¬ (db.has .group ∧ db.has .m8fGroup)) .bothGroupTables
  branch (fun db => db.has .group)
    (modify fun db => (db.set .m8fGroup (db .group)).set .group none)
    (pure ())

/-- `canonical_digest`; a column that is not there is null in every row. -/
def canonicalDigest (row : Row) : Option Value :=
  (row .fullProcessModelHash).or (row .singleProcessHash)

/-- `_validate_process_digests`. -/
def validateProcessDigests (db : Db) : Except MigrationError Unit :=
  let columns := db.columns .bpmnProcessDefinition
  if !db.has .bpmnProcessDefinition ∨ .processXmlDigest ∈ columns then .ok ()
  else if .fullProcessModelHash ∉ columns ∧ .singleProcessHash ∉ columns then
    .error .noLegacyDigest
  else do
    requireColumns .bpmnProcessDefinition [.m8fTenantId] db
    stopAt .digestCollisions <| repeated <|
      ((db.rows .bpmnProcessDefinition).filter fun row => (canonicalDigest row).isSome).map
        fun row => (row .m8fTenantId, canonicalDigest row)

/-! ## Work items -/

/-- `migrated_columns` of `_validate_work_item_backfill`. -/
def migratedColumns : List Column :=
  [.processInstanceId, .taskGuid, .laneAssignmentId, .completedByUserId, .actualOwnerId,
    .taskStatus, .completed, .updatedAt, .createdAt, .m8fTenantId]

/-- `target_columns`, and the columns of the new table. -/
def targetColumns : List Column := .id :: migratedColumns

/-- The work items that an outer join has for a human task. -/
def joinedWorkItems (db : Db) (humanTask : Row) : List Row :=
  (db.rows .workItem).filter fun workItem => same (workItem .id) (humanTask .id)

/-- `_validate_work_item_backfill`.  The comparison of two fields is true of two nulls. -/
def validateWorkItemBackfill (db : Db) : Except MigrationError Unit :=
  if !db.has .humanTask then .ok ()
  else do
    let missingColumns :=
      (targetColumns.filter (· ∉ db.columns .humanTask)).map (TableName.humanTask, ·) ++
        (targetColumns.filter (· ∉ db.columns .workItem)).map (TableName.workItem, ·)
    require (missingColumns = []) (.missingColumns missingColumns)
    let humanTasks := db.rows .humanTask
    stopAt .withoutWorkItem <|
      (humanTasks.filter fun humanTask => (joinedWorkItems db humanTask).isEmpty).map (· .id)
    stopAt .workItemDiffers <|
      (humanTasks.filter fun humanTask => (joinedWorkItems db humanTask).any fun workItem =>
        migratedColumns.any fun column => humanTask column ≠ workItem column).map (· .id)

/-- The first part of `_migrate_work_items`, for a database without the table. -/
def createWorkItems (engine : Engine) : Proc Db MigrationError Unit := do
  renameGroupTable
  check fun db => require (db.has .m8fGroup) .noGroupForWorkItems
  modify fun db => db.set .workItem (some (Table.of targetColumns []))
  check (requireColumns .humanTask targetColumns)
  execute engine .insertWorkItems fun db =>
    db.change .workItem fun table => table.insert (db.rows .humanTask)

/-- `CORE_EPOCH_COLUMNS`. -/
def coreEpochColumns : TableName → List Column
  | .user | .m8flowTenant | .bpmnProcessDefinition | .taskDefinition | .processInstanceMetadata
  | .workItem => [.createdAtInSeconds, .updatedAtInSeconds]
  | .bpmnProcess | .task => [.startInSeconds, .endInSeconds]
  | .processInstance =>
      [.startInSeconds, .endInSeconds, .taskUpdatedAtInSeconds, .createdAtInSeconds,
        .updatedAtInSeconds]
  | .futureTask => [.runAtInSeconds, .queuedToRunAtInSeconds, .updatedAtInSeconds]
  | .processInstanceEvent => [.timestamp]
  | .processModelBpmnVersion => [.createdAtInSeconds]
  | .schedulerJob =>
      [.lockedAtInSeconds, .runAtInSeconds, .createdAtInSeconds, .updatedAtInSeconds]
  | _ => []

/-- `_migrate_work_items`. -/
def migrateWorkItems (engine : Engine) : Proc Db MigrationError Unit :=
  branch (fun db => !db.has .workItem && !db.has .humanTask) (pure ()) do
    branch (fun db => db.has .workItem) (pure ()) (createWorkItems engine)
    check validateWorkItemBackfill
    let workColumns ← check fun db => .ok (db.columns .workItem)
    modify fun db => db.change .workItem fun table =>
      table.dropColumns (.taskId :: coreEpochColumns .workItem)
    check fun _ => require (.taskGuid ∈ workColumns) .noTaskGuid

/-! ## Assignments -/

/-- A row of `source_variants`. -/
structure Assignment where
  workItemId : Option Value
  userId : Option Value
  addedBy : Option Value
  m8fTenantId : Option Value
  deriving DecidableEq

def Assignment.ofHumanTaskUser (row : Row) : Assignment where
  workItemId := row .humanTaskId
  userId := row .userId
  addedBy := row .addedBy
  m8fTenantId := row .m8fTenantId

def Assignment.ofWorkItemUser (row : Row) : Assignment where
  workItemId := row .workItemId
  userId := row .userId
  addedBy := row .addedBy
  m8fTenantId := row .m8fTenantId

/-- The columns of `work_item_user`. -/
def assignmentColumns : List Column := [.workItemId, .userId, .addedBy, .m8fTenantId]

def Assignment.toRow (assignment : Assignment) : Row
  | .workItemId => assignment.workItemId
  | .userId => assignment.userId
  | .addedBy => assignment.addedBy
  | .m8fTenantId => assignment.m8fTenantId
  | _ => none

/-- The join of an assignment with the work items. -/
def hasWorkItem (db : Db) (row : Row) : Bool :=
  (db.rows .workItem).any fun workItem => same (workItem .id) (row .humanTaskId)

/-- `source_variants`. -/
def sourceVariants (db : Db) : List Assignment :=
  (((db.rows .humanTaskUser).filter (hasWorkItem db)).map Assignment.ofHumanTaskUser).eraseDups

/-- `existing_assignment` has the same work item and user. -/
def alreadyAssigned (db : Db) (variant : Assignment) : Bool :=
  (db.rows .workItemUser).any fun row =>
    same (row .workItemId) variant.workItemId && same (row .userId) variant.userId

/-- The checks of `_migrate_assignments`, up to the insert. -/
def checkAssignments (db : Db) : Except MigrationError Unit := do
  require (∀ column ∈ [Column.humanTaskId, .userId, .m8fTenantId],
    column ∈ db.columns .humanTaskUser) .unmappedAssignments
  requireColumns .workItem [.id] db
  stopAt .orphanedAssignments <|
    ((db.rows .humanTaskUser).filter fun row => !hasWorkItem db row).map fun row =>
      (row .humanTaskId, row .userId)
  requireColumns .humanTaskUser [.addedBy] db
  stopAt .conflictingAssignments <| repeated <|
    (sourceVariants db).map fun variant => (variant.workItemId, variant.userId)
  requireColumns .workItemUser assignmentColumns db

/-- `_migrate_assignments`. -/
def migrateAssignments (engine : Engine) : Proc Db MigrationError Unit :=
  branch (fun db => db.has .humanTaskUser) (do
    branch (fun db => db.has .workItemUser) (pure ()) (modify fun db =>
      db.set .workItemUser (some (Table.of assignmentColumns [])))
    execute engine .addAssignmentConstraints id
    check checkAssignments
    execute engine .insertAssignments fun db => db.change .workItemUser fun table =>
      table.insert (((sourceVariants db).filter fun variant => !alreadyAssigned db variant).map
        Assignment.toRow))
    (pure ())

/-! ## Permission targets -/

/-- `trim(value) = ''`. -/
def trimsToNothing : Option Value → Bool
  | some (.text s) => s.all (· = ' ')
  | _ => false

/-- There is an explicit resource pair. -/
def hasPair (row : Row) : Bool := (row .resourceType).isSome && (row .resourceId).isSome

def setRoute (row : Row) : Row :=
  if hasPair row then row
  else fun column =>
    match column with
    | .resourceType => some (.text "tenant".toList)
    | .resourceId => row .uri
    | _ => row column

def hasUri (db : Db) : Bool := .uri ∈ db.columns .permissionTarget

/-- The check of the routes before they become resource pairs. -/
def checkRoutes (db : Db) : Except MigrationError Unit := do
  requireColumns .permissionTarget [.id] db
  stopAt .blankTargets <| ((db.rows .permissionTarget).filter fun row =>
    row .uri = none ∨ trimsToNothing (row .uri)).map (· .id)

/-- The checks of the resource pairs. -/
def checkTargets (db : Db) : Except MigrationError Unit := do
  requireColumns .permissionTarget [.id] db
  stopAt .unresolvedTargets <|
    ((db.rows .permissionTarget).filter fun row => !hasPair row).map (· .id)
  requireColumns .permissionTarget [.command] db
  stopAt .targetCollisions <| repeated <| (db.rows .permissionTarget).map fun row =>
    (row .resourceType, row .resourceId, (row .command).or (some (.text [])))

/-- `_migrate_permission_targets`. -/
def migratePermissionTargets (engine : Engine) : Proc Db MigrationError Unit :=
  branch (fun db => db.has .permissionTarget) (do
    modify fun db => db.change .permissionTarget fun table =>
      (table.addColumn .resourceType).addColumn .resourceId
    branch hasUri
      (do
        check checkRoutes
        execute engine .setRoutes fun db =>
          db.change .permissionTarget fun table => table.update setRoute)
      (pure ())
    check checkTargets
    modify fun db => db.change .permissionTarget fun table => table.dropColumns [.uri])
    (pure ())

/-! ## Events -/

def setTime (expression : Option Value → Option Value) (row : Row) : Row :=
  if (row .occurredAt).isSome then row
  else fun column =>
    match column with
    | .occurredAt => expression (row .timestamp)
    | _ => row column

def setCategory (engine : Engine) (row : Row) : Row :=
  if (row .category).isSome then row
  else fun column =>
    match column with
    | .category =>
        if likeMore engine "task".toList (row .eventType) then some (.text "task".toList)
        else some (.text "process".toList)
    | _ => row column

/-- The check that every event type has a category. -/
def checkEventTypes (engine : Engine) (db : Db) : Except MigrationError Unit := do
  requireColumns .processInstanceEvent [.eventType] db
  stopAt .unknownEventTypes <| ((db.rows .processInstanceEvent).map (· .eventType)).eraseDups.filter
    fun eventType => !likeMore engine "task".toList eventType &&
      !likeMore engine "process".toList eventType

/-- The check that no event is without its category or its time. -/
def checkEvents (db : Db) : Except MigrationError Unit := do
  requireColumns .processInstanceEvent [.id] db
  stopAt .incompleteEvents <| ((db.rows .processInstanceEvent).filter fun row =>
    row .category = none ∨ row .occurredAt = none).map (· .id)

/-- The conversion of the times, for a table without `occurred_at`. -/
def convertTimes (engine : Engine) (columns : List Column) : Proc Db MigrationError Unit := do
  modify fun db => db.change .processInstanceEvent fun table => table.addColumn .occurredAt
  if .timestamp ∈ columns then
    match eventTimestampExpression engine with
    | none => raise .unsupportedDialect
    | some expression =>
        execute engine .setTimes fun db =>
          db.change .processInstanceEvent fun table => table.update (setTime expression)
  else pure ()

/-- `_migrate_events`. -/
def migrateEvents (engine : Engine) : Proc Db MigrationError Unit :=
  branch (fun db => db.has .processInstanceEvent) (do
    let columns ← check fun db => .ok (db.columns .processInstanceEvent)
    (if .occurredAt ∈ columns then pure () else convertTimes engine columns)
    modify fun db => db.change .processInstanceEvent fun table => table.addColumn .category
    check (checkEventTypes engine)
    execute engine .setCategories fun db =>
      db.change .processInstanceEvent fun table => table.update (setCategory engine)
    check checkEvents
    modify fun db => db.change .processInstanceEvent fun table => table.dropColumns [.timestamp])
    (pure ())

/-! ## The upgrade -/

/-- `_enforce_identity_and_names`. -/
def enforceIdentityAndNames (db : Db) : Db :=
  let named := db.change .user fun table =>
    ((table.renameColumn .tenantSpecificField1 .realmIdentifier).renameColumn
      .tenantSpecificField2 .externalOrgId).renameColumn
      .tenantSpecificField3 .externalUserId
  named.change .processInstance fun table =>
    table.renameColumn .spiffSerializerVersion .workflowEngineVersion

/-- The loop over `CORE_EPOCH_COLUMNS`. -/
def dropCoreEpochColumns (db : Db) : Db :=
  fun name => (db name).map fun table => table.dropColumns (coreEpochColumns name)

/-- `_drop_core_source_is_open_id`. -/
def dropCoreSourceIsOpenId (db : Db) : Db :=
  db.change .m8fGroup fun table => table.dropColumns [.sourceIsOpenId]

/-- `upgrade`. -/
def upgrade (engine : Engine) : Proc Db MigrationError Unit := do
  let coreHeadWasPresent ← check requireCoreBreakingHead
  check fun db => if coreHeadWasPresent then .ok () else validateCoreHandoffSchema db
  renameGroupTable
  check fun db => require (coreHeadWasPresent ∨ db.has .m8fGroup) .noGroupTable
  check validateProcessDigests
  migrateWorkItems engine
  migrateAssignments engine
  migratePermissionTargets engine
  migrateEvents engine
  modify enforceIdentityAndNames
  modify dropCoreEpochColumns
  modify dropCoreSourceIsOpenId
  modify fun db => db.set .humanTaskUser none
  modify fun db => db.set .humanTask none
  modify recordCoreBreakingHead

end M8flow.Migration.CoreContract
