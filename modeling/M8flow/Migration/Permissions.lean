import M8flow.Identity.Seeding

/-!
# The migrations of the permission rows

The data migrations `e7f8a9b0c1d2`, `f6a7b8c9d0e1`, `b8c9d0e1f2a3`, `b9d2e3f4a5c6` and
`c1e4f5a6b7d8`: they backfill and revoke grants in the tables that the permission seed writes.

The tables are those of the seed, with the tenants as the rest.  The ids that the database gives
to new rows are a parameter (`Ids`); an insert that breaks a unique key is refused.
-/

namespace M8flow.Migration.Permissions

open M8flow.Auth M8flow.Authorization M8flow.Identity M8flow.Identity.Seeding M8flow.Lib

abbrev Tables := Rows (List Text)

/-- The ids of `m8flow_tenant`. -/
def tenants (tables : Tables) : List Text := tables.rest

/-- The ids of new rows. -/
structure Ids where
  group : Tables → Nat
  principal : Tables → Nat
  target : Tables → Nat

inductive MigrationError where
  /-- `IntegrityError`. -/
  | conflict
  /-- `MultipleResultsFound`. -/
  | multipleRows
  /-- `RuntimeError`: the principals and targets whose backfill is missing. -/
  | incomplete (missing : List (Nat × Nat))
  deriving DecidableEq

/-- `INSERT` into `permission_assignment`. -/
def insertAssignments (tables : Tables) (rows : List AssignmentRow) :
    Except MigrationError Tables :=
  if ((tables.assignments ++ rows).map AssignmentRow.key).Nodup then
    .ok { tables with assignments := tables.assignments ++ rows }
  else .error .conflict

/-- `scalar_one_or_none`. -/
def oneOrNone {α : Type} : List α → Except MigrationError (Option α)
  | [] => .ok none
  | [row] => .ok (some row)
  | _ :: _ :: _ => .error .multipleRows

/-- A target of the tenant's routes. -/
def routeKey (resourceId command : Text) : TargetKey :=
  ⟨some "tenant".toList, some resourceId, some command⟩

def readPermission : Text := "read".toList
def allPermission : Text := "all".toList
def createPermission : Text := "create".toList
def executePermission : Text := "execute".toList

/-! ## Lifecycle grants (`e7f8a9b0c1d2`) -/

/-- `_LIFECYCLE_COMMANDS`. -/
def lifecycleCommands : List Text :=
  ["process.suspend", "process.resume", "process.retry", "process.terminate"].map String.toList

def isLifecycle (key : TargetKey) : Bool :=
  lifecycleCommands.any fun command => key.command = some command

/-- The `execute` rows of legacy assignments that have none. -/
def lifecycleSource (tables : Tables) : List AssignmentRow :=
  tables.assignments.flatMap fun legacy =>
    (tables.targets.filter fun target => target.id = legacy.key.targetId).filterMap fun target =>
      if legacy.key.permission = createPermission ∧
          isLifecycle target.key ∧
          (tables.assignment { legacy.key with permission := executePermission }).isNone then
        some ⟨{ legacy.key with permission := executePermission }, legacy.grantType⟩
      else none

/-- `upgrade` of `e7f8a9b0c1d2`; its `downgrade` does nothing. -/
def backfillLifecycle (tables : Tables) : Except MigrationError Tables := do
  let upgraded ← insertAssignments tables (lifecycleSource tables)
  match (lifecycleSource upgraded).take 20 with
  | [] => .ok upgraded
  | missing =>
      .error (.incomplete (missing.map fun row => (row.key.principalId, row.key.targetId)))

/-! ## Revoked grants -/

/-- The principals of the groups of the roles: the tenants' own and, with `legacyGlobal`, those
without a tenant. -/
def rolePrincipals (tables : Tables) (roles : List Text) (legacyGlobal : Bool) : List Nat :=
  let qualified := (tenants tables).flatMap fun tenant => roles.map (tenantIdentifier tenant)
  tables.principals.flatMap fun principal =>
    (tables.groups.filter fun group => principal.groupId = some group.id).filterMap fun group =>
      if (legacyGlobal ∧ group.identifier ∈ roles) ∨ group.identifier ∈ qualified then
        some principal.id
      else none

/-- The permits that a migration deletes. -/
structure Revocation where
  roles : List Text
  revokes : TargetKey → Bool
  permissions : List Text

def Revocation.matches (revocation : Revocation) (tables : Tables) (row : AssignmentRow) : Bool :=
  row.key.principalId ∈ rolePrincipals tables revocation.roles true ∧
    row.key.targetId ∈ (tables.targets.filter fun target => revocation.revokes target.key).map
      TargetRow.id ∧
    row.key.permission ∈ revocation.permissions ∧ row.grantType = permit

/-- The `DELETE` of the revoking migrations. -/
def Revocation.upgrade (revocation : Revocation) (tables : Tables) : Tables :=
  { tables with
    assignments := tables.assignments.filter fun row => !(revocation.matches tables row) }

/-- `upgrade` of `f6a7b8c9d0e1`; its `downgrade` does nothing. -/
def revokeEditorTaskCount : Revocation where
  roles := ["editor".toList]
  revokes key := key = routeKey "/m8flow/home-task-count".toList readPermission
  permissions := [readPermission]

/-- `_TENANT_WIDE_INSTANCE_TARGETS`. -/
def tenantWideInstanceTargets : List Text :=
  ["/process-instances".toList, "/process-instances/%".toList]

def isTenantWide (key : TargetKey) : Bool :=
  key.resourceType = some "tenant".toList ∧
    tenantWideInstanceTargets.any fun id => key.resourceId = some id

/-- `upgrade` of `b9d2e3f4a5c6`. -/
def revokeSubmitterInstances : Revocation where
  roles := ["submitter".toList]
  revokes := isTenantWide
  permissions := [readPermission, allPermission]

/-- `upgrade` of `c1e4f5a6b7d8`. -/
def revokeEditorViewerInstances : Revocation where
  roles := ["editor".toList, "viewer".toList]
  revokes := isTenantWide
  permissions := [readPermission, allPermission]

/-- `_RESTORED_TARGETS`, as keys. -/
def restoredTargets : List TargetKey :=
  [routeKey "/process-instances".toList "process_instance.list".toList,
    routeKey "/process-instances/%".toList "process_instance.read".toList]

/-- The rows that `downgrade` inserts for one target. -/
def restoredRows (tables : Tables) (principals : List Nat) (targetId : Nat) :
    List AssignmentRow :=
  (principals.filter fun principalId =>
    tables.assignments.all fun row =>
      !decide (row.key.targetId = targetId ∧ row.key.permission = readPermission ∧
        row.key.principalId = principalId)).map fun principalId =>
    ⟨⟨principalId, targetId, readPermission⟩, permit⟩

/-- `downgrade` of the two last ones. -/
def restore (roles : List Text) (legacyGlobal : Bool) (tables : Tables) :
    Except MigrationError Tables :=
  let principals := rolePrincipals tables roles legacyGlobal
  let targetIds := restoredTargets.flatMap fun key =>
    (tables.targets.filter fun target => target.key = key).map TargetRow.id
  targetIds.foldlM
    (fun tables targetId => insertAssignments tables (restoredRows tables principals targetId))
    tables

/-! ## Task Review and Home (`b8c9d0e1f2a3`) -/

/-- `_CURRENT_SEED_VERSION`. -/
def reviewSeedVersion : Nat := 3

/-- `_ROLE_NAMES`. -/
def reviewRoles : List Text := ["tenant-admin", "reviewer", "submitter"].map String.toList

/-- `_TARGETS`, as permissions and keys. -/
def reviewTargets : List (Text × TargetKey) :=
  [(readPermission, routeKey "/m8flow/task-review-access".toList readPermission),
    (readPermission, routeKey "/m8flow/task-review-access/%".toList readPermission),
    (createPermission, routeKey "/m8flow/task-review-access/%/submit".toList createPermission),
    (readPermission, routeKey "/m8flow/home-task-count".toList readPermission)]

section Review

variable (ids : Ids)

/-- `_target_id`. -/
def targetId (tables : Tables) (key : TargetKey) : Except MigrationError (Tables × Nat) := do
  match ← oneOrNone (tables.targets.filter fun target => target.key = key) with
  | some target => .ok (tables, target.id)
  | none =>
      let id := ids.target tables
      .ok ({ tables with targets := tables.targets ++ [⟨id, key⟩] }, id)

/-- The group of `_ensure_group_principal`. -/
def reviewGroup (tables : Tables) (identifier : Text) : Except MigrationError (Tables × Nat) := do
  match ← oneOrNone (tables.groups.filter fun group =>
      group.identifier = identifier ∧
        group.authorizationKey = some (groupAuthorizationKey identifier)) with
  | some group => .ok (tables, group.id)
  | none =>
      if tables.groups.any fun group =>
          group.authorizationKey = some (groupAuthorizationKey identifier) then
        .error .conflict
      else
        let id := ids.group tables
        let group : GroupModel :=
          { id, name := identifier, identifier,
            authorizationKey := some (groupAuthorizationKey identifier) }
        .ok ({ tables with groups := tables.groups ++ [group] }, id)

/-- `_ensure_group_principal`. -/
def ensureGroupPrincipal (tables : Tables) (identifier : Text) :
    Except MigrationError (Tables × Nat) := do
  let grouped ← reviewGroup ids tables identifier
  match grouped.1.principal grouped.2 with
  | some principal => .ok (grouped.1, principal.id)
  | none =>
      let id := ids.principal grouped.1
      let principal : Principal := { id, userId := none, groupId := some grouped.2 }
      .ok ({ grouped.1 with principals := grouped.1.principals ++ [principal] }, id)

/-- `_ensure_assignment`: a row that is there keeps its grant type. -/
def ensureAssignment (tables : Tables) (key : AssignmentKey) : Tables :=
  if (tables.assignment key).isSome then tables
  else { tables with assignments := tables.assignments ++ [⟨key, permit⟩] }

/-- The grants of one role of a tenant. -/
def grantReview (targets : List (Text × Nat)) (tables : Tables) (identifier : Text) :
    Except MigrationError Tables := do
  let attached ← ensureGroupPrincipal ids tables identifier
  .ok (targets.foldl
    (fun tables target => ensureAssignment tables ⟨attached.2, target.2, target.1⟩) attached.1)

/-- The tenants that have no marker, or an older one. -/
def staleTenants (tables : Tables) : List Text :=
  (tenants tables).filter fun tenant =>
    (tables.seeds.get? tenant).all fun version => version < reviewSeedVersion

/-- `upgrade` of `b8c9d0e1f2a3`; its `downgrade` does nothing. -/
def backfillReview (tables : Tables) : Except MigrationError Tables := do
  let found ← reviewTargets.foldlM
    (fun (found : Tables × List (Text × Nat)) target => do
      let next ← targetId ids found.1 target.2
      .ok (next.1, found.2 ++ [(target.1, next.2)]))
    (tables, [])
  let granted ← ((staleTenants found.1).flatMap fun tenant =>
      reviewRoles.map (tenantIdentifier tenant)).foldlM (grantReview ids found.2) found.1
  .ok { granted with
    seeds := granted.seeds.mapValues fun version =>
      if version < reviewSeedVersion then reviewSeedVersion else version }

end Review

/-! ## Runs -/

/-- The migrations, in the order of their revisions. -/
inductive Revision where
  | lifecycle
  | editorTaskCount
  | review
  | submitterInstances
  | editorViewerInstances
  deriving DecidableEq

def Revision.upgrade (ids : Ids) : Revision → Tables → Except MigrationError Tables
  | .lifecycle, tables => backfillLifecycle tables
  | .editorTaskCount, tables => .ok (revokeEditorTaskCount.upgrade tables)
  | .review, tables => backfillReview ids tables
  | .submitterInstances, tables => .ok (revokeSubmitterInstances.upgrade tables)
  | .editorViewerInstances, tables => .ok (revokeEditorViewerInstances.upgrade tables)

def Revision.downgrade : Revision → Tables → Except MigrationError Tables
  | .lifecycle, tables => .ok tables
  | .editorTaskCount, tables => .ok tables
  | .review, tables => .ok tables
  | .submitterInstances, tables => restore ["submitter".toList] true tables
  | .editorViewerInstances, tables => restore ["editor".toList, "viewer".toList] false tables

inductive Move where
  | up (revision : Revision)
  | down (revision : Revision)

def Move.perform (ids : Ids) (tables : Tables) : Move → Except MigrationError Tables
  | .up revision => revision.upgrade ids tables
  | .down revision => revision.downgrade tables

def run (ids : Ids) (moves : List Move) (tables : Tables) : Except MigrationError Tables :=
  moves.foldlM (fun tables move => move.perform ids tables) tables

end M8flow.Migration.Permissions
