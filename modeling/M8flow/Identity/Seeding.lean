import M8flow.Identity.LocalGroups
import M8flow.Lib.Dict

/-!
# Seeding permissions

`import_yaml` of `identity/__init__.py`: the groups of a permissions document are created,
and each of its permissions is granted to the principals of its groups, through a cache of
the rows that are there.  `issueGrants` issues the same grants without the cache.

The get-or-create helpers of the core are parameters (`Core`), with what is relied on in
`Core.Lawful`: each finds the row of an identity, and adds one where there is none.
-/

namespace M8flow.Identity.Seeding

open M8flow.Auth M8flow.Authorization M8flow.Lib

/-! ## Rows -/

/-- What a permission target is told by; older rows may lack any of it. -/
structure TargetKey where
  resourceType : Option Text
  resourceId : Option Text
  command : Option Text
  deriving DecidableEq

structure TargetRow where
  id : Nat
  key : TargetKey
  deriving DecidableEq

structure AssignmentKey where
  principalId : Nat
  targetId : Nat
  permission : Text
  deriving DecidableEq

structure AssignmentRow where
  key : AssignmentKey
  grantType : Text
  deriving DecidableEq

/-- The tables; `rest` are the core's other ones. -/
structure Rows (ρ : Type) where
  groups : List GroupModel
  principals : List Principal
  targets : List TargetRow
  assignments : List AssignmentRow
  /-- The seed version of each tenant. -/
  seeds : Dict Text Nat
  rest : ρ

section Lookups

variable {ρ : Type} (rows : Rows ρ)

def Rows.group (identifier : Text) : Option GroupModel := localGroup rows.groups identifier

def Rows.principal (groupId : Nat) : Option Principal :=
  rows.principals.find? fun principal => principal.groupId = some groupId

def Rows.target (key : TargetKey) : Option TargetRow := rows.targets.find? fun row => row.key = key

def Rows.assignment (key : AssignmentKey) : Option AssignmentRow :=
  rows.assignments.find? fun row => row.key = key

/-- `existing.grant_type = grant_type`. -/
def Rows.setGrantType (key : AssignmentKey) (grantType : Text) : Rows ρ :=
  { rows with
    assignments := rows.assignments.map fun row =>
      if row.key = key then { row with grantType } else row }

/-- Set the grant of an assignment, or add it. -/
def Rows.putAssignment (key : AssignmentKey) (grantType : Text) : Rows ρ :=
  if (rows.assignment key).isSome then rows.setGrantType key grantType
  else { rows with assignments := rows.assignments ++ [⟨key, grantType⟩] }

end Lookups

/-- The helpers of the core, and the id that the database gives to a new group. -/
structure Core (ρ : Type) where
  findOrCreateGroup : Rows ρ → Text → Rows ρ × GroupModel
  findOrCreatePrincipalForGroup : Rows ρ → Nat → Rows ρ × Principal
  findOrCreatePermissionTarget : Rows ρ → TargetKey → Rows ρ × TargetRow
  grantPermissionToGroup : Rows ρ → (groupIdentifier groupName : Text) → TargetKey →
    (permission grantType : Text) → Rows ρ
  ensureV1Role : Rows ρ → (tenantId : Text) → Rows ρ
  newGroupId : Rows ρ → Nat

/-- `RuntimeError`: a principal is not attached to a group. -/
inductive SeedError where
  | detachedPrincipal (principalId : Nat)
  deriving DecidableEq

section Operations

variable {ρ : Type} (core : Core ρ)

/-! ## Groups -/

/-- The insert of `_create_rbac_group_for_existing_lane`. -/
def insertRbacGroup (rows : Rows ρ) (identifier : Text) : Rows ρ × GroupModel :=
  let group : GroupModel :=
    { id := core.newGroupId rows, name := identifier, identifier,
      authorizationKey := some (groupAuthorizationKey identifier) }
  ({ rows with groups := rows.groups ++ [group] }, group)

/-- `_ensure_group`: the row that is found, a row beside a lane's, or the core's. -/
def ensureGroup (rows : Rows ρ) (identifier : Text) : Rows ρ × GroupModel :=
  match rows.group identifier with
  | some group => (rows, group)
  | none =>
      if rows.groups.any fun group => group.identifier = identifier then
        insertRbacGroup core rows identifier
      else core.findOrCreateGroup rows identifier

/-! ## Grants -/

/-- `_URI_MACROS`. -/
def uriMacros : List (Text × Text) :=
  [("PM:ALL".toList, "/process-models/%".toList), ("PG:ALL".toList, "/process-groups/%".toList)]

/-- `_normalize_target_uri`. -/
def normalizeTargetUri (uri : Text) : Text :=
  ((uriMacros.lookup uri.strip).getD uri.strip).map fun c => if c = '*' then '%' else c

/-- The arguments of `grant`, but for the principal. -/
structure Request where
  uri : Text
  permission : Text
  command : Option Text
  resourceType : Option Text
  resourceId : Option Text

/-- `command or permission`. -/
def Request.commandText (request : Request) : Text :=
  (truthy request.command).getD request.permission

def Request.resourceTypeText (request : Request) : Text :=
  (truthy request.resourceType).getD "tenant".toList

def Request.resourceIdText (request : Request) : Text :=
  match request.resourceId with
  | some id => id.strip
  | none => normalizeTargetUri request.uri

def Request.targetKey (request : Request) : TargetKey :=
  ⟨some request.resourceTypeText, some request.resourceIdText, some request.commandText⟩

/-- The key of the target cache. -/
def Request.cacheKey (request : Request) : TargetKey :=
  ⟨some request.resourceTypeText.strip, some request.resourceIdText.strip,
    some request.commandText.strip⟩

/-- The default `grant_type`. -/
def permit : Text := "permit".toList

/-- `session.get(GroupModel, principal.group_id)`. -/
def groupOf (rows : Rows ρ) (principal : Principal) : Option GroupModel :=
  principal.groupId.bind fun id => rows.groups.find? fun group => group.id = id

/-- `_grant_permission_for_existing_principal`. -/
def grantForExistingPrincipal (rows : Rows ρ) (principal : Principal) (target : TargetRow)
    (permission grantType : Text) : Except SeedError (Rows ρ) :=
  match groupOf rows principal with
  | none => .error (.detachedPrincipal principal.id)
  | some group =>
      let matching := (rows.groups.filter fun row => row.identifier = group.identifier).map
        GroupModel.id
      if matching.take 2 = [group.id] then
        .ok (core.grantPermissionToGroup rows group.identifier group.name target.key permission
          grantType)
      else .ok (rows.putAssignment ⟨principal.id, target.id, permission⟩ grantType)

/-- `grant` without a cache. -/
def grant (rows : Rows ρ) (principal : Principal) (request : Request) :
    Except SeedError (Rows ρ) :=
  let found := core.findOrCreatePermissionTarget rows request.targetKey
  let key : AssignmentKey := ⟨principal.id, found.2.id, request.permission⟩
  if (found.1.assignment key).isSome then .ok (found.1.setGrantType key permit)
  else grantForExistingPrincipal core found.1 principal found.2 request.permission permit

/-! ## The cache -/

/-- The state of one `import_yaml`: the tables, `_YamlGrantCache` and the two dictionaries beside
it.  A cached assignment is the row itself, so the key is all that is kept of it. -/
structure Run (ρ : Type) where
  rows : Rows ρ
  targets : Dict TargetKey TargetRow
  assignments : List AssignmentKey
  groupsByIdentifier : Dict Text GroupModel
  principalsByGroupId : Dict Nat Principal

/-- `_YamlGrantCache.load`. -/
def Run.load (rows : Rows ρ) : Run ρ where
  rows := rows
  targets := Dict.ofEntries (rows.targets.map fun row => (row.key, row))
  assignments := rows.assignments.map AssignmentRow.key
  groupsByIdentifier := Dict.empty
  principalsByGroupId := Dict.empty

/-- `_group`. -/
def cachedGroup (run : Run ρ) (identifier : Text) : Run ρ × GroupModel :=
  match run.groupsByIdentifier.get? identifier with
  | some group => (run, group)
  | none =>
      let ensured := ensureGroup core run.rows identifier
      ({ run with
          rows := ensured.1
          groupsByIdentifier := run.groupsByIdentifier.set identifier ensured.2 },
        ensured.2)

/-- `_principal_for`. -/
def cachedPrincipal (run : Run ρ) (group : GroupModel) : Run ρ × Principal :=
  match run.principalsByGroupId.get? group.id with
  | some principal => (run, principal)
  | none =>
      let found := core.findOrCreatePrincipalForGroup run.rows group.id
      ({ run with
          rows := found.1
          principalsByGroupId := run.principalsByGroupId.set group.id found.2 },
        found.2)

/-- `_YamlGrantCache.target`. -/
def cachedTarget (run : Run ρ) (request : Request) : Run ρ × TargetRow :=
  match run.targets.get? request.cacheKey with
  | some target => (run, target)
  | none =>
      let created := core.findOrCreatePermissionTarget run.rows request.cacheKey
      ({ run with
          rows := created.1
          targets := run.targets.set request.cacheKey created.2 },
        created.2)

/-- `_YamlGrantCache.assignment`: a row with the same grant is left alone. -/
def cachedAssignment (run : Run ρ) (principal : Principal) (target : TargetRow)
    (permission grantType : Text) : Except SeedError (Run ρ) :=
  let key : AssignmentKey := ⟨principal.id, target.id, permission⟩
  if key ∈ run.assignments then
    if (run.rows.assignment key).map AssignmentRow.grantType = some grantType then .ok run
    else .ok { run with rows := run.rows.setGrantType key grantType }
  else
    match groupOf run.rows principal with
    | none => .error (.detachedPrincipal principal.id)
    | some _ =>
        (grantForExistingPrincipal core run.rows principal target permission grantType).map
          fun rows => { run with rows, assignments := key :: run.assignments }

/-- `grant` with the cache. -/
def cachedGrant (run : Run ρ) (principal : Principal) (request : Request) :
    Except SeedError (Run ρ) :=
  let found := cachedTarget core run request
  cachedAssignment core found.1 principal found.2 request.permission permit

/-! ## The document -/

/-- An entry of `permissions`. -/
structure Permission where
  uris : List Text
  actions : List Text
  command : Option Text
  resourceType : Option Text
  resourceId : Option Text
  groups : List Text

structure Document where
  groups : List Text
  permissions : List Permission

/-- The grants that an entry is for, to each of its groups. -/
def Permission.requests (spec : Permission) : List Request :=
  spec.uris.flatMap fun uri =>
    (if spec.actions = [] then ["read".toList] else spec.actions).map fun action =>
      ⟨uri, action, spec.command, spec.resourceType, spec.resourceId⟩

/-- `f"{tenant_id}:{name}"`. -/
def tenantIdentifier (tenantId name : Text) : Text := tenantId ++ ':' :: name

/-- The identifier of a group that the document names. -/
def qualified (tenantId : Option Text) (name : Text) : Text :=
  match truthy tenantId with
  | some tenant => if name ≠ superAdminRole ∧ ':' ∉ name then tenantIdentifier tenant name else name
  | none => name

/-- The groups of an entry of `groups`. -/
def groupIdentifiers (tenantId : Option Text) (name : Text) : List Text :=
  let identifier := qualified tenantId name
  if ':' ∉ identifier ∧ identifier ≠ superAdminRole then [] else [identifier]

def everybody : Text := "everybody".toList

/-- The groups that a permission's group stands for. -/
def memberIdentifiers (tenantId : Option Text) (name : Text) : List Text :=
  let identifier := qualified tenantId name
  if ':' ∉ identifier ∧ identifier ≠ superAdminRole ∧ identifier ≠ everybody then []
  else
    match truthy tenantId with
    | none => [identifier]
    | some tenant =>
        (if identifier = everybody then tenantIdentifier tenant "user".toList else identifier) ::
          if name = everybody then sortedRoleNames.map (tenantIdentifier tenant) else []

/-- What the import does one after the other. -/
inductive Step where
  | group (identifier : Text)
  | grants (identifier : Text) (requests : List Request)

def plan (tenantId : Option Text) (document : Document) : List Step :=
  (document.groups.flatMap (groupIdentifiers tenantId)).map Step.group ++
    document.permissions.flatMap fun spec =>
      (spec.groups.flatMap (memberIdentifiers tenantId)).map fun identifier =>
        Step.grants identifier spec.requests

/-- The operations of the loops, over the tables or over a run. -/
structure Operations (σ : Type) where
  group : σ → Text → σ × GroupModel
  principal : σ → GroupModel → σ × Principal
  grant : σ → Principal → Request → Except SeedError σ

def Step.perform {σ : Type} (operations : Operations σ) (state : σ) : Step → Except SeedError σ
  | .group identifier => .ok (operations.group state identifier).1
  | .grants identifier requests =>
      let found := operations.group state identifier
      let attached := operations.principal found.1 found.2
      requests.foldlM (fun state request => operations.grant state attached.2 request) attached.1

def performAll {σ : Type} (operations : Operations σ) (state : σ) (steps : List Step) :
    Except SeedError σ :=
  steps.foldlM (fun state step => step.perform operations state) state

def cached : Operations (Run ρ) where
  group := cachedGroup core
  principal := cachedPrincipal core
  grant := cachedGrant core

def uncached : Operations (Rows ρ) where
  group := ensureGroup core
  principal := fun rows group => core.findOrCreatePrincipalForGroup rows group.id
  grant := grant core

/-- `TENANT_PERMISSION_SEED_VERSION`. -/
def tenantPermissionSeedVersion : Nat := 7

/-- What follows the loops: the tenant's role, and for the canonical document its marker. -/
def finish (canonical : Bool) (tenantId : Option Text) (rows : Rows ρ) : Rows ρ :=
  match truthy tenantId with
  | none => rows
  | some tenant =>
      let roled := core.ensureV1Role rows tenant
      if canonical then { roled with seeds := roled.seeds.set tenant tenantPermissionSeedVersion }
      else roled

/-- `import_yaml`. -/
def importYaml (canonical : Bool) (tenantId : Option Text) (document : Document) (rows : Rows ρ) :
    Except SeedError (Rows ρ) :=
  (performAll (cached core) (Run.load rows) (plan tenantId document)).map fun run =>
    finish core canonical tenantId run.rows

/-- The same grants one by one without the cache. -/
def issueGrants (canonical : Bool) (tenantId : Option Text) (document : Document)
    (rows : Rows ρ) : Except SeedError (Rows ρ) :=
  (performAll (uncached core) rows (plan tenantId document)).map (finish core canonical tenantId)

end Operations

end M8flow.Identity.Seeding
