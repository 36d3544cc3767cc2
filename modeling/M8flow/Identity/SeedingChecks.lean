import M8flow.Identity.SeedingImport

/-!
# The checks on a seeded tenant

`_missing_permission_grants`, `tenant_permission_seed_current` and the step of
`sync_groups_from_token` that seeds a tenant and refuses the request when lifecycle grants are
missing.

- `importYaml_grants` says that the import leaves every grant that the document lists, also
  where there was a deny.
- `missingPermissionGrants_eq_nil` says when a check finds nothing missing.
- `missing_finish` puts these together for a document that lists what a check asks for.
-/

namespace M8flow.Identity.Seeding

open M8flow.Auth M8flow.Authorization M8flow.Lib

/-! ## The checks -/

/-- What a check asks for: that each of the roles may run each of the commands. -/
structure GrantCheck where
  roles : List Text
  commands : List (Option Text)
  resourceType : Option Text
  resourceId : Option Text
  permission : Text

section Checks

variable {ρ : Type} (rows : Rows ρ)

/-- The target is one that the check asks for. -/
def GrantCheck.Covers (check : GrantCheck) (key : TargetKey) : Prop :=
  key.command ∈ check.commands ∧
    (check.resourceType = none ∨ key.resourceType = check.resourceType) ∧
    (check.resourceId = none ∨ key.resourceId = check.resourceId)

instance (check : GrantCheck) (key : TargetKey) : Decidable (check.Covers key) :=
  decidable_of_iff ((∃ command ∈ check.commands, key.command = command) ∧
    (check.resourceType = none ∨ key.resourceType = check.resourceType) ∧
    (check.resourceId = none ∨ key.resourceId = check.resourceId)) (by simp [GrantCheck.Covers])

/-- The rows of the query: who may run what. -/
def presentGrants (identifiers : List Text) (check : GrantCheck) : List (Text × Option Text) :=
  rows.assignments.flatMap fun assignment =>
    (rows.principals.filter fun principal => principal.id = assignment.key.principalId).flatMap
      fun principal =>
        (rows.groups.filter fun group => principal.groupId = some group.id).flatMap fun group =>
          (rows.targets.filter fun target => target.id = assignment.key.targetId).filterMap
            fun target =>
              if group.identifier ∈ identifiers ∧ assignment.key.permission = check.permission ∧
                  assignment.grantType = permit ∧ check.Covers target.key then
                some (group.identifier, target.key.command)
              else none

/-- `f"{identifier}:{command or 'route'}"`. -/
def grantText (grant : Text × Option Text) : Text :=
  grant.1 ++ ':' :: (truthy grant.2).getD "route".toList

/-- `_missing_permission_grants`. -/
def missingPermissionGrants (tenantId : Text) (check : GrantCheck) : List Text :=
  if tenantId.strip = [] then
    (check.roles.flatMap fun role => check.commands.map fun command => (role, command)).map
      grantText
  else
    let identifiers := check.roles.map (tenantIdentifier tenantId.strip)
    let expected :=
      (identifiers.flatMap fun identifier =>
        check.commands.map fun command => (identifier, command)).dedup
    ((expected.filter fun grant => grant ∉ presentGrants rows identifiers check).map
      grantText).insertionSort fun text other => text ≤ other

/-- `tenant_permission_seed_current`. -/
def tenantPermissionSeedCurrent (tenantId : Text) : Bool :=
  tenantId.strip ≠ [] ∧
    (rows.seeds.get? tenantId.strip).any fun version => tenantPermissionSeedVersion ≤ version

def editorRole : Text := "editor".toList
def tenantAdminRole : Text := "tenant-admin".toList
def reviewerRole : Text := "reviewer".toList
def submitterRole : Text := "submitter".toList

/-- `missing_lifecycle_execute_grants`. -/
def lifecycleCheck : GrantCheck where
  roles := [editorRole, tenantAdminRole]
  commands := ["process.resume", "process.retry", "process.suspend", "process.terminate"].map
    fun command => some command.toList
  resourceType := none
  resourceId := none
  permission := "execute".toList

/-- A check on the targets of one route. -/
def routeCheck (roles : List Text) (permission command resourceId : String) : GrantCheck where
  roles := roles
  commands := [some command.toList]
  resourceType := some "tenant".toList
  resourceId := some resourceId.toList
  permission := permission.toList

/-- `missing_task_execute_grants`. -/
def taskExecuteCheck : GrantCheck :=
  routeCheck [editorRole, reviewerRole, submitterRole, tenantAdminRole] "execute" "execute"
    "/tasks/%"

/-- `missing_process_start_grants`. -/
def processStartCheck : GrantCheck :=
  routeCheck [editorRole, submitterRole, tenantAdminRole] "start" "process.start"
    "/process-models/%"

/-- `missing_home_task_count_grants`. -/
def homeTaskCountCheck : GrantCheck :=
  routeCheck [reviewerRole, submitterRole, tenantAdminRole] "read" "read"
    "/m8flow/home-task-count"

/-- The two checks of `missing_task_review_read_grants`. -/
def taskReviewReadChecks : List GrantCheck :=
  ["/m8flow/task-review-access", "/m8flow/task-review-access/%"].map
    (routeCheck [reviewerRole, submitterRole, tenantAdminRole] "read" "read")

/-- `missing_task_review_submit_grants`. -/
def taskReviewSubmitCheck : GrantCheck :=
  routeCheck [reviewerRole, submitterRole, tenantAdminRole] "create" "create"
    "/m8flow/task-review-access/%/submit"

/-- `missing_mcp_tools_grants`. -/
def mcpToolsCheck : GrantCheck :=
  routeCheck [tenantAdminRole] "create" "create" "/m8flow/mcp-tools/execute"

def seedChecks : List GrantCheck :=
  [lifecycleCheck, taskExecuteCheck, processStartCheck, homeTaskCountCheck] ++
    taskReviewReadChecks ++ [taskReviewSubmitCheck, mcpToolsCheck]

/-! ## The sync -/

inductive SyncError where
  /-- The import failed. -/
  | unseeded (error : SeedError)
  | missingGrants (texts : List Text)
  deriving DecidableEq

end Checks

section Sync

variable {ρ : Type}

/-- The refusal of a request whose tenant lacks lifecycle grants. -/
def requireLifecycleGrants (tenantId : Text) (groupIdentifiers : List Text) (rows : Rows ρ) :
    Except SyncError (Rows ρ) :=
  if (lifecycleCheck.roles.map (tenantIdentifier tenantId)).any
      fun identifier => identifier ∈ groupIdentifiers then
    match missingPermissionGrants rows tenantId lifecycleCheck with
    | [] => .ok rows
    | text :: texts => .error (.missingGrants (text :: texts))
  else .ok rows

/-- The seeding of `sync_groups_from_token`, between the two group syncs and the tasks. -/
def ensurePermissions (core : Core ρ) (tenantId : Text) (groupIdentifiers : List Text)
    (document : Document) (rows : Rows ρ) : Except SyncError (Rows ρ) :=
  if groupIdentifiers = [] then .ok rows
  else if tenantPermissionSeedCurrent rows tenantId then
    requireLifecycleGrants tenantId groupIdentifiers rows
  else
    match importYaml core true (some tenantId) document rows with
    | .error error => .error (.unseeded error)
    | .ok seeded => requireLifecycleGrants tenantId groupIdentifiers seeded

end Sync

/-! ## What the import leaves -/

/-- The key that is derived from the identifier is on a row with the identifier only. -/
def KeyedFor (groups : List GroupModel) (identifier : Text) : Prop :=
  ∀ group ∈ groups, group.authorizationKey = some (groupAuthorizationKey identifier) →
    group.identifier = identifier

/-- The key of the identifier is that of a lane. -/
def NamesLane (identifier : Text) : Prop :=
  ∃ id, groupAuthorizationKey identifier = laneAuthorizationKey id

/-- A key that is derived from an identifier is on a row with the identifier, but for the keys of
lanes. -/
def KeyedByIdentifier (groups : List GroupModel) : Prop :=
  ∀ group ∈ groups, ∀ identifier, ¬ NamesLane identifier →
    group.authorizationKey = some (groupAuthorizationKey identifier) → group.identifier = identifier

theorem KeyedByIdentifier.keyedFor {groups : List GroupModel} (h : KeyedByIdentifier groups)
    {identifier : Text} (hlane : ¬ NamesLane identifier) : KeyedFor groups identifier :=
  fun group hgroup hkey => h group hgroup identifier hlane hkey

/-- A row with its own key leaves the keys as they are. -/
theorem KeyedFor.append {groups : List GroupModel} {identifier : Text}
    (h : KeyedFor groups identifier) {group : GroupModel}
    (hkey : group.authorizationKey = some (groupAuthorizationKey group.identifier)) :
    KeyedFor (groups ++ [group]) identifier := by
  intro row hrow hsame
  rw [List.mem_append, List.mem_singleton] at hrow
  obtain hold | hnew := hrow
  · exact h row hold hsame
  · rw [hnew, hkey] at hsame
    rw [hnew]
    exact groupAuthorizationKey_injective (Option.some.inj hsame)

/-- There are rows that grant the permission on a target to the group with the identifier. -/
def Permits {ρ : Type} (rows : Rows ρ) (identifier permission : Text) (key : TargetKey) : Prop :=
  ∃ group ∈ rows.groups, ∃ principal ∈ rows.principals, ∃ target ∈ rows.targets,
    group.identifier = identifier ∧ principal.groupId = some group.id ∧ target.key = key ∧
      (⟨⟨principal.id, target.id, permission⟩, permit⟩ : AssignmentRow) ∈ rows.assignments

section Grants

variable {ρ : Type} {core : Core ρ} {keyOf : Request → TargetKey} (hlaw : core.Lawful)
  (hfull : ∀ request, (keyOf request).Full)

theorem groups_putAssignment (rows : Rows ρ) (key : AssignmentKey) (grantType : Text) :
    (rows.putAssignment key grantType).groups = rows.groups := by
  unfold Rows.putAssignment
  split <;> rfl

include hlaw

theorem ensureGroup_keyed {rows : Rows ρ} {identifier : Text}
    (h : KeyedFor rows.groups identifier) (other : Text) :
    KeyedFor (ensureGroup core rows other).1.groups identifier := by
  obtain ⟨group, -, hop⟩ | ⟨-, group, hop, hidentifier, hkey, -⟩ := ensureGroup_spec hlaw rows other
  · rw [hop]
    exact h
  · rw [hop]
    exact h.append (hidentifier.symm ▸ hkey)

theorem groups_principal (rows : Rows ρ) (groupId : Nat) :
    (core.findOrCreatePrincipalForGroup rows groupId).1.groups = rows.groups := by
  obtain ⟨principal, -, hop⟩ | ⟨-, principal, hop, -⟩ := principal_spec hlaw rows groupId
  · rw [hop]
  · rw [hop]

include hfull

theorem groups_foldl_settleGrant (principal : Principal) (requests : List Request)
    (rows : Rows ρ) :
    (requests.foldl (settleGrant core keyOf principal) rows).groups = rows.groups := by
  induction requests generalizing rows with
  | nil => rfl
  | cons request requests ih =>
      rw [List.foldl_cons, ih, settleGrant, groups_putAssignment]
      obtain ⟨row, -, hop⟩ | ⟨-, row, hop, -⟩ := target_spec hlaw rows (hfull request)
      · rw [hop]
      · rw [hop]

theorem foldl_settle_keyed {rows : Rows ρ} {identifier : Text}
    (h : KeyedFor rows.groups identifier) (steps : List Step) :
    KeyedFor (steps.foldl (settle core keyOf) rows).groups identifier := by
  induction steps generalizing rows with
  | nil => exact h
  | cons step steps ih =>
      refine ih ?_
      cases step with
      | group other => exact ensureGroup_keyed hlaw h other
      | grants other requests =>
          unfold settle
          dsimp only
          rw [groups_foldl_settleGrant hlaw hfull, groups_principal hlaw]
          exact ensureGroup_keyed hlaw h other

end Grants

/-- What a step of keyed tables has granted stays granted. -/
theorem permits_of_settled {ρ : Type} {keyOf : Request → TargetKey}
    (hfull : ∀ request, (keyOf request).Full) {rows after : Rows ρ} {identifier : Text}
    (hkeyed : KeyedFor rows.groups identifier) (hgrows : Grows rows after)
    {requests : List Request} (h : Settled keyOf rows (.grants identifier requests))
    {request : Request} (hrequest : request ∈ requests) :
    Permits after identifier request.permission (keyOf request) := by
  obtain ⟨group, principal, hattached, hgranted⟩ := h
  obtain ⟨target, htarget, hassignment⟩ := (hgranted request hrequest).grows hfull hgrows
  obtain ⟨hbefore, hnamed⟩ := foundGroup_mem hattached.found
  have hafter := hattached.grows hgrows
  have hprincipal := List.find?_some hafter.attached
  have hidentifier : group.identifier = identifier := by
    obtain hidentifier | hkey := hnamed
    · exact hidentifier
    · exact hkeyed group hbefore hkey
  exact ⟨group, (foundGroup_mem hafter.found).1, principal,
    List.mem_of_find?_eq_some hafter.attached, target, List.mem_of_find?_eq_some htarget,
    hidentifier, of_decide_eq_true hprincipal, key_of_target htarget,
    (assignment_eq_some hassignment).1⟩

section Import

variable {ρ : Type} {core : Core ρ} (hlaw : core.Lawful) {rows : Rows ρ}
  (hrows : Constraints rows)

include hlaw hrows

theorem finish_permits (canonical : Bool) {tenantId : Option Text} {document : Document}
    {spec : Permission} (hspec : spec ∈ document.permissions) {name : Text}
    (hname : name ∈ spec.groups) {identifier : Text}
    (hidentifier : identifier ∈ memberIdentifiers tenantId name)
    (hkeyed : KeyedFor rows.groups identifier) {request : Request} (hrequest : request ∈ spec.requests) :
    Permits (finish core canonical tenantId
        ((plan tenantId document).foldl (settle core Request.cacheKey) rows))
      identifier request.permission request.cacheKey := by
  have hstep : Step.grants identifier spec.requests ∈ plan tenantId document :=
    List.mem_append_right _ (List.mem_flatMap.mpr ⟨spec, hspec,
      List.mem_map.mpr ⟨identifier, List.mem_flatMap.mpr ⟨name, hname, hidentifier⟩, rfl⟩⟩)
  obtain ⟨-, -, -, hsettled⟩ :=
    foldl_settle hlaw cacheKey_full hrows (fun _ => True) (plan tenantId document)
      fun _ _ _ _ => trivial
  exact permits_of_settled cacheKey_full (foldl_settle_keyed hlaw cacheKey_full hkeyed _)
    (finish_grows hlaw tenantId canonical _) (hsettled _ hstep) hrequest

end Import

/-- Every grant that the document lists is there after the import, also where it was denied. -/
theorem importYaml_grants {ρ : Type} (core : Core ρ) (hlaw : core.Lawful) {rows : Rows ρ}
    (hrows : Constraints rows) (hkeyed : KeyedByIdentifier rows.groups) (canonical : Bool)
    (tenantId : Option Text) (document : Document) :
    ∃ after, importYaml core canonical tenantId document rows = .ok after ∧
      ∀ spec ∈ document.permissions, ∀ name ∈ spec.groups,
        ∀ identifier ∈ memberIdentifiers tenantId name, ¬ NamesLane identifier →
          ∀ request ∈ spec.requests, Permits after identifier request.permission request.cacheKey :=
  ⟨_, importYaml_eq hlaw tenantId hrows canonical document,
    fun _ hspec _ hname _ hidentifier hlane _ hrequest =>
      finish_permits hlaw hrows canonical hspec hname hidentifier (hkeyed.keyedFor hlane)
        hrequest⟩

theorem demoRows_keyed : KeyedByIdentifier demoRows.groups := by
  intro group hgroup identifier hlane hkey
  have hkeys : ∀ group ∈ demoRows.groups, ∀ key ∈ group.authorizationKey,
      groupAuthorizationKey group.identifier = key ∨ key = laneAuthorizationKey 1 := by
    decide
  obtain hown | hother := hkeys group hgroup _ hkey
  · exact groupAuthorizationKey_injective hown
  · exact absurd ⟨1, hother⟩ hlane

theorem importYaml_grants_demo :
    ∃ after, importYaml byIdentity true (some "t".toList) demoDocument demoRows = .ok after ∧
      ∀ spec ∈ demoDocument.permissions, ∀ name ∈ spec.groups,
        ∀ identifier ∈ memberIdentifiers (some "t".toList) name, ¬ NamesLane identifier →
          ∀ request ∈ spec.requests, Permits after identifier request.permission request.cacheKey :=
  importYaml_grants byIdentity byIdentity_lawful demoRows_constraints demoRows_keyed true
    (some "t".toList) demoDocument

/-! ## Nothing missing -/

/-- The groups that the permissions of the document are for. -/
def Document.identifiers (document : Document) (tenantId : Option Text) : List Text :=
  document.permissions.flatMap fun spec => spec.groups.flatMap (memberIdentifiers tenantId)

theorem mem_identifiers {document : Document} {tenantId : Option Text} {spec : Permission}
    (hspec : spec ∈ document.permissions) {name : Text} (hname : name ∈ spec.groups)
    {identifier : Text} (hidentifier : identifier ∈ memberIdentifiers tenantId name) :
    identifier ∈ document.identifiers tenantId :=
  List.mem_flatMap.mpr ⟨spec, hspec, List.mem_flatMap.mpr ⟨name, hname, hidentifier⟩⟩

/-- The document lists what the check asks for. -/
def Document.Lists (document : Document) (check : GrantCheck) : Prop :=
  ∀ role ∈ check.roles, ∀ command ∈ check.commands, ∃ spec ∈ document.permissions,
    role ∈ spec.groups ∧ ∃ request ∈ spec.requests, request.permission = check.permission ∧
      check.Covers request.cacheKey ∧ request.cacheKey.command = command

/-- The roles are of the tenant's own. -/
def GrantCheck.Plain (check : GrantCheck) : Prop :=
  ∀ role ∈ check.roles, role ≠ superAdminRole ∧ ':' ∉ role

section Missing

variable {ρ : Type} {rows : Rows ρ} {check : GrantCheck} {tenantId : Text}

theorem mem_presentGrants {identifiers : List Text} {identifier : Text}
    (hidentifier : identifier ∈ identifiers) {key : TargetKey} (hcovers : check.Covers key)
    (h : Permits rows identifier check.permission key) :
    (identifier, key.command) ∈ presentGrants rows identifiers check := by
  obtain ⟨group, hgroup, principal, hprincipal, target, htarget, hnamed, hattached, hkey,
    hassignment⟩ := h
  refine List.mem_flatMap.mpr ⟨_, hassignment, List.mem_flatMap.mpr ⟨principal,
    List.mem_filter.mpr ⟨hprincipal, decide_eq_true rfl⟩, List.mem_flatMap.mpr ⟨group,
      List.mem_filter.mpr ⟨hgroup, decide_eq_true hattached⟩, List.mem_filterMap.mpr ⟨target,
        List.mem_filter.mpr ⟨htarget, decide_eq_true rfl⟩, ?_⟩⟩⟩⟩
  rw [hnamed, hkey, if_pos ⟨hidentifier, rfl, rfl, hcovers⟩]

/-- Where each role has each command, nothing is missing. -/
theorem missingPermissionGrants_eq_nil (htenant : tenantId.strip ≠ [])
    (h : ∀ role ∈ check.roles, ∀ command ∈ check.commands, ∃ key, check.Covers key ∧
      key.command = command ∧
        Permits rows (tenantIdentifier tenantId.strip role) check.permission key) :
    missingPermissionGrants rows tenantId check = [] := by
  unfold missingPermissionGrants
  rw [if_neg htenant]
  dsimp only
  rw [List.filter_eq_nil_iff.mpr, List.map_nil, List.insertionSort_nil]
  intro grant hgrant hmissing
  rw [List.mem_dedup, List.mem_flatMap] at hgrant
  obtain ⟨identifier, hidentifier, hgrant⟩ := hgrant
  obtain ⟨command, hcommand, hgrant⟩ := List.mem_map.mp hgrant
  obtain ⟨role, hrole, hrole'⟩ := List.mem_map.mp hidentifier
  obtain ⟨key, hcovers, hkey, hpermits⟩ := h role hrole command hcommand
  refine of_decide_eq_true hmissing ?_
  rw [← hgrant, ← hkey]
  exact mem_presentGrants hidentifier hcovers (hrole' ▸ hpermits)

/-- The group of a role of the tenant is among those that its name stands for. -/
theorem mem_memberIdentifiers {role : Text} (htenant : tenantId ≠ [])
    (hrole : role ≠ superAdminRole ∧ ':' ∉ role) :
    tenantIdentifier tenantId role ∈ memberIdentifiers (some tenantId) role := by
  have htruthy : truthy (some tenantId) = some tenantId := truthy_eq_some.mpr ⟨rfl, htenant⟩
  have hqualified : qualified (some tenantId) role = tenantIdentifier tenantId role := by
    unfold qualified
    rw [htruthy]
    exact if_pos hrole
  have hcolon : ':' ∈ tenantIdentifier tenantId role :=
    List.mem_append_right _ List.mem_cons_self
  have hother : tenantIdentifier tenantId role ≠ everybody := by
    intro hsame
    rw [hsame] at hcolon
    exact absurd hcolon (by decide)
  unfold memberIdentifiers
  dsimp only
  rw [hqualified, if_neg fun hnot => hnot.1 hcolon, htruthy]
  dsimp only
  rw [if_neg hother]
  exact List.mem_cons_self

end Missing

section Ready

variable {ρ : Type} {core : Core ρ} (hlaw : core.Lawful) {rows : Rows ρ}
  (hrows : Constraints rows) {tenantId : Text} (hstrip : tenantId.strip = tenantId)
  (htenant : tenantId ≠ []) {document : Document}
  (hkeyed : ∀ identifier ∈ document.identifiers (some tenantId), KeyedFor rows.groups identifier)

theorem seedCurrent_finish (core : Core ρ) (htenant : tenantId ≠ []) (rows : Rows ρ)
    (hstrip : tenantId.strip = tenantId) :
    tenantPermissionSeedCurrent (finish core true (some tenantId) rows) tenantId = true := by
  have htruthy : truthy (some tenantId) = some tenantId := truthy_eq_some.mpr ⟨rfl, htenant⟩
  unfold tenantPermissionSeedCurrent finish
  rw [hstrip, htruthy]
  simp [htenant, Dict.get?_set]

include hlaw hrows hstrip htenant hkeyed

theorem missing_finish {check : GrantCheck} (hlists : document.Lists check)
    (hplain : check.Plain) :
    missingPermissionGrants (finish core true (some tenantId)
      ((plan (some tenantId) document).foldl (settle core Request.cacheKey) rows)) tenantId
        check = [] := by
  refine missingPermissionGrants_eq_nil (by rw [hstrip]; exact htenant)
    fun role hrole command hcommand => ?_
  obtain ⟨spec, hspec, hname, request, hrequest, hpermission, hcovers, hkey⟩ :=
    hlists role hrole command hcommand
  refine ⟨request.cacheKey, hcovers, hkey, ?_⟩
  rw [hstrip, ← hpermission]
  have hidentifier := mem_memberIdentifiers htenant (hplain role hrole)
  exact finish_permits hlaw hrows true hspec hname hidentifier
    (hkeyed _ (mem_identifiers hspec hname hidentifier)) hrequest

theorem requireLifecycleGrants_finish (hlists : document.Lists lifecycleCheck)
    (groupIdentifiers : List Text) :
    requireLifecycleGrants tenantId groupIdentifiers (finish core true (some tenantId)
        ((plan (some tenantId) document).foldl (settle core Request.cacheKey) rows)) =
      .ok (finish core true (some tenantId)
        ((plan (some tenantId) document).foldl (settle core Request.cacheKey) rows)) := by
  have hplain : lifecycleCheck.Plain := by
    unfold GrantCheck.Plain
    decide
  unfold requireLifecycleGrants
  split
  · rw [missing_finish hlaw hrows hstrip htenant hkeyed hlists hplain]
  · rfl

end Ready

end M8flow.Identity.Seeding
