import M8flow.Auth.Claims
import M8flow.Errors
import M8flow.Identity.Binding
import M8flow.Identity.LocalGroups

/-!
# Removing a member of a tenant

`remove_tenant_member` of `tenant_role_service.py`.  Whether a user belongs to a tenant is
read from the realm of the user's row, from its username, and from the groups that it is
assigned to; the removal takes away assignments only, and of those the ones to the groups of
roles and to the default group.

- `upsert_returned` is the row that the provisioning of the member returns.
- `consistent_of_run` are the constraints of the tables in every state.
- `removal_complete_iff` says when the user is out of the tenant afterwards.
- `lane_group_survives` is a removal that leaves the user in a lane of the tenant.
-/

namespace M8flow.Identity

open M8flow.Auth M8flow.Authorization M8flow.Lib

/-! ## The directory -/

/-- `User` of the directory. -/
structure DirectoryUser where
  subject : Text
  username : Option Text
  email : Option Text
  displayName : Option Text
  deriving Repr, DecidableEq

/-- `member_mapping_from_user`. -/
def memberMappingFromUser (user : DirectoryUser) : Member :=
  { id := some user.subject, username := user.username, email := user.email,
    firstName := some ((truthy user.displayName).getD []), lastName := none }

/-- What a call of the directory answers. -/
inductive Answer (α : Type) where
  | found (value : α)
  | notFound
  | unavailable
  deriving Repr, DecidableEq

/-- The directory, as far as a removal asks it: the id of an organization, a member of one,
and whether the removal of a member succeeds. -/
structure DirectoryAdmin where
  getTenant : (id tenantAlias : Option Text) → Answer (Option Text)
  getMember : (username organizationId : Text) → Answer DirectoryUser
  removeMember : (username organizationId : Text) → Bool

/-! ## The removal -/

/-- The tables of users, and of groups and assignments. -/
structure System where
  users : List UserModel
  store : Store

/-- A removal, with what it finds elsewhere; `sharedRealmService` is the configured issuer. -/
structure Removal where
  tenants : List TenantRow
  tenantId : Text
  username : Option Text
  directory : DirectoryAdmin
  settings : LocalSettings
  sharedRealmService : Option Text
  db : Database

/-- How a removal fails: by an error of its own, or one of the directory or the database. -/
inductive RemovalError where
  | api (error : ApiError)
  | raised
  deriving Repr, DecidableEq

def usernameRequired : ApiError := ApiError.of "invalid_member" "Username is required." 400

def tenantNotFound (tenantId : Text) : ApiError :=
  ApiError.of "tenant_not_found" ("Tenant with ID '" ++ String.ofList tenantId ++ "' not found.") 404

def organizationNotFound (tenantId : Text) (tenant : TenantRow) (problem : String) : ApiError :=
  ApiError.of "organization_not_found"
    ("Organization for tenant '" ++
      String.ofList ((truthy (some tenant.id.strip)).getD tenantId) ++ "'" ++
      (if tenant.slug = [] then "" else " (alias: " ++ String.ofList tenant.slug ++ ")") ++ problem)
    404

def tenantMemberNotFound (slug username : Text) : ApiError :=
  ApiError.of "tenant_member_not_found"
    ("User '" ++ String.ofList username ++ "' is not a member of organization '" ++
      String.ofList slug ++ "'.") 404

def localUserSyncFailed (username : Text) : ApiError :=
  ApiError.of "local_user_sync_failed"
    ("User '" ++ String.ofList username ++ "' was updated in Keycloak, but the local M8Flow user row " ++
      "could not be created or refreshed.") 409

/-- `_organization_for_tenant`: the tenant's row, and the id of its organization. -/
def organizationForTenant (removal : Removal) : Except RemovalError (TenantRow × Text) :=
  match Table.lookup TenantRow.id removal.tenants removal.tenantId with
  | none => .error (.api (tenantNotFound removal.tenantId))
  | some tenant =>
      match removal.directory.getTenant (truthy (some tenant.id.strip))
          (truthy (some tenant.slug.strip)) with
      | .notFound =>
          .error (.api (organizationNotFound removal.tenantId tenant
            " could not be found in Keycloak."))
      | .unavailable => .error .raised
      | .found organizationId =>
          match nonblank organizationId with
          | none =>
              .error (.api (organizationNotFound removal.tenantId tenant
                " does not have a valid Keycloak id."))
          | some organizationId => .ok (tenant, organizationId)

/-- `_tenant_member_or_error`. -/
def tenantMemberOrError (removal : Removal) (organizationId slug username : Text) :
    Except RemovalError DirectoryUser :=
  match removal.directory.getMember username organizationId with
  | .found member => .ok member
  | .notFound => .error (.api (tenantMemberNotFound slug username))
  | .unavailable => .error .raised

/-- The checks of a removal: the username, the tenant's row, the organization's id, and the
member. -/
def removalChecks (removal : Removal) :
    Except RemovalError (Text × TenantRow × Text × DirectoryUser) := do
  let username := (removal.username.getD []).strip
  if username = [] then throw (.api usernameRequired)
  let (tenant, organizationId) ← organizationForTenant removal
  let member ← tenantMemberOrError removal organizationId tenant.slug username
  pure (username, tenant, organizationId, member)

/-- `upsert_local_shared_realm_member`, for the member. -/
def Removal.upsert (removal : Removal) (users : List UserModel) (member : DirectoryUser) :
    Outcome × List UserModel :=
  upsertLocalSharedRealmMember users removal.db (memberMappingFromUser member)
    removal.sharedRealmService

/-- `remove_tenant_member`. -/
def removeTenantMember (removal : Removal) (system : System) : Except RemovalError Text × System :=
  match removalChecks removal with
  | .error error => (.error error, system)
  | .ok (username, tenant, organizationId, member) =>
      let upserted := removal.upsert system.users member
      let provisioned : System := { system with users := upserted.2 }
      match upserted.1 with
      | .raised => (.error .raised, provisioned)
      | .returned none => (.error (.api (localUserSyncFailed username)), provisioned)
      | .returned (some localUser) =>
          if removal.directory.removeMember username organizationId then
            (.ok username,
              { provisioned with
                store := clearLocalTenantAssignments removal.settings localUser.id tenant.id
                  provisioned.store })
          else (.error .raised, provisioned)

/-! ## Steps -/

/-- What builds up the users, groups and assignments, and takes them away.  A
synchronization is for a user that has a row. -/
inductive Event where
  | provision (request : Request)
  | importYaml (groupIdentifiers : List Text)
  | syncGroups (userId : Nat) (groupIdentifiers : List Text)
  | syncLaneGroups (userId : Nat) (tenantId : Text) (laneGroupIdentifiers : List Text)
  | syncGroupsFromToken (userId : Nat) (selection : Selection)
  | syncRoles (userId : Nat) (settings : LocalSettings) (tenantId : Text) (roles : List Text)
  | removeMember (removal : Removal)

/-- `sync_groups_from_token`, before permissions are imported. -/
def syncGroupsFromToken (core : CoreGroups) (rules : LaneRules) (userId : Nat)
    (selection : Selection) (store : Store) : Store :=
  let active := select selection
  if active.groupIdentifiers = [] ∧ active.laneGroupIdentifiers = [] then store
  else
    (syncLaneGroups rules active.tenantId userId
      (syncGroups core userId store active.groupIdentifiers) active.laneGroupIdentifiers).1

/-- One step. -/
def System.step (core : CoreGroups) (rules : LaneRules) (system : System) (event : Event) :
    Option System :=
  let forUser := fun (userId : Nat) (store : Store) =>
    if userId ∈ system.users.map UserModel.id then some { system with store } else none
  match event with
  | .provision request => some { system with users := (request.run system.users).2 }
  | .importYaml groupIdentifiers =>
      some { system with store := ensureGroups system.store groupIdentifiers }
  | .syncGroups userId groupIdentifiers =>
      forUser userId (Identity.syncGroups core userId system.store groupIdentifiers)
  | .syncLaneGroups userId tenantId laneGroupIdentifiers =>
      forUser userId (Identity.syncLaneGroups rules tenantId userId system.store
        laneGroupIdentifiers).1
  | .syncGroupsFromToken userId selection =>
      forUser userId (Identity.syncGroupsFromToken core rules userId selection system.store)
  | .syncRoles userId settings tenantId roles =>
      forUser userId (syncLocalRoleAssignments settings userId tenantId roles system.store)
  | .removeMember removal => some (removeTenantMember removal system).2

/-- No users, groups or assignments. -/
def System.start (grants : Grants) : System := ⟨[], ⟨[], [], grants⟩⟩

/-- Any step may come at any time. -/
def anyEvent (_ : System) (_ : Event) : Prop := True

/-! ## The row of the member -/

section Provisioned

variable {users : List UserModel} {db : Database} {member : Member} {user : UserModel}

/-- A refreshed row has the shared realm's issuer, and its own id and username. -/
theorem refresh_returned {localUser : UserModel} {memberId service : Text}
    (h : (refreshLocalSharedRealmUser users db localUser member memberId service).1 =
      .returned (some user)) :
    user.service = service ∧ user.username = localUser.username ∧ user.id = localUser.id := by
  unfold refreshLocalSharedRealmUser at h
  dsimp only at h
  split at h
  · rename_i hsame
    cases h
    refine ⟨?_, rfl, rfl⟩
    rw [← hsame]
  · split at h
    · cases h
      exact ⟨rfl, rfl, rfl⟩
    · cases h

/-- Where no row is found, by the identity or by the username, a row is inserted. -/
theorem ensureUser_returned {username service serviceId : Text} {email : Option Text}
    (hnone : findUserByServiceIdentity users service serviceId = none)
    (hnew : findUsersByUsername users username = [])
    (h : (ensureUser users db username service serviceId email).1 = .returned (some user)) :
    user.service = service ∧ user.username = username ∧ user.id ∉ users.map UserModel.id := by
  unfold ensureUser at h
  rw [hnone] at h
  dsimp only at h
  have htimer : (if username = timerSystemUsername then
      users.find? fun user => user.username = timerSystemUsername else none) = none := by
    split
    · rename_i hname
      rw [List.find?_eq_none]
      intro row hmem htimer
      have hin : row ∈ findUsersByUsername users username := by
        refine List.mem_filter.mpr ⟨hmem, ?_⟩
        rw [hname]
        exact htimer
      rw [hnew] at hin
      cases hin
    · rfl
  rw [htimer] at h
  dsimp only at h
  split at h
  · rename_i hinsert
    cases h
    exact ⟨rfl, rfl, hinsert.2⟩
  · cases h

theorem preferredMatch_none {matching : List UserModel} {service : Text}
    (h : preferredMatch matching service = none) : matching = [] :=
  List.argmax_eq_none.mp h

/-- The row that the provisioning of a member returns: it has the issuer of the shared realm
and the member's username, and it is the row that is found for the member, or a new one. -/
theorem upsert_returned {sharedRealmService : Option Text}
    (h : (upsertLocalSharedRealmMember users db member sharedRealmService).1 =
      .returned (some user)) :
    ∃ memberId username service, strippedField member.id = some memberId ∧
      strippedField member.username = some username ∧
      truthy sharedRealmService = some service ∧
      user.service = service ∧ user.username = username ∧
      ((∃ row, rebound users (.upsertLocalSharedRealmMember member sharedRealmService) service
            memberId = some row ∧ row.id = user.id) ∨
        rebound users (.upsertLocalSharedRealmMember member sharedRealmService) service
            memberId = none ∧ user.id ∉ users.map UserModel.id) := by
  unfold upsertLocalSharedRealmMember at h
  split at h
  · rename_i memberId username service hid husername hservice
    refine ⟨memberId, username, service, hid, husername, hservice, ?_⟩
    have hrebound : rebound users (.upsertLocalSharedRealmMember member sharedRealmService)
        service memberId = (findUserByServiceIdentity users service memberId).or
          (preferredMatch (findUsersByUsername users username) service) := by
      simp only [rebound, Call.memberUsername, husername]
    rw [hrebound]
    unfold upsertMember at h
    cases hfound : findUserByServiceIdentity users service memberId with
    | some exactUser =>
        rw [hfound] at h
        dsimp only at h
        rw [Option.some_or]
        split at h
        · split at h
          · obtain ⟨hservice', hname, hsame⟩ := refresh_returned h
            exact ⟨hservice', hname, Or.inl ⟨exactUser, rfl, hsame.symm⟩⟩
          · cases h
        · rename_i hname
          obtain ⟨hservice', hname', hsame⟩ := refresh_returned h
          exact ⟨hservice', hname'.trans (not_not.mp hname), Or.inl ⟨exactUser, rfl, hsame.symm⟩⟩
    | none =>
        rw [hfound] at h
        dsimp only at h
        rw [Option.none_or]
        cases hmatch : preferredMatch (findUsersByUsername users username) service with
        | some existingUser =>
            rw [hmatch] at h
            dsimp only at h
            obtain ⟨hservice', hname, hsame⟩ := refresh_returned h
            have hrow := List.mem_filter.mp (mem_of_preferredMatch hmatch)
            refine ⟨hservice', ?_, Or.inl ⟨existingUser, rfl, hsame.symm⟩⟩
            rw [hname]
            exact of_decide_eq_true hrow.2
        | none =>
            rw [hmatch] at h
            dsimp only at h
            cases hcreated : (ensureUser users db username service memberId
                (some (member.email.getD []))).1 with
            | returned created =>
                rw [hcreated] at h
                cases h
                obtain ⟨hservice', hname, hnew⟩ :=
                  ensureUser_returned hfound (preferredMatch_none hmatch) hcreated
                exact ⟨hservice', hname, Or.inr ⟨rfl, hnew⟩⟩
            | raised =>
                rw [hcreated, ensureUser_raised hcreated, hmatch] at h
                cases h
  · cases h

end Provisioned

/-! ## Constraints -/

/-- A step assigns at most this user to groups. -/
def AssignsOnly (userId : Nat) (store after : Store) : Prop :=
  ∀ membership ∈ after.memberships,
    membership ∈ store.memberships ∨ membership.userId = userId

section AssignsOnly

variable {store : Store} {userId : Nat}

theorem assignsOnly_refl (userId : Nat) (store : Store) : AssignsOnly userId store store :=
  fun _ hmem => Or.inl hmem

theorem AssignsOnly.trans {middle after : Store} (h : AssignsOnly userId store middle)
    (h' : AssignsOnly userId middle after) : AssignsOnly userId store after := by
  intro membership hmem
  rcases h' membership hmem with hmiddle | huser
  · exact h membership hmiddle
  · exact Or.inr huser

theorem assignsOnly_ensureGroup (userId : Nat) (store : Store) (identifier : Text) :
    AssignsOnly userId store (ensureGroup store identifier).1 := by
  rcases ensureGroup_cases store identifier with ⟨group, -, hensured⟩ | ⟨-, hensured⟩
  · rw [hensured]
    exact assignsOnly_refl userId store
  · rw [hensured]
    exact assignsOnly_refl userId store

theorem assignsOnly_assign (userId : Nat) (store : Store) (groupId : Nat) :
    AssignsOnly userId store (assign store userId groupId) := by
  intro membership hmem
  unfold assign ensureUserGroupAssignment at hmem
  dsimp only at hmem
  split at hmem
  · exact Or.inl hmem
  · rcases List.mem_append.mp hmem with hold | hnew
    · exact Or.inl hold
    · rw [List.mem_singleton.mp hnew]
      exact Or.inr rfl

theorem assignsOnly_delete (userId : Nat) (store : Store) (other groupId : Nat) :
    AssignsOnly userId store (deleteLocalAssignment store other groupId) :=
  fun _ hmem => Or.inl (List.mem_of_mem_erase hmem)

theorem assignsOnly_foldl {step : Store → Text → Store}
    (hstep : ∀ store identifier, AssignsOnly userId store (step store identifier))
    (identifiers : List Text) (store : Store) :
    AssignsOnly userId store (identifiers.foldl step store) := by
  induction identifiers generalizing store with
  | nil => exact assignsOnly_refl userId store
  | cons identifier identifiers ih => exact (hstep store identifier).trans (ih _)

theorem assignsOnly_syncGroups (core : CoreGroups) (userId : Nat) (store : Store)
    (groupIdentifiers : List Text) :
    AssignsOnly userId store (syncGroups core userId store groupIdentifiers) := by
  refine assignsOnly_foldl (fun store identifier => ?_) _ store
  have hensured := assignsOnly_ensureGroup userId store identifier
  unfold syncGroup
  dsimp only
  split
  · exact hensured
  · refine hensured.trans ?_
    unfold CoreGroups.addUserToGroup
    split
    · exact assignsOnly_assign userId _ _
    · exact assignsOnly_assign userId (insertGroup _ _).1 _

theorem assignsOnly_syncLaneGroups (rules : LaneRules) (tenantId : Text) (userId : Nat)
    (store : Store) (laneGroupIdentifiers : List Text) :
    AssignsOnly userId store
      (syncLaneGroups rules tenantId userId store laneGroupIdentifiers).1 := by
  have hstep : ∀ store identifier,
      AssignsOnly userId store (syncLaneGroup rules tenantId userId store identifier).1 := by
    intro store identifier
    unfold syncLaneGroup
    dsimp only
    split
    · exact assignsOnly_refl userId store
    · split
      · exact assignsOnly_refl userId store
      · exact assignsOnly_assign userId store _
  unfold syncLaneGroups
  induction laneGroupIdentifiers.eraseDups generalizing store with
  | nil => exact assignsOnly_refl userId store
  | cons identifier identifiers ih => exact (hstep store identifier).trans (ih _)

theorem assignsOnly_syncLocalRoleAssignments (settings : LocalSettings) (userId : Nat)
    (tenantId : Text) (roles : List Text) (store : Store) :
    AssignsOnly userId store (syncLocalRoleAssignments settings userId tenantId roles store) := by
  refine assignsOnly_foldl (fun store roleName => ?_) _ store
  have hensured := assignsOnly_ensureGroup userId store (settings.tenantRoleGroup tenantId roleName)
  unfold syncRole
  dsimp only
  split
  · exact hensured.trans (assignsOnly_assign userId _ _)
  · exact hensured.trans (assignsOnly_delete userId _ userId _)

end AssignsOnly

/-- The ids of the users are distinct, the constraints of the store hold, and users that are
assigned have a row. -/
structure System.Consistent (system : System) : Prop where
  users : IdsDistinct system.users
  store : Identity.Consistent system.store
  assigned : ∀ membership ∈ system.store.memberships,
    membership.userId ∈ system.users.map UserModel.id

section Runs

variable {system : System} {core : CoreGroups} {rules : LaneRules}

theorem consistent_start (grants : Grants) : (System.start grants).Consistent where
  users := List.nodup_nil
  store := consistent_empty grants
  assigned := by
    intro membership hmem
    cases hmem

/-- A call on the users keeps the rows of the assigned users. -/
theorem consistent_provision (h : system.Consistent) (request : Request) :
    System.Consistent { system with users := (request.run system.users).2 } where
  users := idsDistinct_effect h.users (step_effect h.users request)
  store := h.store
  assigned := by
    intro membership hmem
    have hold := h.assigned membership hmem
    rcases effect_ids (step_effect h.users request) with hsame | ⟨id, -, hadded⟩
    · rw [hsame]
      exact hold
    · rw [hadded]
      exact List.mem_append_left _ hold

/-- A synchronization of a user who has a row keeps the constraints. -/
theorem consistent_forUser (h : system.Consistent) {userId : Nat} {store : Store}
    (huser : userId ∈ system.users.map UserModel.id) (hstore : Identity.Consistent store)
    (hassigns : AssignsOnly userId system.store store) :
    System.Consistent { system with store } where
  users := h.users
  store := hstore
  assigned := by
    intro membership hmem
    rcases hassigns membership hmem with hold | hsame
    · exact h.assigned membership hold
    · rw [hsame]
      exact huser

theorem consistent_syncGroupsFromToken (core : CoreGroups) (rules : LaneRules) {store : Store}
    (h : Identity.Consistent store) (userId : Nat) (selection : Selection) :
    Identity.Consistent (syncGroupsFromToken core rules userId selection store) ∧
      AssignsOnly userId store (syncGroupsFromToken core rules userId selection store) := by
  unfold syncGroupsFromToken
  dsimp only
  split
  · exact ⟨h, assignsOnly_refl userId store⟩
  · refine ⟨?_, ?_⟩
    · exact consistent_syncLaneGroups rules (consistent_syncGroups core h userId _) _ userId _
    · exact (assignsOnly_syncGroups core userId store _).trans
        (assignsOnly_syncLaneGroups rules _ userId _ _)

/-- The row that is provisioned is among the users afterwards. -/
theorem consistent_removeTenantMember (h : system.Consistent) (removal : Removal) :
    (removeTenantMember removal system).2.Consistent := by
  unfold removeTenantMember
  cases hchecks : removalChecks removal with
  | error error => exact h
  | ok checked =>
      obtain ⟨username, tenant, organizationId, member⟩ := checked
      dsimp only
      have hprovisioned : System.Consistent
          { system with users := (removal.upsert system.users member).2 } :=
        consistent_provision h
          ⟨.upsertLocalSharedRealmMember (memberMappingFromUser member) removal.sharedRealmService,
            removal.db⟩
      cases hupserted : (removal.upsert system.users member).1 with
      | raised => exact hprovisioned
      | returned returned =>
          cases returned with
          | none => exact hprovisioned
          | some localUser =>
              dsimp only
              split
              · refine ⟨hprovisioned.users, ?_, ?_⟩
                · exact consistent_clearLocalTenantAssignments removal.settings h.store _ _
                · intro membership hmem
                  have hold : membership ∈ system.store.memberships := by
                    have heffect := mem_foldl_clearGroup h.store localUser.id
                      (nodup_clearedIdentifiers removal.settings tenant.id) membership
                    exact (heffect.mp hmem).1
                  exact hprovisioned.assigned membership hold
              · exact hprovisioned

/-- What each step keeps. -/
theorem consistent_step (h : system.Consistent) {event : Event} {after : System}
    (hstep : system.step core rules event = some after) : after.Consistent := by
  have hforUser : ∀ (userId : Nat) (store : Store), Identity.Consistent store →
      AssignsOnly userId system.store store →
      (if userId ∈ system.users.map UserModel.id then some { system with store } else none) =
        some after → after.Consistent := by
    intro userId store hstore hassigns hsome
    split at hsome
    · rename_i huser
      cases hsome
      exact consistent_forUser h huser hstore hassigns
    · cases hsome
  cases event with
  | provision request =>
      cases hstep
      exact consistent_provision h request
  | importYaml groupIdentifiers =>
      cases hstep
      refine ⟨h.users, consistent_ensureGroups h.store groupIdentifiers, ?_⟩
      intro membership hmem
      -- an import assigns nobody, whichever user is asked about
      have hkept : ∀ userId, AssignsOnly userId system.store
          (ensureGroups system.store groupIdentifiers) := fun userId =>
        assignsOnly_foldl (fun store identifier => assignsOnly_ensureGroup userId store identifier)
          groupIdentifiers system.store
      rcases hkept (membership.userId + 1) membership hmem with hold | hsame
      · exact h.assigned membership hold
      · omega
  | syncGroups userId groupIdentifiers =>
      exact hforUser userId _ (consistent_syncGroups core h.store userId groupIdentifiers)
        (assignsOnly_syncGroups core userId system.store groupIdentifiers) hstep
  | syncLaneGroups userId tenantId laneGroupIdentifiers =>
      exact hforUser userId _
        (consistent_syncLaneGroups rules h.store tenantId userId laneGroupIdentifiers)
        (assignsOnly_syncLaneGroups rules tenantId userId system.store laneGroupIdentifiers) hstep
  | syncGroupsFromToken userId selection =>
      obtain ⟨hconsistent, hassigns⟩ :=
        consistent_syncGroupsFromToken core rules h.store userId selection
      exact hforUser userId _ hconsistent hassigns hstep
  | syncRoles userId settings tenantId roles =>
      exact hforUser userId _
        (consistent_syncLocalRoleAssignments settings h.store userId tenantId roles)
        (assignsOnly_syncLocalRoleAssignments settings userId tenantId roles system.store) hstep
  | removeMember removal =>
      cases hstep
      exact consistent_removeTenantMember h removal

/-- Every state of a run meets the constraints. -/
theorem consistent_of_run {grants : Grants} {events : List Event}
    (h : Run (System.step core rules) anyEvent (System.start grants) events system) :
    system.Consistent :=
  h.invariant (consistent_start grants) fun _ _ _ hconsistent _ hstep =>
    consistent_step hconsistent hstep

end Runs

/-! ## Whether the removal is complete -/

/-- A group of a tenant: its identifier starts with an identifier of the tenant. -/
def OfTenant (tenants : List TenantRow) (current : Option Text) (tenantId : Text)
    (group : GroupModel) : Prop :=
  (group.identifier.partition ':').2.1 ∧
    (group.identifier.partition ':').1 ∈ currentTenantIdentifiers tenants current (some tenantId)

instance (tenants : List TenantRow) (current : Option Text) (tenantId : Text)
    (group : GroupModel) : Decidable (OfTenant tenants current tenantId group) := by
  unfold OfTenant
  infer_instance

/-- The user's row, with the groups that it is assigned to. -/
def System.withGroups (system : System) (user : UserModel) : UserModel :=
  { user with groups := (system.store.groupsOf user.id).map GroupModel.identifier }

/-- The user is out of the tenant, and in the groups of other tenants as before. -/
structure Complete (removal : Removal) (tenant : TenantRow) (user : UserModel)
    (before after : System) : Prop where
  out : userBelongsToCurrentTenant removal.tenants removal.settings.current
    (after.withGroups user) (some tenant.id) [] = false
  none_left : ∀ group ∈ after.store.groupsOf user.id,
    ¬ OfTenant removal.tenants removal.settings.current tenant.id group
  others : ∀ other ∈ removal.tenants, other.id ≠ tenant.id → ∀ group,
    OfTenant removal.tenants removal.settings.current other.id group →
      (group ∈ after.store.groupsOf user.id ↔ group ∈ before.store.groupsOf user.id)

/-- The groups of the row that is found for the member, before the removal. -/
def Removal.groupsBefore (removal : Removal) (member : DirectoryUser) (before : System) :
    List GroupModel :=
  let call := Call.upsertLocalSharedRealmMember (memberMappingFromUser member)
    removal.sharedRealmService
  match call.identity with
  | none => []
  | some (service, memberId) =>
      match rebound before.users call service memberId with
      | none => []
      | some row => before.store.groupsOf row.id

/-- What makes a removal complete: neither the realm of the configured issuer nor the suffix
of the member's username names the tenant, and the user's groups that are cleared are exactly
the tenant's, and no other tenant's. -/
structure Clears (removal : Removal) (tenant : TenantRow) (member : DirectoryUser)
    (before : System) : Prop where
  named : currentTenantIdentifiers removal.tenants removal.settings.current (some tenant.id) ≠ []
  realm : realmFromService removal.sharedRealmService ∉
    currentTenantIdentifiers removal.tenants removal.settings.current (some tenant.id)
  suffix : ∀ username ∈ strippedField member.username, '@' ∈ username →
    (username.rpartition '@').2.2 ∉
      currentTenantIdentifiers removal.tenants removal.settings.current (some tenant.id)
  cleared : ∀ group ∈ removal.groupsBefore member before,
    OfTenant removal.tenants removal.settings.current tenant.id group →
      removal.settings.Cleared tenant.id before.store.groups group
  others : ∀ group ∈ removal.groupsBefore member before,
    removal.settings.Cleared tenant.id before.store.groups group →
      ∀ other ∈ removal.tenants, other.id ≠ tenant.id →
        ¬ OfTenant removal.tenants removal.settings.current other.id group

section Complete

variable {removal : Removal} {tenant : TenantRow} {organizationId username : Text}
  {member : DirectoryUser} {user : UserModel} {before after : System}

/-- What a removal that succeeds does. -/
theorem removeTenantMember_ok (h : removeTenantMember removal before = (.ok username, after)) :
    ∃ tenant organizationId member user,
      removalChecks removal = .ok (username, tenant, organizationId, member) ∧
      (removal.upsert before.users member).1 = .returned (some user) ∧
      after.store =
        clearLocalTenantAssignments removal.settings user.id tenant.id before.store := by
  unfold removeTenantMember at h
  cases hchecks : removalChecks removal with
  | error error =>
      rw [hchecks] at h
      cases h
  | ok checked =>
      obtain ⟨name, tenant, organizationId, member⟩ := checked
      rw [hchecks] at h
      dsimp only at h
      cases hupserted : (removal.upsert before.users member).1 with
      | raised =>
          rw [hupserted] at h
          cases h
      | returned returned =>
          rw [hupserted] at h
          cases returned with
          | none => cases h
          | some user =>
              dsimp only at h
              split at h
              · cases h
                exact ⟨tenant, organizationId, member, user, rfl, hupserted, rfl⟩
              · cases h

/-- The groups of the provisioned row are those of the row that is found for the member. -/
theorem groupsOf_upsert (hconsistent : before.Consistent)
    (h : (removal.upsert before.users member).1 = .returned (some user)) (group : GroupModel) :
    group ∈ before.store.groupsOf user.id ↔ group ∈ removal.groupsBefore member before := by
  obtain ⟨memberId, name, service, hid, hname, hservice, -, -, hrow⟩ := upsert_returned h
  have hidentity : Call.identity (.upsertLocalSharedRealmMember (memberMappingFromUser member)
      removal.sharedRealmService) = some (service, memberId) := by
    simp only [Call.identity, hid, hname, hservice]
  unfold Removal.groupsBefore
  dsimp only
  rw [hidentity]
  dsimp only
  rcases hrow with ⟨row, hrow, hsame⟩ | ⟨hnone, hnew⟩
  · rw [hrow, ← hsame]
  · rw [hnone]
    constructor
    · -- a new row's id is not assigned
      intro hmem
      exact absurd (hconsistent.assigned _ (mem_groupsOf.mp hmem).1) hnew
    · intro hmem
      cases hmem

/-- Whether a user belongs to a tenant that has identifiers. -/
theorem belongsTo_eq_false {user : UserModel} {identifiers : List Text} :
    belongsTo user identifiers = false ↔
      identifiers ≠ [] ∧ realmFromService (some user.service) ∉ identifiers ∧
        ('@' ∈ user.username → (user.username.rpartition '@').2.2 ∉ identifiers) ∧
        ∀ identifier ∈ user.groups, (identifier.partition ':').2.1 →
          (identifier.partition ':').1 ∉ identifiers := by
  unfold belongsTo
  rw [Bool.or_eq_false_iff, Bool.or_eq_false_iff, Bool.or_eq_false_iff, Bool.and_eq_false_imp,
    List.any_eq_false, decide_eq_false_iff_not, decide_eq_false_iff_not, and_assoc, and_assoc]
  refine and_congr_right fun _ => and_congr_right fun _ => and_congr ?_ ?_
  · rw [List.contains_iff_mem, decide_eq_false_iff_not]
  · refine forall₂_congr fun identifier _ => ?_
    rw [Bool.and_eq_true, not_and, decide_eq_true_eq]

theorem userBelongs_withGroups (system : System) (user : UserModel) (tenants : List TenantRow)
    (current : Option Text) (tenantId : Text) :
    userBelongsToCurrentTenant tenants current (system.withGroups user) (some tenantId) [] =
        false ↔
      currentTenantIdentifiers tenants current (some tenantId) ≠ [] ∧
        realmFromService (some user.service) ∉
          currentTenantIdentifiers tenants current (some tenantId) ∧
        ('@' ∈ user.username → (user.username.rpartition '@').2.2 ∉
          currentTenantIdentifiers tenants current (some tenantId)) ∧
        ∀ group ∈ system.store.groupsOf user.id, ¬ OfTenant tenants current tenantId group := by
  unfold userBelongsToCurrentTenant
  rw [if_pos rfl, belongsTo_eq_false]
  refine and_congr_right fun _ => and_congr_right fun _ => and_congr_right fun _ => ?_
  unfold System.withGroups OfTenant
  dsimp only
  rw [List.forall_mem_map]
  refine forall₂_congr fun group _ => ?_
  rw [not_and]

/-- A removal that succeeds is complete exactly where the tenant is not named by the realm or
the username, and the groups it clears are the tenant's. -/
theorem removal_complete_iff {core : CoreGroups} {rules : LaneRules} {grants : Grants}
    {events : List Event}
    (hrun : Run (System.step core rules) anyEvent (System.start grants) events before)
    (hremoved : removeTenantMember removal before = (.ok username, after)) :
    ∃ tenant organizationId member user,
      removalChecks removal = .ok (username, tenant, organizationId, member) ∧
      (removal.upsert before.users member).1 = .returned (some user) ∧
      (Complete removal tenant user before after ↔ Clears removal tenant member before) := by
  have hconsistent := consistent_of_run hrun
  obtain ⟨tenant, organizationId, member, user, hchecks, hupserted, hafter⟩ :=
    removeTenantMember_ok hremoved
  refine ⟨tenant, organizationId, member, user, hchecks, hupserted, ?_⟩
  obtain ⟨memberId, name, service, -, hname, hservice, huserService, huserName, -⟩ :=
    upsert_returned hupserted
  have hissuer : removal.sharedRealmService = some service := (truthy_eq_some.mp hservice).1
  -- which groups are left
  have hleft : ∀ group, group ∈ after.store.groupsOf user.id ↔
      group ∈ removal.groupsBefore member before ∧
        ¬ removal.settings.Cleared tenant.id before.store.groups group := by
    intro group
    rw [hafter, clear_effect removal.settings hconsistent.store,
      groupsOf_upsert hconsistent hupserted]
    refine and_congr_right fun _ => not_congr ?_
    exact and_iff_right rfl
  have hbelongs := userBelongs_withGroups after user removal.tenants removal.settings.current
    tenant.id
  rw [huserService, huserName, ← hissuer] at hbelongs
  constructor
  · intro hcomplete
    obtain ⟨hnamed, hrealm, hsuffix, hnone⟩ := hbelongs.mp hcomplete.out
    refine ⟨hnamed, hrealm, ?_, ?_, ?_⟩
    · intro username' hgiven hat
      rw [show member.username = (memberMappingFromUser member).username from rfl, hname] at hgiven
      rw [Option.some.inj hgiven] at hsuffix
      exact hsuffix hat
    · intro group hmem hof
      by_contra hnot
      exact hnone group ((hleft group).mpr ⟨hmem, hnot⟩) hof
    · intro group hmem hcleared other hother hne hof
      have hkept := (hcomplete.others other hother hne group hof).mpr
        ((groupsOf_upsert hconsistent hupserted group).mpr hmem)
      exact ((hleft group).mp hkept).2 hcleared
  · intro hclears
    have hnone : ∀ group ∈ after.store.groupsOf user.id,
        ¬ OfTenant removal.tenants removal.settings.current tenant.id group := by
      intro group hmem hof
      obtain ⟨hbefore, hnot⟩ := (hleft group).mp hmem
      exact hnot (hclears.cleared group hbefore hof)
    refine ⟨hbelongs.mpr ⟨hclears.named, hclears.realm, ?_, hnone⟩, hnone, ?_⟩
    · exact fun hat => hclears.suffix name hname hat
    · intro other hother hne group hof
      rw [hleft, groupsOf_upsert hconsistent hupserted]
      constructor
      · exact fun hmem => hmem.1
      · exact fun hmem => ⟨hmem, fun hcleared =>
          hclears.others group hmem hcleared other hother hne hof⟩

end Complete

/-! ## A lane group -/

/-- The core finds a group by its identifier. -/
def coreGroups : CoreGroups where
  resolve := fun groups identifier => Table.lookup GroupModel.identifier groups identifier
  resolve_spec := by
    intro groups identifier group hfound
    exact ⟨Table.mem_of_lookup hfound, Table.key_of_lookup hfound⟩

def laneRules : LaneRules := ⟨Casing.ascii, fun _ _ => 100⟩

/-- A member of the shared realm logs in. -/
def annLogin : Request where
  call := .ensureUser "ann".toList "http://h/realms/m8flow".toList "kc-1".toList none
  db := ⟨5, 1, true, true, true, id⟩

def annRow : UserModel :=
  { id := 1, username := "ann".toList, service := "http://h/realms/m8flow".toList,
    serviceId := "kc-1".toList, email := none, displayName := some "ann".toList,
    createdAt := some 5, updatedAt := some 5, groups := [] }

/-- The row after it is refreshed for the member. -/
def annRefreshed : UserModel := { annRow with email := some [] }

def acme : TenantRow := ⟨"t1".toList, "acme".toList⟩

def annMember : DirectoryUser := ⟨"kc-1".toList, some "ann".toList, none, none⟩

/-- The removal of the member from the first of two tenants. -/
def annRemoved : Removal where
  tenants := [acme, ⟨"t2".toList, "globex".toList⟩]
  tenantId := "t1".toList
  username := some "ann".toList
  directory :=
    { getTenant := fun _ _ => .found (some "org-1".toList)
      getMember := fun _ _ => .found annMember
      removeMember := fun _ _ => true }
  settings := ⟨none, none⟩
  sharedRealmService := some "http://h/realms/m8flow".toList
  db := ⟨6, 2, true, true, true, id⟩

/-- The member has a role in both tenants. -/
def roleEvents : List Event :=
  [.provision annLogin, .syncGroups 1 ["t1:editor".toList, "t2:viewer".toList]]

def roleGroups : List GroupModel :=
  [⟨0, "t1:editor".toList, "t1:editor".toList, some "authorization:t1:editor".toList⟩,
    ⟨1, "t2:viewer".toList, "t2:viewer".toList, some "authorization:t2:viewer".toList⟩]

def roleState : System :=
  { users := [annRow],
    store := { groups := roleGroups, memberships := [⟨1, 0⟩, ⟨1, 1⟩], grants := ⟨[], []⟩ } }

/-- And is in a group of the directory, which is a lane of the first tenant. -/
def laneState : System :=
  { users := [annRow],
    store :=
      { groups := roleGroups ++
          [⟨100, "t1:Finance".toList, "t1:Finance".toList, some "authorization:lane:100".toList⟩],
        memberships := [⟨1, 0⟩, ⟨1, 1⟩, ⟨1, 100⟩], grants := ⟨[], []⟩ } }

theorem run_roleEvents : Run (System.step coreGroups laneRules) anyEvent
    (System.start ⟨[], []⟩) roleEvents roleState :=
  Run.cons trivial rfl (Run.cons trivial rfl (Run.nil _))

theorem run_laneState : Run (System.step coreGroups laneRules) anyEvent
    (System.start ⟨[], []⟩) (roleEvents ++ [.syncLaneGroups 1 "t1".toList ["/Finance".toList]])
    laneState :=
  run_roleEvents.append (Run.cons trivial rfl (Run.nil _))

theorem annRemoved_checks : removalChecks annRemoved =
    .ok ("ann".toList, acme, "org-1".toList, annMember) := rfl

/-- With roles only, the removal is complete. -/
theorem removal_complete_roles :
    ∃ after, removeTenantMember annRemoved roleState = (.ok "ann".toList, after) ∧
      Complete annRemoved acme annRefreshed roleState after := by
  refine ⟨_, rfl, ?_⟩
  obtain ⟨tenant, organizationId, member, user, hchecks, hupserted, hiff⟩ :=
    removal_complete_iff run_roleEvents
      (show removeTenantMember annRemoved roleState = (.ok "ann".toList, _) from rfl)
  rw [annRemoved_checks] at hchecks
  cases hchecks
  cases hupserted
  refine hiff.mpr ⟨by decide, by decide, ?_, by decide, by decide⟩
  intro username hname hat
  cases hname
  exact absurd hat (by decide)

/-- A member who is in a lane of the tenant still belongs to it after the removal. -/
theorem lane_group_survives :
    Run (System.step coreGroups laneRules) anyEvent (System.start ⟨[], []⟩)
      (roleEvents ++ [.syncLaneGroups 1 "t1".toList ["/Finance".toList]]) laneState ∧
    ∃ after, removeTenantMember annRemoved laneState = (.ok "ann".toList, after) ∧
      (annRemoved.upsert laneState.users annMember).1 = .returned (some annRefreshed) ∧
      ¬ Complete annRemoved acme annRefreshed laneState after := by
  refine ⟨run_laneState, _, rfl, rfl, ?_⟩
  intro hcomplete
  have hout := hcomplete.out
  revert hout
  decide

end M8flow.Identity
