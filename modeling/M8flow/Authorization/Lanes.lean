import M8flow.Authorization.Uri
import M8flow.Identity.LaneGroups

/-!
# What lane groups do to authorization

A lane group has no principal, so nothing is granted to it.  But authorization
also reads the identifiers of a user's groups, and a lane group's identifier is a
name from the directory.  `Noticed` says which identifiers are read.

- `allowWithGroups_congr`: the answer depends on the groups that have a principal
  or a noticed identifier, and on no others.
- `allowUri_syncLaneGroups`: where no identifier that a name can get, or take
  over, is noticed, synchronizing the names changes no answer.
- `lane_groups_grant_nothing_iff`: it is exactly then that none changes.
-/

namespace M8flow.Authorization

open M8flow.Auth M8flow.Identity M8flow.Lib

/-- The roles of the identifier fallback. -/
def fallbackRoles : List String := ["tenant-admin", "editor", "reviewer", "user"]

/-- Authorization reads the identifier: as the platform's own group, by the identifier
fallback, or by the guard of the process models. -/
def Noticed (tenantIds : List Text) (identifier : Text) : Prop :=
  identifier = superAdminRole ∨
    (countsInTenant tenantIds identifier ∧ ∃ role ∈ fallbackRoles, endsInRole role identifier) ∨
    (readByGuard tenantIds identifier ∧
      (identifier.rpartition ':').2.2 ∈ ["viewer".toList, "submitter".toList])

/-- A group that can matter to an answer. -/
def Relevant (tenantIds : List Text) (grants : Grants) (group : GroupModel) : Prop :=
  Noticed tenantIds group.identifier ∨
    ∃ principal ∈ grants.principals, principal.groupId = some group.id

/-! ## What an answer depends on -/

section Congr

variable {context : Context} {grants : Grants} {groups groups' : List GroupModel}

/-- A test that only relevant groups meet does not tell the lists apart. -/
theorem any_congr_of_relevant {p : GroupModel → Bool}
    (h : ∀ group, Relevant context.tenantIds grants group → (group ∈ groups ↔ group ∈ groups'))
    (hp : ∀ group, p group → Relevant context.tenantIds grants group) :
    groups.any p = groups'.any p := by
  rw [Bool.eq_iff_iff, List.any_eq_true, List.any_eq_true]
  constructor
  · intro hany
    obtain ⟨group, hmem, hmeets⟩ := hany
    exact ⟨group, (h group (hp group hmeets)).mp hmem, hmeets⟩
  · intro hany
    obtain ⟨group, hmem, hmeets⟩ := hany
    exact ⟨group, (h group (hp group hmeets)).mpr hmem, hmeets⟩

/-- With an active tenant, a test of the active groups is a test of the groups. -/
theorem any_activeTenantGroups (hids : context.tenantIds ≠ []) (p : GroupModel → Bool) :
    (activeTenantGroups context.tenantIds groups).any p =
      groups.any fun group => countsInTenant context.tenantIds group.identifier && p group := by
  unfold activeTenantGroups
  rw [if_neg hids, List.any_filter]

theorem principalIds_congr (hids : context.tenantIds ≠ [])
    (h : ∀ group, Relevant context.tenantIds grants group → (group ∈ groups ↔ group ∈ groups'))
    (userId : Nat) :
    principalIds context.tenantIds grants userId groups =
      principalIds context.tenantIds grants userId groups' := by
  unfold principalIds
  dsimp only
  congr 2
  apply List.filter_congr
  intro principal hprincipal
  rw [any_activeTenantGroups hids, any_activeTenantGroups hids]
  apply any_congr_of_relevant h
  intro group hmeets
  rw [Bool.and_eq_true, decide_eq_true_eq] at hmeets
  exact Or.inr ⟨principal, hprincipal, hmeets.2⟩

theorem groupIdentifierFallback_congr (hids : context.tenantIds ≠ [])
    (h : ∀ group, Relevant context.tenantIds grants group → (group ∈ groups ↔ group ∈ groups'))
    (path : Text) (action : Option Text) :
    groupIdentifierFallback context groups path action =
      groupIdentifierFallback context groups' path action := by
  have hsuper : (activeTenantGroups context.tenantIds groups).any
        (fun group => group.identifier = superAdminRole) =
      (activeTenantGroups context.tenantIds groups').any
        fun group => group.identifier = superAdminRole := by
    rw [any_activeTenantGroups hids, any_activeTenantGroups hids]
    apply any_congr_of_relevant h
    intro group hmeets
    rw [Bool.and_eq_true, decide_eq_true_eq] at hmeets
    exact Or.inl (Or.inl hmeets.2)
  have hrole : ∀ role ∈ fallbackRoles,
      (activeTenantGroups context.tenantIds groups).any
          (fun group => endsInRole role group.identifier) =
        (activeTenantGroups context.tenantIds groups').any
          fun group => endsInRole role group.identifier := by
    intro role hrole
    rw [any_activeTenantGroups hids, any_activeTenantGroups hids]
    apply any_congr_of_relevant h
    intro group hmeets
    rw [Bool.and_eq_true] at hmeets
    exact Or.inl (Or.inr (Or.inl ⟨hmeets.1, role, hrole, hmeets.2⟩))
  unfold groupIdentifierFallback
  dsimp only
  rw [hsuper, hrole "tenant-admin" (by decide), hrole "editor" (by decide),
    hrole "reviewer" (by decide), hrole "user" (by decide)]

theorem hasReadOnlyRole_congr
    (h : ∀ group, Relevant context.tenantIds grants group → (group ∈ groups ↔ group ∈ groups')) :
    hasReadOnlyRole context.tenantIds groups = hasReadOnlyRole context.tenantIds groups' := by
  unfold hasReadOnlyRole
  apply any_congr_of_relevant h
  intro group hmeets
  rw [Bool.and_eq_true, decide_eq_true_eq] at hmeets
  exact Or.inl (Or.inr (Or.inr hmeets))

theorem actorIsSuperAdmin_congr
    (h : ∀ group, Relevant context.tenantIds grants group → (group ∈ groups ↔ group ∈ groups'))
    (user : UserModel) (claims : Option VerifiedClaims) :
    actorIsSuperAdmin (some { user with groups := groups.map GroupModel.identifier }) claims =
      actorIsSuperAdmin (some { user with groups := groups'.map GroupModel.identifier }) claims := by
  have hcontains : (groups.map GroupModel.identifier).contains superAdminRole =
      (groups'.map GroupModel.identifier).contains superAdminRole := by
    rw [List.contains_eq_any_beq, List.contains_eq_any_beq, List.any_map, List.any_map]
    apply any_congr_of_relevant h
    intro group hmeets
    have hidentifier : superAdminRole = group.identifier := by simpa using hmeets
    exact Or.inl (Or.inl hidentifier.symm)
  unfold actorIsSuperAdmin
  simp only [Option.any_some, hcontains]
  rfl

/-- The answer depends only on the groups that can matter. -/
theorem allowWithGroups_congr (hids : context.tenantIds ≠ [])
    (h : ∀ group, Relevant context.tenantIds grants group → (group ∈ groups ↔ group ∈ groups'))
    (user : UserModel) (method path : Text) (session groupFallback : Bool) :
    allowWithGroups context grants user groups method path session groupFallback =
      allowWithGroups context grants user groups' method path session groupFallback := by
  have hpermitted : ∀ request,
      resourcePermitted context.tenantIds grants user.id groups request =
        resourcePermitted context.tenantIds grants user.id groups' request := by
    intro request
    unfold resourcePermitted
    rw [principalIds_congr hids h]
  unfold allowWithGroups
  simp only [hpermitted, actorIsSuperAdmin_congr h, hasReadOnlyRole_congr h,
    groupIdentifierFallback_congr hids h]

end Congr

/-! ## One lane -/

/-- A lane group with the identifier is taken over for the lane. -/
def Adopts (rules : LaneRules) (tenantId lane identifier : Text) : Prop :=
  (identifier = lane ∧ tenantId ≠ []) ∨
    rules.casing.casefold identifier = rules.casing.casefold (laneGroupIdentifier tenantId lane)

/-- What synchronizing one lane does: nothing, where another group has the lane's id; and
else the lane's group has the tenant's identifier, and the user. -/
inductive LaneEffect (rules : LaneRules) (tenantId : Text) (userId : Nat) (lane : Text)
    (store after : Store) : Prop where
  | collided (group : GroupModel)
      (hfound : Table.lookup GroupModel.id store.groups
        (rules.laneAssignmentId lane tenantId) = some group)
      (hother : ¬ Adopts rules tenantId lane group.identifier) (hafter : after = store)
  | adopted (group : GroupModel) (hid : group.id = rules.laneAssignmentId lane tenantId)
      (hidentifier : group.identifier = laneGroupIdentifier tenantId lane)
      (hbefore : ∀ found, Table.lookup GroupModel.id store.groups
        (rules.laneAssignmentId lane tenantId) = some found →
          Adopts rules tenantId lane found.identifier)
      (hgroups : ∀ id, Table.lookup GroupModel.id after.groups id =
        if id = rules.laneAssignmentId lane tenantId then some group
        else Table.lookup GroupModel.id store.groups id)
      (hmembers : ∀ membership, membership ∈ after.memberships ↔
        membership ∈ store.memberships ∨
          membership = ⟨userId, rules.laneAssignmentId lane tenantId⟩)
      (hgrants : after.grants = store.grants)

section Lane

variable {rules : LaneRules} {tenantId : Text} {userId : Nat}

theorem adoptLaneGroup_eq_none {lane : Text} {group : GroupModel} :
    adoptLaneGroup rules tenantId lane group = none ↔
      ¬ Adopts rules tenantId lane group.identifier := by
  unfold adoptLaneGroup Adopts
  dsimp only
  split
  · rename_i hbare
    simp [hbare]
  · rename_i hbare
    split
    · rename_i hcase
      simp [hcase]
    · rename_i hcase
      simp [hbare, hcase]

theorem adoptLaneGroup_eq_some {lane : Text} {group adopted : GroupModel}
    (h : adoptLaneGroup rules tenantId lane group = some adopted) :
    adopted.id = group.id ∧ adopted.identifier = laneGroupIdentifier tenantId lane := by
  unfold adoptLaneGroup at h
  dsimp only at h
  split at h
  · cases h
    exact ⟨rfl, rfl⟩
  · split at h
    · cases h
      exact ⟨rfl, rfl⟩
    · cases h

theorem mem_ensureUserGroupAssignment (memberships : List UserGroupAssignment) (groupId : Nat)
    (membership : UserGroupAssignment) :
    membership ∈ (ensureUserGroupAssignment memberships userId groupId).1 ↔
      membership ∈ memberships ∨ membership = ⟨userId, groupId⟩ := by
  unfold ensureUserGroupAssignment
  split
  · rename_i hmem
    constructor
    · exact Or.inl
    · intro h
      rcases h with hold | hsame
      · exact hold
      · rw [hsame]
        exact hmem
  · rw [List.mem_append, List.mem_singleton]

/-- Taking over the group that has the lane's id, among groups that else are the store's. -/
theorem laneEffect_of_adopted {store : Store} {lane : Text} {groups : List GroupModel}
    {group adopted : GroupModel} {key : Option Text}
    (hgroup : Table.lookup GroupModel.id groups (rules.laneAssignmentId lane tenantId) = some group)
    (hothers : ∀ id ≠ rules.laneAssignmentId lane tenantId,
      Table.lookup GroupModel.id groups id = Table.lookup GroupModel.id store.groups id)
    (hbefore : ∀ found, Table.lookup GroupModel.id store.groups
      (rules.laneAssignmentId lane tenantId) = some found → found = group)
    (h : adoptLaneGroup rules tenantId lane group = some adopted) :
    LaneEffect rules tenantId userId lane store
      { store with
        groups := Table.updateAt GroupModel.id (rules.laneAssignmentId lane tenantId)
          (fun row => { adopted with authorizationKey := key, id := row.id }) groups
        memberships := (ensureUserGroupAssignment store.memberships userId
          (rules.laneAssignmentId lane tenantId)).1 } := by
  obtain ⟨hid, hidentifier⟩ := adoptLaneGroup_eq_some h
  have hgroupId : group.id = rules.laneAssignmentId lane tenantId := Table.key_of_lookup hgroup
  refine LaneEffect.adopted { adopted with authorizationKey := key, id := group.id } hgroupId
    hidentifier ?_ ?_ ?_ rfl
  · intro found hfound
    rw [hbefore found hfound]
    by_contra hnot
    rw [adoptLaneGroup_eq_none.mpr hnot] at h
    cases h
  · intro id
    have hkey : ∀ row : GroupModel,
        GroupModel.id { adopted with authorizationKey := key, id := row.id } = row.id :=
      fun _ => rfl
    dsimp only
    by_cases hsame : id = rules.laneAssignmentId lane tenantId
    · rw [if_pos hsame, hsame, Table.lookup_updateAt_self hkey, hgroup]
      rfl
    · rw [if_neg hsame, ← hothers id hsame]
      exact Table.lookup_updateAt_ne hkey (Ne.symm hsame) groups
  · exact mem_ensureUserGroupAssignment store.memberships _

/-- What one pass of the loop does. -/
theorem syncLaneGroup_effect (store : Store) {identifier : Text}
    (hlane : laneName identifier ≠ []) :
    LaneEffect rules tenantId userId (laneName identifier) store
      (syncLaneGroup rules tenantId userId store identifier).1 := by
  unfold syncLaneGroup
  rw [if_neg hlane]
  dsimp only
  cases hfound : Table.lookup GroupModel.id store.groups
      (rules.laneAssignmentId (laneName identifier) tenantId) with
  | some group =>
      simp only [Option.isSome_some, if_true, hfound, Option.getD_some]
      split
      · rename_i hnone
        exact LaneEffect.collided group hfound (adoptLaneGroup_eq_none.mp hnone) rfl
      · rename_i adopted hadopted
        refine laneEffect_of_adopted hfound (fun _ _ => rfl) ?_ hadopted
        intro found h
        rw [hfound] at h
        exact (Option.some.inj h).symm
  | none =>
      have hcreated : ∀ created : GroupModel,
          created.id = rules.laneAssignmentId (laneName identifier) tenantId →
          Table.lookup GroupModel.id (store.groups ++ [created])
            (rules.laneAssignmentId (laneName identifier) tenantId) = some created := by
        intro created hid
        rw [Table.lookup_append, hfound, Option.none_or, Table.lookup_cons, if_pos hid]
      simp only [Option.isSome_none, Bool.false_eq_true, if_false, hcreated, Option.getD_some]
      split
      · rename_i hnone
        exact absurd (Or.inr rfl) (adoptLaneGroup_eq_none.mp hnone)
      · rename_i adopted hadopted
        refine laneEffect_of_adopted (hcreated _ rfl) ?_ ?_ hadopted
        · intro id hne
          rw [Table.lookup_append, Table.lookup_cons, if_neg (Ne.symm hne), Table.lookup_nil,
            Option.or_none]
        · intro found h
          rw [hfound] at h
          cases h

end Lane

/-! ## Lanes that nothing notices -/

/-- No identifier that the lane's group gets, or is taken over from, is noticed. -/
def LaneSilent (rules : LaneRules) (tenantId : Text) (tenantIds : List Text) (lane : Text) :
    Prop :=
  ∀ identifier, Adopts rules tenantId lane identifier → ¬ Noticed tenantIds identifier

/-- The ids of the lanes are not those of groups that permissions are granted to. -/
def LaneIdsDistinct (rules : LaneRules) (tenantId : Text) (names : List Text) (grants : Grants) :
    Prop :=
  ∀ name ∈ names, ∀ principal ∈ grants.principals,
    principal.groupId ≠ some (rules.laneAssignmentId (laneName name) tenantId)

section Silent

variable {rules : LaneRules} {tenantId : Text} {tenantIds : List Text} {syncedId : Nat}

/-- Synchronizing a silent lane changes no user's relevant groups. -/
theorem groupsOf_of_effect {store after : Store} {lane : Text}
    (hsilent : LaneSilent rules tenantId tenantIds lane)
    (hdistinct : ∀ principal ∈ store.grants.principals,
      principal.groupId ≠ some (rules.laneAssignmentId lane tenantId))
    (h : LaneEffect rules tenantId syncedId lane store after) (userId : Nat)
    {group : GroupModel} (hrelevant : Relevant tenantIds store.grants group) :
    group ∈ store.groupsOf userId ↔ group ∈ after.groupsOf userId := by
  cases h with
  | collided _ _ _ hafter => rw [hafter]
  | adopted laneGroup hid hidentifier hbefore hgroups hmembers _ =>
      rw [mem_groupsOf, mem_groupsOf, hgroups, hmembers]
      by_cases hlane : group.id = rules.laneAssignmentId lane tenantId
      · have hnoticed : Noticed tenantIds group.identifier := by
          rcases hrelevant with hnoticed | hprincipal
          · exact hnoticed
          · obtain ⟨principal, hmem, hgroup⟩ := hprincipal
            rw [hlane] at hgroup
            exact absurd hgroup (hdistinct principal hmem)
        rw [if_pos hlane]
        constructor
        · intro hmem
          have hfound := hmem.2
          rw [hlane] at hfound
          exact absurd hnoticed (hsilent _ (hbefore group hfound))
        · intro hmem
          have hsame : laneGroup = group := Option.some.inj hmem.2
          rw [← hsame, hidentifier] at hnoticed
          exact absurd hnoticed (hsilent _ (Or.inr rfl))
      · rw [if_neg hlane]
        have hother : UserGroupAssignment.mk userId group.id ≠
            ⟨syncedId, rules.laneAssignmentId lane tenantId⟩ := by
          intro heq
          exact hlane (congrArg UserGroupAssignment.groupId heq)
        rw [or_iff_left hother]

theorem grants_of_effect {store after : Store} {lane : Text}
    (h : LaneEffect rules tenantId syncedId lane store after) : after.grants = store.grants := by
  cases h with
  | collided _ _ _ hafter => rw [hafter]
  | adopted _ _ _ _ _ _ hgrants => exact hgrants

/-- Synchronizing silent lanes one after the other changes no user's relevant groups. -/
theorem groupsOf_syncLaneGroupsFrom {names : List Text} {store : Store}
    (hsilent : ∀ name ∈ names, laneName name ≠ [] →
      LaneSilent rules tenantId tenantIds (laneName name))
    (hdistinct : LaneIdsDistinct rules tenantId names store.grants) :
    (syncLaneGroupsFrom rules tenantId syncedId store names).1.grants = store.grants ∧
      ∀ userId group, Relevant tenantIds store.grants group →
        (group ∈ store.groupsOf userId ↔
          group ∈ (syncLaneGroupsFrom rules tenantId syncedId store names).1.groupsOf userId) := by
  induction names generalizing store with
  | nil => exact ⟨rfl, fun _ _ _ => Iff.rfl⟩
  | cons name names ih =>
      have hfirst : (syncLaneGroup rules tenantId syncedId store name).1.grants = store.grants ∧
          ∀ userId group, Relevant tenantIds store.grants group →
            (group ∈ store.groupsOf userId ↔
              group ∈ (syncLaneGroup rules tenantId syncedId store name).1.groupsOf userId) := by
        by_cases hlane : laneName name = []
        · have hsame : (syncLaneGroup rules tenantId syncedId store name).1 = store := by
            unfold syncLaneGroup
            rw [if_pos hlane]
          rw [hsame]
          exact ⟨rfl, fun _ _ _ => Iff.rfl⟩
        · have heffect : LaneEffect rules tenantId syncedId (laneName name) store
              (syncLaneGroup rules tenantId syncedId store name).1 :=
            syncLaneGroup_effect store hlane
          refine ⟨grants_of_effect heffect, ?_⟩
          intro userId group hrelevant
          exact groupsOf_of_effect (hsilent name List.mem_cons_self hlane)
            (hdistinct name List.mem_cons_self) heffect userId hrelevant
      obtain ⟨hgrants, hgroups⟩ := hfirst
      have hdistinctRest : LaneIdsDistinct rules tenantId names
          (syncLaneGroup rules tenantId syncedId store name).1.grants := by
        rw [hgrants]
        exact fun other hmem => hdistinct other (List.mem_cons_of_mem name hmem)
      have hrest := ih (fun other hmem => hsilent other (List.mem_cons_of_mem name hmem))
        hdistinctRest
      rw [hgrants] at hrest
      refine ⟨hrest.1, ?_⟩
      intro userId group hrelevant
      exact (hgroups userId group hrelevant).trans (hrest.2 userId group hrelevant)

end Silent

/-! ## A noticed identifier matters -/

/-- A user with nothing but an id. -/
def bareUser : UserModel :=
  { id := 0, username := [], service := [], serviceId := [], email := none, displayName := none,
    createdAt := none, updatedAt := none, groups := [] }

/-- The bare user may do everything with process models. -/
def processModelGrants : Grants where
  principals := [⟨0, some 0, none⟩]
  assignments :=
    [⟨0, "all".toList, "permit".toList,
      some ⟨some "tenant".toList, some "/process-models".toList, none, none⟩⟩]

section Matters

variable {context : Context}

theorem methodToAction_read (casing : Casing) : methodToAction casing "read".toList = .read := by
  have hstrip : Text.strip "read".toList = "read".toList := by decide
  unfold methodToAction
  rw [hstrip, casing.upper_ascii _ (by decide), casing.lower_ascii _ (by decide)]
  decide

theorem methodToAction_create (casing : Casing) :
    methodToAction casing "create".toList = .create := by
  have hstrip : Text.strip "create".toList = "create".toList := by decide
  unfold methodToAction
  rw [hstrip, casing.upper_ascii _ (by decide), casing.lower_ascii _ (by decide)]
  decide

theorem activeTenantGroups_nil (tenantIds : List Text) : activeTenantGroups tenantIds [] = [] := by
  unfold activeTenantGroups
  split
  · rfl
  · rfl

/-- Without claims, a super-admin is who has the platform's own group. -/
theorem actorIsSuperAdmin_bareUser (identifiers : List Text) :
    actorIsSuperAdmin (some { bareUser with groups := identifiers }) none =
      identifiers.contains superAdminRole := by
  simp [actorIsSuperAdmin]

/-- Reading `/tasks` without any grant is answered by the identifiers alone. -/
theorem allow_read_tasks (hclaims : context.claims = none) (groups : List GroupModel) :
    allowWithGroups context ⟨[], []⟩ bareUser groups "read".toList "/tasks".toList true true =
      ((groups.map GroupModel.identifier).contains superAdminRole ||
        groupIdentifierFallback context groups "/tasks".toList (some "read".toList)) := by
  have hpath : normalizeAuthorizationPath "/tasks".toList = "/tasks".toList := by decide
  have htarget : lifecycleRequest .read "/tasks".toList = (.read, "/tasks".toList) := by decide
  have hprefix : (noGroupFallbackPrefixes.any fun pathPrefix =>
      pathPrefix.isPrefixOf "/tasks".toList) = false := by decide
  have hpermitted : ∀ request,
      resourcePermitted context.tenantIds ⟨[], []⟩ bareUser.id groups request = false :=
    fun _ => rfl
  have hhome : "/tasks".toList ≠ "/m8flow/home-task-count".toList := by decide
  have hname : Action.read.name = "read".toList := rfl
  unfold allowWithGroups
  dsimp only
  rw [hpath, methodToAction_read, htarget, hclaims, if_neg hhome]
  dsimp only
  rw [actorIsSuperAdmin_bareUser, hprefix, hname]
  simp only [hpermitted]
  cases (groups.map GroupModel.identifier).contains superAdminRole with
  | true => simp
  | false => simp

theorem fallback_nil (path : Text) (action : Option Text) :
    groupIdentifierFallback context [] path action = false := by
  unfold groupIdentifierFallback
  dsimp only
  rw [activeTenantGroups_nil]
  simp

theorem fallback_tasks (hids : context.tenantIds ≠ []) {group : GroupModel} {role : String}
    (hcounts : countsInTenant context.tenantIds group.identifier) (hrole : role ∈ fallbackRoles)
    (hends : endsInRole role group.identifier) (action : Option Text) :
    groupIdentifierFallback context [group] "/tasks".toList action = true := by
  have hhas : (activeTenantGroups context.tenantIds [group]).any
      (fun group => endsInRole role group.identifier) = true := by
    rw [any_activeTenantGroups hids]
    simp [hcounts, hends]
  have htasks : Text.hasInfix "/tasks".toList "/tasks".toList = true := by decide
  unfold groupIdentifierFallback
  dsimp only
  simp only [fallbackRoles, List.mem_cons, List.not_mem_nil, or_false] at hrole
  rcases hrole with rfl | rfl | rfl | rfl
  · rw [hhas]
    simp
  · rw [hhas, htasks]
    simp
  · rw [hhas, htasks]
    simp
  · rw [hhas, htasks]
    simp

/-- Creating a process model, with the grant for it, is answered by the guard. -/
theorem allow_create_process_model (hclaims : context.claims = none) (groups : List GroupModel)
    (hglobal : (groups.map GroupModel.identifier).contains superAdminRole = false) :
    allowWithGroups context processModelGrants bareUser groups "create".toList
        "/process-models".toList true false =
      (!hasReadOnlyRole context.tenantIds groups &&
        resourcePermitted context.tenantIds processModelGrants 0 groups
          ⟨.create, "tenant".toList, "/process-models".toList, none, false⟩) := by
  have hpath : normalizeAuthorizationPath "/process-models".toList = "/process-models".toList := by
    decide
  have htarget : lifecycleRequest .create "/process-models".toList =
      (.create, "/process-models".toList) := by decide
  have hhome : "/process-models".toList ≠ "/m8flow/home-task-count".toList := by decide
  have hprefix : "/process-models".toList.isPrefixOf "/process-models".toList = true := by decide
  unfold allowWithGroups
  dsimp only
  rw [hpath, methodToAction_create, htarget, hclaims, if_neg hhome]
  dsimp only
  rw [actorIsSuperAdmin_bareUser, hglobal, hprefix]
  cases hasReadOnlyRole context.tenantIds groups with
  | true => simp
  | false => simp [bareUser]

/-- A noticed identifier matters: with a group that has it and without, the answers to
some question differ. -/
theorem noticed_matters (hids : context.tenantIds ≠ []) (hclaims : context.claims = none)
    {group : GroupModel} (h : Noticed context.tenantIds group.identifier) :
    ∃ grants method path, (∀ principal ∈ grants.principals, principal.groupId = none) ∧
      ∃ groupFallback, allowWithGroups context grants bareUser [group] method path true groupFallback ≠
        allowWithGroups context grants bareUser [] method path true groupFallback := by
  have hnobody : allowWithGroups context ⟨[], []⟩ bareUser [] "read".toList "/tasks".toList true
      true = false := by
    rw [allow_read_tasks hclaims, fallback_nil]
    rfl
  by_cases hglobal : group.identifier = superAdminRole
  · refine ⟨⟨[], []⟩, "read".toList, "/tasks".toList, nofun, true, ?_⟩
    rw [hnobody, allow_read_tasks hclaims]
    simp [hglobal]
  rcases h with hsuper | ⟨hcounts, role, hrole, hends⟩ | ⟨hread, hreadOnly⟩
  · exact absurd hsuper hglobal
  · refine ⟨⟨[], []⟩, "read".toList, "/tasks".toList, nofun, true, ?_⟩
    rw [hnobody, allow_read_tasks hclaims, fallback_tasks hids hcounts hrole hends]
    simp
  · refine ⟨processModelGrants, "create".toList, "/process-models".toList, ?_, false, ?_⟩
    · intro principal hmem
      rw [List.mem_singleton.mp hmem]
    · have hother : ([group].map GroupModel.identifier).contains superAdminRole = false := by
        simp [Ne.symm hglobal]
      have hguarded : hasReadOnlyRole context.tenantIds [group] = true := by
        unfold hasReadOnlyRole
        rw [List.any_cons, List.any_nil, Bool.or_false, Bool.and_eq_true]
        exact ⟨hread, decide_eq_true hreadOnly⟩
      have hpermitted : resourcePermitted context.tenantIds processModelGrants 0 []
          ⟨.create, "tenant".toList, "/process-models".toList, none, false⟩ = true := by
        unfold resourcePermitted principalIds
        rw [activeTenantGroups_nil]
        decide
      rw [allow_create_process_model hclaims _ hother, allow_create_process_model hclaims _ rfl,
        hguarded, hpermitted]
      simp [hasReadOnlyRole]

end Matters

/-! ## Two stores that differ in one assignment -/

/-- The stores have the same groups and grants, and the user's memberships differ at most in
the group `id`, which still has the identifier it had at the start. -/
structure Twins (userId id : Nat) (identifier : Text) (left right : Store) : Prop where
  groups : left.groups = right.groups
  grants : left.grants = right.grants
  others : ∀ other ≠ id, UserGroupAssignment.mk userId other ∈ left.memberships ↔
    UserGroupAssignment.mk userId other ∈ right.memberships
  one : (UserGroupAssignment.mk userId id ∈ left.memberships ∧
      UserGroupAssignment.mk userId id ∈ right.memberships) ∨
    ∃ group, Table.lookup GroupModel.id left.groups id = some group ∧
      group.identifier = identifier

section Twins

variable {rules : LaneRules} {tenantId : Text} {userId id : Nat} {identifier : Text}
  {left right : Store}

/-- The groups after a pass depend on the groups before it. -/
theorem syncLaneGroup_groups (h : left.groups = right.groups) (name : Text) :
    (syncLaneGroup rules tenantId userId left name).1.groups =
      (syncLaneGroup rules tenantId userId right name).1.groups := by
  unfold syncLaneGroup
  dsimp only
  rw [h]
  by_cases hlane : laneName name = []
  · rw [if_pos hlane, if_pos hlane]
    exact h
  · rw [if_neg hlane, if_neg hlane]
    split
    · rfl
    · rfl

/-- One pass keeps twins, and where it is the lane that takes the group over, it assigns
the user in both. -/
theorem twins_syncLaneGroup (h : Twins userId id identifier left right) (name : Text) :
    Twins userId id identifier (syncLaneGroup rules tenantId userId left name).1
        (syncLaneGroup rules tenantId userId right name).1 ∧
      (laneName name ≠ [] → rules.laneAssignmentId (laneName name) tenantId = id →
        Adopts rules tenantId (laneName name) identifier →
        UserGroupAssignment.mk userId id ∈
          (syncLaneGroup rules tenantId userId right name).1.memberships) := by
  by_cases hlane : laneName name = []
  · have hsame : ∀ store, (syncLaneGroup rules tenantId userId store name).1 = store := by
      intro store
      unfold syncLaneGroup
      rw [if_pos hlane]
    rw [hsame, hsame]
    exact ⟨h, fun hne => absurd hlane hne⟩
  have hgroups : (syncLaneGroup rules tenantId userId left name).1.groups =
      (syncLaneGroup rules tenantId userId right name).1.groups :=
    syncLaneGroup_groups h.groups name
  have hleft : LaneEffect rules tenantId userId (laneName name) left
      (syncLaneGroup rules tenantId userId left name).1 := syncLaneGroup_effect left hlane
  have hright : LaneEffect rules tenantId userId (laneName name) right
      (syncLaneGroup rules tenantId userId right name).1 := syncLaneGroup_effect right hlane
  cases hleft with
  | collided group hfound hother hafter =>
      have hsame : (syncLaneGroup rules tenantId userId right name).1 = right := by
        cases hright with
        | collided _ _ _ hafter => exact hafter
        | adopted _ _ _ hbefore =>
            rw [← h.groups] at hbefore
            exact absurd (hbefore group hfound) hother
      rw [hafter, hsame]
      refine ⟨h, ?_⟩
      intro _ hid hadopts
      rcases h.one with hassigned | hstill
      · exact hassigned.2
      · obtain ⟨still, hlookup, hidentifier⟩ := hstill
        rw [hid, hlookup] at hfound
        rw [← Option.some.inj hfound, hidentifier] at hother
        exact absurd hadopts hother
  | adopted group hid hidentifier hbefore hlookups hmembers hgrants =>
      have hmembersRight : ∀ membership,
          membership ∈ (syncLaneGroup rules tenantId userId right name).1.memberships ↔
            membership ∈ right.memberships ∨
              membership = ⟨userId, rules.laneAssignmentId (laneName name) tenantId⟩ := by
        cases hright with
        | collided found hfound hother =>
            rw [← h.groups] at hfound
            exact absurd (hbefore found hfound) hother
        | adopted _ _ _ _ _ hmembersRight => exact hmembersRight
      refine ⟨⟨hgroups, ?_, ?_, ?_⟩, ?_⟩
      · rw [hgrants, grants_of_effect hright, h.grants]
      · intro other hother
        rw [hmembers, hmembersRight, h.others other hother]
      · by_cases hlaneId : id = rules.laneAssignmentId (laneName name) tenantId
        · left
          rw [hmembers, hmembersRight, ← hlaneId]
          exact ⟨Or.inr rfl, Or.inr rfl⟩
        · rcases h.one with hassigned | hstill
          · left
            rw [hmembers, hmembersRight]
            exact ⟨Or.inl hassigned.1, Or.inl hassigned.2⟩
          · right
            rw [hlookups, if_neg hlaneId]
            exact hstill
      · intro _ hlaneId _
        rw [hmembersRight, hlaneId]
        exact Or.inr rfl

/-- A pass never takes a membership away. -/
theorem membership_syncLaneGroup {membership : UserGroupAssignment} {store : Store}
    (h : membership ∈ store.memberships) (name : Text) :
    membership ∈ (syncLaneGroup rules tenantId userId store name).1.memberships := by
  by_cases hlane : laneName name = []
  · unfold syncLaneGroup
    rw [if_pos hlane]
    exact h
  · have heffect : LaneEffect rules tenantId userId (laneName name) store
        (syncLaneGroup rules tenantId userId store name).1 := syncLaneGroup_effect store hlane
    cases heffect with
    | collided _ _ _ hafter =>
        rw [hafter]
        exact h
    | adopted _ _ _ _ _ hmembers _ => exact (hmembers membership).mpr (Or.inl h)

theorem syncLaneGroupsFrom_cons (store : Store) (name : Text) (names : List Text) :
    (syncLaneGroupsFrom rules tenantId userId store (name :: names)).1 =
      (syncLaneGroupsFrom rules tenantId userId
        (syncLaneGroup rules tenantId userId store name).1 names).1 := rfl

theorem membership_syncLaneGroupsFrom {membership : UserGroupAssignment} {names : List Text}
    {store : Store} (h : membership ∈ store.memberships) :
    membership ∈ (syncLaneGroupsFrom rules tenantId userId store names).1.memberships := by
  induction names generalizing store with
  | nil => exact h
  | cons name names ih =>
      rw [syncLaneGroupsFrom_cons]
      exact ih (membership_syncLaneGroup h name)

/-- Synchronizing keeps twins, and the names of a lane that takes the group over assign
the user in both. -/
theorem twins_syncLaneGroupsFrom {names : List Text} (h : Twins userId id identifier left right) :
    Twins userId id identifier (syncLaneGroupsFrom rules tenantId userId left names).1
        (syncLaneGroupsFrom rules tenantId userId right names).1 ∧
      ∀ name ∈ names, laneName name ≠ [] →
        rules.laneAssignmentId (laneName name) tenantId = id →
        Adopts rules tenantId (laneName name) identifier →
        UserGroupAssignment.mk userId id ∈
          (syncLaneGroupsFrom rules tenantId userId right names).1.memberships := by
  induction names generalizing left right with
  | nil => exact ⟨h, nofun⟩
  | cons first names ih =>
      rw [syncLaneGroupsFrom_cons, syncLaneGroupsFrom_cons]
      have hfirst := @twins_syncLaneGroup rules tenantId _ _ _ _ _ h first
      obtain ⟨hrest, hlater⟩ := ih hfirst.1
      refine ⟨hrest, ?_⟩
      intro name hmem hlane hlaneId hadopts
      rcases List.mem_cons.mp hmem with hsame | hin
      · rw [hsame] at hlane hlaneId hadopts
        exact membership_syncLaneGroupsFrom (hfirst.2 hlane hlaneId hadopts)
      · exact hlater name hin hlane hlaneId hadopts

end Twins

/-! ## Lane groups and answers -/

/-- The id of an active tenant, as `current_tenant_id_or_none` gives it. -/
structure ActiveTenantId where
  id : Text
  stripped : id.strip = id
  concrete : isConcreteTenantId id

/-- The context of a request in an active tenant. -/
def activeContext (rules : LaneRules) (tenant : ActiveTenantId) (tenants : List TenantRow)
    (claims : Option VerifiedClaims) : Context :=
  { casing := rules.casing, tenants, current := some tenant.id, claims }

section Answers

variable {rules : LaneRules} {tenant : ActiveTenantId} {tenants : List TenantRow}
  {claims : Option VerifiedClaims}

theorem tenantIds_ne_nil : (activeContext rules tenant tenants claims).tenantIds ≠ [] := by
  have hconcrete := tenant.concrete
  unfold isConcreteTenantId at hconcrete
  have hstrip : tenant.id.strip ≠ [] := (of_decide_eq_true hconcrete).1
  unfold Context.tenantIds currentTenantIdentifiers activeContext
  dsimp only
  rw [truthy_none, Option.none_or, Option.getD_some, if_neg hstrip]
  exact List.cons_ne_nil _ _

/-- Synchronizing silent lanes changes no answer. -/
theorem allowUri_syncLaneGroups {names : List Text} {store : Store} {syncedId : Nat}
    (hsilent : ∀ name ∈ names, laneName name ≠ [] → LaneSilent rules tenant.id
      (activeContext rules tenant tenants claims).tenantIds (laneName name))
    (hdistinct : LaneIdsDistinct rules tenant.id names store.grants) (user : Option UserModel)
    (method path : Text) (session groupFallback : Bool) :
    allowUri (activeContext rules tenant tenants claims)
        (syncLaneGroups rules tenant.id syncedId store names).1 user method path session
        groupFallback =
      allowUri (activeContext rules tenant tenants claims) store user method path session
        groupFallback := by
  have hdistinct' : LaneIdsDistinct rules tenant.id names.eraseDups store.grants :=
    fun name hmem => hdistinct name (List.mem_eraseDups.mp hmem)
  have hsync := @groupsOf_syncLaneGroupsFrom rules tenant.id _ syncedId names.eraseDups store
    (fun name hmem => hsilent name (List.mem_eraseDups.mp hmem)) hdistinct'
  cases user with
  | none => rfl
  | some user =>
      unfold allowUri syncLaneGroups
      dsimp only
      rw [hsync.1]
      refine allowWithGroups_congr tenantIds_ne_nil ?_ user method path session groupFallback
      intro group hrelevant
      exact (hsync.2 user.id group hrelevant).symm

/-- Where synchronizing the names changes no answer, no lane of them is noticed. -/
theorem laneSilent_of_allowUri {names : List Text} (hclaims : claims = none)
    (h : ∀ store user method path groupFallback,
      LaneIdsDistinct rules tenant.id names store.grants →
        allowUri (activeContext rules tenant tenants claims)
            (syncLaneGroups rules tenant.id user.id store names).1 (some user) method path true
            groupFallback =
          allowUri (activeContext rules tenant tenants claims) store (some user) method path true
            groupFallback)
    {name : Text} (hname : name ∈ names) (hlane : laneName name ≠ []) :
    LaneSilent rules tenant.id (activeContext rules tenant tenants claims).tenantIds
      (laneName name) := by
  intro identifier hadopts hnoticed
  -- the lane's group exists already, with the identifier
  let group : GroupModel :=
    { id := rules.laneAssignmentId (laneName name) tenant.id, name := identifier, identifier,
      authorizationKey := none }
  obtain ⟨grants, method, path, hprincipals, groupFallback, hdiffer⟩ :=
    @noticed_matters (activeContext rules tenant tenants claims) tenantIds_ne_nil hclaims group
      hnoticed
  -- the user is assigned to it, or is not
  let assigned : Store := ⟨[group], [⟨bareUser.id, group.id⟩], grants⟩
  let unassigned : Store := ⟨[group], [], grants⟩
  have hdistinct : LaneIdsDistinct rules tenant.id names grants := by
    intro other _ principal hmem hgroup
    rw [hprincipals principal hmem] at hgroup
    cases hgroup
  have hfound : Table.lookup GroupModel.id [group] group.id = some group := by
    rw [Table.lookup_cons, if_pos rfl]
  have htwins : Twins bareUser.id group.id identifier assigned unassigned :=
    { groups := rfl, grants := rfl
      others := by
        intro other hother
        simp [assigned, unassigned, hother]
      one := Or.inr ⟨group, hfound, rfl⟩ }
  obtain ⟨hafter, hassigns⟩ :=
    @twins_syncLaneGroupsFrom rules tenant.id _ _ _ _ _ names.eraseDups htwins
  have hright := hassigns name (List.mem_eraseDups.mpr hname) hlane rfl hadopts
  have hleft := @membership_syncLaneGroupsFrom rules tenant.id bareUser.id
    ⟨bareUser.id, group.id⟩ names.eraseDups assigned List.mem_cons_self
  -- after synchronizing, the user is assigned to the same groups in both
  have hsame : ∀ other,
      other ∈ (syncLaneGroups rules tenant.id bareUser.id assigned names).1.groupsOf bareUser.id ↔
        other ∈ (syncLaneGroups rules tenant.id bareUser.id unassigned names).1.groupsOf
          bareUser.id := by
    intro other
    unfold syncLaneGroups
    rw [mem_groupsOf, mem_groupsOf, hafter.groups]
    refine and_congr_left ?_
    intro _
    by_cases hother : other.id = group.id
    · rw [hother]
      exact iff_of_true hleft hright
    · exact hafter.others other.id hother
  have hequal : allowUri (activeContext rules tenant tenants claims)
        (syncLaneGroups rules tenant.id bareUser.id assigned names).1 (some bareUser) method path
        true groupFallback =
      allowUri (activeContext rules tenant tenants claims)
        (syncLaneGroups rules tenant.id bareUser.id unassigned names).1 (some bareUser) method path
        true groupFallback := by
    have hgrants : (syncLaneGroups rules tenant.id bareUser.id assigned names).1.grants =
        (syncLaneGroups rules tenant.id bareUser.id unassigned names).1.grants := hafter.grants
    unfold allowUri
    dsimp only
    rw [hgrants]
    exact allowWithGroups_congr tenantIds_ne_nil (fun other _ => hsame other) _ _ _ _ _
  rw [h assigned bareUser method path groupFallback hdistinct,
    h unassigned bareUser method path groupFallback hdistinct] at hequal
  have hgroups : assigned.groupsOf bareUser.id = [group] := by
    simp [Store.groupsOf, assigned, bareUser, hfound]
  have hnone : unassigned.groupsOf bareUser.id = [] := rfl
  unfold allowUri at hequal
  dsimp only at hequal
  rw [hgroups, hnone] at hequal
  exact hdiffer hequal

end Answers

/-- Synchronizing directory group names for an active tenant leaves every answer of
`allow_uri` as it is, for every store, user, method and path, exactly where no identifier
that a lane of the names gets or takes over is one that authorization reads. -/
theorem lane_groups_grant_nothing_iff (rules : LaneRules) (tenant : ActiveTenantId)
    (tenants : List TenantRow) (names : List Text) :
    (∀ (store : Store) (claims : Option VerifiedClaims) (syncedId : Nat) (user : Option UserModel)
        (method path : Text) (session groupFallback : Bool),
      LaneIdsDistinct rules tenant.id names store.grants →
        allowUri (activeContext rules tenant tenants claims)
            (syncLaneGroups rules tenant.id syncedId store names).1 user method path session
            groupFallback =
          allowUri (activeContext rules tenant tenants claims) store user method path session
            groupFallback) ↔
      ∀ name ∈ names, laneName name ≠ [] → LaneSilent rules tenant.id
        (currentTenantIdentifiers tenants (some tenant.id) none) (laneName name) := by
  constructor
  · intro h name hname hlane
    refine @laneSilent_of_allowUri rules tenant tenants none names rfl ?_ name hname hlane
    intro store user method path groupFallback hdistinct
    exact h store none user.id (some user) method path true groupFallback hdistinct
  · intro hsilent store claims syncedId user method path session groupFallback hdistinct
    exact allowUri_syncLaneGroups hsilent hdistinct user method path session groupFallback

/-! ## A directory group named after a role -/

/-- A directory group `editor` of the tenant `t1`: its lane group makes an editor of a user
who has no group and no grant. -/
theorem editor_lane_grants :
    let rules : LaneRules := ⟨Casing.ascii, fun _ _ => 7⟩
    let context : Context := ⟨Casing.ascii, [], some "t1".toList, none⟩
    let store : Store := ⟨[], [], ⟨[], []⟩⟩
    (syncLaneGroups rules "t1".toList 0 store ["/editor".toList]).1.groups.map
        GroupModel.identifier = ["t1:editor".toList] ∧
    allowUri context store (some bareUser) "POST".toList "/v1.0/process-models/p".toList true
        true = false ∧
    allowUri context (syncLaneGroups rules "t1".toList 0 store ["/editor".toList]).1
        (some bareUser) "POST".toList "/v1.0/process-models/p".toList true true = true := by
  refine ⟨by decide, by decide, by decide⟩

end M8flow.Authorization
