import M8flow.Auth.Membership
import M8flow.Identity.LaneGroups
import Mathlib.Data.Char
import Mathlib.Data.List.Dedup
import Mathlib.Data.List.Lex
import Mathlib.Data.List.MinMax
import Mathlib.Data.List.Sort

/-!
# Local groups and assignments

How users come to local groups and leave them: `sync_groups` of `identity/__init__.py`, and
the role assignments of `tenant_role_service.py`.  All find the row of a group with
`_ensure_group`, which prefers the row of the identity provider to a lane's.

- `localGroup` is the row that `_ensure_group` finds, if there is one.
- `Consistent` are the constraints of the tables, which every operation keeps.
- `clear_effect` says which assignments `_clear_local_tenant_assignments` takes away.
-/

namespace M8flow.Identity

open M8flow.Auth M8flow.Authorization M8flow.Lib

/-! ## Rows of groups -/

/-- `f"authorization:{identifier}"`. -/
def groupAuthorizationKey (identifier : Text) : Text := "authorization:".toList ++ identifier

/-- The row that `_ensure_group` finds: the one of the identity provider, or, beside another
row with the identifier, the one with its authorization key. -/
def localGroup (groups : List GroupModel) (identifier : Text) : Option GroupModel :=
  let provided := groups.filter fun group =>
    group.identifier = identifier ∧
      group.authorizationKey = some (groupAuthorizationKey identifier)
  match provided.argmin GroupModel.id with
  | some group => some group
  | none =>
      if groups.any fun group => group.identifier = identifier then
        groups.find? fun group => group.authorizationKey = some (groupAuthorizationKey identifier)
      else none

/-- An id that no row has. -/
def newGroupId (groups : List GroupModel) : Nat :=
  groups.foldr (fun group next => max (group.id + 1) next) 0

/-- Insert the row of a group, as `_create_rbac_group_for_existing_lane` does, and
`find_or_create_group` of the core where no row has the identifier. -/
def insertGroup (store : Store) (identifier : Text) : Store × GroupModel :=
  let group : GroupModel :=
    { id := newGroupId store.groups, name := identifier, identifier,
      authorizationKey := some (groupAuthorizationKey identifier) }
  ({ store with groups := store.groups ++ [group] }, group)

/-- `_ensure_group`. -/
def ensureGroup (store : Store) (identifier : Text) : Store × GroupModel :=
  match localGroup store.groups identifier with
  | some group => (store, group)
  | none => insertGroup store identifier

/-- The groups of an import of permissions. -/
def ensureGroups (store : Store) (identifiers : List Text) : Store :=
  identifiers.foldl (fun store identifier => (ensureGroup store identifier).1) store

/-! ## Synchronization -/

/-- What the core's `add_user_to_group` takes for the row of an identifier. -/
structure CoreGroups where
  resolve : List GroupModel → Text → Option GroupModel
  resolve_spec : ∀ groups identifier group, resolve groups identifier = some group →
    group ∈ groups ∧ group.identifier = identifier

/-- Assign a user to a group. -/
def assign (store : Store) (userId groupId : Nat) : Store :=
  { store with memberships := (ensureUserGroupAssignment store.memberships userId groupId).1 }

/-- `add_user_to_group` of the core. -/
def CoreGroups.addUserToGroup (core : CoreGroups) (store : Store) (userId : Nat)
    (identifier : Text) : Store :=
  match core.resolve store.groups identifier with
  | some group => assign store userId group.id
  | none =>
      let inserted := insertGroup store identifier
      assign inserted.1 userId inserted.2.id

/-- `desired`. -/
def desiredGroups (groupIdentifiers : List Text) : List Text :=
  ((groupIdentifiers.map Text.strip).filter fun identifier =>
    identifier ≠ [] ∧ (':' ∈ identifier ∨ identifier = superAdminRole)).dedup

/-- The loop body of `sync_groups`. -/
def syncGroup (core : CoreGroups) (userId : Nat) (store : Store) (identifier : Text) : Store :=
  let ensured := ensureGroup store identifier
  if ⟨userId, ensured.2.id⟩ ∈ ensured.1.memberships then ensured.1
  else core.addUserToGroup ensured.1 userId ensured.2.identifier

/-- `sync_groups`. -/
def syncGroups (core : CoreGroups) (userId : Nat) (store : Store) (groupIdentifiers : List Text) :
    Store :=
  (desiredGroups groupIdentifiers).foldl (syncGroup core userId) store

/-! ## Roles of a tenant -/

/-- `current_tenant_id_or_none()`, and the setting `SPIFFWORKFLOW_BACKEND_DEFAULT_USER_GROUP`. -/
structure LocalSettings where
  current : Option Text
  defaultUserGroup : Option Text

/-- `_tenant_role_group`, by its identifier. -/
def LocalSettings.tenantRoleGroup (settings : LocalSettings) (tenantId roleName : Text) : Text :=
  qualifyGroupIdentifier settings.current roleName (some tenantId)

/-- `_delete_local_assignment`. -/
def deleteLocalAssignment (store : Store) (userId groupId : Nat) : Store :=
  { store with memberships := store.memberships.erase ⟨userId, groupId⟩ }

/-- `sorted(VALID_TENANT_ROLE_NAMES)`. -/
def sortedRoleNames : List Text :=
  validTenantRoleNames.insertionSort fun name other => name ≤ other

/-- The loop body of `_sync_local_role_assignments`. -/
def syncRole (settings : LocalSettings) (userId : Nat) (tenantId : Text) (roles : List Text)
    (store : Store) (roleName : Text) : Store :=
  let ensured := ensureGroup store (settings.tenantRoleGroup tenantId roleName)
  if roleName ∈ roles then assign ensured.1 userId ensured.2.id
  else deleteLocalAssignment ensured.1 userId ensured.2.id

/-- `_sync_local_role_assignments`. -/
def syncLocalRoleAssignments (settings : LocalSettings) (userId : Nat) (tenantId : Text)
    (roles : List Text) (store : Store) : Store :=
  sortedRoleNames.foldl (syncRole settings userId tenantId roles) store

/-- `qualified_config_group_identifier` of the default group. -/
def LocalSettings.defaultGroup (settings : LocalSettings) (tenantId : Text) : Option Text :=
  truthy ((truthy (settings.defaultUserGroup.map Text.strip)).map fun value =>
    qualifyGroupIdentifier settings.current value (some tenantId))

/-- `sorted(group_identifiers)`: the groups of the roles, and the default group. -/
def LocalSettings.clearedIdentifiers (settings : LocalSettings) (tenantId : Text) : List Text :=
  (validTenantRoleNames.map (settings.tenantRoleGroup tenantId) ++
    (settings.defaultGroup tenantId).toList).dedup.insertionSort fun name other => name ≤ other

/-- The loop body of `_clear_local_tenant_assignments`. -/
def clearGroup (userId : Nat) (store : Store) (identifier : Text) : Store :=
  let ensured := ensureGroup store identifier
  deleteLocalAssignment ensured.1 userId ensured.2.id

/-- `_clear_local_tenant_assignments`; the assignments of the core have no tenant of their
own. -/
def clearLocalTenantAssignments (settings : LocalSettings) (userId : Nat) (tenantId : Text)
    (store : Store) : Store :=
  (settings.clearedIdentifiers tenantId).foldl (clearGroup userId) store

/-! ## Constraints -/

/-- The primary key of groups, the foreign key of assignments, and their unique constraint. -/
structure Consistent (store : Store) : Prop where
  ids : (store.groups.map GroupModel.id).Nodup
  groups : ∀ membership ∈ store.memberships, membership.groupId ∈ store.groups.map GroupModel.id
  unique : store.memberships.Nodup

section Constraints

variable {store : Store} {userId : Nat} {identifier : Text}

theorem consistent_empty (grants : Grants) : Consistent ⟨[], [], grants⟩ where
  ids := List.nodup_nil
  groups := by
    intro membership hmem
    cases hmem
  unique := List.nodup_nil

theorem lt_newGroupId {groups : List GroupModel} {group : GroupModel} (h : group ∈ groups) :
    group.id < newGroupId groups := by
  induction groups with
  | nil => cases h
  | cons first groups ih =>
      unfold newGroupId
      rw [List.foldr_cons]
      rcases List.mem_cons.mp h with hfirst | hrest
      · rw [hfirst]
        exact lt_of_lt_of_le (Nat.lt_succ_self _) (le_max_left _ _)
      · exact lt_of_lt_of_le (ih hrest) (le_max_right _ _)

theorem newGroupId_not_mem (groups : List GroupModel) :
    newGroupId groups ∉ groups.map GroupModel.id := by
  intro hmem
  obtain ⟨group, hin, hid⟩ := List.mem_map.mp hmem
  have hlt := lt_newGroupId hin
  omega

theorem mem_of_localGroup {groups : List GroupModel} {group : GroupModel}
    (h : localGroup groups identifier = some group) : group ∈ groups := by
  unfold localGroup at h
  dsimp only at h
  cases hmin : (groups.filter fun group => group.identifier = identifier ∧
      group.authorizationKey = some (groupAuthorizationKey identifier)).argmin GroupModel.id with
  | some found =>
      rw [hmin] at h
      rw [← Option.some.inj h]
      exact (List.mem_filter.mp (List.argmin_mem hmin)).1
  | none =>
      rw [hmin] at h
      dsimp only at h
      split at h
      · exact List.mem_of_find?_eq_some h
      · cases h

/-- A new row of another identifier is not found for this one. -/
theorem localGroup_append {groups : List GroupModel} {group : GroupModel}
    (hidentifier : group.identifier ≠ identifier)
    (hkey : group.authorizationKey ≠ some (groupAuthorizationKey identifier)) :
    localGroup (groups ++ [group]) identifier = localGroup groups identifier := by
  unfold localGroup
  have hfilter : ([group].filter fun group => group.identifier = identifier ∧
      group.authorizationKey = some (groupAuthorizationKey identifier)) = [] := by
    simp [hidentifier]
  have hfind : [group].find? (fun group =>
      group.authorizationKey = some (groupAuthorizationKey identifier)) = none := by
    simp [hkey]
  have hany : (groups ++ [group]).any (fun group => group.identifier = identifier) =
      groups.any fun group => group.identifier = identifier := by
    simp [hidentifier]
  rw [List.filter_append, hfilter, List.append_nil, List.find?_append, hfind, Option.or_none, hany]

theorem groupAuthorizationKey_injective {identifier other : Text}
    (h : groupAuthorizationKey identifier = groupAuthorizationKey other) : identifier = other :=
  List.append_cancel_left h

/-- What `_ensure_group` does: it finds a row, or inserts one. -/
theorem ensureGroup_cases (store : Store) (identifier : Text) :
    (∃ group, localGroup store.groups identifier = some group ∧
        ensureGroup store identifier = (store, group)) ∨
      localGroup store.groups identifier = none ∧
        ensureGroup store identifier = insertGroup store identifier := by
  unfold ensureGroup
  cases hfound : localGroup store.groups identifier with
  | some group => exact Or.inl ⟨group, rfl, rfl⟩
  | none => exact Or.inr ⟨rfl, rfl⟩

theorem insertGroup_id (store : Store) (identifier : Text) :
    (insertGroup store identifier).2.id ∉ store.groups.map GroupModel.id :=
  newGroupId_not_mem store.groups

theorem consistent_insertGroup (h : Consistent store) (identifier : Text) :
    Consistent (insertGroup store identifier).1 where
  ids := by
    unfold insertGroup
    rw [List.map_append, List.nodup_append]
    refine ⟨h.ids, List.nodup_singleton _, ?_⟩
    intro id hmem other hother hsame
    rw [List.map_singleton, List.mem_singleton] at hother
    rw [hsame, hother] at hmem
    exact newGroupId_not_mem store.groups hmem
  groups := by
    intro membership hmem
    unfold insertGroup
    rw [List.map_append]
    exact List.mem_append_left _ (h.groups membership hmem)
  unique := h.unique

theorem consistent_ensureGroup (h : Consistent store) (identifier : Text) :
    Consistent (ensureGroup store identifier).1 := by
  rcases ensureGroup_cases store identifier with ⟨group, -, hensured⟩ | ⟨-, hensured⟩
  · rw [hensured]
    exact h
  · rw [hensured]
    exact consistent_insertGroup h identifier

theorem ensureGroup_mem (store : Store) (identifier : Text) :
    (ensureGroup store identifier).2 ∈ (ensureGroup store identifier).1.groups := by
  rcases ensureGroup_cases store identifier with ⟨group, hfound, hensured⟩ | ⟨-, hensured⟩
  · rw [hensured]
    exact mem_of_localGroup hfound
  · rw [hensured]
    exact List.mem_append_right _ (List.mem_singleton_self _)

theorem consistent_assign (h : Consistent store) (userId : Nat) {groupId : Nat}
    (hgroup : groupId ∈ store.groups.map GroupModel.id) :
    Consistent (assign store userId groupId) where
  ids := h.ids
  groups := by
    intro membership hmem
    unfold assign ensureUserGroupAssignment at hmem
    dsimp only at hmem
    split at hmem
    · exact h.groups membership hmem
    · rcases List.mem_append.mp hmem with hold | hnew
      · exact h.groups membership hold
      · rw [List.mem_singleton.mp hnew]
        exact hgroup
  unique := by
    unfold assign ensureUserGroupAssignment
    dsimp only
    split
    · exact h.unique
    · rename_i hnew
      rw [List.nodup_append]
      refine ⟨h.unique, List.nodup_singleton _, ?_⟩
      intro membership hmem other hother hsame
      rw [List.mem_singleton] at hother
      rw [hsame, hother] at hmem
      exact hnew hmem

theorem consistent_deleteLocalAssignment (h : Consistent store) (userId groupId : Nat) :
    Consistent (deleteLocalAssignment store userId groupId) where
  ids := h.ids
  groups := fun membership hmem => h.groups membership (List.mem_of_mem_erase hmem)
  unique := h.unique.erase _

/-- A fold of steps that keep the constraints keeps them. -/
theorem consistent_foldl {step : Store → Text → Store}
    (hstep : ∀ store identifier, Consistent store → Consistent (step store identifier))
    (identifiers : List Text) (h : Consistent store) :
    Consistent (identifiers.foldl step store) := by
  induction identifiers generalizing store with
  | nil => exact h
  | cons identifier identifiers ih => exact ih (hstep store identifier h)

theorem consistent_ensureGroups (h : Consistent store) (identifiers : List Text) :
    Consistent (ensureGroups store identifiers) :=
  consistent_foldl (fun _ identifier h => consistent_ensureGroup h identifier) identifiers h

theorem consistent_addUserToGroup (core : CoreGroups) (h : Consistent store) (userId : Nat)
    (identifier : Text) : Consistent (core.addUserToGroup store userId identifier) := by
  unfold CoreGroups.addUserToGroup
  cases hresolve : core.resolve store.groups identifier with
  | some group =>
      have hmem := (core.resolve_spec _ _ _ hresolve).1
      exact consistent_assign h userId (List.mem_map_of_mem hmem)
  | none =>
      apply consistent_assign (consistent_insertGroup h identifier)
      exact List.mem_map_of_mem (List.mem_append_right _ (List.mem_singleton_self _))

theorem consistent_syncGroups (core : CoreGroups) (h : Consistent store) (userId : Nat)
    (groupIdentifiers : List Text) : Consistent (syncGroups core userId store groupIdentifiers) := by
  apply consistent_foldl ?_ _ h
  intro store identifier h
  have hensured := consistent_ensureGroup h identifier
  unfold syncGroup
  dsimp only
  split
  · exact hensured
  · exact consistent_addUserToGroup core hensured userId _

theorem consistent_syncLocalRoleAssignments (settings : LocalSettings) (h : Consistent store)
    (userId : Nat) (tenantId : Text) (roles : List Text) :
    Consistent (syncLocalRoleAssignments settings userId tenantId roles store) := by
  apply consistent_foldl ?_ _ h
  intro store roleName h
  have hensured := consistent_ensureGroup h (settings.tenantRoleGroup tenantId roleName)
  unfold syncRole
  dsimp only
  split
  · exact consistent_assign hensured userId (List.mem_map_of_mem (ensureGroup_mem _ _))
  · exact consistent_deleteLocalAssignment hensured userId _

theorem consistent_clearLocalTenantAssignments (settings : LocalSettings) (h : Consistent store)
    (userId : Nat) (tenantId : Text) :
    Consistent (clearLocalTenantAssignments settings userId tenantId store) := by
  apply consistent_foldl ?_ _ h
  intro store identifier h
  exact consistent_deleteLocalAssignment (consistent_ensureGroup h identifier) userId _

/-- A rewrite of a row that leaves its id keeps the constraints. -/
theorem consistent_updateAt (h : Consistent store) (id : Nat) {f : GroupModel → GroupModel}
    (hid : ∀ row, (f row).id = row.id) :
    Consistent { store with groups := Table.updateAt GroupModel.id id f store.groups } := by
  have hkeys : (Table.updateAt GroupModel.id id f store.groups).map GroupModel.id =
      store.groups.map GroupModel.id := Table.keys_updateWhere hid store.groups
  refine ⟨?_, ?_, h.unique⟩
  · rw [hkeys]
    exact h.ids
  · intro membership hmem
    rw [hkeys]
    exact h.groups membership hmem

/-- The lane's row is there before the user is assigned to it. -/
theorem consistent_syncLaneGroup (rules : LaneRules) (h : Consistent store) (tenantId : Text)
    (userId : Nat) (identifier : Text) :
    Consistent (syncLaneGroup rules tenantId userId store identifier).1 := by
  unfold syncLaneGroup
  dsimp only
  split
  · exact h
  · -- the groups with the lane's row among them
    have hgroups : ∀ created : GroupModel,
        created.id = rules.laneAssignmentId (laneName identifier) tenantId →
        ∀ groups, groups = (if (Table.lookup GroupModel.id store.groups
            (rules.laneAssignmentId (laneName identifier) tenantId)).isSome then store.groups
          else store.groups ++ [created]) →
        Consistent { store with groups } ∧
          rules.laneAssignmentId (laneName identifier) tenantId ∈ groups.map GroupModel.id := by
      intro created hid groups hgroups
      cases hfound : Table.lookup GroupModel.id store.groups
          (rules.laneAssignmentId (laneName identifier) tenantId) with
      | some group =>
          rw [hfound, Option.isSome_some, if_pos rfl] at hgroups
          rw [hgroups]
          refine ⟨h, ?_⟩
          rw [← Table.key_of_lookup hfound]
          exact List.mem_map_of_mem (Table.mem_of_lookup hfound)
      | none =>
          rw [hfound, Option.isSome_none, if_neg Bool.false_ne_true] at hgroups
          rw [hgroups]
          have hnew : created.id ∉ store.groups.map GroupModel.id := by
            intro hmem
            obtain ⟨group, hin, hsame⟩ := List.mem_map.mp hmem
            have hlookup := Table.lookup_of_mem h.ids hin
            rw [hsame, hid, hfound] at hlookup
            cases hlookup
          refine ⟨⟨?_, ?_, h.unique⟩, ?_⟩
          · rw [List.map_append, List.nodup_append]
            refine ⟨h.ids, List.nodup_singleton _, ?_⟩
            intro id hmem other hother hsame
            rw [List.map_singleton, List.mem_singleton] at hother
            rw [hsame, hother] at hmem
            exact hnew hmem
          · intro membership hmem
            rw [List.map_append]
            exact List.mem_append_left _ (h.groups membership hmem)
          · rw [← hid, List.map_append]
            exact List.mem_append_right _ (List.mem_singleton_self _)
    obtain ⟨hconsistent, hmem⟩ := hgroups
      { id := rules.laneAssignmentId (laneName identifier) tenantId,
        name := laneGroupIdentifier tenantId (laneName identifier),
        identifier := laneGroupIdentifier tenantId (laneName identifier),
        authorizationKey := some (laneAuthorizationKey
          (rules.laneAssignmentId (laneName identifier) tenantId)) } rfl _ rfl
    split
    · exact hconsistent
    · -- the row is renamed under its id
      rename_i adopted hadopted
      have hassigned := consistent_assign hconsistent userId hmem
      exact consistent_updateAt hassigned _ fun row => Eq.refl row.id

theorem consistent_syncLaneGroups (rules : LaneRules) (h : Consistent store) (tenantId : Text)
    (userId : Nat) (laneGroupIdentifiers : List Text) :
    Consistent (syncLaneGroups rules tenantId userId store laneGroupIdentifiers).1 := by
  unfold syncLaneGroups
  induction laneGroupIdentifiers.eraseDups generalizing store with
  | nil => exact h
  | cons identifier identifiers ih =>
      exact ih (consistent_syncLaneGroup rules h tenantId userId identifier)

end Constraints

/-! ## Clearing -/

/-- The group is the row of one of the identifiers of a removal. -/
def LocalSettings.Cleared (settings : LocalSettings) (tenantId : Text) (groups : List GroupModel)
    (group : GroupModel) : Prop :=
  ∃ identifier ∈ settings.clearedIdentifiers tenantId, localGroup groups identifier = some group

instance (settings : LocalSettings) (tenantId : Text) (groups : List GroupModel)
    (group : GroupModel) : Decidable (settings.Cleared tenantId groups group) :=
  inferInstanceAs (Decidable (∃ identifier ∈ settings.clearedIdentifiers tenantId,
    localGroup groups identifier = some group))

theorem nodup_clearedIdentifiers (settings : LocalSettings) (tenantId : Text) :
    (settings.clearedIdentifiers tenantId).Nodup :=
  (List.perm_insertionSort _ _).nodup_iff.mpr (List.nodup_dedup _)

section Clearing

variable {store : Store} {userId : Nat} {identifier : Text}

/-- A clearing step takes away the assignment to the row of its identifier. -/
theorem mem_clearGroup (h : Consistent store) (userId : Nat) (identifier : Text)
    (membership : UserGroupAssignment) :
    membership ∈ (clearGroup userId store identifier).memberships ↔
      membership ∈ store.memberships ∧
        ¬ (membership.userId = userId ∧
          ∃ group, localGroup store.groups identifier = some group ∧
            group.id = membership.groupId) := by
  rcases ensureGroup_cases store identifier with ⟨group, hfound, hensured⟩ | ⟨hnone, hensured⟩
  · have hcleared : (clearGroup userId store identifier).memberships =
        store.memberships.erase ⟨userId, group.id⟩ := by
      unfold clearGroup
      rw [hensured]
      rfl
    rw [hcleared, h.unique.mem_erase_iff, and_comm]
    refine and_congr_right fun _ => not_congr ?_
    constructor
    · intro hsame
      rw [hsame]
      exact ⟨rfl, group, hfound, rfl⟩
    · intro hsame
      obtain ⟨huser, found, hfound', hid⟩ := hsame
      rw [hfound] at hfound'
      rw [← Option.some.inj hfound'] at hid
      rw [hid, ← huser]
  · -- nobody is assigned to the row that is inserted
    have hcleared : (clearGroup userId store identifier).memberships = store.memberships := by
      unfold clearGroup
      rw [hensured]
      apply List.erase_of_not_mem
      intro hmem
      exact insertGroup_id store identifier (h.groups _ hmem)
    rw [hcleared, hnone]
    constructor
    · intro hmem
      refine ⟨hmem, ?_⟩
      intro hsame
      obtain ⟨-, found, hfound, -⟩ := hsame
      cases hfound
    · exact fun hmem => hmem.1

/-- A clearing step inserts at most the row of its identifier. -/
theorem groups_clearGroup (userId : Nat) (store : Store) (identifier : Text) :
    (clearGroup userId store identifier).groups = store.groups ∨
      (clearGroup userId store identifier).groups =
        store.groups ++ [(insertGroup store identifier).2] := by
  unfold clearGroup
  rcases ensureGroup_cases store identifier with ⟨group, hfound, hensured⟩ | ⟨hnone, hensured⟩
  · rw [hensured]
    exact Or.inl rfl
  · rw [hensured]
    exact Or.inr rfl

/-- The row of another identifier is found as before. -/
theorem localGroup_clearGroup (userId : Nat) (store : Store) {identifier other : Text}
    (hother : other ≠ identifier) :
    localGroup (clearGroup userId store identifier).groups other = localGroup store.groups other := by
  rcases groups_clearGroup userId store identifier with hsame | hinserted
  · rw [hsame]
  · rw [hinserted]
    apply localGroup_append
    · exact fun hidentifier => hother hidentifier.symm
    · intro hkey
      exact hother (groupAuthorizationKey_injective (Option.some.inj hkey)).symm

theorem groups_foldl_clearGroup (userId : Nat) (identifiers : List Text) (store : Store) :
    ∃ rows, (identifiers.foldl (clearGroup userId) store).groups = store.groups ++ rows := by
  induction identifiers generalizing store with
  | nil => exact ⟨[], (List.append_nil _).symm⟩
  | cons identifier identifiers ih =>
      obtain ⟨rows, hrows⟩ := ih (clearGroup userId store identifier)
      rw [List.foldl_cons, hrows]
      rcases groups_clearGroup userId store identifier with hsame | hinserted
      · exact ⟨rows, by rw [hsame]⟩
      · exact ⟨(insertGroup store identifier).2 :: rows, by rw [hinserted, List.append_assoc, List.singleton_append]⟩

/-- Clearing takes away the assignments of the user to the rows of the identifiers. -/
theorem mem_foldl_clearGroup (h : Consistent store) (userId : Nat) {identifiers : List Text}
    (hnodup : identifiers.Nodup) (membership : UserGroupAssignment) :
    membership ∈ (identifiers.foldl (clearGroup userId) store).memberships ↔
      membership ∈ store.memberships ∧
        ¬ (membership.userId = userId ∧
          ∃ identifier ∈ identifiers, ∃ group,
            localGroup store.groups identifier = some group ∧ group.id = membership.groupId) := by
  induction identifiers generalizing store with
  | nil => simp
  | cons identifier identifiers ih =>
      obtain ⟨hnew, hrest⟩ := List.nodup_cons.mp hnodup
      have hconsistent : Consistent (clearGroup userId store identifier) :=
        consistent_deleteLocalAssignment (consistent_ensureGroup h identifier) userId _
      have hlater : (∃ other ∈ identifiers, ∃ group,
            localGroup (clearGroup userId store identifier).groups other = some group ∧
              group.id = membership.groupId) ↔
          ∃ other ∈ identifiers, ∃ group, localGroup store.groups other = some group ∧
            group.id = membership.groupId := by
        refine exists_congr fun other => and_congr_right fun hmem => ?_
        have hother : other ≠ identifier := by
          intro hsame
          rw [hsame] at hmem
          exact hnew hmem
        rw [localGroup_clearGroup userId store hother]
      rw [List.foldl_cons, ih hconsistent hrest, mem_clearGroup h, hlater, List.exists_mem_cons_iff,
        and_assoc, ← not_or, ← and_or_left]

/-- What `_clear_local_tenant_assignments` does: the groups of the removed user are the ones
that are not the row of a role of the tenant or of the default group. -/
theorem clear_effect (settings : LocalSettings) (h : Consistent store) (userId : Nat)
    (tenantId : Text) (other : Nat) (group : GroupModel) :
    group ∈ (clearLocalTenantAssignments settings userId tenantId store).groupsOf other ↔
      group ∈ store.groupsOf other ∧
        ¬ (other = userId ∧ settings.Cleared tenantId store.groups group) := by
  unfold clearLocalTenantAssignments
  rw [mem_groupsOf, mem_groupsOf,
    mem_foldl_clearGroup h userId (nodup_clearedIdentifiers settings tenantId)]
  obtain ⟨rows, hrows⟩ :=
    groups_foldl_clearGroup userId (settings.clearedIdentifiers tenantId) store
  -- the row of an assigned group is found before and after
  have hlookup : ⟨other, group.id⟩ ∈ store.memberships →
      Table.lookup GroupModel.id ((settings.clearedIdentifiers tenantId).foldl
        (clearGroup userId) store).groups group.id =
      Table.lookup GroupModel.id store.groups group.id := by
    intro hmem
    obtain ⟨row, hin, hid⟩ := List.mem_map.mp (h.groups _ hmem)
    have hfound := Table.lookup_of_mem h.ids hin
    rw [hid] at hfound
    rw [hrows, Table.lookup_append, hfound]
    rfl
  -- a row with the id of the group is the group
  have hcleared : Table.lookup GroupModel.id store.groups group.id = some group →
      ((∃ identifier ∈ settings.clearedIdentifiers tenantId, ∃ found,
          localGroup store.groups identifier = some found ∧ found.id = group.id) ↔
        settings.Cleared tenantId store.groups group) := by
    intro hgroup
    refine exists_congr fun identifier => and_congr_right fun _ => ?_
    constructor
    · intro hfound
      obtain ⟨found, hlocal, hid⟩ := hfound
      have hrow := Table.lookup_of_mem h.ids (mem_of_localGroup hlocal)
      rw [hid, hgroup] at hrow
      rw [hlocal, Option.some.inj hrow]
    · exact fun hlocal => ⟨group, hlocal, rfl⟩
  constructor
  · intro hafter
    obtain ⟨⟨hmem, hnot⟩, hfound⟩ := hafter
    rw [hlookup hmem] at hfound
    rw [hcleared hfound] at hnot
    exact ⟨⟨hmem, hfound⟩, hnot⟩
  · intro hbefore
    obtain ⟨⟨hmem, hfound⟩, hnot⟩ := hbefore
    refine ⟨⟨hmem, ?_⟩, ?_⟩
    · rw [hcleared hfound]
      exact hnot
    · rw [hlookup hmem]
      exact hfound

end Clearing

end M8flow.Identity
