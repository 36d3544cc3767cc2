import M8flow.Authorization.Uri

/-!
# What a user holds

An assignment belongs to a principal; what it says is its permission, its grant
type and its target.  A user holds what the assignments of the own principal say,
and those of the groups that count in the active tenant.

- `resourcePermitted_iff`: a request is permitted if an assignment that the user
  holds applies to it, and none that applies is a denial.
- `mem_activeTenantGroups`: with an active tenant, the groups that count are the
  global ones and those with one of the tenant's identifiers before the first colon.
- `allowWithGroups_home`, `allowWithGroups_superAdmin`, `allowWithGroups_other`: what
  the answer is made of, in the three cases.
-/

namespace M8flow.Authorization

open M8flow.Auth M8flow.Identity M8flow.Lib

/-- `actor_is_super_admin` for the groups that the store gives the user. -/
def superAdminIn (context : Context) (store : Store) (user : UserModel) : Bool :=
  actorIsSuperAdmin
    (some { user with groups := (store.groupsOf user.id).map GroupModel.identifier })
    context.claims

/-- The user's own principal has an assignment that says this. -/
def Grants.OwnHolds (grants : Grants) (userId : Nat) (assignment : PermissionAssignment) : Prop :=
  ∃ principal,
    (grants.principals.find? fun principal => principal.userId = some userId) = some principal ∧
      { assignment with principalId := principal.id } ∈ grants.assignments

/-- A principal of the group has an assignment that says this. -/
def Grants.GroupHolds (grants : Grants) (groupId : Nat) (assignment : PermissionAssignment) :
    Prop :=
  ∃ principal ∈ grants.principals, principal.groupId = some groupId ∧
    { assignment with principalId := principal.id } ∈ grants.assignments

/-- The user holds what the assignment says, alone or by a group that counts. -/
def Holds (tenantIds : List Text) (grants : Grants) (userId : Nat) (groups : List GroupModel)
    (assignment : PermissionAssignment) : Prop :=
  grants.OwnHolds userId assignment ∨
    ∃ group ∈ activeTenantGroups tenantIds groups, grants.GroupHolds group.id assignment

/-- The assignment denies. -/
def PermissionAssignment.Denies (assignment : PermissionAssignment) : Prop :=
  assignment.grantType = "deny".toList

instance (assignment : PermissionAssignment) : Decidable assignment.Denies :=
  inferInstanceAs (Decidable (_ = _))

section Held

variable {tenantIds : List Text} {grants : Grants} {userId : Nat} {groups : List GroupModel}

/-- With an active tenant the groups count by their identifiers. -/
theorem mem_activeTenantGroups (hids : tenantIds ≠ []) {group : GroupModel} :
    group ∈ activeTenantGroups tenantIds groups ↔
      group ∈ groups ∧ countsInTenant tenantIds group.identifier := by
  unfold activeTenantGroups
  rw [if_neg hids, List.mem_filter]

theorem activeTenantGroups_subset {group : GroupModel}
    (h : group ∈ activeTenantGroups tenantIds groups) : group ∈ groups := by
  unfold activeTenantGroups at h
  split at h
  · exact h
  · exact (List.mem_filter.mp h).1

theorem mem_principalIds {id : Nat} :
    id ∈ principalIds tenantIds grants userId groups ↔
      (∃ principal,
        (grants.principals.find? fun principal => principal.userId = some userId) =
          some principal ∧ principal.id = id) ∨
      ∃ group ∈ activeTenantGroups tenantIds groups,
        ∃ principal ∈ grants.principals, principal.groupId = some group.id ∧ principal.id = id := by
  unfold principalIds
  dsimp only
  rw [List.mem_append, Option.mem_toList, Option.map_eq_some_iff, List.mem_map]
  apply or_congr Iff.rfl
  constructor
  · intro h
    obtain ⟨principal, hmem, hid⟩ := h
    obtain ⟨hprincipal, hany⟩ := List.mem_filter.mp hmem
    obtain ⟨group, hgroup, hsame⟩ := List.any_eq_true.mp hany
    exact ⟨group, hgroup, principal, hprincipal, of_decide_eq_true hsame, hid⟩
  · intro h
    obtain ⟨group, hgroup, principal, hprincipal, hsame, hid⟩ := h
    have hany : (activeTenantGroups tenantIds groups).any
        (fun group => principal.groupId = some group.id) :=
      List.any_eq_true.mpr ⟨group, hgroup, decide_eq_true hsame⟩
    exact ⟨principal, List.mem_filter.mpr ⟨hprincipal, hany⟩, hid⟩

/-- The assignments that are looked at are those that the user holds. -/
theorem holds_of_mem {assignment : PermissionAssignment} (hmem : assignment ∈ grants.assignments)
    (hid : assignment.principalId ∈ principalIds tenantIds grants userId groups) :
    Holds tenantIds grants userId groups assignment := by
  rcases mem_principalIds.mp hid with hown | hgroup
  · obtain ⟨principal, hfound, hsame⟩ := hown
    refine Or.inl ⟨principal, hfound, ?_⟩
    rw [hsame]
    exact hmem
  · obtain ⟨group, hgroup, principal, hprincipal, hof, hsame⟩ := hgroup
    refine Or.inr ⟨group, hgroup, principal, hprincipal, hof, ?_⟩
    rw [hsame]
    exact hmem

theorem mem_of_holds {assignment : PermissionAssignment}
    (h : Holds tenantIds grants userId groups assignment) :
    ∃ id ∈ principalIds tenantIds grants userId groups,
      { assignment with principalId := id } ∈ grants.assignments := by
  rcases h with hown | hgroup
  · obtain ⟨principal, hfound, hmem⟩ := hown
    exact ⟨principal.id, mem_principalIds.mpr (Or.inl ⟨principal, hfound, rfl⟩), hmem⟩
  · obtain ⟨group, hgroup, principal, hprincipal, hof, hmem⟩ := hgroup
    exact ⟨principal.id,
      mem_principalIds.mpr (Or.inr ⟨group, hgroup, principal, hprincipal, hof, rfl⟩), hmem⟩

/-- What holds of what some held assignment says holds of an assignment that is looked at. -/
theorem exists_holds_iff {p : PermissionAssignment → Prop}
    (hp : ∀ assignment id, p { assignment with principalId := id } ↔ p assignment) :
    (∃ assignment, Holds tenantIds grants userId groups assignment ∧ p assignment) ↔
      ∃ assignment ∈ grants.assignments,
        assignment.principalId ∈ principalIds tenantIds grants userId groups ∧ p assignment := by
  constructor
  · intro h
    obtain ⟨assignment, hheld, hmeets⟩ := h
    obtain ⟨id, hid, hmem⟩ := mem_of_holds hheld
    exact ⟨_, hmem, hid, (hp assignment id).mpr hmeets⟩
  · intro h
    obtain ⟨assignment, hmem, hid, hmeets⟩ := h
    exact ⟨assignment, holds_of_mem hmem hid, hmeets⟩

/-- A request is permitted where an assignment applies and none that applies denies. -/
theorem resourcePermitted_iff {request : ResourceRequest} :
    resourcePermitted tenantIds grants userId groups request ↔
      (∃ assignment, Holds tenantIds grants userId groups assignment ∧
        assignment.applies request) ∧
      ¬ ∃ assignment, Holds tenantIds grants userId groups assignment ∧
        (assignment.applies request ∧ assignment.Denies) := by
  rw [exists_holds_iff (p := fun assignment => assignment.applies request) fun _ _ => Iff.rfl,
    exists_holds_iff (p := fun assignment => assignment.applies request ∧ assignment.Denies)
      fun _ _ => Iff.rfl]
  unfold resourcePermitted PermissionAssignment.Denies
  dsimp only
  rw [Bool.and_eq_true, decide_eq_true_eq, List.all_eq_true]
  constructor
  · intro h
    obtain ⟨hsome, hnone⟩ := h
    constructor
    · obtain ⟨assignment, hmem⟩ := List.exists_mem_of_ne_nil _ hsome
      obtain ⟨hin, happlies⟩ := List.mem_filter.mp hmem
      rw [Bool.and_eq_true, decide_eq_true_eq] at happlies
      exact ⟨assignment, hin, happlies⟩
    · intro hdenied
      obtain ⟨assignment, hin, hid, happlies, hdeny⟩ := hdenied
      have hmem := hnone assignment (List.mem_filter.mpr ⟨hin, by
        rw [Bool.and_eq_true, decide_eq_true_eq]
        exact ⟨hid, happlies⟩⟩)
      exact absurd hdeny (of_decide_eq_true hmem)
  · intro h
    obtain ⟨hsome, hnone⟩ := h
    constructor
    · obtain ⟨assignment, hin, hid, happlies⟩ := hsome
      apply List.ne_nil_of_mem (a := assignment)
      rw [List.mem_filter, Bool.and_eq_true, decide_eq_true_eq]
      exact ⟨hin, hid, happlies⟩
    · intro assignment hmem
      obtain ⟨hin, happlies⟩ := List.mem_filter.mp hmem
      rw [Bool.and_eq_true, decide_eq_true_eq] at happlies
      exact decide_eq_true fun hdeny => hnone ⟨assignment, hin, happlies.1, happlies.2, hdeny⟩

end Held

/-! ## The parts of an answer -/

/-- The path whose answer is a grant alone. -/
def homeTaskCountPath : Text := "/m8flow/home-task-count".toList

/-- What a method on a path is asked as. -/
def requestTarget (context : Context) (method path : Text) : Action × Text :=
  lifecycleRequest (methodToAction context.casing method) (normalizeAuthorizationPath path)

/-- What the permission store is asked for. -/
def tenantRequest (target : Action × Text) : ResourceRequest where
  action := target.1
  resourceType := "tenant".toList
  resourceId := target.2
  command := none
  allowLegacyCommandless := false

/-- The action writes. -/
def Action.Writes (action : Action) : Prop :=
  action = .create ∨ action = .update ∨ action = .delete

instance (action : Action) : Decidable action.Writes := inferInstanceAs (Decidable (_ ∨ _ ∨ _))

/-- The request creates, updates or deletes below the process models. -/
def WritesProcessModels (target : Action × Text) : Prop :=
  target.1.Writes ∧ "/process-models".toList.isPrefixOf target.2

instance (target : Action × Text) : Decidable (WritesProcessModels target) :=
  inferInstanceAs (Decidable (_ ∧ _))

/-- Super-admins are not given the request by being super-admins. -/
def WithheldFromSuperAdmin (target : Action × Text) : Prop :=
  (target.1 = .create ∧ isTaskReviewSubmit target.2) ∨
    (target.1.Writes ∧ "/m8flow/nats-tokens".toList.isPrefixOf target.2)

instance (target : Action × Text) : Decidable (WithheldFromSuperAdmin target) :=
  inferInstanceAs (Decidable (_ ∨ _))

/-- The fallback may be asked about the path. -/
def fallbackOpen (groupFallback : Bool) (path : Text) : Bool :=
  groupFallback && !noGroupFallbackPrefixes.any fun pathPrefix => pathPrefix.isPrefixOf path

/-- An action's name is read as the action. -/
theorem methodToAction_name (casing : Casing) (action : Action) :
    methodToAction casing action.name = action := by
  have hascii : Text.isAscii action.name.strip = true := by cases action <;> decide
  unfold methodToAction
  rw [casing.upper_ascii _ hascii, casing.lower_ascii _ hascii]
  cases action <;> decide

section Answer

variable {context : Context} {grants : Grants} {user : UserModel} {groups : List GroupModel}
  {method path : Text} (session groupFallback : Bool)

theorem allowWithGroups_home (hpath : normalizeAuthorizationPath path = homeTaskCountPath) :
    allowWithGroups context grants user groups method path session groupFallback =
      (session && resourcePermitted context.tenantIds grants user.id groups
        (tenantRequest (methodToAction context.casing method, homeTaskCountPath))) := by
  unfold homeTaskCountPath at hpath
  unfold allowWithGroups
  dsimp only
  rw [hpath, if_pos rfl]
  rfl

theorem allowWithGroups_superAdmin (hpath : normalizeAuthorizationPath path ≠ homeTaskCountPath)
    (hsuper : actorIsSuperAdmin (some { user with groups := groups.map GroupModel.identifier })
      context.claims = true) :
    allowWithGroups context grants user groups method path session groupFallback =
      !decide (WithheldFromSuperAdmin (requestTarget context method path)) := by
  unfold homeTaskCountPath at hpath
  unfold allowWithGroups requestTarget
  dsimp only
  rw [if_neg hpath, hsuper]
  generalize lifecycleRequest _ _ = target
  by_cases hsubmit : target.1 = .create ∧ isTaskReviewSubmit target.2
  · have hwithheld : WithheldFromSuperAdmin target := Or.inl hsubmit
    rw [if_pos ⟨hsubmit.1, hsubmit.2, rfl⟩, decide_eq_true hwithheld]
    rfl
  · rw [if_neg (fun h => hsubmit ⟨h.1, h.2.1⟩)]
    by_cases htokens : target.1.Writes ∧ "/m8flow/nats-tokens".toList.isPrefixOf target.2
    · have hwithheld : WithheldFromSuperAdmin target := Or.inr htokens
      rw [if_pos ⟨htokens.1, htokens.2, rfl⟩, decide_eq_true hwithheld]
      rfl
    · have hgiven : ¬ WithheldFromSuperAdmin target := not_or.mpr ⟨hsubmit, htokens⟩
      rw [if_neg (fun h => htokens ⟨h.1, h.2.1⟩), if_pos rfl, decide_eq_false hgiven]
      rfl

/-- The answer to who is not a super-admin: the guard of the process models, the grants,
and the fallback. -/
theorem allowWithGroups_other (hpath : normalizeAuthorizationPath path ≠ homeTaskCountPath)
    (hsuper : actorIsSuperAdmin (some { user with groups := groups.map GroupModel.identifier })
      context.claims = false) :
    allowWithGroups context grants user groups method path session groupFallback =
      (!(decide (WritesProcessModels (requestTarget context method path)) &&
          hasReadOnlyRole context.tenantIds groups) &&
        ((session && resourcePermitted context.tenantIds grants user.id groups
            (tenantRequest (requestTarget context method path))) ||
          (fallbackOpen groupFallback (requestTarget context method path).2 &&
            groupIdentifierFallback context groups (requestTarget context method path).2
              (some (requestTarget context method path).1.name)))) := by
  unfold homeTaskCountPath at hpath
  unfold allowWithGroups requestTarget fallbackOpen tenantRequest
  dsimp only
  rw [if_neg hpath, hsuper]
  generalize lifecycleRequest _ _ = target
  have hnot : ∀ p q : Prop, ¬ (p ∧ q ∧ false = true) := fun _ _ h => Bool.false_ne_true h.2.2
  rw [if_neg (hnot _ _), if_neg (hnot _ _), if_neg Bool.false_ne_true]
  by_cases hwrites : WritesProcessModels target
  · rw [decide_eq_true hwrites]
    cases hasReadOnlyRole context.tenantIds groups with
    | true =>
        rw [if_pos ⟨hwrites.1, hwrites.2, rfl⟩]
        rfl
    | false => rw [if_neg (hnot _ _), Bool.and_false, Bool.not_false, Bool.true_and]
  · rw [if_neg (fun h => hwrites ⟨h.1, h.2.1⟩), decide_eq_false hwrites, Bool.false_and,
      Bool.not_false, Bool.true_and]

end Answer

end M8flow.Authorization
