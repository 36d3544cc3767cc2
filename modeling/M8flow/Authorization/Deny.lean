import M8flow.Authorization.Held

/-!
# Denials

`_resource_permitted` answers no as soon as an assignment that applies is a denial,
and it answers no where nothing is granted.  `allow_uri` asks the identifier
fallback after either answer.

- `groupIdentifierFallback_iff`: the roles that the fallback goes by.
- `denied_iff`: a request that a held assignment denies is refused exactly if the
  fallback is not asked, or finds no role that it goes by.
- `denied_and_allowed`: a tenant-admin is allowed what an assignment denies.
-/

namespace M8flow.Authorization

open M8flow.Auth M8flow.Identity M8flow.Lib

/-- The request is one that a held assignment denies. -/
def Denied (context : Context) (grants : Grants) (user : UserModel) (groups : List GroupModel)
    (target : Action × Text) : Prop :=
  ∃ assignment, Holds context.tenantIds grants user.id groups assignment ∧
    (assignment.applies (tenantRequest target) ∧ assignment.Denies)

/-- The path is read as one of tasks, or of the onboarding. -/
def isTasksPath (path : Text) : Bool :=
  Text.hasInfix "/onboarding".toList path || "/tasks".toList.isSuffixOf path ||
    Text.hasInfix "/tasks".toList path

/-- The request reads the instances of the whole tenant. -/
def ReadsTenantInstances (target : Action × Text) : Prop :=
  target.1 = .read ∧ normalizeAuthorizationPath target.2 = tenantWideInstanceReadPath

instance (target : Action × Text) : Decidable (ReadsTenantInstances target) :=
  inferInstanceAs (Decidable (_ ∧ _))

/-- A group that counts has a role that the fallback goes by. -/
def HasFallbackRole (context : Context) (groups : List GroupModel) (target : Action × Text) :
    Prop :=
  ∃ group ∈ activeTenantGroups context.tenantIds groups,
    endsInRole "tenant-admin" group.identifier ∨
      (¬ ReadsTenantInstances target ∧ endsInRole "editor" group.identifier) ∨
      (isTasksPath target.2 ∧ (endsInRole "reviewer" group.identifier ∨
        endsInRole "editor" group.identifier ∨ endsInRole "user" group.identifier))

section Deny

variable {context : Context} {grants : Grants} {user : UserModel} {groups : List GroupModel}

/-- Who is not a super-admin has no group with the platform's own identifier. -/
theorem no_superAdmin_group
    (hsuper : actorIsSuperAdmin (some { user with groups := groups.map GroupModel.identifier })
      context.claims = false) {group : GroupModel} (hmem : group ∈ groups) :
    group.identifier ≠ superAdminRole := by
  intro hsame
  have hcontains : (groups.map GroupModel.identifier).contains superAdminRole = true := by
    rw [List.contains_iff_mem, List.mem_map]
    exact ⟨group, hmem, hsame⟩
  unfold actorIsSuperAdmin at hsuper
  rw [Option.any_some, Bool.or_eq_false_iff, hcontains] at hsuper
  exact Bool.false_ne_true hsuper.1.symm

theorem groupIdentifierFallback_iff
    (hsuper : actorIsSuperAdmin (some { user with groups := groups.map GroupModel.identifier })
      context.claims = false) (target : Action × Text) :
    groupIdentifierFallback context groups target.2 (some target.1.name) ↔
      HasFallbackRole context groups target := by
  have hglobal : (activeTenantGroups context.tenantIds groups).any
      (fun group => group.identifier = superAdminRole) = false := by
    rw [List.any_eq_false]
    intro group hactive hsame
    exact no_superAdmin_group hsuper (activeTenantGroups_subset hactive) (of_decide_eq_true hsame)
  have haction : (((some target.1.name).map (methodToAction context.casing)).getD .read) =
      target.1 := methodToAction_name context.casing target.1
  unfold groupIdentifierFallback HasFallbackRole ReadsTenantInstances isTasksPath
  dsimp only
  rw [hglobal, haction]
  simp only [Bool.false_or, Bool.or_eq_true, Bool.and_eq_true, List.any_eq_true, Bool.not_eq_true',
    decide_eq_false_iff_not]
  constructor
  · intro h
    rcases h with (hadmin | heditor) | htasks
    · obtain ⟨group, hmem, hends⟩ := hadmin
      exact ⟨group, hmem, Or.inl hends⟩
    · obtain ⟨hother, group, hmem, hends⟩ := heditor
      exact ⟨group, hmem, Or.inr (Or.inl ⟨hother, hends⟩)⟩
    · obtain ⟨hpath, hroles⟩ := htasks
      rcases hroles with (hreviewer | heditor) | huser
      · obtain ⟨group, hmem, hends⟩ := hreviewer
        exact ⟨group, hmem, Or.inr (Or.inr ⟨hpath, Or.inl hends⟩)⟩
      · obtain ⟨group, hmem, hends⟩ := heditor
        exact ⟨group, hmem, Or.inr (Or.inr ⟨hpath, Or.inr (Or.inl hends)⟩)⟩
      · obtain ⟨group, hmem, hends⟩ := huser
        exact ⟨group, hmem, Or.inr (Or.inr ⟨hpath, Or.inr (Or.inr hends)⟩)⟩
  · intro h
    obtain ⟨group, hmem, hrole⟩ := h
    rcases hrole with hadmin | heditor | htasks
    · exact Or.inl (Or.inl ⟨group, hmem, hadmin⟩)
    · exact Or.inl (Or.inr ⟨heditor.1, group, hmem, heditor.2⟩)
    · obtain ⟨hpath, hreviewer | heditor | huser⟩ := htasks
      · exact Or.inr ⟨hpath, Or.inl (Or.inl ⟨group, hmem, hreviewer⟩)⟩
      · exact Or.inr ⟨hpath, Or.inl (Or.inr ⟨group, hmem, heditor⟩)⟩
      · exact Or.inr ⟨hpath, Or.inr ⟨group, hmem, huser⟩⟩

/-- What a held assignment denies, the store does not permit. -/
theorem resourcePermitted_of_denied {target : Action × Text}
    (h : Denied context grants user groups target) :
    resourcePermitted context.tenantIds grants user.id groups (tenantRequest target) = false := by
  rw [← Bool.not_eq_true, resourcePermitted_iff]
  intro hpermitted
  exact hpermitted.2 h

theorem requestTarget_home {method path : Text}
    (hpath : normalizeAuthorizationPath path = homeTaskCountPath) :
    requestTarget context method path =
      (methodToAction context.casing method, homeTaskCountPath) := by
  have hroute : lifecycleTarget homeTaskCountPath = none := by decide
  unfold requestTarget lifecycleRequest
  rw [hpath, hroute]

end Deny

/-- What decides about a request that a held assignment denies, for who is not a
super-admin: it is refused exactly if it is about the task count of the home page, or the
guard of the process models refuses it, or the fallback is switched off by the caller or for
the path, or no group that counts has a role that the fallback goes by. -/
theorem denied_iff (context : Context) (store : Store) (user : UserModel) (method path : Text)
    (session groupFallback : Bool)
    (hsuper : actorIsSuperAdmin
      (some { user with groups := (store.groupsOf user.id).map GroupModel.identifier })
      context.claims = false)
    (hdenied : Denied context store.grants user (store.groupsOf user.id)
      (requestTarget context method path)) :
    allowUri context store (some user) method path session groupFallback = false ↔
      normalizeAuthorizationPath path = homeTaskCountPath ∨
        (WritesProcessModels (requestTarget context method path) ∧
          hasReadOnlyRole context.tenantIds (store.groupsOf user.id)) ∨
        groupFallback = false ∨
        (∃ pathPrefix ∈ noGroupFallbackPrefixes,
          pathPrefix.isPrefixOf (requestTarget context method path).2) ∨
        ¬ HasFallbackRole context (store.groupsOf user.id) (requestTarget context method path) := by
  have hstore := resourcePermitted_of_denied hdenied
  show allowWithGroups context store.grants user (store.groupsOf user.id) method path session
    groupFallback = false ↔ _
  by_cases hpath : normalizeAuthorizationPath path = homeTaskCountPath
  · rw [requestTarget_home hpath] at hstore
    rw [allowWithGroups_home _ _ hpath, hstore, Bool.and_false]
    exact iff_of_true rfl (Or.inl hpath)
  · rw [allowWithGroups_other _ _ hpath hsuper, hstore, Bool.and_false, Bool.false_or,
      ← groupIdentifierFallback_iff hsuper]
    unfold fallbackOpen
    simp only [Bool.and_eq_false_iff, Bool.not_eq_false', Bool.and_eq_true, decide_eq_true_eq,
      List.any_eq_true, hpath, false_or, Bool.not_eq_true, or_assoc]

/-! ## A denial that a role overrides -/

/-- A denial of everything on one path. -/
def payrollDenial : PermissionAssignment where
  principalId := 0
  permission := "all".toList
  grantType := "deny".toList
  target := some ⟨some "tenant".toList, some "/process-models/payroll".toList, none, none⟩

/-- A user with a tenant-admin's group, and the denial as the user's own. -/
def deniedAdminStore : Store where
  groups := [⟨1, "tenant-admin".toList, "t1:tenant-admin".toList, none⟩]
  memberships := [⟨7, 1⟩]
  grants := { principals := [⟨0, some 7, none⟩], assignments := [payrollDenial] }

/-- A request in the tenant. -/
def payrollContext : Context where
  casing := Casing.ascii
  tenants := [⟨"t1".toList, "acme".toList⟩]
  current := some "t1".toList
  claims := none

def payrollUser : UserModel :=
  ⟨7, "ann".toList, "realm".toList, "s7".toList, none, none, none, none, []⟩

theorem payroll_denied : Denied payrollContext deniedAdminStore.grants payrollUser
    (deniedAdminStore.groupsOf 7)
    (requestTarget payrollContext "GET".toList "/v1.0/process-models/payroll".toList) :=
  ⟨payrollDenial, Or.inl ⟨⟨0, some 7, none⟩, rfl, List.mem_singleton_self _⟩, by decide, rfl⟩

/-- Without the fallback the denial stands. -/
theorem denied_payroll_refused :
    allowUri payrollContext deniedAdminStore (some payrollUser) "GET".toList
      "/v1.0/process-models/payroll".toList true false = false :=
  (denied_iff _ _ _ _ _ _ _ (by decide) payroll_denied).mpr (Or.inr (Or.inr (Or.inl rfl)))

/-- A tenant-admin reads what the user's own assignment denies. -/
theorem denied_and_allowed :
    superAdminRole ∉ (deniedAdminStore.groupsOf 7).map GroupModel.identifier ∧
      Denied payrollContext deniedAdminStore.grants payrollUser (deniedAdminStore.groupsOf 7)
        (requestTarget payrollContext "GET".toList "/v1.0/process-models/payroll".toList) ∧
      allowUri payrollContext deniedAdminStore (some payrollUser) "GET".toList
        "/v1.0/process-models/payroll".toList true true = true :=
  ⟨by decide, payroll_denied, by decide⟩

end M8flow.Authorization
