import M8flow.Authorization.Held

/-!
# Other tenants' groups

Which groups count for a request is decided by the part of the identifier before
the first colon.  `AgreesInTenant` relates two stores that tell the same of a user
and of the groups that count, whatever else they hold.

- `allowUri_congr`: related stores give the same answer, if the guard of the
  process models reads only groups that count, or does not run.
- `other_tenants_do_not_matter_iff`: related stores always give the same answer
  exactly if what a tenant identifier has before its first colon is a tenant
  identifier too, or the request does not write process models.
- `other_tenant_decides`: with the tenant `a:b`, a group of the tenant `a` decides.
-/

namespace M8flow.Authorization

open M8flow.Auth M8flow.Identity M8flow.Lib

/-- The stores agree on the user's super-admin status and own assignments, on the
groups that count in the active tenant, the user's memberships in them, and the
assignments of those that the user is in. -/
structure AgreesInTenant (context : Context) (user : UserModel) (store store' : Store) :
    Prop where
  superAdmin : superAdminIn context store user = superAdminIn context store' user
  own : ∀ assignment,
    store.grants.OwnHolds user.id assignment ↔ store'.grants.OwnHolds user.id assignment
  groups : ∀ group : GroupModel, countsInTenant context.tenantIds group.identifier →
    (Table.lookup GroupModel.id store.groups group.id = some group ↔
      Table.lookup GroupModel.id store'.groups group.id = some group)
  memberships : ∀ group : GroupModel, countsInTenant context.tenantIds group.identifier →
    Table.lookup GroupModel.id store.groups group.id = some group →
    (⟨user.id, group.id⟩ ∈ store.memberships ↔ ⟨user.id, group.id⟩ ∈ store'.memberships)
  assignments : ∀ group : GroupModel, countsInTenant context.tenantIds group.identifier →
    group ∈ store.groupsOf user.id → ∀ assignment,
    (store.grants.GroupHolds group.id assignment ↔ store'.grants.GroupHolds group.id assignment)

/-- The verified claims make the user a super-admin. -/
def claimsGrantSuperAdmin (context : Context) (user : UserModel) : Bool :=
  context.claims.any fun claims =>
    actorMatchesVerifiedClaims user claims && claims.roles.contains superAdminRole

/-- What a tenant identifier has before its first colon is a tenant identifier. -/
def PrefixClosed (tenantIds : List Text) : Prop :=
  ∀ identifier ∈ tenantIds, (identifier.partition ':').1 ∈ tenantIds

/-- A group that the guard of the process models reads counts in the tenant. -/
theorem countsInTenant_of_readByGuard {tenantIds : List Text} (hclosed : PrefixClosed tenantIds)
    {identifier : Text} (h : readByGuard tenantIds identifier) :
    countsInTenant tenantIds identifier := by
  unfold readByGuard at h
  unfold countsInTenant
  by_cases hcolon : ':' ∈ identifier
  · obtain ⟨before, rest, hrest, hsame⟩ := Text.exists_eq_around_last hcolon
    have hguard : (identifier.rpartition ':').1 ∈ tenantIds := by simpa [hcolon] using h
    rw [hsame, Text.rpartition_append hrest] at hguard
    have hcounts : (identifier.partition ':').1 ∈ tenantIds := by
      rw [hsame, Text.partition_append_fst]
      exact hclosed before hguard
    simp [hcounts]
  · simp [hcolon]

/-! ## Related stores -/

section Agreement

variable {context : Context} {user : UserModel} {store store' : Store}

theorem AgreesInTenant.mem_groupsOf (h : AgreesInTenant context user store store')
    {group : GroupModel} (hcounts : countsInTenant context.tenantIds group.identifier) :
    group ∈ store.groupsOf user.id ↔ group ∈ store'.groupsOf user.id := by
  rw [Authorization.mem_groupsOf, Authorization.mem_groupsOf]
  constructor
  · intro hmem
    exact ⟨(h.memberships group hcounts hmem.2).mp hmem.1, (h.groups group hcounts).mp hmem.2⟩
  · intro hmem
    have hrow := (h.groups group hcounts).mpr hmem.2
    exact ⟨(h.memberships group hcounts hrow).mpr hmem.1, hrow⟩

/-- A test that only groups that count meet does not tell the stores apart. -/
theorem AgreesInTenant.any_groupsOf (h : AgreesInTenant context user store store')
    {p : GroupModel → Bool}
    (hp : ∀ group, p group → countsInTenant context.tenantIds group.identifier) :
    (store.groupsOf user.id).any p = (store'.groupsOf user.id).any p := by
  rw [Bool.eq_iff_iff, List.any_eq_true, List.any_eq_true]
  constructor
  · intro hany
    obtain ⟨group, hmem, hmeets⟩ := hany
    exact ⟨group, (h.mem_groupsOf (hp group hmeets)).mp hmem, hmeets⟩
  · intro hany
    obtain ⟨group, hmem, hmeets⟩ := hany
    exact ⟨group, (h.mem_groupsOf (hp group hmeets)).mpr hmem, hmeets⟩

theorem AgreesInTenant.any_active (h : AgreesInTenant context user store store')
    (hids : context.tenantIds ≠ []) (p : GroupModel → Bool) :
    (activeTenantGroups context.tenantIds (store.groupsOf user.id)).any p =
      (activeTenantGroups context.tenantIds (store'.groupsOf user.id)).any p := by
  unfold activeTenantGroups
  rw [if_neg hids, if_neg hids, List.any_filter, List.any_filter]
  apply h.any_groupsOf
  intro group hmeets
  rw [Bool.and_eq_true] at hmeets
  exact hmeets.1

theorem AgreesInTenant.holds_iff (h : AgreesInTenant context user store store')
    (hids : context.tenantIds ≠ []) (assignment : PermissionAssignment) :
    Holds context.tenantIds store.grants user.id (store.groupsOf user.id) assignment ↔
      Holds context.tenantIds store'.grants user.id (store'.groupsOf user.id) assignment := by
  unfold Holds
  apply or_congr (h.own assignment)
  constructor
  · intro hgroup
    obtain ⟨group, hactive, hholds⟩ := hgroup
    obtain ⟨hmem, hcounts⟩ := (mem_activeTenantGroups hids).mp hactive
    refine ⟨group, (mem_activeTenantGroups hids).mpr ⟨?_, hcounts⟩, ?_⟩
    · exact (h.mem_groupsOf hcounts).mp hmem
    · exact (h.assignments group hcounts hmem assignment).mp hholds
  · intro hgroup
    obtain ⟨group, hactive, hholds⟩ := hgroup
    obtain ⟨hmem', hcounts⟩ := (mem_activeTenantGroups hids).mp hactive
    have hmem := (h.mem_groupsOf hcounts).mpr hmem'
    refine ⟨group, (mem_activeTenantGroups hids).mpr ⟨hmem, hcounts⟩, ?_⟩
    exact (h.assignments group hcounts hmem assignment).mpr hholds

theorem AgreesInTenant.resourcePermitted_eq (h : AgreesInTenant context user store store')
    (hids : context.tenantIds ≠ []) (request : ResourceRequest) :
    resourcePermitted context.tenantIds store.grants user.id (store.groupsOf user.id) request =
      resourcePermitted context.tenantIds store'.grants user.id (store'.groupsOf user.id)
        request := by
  rw [Bool.eq_iff_iff, resourcePermitted_iff, resourcePermitted_iff]
  simp only [h.holds_iff hids]

theorem AgreesInTenant.groupIdentifierFallback_eq (h : AgreesInTenant context user store store')
    (hids : context.tenantIds ≠ []) (path : Text) (action : Option Text) :
    groupIdentifierFallback context (store.groupsOf user.id) path action =
      groupIdentifierFallback context (store'.groupsOf user.id) path action := by
  unfold groupIdentifierFallback
  simp only [h.any_active hids]

theorem AgreesInTenant.hasReadOnlyRole_eq (h : AgreesInTenant context user store store')
    (hclosed : PrefixClosed context.tenantIds) :
    hasReadOnlyRole context.tenantIds (store.groupsOf user.id) =
      hasReadOnlyRole context.tenantIds (store'.groupsOf user.id) := by
  unfold hasReadOnlyRole
  apply h.any_groupsOf
  intro group hmeets
  rw [Bool.and_eq_true] at hmeets
  exact countsInTenant_of_readByGuard hclosed hmeets.1

/-- Related stores give the same answer where the guard of the process models, if it
runs, finds the same in both. -/
theorem allowUri_congr (h : AgreesInTenant context user store store')
    (hids : context.tenantIds ≠ []) {method path : Text}
    (hguard : WritesProcessModels (requestTarget context method path) →
      superAdminIn context store user = false →
      hasReadOnlyRole context.tenantIds (store.groupsOf user.id) =
        hasReadOnlyRole context.tenantIds (store'.groupsOf user.id))
    (session groupFallback : Bool) :
    allowUri context store (some user) method path session groupFallback =
      allowUri context store' (some user) method path session groupFallback := by
  have hsuper := h.superAdmin
  unfold superAdminIn at hsuper hguard
  show allowWithGroups context store.grants user (store.groupsOf user.id) method path session
      groupFallback =
    allowWithGroups context store'.grants user (store'.groupsOf user.id) method path session
      groupFallback
  by_cases hpath : normalizeAuthorizationPath path = homeTaskCountPath
  · rw [allowWithGroups_home _ _ hpath, allowWithGroups_home _ _ hpath,
      h.resourcePermitted_eq hids]
  · cases hadmin : actorIsSuperAdmin
        (some { user with groups := (store.groupsOf user.id).map GroupModel.identifier })
        context.claims with
    | true =>
        rw [allowWithGroups_superAdmin _ _ hpath hadmin,
          allowWithGroups_superAdmin _ _ hpath (hsuper ▸ hadmin)]
    | false =>
        rw [allowWithGroups_other _ _ hpath hadmin,
          allowWithGroups_other _ _ hpath (hsuper ▸ hadmin), h.resourcePermitted_eq hids,
          h.groupIdentifierFallback_eq hids]
        by_cases hwrites : WritesProcessModels (requestTarget context method path)
        · rw [hguard hwrites hadmin]
        · rw [decide_eq_false hwrites, Bool.false_and, Bool.false_and]

end Agreement

/-! ## A pattern for a path -/

/-- A pattern that a path matches, whatever its characters. -/
def literalPattern (path : Text) : Text := path.map fun c => if c = '{' then '*' else c

theorem piecesMatch_literalPattern (path : Text) :
    piecesMatch (patternPieces false (literalPattern path)) path = true := by
  induction path with
  | nil => rfl
  | cons c path ih =>
      have hone : ∀ n, n = 1 → n ∈ List.range ((c :: path).length + 1) := by
        intro n hn
        rw [List.mem_range, List.length_cons, hn]
        omega
      have hwild : c ≠ '\n' → piecesMatch
          (.wildcard :: patternPieces false (literalPattern path)) (c :: path) = true := by
        intro hline
        rw [piecesMatch, List.any_eq_true]
        exact ⟨1, hone 1 rfl, by simp [hline, ih]⟩
      by_cases hbrace : c = '{'
      · have hpieces : patternPieces false (literalPattern (c :: path)) =
            .wildcard :: patternPieces false (literalPattern path) := by
          rw [hbrace]
          rfl
        rw [hpieces]
        exact hwild (by rw [hbrace]; decide)
      · have hhead : literalPattern (c :: path) = c :: literalPattern path := by
          simp [literalPattern, hbrace]
        rw [hhead, patternPieces]
        by_cases hstar : c = '%' ∨ c = '*'
        · rw [if_pos hstar]
          apply hwild
          rcases hstar with hpercent | hstar
          · rw [hpercent]
            decide
          · rw [hstar]
            decide
        · rw [if_neg hstar, if_neg fun h => hbrace h.1]
          simp [piecesMatch, ih]

theorem pathMatches_literalPattern (path : Text) (legacyPrefix : Bool) :
    pathMatches path (literalPattern path) legacyPrefix = true := by
  unfold pathMatches
  split
  · rename_i hplain
    have hbrace : '{' ∉ path := by
      intro hmem
      apply hplain.2.1
      exact List.mem_map.mpr ⟨'{', hmem, rfl⟩
    have hsame : literalPattern path = path := by
      unfold literalPattern
      have hchar : ∀ c ∈ path, (if c = '{' then '*' else c) = c := by
        intro c hc
        exact if_neg fun hopen : c = '{' => hbrace (hopen ▸ hc)
      rw [List.map_congr_left hchar]
      exact List.map_id' path
    simp [hsame]
  · exact piecesMatch_literalPattern path

/-! ## Exactly when -/

section Interference

variable {context : Context} {user : UserModel}

/-- The user alone may do everything to the path. -/
def ownGrants (userId : Nat) (path : Text) : Grants where
  principals := [⟨0, some userId, none⟩]
  assignments :=
    [⟨0, "all".toList, "permit".toList,
      some ⟨some "tenant".toList, some (literalPattern path), none, none⟩⟩]

/-- A viewer's group of the tenant identifier. -/
def viewerGroup (tenantIdentifier : Text) : GroupModel :=
  ⟨0, [], tenantIdentifier ++ ':' :: "viewer".toList, none⟩

/-- The store with the user's grant and no group. -/
def grantedStore (userId : Nat) (path : Text) : Store := ⟨[], [], ownGrants userId path⟩

/-- The same with a viewer's group that the user is in. -/
def viewerStore (userId : Nat) (path tenantIdentifier : Text) : Store :=
  ⟨[viewerGroup tenantIdentifier], [⟨userId, 0⟩], ownGrants userId path⟩

theorem groupsOf_grantedStore (userId : Nat) (path : Text) :
    (grantedStore userId path).groupsOf userId = [] := rfl

theorem groupsOf_viewerStore (userId : Nat) (path tenantIdentifier : Text) :
    (viewerStore userId path tenantIdentifier).groupsOf userId =
      [viewerGroup tenantIdentifier] := by
  simp [viewerStore, Store.groupsOf, Table.lookup, viewerGroup]

theorem permitted_ownGrants (tenantIds : List Text) (groups : List GroupModel)
    (target : Action × Text) :
    resourcePermitted tenantIds (ownGrants user.id target.2) user.id groups
      (tenantRequest target) = true := by
  have happlies : (⟨0, "all".toList, "permit".toList,
      some ⟨some "tenant".toList, some (literalPattern target.2), none, none⟩⟩ :
        PermissionAssignment).applies (tenantRequest target) = true := by
    simp [PermissionAssignment.applies, PermissionTarget.covers, tenantRequest,
      pathMatches_literalPattern]
  rw [resourcePermitted_iff]
  constructor
  · exact ⟨_, Or.inl ⟨⟨0, some user.id, none⟩, by simp [ownGrants], List.mem_singleton_self _⟩,
      happlies⟩
  · intro h
    obtain ⟨assignment, hheld, -, hdenies⟩ := h
    obtain ⟨id, -, hmem⟩ := mem_of_holds hheld
    have hsame := List.mem_singleton.mp hmem
    have hgrant : assignment.grantType = "permit".toList := congrArg PermissionAssignment.grantType hsame
    rw [PermissionAssignment.Denies, hgrant] at hdenies
    exact absurd hdenies (by decide)

theorem superAdmin_of_colon (hclaims : claimsGrantSuperAdmin context user = false)
    {groups : List GroupModel} (hcolon : ∀ group ∈ groups, ':' ∈ group.identifier) :
    actorIsSuperAdmin (some { user with groups := groups.map GroupModel.identifier })
      context.claims = false := by
  have hglobal : (groups.map GroupModel.identifier).contains superAdminRole = false := by
    rw [← Bool.not_eq_true, List.contains_iff_mem]
    intro hmem
    obtain ⟨group, hgroup, hidentifier⟩ := List.mem_map.mp hmem
    have hin := hcolon group hgroup
    rw [hidentifier] at hin
    exact absurd hin (by decide)
  unfold actorIsSuperAdmin
  simp only [Option.any_some, hglobal, Bool.false_or]
  exact hclaims

theorem colon_mem_viewerGroup (tenantIdentifier : Text) :
    ∀ group ∈ [viewerGroup tenantIdentifier], ':' ∈ group.identifier := by
  intro group hgroup
  rw [List.mem_singleton.mp hgroup]
  exact List.mem_append_right _ List.mem_cons_self

/-- The group is not one that counts, where the part before the first colon is no identifier. -/
theorem not_countsInTenant_viewerGroup {tenantIds : List Text} {tenantIdentifier : Text}
    (hopen : (tenantIdentifier.partition ':').1 ∉ tenantIds) :
    countsInTenant tenantIds (viewerGroup tenantIdentifier).identifier = false := by
  have hcolon : ':' ∈ (viewerGroup tenantIdentifier).identifier :=
    colon_mem_viewerGroup tenantIdentifier _ (List.mem_singleton_self _)
  have hfirst : ((viewerGroup tenantIdentifier).identifier.partition ':').1 ∉ tenantIds := by
    unfold viewerGroup
    rw [Text.partition_append_fst]
    exact hopen
  unfold countsInTenant
  simp [hcolon, hfirst]

/-- The guard of the process models reads it all the same. -/
theorem hasReadOnlyRole_viewerGroup {tenantIds : List Text} {tenantIdentifier : Text}
    (hmem : tenantIdentifier ∈ tenantIds) :
    hasReadOnlyRole tenantIds [viewerGroup tenantIdentifier] = true := by
  have hparts : (viewerGroup tenantIdentifier).identifier.rpartition ':' =
      (tenantIdentifier, true, "viewer".toList) :=
    Text.rpartition_append (by decide)
  unfold hasReadOnlyRole readByGuard
  simp [hparts, hmem]

theorem agrees_viewerStore (hclaims : claimsGrantSuperAdmin context user = false)
    {tenantIdentifier : Text} (hopen : (tenantIdentifier.partition ':').1 ∉ context.tenantIds)
    (path : Text) :
    AgreesInTenant context user (grantedStore user.id path)
      (viewerStore user.id path tenantIdentifier) where
  superAdmin := by
    unfold superAdminIn
    rw [groupsOf_grantedStore, groupsOf_viewerStore, superAdmin_of_colon hclaims (by simp),
      superAdmin_of_colon hclaims (colon_mem_viewerGroup tenantIdentifier)]
  own _ := Iff.rfl
  groups := by
    intro group hcounts
    constructor
    · intro h
      cases h
    · intro h
      have hsame : group = viewerGroup tenantIdentifier :=
        List.mem_singleton.mp (Table.mem_of_lookup h)
      rw [hsame, not_countsInTenant_viewerGroup hopen] at hcounts
      cases hcounts
  memberships := by
    intro group _ h
    cases h
  assignments := by
    intro group _ h
    cases h

theorem ne_homeTaskCountPath {method path : Text}
    (hwrites : WritesProcessModels (requestTarget context method path)) :
    normalizeAuthorizationPath path ≠ homeTaskCountPath := by
  intro hpath
  have hroute : lifecycleTarget homeTaskCountPath = none := by decide
  unfold WritesProcessModels requestTarget lifecycleRequest at hwrites
  rw [hpath, hroute] at hwrites
  have hunder : "/process-models".toList.isPrefixOf homeTaskCountPath := hwrites.2
  exact absurd hunder (by decide)

/-- Two related stores with different answers. -/
theorem viewerStore_interferes (hclaims : claimsGrantSuperAdmin context user = false)
    {method path tenantIdentifier : Text}
    (hwrites : WritesProcessModels (requestTarget context method path))
    (hmem : tenantIdentifier ∈ context.tenantIds) :
    allowUri context (grantedStore user.id (requestTarget context method path).2) (some user)
        method path true false = true ∧
      allowUri context
        (viewerStore user.id (requestTarget context method path).2 tenantIdentifier) (some user)
        method path true false = false := by
  have hpath := ne_homeTaskCountPath hwrites
  constructor
  · show allowWithGroups context (ownGrants user.id _) user [] method path true false = true
    rw [allowWithGroups_other _ _ hpath (superAdmin_of_colon hclaims (by simp)),
      permitted_ownGrants]
    simp [hasReadOnlyRole]
  · show allowWithGroups context (ownGrants user.id _) user
      (Store.groupsOf (viewerStore _ _ _) user.id) method path true false = false
    rw [groupsOf_viewerStore,
      allowWithGroups_other _ _ hpath
        (superAdmin_of_colon hclaims (colon_mem_viewerGroup tenantIdentifier)),
      hasReadOnlyRole_viewerGroup hmem, decide_eq_true hwrites]
    rfl

/-- For a user and a request with an active tenant, stores that agree in the tenant give
the same answer exactly if what a tenant identifier has before its first colon is a tenant
identifier too, or the request does not write process models, or the verified claims make
the user a super-admin. -/
theorem other_tenants_do_not_matter_iff (hids : context.tenantIds ≠ []) (method path : Text) :
    (∀ store store' session groupFallback, AgreesInTenant context user store store' →
      allowUri context store (some user) method path session groupFallback =
        allowUri context store' (some user) method path session groupFallback) ↔
      PrefixClosed context.tenantIds ∨
        ¬ WritesProcessModels (requestTarget context method path) ∨
        claimsGrantSuperAdmin context user := by
  constructor
  · intro hsame
    by_contra hnot
    obtain ⟨hopen, hrest⟩ := not_or.mp hnot
    obtain ⟨hwrites, hclaims⟩ := not_or.mp hrest
    rw [not_not] at hwrites
    rw [Bool.not_eq_true] at hclaims
    unfold PrefixClosed at hopen
    push Not at hopen
    obtain ⟨tenantIdentifier, hmem, hfirst⟩ := hopen
    obtain ⟨hallowed, hrefused⟩ := viewerStore_interferes hclaims hwrites hmem
    rw [hsame _ _ true false (agrees_viewerStore hclaims hfirst _), hrefused] at hallowed
    cases hallowed
  · intro hcondition store store' session groupFallback h
    apply allowUri_congr h hids
    intro hwrites hsuper
    rcases hcondition with hclosed | hother | hclaims
    · exact h.hasReadOnlyRole_eq hclosed
    · exact absurd hwrites hother
    · have hadmin : superAdminIn context store user = true := by
        unfold superAdminIn actorIsSuperAdmin
        rw [Option.any_some, Bool.or_eq_true]
        exact Or.inr hclaims
      rw [hadmin] at hsuper
      cases hsuper

end Interference

/-! ## A tenant with a colon in its slug -/

/-- A tenant that is current. -/
def tenantContext (slug : Text) : Context where
  casing := Casing.ascii
  tenants := [⟨"t1".toList, slug⟩]
  current := some "t1".toList
  claims := none

/-- A user with an editor's grant. -/
def editingUser : UserModel :=
  ⟨7, "ann".toList, "realm".toList, "s7".toList, none, none, none, none, []⟩

/-- Without a colon in the slug, other tenants' groups do not matter to a write. -/
theorem other_tenants_do_not_matter_acme :
    (tenantContext "acme".toList).tenantIds ≠ [] ∧
      ∀ store store' session groupFallback,
        AgreesInTenant (tenantContext "acme".toList) editingUser store store' →
        allowUri (tenantContext "acme".toList) store (some editingUser) "PUT".toList
            "/v1.0/process-models/orders".toList session groupFallback =
          allowUri (tenantContext "acme".toList) store' (some editingUser) "PUT".toList
            "/v1.0/process-models/orders".toList session groupFallback :=
  ⟨by decide, (other_tenants_do_not_matter_iff (by decide) _ _).mpr
    (Or.inl (by unfold PrefixClosed; decide))⟩

/-- With the slug `a:b` the group `a:b:viewer`, whose part before the first colon names
another tenant, refuses a write that the user has a grant for. -/
theorem other_tenant_decides :
    (tenantContext "a:b".toList).tenantIds ≠ [] ∧
      AgreesInTenant (tenantContext "a:b".toList) editingUser
        (grantedStore 7 "/process-models/orders".toList)
        (viewerStore 7 "/process-models/orders".toList "a:b".toList) ∧
      allowUri (tenantContext "a:b".toList) (grantedStore 7 "/process-models/orders".toList)
        (some editingUser) "PUT".toList "/v1.0/process-models/orders".toList true false = true ∧
      allowUri (tenantContext "a:b".toList)
        (viewerStore 7 "/process-models/orders".toList "a:b".toList) (some editingUser)
        "PUT".toList "/v1.0/process-models/orders".toList true false = false := by
  have htarget : requestTarget (tenantContext "a:b".toList) "PUT".toList
      "/v1.0/process-models/orders".toList = (.update, "/process-models/orders".toList) := by
    decide
  have hwrites : WritesProcessModels (requestTarget (tenantContext "a:b".toList) "PUT".toList
      "/v1.0/process-models/orders".toList) := by
    rw [htarget]
    decide
  have hanswers := @viewerStore_interferes _ editingUser rfl _ _ "a:b".toList hwrites (by decide)
  rw [htarget] at hanswers
  exact ⟨by decide, agrees_viewerStore rfl (by decide) _, hanswers⟩

end M8flow.Authorization
