import M8flow.Identity.SeedingRuns

/-!
# The permission import

The results about `import_yaml` as a whole.

- `importYaml_transparent`: with the cache and without it, the import leaves the same rows.
- `importYaml_twice`: the second import changes nothing.
- `importYaml_outside`: the import leaves the groups that the document does not name alone.
- `importYaml_seeds`: all three of one import; `importYaml_foreign`: a document may name groups of
  other tenants.

`byIdentity` is a core whose helpers get or create by identity.
-/

namespace M8flow.Identity.Seeding

open M8flow.Auth M8flow.Authorization M8flow.Lib

/-! ## What a document asks for -/

/-- The command and the type have no space around them. -/
def Request.Trimmed (request : Request) : Prop :=
  request.resourceTypeText.strip = request.resourceTypeText ∧
    request.commandText.strip = request.commandText

instance (request : Request) : Decidable request.Trimmed := inferInstanceAs (Decidable (_ ∧ _))

def Document.Trimmed (document : Document) : Prop :=
  ∀ spec ∈ document.permissions, ∀ request ∈ spec.requests, request.Trimmed

theorem strip_macro {name uri : Text} (h : uriMacros.lookup name = some uri) :
    uri.strip = uri := by
  unfold uriMacros at h
  simp only [List.lookup_cons, List.lookup_nil] at h
  split at h
  · cases h
    decide
  · split at h
    · cases h
      decide
    · cases h

theorem strip_normalizeTargetUri (uri : Text) :
    (normalizeTargetUri uri).strip = normalizeTargetUri uri := by
  have hspace : ∀ c : Char, Text.isSpace (if c = '*' then '%' else c) = Text.isSpace c := by
    intro c
    split
    · next hstar => rw [hstar]; decide
    · rfl
  have hmacro : ((uriMacros.lookup uri.strip).getD uri.strip).strip =
      (uriMacros.lookup uri.strip).getD uri.strip := by
    cases hvalue : uriMacros.lookup uri.strip with
    | none => exact Text.strip_strip uri
    | some value => exact strip_macro hvalue
  exact (Text.stripWhere_map hspace _).trans (congrArg _ hmacro)

/-- An id is stripped on both paths, so the keys agree when the other two parts do. -/
theorem cacheKey_eq {request : Request} (h : request.Trimmed) :
    request.cacheKey = request.targetKey := by
  have hid : request.resourceIdText.strip = request.resourceIdText := by
    unfold Request.resourceIdText
    cases request.resourceId with
    | none => exact strip_normalizeTargetUri request.uri
    | some id => exact Text.strip_strip id
  unfold Request.cacheKey Request.targetKey
  rw [h.1, hid, h.2]

/-- The names of groups in the document. -/
def Document.names (document : Document) : List Text :=
  document.groups ++ document.permissions.flatMap Permission.groups

/-- The groups of the tenant, the super-admins and the groups that the document names with
their tenant; without a tenant also the group of everybody. -/
def Allowed (tenantId : Option Text) (document : Document) (group : GroupModel) : Prop :=
  (∃ tenant, truthy tenantId = some tenant ∧ OfTenant tenant group) ∨
    NamedBy superAdminRole group ∨
    (∃ name ∈ document.names, ':' ∈ name ∧ NamedBy name group) ∨
    truthy tenantId = none ∧ NamedBy everybody group

section Plan

variable {tenantId : Option Text} {document : Document} {name : Text} {group : GroupModel}

theorem allowed_qualified (hname : name ∈ document.names)
    (hkept : ':' ∈ qualified tenantId name ∨ qualified tenantId name = superAdminRole)
    (h : NamedBy (qualified tenantId name) group) : Allowed tenantId document group := by
  unfold qualified at hkept h
  cases htenant : truthy tenantId with
  | none =>
      rw [htenant] at hkept h
      dsimp only at hkept h
      obtain hcolon | hsuper := hkept
      · exact .inr (.inr (.inl ⟨name, hname, hcolon, h⟩))
      · exact .inr (.inl (hsuper ▸ h))
  | some tenant =>
      rw [htenant] at hkept h
      dsimp only at hkept h
      split at h
      · exact .inl ⟨tenant, htenant, name, h⟩
      · next hplain =>
          rw [if_neg hplain] at hkept
          obtain hcolon | hsuper := hkept
          · exact .inr (.inr (.inl ⟨name, hname, hcolon, h⟩))
          · exact .inr (.inl (hsuper ▸ h))

theorem allowed_groupIdentifiers (hname : name ∈ document.names) {identifier : Text}
    (hmem : identifier ∈ groupIdentifiers tenantId name) (h : NamedBy identifier group) :
    Allowed tenantId document group := by
  unfold groupIdentifiers at hmem
  dsimp only at hmem
  split at hmem
  · cases hmem
  · next hkept =>
      rw [List.mem_singleton] at hmem
      refine allowed_qualified hname ?_ (hmem ▸ h)
      by_contra hnot
      exact hkept ⟨fun hcolon => hnot (.inl hcolon), fun hsuper => hnot (.inr hsuper)⟩

theorem allowed_memberIdentifiers (hname : name ∈ document.names) {identifier : Text}
    (hmem : identifier ∈ memberIdentifiers tenantId name) (h : NamedBy identifier group) :
    Allowed tenantId document group := by
  unfold memberIdentifiers at hmem
  dsimp only at hmem
  split at hmem
  · cases hmem
  · next hkept =>
      have hplain : qualified tenantId name ≠ everybody →
          ':' ∈ qualified tenantId name ∨ qualified tenantId name = superAdminRole := by
        intro heverybody
        by_contra hnot
        exact hkept ⟨fun hcolon => hnot (.inl hcolon), fun hsuper => hnot (.inr hsuper),
          heverybody⟩
      cases htenant : truthy tenantId with
      | none =>
          rw [htenant, List.mem_singleton] at hmem
          by_cases heverybody : qualified tenantId name = everybody
          · exact .inr (.inr (.inr ⟨htenant, heverybody ▸ hmem ▸ h⟩))
          · exact allowed_qualified hname (hplain heverybody) (hmem ▸ h)
      | some tenant =>
          rw [htenant, List.mem_cons] at hmem
          obtain hfirst | hrole := hmem
          · split at hfirst
            · exact .inl ⟨tenant, htenant, _, hfirst ▸ h⟩
            · next heverybody =>
                exact allowed_qualified hname (hplain heverybody) (hfirst ▸ h)
          · split at hrole
            · obtain ⟨role, _, hidentifier⟩ := List.mem_map.mp hrole
              exact .inl ⟨tenant, htenant, role, hidentifier ▸ h⟩
            · cases hrole

theorem allowed_plan {step : Step} (hstep : step ∈ plan tenantId document)
    (h : NamedBy step.identifier group) : Allowed tenantId document group := by
  unfold plan at hstep
  rw [List.mem_append] at hstep
  obtain hgroup | hgrants := hstep
  · obtain ⟨identifier, hmem, hstep⟩ := List.mem_map.mp hgroup
    obtain ⟨name, hname, hidentifier⟩ := List.mem_flatMap.mp hmem
    rw [← hstep] at h
    exact allowed_groupIdentifiers (List.mem_append_left _ hname) hidentifier h
  · obtain ⟨spec, hspec, hmem⟩ := List.mem_flatMap.mp hgrants
    obtain ⟨identifier, hmember, hstep⟩ := List.mem_map.mp hmem
    obtain ⟨name, hname, hidentifier⟩ := List.mem_flatMap.mp hmember
    rw [← hstep] at h
    exact allowed_memberIdentifiers
      (List.mem_append_right _ (List.mem_flatMap.mpr ⟨spec, hspec, hname⟩)) hidentifier h

/-- The steps of a trimmed document are those of its keys as they stand. -/
theorem settle_trimmed {ρ : Type} {core : Core ρ} (h : document.Trimmed) {step : Step}
    (hstep : step ∈ plan tenantId document) (rows : Rows ρ) :
    settle core Request.cacheKey rows step = settle core Request.targetKey rows step := by
  unfold plan at hstep
  rw [List.mem_append] at hstep
  obtain hgroup | hgrants := hstep
  · obtain ⟨identifier, _, hstep⟩ := List.mem_map.mp hgroup
    rw [← hstep]
    rfl
  · obtain ⟨spec, hspec, hmem⟩ := List.mem_flatMap.mp hgrants
    obtain ⟨identifier, _, hstep⟩ := List.mem_map.mp hmem
    rw [← hstep]
    refine List.foldl_ext _ _ _ fun rows request hrequest => ?_
    unfold settleGrant
    rw [cacheKey_eq (h spec hspec request hrequest)]

end Plan

/-! ## The import -/

section Import

variable {ρ : Type} {core : Core ρ} (hlaw : core.Lawful) (tenantId : Option Text)

include hlaw

theorem finish_grows (canonical : Bool) (rows : Rows ρ) :
    Grows rows (finish core canonical tenantId rows) := by
  unfold finish
  cases truthy tenantId with
  | none => exact Grows.refl rows
  | some tenant =>
      have h := hlaw.roleGrows rows tenant
      cases canonical with
      | false => exact h
      | true => exact ⟨h.groups, h.principals, h.targets, h.permits⟩

theorem finish_constraints {rows : Rows ρ} (hrows : Constraints rows) (canonical : Bool) :
    Constraints (finish core canonical tenantId rows) := by
  unfold finish
  cases truthy tenantId with
  | none => exact hrows
  | some tenant =>
      have h := hlaw.roleConstraints rows tenant hrows
      cases canonical with
      | false => exact h
      | true => exact ⟨h.groupIds, h.principalIds, h.targets, h.assignments⟩

theorem finish_outside (canonical : Bool) (document : Document) (rows : Rows ρ) :
    SameOutside (Allowed tenantId document) rows (finish core canonical tenantId rows) := by
  unfold finish
  cases htenant : truthy tenantId with
  | none => exact SameOutside.refl _ rows
  | some tenant =>
      have h : SameOutside (Allowed tenantId document) rows (core.ensureV1Role rows tenant) :=
        (hlaw.roleOutside rows tenant).mono fun group hgroup => .inl ⟨tenant, htenant, hgroup⟩
      cases canonical with
      | false => exact h
      | true => exact ⟨h.groups, h.principals, h.assignments⟩

theorem finish_twice (canonical : Bool) (rows : Rows ρ) :
    finish core canonical tenantId (finish core canonical tenantId rows) =
      finish core canonical tenantId rows := by
  unfold finish
  cases truthy tenantId with
  | none => rfl
  | some tenant =>
      have hrole := hlaw.roleTwice rows tenant
      cases canonical with
      | false => exact hrole (core.ensureV1Role rows tenant).seeds
      | true =>
          have hseeds : ((core.ensureV1Role rows tenant).seeds.set tenant
              tenantPermissionSeedVersion).set tenant tenantPermissionSeedVersion =
                (core.ensureV1Role rows tenant).seeds.set tenant tenantPermissionSeedVersion :=
            Dict.set_eq_self (by rw [Dict.get?_set, if_pos rfl])
          dsimp only
          rw [if_pos rfl, if_pos rfl, hrole]
          dsimp only
          rw [hseeds]

/-- What the import comes to. -/
theorem importYaml_eq {rows : Rows ρ} (hrows : Constraints rows) (canonical : Bool)
    (document : Document) :
    importYaml core canonical tenantId document rows =
      .ok (finish core canonical tenantId
        ((plan tenantId document).foldl (settle core Request.cacheKey) rows)) := by
  obtain ⟨after, hafter, hsettled⟩ := performAll_cached hlaw hrows (plan tenantId document)
  unfold importYaml
  rw [hafter, ← hsettled]
  rfl

/-- The grants of a trimmed document come to the same without the cache. -/
theorem issueGrants_eq {rows : Rows ρ} (hrows : Constraints rows) (canonical : Bool)
    {document : Document} (htrimmed : document.Trimmed) :
    issueGrants core canonical tenantId document rows =
      .ok (finish core canonical tenantId
        ((plan tenantId document).foldl (settle core Request.cacheKey) rows)) := by
  unfold issueGrants
  rw [performAll_uncached hlaw hrows,
    List.foldl_ext _ _ rows fun rows step hstep => settle_trimmed htrimmed hstep rows]
  rfl

/-- What is imported is settled, and importing it again changes nothing. -/
theorem importYaml_finish {rows : Rows ρ} (hrows : Constraints rows) (canonical : Bool)
    (document : Document) :
    importYaml core canonical tenantId document (finish core canonical tenantId
        ((plan tenantId document).foldl (settle core Request.cacheKey) rows)) =
      .ok (finish core canonical tenantId
        ((plan tenantId document).foldl (settle core Request.cacheKey) rows)) := by
  obtain ⟨hconstraints, -, -, hsettled⟩ :=
    foldl_settle hlaw cacheKey_full hrows (fun _ => True) (plan tenantId document)
      fun _ _ _ _ => trivial
  have hgrows := finish_grows hlaw tenantId canonical
    ((plan tenantId document).foldl (settle core Request.cacheKey) rows)
  have hfinished := finish_constraints hlaw tenantId hconstraints canonical
  rw [importYaml_eq hlaw tenantId hfinished,
    foldl_settle_of_settled hlaw cacheKey_full hfinished
      fun step hstep => (hsettled step hstep).grows cacheKey_full hgrows,
    finish_twice hlaw]

/-- The groups that nothing in the document stands for are as they were. -/
theorem sameOutside_finish {rows : Rows ρ} (hrows : Constraints rows) (canonical : Bool)
    (document : Document) :
    SameOutside (Allowed tenantId document) rows (finish core canonical tenantId
      ((plan tenantId document).foldl (settle core Request.cacheKey) rows)) := by
  obtain ⟨-, -, houtside, -⟩ :=
    foldl_settle hlaw cacheKey_full hrows (Allowed tenantId document) (plan tenantId document)
      fun step hstep group hgroup => allowed_plan hstep hgroup
  exact houtside.trans (finish_outside hlaw tenantId canonical document _)

end Import

/-! ## A core -/

/-- An id that is not among the given ones. -/
def nextId (ids : List Nat) : Nat := ids.foldr (fun id next => max (id + 1) next) 1

theorem lt_nextId {ids : List Nat} {id : Nat} (h : id ∈ ids) : id < nextId ids := by
  induction ids with
  | nil => cases h
  | cons first ids ih =>
      have hnext : nextId (first :: ids) = max (first + 1) (nextId ids) := rfl
      rw [List.mem_cons] at h
      obtain hfirst | hrest := h
      · omega
      · have := ih hrest
        omega

theorem nextId_not_mem (ids : List Nat) : nextId ids ∉ ids := fun hmem =>
  Nat.lt_irrefl _ (lt_nextId hmem)

section ByIdentity

/-- The group with the authorization key, or a new one. -/
def groupByKey (rows : Rows (List Text)) (identifier : Text) : Rows (List Text) × GroupModel :=
  match rows.keyed identifier with
  | some group => (rows, group)
  | none =>
      let group : GroupModel :=
        { id := nextId (rows.groups.map GroupModel.id), name := identifier, identifier,
          authorizationKey := some (groupAuthorizationKey identifier) }
      ({ rows with groups := rows.groups ++ [group] }, group)

def principalByGroup (rows : Rows (List Text)) (groupId : Nat) : Rows (List Text) × Principal :=
  match rows.principal groupId with
  | some principal => (rows, principal)
  | none =>
      let principal : Principal :=
        { id := nextId (rows.principals.map Principal.id), userId := none, groupId := some groupId }
      ({ rows with principals := rows.principals ++ [principal] }, principal)

def targetByKey (rows : Rows (List Text)) (key : TargetKey) : Rows (List Text) × TargetRow :=
  match rows.target key with
  | some row => (rows, row)
  | none =>
      let row : TargetRow := { id := nextId (rows.targets.map TargetRow.id), key }
      ({ rows with targets := rows.targets ++ [row] }, row)

/-- Helpers that get or create by identity; the rest of the tables is the list of the tenants
that have their role. -/
def byIdentity : Core (List Text) where
  findOrCreateGroup := groupByKey
  findOrCreatePrincipalForGroup := principalByGroup
  findOrCreatePermissionTarget := targetByKey
  grantPermissionToGroup rows identifier _ key permission grantType :=
    let grouped :=
      match rows.groups.find? fun group => group.identifier = identifier with
      | some group => (rows, group)
      | none => groupByKey rows identifier
    let attached := principalByGroup grouped.1 grouped.2.id
    let targeted := targetByKey attached.1 key
    targeted.1.putAssignment ⟨attached.2.id, targeted.2.id, permission⟩ grantType
  ensureV1Role rows tenantId :=
    { rows with rest := if tenantId ∈ rows.rest then rows.rest else rows.rest ++ [tenantId] }
  newGroupId rows := nextId (rows.groups.map GroupModel.id)

theorem principalByGroup_of_found {rows : Rows (List Text)} {groupId : Nat}
    {principal : Principal} (h : rows.principal groupId = some principal) :
    principalByGroup rows groupId = (rows, principal) := by
  unfold principalByGroup
  rw [h]

theorem targetByKey_of_found {rows : Rows (List Text)} {key : TargetKey} {row : TargetRow}
    (h : rows.target key = some row) : targetByKey rows key = (rows, row) := by
  unfold targetByKey
  rw [h]

theorem byIdentity_lawful : byIdentity.Lawful where
  groupFound rows identifier group _ hkeyed := by
    show groupByKey rows identifier = _
    unfold groupByKey
    rw [hkeyed]
  groupCreated rows identifier _ hkeyed := by
    refine ⟨{ id := nextId (rows.groups.map GroupModel.id), name := identifier, identifier,
              authorizationKey := some (groupAuthorizationKey identifier) }, ?_, rfl, rfl,
            nextId_not_mem _⟩
    show groupByKey rows identifier = _
    unfold groupByKey
    rw [hkeyed]
  newGroupId rows := nextId_not_mem _
  principalFound rows groupId principal h := principalByGroup_of_found h
  principalCreated rows groupId h := by
    refine ⟨{ id := nextId (rows.principals.map Principal.id), userId := none,
              groupId := some groupId }, ?_, rfl, nextId_not_mem _⟩
    show principalByGroup rows groupId = _
    unfold principalByGroup
    rw [h]
  targetFound rows key row _ h := targetByKey_of_found h
  targetCreated rows key _ h := by
    refine ⟨{ id := nextId (rows.targets.map TargetRow.id), key }, ?_, rfl, nextId_not_mem _⟩
    show targetByKey rows key = _
    unfold targetByKey
    rw [h]
  permissionGranted rows group principal target permission grantType hone hprincipal _ htarget := by
    have hgroup : (rows.groups.find? fun row => row.identifier = group.identifier) =
        some group := by
      rw [← List.head?_filter, hone, List.head?_cons]
    unfold byIdentity
    dsimp only
    rw [hgroup]
    dsimp only
    rw [principalByGroup_of_found hprincipal]
    dsimp only
    rw [targetByKey_of_found htarget]
  roleGrows rows _ := ⟨fun _ _ h => h, fun _ _ h => h, fun _ _ _ h => h, fun _ h => h⟩
  roleConstraints rows _ h := ⟨h.groupIds, h.principalIds, h.targets, h.assignments⟩
  roleOutside rows _ :=
    ⟨fun _ _ => Iff.rfl, fun _ _ _ _ _ => Iff.rfl, fun _ _ _ _ _ _ _ _ => Iff.rfl⟩
  roleTwice rows tenantId seeds := by
    unfold byIdentity
    dsimp only
    split
    · simp
    · simp

/-- A lane beside the group of editors, and a group of another tenant that is denied a path. -/
def demoRows : Rows (List Text) where
  groups := [⟨1, "editor".toList, "t:editor".toList, some (laneAuthorizationKey 1)⟩,
    ⟨2, "x:user".toList, "x:user".toList, some (groupAuthorizationKey "x:user".toList)⟩]
  principals := [⟨1, none, some 2⟩]
  targets := [⟨1, some "tenant".toList, some "/process-models/%".toList, some "read".toList⟩]
  assignments := [⟨⟨1, 1, "read".toList⟩, "deny".toList⟩]
  seeds := Dict.empty
  rest := []

def demoDocument : Document where
  groups := ["editor".toList, superAdminRole]
  permissions :=
    [{ uris := ["PM:ALL".toList, "/tasks/*".toList], actions := [], command := none,
       resourceType := none, resourceId := none,
       groups := ["editor".toList, everybody, superAdminRole] }]

theorem demoRows_constraints : Constraints demoRows where
  groupIds := by decide
  principalIds := by decide
  targets row hrow other hother _ _ := by
    rw [List.mem_singleton.mp hrow, List.mem_singleton.mp hother]
  assignments := by decide

theorem demoDocument_trimmed : demoDocument.Trimmed := by
  unfold Document.Trimmed
  decide

end ByIdentity

/-! ## The results -/

/-- The cache makes no difference. -/
theorem importYaml_transparent {ρ : Type} (core : Core ρ) (hlaw : core.Lawful) {rows : Rows ρ}
    (hrows : Constraints rows) (canonical : Bool) (tenantId : Option Text)
    (document : Document) (htrimmed : document.Trimmed) :
    ∃ after, importYaml core canonical tenantId document rows = .ok after ∧
      issueGrants core canonical tenantId document rows = .ok after := by
  exact ⟨_, importYaml_eq hlaw tenantId hrows canonical document,
    issueGrants_eq hlaw tenantId hrows canonical htrimmed⟩

theorem importYaml_transparent_demo :
    ∃ after, importYaml byIdentity true (some "t".toList) demoDocument demoRows = .ok after ∧
      issueGrants byIdentity true (some "t".toList) demoDocument demoRows = .ok after :=
  importYaml_transparent byIdentity byIdentity_lawful demoRows_constraints true
    (some "t".toList) demoDocument demoDocument_trimmed

/-- The second import changes nothing. -/
theorem importYaml_twice {ρ : Type} (core : Core ρ) (hlaw : core.Lawful) {rows : Rows ρ}
    (hrows : Constraints rows) (canonical : Bool) (tenantId : Option Text)
    (document : Document) :
    ∃ after, importYaml core canonical tenantId document rows = .ok after ∧
      importYaml core canonical tenantId document after = .ok after := by
  exact ⟨_, importYaml_eq hlaw tenantId hrows canonical document,
    importYaml_finish hlaw tenantId hrows canonical document⟩

theorem importYaml_twice_demo :
    ∃ after, importYaml byIdentity true (some "t".toList) demoDocument demoRows = .ok after ∧
      importYaml byIdentity true (some "t".toList) demoDocument after = .ok after :=
  importYaml_twice byIdentity byIdentity_lawful demoRows_constraints true (some "t".toList)
    demoDocument

/-- The groups that the document does not name are left alone, with their grants. -/
theorem importYaml_outside {ρ : Type} (core : Core ρ) (hlaw : core.Lawful) {rows : Rows ρ}
    (hrows : Constraints rows) (canonical : Bool) (tenantId : Option Text)
    (document : Document) :
    ∃ after, importYaml core canonical tenantId document rows = .ok after ∧
      SameOutside (Allowed tenantId document) rows after := by
  exact ⟨_, importYaml_eq hlaw tenantId hrows canonical document,
    sameOutside_finish hlaw tenantId hrows canonical document⟩

theorem importYaml_outside_demo :
    ∃ after, importYaml byIdentity true (some "t".toList) demoDocument demoRows = .ok after ∧
      SameOutside (Allowed (some "t".toList) demoDocument) demoRows after :=
  importYaml_outside byIdentity byIdentity_lawful demoRows_constraints true (some "t".toList)
    demoDocument

/-- One import: it returns, leaves what its grants leave without the cache, changes nothing when it
is done again, and leaves the groups alone that nothing in the document stands for. -/
theorem importYaml_seeds {ρ : Type} (core : Core ρ) (hlaw : core.Lawful) {rows : Rows ρ}
    (hrows : Constraints rows) (canonical : Bool) (tenantId : Option Text)
    (document : Document) :
    ∃ after, importYaml core canonical tenantId document rows = .ok after ∧
      (document.Trimmed → issueGrants core canonical tenantId document rows = .ok after) ∧
      importYaml core canonical tenantId document after = .ok after ∧
      SameOutside (Allowed tenantId document) rows after := by
  refine ⟨_, importYaml_eq hlaw tenantId hrows canonical document, ?_, ?_, ?_⟩
  · exact issueGrants_eq hlaw tenantId hrows canonical
  · exact importYaml_finish hlaw tenantId hrows canonical document
  · exact sameOutside_finish hlaw tenantId hrows canonical document

theorem importYaml_seeds_demo :
    ∃ after, importYaml byIdentity true (some "t".toList) demoDocument demoRows = .ok after ∧
      issueGrants byIdentity true (some "t".toList) demoDocument demoRows = .ok after ∧
      importYaml byIdentity true (some "t".toList) demoDocument after = .ok after ∧
      SameOutside (Allowed (some "t".toList) demoDocument) demoRows after := by
  obtain ⟨after, himport, hissued, htwice, houtside⟩ :=
    importYaml_seeds byIdentity byIdentity_lawful demoRows_constraints true (some "t".toList)
      demoDocument
  exact ⟨after, himport, hissued demoDocument_trimmed, htwice, houtside⟩

/-- A document with a group of the tenant `other`. -/
def foreignDocument : Document where
  groups := []
  permissions :=
    [{ uris := ["/tasks/*".toList], actions := [], command := none, resourceType := none,
       resourceId := none, groups := ["other:editor".toList] }]

/-- What the import leaves of it for the tenant `t`. -/
def foreignGroups : Except SeedError (List GroupModel) :=
  (importYaml byIdentity true (some "t".toList) foreignDocument demoRows).map Rows.groups

theorem foreignGroups_eq : foreignGroups = .ok (demoRows.groups ++
    [⟨3, "other:editor".toList, "other:editor".toList,
      some (groupAuthorizationKey "other:editor".toList)⟩]) := by
  decide +kernel

/-- The import for one tenant makes the group of another that the document names. -/
theorem importYaml_foreign :
    ∃ after, importYaml byIdentity true (some "t".toList) foreignDocument demoRows = .ok after ∧
      ¬ SameOutside (fun group => OfTenant "t".toList group ∨ NamedBy superAdminRole group)
        demoRows after := by
  have hgroups := foreignGroups_eq
  unfold foreignGroups at hgroups
  cases himport : importYaml byIdentity true (some "t".toList) foreignDocument demoRows with
  | error error =>
      rw [himport] at hgroups
      cases hgroups
  | ok after =>
      rw [himport] at hgroups
      have hafter : after.groups = _ := Except.ok.inj hgroups
      refine ⟨after, rfl, fun hsame => ?_⟩
      have hnew := (hsame.groups ⟨3, "other:editor".toList, "other:editor".toList,
        some (groupAuthorizationKey "other:editor".toList)⟩ ?_).mp
          (by rw [hafter]; exact List.mem_append_right _ List.mem_cons_self)
      · exact absurd hnew (by decide +kernel)
      · rintro (⟨name, hidentifier | hkey⟩ | hidentifier | hkey)
        · cases hidentifier
        · cases hkey
        · exact absurd hidentifier (by decide)
        · exact absurd hkey (by decide)

end M8flow.Identity.Seeding
