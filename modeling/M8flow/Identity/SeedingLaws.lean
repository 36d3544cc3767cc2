import M8flow.Identity.Seeding

/-!
# What seeding permissions leaves

What the get-or-create helpers and the grants leave of the tables, one by one.

- `Core.Lawful` is what is relied on of the core: its helpers get or create by identity.
- Each of `_ensure_group`, the principal's, the target's and the assignment's helper finds
  afterwards what it returned, keeps what was found before (`Grows`), keeps the constraints
  of the tables (`Constraints`) and leaves the rows of other groups alone (`SameOutside`).
- `grantForExistingPrincipal_eq` says that a grant to the principal of a group comes to
  `putAssignment`, through the core or beside it.
-/

namespace M8flow.Identity.Seeding

open M8flow.Auth M8flow.Authorization M8flow.Lib

/-! ## Rows by identity -/

section Identities

variable {ρ : Type} {rows : Rows ρ} {identifier : Text}

/-- The row by its authorization key. -/
def Rows.keyed (rows : Rows ρ) (identifier : Text) : Option GroupModel :=
  rows.groups.find? fun group => group.authorizationKey = some (groupAuthorizationKey identifier)

/-- The row that `_ensure_group` finds, by itself or through the core. -/
def Rows.foundGroup (rows : Rows ρ) (identifier : Text) : Option GroupModel :=
  (rows.group identifier).or (rows.keyed identifier)

/-- A group has the identifier, or its authorization key. -/
def NamedBy (identifier : Text) (group : GroupModel) : Prop :=
  group.identifier = identifier ∨
    group.authorizationKey = some (groupAuthorizationKey identifier)

/-- No part of the key is null. -/
def TargetKey.Full (key : TargetKey) : Prop :=
  key.resourceType ≠ none ∧ key.resourceId ≠ none ∧ key.command ≠ none

/-- The constraints of the tables. -/
structure Constraints (rows : Rows ρ) : Prop where
  groupIds : (rows.groups.map GroupModel.id).Nodup
  principalIds : (rows.principals.map Principal.id).Nodup
  targets : ∀ row ∈ rows.targets, ∀ other ∈ rows.targets, row.key.Full → row.key = other.key →
    row = other
  assignments : (rows.assignments.map AssignmentRow.key).Nodup

/-- What is found by its identity is found afterwards, and what is permitted stays so. -/
structure Grows (rows after : Rows ρ) : Prop where
  groups : ∀ identifier group, rows.foundGroup identifier = some group →
    after.foundGroup identifier = some group
  principals : ∀ groupId principal, rows.principal groupId = some principal →
    after.principal groupId = some principal
  targets : ∀ key row, key.Full → rows.target key = some row → after.target key = some row
  permits : ∀ key, rows.assignment key = some ⟨key, permit⟩ →
    after.assignment key = some ⟨key, permit⟩

theorem Grows.refl (rows : Rows ρ) : Grows rows rows where
  groups _ _ h := h
  principals _ _ h := h
  targets _ _ _ h := h
  permits _ h := h

theorem Grows.trans {first second third : Rows ρ} (h : Grows first second)
    (h' : Grows second third) : Grows first third where
  groups _ _ hfound := h'.groups _ _ (h.groups _ _ hfound)
  principals _ _ hfound := h'.principals _ _ (h.principals _ _ hfound)
  targets _ _ hfull hfound := h'.targets _ _ hfull (h.targets _ _ hfull hfound)
  permits _ hfound := h'.permits _ (h.permits _ hfound)

theorem nodup_map_append {α β : Type} {f : α → β} {items : List α} {item : α}
    (h : (items.map f).Nodup) (hnew : f item ∉ items.map f) : ((items ++ [item]).map f).Nodup := by
  rw [List.map_append, List.nodup_append]
  refine ⟨h, List.nodup_singleton _, fun image hmem other hother hsame => ?_⟩
  rw [List.map_singleton, List.mem_singleton] at hother
  exact hnew (hother ▸ hsame ▸ hmem)

/-- Groups that are not among the named ones are the same afterwards, with their principals and
the assignments of these. -/
structure SameOutside (named : GroupModel → Prop) (rows after : Rows ρ) : Prop where
  groups : ∀ group, ¬ named group → (group ∈ after.groups ↔ group ∈ rows.groups)
  principals : ∀ group ∈ rows.groups, ¬ named group → ∀ principal,
    principal.groupId = some group.id →
      (principal ∈ after.principals ↔ principal ∈ rows.principals)
  assignments : ∀ group ∈ rows.groups, ¬ named group → ∀ principal ∈ rows.principals,
    principal.groupId = some group.id → ∀ row, row.key.principalId = principal.id →
      (row ∈ after.assignments ↔ row ∈ rows.assignments)

theorem SameOutside.refl (named : GroupModel → Prop) (rows : Rows ρ) :
    SameOutside named rows rows where
  groups _ _ := Iff.rfl
  principals _ _ _ _ _ := Iff.rfl
  assignments _ _ _ _ _ _ _ _ := Iff.rfl

theorem SameOutside.trans {named : GroupModel → Prop} {first second third : Rows ρ}
    (h : SameOutside named first second) (h' : SameOutside named second third) :
    SameOutside named first third where
  groups group hnamed := (h'.groups group hnamed).trans (h.groups group hnamed)
  principals group hgroup hnamed principal hprincipal :=
    (h'.principals group ((h.groups group hnamed).mpr hgroup) hnamed principal hprincipal).trans
      (h.principals group hgroup hnamed principal hprincipal)
  assignments group hgroup hnamed principal hprincipal hattached row hrow :=
    (h'.assignments group ((h.groups group hnamed).mpr hgroup) hnamed principal
      ((h.principals group hgroup hnamed principal hattached).mpr hprincipal) hattached row
        hrow).trans
      (h.assignments group hgroup hnamed principal hprincipal hattached row hrow)

theorem SameOutside.mono {named more : GroupModel → Prop} {rows after : Rows ρ}
    (h : SameOutside named rows after) (hmore : ∀ group, named group → more group) :
    SameOutside more rows after where
  groups group hnamed := h.groups group fun hgroup => hnamed (hmore group hgroup)
  principals group hgroup hnamed :=
    h.principals group hgroup fun hnot => hnamed (hmore group hnot)
  assignments group hgroup hnamed :=
    h.assignments group hgroup fun hnot => hnamed (hmore group hnot)

end Identities

/-! ## The core -/

/-- A group of the tenant, by its identifier or its authorization key. -/
def OfTenant (tenantId : Text) (group : GroupModel) : Prop :=
  ∃ name, NamedBy (tenantIdentifier tenantId name) group

/-- The helpers of the core get or create by identity. -/
structure Core.Lawful {ρ : Type} (core : Core ρ) : Prop where
  groupFound : ∀ rows identifier group, (∀ row ∈ rows.groups, row.identifier ≠ identifier) →
    rows.keyed identifier = some group → core.findOrCreateGroup rows identifier = (rows, group)
  groupCreated : ∀ rows identifier, (∀ row ∈ rows.groups, row.identifier ≠ identifier) →
    rows.keyed identifier = none → ∃ group,
      core.findOrCreateGroup rows identifier =
        ({ rows with groups := rows.groups ++ [group] }, group) ∧
      group.identifier = identifier ∧
      group.authorizationKey = some (groupAuthorizationKey identifier) ∧
      group.id ∉ rows.groups.map GroupModel.id
  newGroupId : ∀ rows, core.newGroupId rows ∉ rows.groups.map GroupModel.id
  principalFound : ∀ rows groupId principal, rows.principal groupId = some principal →
    core.findOrCreatePrincipalForGroup rows groupId = (rows, principal)
  principalCreated : ∀ rows groupId, rows.principal groupId = none → ∃ principal,
    core.findOrCreatePrincipalForGroup rows groupId =
      ({ rows with principals := rows.principals ++ [principal] }, principal) ∧
    principal.groupId = some groupId ∧ principal.id ∉ rows.principals.map Principal.id
  targetFound : ∀ rows key row, key.Full → rows.target key = some row →
    core.findOrCreatePermissionTarget rows key = (rows, row)
  targetCreated : ∀ rows key, key.Full → rows.target key = none → ∃ row,
    core.findOrCreatePermissionTarget rows key =
      ({ rows with targets := rows.targets ++ [row] }, row) ∧ row.key = key ∧
      row.id ∉ rows.targets.map TargetRow.id
  /-- For a group that is the only one with its identifier, has a principal and is granted a
  target that is there. -/
  permissionGranted : ∀ rows group principal target permission grantType,
    (rows.groups.filter fun row => row.identifier = group.identifier) = [group] →
    rows.principal group.id = some principal → target.key.Full →
    rows.target target.key = some target →
      core.grantPermissionToGroup rows group.identifier group.name target.key permission grantType =
        rows.putAssignment ⟨principal.id, target.id, permission⟩ grantType
  roleGrows : ∀ rows tenantId, Grows rows (core.ensureV1Role rows tenantId)
  roleConstraints : ∀ rows tenantId, Constraints rows →
    Constraints (core.ensureV1Role rows tenantId)
  roleOutside : ∀ rows tenantId,
    SameOutside (OfTenant tenantId) rows (core.ensureV1Role rows tenantId)
  /-- A role that is there is left alone, whatever the host's table of seeds has. -/
  roleTwice : ∀ rows tenantId seeds,
    core.ensureV1Role { core.ensureV1Role rows tenantId with seeds } tenantId =
      { core.ensureV1Role rows tenantId with seeds }

/-! ## Finding a group -/

section Groups

variable {ρ : Type} {rows : Rows ρ} {identifier : Text}

theorem named_of_localGroup {groups : List GroupModel} {group : GroupModel}
    (h : localGroup groups identifier = some group) : NamedBy identifier group := by
  unfold localGroup at h
  dsimp only at h
  cases hmin : (groups.filter fun group => group.identifier = identifier ∧
      group.authorizationKey = some (groupAuthorizationKey identifier)).argmin GroupModel.id with
  | some found =>
      rw [hmin] at h
      rw [← Option.some.inj h]
      exact .inl (of_decide_eq_true (List.mem_filter.mp (List.argmin_mem hmin)).2).1
  | none =>
      rw [hmin] at h
      dsimp only at h
      split at h
      · have hkey := List.find?_some h
        exact .inr (of_decide_eq_true hkey)
      · cases h

/-- Beside a row with the identifier, the row with the key would have been found. -/
theorem keyed_of_group_none (h : rows.group identifier = none)
    (hany : (rows.groups.any fun group => group.identifier = identifier) = true) :
    rows.keyed identifier = none := by
  unfold Rows.group localGroup at h
  dsimp only at h
  cases hmin : (rows.groups.filter fun group => group.identifier = identifier ∧
      group.authorizationKey = some (groupAuthorizationKey identifier)).argmin GroupModel.id with
  | some found =>
      rw [hmin] at h
      cases h
  | none =>
      rw [hmin] at h
      dsimp only at h
      rw [if_pos hany] at h
      exact h

theorem foundGroup_mem {group : GroupModel} (h : rows.foundGroup identifier = some group) :
    group ∈ rows.groups ∧ NamedBy identifier group := by
  unfold Rows.foundGroup at h
  cases hgroup : rows.group identifier with
  | some found =>
      rw [hgroup, Option.some_or] at h
      cases h
      exact ⟨mem_of_localGroup hgroup, named_of_localGroup hgroup⟩
  | none =>
      rw [hgroup, Option.none_or] at h
      have hkey := List.find?_some h
      exact ⟨List.mem_of_find?_eq_some h, .inr (of_decide_eq_true hkey)⟩

/-- A new row of another identifier is not found for this one. -/
theorem foundGroup_append_other {group : GroupModel} (hidentifier : group.identifier ≠ identifier)
    (hkey : group.authorizationKey ≠ some (groupAuthorizationKey identifier)) :
    ({ rows with groups := rows.groups ++ [group] } : Rows ρ).foundGroup identifier =
      rows.foundGroup identifier := by
  unfold Rows.foundGroup Rows.group Rows.keyed
  rw [localGroup_append hidentifier hkey, List.find?_append,
    List.find?_cons_of_neg (by simpa using hkey), List.find?_nil, Option.or_none]

/-- A new row is found by its identifier. -/
theorem foundGroup_append_self {group : GroupModel} (h : rows.foundGroup identifier = none)
    (hidentifier : group.identifier = identifier)
    (hkey : group.authorizationKey = some (groupAuthorizationKey identifier)) :
    ({ rows with groups := rows.groups ++ [group] } : Rows ρ).foundGroup identifier =
      some group := by
  have hnone := (Option.or_eq_none_iff.mp h).2
  have hprovided : (rows.groups.filter fun group => group.identifier = identifier ∧
      group.authorizationKey = some (groupAuthorizationKey identifier)) = [] := by
    refine List.filter_eq_nil_iff.mpr fun row hrow hboth => ?_
    exact List.find?_eq_none.mp hnone row hrow (decide_eq_true (of_decide_eq_true hboth).2)
  have hself : ([group].filter fun group => group.identifier = identifier ∧
      group.authorizationKey = some (groupAuthorizationKey identifier)) = [group] :=
    List.filter_cons_of_pos (decide_eq_true ⟨hidentifier, hkey⟩)
  unfold Rows.foundGroup Rows.group localGroup
  dsimp only
  rw [List.filter_append, hprovided, hself, List.nil_append, List.argmin_singleton]
  rfl

section Ensure

variable {core : Core ρ} (hlaw : core.Lawful)

include hlaw

/-- The row is found, or one with the identifier and its key is added. -/
theorem ensureGroup_spec (rows : Rows ρ) (identifier : Text) :
    (∃ group, rows.foundGroup identifier = some group ∧
        ensureGroup core rows identifier = (rows, group)) ∨
      rows.foundGroup identifier = none ∧ ∃ group,
        ensureGroup core rows identifier =
          ({ rows with groups := rows.groups ++ [group] }, group) ∧
        group.identifier = identifier ∧
        group.authorizationKey = some (groupAuthorizationKey identifier) ∧
        group.id ∉ rows.groups.map GroupModel.id := by
  unfold ensureGroup Rows.foundGroup
  cases hgroup : rows.group identifier with
  | some group => exact .inl ⟨group, rfl, rfl⟩
  | none =>
      rw [Option.none_or]
      dsimp only
      cases hany : rows.groups.any fun group => group.identifier = identifier with
      | true =>
          refine .inr ⟨keyed_of_group_none hgroup hany, _, rfl, rfl, rfl, ?_⟩
          exact hlaw.newGroupId rows
      | false =>
          have hother : ∀ row ∈ rows.groups, row.identifier ≠ identifier := fun row hrow hsame =>
            List.any_eq_false.mp hany row hrow (decide_eq_true hsame)
          cases hkeyed : rows.keyed identifier with
          | some group =>
              exact .inl ⟨group, rfl, hlaw.groupFound rows identifier group hother hkeyed⟩
          | none =>
              obtain ⟨group, hcreated, hrest⟩ :=
                hlaw.groupCreated rows identifier hother hkeyed
              exact .inr ⟨rfl, group, hcreated, hrest⟩

theorem ensureGroup_found (rows : Rows ρ) (identifier : Text) :
    (ensureGroup core rows identifier).1.foundGroup identifier =
      some (ensureGroup core rows identifier).2 := by
  obtain ⟨group, hfound, hensured⟩ | ⟨hnone, group, hensured, hidentifier, hkey, -⟩ :=
    ensureGroup_spec hlaw rows identifier
  · rw [hensured]
    exact hfound
  · rw [hensured]
    exact foundGroup_append_self hnone hidentifier hkey

theorem ensureGroup_of_found {rows : Rows ρ} {identifier : Text} {group : GroupModel}
    (h : rows.foundGroup identifier = some group) :
    ensureGroup core rows identifier = (rows, group) := by
  obtain ⟨found, hfound, hensured⟩ | ⟨hnone, -⟩ := ensureGroup_spec hlaw rows identifier
  · rw [hensured, Option.some.inj (hfound.symm.trans h)]
  · rw [hnone] at h
    cases h

theorem ensureGroup_grows (rows : Rows ρ) (identifier : Text) :
    Grows rows (ensureGroup core rows identifier).1 := by
  obtain ⟨group, -, hensured⟩ | ⟨hnone, group, hensured, hidentifier, hkey, -⟩ :=
    ensureGroup_spec hlaw rows identifier
  · rw [hensured]
    exact Grows.refl rows
  · rw [hensured]
    refine ⟨fun other found hfound => ?_, fun _ _ h => h, fun _ _ _ h => h, fun _ h => h⟩
    have hother : identifier ≠ other := by
      intro hsame
      rw [← hsame, hnone] at hfound
      cases hfound
    rw [foundGroup_append_other (hidentifier.symm ▸ hother)]
    · exact hfound
    · rw [hkey]
      exact fun hsame => hother (groupAuthorizationKey_injective (Option.some.inj hsame))

theorem ensureGroup_constraints {rows : Rows ρ} (h : Constraints rows) (identifier : Text) :
    Constraints (ensureGroup core rows identifier).1 := by
  obtain ⟨group, -, hensured⟩ | ⟨-, group, hensured, -, -, hid⟩ :=
    ensureGroup_spec hlaw rows identifier
  · rw [hensured]
    exact h
  · rw [hensured]
    exact ⟨nodup_map_append h.groupIds hid, h.principalIds, h.targets, h.assignments⟩

theorem ensureGroup_outside (rows : Rows ρ) (identifier : Text) :
    SameOutside (NamedBy identifier) rows (ensureGroup core rows identifier).1 := by
  obtain ⟨group, -, hensured⟩ | ⟨-, group, hensured, hidentifier, -, -⟩ :=
    ensureGroup_spec hlaw rows identifier
  · rw [hensured]
    exact SameOutside.refl _ rows
  · rw [hensured]
    refine ⟨fun other hother => ?_, fun _ _ _ _ _ => Iff.rfl, fun _ _ _ _ _ _ _ _ => Iff.rfl⟩
    rw [List.mem_append, List.mem_singleton]
    exact or_iff_left fun hsame => hother (hsame ▸ .inl hidentifier)

end Ensure

end Groups

/-! ## Principals and targets -/

section Helpers

variable {ρ : Type} {core : Core ρ} (hlaw : core.Lawful)

include hlaw

theorem principal_spec (rows : Rows ρ) (groupId : Nat) :
    (∃ principal, rows.principal groupId = some principal ∧
        core.findOrCreatePrincipalForGroup rows groupId = (rows, principal)) ∨
      rows.principal groupId = none ∧ ∃ principal,
        core.findOrCreatePrincipalForGroup rows groupId =
          ({ rows with principals := rows.principals ++ [principal] }, principal) ∧
        principal.groupId = some groupId ∧ principal.id ∉ rows.principals.map Principal.id := by
  cases hfound : rows.principal groupId with
  | some principal =>
      exact .inl ⟨principal, rfl, hlaw.principalFound rows groupId principal hfound⟩
  | none => exact .inr ⟨rfl, hlaw.principalCreated rows groupId hfound⟩

theorem principal_found (rows : Rows ρ) (groupId : Nat) :
    (core.findOrCreatePrincipalForGroup rows groupId).1.principal groupId =
      some (core.findOrCreatePrincipalForGroup rows groupId).2 := by
  obtain ⟨principal, hfound, hop⟩ | ⟨hnone, principal, hop, hgroup, -⟩ :=
    principal_spec hlaw rows groupId
  · rw [hop]
    exact hfound
  · rw [hop]
    unfold Rows.principal at hnone ⊢
    simp [List.find?_append, hnone, hgroup]

theorem principal_grows (rows : Rows ρ) (groupId : Nat) :
    Grows rows (core.findOrCreatePrincipalForGroup rows groupId).1 := by
  obtain ⟨principal, -, hop⟩ | ⟨-, principal, hop, -, -⟩ := principal_spec hlaw rows groupId
  · rw [hop]
    exact Grows.refl rows
  · rw [hop]
    refine ⟨fun _ _ h => h, fun other found hfound => ?_, fun _ _ _ h => h, fun _ h => h⟩
    unfold Rows.principal at hfound ⊢
    simp [List.find?_append, hfound]

theorem principal_constraints {rows : Rows ρ} (h : Constraints rows) (groupId : Nat) :
    Constraints (core.findOrCreatePrincipalForGroup rows groupId).1 := by
  obtain ⟨principal, -, hop⟩ | ⟨-, principal, hop, -, hid⟩ := principal_spec hlaw rows groupId
  · rw [hop]
    exact h
  · rw [hop]
    exact ⟨h.groupIds, nodup_map_append h.principalIds hid, h.targets, h.assignments⟩

/-- Only a principal of the group itself is added. -/
theorem principal_outside {rows : Rows ρ} (h : Constraints rows) {named : GroupModel → Prop}
    {found : GroupModel} (hmem : found ∈ rows.groups) (hnamed : named found) :
    SameOutside named rows (core.findOrCreatePrincipalForGroup rows found.id).1 := by
  obtain ⟨principal, -, hop⟩ | ⟨-, principal, hop, hgroup, -⟩ :=
    principal_spec hlaw rows found.id
  · rw [hop]
    exact SameOutside.refl _ rows
  · rw [hop]
    refine ⟨fun _ _ => Iff.rfl, fun group hother hnot other hattached => ?_,
      fun _ _ _ _ _ _ _ _ => Iff.rfl⟩
    rw [List.mem_append, List.mem_singleton]
    refine or_iff_left fun hsame => hnot ?_
    have hid : found.id = group.id := Option.some.inj (hgroup.symm.trans (hsame ▸ hattached))
    exact List.inj_on_of_nodup_map h.groupIds hmem hother hid ▸ hnamed

theorem target_spec (rows : Rows ρ) {key : TargetKey} (hfull : key.Full) :
    (∃ row, rows.target key = some row ∧
        core.findOrCreatePermissionTarget rows key = (rows, row)) ∨
      rows.target key = none ∧ ∃ row,
        core.findOrCreatePermissionTarget rows key =
          ({ rows with targets := rows.targets ++ [row] }, row) ∧ row.key = key ∧
          row.id ∉ rows.targets.map TargetRow.id := by
  cases hfound : rows.target key with
  | some row => exact .inl ⟨row, rfl, hlaw.targetFound rows key row hfull hfound⟩
  | none => exact .inr ⟨rfl, hlaw.targetCreated rows key hfull hfound⟩

theorem target_found (rows : Rows ρ) {key : TargetKey} (hfull : key.Full) :
    (core.findOrCreatePermissionTarget rows key).1.target key =
      some (core.findOrCreatePermissionTarget rows key).2 := by
  obtain ⟨row, hfound, hop⟩ | ⟨hnone, row, hop, hkey, -⟩ := target_spec hlaw rows hfull
  · rw [hop]
    exact hfound
  · rw [hop]
    unfold Rows.target at hnone ⊢
    simp [List.find?_append, hnone, hkey]

theorem target_grows (rows : Rows ρ) {key : TargetKey} (hfull : key.Full) :
    Grows rows (core.findOrCreatePermissionTarget rows key).1 := by
  obtain ⟨row, -, hop⟩ | ⟨-, row, hop, -⟩ := target_spec hlaw rows hfull
  · rw [hop]
    exact Grows.refl rows
  · rw [hop]
    refine ⟨fun _ _ h => h, fun _ _ h => h, fun other found _ hfound => ?_, fun _ h => h⟩
    unfold Rows.target at hfound ⊢
    simp [List.find?_append, hfound]

theorem target_constraints {rows : Rows ρ} (h : Constraints rows) {key : TargetKey}
    (hfull : key.Full) : Constraints (core.findOrCreatePermissionTarget rows key).1 := by
  obtain ⟨row, -, hop⟩ | ⟨hnone, row, hop, hkey, -⟩ := target_spec hlaw rows hfull
  · rw [hop]
    exact h
  · rw [hop]
    have hnew : ∀ other ∈ rows.targets, other.key ≠ row.key := fun other hother hsame =>
      List.find?_eq_none.mp hnone other hother (decide_eq_true (hsame.trans hkey))
    refine ⟨h.groupIds, h.principalIds, ?_, h.assignments⟩
    intro first hfirst second hsecond hone hsame
    rw [List.mem_append, List.mem_singleton] at hfirst hsecond
    obtain hfirst | hfirst := hfirst <;> obtain hsecond | hsecond := hsecond
    · exact h.targets first hfirst second hsecond hone hsame
    · exact absurd (hsecond ▸ hsame) (hnew first hfirst)
    · exact absurd (hfirst ▸ hsame.symm) (hnew second hsecond)
    · rw [hfirst, hsecond]

theorem target_outside (named : GroupModel → Prop) (rows : Rows ρ) {key : TargetKey}
    (hfull : key.Full) :
    SameOutside named rows (core.findOrCreatePermissionTarget rows key).1 := by
  obtain ⟨row, -, hop⟩ | ⟨-, row, hop, -⟩ := target_spec hlaw rows hfull
  · rw [hop]
    exact SameOutside.refl _ rows
  · rw [hop]
    exact ⟨fun _ _ => Iff.rfl, fun _ _ _ _ _ => Iff.rfl, fun _ _ _ _ _ _ _ _ => Iff.rfl⟩

end Helpers

/-! ## Assignments -/

section Assignments

variable {ρ : Type} {rows : Rows ρ} {key : AssignmentKey} {grantType : Text}

theorem keys_setGrantType (rows : Rows ρ) (key : AssignmentKey) (grantType : Text) :
    (rows.setGrantType key grantType).assignments.map AssignmentRow.key =
      rows.assignments.map AssignmentRow.key := by
  unfold Rows.setGrantType
  rw [List.map_map]
  refine List.map_congr_left fun row _ => ?_
  rw [Function.comp_apply, apply_ite AssignmentRow.key, ite_self]

theorem assignment_eq_some {row : AssignmentRow} (h : rows.assignment key = some row) :
    row ∈ rows.assignments ∧ row.key = key := by
  have hkey := List.find?_some h
  exact ⟨List.mem_of_find?_eq_some h, of_decide_eq_true hkey⟩

theorem isSome_assignment :
    (rows.assignment key).isSome ↔ key ∈ rows.assignments.map AssignmentRow.key := by
  simp [Rows.assignment, List.find?_isSome]

theorem assignment_setGrantType (rows : Rows ρ) (key other : AssignmentKey) (grantType : Text) :
    (rows.setGrantType key grantType).assignment other =
      (rows.assignment other).map fun row =>
        if row.key = key then { row with grantType } else row := by
  unfold Rows.setGrantType Rows.assignment
  rw [List.find?_map]
  congr 2
  funext row
  rw [Function.comp_apply, apply_ite AssignmentRow.key, ite_self]

/-- A grant that is there as it should be is left as it is. -/
theorem setGrantType_eq_self (hunique : (rows.assignments.map AssignmentRow.key).Nodup)
    (h : rows.assignment key = some ⟨key, grantType⟩) :
    rows.setGrantType key grantType = rows := by
  have hmem := (assignment_eq_some h).1
  have hassignments : (rows.assignments.map fun row =>
      if row.key = key then { row with grantType } else row) = rows.assignments := by
    refine (List.map_congr_left fun row hrow => ?_).trans (List.map_id _)
    split
    · next hkey =>
        have hsame : row = ⟨key, grantType⟩ := List.inj_on_of_nodup_map hunique hrow hmem hkey
        rw [hsame]
        rfl
    · rfl
  unfold Rows.setGrantType
  rw [hassignments]

theorem putAssignment_eq_self (hunique : (rows.assignments.map AssignmentRow.key).Nodup)
    (h : rows.assignment key = some ⟨key, grantType⟩) :
    rows.putAssignment key grantType = rows := by
  unfold Rows.putAssignment
  rw [if_pos (by rw [h]; rfl), setGrantType_eq_self hunique h]

theorem assignment_putAssignment (rows : Rows ρ) (key : AssignmentKey) (grantType : Text) :
    (rows.putAssignment key grantType).assignment key = some ⟨key, grantType⟩ := by
  unfold Rows.putAssignment
  cases hfound : rows.assignment key with
  | some row =>
      rw [if_pos Option.isSome_some, assignment_setGrantType, hfound]
      have hkey := (assignment_eq_some hfound).2
      simp [hkey]
  | none =>
      rw [if_neg (by simp)]
      unfold Rows.assignment at hfound ⊢
      simp [List.find?_append, hfound]

theorem assignment_putAssignment_other {other : AssignmentKey} (h : other ≠ key) :
    (rows.putAssignment key grantType).assignment other = rows.assignment other := by
  unfold Rows.putAssignment
  split
  · rw [assignment_setGrantType]
    cases hfound : rows.assignment other with
    | none => rfl
    | some row =>
        have hkey := (assignment_eq_some hfound).2
        rw [Option.map_some, if_neg (hkey ▸ h)]
  · unfold Rows.assignment
    simp [List.find?_append, Ne.symm h]

theorem putAssignment_grows (rows : Rows ρ) (key : AssignmentKey) :
    Grows rows (rows.putAssignment key permit) where
  groups _ _ h := by unfold Rows.putAssignment; split <;> exact h
  principals _ _ h := by unfold Rows.putAssignment; split <;> exact h
  targets _ _ _ h := by unfold Rows.putAssignment; split <;> exact h
  permits other h := by
    by_cases hsame : other = key
    · rw [hsame, assignment_putAssignment]
    · rw [assignment_putAssignment_other hsame, h]

theorem putAssignment_constraints (h : Constraints rows) (key : AssignmentKey)
    (grantType : Text) : Constraints (rows.putAssignment key grantType) := by
  unfold Rows.putAssignment
  split
  · exact ⟨h.groupIds, h.principalIds, h.targets, by rw [keys_setGrantType]; exact h.assignments⟩
  · next hnone =>
      exact ⟨h.groupIds, h.principalIds, h.targets,
        nodup_map_append h.assignments fun hmem => hnone (isSome_assignment.mpr hmem)⟩

theorem mem_putAssignment_other {row : AssignmentRow} (h : row.key ≠ key) :
    row ∈ (rows.putAssignment key grantType).assignments ↔ row ∈ rows.assignments := by
  unfold Rows.putAssignment
  split
  · unfold Rows.setGrantType
    rw [List.mem_map]
    constructor
    · intro hmem
      obtain ⟨before, hbefore, hrow⟩ := hmem
      split at hrow
      · next hkey => exact absurd (hrow ▸ hkey) h
      · exact hrow ▸ hbefore
    · exact fun hmem => ⟨row, hmem, if_neg h⟩
  · rw [List.mem_append, List.mem_singleton]
    exact or_iff_left fun hsame => h (hsame ▸ rfl)

/-- Only the assignments of the principal itself change. -/
theorem putAssignment_outside (h : Constraints rows) {named : GroupModel → Prop}
    {found : GroupModel} {principal : Principal} (hgroup : found ∈ rows.groups)
    (hnamed : named found) (hprincipal : rows.principal found.id = some principal)
    (hkey : key.principalId = principal.id) :
    SameOutside named rows (rows.putAssignment key grantType) where
  groups _ _ := by unfold Rows.putAssignment; split <;> exact Iff.rfl
  principals _ _ _ _ _ := by unfold Rows.putAssignment; split <;> exact Iff.rfl
  assignments group hother hnot other hmem hattached row hrow := by
    refine mem_putAssignment_other fun hsame => hnot ?_
    have hself := List.find?_some hprincipal
    have hprincipals : other = principal :=
      List.inj_on_of_nodup_map h.principalIds hmem (List.mem_of_find?_eq_some hprincipal)
        (hrow.symm.trans (hsame ▸ hkey))
    have hids : found.id = group.id :=
      Option.some.inj ((of_decide_eq_true hself).symm.trans (hprincipals ▸ hattached))
    exact List.inj_on_of_nodup_map h.groupIds hgroup hother hids ▸ hnamed

end Assignments

/-! ## Grants -/

section Grants

variable {ρ : Type} {core : Core ρ} {rows : Rows ρ} {group : GroupModel} {principal : Principal}

theorem groupOf_eq (h : Constraints rows) (hgroup : group ∈ rows.groups)
    (hprincipal : rows.principal group.id = some principal) :
    groupOf rows principal = some group := by
  have hid := List.find?_some hprincipal
  unfold groupOf
  rw [of_decide_eq_true hid, Option.bind_some]
  cases hfound : rows.groups.find? fun row => row.id = group.id with
  | none =>
      have hnone := List.find?_eq_none.mp hfound group hgroup
      simp at hnone
  | some found =>
      have hsame := List.find?_some hfound
      rw [List.inj_on_of_nodup_map h.groupIds (List.mem_of_find?_eq_some hfound) hgroup
        (of_decide_eq_true hsame)]

/-- Two rows at most are asked for, so one answer means that there is one row. -/
theorem filter_eq_of_take {groups : List GroupModel} {identifier : Text}
    (hgroup : group ∈ groups) (hidentifier : group.identifier = identifier)
    (h : ((groups.filter fun row => row.identifier = identifier).map GroupModel.id).take 2 =
      [group.id]) :
    (groups.filter fun row => row.identifier = identifier) = [group] := by
  have hmem : group ∈ groups.filter fun row => row.identifier = identifier :=
    List.mem_filter.mpr ⟨hgroup, decide_eq_true hidentifier⟩
  generalize (groups.filter fun row => row.identifier = identifier) = found at h hmem ⊢
  have hlength := congrArg List.length h
  rw [List.length_take, List.length_map, List.length_singleton] at hlength
  have hone : found.length = 1 := by omega
  obtain ⟨row, hrow⟩ := List.length_eq_one_iff.mp hone
  rw [hrow, List.mem_singleton] at hmem
  rw [hrow, hmem]

/-- Through the core or beside it, the grant of the principal is put. -/
theorem grantForExistingPrincipal_eq (hlaw : core.Lawful) (h : Constraints rows)
    (hgroup : group ∈ rows.groups) (hprincipal : rows.principal group.id = some principal)
    {target : TargetRow} (hfull : target.key.Full) (htarget : rows.target target.key = some target)
    (permission grantType : Text) :
    grantForExistingPrincipal core rows principal target permission grantType =
      .ok (rows.putAssignment ⟨principal.id, target.id, permission⟩ grantType) := by
  unfold grantForExistingPrincipal
  rw [groupOf_eq h hgroup hprincipal]
  dsimp only
  split
  · next hone =>
      rw [hlaw.permissionGranted rows group principal target permission grantType
        (filter_eq_of_take hgroup rfl hone) hprincipal hfull htarget]
  · rfl

end Grants

end M8flow.Identity.Seeding
