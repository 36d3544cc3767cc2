import M8flow.Auth.Membership
import M8flow.Lib.Json

/-!
# Memberships in a Keycloak token

`integrations/auth/keycloak/claims.py` and `role_mapping.py`: the memberships that
the backend reads from the `organization` claim of a decoded payload.
-/

namespace M8flow.Keycloak

open M8flow.Lib M8flow.Auth

/-- The decoded payload of a token. -/
abbrev Payload := List (Text × Json)

/-- `_normalize_group_leaf`. -/
def normalizeGroupLeaf (value : Text) : Text :=
  Text.strip (Text.lastPart '/' (Text.stripWhere (· = '/') value.strip))

/-- `ORGANIZATION_GROUP_FOR_TENANT_ROLE`. -/
def organizationGroupForTenantRole : List (Text × Text) :=
  [("tenant-admin".toList, "Administrators".toList),
   ("editor".toList, "Designers".toList),
   ("integrator".toList, "Support".toList),
   ("reviewer".toList, "Approvers".toList),
   ("submitter".toList, "Submitters".toList),
   ("viewer".toList, "Viewers".toList)]

/-- `TENANT_ROLE_FOR_ORGANIZATION_GROUP`. -/
def tenantRoleForOrganizationGroup : List (Text × Text) :=
  organizationGroupForTenantRole.map fun entry => (entry.2, entry.1)

/-- `tenant_roles_for_organization_group`. -/
def tenantRolesForOrganizationGroup (groupName : Text) : List Text :=
  let normalized := Text.stripWhere (· = '/') groupName.strip
  if normalized = [] then []
  else
    let leaf :=
      if normalized.contains '/' then (Text.lastPart '/' normalized).strip else normalized
    match tenantRoleForOrganizationGroup.lookup leaf with
    | some mapped => [mapped]
    | none => if leaf ∈ validTenantRoleNames then [leaf] else []

/-- The entries of the organization claim: an alias, if it has one, and details. -/
def organizationEntries (claim : Option Json) : List (Option Text × List (Text × Json)) :=
  match claim with
  | some (.obj fields) => fields.filterMap fun (tenantAlias, details) =>
      match details with
      | .obj details => some (nonblank (some tenantAlias), details)
      | _ => (nonblank (some tenantAlias)).map fun tenantAlias => (some tenantAlias, [])
  | some (.arr items) => items.filterMap fun item =>
      match item with
      | .str s => (nonblank (some s)).map fun s => (some s, [])
      | .obj details =>
          some (((Json.field details "alias".toList).bind Json.asText).map Text.strip, details)
      | _ => none
  | _ => []

/-- The strings of a list value. -/
def strings : Option Json → List Text
  | some (.arr items) => items.filterMap Json.asText
  | _ => []

/-- The membership of an entry. -/
def membershipOf (entry : Option Text × List (Text × Json)) : Membership :=
  let leaves := ((strings (Json.field entry.2 "groups".toList)).map normalizeGroupLeaf).filter
    fun leaf => leaf ≠ []
  { tenantRef :=
      { id := nonblank ((Json.field entry.2 "id".toList).bind Json.asText)
        tenantAlias := entry.1
        name := nonblank ((Json.field entry.2 "name".toList).bind Json.asText) }
    roles := (leaves.flatMap tenantRolesForOrganizationGroup).eraseDups
    groups := leaves.eraseDups
    rolesComplete := false }

/-- `memberships_from_organization_claim`. -/
def membershipsFromOrganizationClaim (payload : Payload) : List Membership :=
  (organizationEntries (Json.field payload "organization".toList)).map membershipOf

example : membershipsFromOrganizationClaim
    [("organization".toList, .obj [("acme".toList, .obj [("groups".toList,
      .arr [.str "/Designers".toList])])])] =
    [⟨⟨none, some "acme".toList, none⟩, ["editor".toList], ["Designers".toList], false⟩] := by
  decide +kernel

/-! ## Entries that are there -/

/-- An item of the claim that the backend takes for a membership: an organization by name,
or details of one. -/
inductive IsEntry : Json → Prop where
  | mapDetails {fields tenantAlias details} :
      (tenantAlias, .obj details) ∈ fields → IsEntry (.obj fields)
  | mapAlias {fields tenantAlias details} :
      (tenantAlias, details) ∈ fields → Text.strip tenantAlias ≠ [] → IsEntry (.obj fields)
  | listAlias {items s} : .str s ∈ items → Text.strip s ≠ [] → IsEntry (.arr items)
  | listDetails {items details} : .obj details ∈ items → IsEntry (.arr items)

theorem nonblank_some_eq {s : Text} (h : s.strip ≠ []) : nonblank (some s) = some s.strip :=
  nonblank_eq_some.mpr ⟨s, rfl, rfl, h⟩

/-- The backend finds a membership exactly where the claim has an entry. -/
theorem organizationEntries_ne_nil (claim : Option Json) :
    organizationEntries claim ≠ [] ↔ ∃ value, claim = some value ∧ IsEntry value := by
  constructor
  · intro h
    obtain ⟨entry, hentry⟩ := List.exists_mem_of_ne_nil _ h
    unfold organizationEntries at hentry
    split at hentry
    · rename_i fields
      refine ⟨_, rfl, ?_⟩
      obtain ⟨⟨tenantAlias, details⟩, hmem, hentry⟩ := List.mem_filterMap.mp hentry
      dsimp only at hentry
      split at hentry
      · exact .mapDetails hmem
      · obtain ⟨s, hs, _⟩ := Option.map_eq_some_iff.mp hentry
        obtain ⟨given, hgiven, hstrip, hne⟩ := nonblank_eq_some.mp hs
        cases hgiven
        exact .mapAlias hmem (hstrip ▸ hne)
    · rename_i items
      refine ⟨_, rfl, ?_⟩
      obtain ⟨item, hmem, hentry⟩ := List.mem_filterMap.mp hentry
      split at hentry
      · obtain ⟨s, hs, _⟩ := Option.map_eq_some_iff.mp hentry
        obtain ⟨given, hgiven, hstrip, hne⟩ := nonblank_eq_some.mp hs
        cases hgiven
        exact .listAlias hmem (hstrip ▸ hne)
      · exact .listDetails hmem
      · cases hentry
    · cases hentry
  · rintro ⟨value, rfl, hvalue⟩
    have hmem : ∃ entry, entry ∈ organizationEntries (some value) := by
      cases hvalue with
      | @mapDetails fields tenantAlias details hfield =>
          exact ⟨_, List.mem_filterMap.mpr ⟨_, hfield, rfl⟩⟩
      | @mapAlias fields tenantAlias details hfield hne =>
          cases details with
          | obj details => exact ⟨_, List.mem_filterMap.mpr ⟨_, hfield, rfl⟩⟩
          | _ =>
              exact ⟨(some tenantAlias.strip, []), List.mem_filterMap.mpr
                ⟨_, hfield, by simp [nonblank_some_eq hne]⟩⟩
      | @listAlias items s hitem hne =>
          exact ⟨(some s.strip, []), List.mem_filterMap.mpr
            ⟨_, hitem, by simp [nonblank_some_eq hne]⟩⟩
      | @listDetails items details hitem =>
          exact ⟨_, List.mem_filterMap.mpr ⟨_, hitem, rfl⟩⟩
    obtain ⟨entry, hentry⟩ := hmem
    exact List.ne_nil_of_mem hentry

end M8flow.Keycloak
