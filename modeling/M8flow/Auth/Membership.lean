import M8flow.Auth.Tenant

/-!
# Memberships and the active tenant

`integrations/auth/core/membership.py` and `auth/resolve.py`: which of the
memberships of a token, or of the directory, is the one for the active tenant,
and which group identifiers it grants.
-/

namespace M8flow.Auth

open M8flow.Lib

/-- A tenant as a token references it, by `id`, `alias` and `name`. -/
structure TenantRef where
  id : Option Text
  tenantAlias : Option Text
  name : Option Text
  deriving Repr, DecidableEq

/-- A user's membership in one organization. -/
structure Membership where
  tenantRef : TenantRef
  roles : List Text
  groups : List Text
  rolesComplete : Bool
  deriving Repr, DecidableEq

/-- `_ref_tokens`. -/
def refTokens (membership : Membership) : List Text :=
  normalizedIdentifiers
    [membership.tenantRef.id, membership.tenantRef.tenantAlias, membership.tenantRef.name]

/-- The identifiers that make a match exact: the tenant id and its row's id. -/
def wantedIdentifiers (tenants : List TenantRow) (tenantId : Text) : List Text :=
  (nonblank (some tenantId)).toList ++ (canonicalTenantId tenants [some tenantId]).toList

/-- `tokens & wanted`. -/
def exactMatch (tenants : List TenantRow) (tenantId : Text) (membership : Membership) : Bool :=
  (refTokens membership).any fun token => token ∈ wantedIdentifiers tenants tenantId

/-- The tokens and the tenant id resolve together to a wanted row. -/
def canonicalMatch (tenants : List TenantRow) (tenantId : Text) (membership : Membership) :
    Bool :=
  (canonicalTenantId tenants ((refTokens membership).map some ++ [some tenantId])).any
    fun canonical => canonical ∈ wantedIdentifiers tenants tenantId

/-- `membership_for_active_tenant`. -/
def membershipForActiveTenant (tenants : List TenantRow) (memberships : List Membership)
    (tenantId : Text) : Option Membership :=
  if wantedIdentifiers tenants tenantId = [] then none
  else
    let exact := memberships.filter fun m => exactMatch tenants tenantId m
    let canonicalHits := memberships.filter fun m =>
      ¬ exactMatch tenants tenantId m ∧ canonicalMatch tenants tenantId m
    exact.head?.or canonicalHits.head?

/-- `active_membership_needs_enrichment`. -/
def activeMembershipNeedsEnrichment (memberships : List Membership)
    (membership : Option Membership) (requireLaneGroups : Bool) : Bool :=
  if memberships = [] then false
  else
    match membership with
    | none => true
    | some m =>
        if requireLaneGroups then m.groups = []
        else if m.rolesComplete then false
        else m.roles = [] && m.groups = []

/-- A directory answers with the memberships of a username, or raises. -/
abbrev Directory := Text → Option (List Membership)

/-- `enrich_active_membership`. -/
def enrichActiveMembership (username : Option Text) (tenantId : Text)
    (membership : Option Membership) (directory : Directory) (tenants : List TenantRow) :
    Option Membership :=
  match nonblank username with
  | none => membership
  | some name =>
      match directory name with
      | none => membership
      | some directoryMemberships =>
          (membershipForActiveTenant tenants directoryMemberships tenantId).or membership

/-! ## Groups -/

def superAdminRole : Text := "super-admin".toList

/-- `VALID_TENANT_ROLE_NAMES`. -/
def validTenantRoleNames : List Text :=
  ["tenant-admin".toList, "editor".toList, "integrator".toList, "reviewer".toList,
    "submitter".toList, "viewer".toList]

/-- `qualify_group_identifier`; `current` is `current_tenant_id_or_none()`. -/
def qualifyGroupIdentifier (current : Option Text) (groupIdentifier : Text)
    (tenantId : Option Text) : Text :=
  let identifier := groupIdentifier.strip
  if identifier = [] then identifier
  else if identifier = superAdminRole then superAdminRole
  else
    let parts := identifier.partition ':'
    if parts.2.1 ∧ parts.1 ≠ [] ∧ parts.2.2 ≠ [] then identifier
    else
      let effective := Text.strip (((truthy tenantId).or current).getD [])
      if effective = [] then identifier else effective ++ ':' :: identifier

/-- The loop of an `_add` that strips and keeps the first of equal identifiers. -/
def addAll (values : List Text) : List Text :=
  ((values.map Text.strip).filter fun s => s ≠ []).eraseDups

/-- `group_identifiers_for_membership`. -/
def groupIdentifiersForMembership (current : Option Text) (membership : Option Membership)
    (roles : List Text) (canonicalTenantId : Text) : List Text :=
  let global := if superAdminRole ∈ roles then [superAdminRole] else []
  let names :=
    match membership with
    | none => []
    | some m => ((m.roles ++ m.groups).map Text.strip).filter fun name =>
        name ∈ validTenantRoleNames
  addAll (global ++ names.map fun name =>
    qualifyGroupIdentifier current name (some canonicalTenantId))

/-- `lane_group_identifiers_for_membership`. -/
def laneGroupIdentifiersForMembership (membership : Option Membership) : List Text :=
  match membership with
  | none => []
  | some m => addAll (m.groups.map fun value =>
      Text.lastPart '/' (Text.stripWhere (· = '/') value.strip))

/-- The result of `select`. -/
structure ActiveTenant where
  tenantId : Text
  membership : Option Membership
  groupIdentifiers : List Text
  laneGroupIdentifiers : List Text
  deriving Repr, DecidableEq

/-- The arguments of `select`. -/
structure Selection where
  memberships : List Membership
  roles : List Text
  tenantId : Text
  username : Option Text
  directory : Directory
  tenants : List TenantRow
  requireLaneGroups : Bool
  /-- `current_tenant_id_or_none()` of the request. -/
  current : Option Text

/-- The membership that `select` works with. -/
def Selection.membership (selection : Selection) : Option Membership :=
  let found :=
    membershipForActiveTenant selection.tenants selection.memberships selection.tenantId
  if activeMembershipNeedsEnrichment selection.memberships found selection.requireLaneGroups then
    enrichActiveMembership selection.username selection.tenantId found selection.directory
      selection.tenants
  else found

/-- `select`. -/
def select (selection : Selection) : ActiveTenant :=
  let membership := selection.membership
  let tenantId :=
    (canonicalTenantId selection.tenants
      [some selection.tenantId, membership.bind fun m => m.tenantRef.id,
        membership.bind fun m => m.tenantRef.tenantAlias]).getD selection.tenantId
  { tenantId
    membership
    groupIdentifiers :=
      groupIdentifiersForMembership selection.current membership selection.roles tenantId
    laneGroupIdentifiers := laneGroupIdentifiersForMembership membership }

end M8flow.Auth
