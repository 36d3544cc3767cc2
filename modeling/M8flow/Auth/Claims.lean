import M8flow.Auth.Membership
import M8flow.Identity.Users

/-!
# Verified claims and the local user

The claims that verifying a token gives (`integrations/auth/base/models.py`), and
what `auth/identity_helpers.py` and `authorization/__init__.py` decide from them
and from the local row of the user.
-/

namespace M8flow.Auth

open M8flow.Lib M8flow.Identity

/-- `TrustDomain`. -/
inductive TrustDomain where
  | platform
  | shared
  | tenant
  deriving Repr, DecidableEq

/-- `VerifiedClaims`, without the payload that is kept for debugging. -/
structure VerifiedClaims where
  subject : Text
  issuer : Text
  username : Option Text
  email : Option Text
  roles : List Text
  memberships : List Membership
  activeTenantRef : Option TenantRef
  issuerKey : Option Text
  trustDomain : Option TrustDomain
  membershipsComplete : Bool
  deriving Repr, DecidableEq

/-- `user_belongs_to_current_tenant`, for the effective identifiers. -/
def belongsTo (user : UserModel) (effectiveIdentifiers : List Text) : Bool :=
  effectiveIdentifiers = [] ||
    realmFromService (some user.service) ∈ effectiveIdentifiers ||
    (user.username.contains '@' && (user.username.rpartition '@').2.2 ∈ effectiveIdentifiers) ||
    user.groups.any fun identifier =>
      (identifier.partition ':').2.1 && (identifier.partition ':').1 ∈ effectiveIdentifiers

/-- `user_belongs_to_current_tenant`; `current` is `current_tenant_id_or_none()`. -/
def userBelongsToCurrentTenant (tenants : List TenantRow) (current : Option Text)
    (user : UserModel) (tenantId : Option Text) (tenantIdentifiers : List Text) : Bool :=
  belongsTo user
    (if tenantIdentifiers = [] then currentTenantIdentifiers tenants current tenantId
      else tenantIdentifiers)

/-- `local_user_from_claims`. -/
def localUserFromClaims (users : List UserModel) (claims : VerifiedClaims) : Option UserModel :=
  match nonblank (some claims.issuer), nonblank (some claims.subject) with
  | some issuer, some subject => findUserByServiceIdentity users issuer subject
  | _, _ => none

/-- `claims_user_belongs_to_tenant`. -/
def claimsUserBelongsToTenant (tenants : List TenantRow) (current : Option Text)
    (users : List UserModel) (claims : VerifiedClaims) (tenantId : Option Text)
    (tenantIdentifiers : List Text) : Bool :=
  (localUserFromClaims users claims).any fun user =>
    userBelongsToCurrentTenant tenants current user tenantId tenantIdentifiers

/-- `_actor_matches_verified_claims`. -/
def actorMatchesVerifiedClaims (user : UserModel) (claims : VerifiedClaims) : Bool :=
  (user.serviceId ≠ [] ∧ claims.subject ≠ [] ∧ user.serviceId = claims.subject) ∨
    (user.username ≠ [] ∧ truthy claims.username = some user.username)

/-- `actor_is_super_admin`; `claims` are the verified claims of the request. -/
def actorIsSuperAdmin (user : Option UserModel) (claims : Option VerifiedClaims) : Bool :=
  user.any fun user =>
    user.groups.contains superAdminRole ||
      claims.any fun claims =>
        actorMatchesVerifiedClaims user claims && claims.roles.contains superAdminRole

end M8flow.Auth
