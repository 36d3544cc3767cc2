import M8flow.Auth.Claims
import M8flow.Keycloak.Oidc
import Mathlib.Data.Char
import Mathlib.Data.List.Lex
import Mathlib.Data.List.Sort

/-!
# Claims of a token

From a verified payload to `VerifiedClaims`: `integrations/auth/keycloak/claims.py` and
`provider.py`, the contract claim of `core/contract.py`, and the policy of `core/trust.py`.

- `verifiedClaimsFromPayload` reads the claims of Keycloak.
- `contractIsValid` is the schema of the contract claim, `parseContractClaim` its reader.
- `trustDomain` is decided from the issuer alone.
- `enforceTrustPolicy` takes the platform's role from everyone else's claims.
-/

namespace M8flow.Keycloak

open M8flow.Lib M8flow.Auth

/-! ## The claims of Keycloak -/

/-- `_string`, and `_string_claim` of a claim by name. -/
def stringClaim (payload : Payload) (name : String) : Option Text :=
  nonblank ((Json.field payload name.toList).bind Json.asText)

/-- `_iter_role_strings`. -/
def iterRoleStrings (payload : Payload) : List Text :=
  let realmAccess := (Json.field payload "realm_access".toList).bind fun value =>
    value.get? "roles".toList
  (((strings (Json.field payload "roles".toList) ++ strings realmAccess ++
    strings (Json.field payload "groups".toList)).map normalizeGroupLeaf).filter
      fun leaf => leaf ≠ []).eraseDups

/-- The role names for a role string. -/
def translateRole (name : Text) : List Text :=
  let translated := tenantRolesForOrganizationGroup name
  (if translated = [] then [name] else translated).map fun piece =>
    if piece = "super-admin".toList then superAdminRole else piece

/-- `_active_tenant_ref_from_payload`. -/
def activeTenantRefFromPayload (payload : Payload) (memberships : List Membership) :
    Option TenantRef :=
  let id := stringClaim payload "m8flow_tenant_id"
  let tenantAlias := stringClaim payload "m8flow_tenant_alias"
  if id.isSome ∨ tenantAlias.isSome then some { id, tenantAlias, name := none }
  else if memberships.length = 1 then memberships.head?.map Membership.tenantRef
  else none

/-- The roles of `verified_claims_from_payload`. -/
def flattenedRoles (payload : Payload) (memberships : List Membership) : List Text :=
  ((iterRoleStrings payload).flatMap translateRole ++
    memberships.flatMap Membership.roles).eraseDups

/-- `verified_claims_from_payload`: nothing stands for the `ValueError`. -/
def verifiedClaimsFromPayload (payload : Payload) : Option VerifiedClaims :=
  match stringClaim payload "sub", stringClaim payload "iss" with
  | some subject, some issuer =>
      let memberships := membershipsFromOrganizationClaim payload
      some
        { subject
          issuer
          username := (stringClaim payload "preferred_username").or (stringClaim payload "username")
          email := stringClaim payload "email"
          roles := flattenedRoles payload memberships
          memberships
          activeTenantRef := activeTenantRefFromPayload payload memberships
          issuerKey := none
          trustDomain := none
          membershipsComplete := false }
  | _, _ => none

/-! ## The contract claim -/

/-- A string that has between `least` and `most` characters. -/
def isStringOf (least : Nat) (most : Option Nat) : Json → Bool
  | .str s => decide (least ≤ s.length) && most.all fun most => s.length ≤ most
  | _ => false

/-- A missing property, or one that meets its schema. -/
def propertyIsValid (fields : List (Text × Json)) (name : String) (valid : Json → Bool) : Bool :=
  (Json.field fields name.toList).all valid

/-- An array of different strings that meet a schema. -/
def isUniqueArray (valid : Json → Bool) : Json → Bool
  | .arr items => items.all valid && decide (items.filterMap Json.asText).Nodup
  | _ => false

def isBoolean : Json → Bool
  | .bool _ => true
  | _ => false

/-- `$defs/tenantRef`. -/
def tenantRefIsValid : Json → Bool
  | .obj fields =>
      fields ≠ [] && fields.all (fun entry =>
        entry.1 ∈ ["id".toList, "alias".toList, "name".toList]) &&
      propertyIsValid fields "id" (isStringOf 1 none) &&
      propertyIsValid fields "alias" (isStringOf 1 none) &&
      propertyIsValid fields "name" (isStringOf 0 none)
  | _ => false

/-- `$defs/grant`. -/
def grantIsValid : Json → Bool
  | .obj fields =>
      fields.all (fun entry => entry.1 ∈ ["tenant".toList, "roles".toList, "groups".toList,
        "roles_complete".toList]) &&
      (Json.field fields "tenant".toList).any tenantRefIsValid &&
      propertyIsValid fields "roles" (isUniqueArray fun role =>
        role.asText.any fun name => name ∈ validTenantRoleNames) &&
      propertyIsValid fields "groups" (isUniqueArray (isStringOf 1 (some 255))) &&
      propertyIsValid fields "roles_complete" isBoolean
  | _ => false

/-- The domain that a contract claim hints at. -/
def domainOf : Json → Option TrustDomain
  | .str s =>
      [("platform".toList, TrustDomain.platform), ("shared".toList, .shared),
        ("tenant".toList, .tenant)].lookup s
  | _ => none

/-- `m8flow-claims.v1.schema.json`. -/
def contractIsValid (fields : List (Text × Json)) : Bool :=
  (Json.field fields "v".toList).any (fun v => match v with | .num n => n = 1 | _ => false) &&
  propertyIsValid fields "domain" (fun domain => (domainOf domain).isSome) &&
  propertyIsValid fields "active_tenant" tenantRefIsValid &&
  propertyIsValid fields "tenants" (fun tenants => match tenants with
    | .arr items => decide (items.length ≤ 50) && items.all grantIsValid
    | _ => false) &&
  propertyIsValid fields "tenants_complete" isBoolean &&
  propertyIsValid fields "platform_roles" (isUniqueArray fun role =>
    role.asText = some superAdminRole)

/-- `trust_domain.value`. -/
def domainText : TrustDomain → String
  | .platform => "platform"
  | .shared => "shared"
  | .tenant => "tenant"

/-- `ContractClaims`. -/
structure ContractClaims where
  memberships : List Membership
  membershipsComplete : Bool
  activeTenantRef : Option TenantRef
  platformRoles : List Text
  deriving Repr, DecidableEq

/-- `_tenant_ref`. -/
def contractTenantRef (fields : List (Text × Json)) : TenantRef where
  id := stringClaim fields "id"
  tenantAlias := stringClaim fields "alias"
  name := stringClaim fields "name"

/-- The membership of a grant. -/
def grantMembership (fields : List (Text × Json)) : Membership where
  tenantRef :=
    match Json.field fields "tenant".toList with
    | some (.obj tenant) => contractTenantRef tenant
    | _ => ⟨none, none, none⟩
  roles := strings (Json.field fields "roles".toList)
  groups := strings (Json.field fields "groups".toList)
  rolesComplete :=
    match Json.field fields "roles_complete".toList with
    | some (.bool complete) => complete
    | _ => false

/-- `_bind_to_issuer`. -/
def bindToIssuer (issuerKey : Option Text) (ref : TenantRef) : Except String TenantRef :=
  match truthy issuerKey with
  | some key =>
      if ref.tenantAlias = some key then .ok ⟨none, some key, none⟩
      else .error "A tenant-domain issuer may only assert its own tenant"
  | none => .error "A tenant-domain issuer may only assert its own tenant"

/-- What the messages say of a value: `f"{value!r}"` and `exc.message`. -/
structure Messages where
  repr : Option Json → String
  schemaMessage : List (Text × Json) → String

/-- The tenants that a tenant's own issuer asserts. -/
def bindTenants (issuerKey : Option Text) (claims : ContractClaims) :
    Except String ContractClaims := do
  if claims.memberships.length > 1 then
    throw "A tenant-domain issuer may assert at most one tenant"
  let memberships ← claims.memberships.mapM fun m =>
    (bindToIssuer issuerKey m.tenantRef).map fun tenantRef => { m with tenantRef }
  let active ← match claims.activeTenantRef with
    | some active => (bindToIssuer issuerKey active).map some
    | none => pure (memberships.head?.map Membership.tenantRef)
  pure { claims with memberships, activeTenantRef := active }

/-- What a contract claim asserts, once it is valid. -/
def contractClaims (domain : TrustDomain) (fields : List (Text × Json)) : ContractClaims where
  memberships :=
    match Json.field fields "tenants".toList with
    | some (.arr grants) => grants.filterMap fun grant =>
        match grant with
        | .obj fields => some (grantMembership fields)
        | _ => none
    | _ => []
  membershipsComplete :=
    match Json.field fields "tenants_complete".toList with
    | some (.bool complete) => complete
    | _ => false
  activeTenantRef :=
    match Json.field fields "active_tenant".toList with
    | some (.obj tenant) => some (contractTenantRef tenant)
    | _ => none
  platformRoles :=
    if domain = .platform then (strings (Json.field fields "platform_roles".toList)).dedup else []

/-- `version in SUPPORTED_CONTRACT_VERSIONS`; the value `true` equals 1. -/
def isSupportedVersion (version : Option Json) : Bool :=
  match version with
  | some (.num n) => n = 1
  | some (.bool b) => b
  | _ => false

/-- `parse_contract_claim`. -/
def parseContractClaim (messages : Messages) (payload : Payload) (claimKey : Text)
    (domain : TrustDomain) (issuerKey : Option Text) : Except String (Option ContractClaims) :=
  match Json.field payload claimKey with
  | none | some .null => .ok none
  | some (.obj fields) =>
      if ¬ isSupportedVersion (Json.field fields "v".toList) then
        .error ("Unsupported m8flow contract claim version " ++
          messages.repr (Json.field fields "v".toList))
      else if ¬ contractIsValid fields then
        .error ("Invalid m8flow contract claim: " ++ messages.schemaMessage fields)
      else if ((Json.field fields "domain".toList).bind domainOf).any (· ≠ domain) then
        .error ("m8flow contract claim domain " ++ messages.repr (Json.field fields "domain".toList)
          ++ " does not match the issuer's trust domain '" ++ domainText domain ++ "'")
      else if domain = .tenant then
        (bindTenants issuerKey (contractClaims domain fields)).map some
      else .ok (some (contractClaims domain fields))
  | some _ => .error "m8flow contract claim must be an object"

/-! ## The provider -/

/-- `_same_tenant`. -/
def sameTenant (a b : TenantRef) : Bool :=
  match a.id, b.id with
  | some left, some right => left = right
  | _, _ =>
      match a.tenantAlias, b.tenantAlias with
      | some left, some right => left = right
      | _, _ =>
          match a.name, b.name with
          | some left, some right => left = right
          | _, _ => false

section Provider

variable (settings : KeycloakSettings) (messages : Messages)

/-- `is_master_issuer`. -/
def isMasterIssuer (claims : VerifiedClaims) : Bool :=
  extractRealmFromIssuer (some claims.issuer) = some settings.masterRealmName

/-- `trust_domain`. -/
def trustDomain (claims : VerifiedClaims) : TrustDomain :=
  if isMasterIssuer settings claims then .platform
  else
    let issuerRealm := extractRealmFromIssuer (some claims.issuer)
    if issuerRealm = none ∨ issuerRealm = some settings.sharedRealmName then .shared else .tenant

/-- The flat roles beside a contract claim. -/
def contractRoles (payload : Payload) (contract : ContractClaims) : List Text :=
  let topLevel := flattenedRoles payload []
  let activeRoles := contract.memberships.flatMap fun m =>
    if contract.activeTenantRef.any (sameTenant m.tenantRef) then m.roles else []
  (topLevel ++ activeRoles ++
    contract.platformRoles.insertionSort fun role other => role ≤ other).eraseDups

/-- `_apply_contract_claim`. -/
def applyContractClaim (claims : VerifiedClaims) (payload : Payload) (domain : TrustDomain) :
    Except String VerifiedClaims :=
  (parseContractClaim messages payload settings.contractClaimKey domain claims.issuerKey).map
    fun contract =>
      match contract with
      | none => claims
      | some contract =>
          { claims with
            roles := contractRoles payload contract
            memberships := contract.memberships
            membershipsComplete := contract.membershipsComplete
            activeTenantRef := contract.activeTenantRef }

/-- `map_claims`. -/
def mapClaims (payload : Payload) : Except String VerifiedClaims :=
  match verifiedClaimsFromPayload payload with
  | none => .error "Verified payload is missing sub or iss"
  | some claims =>
      let domain := trustDomain settings claims
      let claims := { claims with
        issuerKey := extractRealmFromIssuer (some claims.issuer), trustDomain := some domain }
      if settings.contractClaimsEnabled then applyContractClaim settings messages claims payload domain
      else .ok claims

/-- `_without_super_admin`. -/
def withoutSuperAdmin (values : List Text) : List Text :=
  values.filter fun value => value.strip ≠ superAdminRole

/-- `enforce_trust_policy`. -/
def enforceTrustPolicy (claims : VerifiedClaims) (domain : TrustDomain) : VerifiedClaims :=
  if domain = .platform then claims
  else
    { claims with
      roles := withoutSuperAdmin claims.roles
      memberships := claims.memberships.map fun m =>
        { m with roles := withoutSuperAdmin m.roles, groups := withoutSuperAdmin m.groups } }

/-- `verify_token`. -/
def verifyToken {κ : Type} (backend : Backend κ) (token : Text) :
    Except AuthError VerifiedClaims :=
  match verifyAccessToken settings backend token with
  | .error e => .error e
  | .ok payload =>
      match mapClaims settings messages payload with
      | .error message => .error (.tokenInvalid message)
      | .ok claims =>
          .ok (enforceTrustPolicy claims (claims.trustDomain.getD (trustDomain settings claims)))

end Provider

end M8flow.Keycloak
