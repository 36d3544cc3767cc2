import M8flow.Auth.Claims
import M8flow.Errors

/-!
# Binding the tenant of a request

`auth/bind.py` and `auth/tenant_context.py`: how the tenant of a request is
resolved and bound before the route runs, and the lookups by which routes read
it afterwards.  A request is what the client and the database hold; the scope is
what the request's context stores and later lookups read and rewrite.
-/

namespace M8flow.Auth

open M8flow.Lib M8flow.Identity

/-- What binding and the lookups read of a request. -/
structure Request where
  tenants : List TenantRow
  users : List UserModel
  user : Option UserModel
  claims : Option VerifiedClaims
  /-- The tenant claim of the decoded token, if it is a text. -/
  tenantClaim : Option Text
  /-- The selected-tenant cookie, as the client sent it. -/
  cookie : Option Text
  /-- The `x-m8flow-tenant-id` header. -/
  header : Option Text
  /-- The query parameters `tenantId` and `tenant_id`. -/
  tenantIdArg : Option Text
  tenantIdSnakeArg : Option Text
  path : Text
  /-- The prefix that the deployment puts before every path. -/
  wsgiPathPrefix : Text
  deriving Repr

/-- The tenant in `flask.g`, the one in the context variable, and the exemption mark. -/
structure Scope where
  tenant : Option Text
  context : Option Text
  exempt : Bool
  deriving Repr, DecidableEq

/-- How a lookup refuses. -/
inductive Refusal where
  | apiError (error : ApiError)
  | runtimeError (message : String)
  deriving Repr, DecidableEq

/-! ## Exempt paths -/

/-- `_BASE_TENANT_CONTEXT_EXEMPT_PATH_PREFIXES`. -/
def baseTenantContextExemptPathPrefixes : List Text :=
  ["/.well-known".toList, "/favicon.ico".toList, "/v1.0/ping".toList, "/v1.0/m8flow/ping".toList,
    "/v1.0/healthy".toList, "/v1.0/status".toList, "/v1.0/readyz".toList,
    "/v1.0/openapi.json".toList, "/v1.0/openapi.yaml".toList, "/openapi.yaml".toList,
    "/v1.0/ui".toList, "/v1.0/static".toList, "/v1.0/m8flow/openapi.json".toList,
    "/v1.0/m8flow/openapi.yaml".toList, "/v1.0/m8flow/ui".toList, "/v1.0/logout".toList,
    "/v1.0/authentication-options".toList, "/v1.0/login".toList, "/v1.0/refresh".toList,
    "/v1.0/tenants/check".toList, "/v1.0/m8flow/tenant-login-url".toList,
    "/v1.0/m8flow/organization-memberships".toList, "/v1.0/m8flow/tenant-realms".toList,
    "/v1.0/m8flow/create-tenant".toList, "/m8flow/create-tenant".toList,
    "/m8flow/organization-memberships".toList, "/v1.0/m8flow/session".toList,
    "/m8flow/session".toList, "/v1.0/m8flow/tenants".toList, "/m8flow/tenants".toList,
    "/v1.0/m8flow/invitations".toList, "/m8flow/invitations".toList]

/-- `TENANT_CONTEXT_EXEMPT_PATH_PREFIXES`. -/
def tenantContextExemptPathPrefixes (wsgiPathPrefix : Text) : List Text :=
  baseTenantContextExemptPathPrefixes ++
    if wsgiPathPrefix.strip = [] then []
    else baseTenantContextExemptPathPrefixes.map fun path => wsgiPathPrefix.strip ++ path

/-- `path_matches_prefix`. -/
def pathMatchesPrefix (path pathPrefix : Text) : Bool :=
  path = pathPrefix ||
    (if pathPrefix.getLast? = some '/' then pathPrefix else pathPrefix ++ ['/']).isPrefixOf path

/-- `_path_is_exempt`. -/
def Request.pathIsExempt (request : Request) : Bool :=
  (tenantContextExemptPathPrefixes request.wsgiPathPrefix).any fun pathPrefix =>
    pathMatchesPrefix request.path pathPrefix

/-! ## Binding -/

/-- `is_super_admin_request`. -/
def Request.superAdmin (request : Request) : Bool :=
  actorIsSuperAdmin request.user request.claims

/-- `tenant_override_for_super_admin`. -/
def Request.tenantOverride (request : Request) (isSuperAdmin : Bool) : Option Text :=
  if isSuperAdmin then (truthy request.tenantIdArg).or (truthy request.tenantIdSnakeArg) else none

/-- `_canonical`. -/
def Request.canonical (request : Request) (tenantId : Text) : Text :=
  match canonicalTenantId request.tenants [some tenantId] with
  | some canonical => canonical
  | none =>
      let memberships := (request.claims.map VerifiedClaims.memberships).getD []
      let mapped :=
        (membershipForActiveTenant request.tenants memberships tenantId).bind fun m =>
          canonicalTenantId request.tenants [m.tenantRef.id, m.tenantRef.tenantAlias]
      mapped.getD tenantId.strip

/-- `_claims_match_cookie`. -/
def Request.claimsMatchCookie (request : Request) (current : Option Text) (cookie : Text) : Bool :=
  request.claims.any fun claims =>
    let identifiers := currentTenantIdentifiers request.tenants current (some cookie)
    let selected := if identifiers = [] then [cookie] else identifiers
    (claims.memberships.any fun m =>
      (truthy m.tenantRef.tenantAlias).any (fun name => name ∈ selected) ||
        (truthy m.tenantRef.id).any fun id => id ∈ selected) ||
      claimsUserBelongsToTenant request.tenants current request.users claims (some cookie) selected

/-- `_jwt_tenant`. -/
def Request.jwtTenant (request : Request) : Option Text :=
  let active :=
    (request.claims.bind VerifiedClaims.activeTenantRef).bind fun ref =>
      (truthy ref.id).or (truthy ref.tenantAlias)
  (active.filter isConcreteTenantId).or
    ((request.tenantClaim.filter isConcreteTenantId).map Text.strip)

/-- `current_tenant_id_or_none`. -/
def Scope.current (scope : Scope) : Option Text :=
  ((scope.tenant.filter isConcreteTenantId).map Text.strip).or
    ((scope.context.filter isConcreteTenantId).map Text.strip)

/-- `_user_belongs`. -/
def Request.userBelongs (request : Request) (scope : Scope) (tenantId : Text) : Bool :=
  request.user.any fun user =>
    userBelongsToCurrentTenant request.tenants scope.current user (some tenantId) []

/-- `bind_request_tenant`. -/
def bindRequestTenant (request : Request) (scope : Scope) (tenantId : Text) : Scope :=
  { scope with
    tenant := some (request.canonical tenantId)
    context := some (request.canonical tenantId) }

/-- `mark_tenant_exempt`. -/
def markTenantExempt (scope : Scope) : Scope := { scope with exempt := true }

def tenantRequired (message : String) : ApiError := ApiError.of "tenant_required" message 400

def tenantOverrideForbidden (source : String) : ApiError :=
  ApiError.of "tenant_override_forbidden"
    ("Tenant override forbidden via " ++ source ++
      "; the authenticated user does not belong to that tenant.") 400

/-- `resolve_request_tenant`. -/
def resolveRequestTenant (request : Request) (scope : Scope) : Except ApiError Scope :=
  if request.superAdmin then
    match (request.tenantOverride true).filter isConcreteTenantId with
    | some override => .ok (bindRequestTenant request scope override.strip)
    | none =>
        match request.cookie.filter isConcreteTenantId with
        | some cookie => .ok (bindRequestTenant request scope cookie.strip)
        | none => .ok (markTenantExempt scope)
  else
    let cookie := nonblank request.cookie
    match cookie.filter fun cookie => request.claimsMatchCookie scope.current cookie with
    | some cookie => .ok (bindRequestTenant request scope cookie)
    | none =>
        match request.jwtTenant with
        | some tenantId => .ok (bindRequestTenant request scope tenantId)
        | none =>
            match request.user, nonblank request.header, cookie with
            | none, _, _ => .ok (if request.pathIsExempt then markTenantExempt scope else scope)
            | some _, some header, _ =>
                if request.userBelongs scope header then
                  .ok (bindRequestTenant request scope header)
                else .error (tenantOverrideForbidden "x-m8flow-tenant-id")
            | some _, none, some cookie =>
                if request.userBelongs scope cookie then
                  .ok (bindRequestTenant request scope cookie)
                else .error (tenantOverrideForbidden "m8flow_selected_tenant")
            | some _, none, none =>
                if request.pathIsExempt then .ok (markTenantExempt scope)
                else
                  .error (tenantRequired
                    ("Tenant context could not be resolved from authentication data for path '" ++
                      String.ofList request.path ++ "'."))

/-! ## Lookups -/

/-- `tenant_id_from_selected_cookie`. -/
def tenantIdFromSelectedCookie (request : Request) (scope : Scope) : Option Text :=
  (truthy request.cookie).or scope.tenant

/-- The answer of a lookup: no tenant stands for all of them. -/
abbrev Answer := Except Refusal (Option Text)

def cookieRequired : Answer :=
  .error (.apiError (tenantRequired "m8flow_selected_tenant cookie is required"))

/-- `require_tenant_id`. -/
def requireTenantId (request : Request) (scope : Scope) (allowSuperAdminOverride : Bool) :
    Answer × Scope :=
  let override :=
    if allowSuperAdminOverride then request.tenantOverride request.superAdmin else none
  match truthy (override.or (tenantIdFromSelectedCookie request scope)) with
  | none => (cookieRequired, scope)
  | some tenantId =>
      (.ok (some (request.canonical tenantId)),
        { scope with tenant := some (request.canonical tenantId) })

/-- `resolve_read_tenant_id`. -/
def resolveReadTenantId (request : Request) (scope : Scope) : Answer × Scope :=
  if request.superAdmin then
    match truthy ((request.tenantOverride true).or (tenantIdFromSelectedCookie request scope)) with
    | some tenantId => (.ok (some tenantId), { scope with tenant := some tenantId })
    | none => (.ok none, scope)
  else requireTenantId request scope true

/-- A tenant id that is concrete, stripped. -/
def concrete (tenantId : Option Text) : Option Text :=
  (tenantId.filter isConcreteTenantId).map Text.strip

/-- `require_catalog_write_tenant_id`. -/
def requireCatalogWriteTenantId (request : Request) (scope : Scope)
    (explicitTenantId : Option Text) : Answer × Scope :=
  let body := nonblank explicitTenantId
  let bound := fun tenantId =>
    ((.ok (some (request.canonical tenantId)) : Answer), bindRequestTenant request scope tenantId)
  if body.any fun tenantId => !isConcreteTenantId tenantId then
    (.error (.apiError (ApiError.of "invalid_tenant"
      ("Invalid tenant '" ++ String.ofList (body.getD []) ++ "'.") 400)), scope)
  else if request.superAdmin then
    let resolved :=
      (concrete (request.tenantOverride true)).or
        (concrete (tenantIdFromSelectedCookie request scope))
    match body, resolved with
    | some tenantId, some resolved =>
        if request.canonical tenantId = request.canonical resolved then
          bound (request.canonical tenantId)
        else
          (.error (.apiError (ApiError.of "tenant_override_forbidden"
            "Super-admin workflow write request conflicts with the current tenant context." 400)),
            scope)
    | some tenantId, none => bound tenantId
    | none, some resolved => bound resolved
    | none, none =>
        (.error (.apiError (tenantRequired
          "Select a tenant before creating, updating, or executing a workflow.")), scope)
  else requireTenantId request scope true

/-- The tenant by which `list_task_review` selects, from its own read of the cookie on. -/
def listTaskReviewTenantId (request : Request) (scope : Scope) : Answer × Scope :=
  match truthy (tenantIdFromSelectedCookie request scope) with
  | none =>
      if request.superAdmin then (.ok (request.tenantOverride true), scope)
      else (cookieRequired, scope)
  | some own =>
      (.ok (if request.superAdmin then request.tenantOverride true else some own),
        { scope with tenant := some own })

/-- `get_tenant_id`, in a request. -/
def getTenantId (scope : Scope) : Answer × Scope :=
  match truthy scope.tenant with
  | some tenantId => (.ok (some tenantId), { scope with context := some tenantId })
  | none =>
      match truthy scope.context with
      | some tenantId => (.ok (some tenantId), { scope with tenant := some tenantId })
      | none => (.error (.runtimeError "Missing tenant id in request context."), scope)

/-- The lookups of the tenant while a request is served. -/
inductive Lookup where
  | requireTenantId (allowSuperAdminOverride : Bool)
  | resolveReadTenantId
  | requireCatalogWriteTenantId (explicitTenantId : Option Text)
  | listTaskReview
  | getTenantId
  deriving Repr, DecidableEq

def Lookup.run (request : Request) (scope : Scope) : Lookup → Answer × Scope
  | .requireTenantId allowSuperAdminOverride =>
      Auth.requireTenantId request scope allowSuperAdminOverride
  | .resolveReadTenantId => Auth.resolveReadTenantId request scope
  | .requireCatalogWriteTenantId explicitTenantId =>
      Auth.requireCatalogWriteTenantId request scope explicitTenantId
  | .listTaskReview => listTaskReviewTenantId request scope
  | .getTenantId => Auth.getTenantId scope

/-- The answers of lookups that follow each other, each in the scope the one before left. -/
def answers (request : Request) : Scope → List Lookup → List Answer
  | _, [] => []
  | scope, lookup :: lookups =>
      (lookup.run request scope).1 :: answers request (lookup.run request scope).2 lookups

end M8flow.Auth
