import M8flow.Auth.Claims
import M8flow.Authorization.Store
import M8flow.Lib.Casing
import M8flow.Lib.Digits

/-!
# Authorizing a path

`authorization/__init__.py`: whether a user may use a method on a path.  The
answer comes from the groups of the user, read by their identifiers, and from the
permission assignments of the user's and the groups' principals.
-/

namespace M8flow.Authorization

open M8flow.Auth M8flow.Identity M8flow.Lib

/-- What authorization reads of the request: the casing tables, the tenant table, the
active tenant (`current_tenant_id_or_none`) and the verified claims. -/
structure Context where
  casing : Casing
  tenants : List TenantRow
  current : Option Text
  claims : Option VerifiedClaims

/-- `current_tenant_identifiers()`. -/
def Context.tenantIds (context : Context) : List Text :=
  currentTenantIdentifiers context.tenants context.current none

/-! ## Actions -/

/-- The actions that grants name, and the one that none does. -/
inductive Action where
  | read
  | create
  | update
  | delete
  | start
  | execute
  | unknown
  deriving Repr, DecidableEq

def Action.name : Action → Text
  | .read => "read".toList
  | .create => "create".toList
  | .update => "update".toList
  | .delete => "delete".toList
  | .start => "start".toList
  | .execute => "execute".toList
  | .unknown => "unknown".toList

/-- `_HTTP_METHOD_ACTIONS`. -/
def httpMethodActions : List (Text × Action) :=
  [("GET".toList, .read), ("HEAD".toList, .read), ("OPTIONS".toList, .read),
    ("POST".toList, .create), ("PUT".toList, .update), ("PATCH".toList, .update),
    ("DELETE".toList, .delete)]

/-- `_ACTION_NAMES`. -/
def actionNames : List (Text × Action) :=
  [Action.read, .create, .update, .delete, .start, .execute].map fun action =>
    (action.name, action)

/-- `_method_to_action`. -/
def methodToAction (casing : Casing) (method : Text) : Action :=
  ((httpMethodActions.lookup (casing.upper method.strip)).or
    (actionNames.lookup (casing.lower method.strip))).getD .unknown

/-! ## Paths -/

/-- `_without_api_path_prefix`. -/
def withoutApiPathPrefix (path : Text) : Text :=
  let cleaned := if ['/'].isPrefixOf path then path else '/' :: path
  if "/v1.0".toList.isPrefixOf cleaned then
    (truthy (some (cleaned.drop 5))).getD ['/']
  else path

/-- The path is the prefix or lies under it. -/
def isUnder (pathPrefix path : Text) : Bool :=
  path = pathPrefix || (pathPrefix ++ ['/']).isPrefixOf path

/-- `_normalize_authorization_path`. -/
def normalizeAuthorizationPath (path : Text) : Text :=
  let publicPrefix := "/m8flow/task-review".toList
  let targetPrefix := "/m8flow/task-review-access".toList
  let stripped := (truthy (some (Text.rstripChar '/' (withoutApiPathPrefix path)))).getD ['/']
  let normalized := if ['/'].isPrefixOf stripped then stripped else '/' :: stripped
  if isUnder publicPrefix normalized then
    targetPrefix ++ normalized.drop publicPrefix.length
  else normalized

/-- A segment `v1` or `v1.0` of a path. -/
def isVersionSegment : Text → Bool
  | 'v' :: rest =>
      let fraction := rest.dropWhile Text.isDecimal
      rest.takeWhile Text.isDecimal ≠ [] &&
        match fraction with
        | [] => true
        | '.' :: digits => digits ≠ [] && digits.all Text.isDecimal
        | _ => false
  | _ => false

/-- `_LIFECYCLE_ROUTE`: the instance path of a lifecycle route. -/
def lifecycleTarget (path : Text) : Option Text :=
  let segments := Text.splitOn ['/'] path
  let unversioned :=
    match segments with
    | [] :: version :: rest => if isVersionSegment version then [] :: rest else segments
    | _ => segments
  match unversioned with
  | [] :: root :: instanceId :: command :: trailing =>
      if root = "process-instances".toList ∧ instanceId ≠ [] ∧
          command ∈ ["suspend".toList, "resume".toList, "terminate".toList] ∧
          (trailing = [] ∨ trailing = [[]]) then
        some ("/process-instances/".toList ++ instanceId)
      else none
  | _ => none

/-- A lifecycle route authorizes as `execute` on its instance. -/
def lifecycleRequest (action : Action) (path : Text) : Action × Text :=
  match lifecycleTarget path with
  | some target => if action = .create ∨ action = .execute then (.execute, target) else (action, path)
  | none => (action, path)

/-- The segments of a path are those of a Task Review submission. -/
def isTaskReviewSubmit (path : Text) : Bool :=
  match Text.splitOn ['/'] (Text.stripWhere (· = '/') path) with
  | [root, review, taskId, command] =>
      root = "m8flow".toList ∧ review = "task-review-access".toList ∧ taskId ≠ [] ∧
        command = "submit".toList
  | _ => false

/-- `_NO_GROUP_FALLBACK_PREFIXES`. -/
def noGroupFallbackPrefixes : List Text :=
  ["/secrets".toList, "/m8flow/connector-profiles".toList, "/m8flow/nats/".toList,
    "/m8flow/nats-tokens".toList, "/m8flow/task-review-access".toList,
    "/m8flow/mcp-tools".toList, "/m8flow/tenant-management".toList, "/m8flow/celery/".toList]

/-! ## Patterns of targets -/

/-- A piece of a target's pattern: a character, any text in a line, one path segment. -/
inductive PatternPiece where
  | char (c : Char)
  | wildcard
  | placeholder
  deriving Repr, DecidableEq

/-- The pieces of a pattern; `inside` a placeholder the text up to its brace is passed over. -/
def patternPieces : (inside : Bool) → Text → List PatternPiece
  | _, [] => []
  | true, c :: rest => patternPieces (c ≠ '}') rest
  | false, c :: rest =>
      if c = '%' ∨ c = '*' then .wildcard :: patternPieces false rest
      else if c = '{' ∧ '}' ∈ rest then .placeholder :: patternPieces true rest
      else .char c :: patternPieces false rest

/-- The pieces match a whole text. -/
def piecesMatch : List PatternPiece → Text → Bool
  | [], s => s = []
  | .char c :: pieces, s =>
      match s with
      | [] => false
      | d :: rest => c = d && piecesMatch pieces rest
  | .wildcard :: pieces, s =>
      (List.range (s.length + 1)).any fun n =>
        (s.take n).all (· ≠ '\n') && piecesMatch pieces (s.drop n)
  | .placeholder :: pieces, s =>
      (List.range s.length).any fun n =>
        (s.take (n + 1)).all (· ≠ '/') && piecesMatch pieces (s.drop (n + 1))

/-- `_path_matches`. -/
def pathMatches (path uriPattern : Text) (legacyPrefix : Bool) : Bool :=
  if '%' ∉ uriPattern ∧ '*' ∉ uriPattern ∧ '{' ∉ uriPattern then
    path = uriPattern ||
      (legacyPrefix && (Text.rstripChar '/' uriPattern ++ ['/']).isPrefixOf path)
  else piecesMatch (patternPieces false uriPattern) path

/-! ## Grants -/

/-- `counts` of `_active_tenant_groups`. -/
def countsInTenant (tenantIds : List Text) (identifier : Text) : Bool :=
  ':' ∉ identifier || (identifier.partition ':').1 ∈ tenantIds

/-- `_active_tenant_groups`. -/
def activeTenantGroups (tenantIds : List Text) (groups : List GroupModel) : List GroupModel :=
  if tenantIds = [] then groups
  else groups.filter fun group => countsInTenant tenantIds group.identifier

/-- What a permission is asked for. -/
structure ResourceRequest where
  action : Action
  resourceType : Text
  resourceId : Text
  command : Option Text
  allowLegacyCommandless : Bool

/-- The target is one that the request asks for. -/
def PermissionTarget.covers (target : PermissionTarget) (request : ResourceRequest) : Bool :=
  let commandAsked := request.command.all fun command =>
    target.command = some command || (request.allowLegacyCommandless && target.command = none)
  let requestedType := request.resourceType.strip
  let targetType := target.resourceType.map Text.strip
  -- a row without a type is a tenant target only in the complete shape of older rows
  let legacyTenantTarget :=
    targetType = none ∧ requestedType = "tenant".toList ∧ target.resourceId = none ∧
      (nonblank target.uri).isSome ∧ (nonblank target.command).isSome
  let targetResourceId :=
    (if legacyTenantTarget then target.uri else target.resourceId).getD []
  let legacyTenantRoute :=
    (legacyTenantTarget ∨ targetType = some requestedType ∧ requestedType = "tenant".toList) ∧
      ['/'].isPrefixOf targetResourceId
  commandAsked && (targetType = some requestedType ∨ legacyTenantTarget) &&
    pathMatches request.resourceId targetResourceId legacyTenantRoute

/-- The assignment grants, or denies, what is asked for. -/
def PermissionAssignment.applies (assignment : PermissionAssignment) (request : ResourceRequest) :
    Bool :=
  assignment.target.any (fun target => target.covers request) &&
    (assignment.permission = request.action.name || assignment.permission = "all".toList)

/-- The principals of a user and of the groups that count in the active tenant. -/
def principalIds (tenantIds : List Text) (grants : Grants) (userId : Nat)
    (groups : List GroupModel) : List Nat :=
  let own := (grants.principals.find? fun principal => principal.userId = some userId).map
    Principal.id
  own.toList ++ (grants.principals.filter fun principal =>
    (activeTenantGroups tenantIds groups).any fun group =>
      principal.groupId = some group.id).map Principal.id

/-- `_resource_permitted`: some assignment grants the request, and none denies it. -/
def resourcePermitted (tenantIds : List Text) (grants : Grants) (userId : Nat)
    (groups : List GroupModel) (request : ResourceRequest) : Bool :=
  let ids := principalIds tenantIds grants userId groups
  let applying := grants.assignments.filter fun assignment =>
    assignment.principalId ∈ ids && assignment.applies request
  applying ≠ [] && applying.all fun assignment => assignment.grantType ≠ "deny".toList

/-! ## The answer -/

/-- The identifier ends in a colon and the role. -/
def endsInRole (role : String) (identifier : Text) : Bool :=
  (':' :: role.toList).isSuffixOf identifier

/-- `_TENANT_WIDE_INSTANCE_READ_PATH`. -/
def tenantWideInstanceReadPath : Text := "/process-instances".toList

/-- `_group_identifier_fallback`. -/
def groupIdentifierFallback (context : Context) (groups : List GroupModel) (path : Text)
    (action : Option Text) : Bool :=
  let active := activeTenantGroups context.tenantIds groups
  let has := fun role => active.any fun group => endsInRole role group.identifier
  let normalizedAction := (action.map (methodToAction context.casing)).getD .read
  let tenantWideInstanceRead :=
    normalizedAction = .read ∧ normalizeAuthorizationPath path = tenantWideInstanceReadPath
  active.any (fun group => group.identifier = superAdminRole) || has "tenant-admin" ||
    (!tenantWideInstanceRead && has "editor") ||
    ((Text.hasInfix "/onboarding".toList path || "/tasks".toList.isSuffixOf path ||
        Text.hasInfix "/tasks".toList path) &&
      (has "reviewer" || has "editor" || has "user"))

/-- The identifier is read by the guard of the process models: a global group or one of
the active tenant, by its last colon. -/
def readByGuard (tenantIds : List Text) (identifier : Text) : Bool :=
  ':' ∉ identifier || (identifier.rpartition ':').1 ∈ tenantIds

/-- The user has a role that may not write process models. -/
def hasReadOnlyRole (tenantIds : List Text) (groups : List GroupModel) : Bool :=
  groups.any fun group =>
    readByGuard tenantIds group.identifier &&
      (group.identifier.rpartition ':').2.2 ∈ ["viewer".toList, "submitter".toList]

/-- `allow_uri` for a user with the groups; `session` says that there is one to ask. -/
def allowWithGroups (context : Context) (grants : Grants) (user : UserModel)
    (groups : List GroupModel) (method path : Text) (session groupFallback : Bool) : Bool :=
  let normalized := normalizeAuthorizationPath path
  let permitted := fun action resourceId =>
    resourcePermitted context.tenantIds grants user.id groups
      { action, resourceType := "tenant".toList, resourceId, command := none,
        allowLegacyCommandless := false }
  if normalized = "/m8flow/home-task-count".toList then
    session && permitted (methodToAction context.casing method) normalized
  else
    let target := lifecycleRequest (methodToAction context.casing method) normalized
    let superAdmin :=
      actorIsSuperAdmin (some { user with groups := groups.map GroupModel.identifier })
        context.claims
    let writes := target.1 = .create ∨ target.1 = .update ∨ target.1 = .delete
    if target.1 = .create ∧ isTaskReviewSubmit target.2 ∧ superAdmin then false
    else if writes ∧ "/m8flow/nats-tokens".toList.isPrefixOf target.2 ∧ superAdmin then false
    else if superAdmin then true
    else
      let fallback := groupFallback &&
        !noGroupFallbackPrefixes.any fun pathPrefix => pathPrefix.isPrefixOf target.2
      if writes ∧ "/process-models".toList.isPrefixOf target.2 ∧
          hasReadOnlyRole context.tenantIds groups then false
      else
        (session && permitted target.1 target.2) ||
          (fallback && groupIdentifierFallback context groups target.2 (some target.1.name))

/-- `allow_uri`. -/
def allowUri (context : Context) (store : Store) (user : Option UserModel) (method path : Text)
    (session groupFallback : Bool) : Bool :=
  match user with
  | none => false
  | some user =>
      allowWithGroups context store.grants user (store.groupsOf user.id) method path session
        groupFallback

end M8flow.Authorization
