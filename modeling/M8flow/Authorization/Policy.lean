import M8flow.Authorization.Held

/-!
# The policy for commands

`HostAuthorizationPolicy`: a command of the core is authorized on a typed resource.
The host grants some commands by routes, so the resource is read as a route before
the permission store is asked; what the host does not decide is left to the policy
of the core, which is a parameter.
-/

namespace M8flow.Authorization

open M8flow.Auth M8flow.Identity M8flow.Lib

/-- What a command asks; the resource's id is given as text. -/
structure AuthorizationRequest where
  actorUserId : Nat
  commandKey : Text
  permission : Text
  resourceType : Text
  resourceId : Text
  deriving Repr, DecidableEq

structure AuthorizationDecision where
  allowed : Bool
  reason : Text
  deriving Repr, DecidableEq

/-- `_LIFECYCLE_COMMAND_KEYS`. -/
def lifecycleCommandKeys : List Text :=
  ["process.suspend".toList, "process.resume".toList, "process.retry".toList,
    "process.terminate".toList]

/-- `_PROCESS_START_COMMAND`. -/
def processStartCommand : Text := "process.start".toList

/-- `_TASK_COMMAND_KEYS`. -/
def taskCommandKeys : List Text := ["task.claim".toList, "task.complete".toList]

/-- The action that a permission names; for another name only grants of everything apply. -/
def Action.ofName (permission : Text) : Action := (actionNames.lookup permission).getD .unknown

/-- `_normalize_route_resource_id`. -/
def normalizeRouteResourceId (resourceId : Text) (pathPrefix : Option Text) : Text :=
  match pathPrefix with
  | none => resourceId.strip
  | some pathPrefix =>
      let rooted := if ['/'].isPrefixOf pathPrefix then pathPrefix else '/' :: pathPrefix
      let normalizedPrefix := if ['/'].isSuffixOf rooted then rooted else rooted ++ ['/']
      let translated := withoutApiPathPrefix resourceId.strip
      let route :=
        if (normalizedPrefix.dropWhile (· = '/')).isPrefixOf translated then '/' :: translated
        else translated
      if normalizedPrefix.isPrefixOf route then route
      else normalizedPrefix ++ route.dropWhile (· = '/')

section Policy

variable (context : Context) (store : Store) (user : UserModel)

/-- `_host_yaml_decision`. -/
def hostYamlDecision (permission : Action) (resourceType resourceId : Text)
    (pathPrefix command : Option Text) (allowLegacyCommandless : Bool) :
    Option AuthorizationDecision :=
  if resourcePermitted context.tenantIds store.grants user.id (store.groupsOf user.id)
      { action := permission
        resourceType
        resourceId := normalizeRouteResourceId resourceId pathPrefix
        command
        allowLegacyCommandless } then
    some ⟨true, "host_yaml".toList⟩
  else none

/-- The host's decision about an import. -/
def importDecision (request : AuthorizationRequest) : Option AuthorizationDecision :=
  if request.commandKey = "process_definition.import".toList then
    hostYamlDecision context store user .create "process_definition".toList request.resourceId
      none none false
  else none

/-- The host's decision about a start, from a grant of the route or from an older row that
has no command. -/
def startDecision (request : AuthorizationRequest) : Option AuthorizationDecision :=
  if request.commandKey = processStartCommand then
    (hostYamlDecision context store user .start "tenant".toList request.resourceId
      (some "/process-models/".toList) none false).or
    ((hostYamlDecision context store user .start "tenant".toList request.resourceId
      (some "/process-models/".toList) (some processStartCommand) true).map fun _ =>
        ⟨true, "host_yaml_legacy".toList⟩)
  else none

/-- The host's decision about a task. -/
def taskDecision (request : AuthorizationRequest) : Option AuthorizationDecision :=
  if request.commandKey ∈ taskCommandKeys then
    hostYamlDecision context store user (Action.ofName request.permission) "tenant".toList
      request.resourceId (some "/tasks/".toList) none false
  else none

/-- The host's decision about the lifecycle of an instance. -/
def lifecycleDecision (request : AuthorizationRequest) : Option AuthorizationDecision :=
  if request.commandKey ∈ lifecycleCommandKeys then
    if request.permission ≠ "execute".toList then
      some ⟨false, "lifecycle_requires_execute".toList⟩
    else
      let direct := fun permission =>
        hostYamlDecision context store user permission request.resourceType request.resourceId
          none (some request.commandKey) false
      let route := fun permission =>
        hostYamlDecision context store user permission "tenant".toList request.resourceId
          (some "/process-instances/".toList) (some request.commandKey) false
      ((direct .execute).or (route .execute)).or
        -- a grant to create was once taken for one to execute
        (if (direct .create).isSome ∨ (route .create).isSome then
          some ⟨false, "lifecycle_permissions_migration_required".toList⟩
        else none)
  else none

end Policy

/-- `HostAuthorizationPolicy.authorize`; `default` is `DatabaseAuthorizationPolicy.authorize`. -/
def authorize (context : Context) (users : List UserModel)
    (default : Store → AuthorizationRequest → AuthorizationDecision) (store : Store)
    (request : AuthorizationRequest) : AuthorizationDecision :=
  match Table.lookup UserModel.id users request.actorUserId with
  | none => default store request
  | some user =>
      if superAdminIn context store user then ⟨true, superAdminRole⟩
      else
        (((importDecision context store user request).or
          (startDecision context store user request)).or
            ((taskDecision context store user request).or
              (lifecycleDecision context store user request))).getD (default store request)

end M8flow.Authorization
