import M8flow.Lib.JsonObject

/-!
# Realm templates

`integrations/auth/keycloak/realm_template.py`: the realm template of a new tenant is
filled, and what is imported into the realm is taken from it.  A template is any JSON
dictionary; a value of a shape that the code does not expect can raise.

- `fillRealmTemplate` and `partialImportPayload` are the two halves, with one definition for
  each function of the source.
-/

namespace M8flow.Keycloak

open M8flow.Lib M8flow.Lib.Json

/-- What a template of an unexpected shape raises, and what reading the default groups does. -/
inductive TemplateError where
  | attributeError
  | typeError
  | other (what : Text)
  deriving Repr, DecidableEq

/-- What the template code reads of the environment and of the configuration. -/
structure RealmSettings where
  /-- `load_default_organizational_group_paths()`. -/
  defaultGroupPaths : Except TemplateError (List Text)
  backendOrigin : Option Text
  frontendOrigin : Option Text
  /-- `redirect_uri_backend_host_and_path()`. -/
  backendVal : Option Text
  /-- `redirect_uri_frontend_host()`. -/
  frontendVal : Option Text
  spokeClientId : Text
  /-- `_certificate_pem_or_none`. -/
  certificate : Option Text

def backendRedirectPlaceholder : Text := "replace-me-with-m8flow-backend-host-and-path".toList
def frontendRedirectPlaceholder : Text := "replace-me-with-m8flow-frontend-host-and-path".toList
def backendUrlPlaceholder : Text := "https://replace-me-with-m8flow-backend-host-and-path/*".toList
def frontendUrlPlaceholder : Text := "https://replace-me-with-m8flow-frontend-host-and-path/*".toList
def frontendClientId : Text := "spiffworkflow-frontend".toList
def postLogoutRedirectUrisAttr : Text := "post.logout.redirect.uris".toList

/-- `GLOBAL_ONLY_REALM_ROLE_NAMES`. -/
def globalOnlyRealmRoleNames : List Text := ["super-admin".toList]

/-- `GLOBAL_ONLY_USERNAMES`. -/
def globalOnlyUsernames : List Text := ["super-admin".toList]

/-! ## Loops over values of any shape -/

/-- `item.get(...)` and the update of a dictionary in place. -/
def onDict (f : Fields → Fields) : Json → Except TemplateError Json
  | .obj fields => .ok (.obj (f fields))
  | _ => .error .attributeError

/-- `for item in value or []`, with an update of every item. -/
def updateDicts (f : Fields → Fields) (value : Json) : Except TemplateError Json :=
  if value.truthy then
    match value with
    | .arr items => (items.mapM (onDict f)).map .arr
    | .obj _ => .error .attributeError
    | .str _ => .error .attributeError
    | _ => .error .typeError
  else .ok value

/-- An update of the value of a key, if the key is there. -/
def updateField (fields : Fields) (key : Text) (f : Json → Except TemplateError Json) :
    Except TemplateError Fields :=
  match field fields key with
  | none => .ok fields
  | some value => (f value).map (set fields key)

/-- `for item in value`. -/
def loop (value : Json) : Except TemplateError (List Json) :=
  match value.iterate with
  | some items => .ok items
  | none => .error .typeError

/-- `value or []`. -/
def orEmpty (value : Json) : Json := if value.truthy then value else .arr []

/-! ## The default groups -/

/-- `normalize_organizational_group_identifier`. -/
def normalizeOrganizationalGroupIdentifier (groupIdentifier : Text) : Text :=
  let stripped := groupIdentifier.strip
  let parts := Text.partition ':' stripped
  let prefixed := parts.1 ≠ [] ∧ parts.2.2 ≠ []
  let tenantPrefix := if prefixed then parts.1 ++ [':'] else []
  let identifier := if prefixed then Text.strip parts.2.2 else stripped
  let segments := ((Text.splitOn ['/'] identifier).map Text.strip).filter fun segment => segment ≠ []
  if segments = [] then tenantPrefix else tenantPrefix ++ '/' :: ['/'].intercalate segments

/-- The text of a key that is more than white space. -/
def writtenText (fields : Fields) (key : Text) : Option Text :=
  ((field fields key).bind asText).filter fun s => s.strip ≠ []

/-- `f"{parent_path}/{name}" if parent_path else name`. -/
def underParent (parentPath name : Text) : Text :=
  if parentPath = [] then name else parentPath ++ '/' :: name

/-- `_normalized_keycloak_group_path`. -/
def normalizedKeycloakGroupPath (group : Fields) (parentPath : Text) : Text :=
  match writtenText group "path".toList with
  | some path => normalizeOrganizationalGroupIdentifier path
  | none =>
      match writtenText group "name".toList with
      | some name => normalizeOrganizationalGroupIdentifier (underParent parentPath name.strip)
      | none => []

/-- A group is the one of a path. -/
def isGroupAt (parentPath candidatePath : Text) : Json → Bool
  | .obj group => normalizedKeycloakGroupPath group parentPath = candidatePath
  | _ => false

/-- The groups below a group: a value that is no list is replaced. -/
def subGroupsOf (group : Fields) : List Json := ((field group "subGroups".toList).getD .null).items

/-- A group that is there already, with the groups below it. -/
def adoptGroup (segment candidatePath : Text) (below : List Json → List Json) (group : Fields) :
    Fields :=
  let named := setDefault (setDefault group "name".toList (.str segment)) "path".toList
    (.str candidatePath)
  set named "subGroups".toList (.arr (below (subGroupsOf named)))

/-- A group that was not there. -/
def newGroup (segment candidatePath : Text) (below : List Json → List Json) : Json :=
  .obj [("name".toList, .str segment), ("path".toList, .str candidatePath),
    ("subGroups".toList, .arr (below []))]

/-- The first item with a property is updated, and without one an item is added. -/
def updateFirst (p : Json → Bool) (f : Json → Json) (added : Json) : List Json → List Json
  | [] => [added]
  | item :: rest => if p item then f item :: rest else item :: updateFirst p f added rest

/-- The loop of `_merge_group_path_into_keycloak_groups`. -/
def mergeSegments (parentPath : Text) : List Text → List Json → List Json
  | [], groups => groups
  | segment :: rest, groups =>
      let candidatePath := normalizeOrganizationalGroupIdentifier (underParent parentPath segment)
      let below := mergeSegments candidatePath rest
      updateFirst (isGroupAt parentPath candidatePath)
        (fun group => .obj (adoptGroup segment candidatePath below group.fields))
        (newGroup segment candidatePath below) groups

/-- `_merge_group_path_into_keycloak_groups`. -/
def mergeGroupPathIntoKeycloakGroups (groups : Json) (groupPath : Text) :
    Except TemplateError Json :=
  match normalizeOrganizationalGroupIdentifier groupPath with
  | [] => .ok groups
  | normalizedPath =>
      match groups with
      | .arr items =>
          let segments := Text.splitOn ['/'] (Text.stripWhere (· == '/') normalizedPath)
          .ok (.arr (mergeSegments [] segments items))
      | .obj _ => .error .attributeError
      | .str _ => .error .attributeError
      | _ => .error .typeError

/-- `_merge_default_organizational_groups`. -/
def mergeDefaultOrganizationalGroups (groups : Json) (defaultGroupPaths : List Text) :
    Except TemplateError Json :=
  defaultGroupPaths.foldlM mergeGroupPathIntoKeycloakGroups groups

/-! ## Roles and users -/

/-- The name of the realm is replaced in the value of a key. -/
def retarget (key old new : Text) (fields : Fields) : Fields :=
  if (field fields key).bind asText = some old then set fields key (.str new) else fields

/-- What the template and the new realm are called. -/
structure Renaming where
  templateName : Text
  realmId : Text

def Renaming.defaultRoleNameOld (names : Renaming) : Text :=
  "default-roles-".toList ++ names.templateName

def Renaming.defaultRoleNameNew (names : Renaming) : Text := "default-roles-".toList ++ names.realmId

/-- One role of `_retarget_realm_roles`. -/
def retargetRole (names : Renaming) (role : Fields) : Fields :=
  retarget "name".toList names.defaultRoleNameOld names.defaultRoleNameNew
    (retarget "containerId".toList names.templateName names.realmId role)

/-- `_retarget_realm_roles`. -/
def retargetRealmRoles (names : Renaming) (payload : Fields) : Except TemplateError Fields :=
  updateField payload "roles".toList fun roles =>
    if roles.truthy then
      match roles with
      | .obj roles => (updateField roles "realm".toList (updateDicts (retargetRole names))).map .obj
      | _ => .error .attributeError
    else .ok roles

/-- `_rename_default_role`. -/
def renameDefaultRole (names : Renaming) (payload : Fields) : Fields :=
  match field payload "defaultRole".toList with
  | some (.obj role) => set payload "defaultRole".toList (.obj (retargetRole names role))
  | _ => payload

/-- One role of a user. -/
def renameUserRole (names : Renaming) (role : Json) : Json :=
  match role with
  | .str s => if s = names.defaultRoleNameOld then .str names.defaultRoleNameNew else .str s
  | _ => role

/-- One user of `_rewrite_user_realm_roles`. -/
def rewriteUser (names : Renaming) (user : Fields) : Fields :=
  match field user "realmRoles".toList with
  | some (.arr realmRoles) =>
      set user "realmRoles".toList (.arr (realmRoles.map (renameUserRole names)))
  | _ => user

/-- `_rewrite_user_realm_roles`. -/
def rewriteUserRealmRoles (names : Renaming) (payload : Fields) : Except TemplateError Fields :=
  updateField payload "users".toList (updateDicts (rewriteUser names))

/-! ## Clients -/

/-- `_wildcard_from_origin`. -/
def wildcardFromOrigin (origin : Option Text) : Option Text :=
  (M8flow.Lib.truthy origin).map fun origin => origin ++ "/*".toList

/-- Replace a text where there is something to replace it with. -/
def replaceWith (old : Text) (new : Option Text) (s : Text) : Text :=
  match new with
  | some new => Text.replace old new s
  | none => s

/-- `_replace_runtime_url_placeholders`. -/
def replaceRuntimeUrlPlaceholders (backendWildcard frontendWildcard : Option Text) (value : Text) :
    Text :=
  replaceWith frontendUrlPlaceholder frontendWildcard
    (replaceWith backendUrlPlaceholder backendWildcard value)

/-- A function of texts, on the values that are texts. -/
def onText (f : Text → Text) : Json → Json
  | .str s => .str (f s)
  | value => value

/-- A function of texts, on the value of a key if it is a text. -/
def onTextField (f : Text → Text) (fields : Fields) (key : Text) : Fields :=
  match field fields key with
  | some (.str s) => set fields key (.str (f s))
  | _ => fields

/-- A function of texts, on the items of a list that are texts. -/
def onTextItems (f : Text → Text) (fields : Fields) (key : Text) : Fields :=
  match field fields key with
  | some (.arr items) => set fields key (.arr (items.map (onText f)))
  | _ => fields

/-- `_unique_strings`. -/
def uniqueStrings (values : List Json) : List Text :=
  values.foldl
    (fun unique value =>
      match value with
      | .str s => if s.strip = [] ∨ s.strip ∈ unique then unique else unique ++ [s.strip]
      | _ => unique)
    []

/-- `_split_keycloak_uri_list`. -/
def splitKeycloakUriList (value : Option Json) : List Text :=
  match value with
  | some (.str s) =>
      ((Text.splitOn "##".toList s).map Text.strip).filter fun item => item ≠ []
  | _ => []

/-- `_runtime_client_values`, without the values that are not there. -/
def runtimeClientValues (settings : RealmSettings) (clientId : Option Json)
    (backendValue frontendValue : Option Text) : List Text :=
  let values :=
    if (clientId.bind asText) = some settings.spokeClientId then [backendValue, frontendValue]
    else if (clientId.bind asText) = some frontendClientId then [frontendValue]
    else []
  values.filterMap M8flow.Lib.truthy

/-- A client has values of its own. -/
def isRuntimeClient (settings : RealmSettings) (clientId : Option Json) : Bool :=
  (clientId.bind asText) = some settings.spokeClientId ||
    (clientId.bind asText) = some frontendClientId

/-- The texts of a list with more texts after it, if there are any values at all. -/
def extendList (fields : Fields) (key : Text) (values : List Json) (more : List Text) : Fields :=
  let updated := values ++ more.map .str
  if updated = [] then fields else set fields key (.arr ((uniqueStrings updated).map .str))

/-- `_set_post_logout_redirect_uris`. -/
def setPostLogoutRedirectUris (settings : RealmSettings) (clientId : Option Json) (attrs : Fields) :
    Fields :=
  if isRuntimeClient settings clientId then
    let uris := splitKeycloakUriList (field attrs postLogoutRedirectUrisAttr) ++
      runtimeClientValues settings clientId (wildcardFromOrigin settings.backendOrigin)
        (wildcardFromOrigin settings.frontendOrigin)
    set attrs postLogoutRedirectUrisAttr
      (.str ("##".toList.intercalate (uniqueStrings (uris.map .str))))
  else attrs

/-- `client.get("attributes") or {}`. -/
def attributesOf (client : Fields) : Json :=
  let attributes := getD client "attributes".toList
  if attributes.truthy then attributes else .obj []

/-- `_apply_runtime_client_urls`. -/
def applyRuntimeClientUrls (settings : RealmSettings) (client : Fields) : Fields :=
  let backendWildcard := wildcardFromOrigin settings.backendOrigin
  let frontendWildcard := wildcardFromOrigin settings.frontendOrigin
  let clientId := field client "clientId".toList
  let replaceAll := replaceRuntimeUrlPlaceholders backendWildcard frontendWildcard
  let client := extendList client "redirectUris".toList
    ((getD client "redirectUris".toList).items.map (onText replaceAll))
    (runtimeClientValues settings clientId backendWildcard frontendWildcard)
  let client := extendList client "webOrigins".toList (getD client "webOrigins".toList).items
    (runtimeClientValues settings clientId settings.backendOrigin settings.frontendOrigin)
  match attributesOf client with
  | .obj attrs =>
      let attrs := attrs.map fun entry => (entry.1, onText replaceAll entry.2)
      set client "attributes".toList (.obj (setPostLogoutRedirectUris settings clientId attrs))
  | _ => client

/-- The loop body of `_rewrite_client_urls`. -/
def rewriteClient (settings : RealmSettings) (names : Renaming) (client : Fields) : Fields :=
  let replaceRealmUrls := fun s : Text =>
    Text.replace ("/admin/".toList ++ names.templateName ++ ['/'])
      ("/admin/".toList ++ names.realmId ++ ['/'])
      (Text.replace ("/realms/".toList ++ names.templateName ++ ['/'])
        ("/realms/".toList ++ names.realmId ++ ['/']) s)
  let replaceAll := fun s =>
    replaceRuntimeUrlPlaceholders (wildcardFromOrigin settings.backendOrigin)
      (wildcardFromOrigin settings.frontendOrigin) (replaceRealmUrls s)
  let client := ["baseUrl", "adminUrl", "rootUrl"].foldl
    (fun client key => onTextField replaceRealmUrls client key.toList) client
  let client := ["redirectUris", "webOrigins"].foldl
    (fun client key => onTextItems replaceRealmUrls client key.toList) client
  let client :=
    match attributesOf client with
    | .obj attrs =>
        set client "attributes".toList
          (.obj (attrs.map fun entry => (entry.1, onText replaceAll entry.2)))
    | _ => client
  applyRuntimeClientUrls settings client

/-- `_rewrite_client_urls`. -/
def rewriteClientUrls (settings : RealmSettings) (names : Renaming) (payload : Fields) :
    Except TemplateError Fields :=
  updateField payload "clients".toList (updateDicts (rewriteClient settings names))

/-! ## Redirect placeholders -/

/-- A text with the redirect placeholders replaced. -/
def replaceRedirects (settings : RealmSettings) (s : Text) : Text :=
  replaceWith frontendRedirectPlaceholder settings.frontendVal
    (replaceWith backendRedirectPlaceholder settings.backendVal s)

mutual

/-- `_replace_redirect_placeholders_in_place`, for the function on the texts. -/
def mapTexts (f : Text → Text) : Json → Json
  | .str s => .str (f s)
  | .arr items => .arr (mapItems f items)
  | .obj fields => .obj (mapFields f fields)
  | value => value

def mapItems (f : Text → Text) : List Json → List Json
  | [] => []
  | item :: rest => mapTexts f item :: mapItems f rest

def mapFields (f : Text → Text) : Fields → Fields
  | [] => []
  | (key, value) :: rest => (key, mapTexts f value) :: mapFields f rest

end

/-- `_fill_realm_template`. -/
def fillRealmTemplate (settings : RealmSettings) (template : Fields) (realmId : Text)
    (displayName : Option Text) (templateName : Text) : Except TemplateError Fields := do
  let names : Renaming := ⟨templateName, realmId⟩
  let payload := set template "realm".toList (.str realmId)
  let payload := set payload "displayName".toList
    (.str ((M8flow.Lib.truthy displayName).getD realmId))
  let payload := pop payload "id".toList
  let groups ← mergeDefaultOrganizationalGroups (orEmpty (getD payload "groups".toList))
    (← settings.defaultGroupPaths)
  let payload := set payload "groups".toList groups
  let payload ← retargetRealmRoles names payload
  let payload := renameDefaultRole names payload
  let payload ← rewriteUserRealmRoles names payload
  let payload ← rewriteClientUrls settings names payload
  return mapFields (replaceRedirects settings) payload

/-! ## The import -/

/-- An update of the items of a loop that are dictionaries. -/
def onDicts (f : Fields → Except TemplateError Fields) (item : Json) : Except TemplateError Json :=
  match item with
  | .obj fields => (f fields).map .obj
  | _ => .ok item

/-- `for item in value`, where items that are dictionaries are updated in place. -/
def updateItems (f : Fields → Except TemplateError Fields) (value : Json) :
    Except TemplateError Json :=
  match value with
  | .arr items => (items.mapM (onDicts f)).map .arr
  | _ => (loop value).map fun _ => value

/-- The same loop over `fields.get(key) or []`. -/
def updateItemsOf (fields : Fields) (key : Text) (f : Fields → Except TemplateError Fields) :
    Except TemplateError Fields :=
  updateField fields key fun value => if value.truthy then updateItems f value else .ok value

/-- `value in names`: a list or a dictionary cannot be looked for. -/
def isOneOf (names : List Text) : Json → Except TemplateError Bool
  | .str s => .ok (s ∈ names)
  | .arr _ => .error .typeError
  | .obj _ => .error .typeError
  | _ => .ok false

def popId (fields : Fields) : Except TemplateError Fields := .ok (pop fields "id".toList)

/-- `_sanitize_role_identifiers`. -/
def sanitizeRoleIdentifiers (role : Fields) : Except TemplateError Fields :=
  .ok (pop (pop role "id".toList) "containerId".toList)

/-- `isinstance(role, dict) and role.get("name") in GLOBAL_ONLY_REALM_ROLE_NAMES`. -/
def isGlobalRole : Json → Except TemplateError Bool
  | .obj fields => isOneOf globalOnlyRealmRoleNames (getD fields "name".toList)
  | _ => .ok false

/-- `_sanitize_realm_roles_for_partial_import`. -/
def sanitizeRealmRolesForPartialImport : List Json → Except TemplateError (List Json)
  | [] => .ok []
  | role :: rest => do
      let isGlobal ← isGlobalRole role
      let sanitized ← onDicts sanitizeRoleIdentifiers role
      let others ← sanitizeRealmRolesForPartialImport rest
      return if isGlobal then others else sanitized :: others

/-- `_sanitize_client_roles_for_partial_import`. -/
def sanitizeClientRolesForPartialImport (clientRoles : Json) : Except TemplateError Json :=
  match clientRoles with
  | .obj fields =>
      (fields.mapM fun (entry : Text × Json) =>
        match entry.2 with
        | .arr _ => (updateItems sanitizeRoleIdentifiers entry.2).map fun roles => (entry.1, roles)
        | _ => .ok entry).map .obj
  | _ => .ok clientRoles

/-- `_sanitize_roles_for_partial_import`. -/
def sanitizeRolesForPartialImport (roles : Json) : Except TemplateError Json :=
  match roles with
  | .obj roles => do
      let roles ← updateField roles "realm".toList fun realmRoles => do
        let sanitized ← sanitizeRealmRolesForPartialImport (← loop (orEmpty realmRoles))
        return .arr sanitized
      let roles ← updateField roles "client".toList sanitizeClientRolesForPartialImport
      return .obj roles
  | _ => .error .attributeError

mutual

/-- `_strip_group_ids`, of a value that is a group. -/
def stripGroupIds : Json → Except TemplateError Json
  | .obj group => (stripGroupFields group).map .obj
  | value => .ok value

def stripGroupFields : Fields → Except TemplateError Fields
  | [] => .ok []
  | (key, value) :: rest => do
      let others ← stripGroupFields rest
      if key = "id".toList then return others
      else if key = "subGroups".toList then return (key, ← stripSubGroups value) :: others
      else return (key, value) :: others

/-- `for sub in g.get("subGroups") or []`. -/
def stripSubGroups : Json → Except TemplateError Json
  | .arr items => (stripGroups items).map .arr
  | value => if value.truthy then (loop value).map fun _ => value else .ok value

def stripGroups : List Json → Except TemplateError (List Json)
  | [] => .ok []
  | group :: rest => do return (← stripGroupIds group) :: (← stripGroups rest)

end

/-- `_sanitize_groups_for_partial_import`. -/
def sanitizeGroupsForPartialImport (groups : Json) : Except TemplateError Json :=
  match groups with
  | .arr items => (stripGroups items).map .arr
  | _ => (loop groups).map fun _ => groups

/-- `[role for role in realm_roles if role not in GLOBAL_ONLY_REALM_ROLE_NAMES]`. -/
def withoutGlobalRoles : List Json → Except TemplateError (List Json)
  | [] => .ok []
  | role :: rest => do
      let isGlobal ← isOneOf globalOnlyRealmRoleNames role
      let others ← withoutGlobalRoles rest
      return if isGlobal then others else role :: others

/-- `_sanitize_user_realm_roles`. -/
def sanitizeUserRealmRoles (user : Fields) : Except TemplateError Fields :=
  match field user "realmRoles".toList with
  | some (.arr realmRoles) =>
      (withoutGlobalRoles realmRoles).map fun realmRoles =>
        set user "realmRoles".toList (.arr realmRoles)
  | _ => .ok user

/-- `_sanitize_user_for_partial_import`; nothing is a user that is left out. -/
def sanitizeUserForPartialImport (user : Json) : Except TemplateError (Option Json) :=
  match user with
  | .null => .ok none
  | .obj fields => do
      let isGlobal ← isOneOf globalOnlyUsernames (getD fields "username".toList)
      if isGlobal then return none
      else do
        let fields ← sanitizeUserRealmRoles (pop fields "id".toList)
        return some (.obj (← updateItemsOf fields "credentials".toList popId))
  | _ => .ok (some user)

/-- The loop of `_sanitize_users_for_partial_import`. -/
def sanitizeUsers : List Json → Except TemplateError (List Json)
  | [] => .ok []
  | user :: rest => do
      let sanitized ← sanitizeUserForPartialImport user
      return sanitized.toList ++ (← sanitizeUsers rest)

/-- `_sanitize_users_for_partial_import`. -/
def sanitizeUsersForPartialImport (users : Json) : Except TemplateError Json := do
  return .arr (← sanitizeUsers (← loop users))

/-- `_sanitize_client_scopes_for_partial_import`. -/
def sanitizeClientScopesForPartialImport (scopes : Json) : Except TemplateError Json :=
  updateItems
    (fun scope => updateItemsOf (pop scope "id".toList) "protocolMappers".toList popId) scopes

/-- `_sanitize_idps_for_partial_import`. -/
def sanitizeIdpsForPartialImport (idps : Json) : Except TemplateError Json :=
  updateItems (fun idp => .ok (pop idp "internalId".toList)) idps

/-- `_configure_spoke_client_authentication`. -/
def configureSpokeClientAuthentication (settings : RealmSettings) (client : Fields) :
    Except TemplateError Fields :=
  match if (field client "clientId".toList).bind asText = some settings.spokeClientId then
      M8flow.Lib.truthy settings.certificate else none with
  | none => .ok client
  | some certificate =>
      let client := pop (set client "clientAuthenticatorType".toList (.str "client-jwt".toList))
        "secret".toList
      match (field client "attributes".toList).getD (.obj []) with
      | .obj attributes =>
          .ok (set client "attributes".toList
            (.obj (set attributes "jwt.credential.certificate".toList (.str certificate))))
      | _ => .error .typeError

/-- `client["authorizationServicesEnabled"]` is switched off. -/
def withoutAuthorizationServices (client : Fields) : Fields :=
  match field client "authorizationServicesEnabled".toList with
  | some (.bool true) => set client "authorizationServicesEnabled".toList (.bool false)
  | _ => client

/-- `_sanitize_client_for_partial_import`. -/
def sanitizeClientForPartialImport (settings : RealmSettings) (client : Json) :
    Except TemplateError Json :=
  match client with
  | .obj fields => do
      let fields ← updateField (pop fields "id".toList) "protocolMappers".toList (updateItems popId)
      let fields ← configureSpokeClientAuthentication settings
        (withoutAuthorizationServices (pop fields "authorizationSettings".toList))
      return .obj fields
  | .arr _ => .error .typeError
  | _ => .error .attributeError

/-- `for client in clients`. -/
def sanitizeClients (settings : RealmSettings) (clients : Json) : Except TemplateError Json :=
  match clients with
  | .arr items => (items.mapM (sanitizeClientForPartialImport settings)).map .arr
  | _ => do
      match ← loop clients with
      | [] => return clients
      | _ => throw .attributeError

/-- `_partial_import_payload`. -/
def partialImportPayload (settings : RealmSettings) (fullPayload : Fields) :
    Except TemplateError Fields := do
  let orNothing := fun (key : String) => (field fullPayload key.toList).getD (.arr [])
  let orDict := fun (value : Json) => if value.truthy then value else .obj []
  let clients ← sanitizeClients settings (orNothing "clients")
  let roles ← sanitizeRolesForPartialImport (orDict (getD fullPayload "roles".toList))
  let groups ← sanitizeGroupsForPartialImport (orEmpty (getD fullPayload "groups".toList))
  let users ← sanitizeUsersForPartialImport (orEmpty (getD fullPayload "users".toList))
  let clientScopes ← sanitizeClientScopesForPartialImport
    (orEmpty (getD fullPayload "clientScopes".toList))
  let identityProviders ← sanitizeIdpsForPartialImport
    (orEmpty (getD fullPayload "identityProviders".toList))
  return [("ifResourceExists".toList, .str "SKIP".toList), ("clients".toList, clients),
    ("roles".toList, roles), ("groups".toList, groups), ("users".toList, users),
    ("clientScopes".toList, clientScopes), ("identityProviders".toList, identityProviders),
    ("defaultDefaultClientScopes".toList, orNothing "defaultDefaultClientScopes"),
    ("defaultOptionalClientScopes".toList, orNothing "defaultOptionalClientScopes")]

/-- What is imported into the realm of a new tenant. -/
def tenantImport (settings : RealmSettings) (template : Fields) (realmId : Text)
    (displayName : Option Text) (templateName : Text) : Except TemplateError Fields := do
  partialImportPayload settings
    (← fillRealmTemplate settings template realmId displayName templateName)

end M8flow.Keycloak
