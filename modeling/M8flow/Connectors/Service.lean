import M8flow.Connectors.Templates
import M8flow.Lib.Dict
import M8flow.Lib.Digits
import M8flow.Secrets.Values

/-!
# Connector profiles

`connectors/service.py` over the database provider of the secrets.  A profile keeps, for each
field, the name of a secret; the values are in the table of secrets.  Both tables change in the
transaction of the request, so that a call that raises changes neither.
-/

namespace M8flow.Connectors

open M8flow.Lib M8flow.Secrets

/-! ## Data -/

/-- What a call can raise. -/
inductive ProfileError where
  /-- An `ApiError`, with its `errors` by field. -/
  | api (error : ApiError) (errors : List (String × String))
  | secret (error : SecretError)
  | serviceTask (message : String)
  /-- A `connector_type` that is not a text. -/
  | attributeError
  deriving Repr, DecidableEq

def apiError (errorCode message : String) (statusCode : Nat) : ProfileError :=
  .api (.of errorCode message statusCode) []

/-- `ConnectorConfigurationModel`. -/
structure Profile where
  id : Nat
  tenantId : Text
  connectorType : Text
  profileName : Text
  displayName : Text
  description : Option Text
  configJson : Dict Text Text
  secretRefs : Dict Text Text
  isActive : Bool
  createdByUserId : Int

/-- A value of `config`. -/
inductive ConfigValue where
  | null
  | text (s : Text)
  /-- A number, by what `str` makes of it. -/
  | number (shown : Text)
  | bool (b : Bool)
  /-- A list or an object. -/
  | nested

/-- The body of a request, where nothing stands for a key that is missing. -/
structure Body where
  /-- The text, or nothing for another value that counts as true. -/
  connectorType : Option Text
  /-- `str(body.get("profile_name") or "")`. -/
  profileName : Text
  /-- `str(body["display_name"] or "")`. -/
  displayName : Option Text
  description : Option (Option Text)
  isActive : Option Bool
  /-- The object, or nothing for another value that counts as true. -/
  config : Option (Option (Dict Text ConfigValue))
  /-- The items of the list, where nothing stands for one that is not a text, or nothing for a
  value that is no list. -/
  clear : Option (List (Option Text))

/-- The tables, and the next id of the sequence. -/
structure State where
  profiles : List Profile
  secrets : List SecretRow
  nextId : Nat

/-! ## Checks -/

/-- `secret_ref`. -/
def secretRef (configurationId : Nat) (fieldName : Text) : Text :=
  "cnx_".toList ++ (Text.ofNat configurationId ++ '_' :: fieldName)

/-- `_PROFILE_NAME_RE.fullmatch(name)`. -/
def isProfileName (name : Text) : Bool :=
  3 ≤ name.length && name.length ≤ 50 && name.head?.any Char.isAlphanum &&
    name.getLast?.any Char.isAlphanum &&
    name.all fun c => c.isAlphanum || c = '_' || c = '.' || c = '-'

/-- `_profile_name_error`. -/
def profileNameError (name : Text) : Option String :=
  if isProfileName name then none
  else some ("Identifier must be 3-50 characters of letters, digits, '.', '-' or " ++
    "'_', starting and ending with a letter or digit.")

/-- `_DISPLAY_NAME_RE.fullmatch(name)`. -/
def isDisplayName (words : WordTable) (name : Text) : Bool :=
  name.head?.any (fun c => isWord words.unicode c && c ≠ '_') &&
    name.all fun c => isWord words.unicode c || c ∈ [' ', '.', '(', ')', '-']

def displayNameHint : String :=
  "Use letters, numbers, spaces, - _ . ( ). Must start with a letter or number."

/-- `_display_name_error`. -/
def displayNameError (words : WordTable) (name : Text) : Option String :=
  if name = [] then some "Display name is required."
  else if ¬ (3 ≤ name.length ∧ name.length ≤ 60) then
    some "Display name must be 3-60 characters."
  else if isDisplayName words name then none
  else some displayNameHint

/-- `_raise_field_errors`. -/
def raiseFieldErrors (messages : List (String × Option String)) : Except ProfileError Unit :=
  let errors := messages.filterMap fun entry => entry.2.map fun message => (entry.1, message)
  if errors = [] then .ok ()
  else
    .error (.api (.of "validation_error" (" ".intercalate (errors.map Prod.snd)) 400) errors)

/-- `_name_conflict`. -/
def nameConflict (profileName : Text) (existing : Profile) : ProfileError :=
  let message :=
    if existing.isActive then
      "A '" ++ shown profileName ++ "' profile already exists for this connector."
    else
      "An inactive '" ++ shown profileName ++ "' profile already exists for this " ++
        "connector. Reactivate it, or delete it permanently, to reuse the name."
  .api (.of "profile_name_conflict" message 409) [("profile_name", message)]

def unknownFields (names : List Text) : ProfileError :=
  apiError "validation_error"
    ("Unknown profile fields: " ++ ", ".intercalate ((Paging.sortBy id names).map shown) ++ ".") 400

/-- `_config_from_body`. -/
def configFromBody (body : Body) : Except ProfileError (Dict Text ConfigValue) :=
  match body.config with
  | none => .ok .empty
  | some none => .error (apiError "validation_error" "config must be an object of field values." 400)
  | some (some config) => .ok config

/-- The value of one field, if one is given. -/
def fieldValue (submitted : Dict Text ConfigValue) (name : Text) :
    Except ProfileError (Option Text) :=
  match submitted.get? name with
  | none => .ok none
  | some .null => .ok none
  | some (.text s) => if s = [] then .ok none else .ok (some s)
  | some (.number shown) => .ok (some shown)
  | some (.bool _) =>
      .error (apiError "validation_error" (shown name ++ " must be a text value.") 400)
  | some .nested =>
      .error (apiError "validation_error" (shown name ++ " must be a text value.") 400)

/-- The loop of `_secret_values_from_config`. -/
def secretValues (submitted : Dict Text ConfigValue) :
    List Text → Except ProfileError (List (Text × Text))
  | [] => .ok []
  | name :: names => do
      let value ← fieldValue submitted name
      let rest ← secretValues submitted names
      return (value.map fun value => (name, value)).toList ++ rest

/-- `_secret_values_from_config`. -/
def secretValuesFromConfig (connectorType : Text) (submitted : Dict Text ConfigValue) :
    Except ProfileError (List (Text × Text)) :=
  let allowed := secretFieldNames connectorType
  let unknown := submitted.keys.filter fun name => name ∉ allowed
  if unknown ≠ [] then .error (unknownFields unknown) else secretValues submitted allowed

section Service

variable (words : WordTable) (server : Server) (cipher : Cipher)

/-! ## Secrets of a profile -/

/-- A call of the secrets from the service. -/
def fromSecrets {α : Type} (outcome : Except SecretError α) : Except ProfileError α :=
  outcome.mapError .secret

/-- The loop of `_write_secrets`. -/
def writeEach (tenantId : Text) (configurationId : Nat) (userId : Int) :
    List (Text × Text) → Dict Text Text → List SecretRow →
      Except SecretError (Dict Text Text × List SecretRow)
  | [], refs, secrets => .ok (refs, secrets)
  | (name, value) :: rest, refs, secrets => do
      let key := secretRef configurationId name
      let (_, secrets) ← addSecret (databaseProvider server cipher) words secrets tenantId key value
        userId
      writeEach tenantId configurationId userId rest (refs.set name key) secrets

/-- `_write_secrets`: what was written before an error goes away with the transaction. -/
def writeSecrets (tenantId : Text) (configurationId : Nat) (values : List (Text × Text))
    (userId : Int) (secrets : List SecretRow) :
    Except ProfileError (Dict Text Text × List SecretRow) :=
  match writeEach words server cipher tenantId configurationId userId values .empty secrets with
  | .ok written => .ok written
  | .error (.api error) => .error (.secret (.api error))
  | .error _ => .error (apiError "connector_profile_error"
      "Could not store the profile's credentials." 500)

/-- `_ignore_missing`: nothing instead of the provider's 404. -/
def ignoreMissing (outcome : Except SecretError (List SecretRow)) :
    Except SecretError (Option (List SecretRow)) :=
  match outcome with
  | .ok secrets => .ok (some secrets)
  | .error (.api error) => if error.statusCode = 404 then .ok none else .error (.api error)
  | .error error => .error error

/-- The secret that a field is updated under, if it has one that is still there. -/
def updateExisting (tenantId : Text) (ref : Option Text) (value : Text)
    (secrets : List SecretRow) : Except SecretError (Option (List SecretRow)) :=
  match ref with
  | none => .ok none
  | some key =>
      ignoreMissing (updateSecret (databaseProvider server cipher) words secrets tenantId key value)

/-- `refs.get(name) or secret_ref(profile.id, name)`. -/
def keyOf (profileId : Nat) (refs : Dict Text Text) (name : Text) : Text :=
  (truthy (refs.get? name)).getD (secretRef profileId name)

/-- One field that is set. -/
def setField (tenantId : Text) (profileId : Nat) (userId : Int) (name value : Text)
    (refs : Dict Text Text) (secrets : List SecretRow) :
    Except SecretError (Dict Text Text × List SecretRow) := do
  let key := keyOf profileId refs name
  match ← updateExisting words server cipher tenantId ((refs.get? name).map fun _ => key) value
      secrets with
  | some secrets => return (refs, secrets)
  | none =>
      let (_, secrets) ← addSecret (databaseProvider server cipher) words secrets tenantId key value
        userId
      return (refs.set name key, secrets)

def setFields (tenantId : Text) (profileId : Nat) (userId : Int) :
    List (Text × Text) → Dict Text Text → List SecretRow →
      Except SecretError (Dict Text Text × List SecretRow)
  | [], refs, secrets => .ok (refs, secrets)
  | (name, value) :: rest, refs, secrets => do
      let (refs, secrets) ← setField words server cipher tenantId profileId userId name value refs
        secrets
      setFields tenantId profileId userId rest refs secrets

/-- One field that is cleared. -/
def clearField (tenantId name : Text) (refs : Dict Text Text) (secrets : List SecretRow) :
    Except SecretError (Dict Text Text × List SecretRow) :=
  match refs.get? name with
  | none => .ok (refs.pop name, secrets)
  | some key => do
      let removed ← ignoreMissing
        (deleteSecret (databaseProvider server cipher) words secrets tenantId key)
      return (refs.pop name, removed.getD secrets)

def clearFields (tenantId : Text) : List Text → Dict Text Text → List SecretRow →
    Except SecretError (Dict Text Text × List SecretRow)
  | [], refs, secrets => .ok (refs, secrets)
  | name :: names, refs, secrets => do
      let (refs, secrets) ← clearField words server cipher tenantId name refs secrets
      clearFields tenantId names refs secrets

/-- The checks of the cleared fields, one after the other. -/
def checkClear (fields : List ProfileField) (values : List (Text × Text)) :
    List Text → Except ProfileError Unit
  | [] => .ok ()
  | name :: names =>
      match fields.find? fun field => field.id = name with
      | none => .error (unknownFields [name])
      | some field =>
          if field.required then
            .error (apiError "validation_error" (field.label ++ " is required and cannot be cleared.")
              400)
          else if name ∈ values.map Prod.fst then
            .error (apiError "validation_error" (field.label ++ " cannot be both set and cleared.") 400)
          else checkClear fields values names

/-- `_update_secrets`: the references and the secrets afterwards. -/
def updateSecrets (profile : Profile) (submitted : Dict Text ConfigValue) (clear : List Text)
    (userId : Int) (secrets : List SecretRow) :
    Except ProfileError (Dict Text Text × List SecretRow) := do
  let values ← secretValuesFromConfig profile.connectorType submitted
  let allowed := secretFieldNames profile.connectorType
  let fields := profileFields profile.connectorType
  let unknown := clear.filter fun name => name ∉ allowed
  let missing := clear.filter fun name => name ∉ fields.map ProfileField.id
  if unknown ≠ [] then throw (unknownFields unknown)
  else if missing ≠ [] then throw (unknownFields missing)
  else
    checkClear fields values clear
    let (refs, secrets) ← fromSecrets (setFields words server cipher profile.tenantId profile.id
      userId values profile.secretRefs secrets)
    fromSecrets (clearFields words server cipher profile.tenantId clear refs secrets)

/-! ## Calls -/

/-- `get_profile`. -/
def getProfile (state : State) (tenantId : Text) (profileId : Nat) : Except ProfileError Profile :=
  match state.profiles.find? fun profile => profile.tenantId = tenantId ∧ profile.id = profileId with
  | none => .error (apiError "not_found" "Connector profile not found." 404)
  | some profile => .ok profile

/-- `_by_name`. -/
def byName (state : State) (tenantId connectorType profileName : Text) : Option Profile :=
  state.profiles.find? fun profile => profile.tenantId = tenantId ∧
    profile.connectorType = connectorType ∧ profile.profileName = profileName

/-- The flush of a profile that changed. -/
def State.put (state : State) (profile : Profile) (secrets : List SecretRow) : State :=
  { state with
    profiles := state.profiles.map fun old => if old.id = profile.id then profile else old
    secrets }

/-- The insertion of a profile with its secrets. -/
def insertProfile (state : State) (profile : Profile) (values : List (Text × Text)) :
    Except ProfileError (Profile × State) := do
  let (refs, secrets) ← writeSecrets words server cipher profile.tenantId profile.id values
    profile.createdByUserId state.secrets
  let profile := { profile with secretRefs := refs }
  return (profile,
    { profiles := state.profiles ++ [profile], secrets, nextId := state.nextId + 1 })

/-- `create_profile`. -/
def createProfile (state : State) (tenantId : Text) (body : Body) (userId : Int) :
    Except ProfileError (Profile × State) :=
  match body.connectorType with
  | none => .error .attributeError
  | some connectorType => do
      let connectorType := connectorType.strip
      if ¬ knownConnectorType connectorType then
        throw (apiError "not_found" ("Unknown connector type '" ++ shown connectorType ++ "'.") 404)
      else
        let profileName := body.profileName.strip
        let displayName := ((truthy body.displayName).getD profileName).strip
        raiseFieldErrors [("profile_name", profileNameError profileName),
          ("display_name", displayNameError words displayName)]
        let config ← configFromBody body
        let values ← secretValuesFromConfig connectorType config
        match byName state tenantId connectorType profileName with
        | some existing => throw (nameConflict profileName existing)
        | none =>
            if ¬ server.column tenantId then throw (.secret .dataError)
            else
              insertProfile words server cipher state
                { id := state.nextId, tenantId, connectorType, profileName, displayName,
                  description := truthy (body.description.getD none), configJson := .empty,
                  secretRefs := .empty, isActive := true, createdByUserId := userId } values

/-- The display name that an update gives a profile. -/
def updatedDisplayName (profile : Profile) (body : Body) : Except ProfileError Text :=
  match body.displayName with
  | none => .ok profile.displayName
  | some given => do
      let displayName := given.strip
      if displayName = profile.displayName then return profile.displayName
      else
        raiseFieldErrors [("display_name", displayNameError words displayName)]
        return displayName

/-- `clear`, if it is a list of different texts. -/
def clearFromBody (body : Body) : Except ProfileError (List Text) :=
  let refused := apiError "validation_error" "clear must be a list of unique field ids." 400
  match body.clear with
  | none => .error refused
  | some items =>
      match items.mapM id with
      | none => .error refused
      | some clear => if clear.Nodup then .ok clear else .error refused

/-- The secrets that an update leaves, if it is about secrets at all. -/
def updatedSecrets (profile : Profile) (body : Body) (clear : List Text) (userId : Int)
    (secrets : List SecretRow) : Except ProfileError (Dict Text Text × List SecretRow) :=
  if body.config.isSome ∨ clear ≠ [] then do
    let submitted ← configFromBody body
    updateSecrets words server cipher profile submitted clear userId secrets
  else .ok (profile.secretRefs, secrets)

/-- `update_profile`. -/
def updateProfile (state : State) (tenantId : Text) (profileId : Nat) (body : Body)
    (userId : Int) : Except ProfileError (Profile × State) := do
  let profile ← getProfile state tenantId profileId
  let displayName ← updatedDisplayName words profile body
  let clear ← clearFromBody body
  let (secretRefs, secrets) ← updatedSecrets words server cipher profile body clear userId
    state.secrets
  let profile := { profile with
    displayName
    description := (body.description.map truthy).getD profile.description
    isActive := body.isActive.getD profile.isActive
    secretRefs }
  return (profile, state.put profile secrets)

/-- `deactivate_profile`. -/
def deactivateProfile (state : State) (tenantId : Text) (profileId : Nat) :
    Except ProfileError (Profile × State) := do
  let profile ← getProfile state tenantId profileId
  let profile := { profile with isActive := false }
  return (profile, state.put profile state.secrets)

/-- The loop of `resolve_for_runtime`. -/
def resolveEach (secrets : List SecretRow) (tenantId profileName : Text) :
    List (Text × Text) → Dict Text Text → Except ProfileError (Dict Text Text)
  | [], resolved => .ok resolved
  | (name, key) :: rest, resolved => do
      match ← fromSecrets
          (getSecretValue (databaseProvider server cipher) words secrets tenantId key) with
      | none => throw (.serviceTask ("Profile '" ++ shown profileName ++
          "' is missing its stored value for '" ++ shown name ++
          "'. Re-enter it under Connectors."))
      | some value => resolveEach secrets tenantId profileName rest (resolved.set name value)

/-- `resolve_for_runtime`. -/
def resolveForRuntime (state : State) (tenantId connectorType profileName : Text) :
    Except ProfileError (Dict Text Text) :=
  match byName state tenantId connectorType profileName with
  | none => .error (.serviceTask ("No '" ++ shown profileName ++
      "' profile is configured for connector '" ++ shown connectorType ++ "'."))
  | some profile =>
      if ¬ profile.isActive then
        .error (.serviceTask ("Connector profile '" ++ shown profileName ++
          "' is inactive. Reactivate it under Connectors, or pick another profile on this task."))
      else
        resolveEach words server cipher state.secrets tenantId profileName
          profile.secretRefs.entries profile.configJson

/-! ## Runs -/

/-- A call on profiles; an update also reactivates. -/
inductive Call where
  | create (tenantId : Text) (body : Body) (userId : Int)
  | update (tenantId : Text) (profileId : Nat) (body : Body) (userId : Int)
  | deactivate (tenantId : Text) (profileId : Nat)

/-- What a call returns, and the tables afterwards. -/
def attempt (state : State) : Call → Except ProfileError (Profile × State)
  | .create tenantId body userId => createProfile words server cipher state tenantId body userId
  | .update tenantId profileId body userId =>
      updateProfile words server cipher state tenantId profileId body userId
  | .deactivate tenantId profileId => deactivateProfile state tenantId profileId

/-- One call in a transaction: the id of its profile, and the tables afterwards. -/
def step (state : State) (call : Call) : Except ProfileError Nat × State :=
  match attempt words server cipher state call with
  | .error error => (.error error, state)
  | .ok (profile, after) => (.ok profile.id, after)

end Service

end M8flow.Connectors
