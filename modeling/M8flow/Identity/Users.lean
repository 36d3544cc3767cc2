import M8flow.Auth.Realm
import M8flow.Lib.Table
import Mathlib.Data.List.MinMax
import Mathlib.Data.Prod.Lex

/-!
# Local users

`identity/__init__.py` and `auth/identity_helpers.py`: the local row of a user,
how a row is found by an identity, and the two ways in which logins and the
provisioning of members create and refresh rows.

The table is the list of its rows in the order in which the database returns
them.  What the database does with one call is in `Database`; a call that
raises leaves the table as its last commit left it.
-/

namespace M8flow.Identity

open M8flow.Auth M8flow.Lib

/-- A local user.  Time stamps are microseconds since the epoch, naive values read as
UTC; `groups` are the identifiers of the groups that the row is assigned to. -/
structure UserModel where
  id : Nat
  username : Text
  service : Text
  serviceId : Text
  email : Option Text
  displayName : Option Text
  createdAt : Option Int
  updatedAt : Option Int
  groups : List Text
  deriving Repr, DecidableEq

/-- A user is one realm plus one user id: the key by which rows are compared. -/
def UserModel.identity (user : UserModel) : Text × Text :=
  (realmFromService (some user.service), user.serviceId)

/-- `_last_used`. -/
def lastUsed (user : UserModel) : Int := user.updatedAt.getD 0

/-- The order of the times, by which the most recent row is found. -/
local instance instPreorderTime : Preorder Int := Int.instLinearOrder.toPreorder

/-- `find_user_by_service_identity`. -/
def findUserByServiceIdentity (users : List UserModel) (service serviceId : Text) :
    Option UserModel :=
  match users.find? fun user => user.service = service ∧ user.serviceId = serviceId with
  | some exact => some exact
  | none =>
      if serviceId = [] then none
      else
        let sameRealm := users.filter fun user =>
          user.serviceId = serviceId ∧
            realmFromService (some user.service) = realmFromService (some service)
        sameRealm.argmax fun user => toLex (lastUsed user, user.id)

/-- `find_users_by_username`. -/
def findUsersByUsername (users : List UserModel) (username : Text) : List UserModel :=
  users.filter fun user => user.username = username

def timerSystemUsername : Text := "__m8f_timer_start__".toList

/-! ## Calls -/

/-- What the clock and the database do during one call. -/
structure Database where
  now : Int
  /-- The id of a row that the call inserts. -/
  newId : Nat
  /-- The insertion, and the commits, succeed. -/
  inserts : Bool
  commitsUsername : Bool
  commitsRefresh : Bool
  /-- What an update of a row leaves in its `updated_at`. -/
  touched : Option Int → Option Int

/-- How a call ends. -/
inductive Outcome where
  | raised
  | returned (user : Option UserModel)
  deriving Repr, DecidableEq

/-- Store a changed row. -/
def store (user : UserModel) (users : List UserModel) : List UserModel :=
  Table.updateAt UserModel.id user.id (fun _ => user) users

/-- `ensure_user`. -/
def ensureUser (users : List UserModel) (db : Database) (username service serviceId : Text)
    (email : Option Text) : Outcome × List UserModel :=
  match findUserByServiceIdentity users service serviceId with
  | some user =>
      if (truthy email).isSome ∧ email ≠ user.email then
        let changed : UserModel := { user with email, updatedAt := some db.now }
        (.returned changed, store changed users)
      else (.returned user, users)
  | none =>
      let existingTimer :=
        if username = timerSystemUsername then
          users.find? fun user => user.username = timerSystemUsername
        else none
      match existingTimer with
      | some user => (.returned user, users)
      | none =>
          -- the primary key refuses an id that a row has
          if db.inserts ∧ db.newId ∉ users.map UserModel.id then
            let user : UserModel :=
              { id := db.newId, username, service, serviceId, email, displayName := some username,
                createdAt := some db.now, updatedAt := some db.now, groups := [] }
            (.returned user, users ++ [user])
          else (.raised, users)

/-- A member as the directory represents it: the fields that are texts. -/
structure Member where
  id : Option Text
  username : Option Text
  email : Option Text
  firstName : Option Text
  lastName : Option Text
  deriving Repr, DecidableEq

/-- A field that is a text, stripped, if it is not blank then. -/
def strippedField (field : Option Text) : Option Text := truthy (field.map Text.strip)

/-- `_display_name_from_keycloak_member`. -/
def displayNameFromKeycloakMember (member : Member) : Option Text :=
  let fullName :=
    match member.firstName, member.lastName with
    | some first, some last =>
        let parts := [first.strip, last.strip].filter fun part => part ≠ []
        truthy (some (List.intercalate [' '] parts))
    | _, _ => none
  fullName.or ((strippedField member.firstName).or
    ((strippedField member.lastName).or (strippedField member.username)))

/-- `datetime.min` in UTC. -/
def datetimeMin : Int := -62135596800000000

/-- `_user_recency_key`. -/
def userRecencyKey (user : UserModel) : Int ×ₗ Int ×ₗ Nat :=
  toLex (user.updatedAt.getD datetimeMin, toLex (user.createdAt.getD datetimeMin, user.id))

/-- The first of the rows with a username in the order that prefers the shared realm, and
then the most recent row. -/
def preferredMatch (matching : List UserModel) (sharedRealmService : Text) : Option UserModel :=
  matching.argmax fun user =>
    (toLex (decide (realmFromService (some user.service) =
      realmFromService (some sharedRealmService)), userRecencyKey user) :
      Bool ×ₗ Int ×ₗ Int ×ₗ Nat)

/-- `_refresh_local_shared_realm_user`. -/
def refreshLocalSharedRealmUser (users : List UserModel) (db : Database) (localUser : UserModel)
    (member : Member) (memberId sharedRealmService : Text) : Outcome × List UserModel :=
  let refreshed : UserModel :=
    { localUser with
      service := sharedRealmService
      serviceId := memberId
      email := some ((member.email.map Text.strip).getD [])
      displayName := displayNameFromKeycloakMember member }
  if refreshed = localUser then (.returned localUser, users)
  else if db.commitsRefresh then
    let stored : UserModel := { refreshed with updatedAt := db.touched localUser.updatedAt }
    (.returned stored, store stored users)
  else (.raised, users)

/-- `_upsert_local_shared_realm_member`, past its checks; `sharedRealmService` is the
configured issuer of the shared realm. -/
def upsertMember (users : List UserModel) (db : Database) (member : Member)
    (memberId memberUsername sharedRealmService : Text) : Outcome × List UserModel :=
  match findUserByServiceIdentity users sharedRealmService memberId with
  | some exactUser =>
      if exactUser.username ≠ memberUsername then
        if db.commitsUsername then
          let renamed : UserModel :=
            { exactUser with
              username := memberUsername
              updatedAt := db.touched exactUser.updatedAt }
          refreshLocalSharedRealmUser (store renamed users) db renamed member memberId
            sharedRealmService
        else (.raised, users)
      else
        refreshLocalSharedRealmUser users db exactUser member memberId sharedRealmService
  | none =>
      match preferredMatch (findUsersByUsername users memberUsername) sharedRealmService with
      | some existingUser =>
          refreshLocalSharedRealmUser users db existingUser member memberId sharedRealmService
      | none =>
          let created := ensureUser users db memberUsername sharedRealmService memberId
            (some (member.email.getD []))
          match created.1 with
          | .returned user => (.returned user, created.2)
          | .raised =>
              -- the row that a concurrent call may have inserted
              match preferredMatch (findUsersByUsername created.2 memberUsername)
                  sharedRealmService with
              | some fallbackUser =>
                  refreshLocalSharedRealmUser created.2 db fallbackUser member memberId
                    sharedRealmService
              | none => (.raised, created.2)

/-- `_upsert_local_shared_realm_member`. -/
def upsertLocalSharedRealmMember (users : List UserModel) (db : Database) (member : Member)
    (sharedRealmService : Option Text) : Outcome × List UserModel :=
  match strippedField member.id, strippedField member.username, truthy sharedRealmService with
  | some memberId, some memberUsername, some service =>
      upsertMember users db member memberId memberUsername service
  | _, _, _ => (.returned none, users)

/-- The two ways in which rows are created and refreshed. -/
inductive Call where
  | ensureUser (username service serviceId : Text) (email : Option Text)
  | upsertLocalSharedRealmMember (member : Member) (sharedRealmService : Option Text)
  deriving Repr, DecidableEq

/-- One call, with what the database does during it. -/
structure Request where
  call : Call
  db : Database

/-- Run a call on the table. -/
def Request.run (request : Request) (users : List UserModel) : Outcome × List UserModel :=
  match request.call with
  | .ensureUser username service serviceId email =>
      Identity.ensureUser users request.db username service serviceId email
  | .upsertLocalSharedRealmMember member sharedRealmService =>
      Identity.upsertLocalSharedRealmMember users request.db member sharedRealmService

/-- The table after a call. -/
def step (users : List UserModel) (request : Request) : Option (List UserModel) :=
  some (request.run users).2

end M8flow.Identity
