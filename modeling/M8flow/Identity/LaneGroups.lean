import M8flow.Authorization.Store
import M8flow.Lib.Casing
import M8flow.Lib.Digits

/-!
# Workflow lane groups

`sync_lane_groups` of `identity/__init__.py`: each directory group of a user
becomes a group with the id that the workflow core gives to a lane of that name,
and the user is assigned to it.
-/

namespace M8flow.Identity

open M8flow.Authorization M8flow.Lib

/-- What lane synchronization takes from elsewhere: the casing tables, and
`resolve_lane_assignment_id`, the core's id of a lane in a tenant. -/
structure LaneRules where
  casing : Casing
  laneAssignmentId : (laneName tenantId : Text) → Nat

/-- The lane that a directory group names: the last segment of its path. -/
def laneName (identifier : Text) : Text :=
  (Text.lastPart '/' (Text.stripWhere (· = '/') identifier.strip)).strip

/-- `f"{tenant_id}:{lane_name}"`. -/
def laneGroupIdentifier (tenantId lane : Text) : Text := tenantId ++ ':' :: lane

def laneAuthorizationKey (id : Nat) : Text := "authorization:lane:".toList ++ Text.ofNat id

/-- The group of a lane is taken over under its tenant's identifier: it has the bare lane
name, or the identifier but for case.  Another group with the id is left alone. -/
def adoptLaneGroup (rules : LaneRules) (tenantId lane : Text) (group : GroupModel) :
    Option GroupModel :=
  let identifier := laneGroupIdentifier tenantId lane
  let renamed := { group with name := identifier, identifier }
  if group.identifier = lane ∧ tenantId ≠ [] then some renamed
  else if rules.casing.casefold group.identifier = rules.casing.casefold identifier then
    some renamed
  else none

/-- `_ensure_user_group_assignment`: the memberships, and whether one was added. -/
def ensureUserGroupAssignment (memberships : List UserGroupAssignment) (userId groupId : Nat) :
    List UserGroupAssignment × Bool :=
  if ⟨userId, groupId⟩ ∈ memberships then (memberships, false)
  else (memberships ++ [⟨userId, groupId⟩], true)

/-- One pass of the loop of `sync_lane_groups`. -/
def syncLaneGroup (rules : LaneRules) (tenantId : Text) (userId : Nat) (store : Store)
    (identifier : Text) : Store × Bool :=
  let lane := laneName identifier
  if lane = [] then (store, false)
  else
    let id := rules.laneAssignmentId lane tenantId
    let created : GroupModel :=
      { id, name := laneGroupIdentifier tenantId lane,
        identifier := laneGroupIdentifier tenantId lane,
        authorizationKey := some (laneAuthorizationKey id) }
    let groups :=
      if (Table.lookup GroupModel.id store.groups id).isSome then store.groups
      else store.groups ++ [created]
    let group := (Table.lookup GroupModel.id groups id).getD created
    match adoptLaneGroup rules tenantId lane group with
    | none => ({ store with groups }, false)
    | some adopted =>
        let keyed : GroupModel :=
          { adopted with
            authorizationKey :=
              (truthy adopted.authorizationKey).or (some (laneAuthorizationKey adopted.id)) }
        let assigned := ensureUserGroupAssignment store.memberships userId id
        ({ store with
            groups := Table.updateAt GroupModel.id id (fun row => { keyed with id := row.id }) groups
            memberships := assigned.1 },
          assigned.2)

/-- The loop of `sync_lane_groups`. -/
def syncLaneGroupsFrom (rules : LaneRules) (tenantId : Text) (userId : Nat) :
    Store → List Text → Store × Bool
  | store, [] => (store, false)
  | store, identifier :: identifiers =>
      let first := syncLaneGroup rules tenantId userId store identifier
      let rest := syncLaneGroupsFrom rules tenantId userId first.1 identifiers
      (rest.1, first.2 || rest.2)

/-- `sync_lane_groups`: the store, and whether the user was assigned to a group. -/
def syncLaneGroups (rules : LaneRules) (tenantId : Text) (userId : Nat) (store : Store)
    (laneGroupIdentifiers : List Text) : Store × Bool :=
  syncLaneGroupsFrom rules tenantId userId store laneGroupIdentifiers.eraseDups

end M8flow.Identity
