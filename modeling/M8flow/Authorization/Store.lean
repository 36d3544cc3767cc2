import M8flow.Lib.Table
import M8flow.Lib.Text

/-!
# The permission store

The rows that authorization reads: groups and the users assigned to them, the
principals of users and groups, and the permission assignments of principals to
targets.
-/

namespace M8flow.Authorization

open M8flow.Lib

/-- A group. -/
structure GroupModel where
  id : Nat
  name : Text
  identifier : Text
  authorizationKey : Option Text
  deriving Repr, DecidableEq

/-- A user's membership in a group. -/
structure UserGroupAssignment where
  userId : Nat
  groupId : Nat
  deriving Repr, DecidableEq

/-- The principal of a user or of a group. -/
structure Principal where
  id : Nat
  userId : Option Nat
  groupId : Option Nat
  deriving Repr, DecidableEq

/-- What a permission is for: a typed resource, or a route as older rows have it. -/
structure PermissionTarget where
  resourceType : Option Text
  resourceId : Option Text
  uri : Option Text
  command : Option Text
  deriving Repr, DecidableEq

/-- A permission that a principal has, or is denied, on a target. -/
structure PermissionAssignment where
  principalId : Nat
  permission : Text
  grantType : Text
  target : Option PermissionTarget
  deriving Repr, DecidableEq

/-- The principals and what is granted to them. -/
structure Grants where
  principals : List Principal
  assignments : List PermissionAssignment
  deriving Repr, DecidableEq

/-- The store. -/
structure Store where
  groups : List GroupModel
  memberships : List UserGroupAssignment
  grants : Grants
  deriving Repr, DecidableEq

/-- `user.groups`: the groups that a user is assigned to. -/
def Store.groupsOf (store : Store) (userId : Nat) : List GroupModel :=
  (store.memberships.filter fun membership => membership.userId = userId).filterMap
    fun membership => Table.lookup GroupModel.id store.groups membership.groupId

/-- A group is one of the user's exactly if the user is assigned to it. -/
theorem mem_groupsOf {store : Store} {userId : Nat} {group : GroupModel} :
    group ∈ store.groupsOf userId ↔
      ⟨userId, group.id⟩ ∈ store.memberships ∧
        Table.lookup GroupModel.id store.groups group.id = some group := by
  unfold Store.groupsOf
  rw [List.mem_filterMap]
  constructor
  · intro h
    obtain ⟨membership, hmem, hfound⟩ := h
    obtain ⟨hin, huser⟩ := List.mem_filter.mp hmem
    have hid : group.id = membership.groupId := Table.key_of_lookup hfound
    have hsame : membership = ⟨userId, group.id⟩ := by
      rw [hid, ← of_decide_eq_true huser]
    rw [hid]
    refine ⟨?_, hfound⟩
    rw [← hid, ← hsame]
    exact hin
  · intro h
    exact ⟨⟨userId, group.id⟩, List.mem_filter.mpr ⟨h.1, decide_eq_true rfl⟩, h.2⟩

end M8flow.Authorization
