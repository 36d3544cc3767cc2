import M8flow.Authorization.Deny

/-!
# Methods and actions outside the lists

`_method_to_action` reads a method or an action that is in neither of its lists as one that
no grant names.  A grant of everything applies to it all the same, and the fallback goes by
roles and not by actions.

- `methodToAction_eq_unknown`: which texts are read so.
- `unknown_action_iff`: what such a request is still allowed by.
- `editor_allowed_unknown`: an editor is allowed one by the fallback.
-/

namespace M8flow.Authorization

open M8flow.Auth M8flow.Identity M8flow.Lib

/-- The text is a method of HTTP, or the name of an action, in any case. -/
def ListedAction (casing : Casing) (method : Text) : Prop :=
  casing.upper method.strip ∈ httpMethodActions.map Prod.fst ∨
    casing.lower method.strip ∈ actionNames.map Prod.fst

instance (casing : Casing) (method : Text) : Decidable (ListedAction casing method) :=
  inferInstanceAs (Decidable (_ ∨ _))

/-- A key is found in a list of pairs exactly if it is one of the first components. -/
theorem lookup_eq_none_iff {β : Type} {key : Text} (pairs : List (Text × β)) :
    pairs.lookup key = none ↔ key ∉ pairs.map Prod.fst := by
  rw [List.lookup_eq_none_iff, List.mem_map, not_exists]
  constructor
  · intro h pair hpair
    exact (bne_iff_ne.mp (h pair hpair.1)) hpair.2.symm
  · intro h pair hmem
    rw [bne_iff_ne]
    intro hsame
    exact h pair ⟨hmem, hsame.symm⟩

/-- No method and no name of the lists is read as the unknown action. -/
theorem known_of_lookup {pairs : List (Text × Action)} {key : Text} {action : Action}
    (hpairs : ∀ pair ∈ pairs, pair.2 ≠ .unknown) (h : pairs.lookup key = some action) :
    action ≠ .unknown := by
  induction pairs with
  | nil => cases h
  | cons pair pairs ih =>
      rw [List.lookup_cons] at h
      split at h
      · rw [← Option.some.inj h]
        exact hpairs pair List.mem_cons_self
      · exact ih (fun other hmem => hpairs other (List.mem_cons_of_mem _ hmem)) h

/-- What is read as the unknown action is what is in neither list. -/
theorem methodToAction_eq_unknown {casing : Casing} {method : Text} :
    methodToAction casing method = .unknown ↔ ¬ ListedAction casing method := by
  unfold methodToAction ListedAction
  rw [not_or, ← lookup_eq_none_iff, ← lookup_eq_none_iff]
  cases hhttp : httpMethodActions.lookup (casing.upper method.strip) with
  | some action =>
      have hknown := known_of_lookup (by decide) hhttp
      simp [hknown]
  | none =>
      cases hname : actionNames.lookup (casing.lower method.strip) with
      | some action =>
          have hknown := known_of_lookup (by decide) hname
          simp [hknown]
      | none => simp

/-- The assignment grants or denies everything, or the action that no grant should name. -/
def PermissionAssignment.NamesUnknown (assignment : PermissionAssignment) : Prop :=
  assignment.permission = Action.unknown.name ∨ assignment.permission = "all".toList

/-- The assignment's target is the path. -/
def PermissionAssignment.Reaches (assignment : PermissionAssignment) (path : Text) : Prop :=
  assignment.target.any fun target => target.covers (tenantRequest (.unknown, path))

/-- The store permits an action that it does not know on the path: a held assignment of
everything reaches it, and none that does is a denial. -/
def UnknownPermitted (context : Context) (store : Store) (user : UserModel) (path : Text) : Prop :=
  let held := fun assignment =>
    Holds context.tenantIds store.grants user.id (store.groupsOf user.id) assignment ∧
      assignment.Reaches path ∧ assignment.NamesUnknown
  (∃ assignment, held assignment) ∧ ¬ ∃ assignment, held assignment ∧ assignment.Denies

section Unknown

variable {context : Context} {store : Store} {user : UserModel} {method : Text}

theorem resourcePermitted_unknown (path : Text) :
    resourcePermitted context.tenantIds store.grants user.id (store.groupsOf user.id)
        (tenantRequest (.unknown, path)) ↔
      UnknownPermitted context store user path := by
  have happlies : ∀ assignment : PermissionAssignment,
      assignment.applies (tenantRequest (.unknown, path)) ↔
        assignment.Reaches path ∧ assignment.NamesUnknown := by
    intro assignment
    unfold PermissionAssignment.applies PermissionAssignment.Reaches
      PermissionAssignment.NamesUnknown
    rw [Bool.and_eq_true, Bool.or_eq_true, decide_eq_true_eq, decide_eq_true_eq]
    exact Iff.rfl
  rw [resourcePermitted_iff]
  unfold UnknownPermitted
  dsimp only
  refine and_congr ?_ (not_congr ?_)
  · exact exists_congr fun assignment => and_congr_right fun _ => happlies assignment
  · refine exists_congr fun assignment => ?_
    rw [happlies assignment, and_assoc, and_assoc, and_assoc]

/-- An action that is not known stays so on every path. -/
theorem requestTarget_unknown (path : Text) (h : methodToAction context.casing method = .unknown) :
    requestTarget context method path = (.unknown, normalizeAuthorizationPath path) := by
  unfold requestTarget lifecycleRequest
  rw [h]
  cases lifecycleTarget (normalizeAuthorizationPath path) with
  | none => rfl
  | some target =>
      have hother : ¬ (Action.unknown = .create ∨ Action.unknown = .execute) := by decide
      exact if_neg hother

/-- What a method or action outside the lists is allowed by, for who is not a super-admin: a
held grant of everything, or, where the fallback is asked, a role that it goes by. -/
theorem unknown_action_iff (context : Context) (store : Store) (user : UserModel)
    (method path : Text) (session groupFallback : Bool)
    (hsuper : superAdminIn context store user = false)
    (hunlisted : ¬ ListedAction context.casing method) :
    allowUri context store (some user) method path session groupFallback ↔
      (session ∧ UnknownPermitted context store user (normalizeAuthorizationPath path)) ∨
        (normalizeAuthorizationPath path ≠ homeTaskCountPath ∧
          fallbackOpen groupFallback (normalizeAuthorizationPath path) ∧
          HasFallbackRole context (store.groupsOf user.id)
            (.unknown, normalizeAuthorizationPath path)) := by
  have hunknown := methodToAction_eq_unknown.mpr hunlisted
  have htarget : requestTarget context method path =
      (.unknown, normalizeAuthorizationPath path) := requestTarget_unknown path hunknown
  show allowWithGroups context store.grants user (store.groupsOf user.id) method path session
    groupFallback = true ↔ _
  by_cases hpath : normalizeAuthorizationPath path = homeTaskCountPath
  · rw [allowWithGroups_home _ _ hpath, hunknown, Bool.and_eq_true, resourcePermitted_unknown, hpath]
    constructor
    · exact fun h => Or.inl h
    · intro h
      rcases h with hgranted | ⟨hother, -⟩
      · exact hgranted
      · exact absurd rfl hother
  · have hwrites : ¬ WritesProcessModels (.unknown, normalizeAuthorizationPath path) := by
      intro h
      have hnot : ¬ Action.unknown.Writes := by decide
      exact hnot h.1
    rw [allowWithGroups_other _ _ hpath hsuper, htarget, decide_eq_false hwrites, Bool.false_and,
      Bool.not_false, Bool.true_and, Bool.or_eq_true, Bool.and_eq_true, Bool.and_eq_true,
      resourcePermitted_unknown, groupIdentifierFallback_iff hsuper]
    exact or_congr Iff.rfl (and_iff_right hpath).symm

end Unknown

/-! ## An editor -/

def frobContext : Context where
  casing := Casing.ascii
  tenants := [⟨"t1".toList, "acme".toList⟩]
  current := some "t1".toList
  claims := none

/-- An editor of the tenant, with no grants. -/
def editorStore : Store where
  groups := [⟨1, "editor".toList, "t1:editor".toList, none⟩]
  memberships := [⟨7, 1⟩]
  grants := ⟨[], []⟩

def frobUser : UserModel :=
  ⟨7, "ann".toList, "realm".toList, "s7".toList, none, none, none, none, []⟩

/-- Without the fallback, an editor without grants is refused what is not known. -/
theorem editor_refused_unknown :
    allowUri frobContext editorStore (some frobUser) "Frobnicate".toList
      "/v1.0/processes".toList true false = false := by
  rw [← Bool.not_eq_true, unknown_action_iff _ _ _ _ _ _ _ (by decide) (by decide)]
  intro h
  rcases h with ⟨-, ⟨assignment, hheld, -⟩, -⟩ | ⟨-, hopen, -⟩
  · rcases hheld with ⟨principal, hfound, -⟩ | ⟨group, -, principal, hmem, -⟩
    · cases hfound
    · cases hmem
  · exact absurd hopen (by decide)

/-- With the fallback, an editor is allowed a method that is in neither list. -/
theorem editor_allowed_unknown :
    superAdminIn frobContext editorStore frobUser = false ∧
      ¬ ListedAction frobContext.casing "Frobnicate".toList ∧
      allowUri frobContext editorStore (some frobUser) "Frobnicate".toList
        "/v1.0/processes".toList true true = true ∧
      allowUri frobContext editorStore (some frobUser) "Frobnicate".toList
        "/v1.0/processes".toList false true = true :=
  ⟨by decide, by decide, by decide, by decide⟩

end M8flow.Authorization
