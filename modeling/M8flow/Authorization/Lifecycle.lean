import M8flow.Authorization.Deny
import M8flow.Authorization.Policy

/-!
# Grants to start, and the lifecycle of instances

Suspending, resuming, retrying and terminating an instance need a grant to execute.

- `requestTarget_lifecyclePath`: whatever version prefix the path has, and however
  many slashes at its end, a POST of a lifecycle route asks to execute on the
  instance.
- `lifecycle_needs_execute`: without a grant to execute, and without the roles of
  the fallback, neither the routes nor the commands are allowed.
- `claims_allow_lifecycle`: verified claims with the super-admin role are enough.
-/

namespace M8flow.Authorization

open M8flow.Auth M8flow.Identity M8flow.Lib

/-! ## Lifecycle routes -/

/-- The last segments of the lifecycle routes. -/
def lifecycleCommands : List Text := ["suspend".toList, "resume".toList, "terminate".toList]

/-- What a path may have before the route: `/v1.0`, which is taken off as text, and a
version segment, if `/v1.0` is not the beginning of it. -/
inductive ApiPrefix : Text → Prop where
  | none : ApiPrefix []
  | current : ApiPrefix "/v1.0".toList
  | version (segment : Text) (hversion : isVersionSegment segment)
      (hother : ¬ "v1.0".toList.isPrefixOf segment) : ApiPrefix ('/' :: segment)
  | both (segment : Text) (hversion : isVersionSegment segment) :
      ApiPrefix ("/v1.0".toList ++ '/' :: segment)

/-- The route of a command on an instance. -/
def lifecycleRoute (instanceId command : Text) : Text :=
  '/' :: ("process-instances".toList ++ '/' :: (instanceId ++ '/' :: command))

/-- The route with a prefix, and with slashes at its end. -/
def lifecyclePath (apiPrefix instanceId command : Text) (slashes : Nat) : Text :=
  apiPrefix ++ lifecycleRoute instanceId command ++ List.replicate slashes '/'

/-- What `/v1.0` leaves of a prefix: nothing, or a version segment. -/
def VersionPrefix (rest : Text) : Prop :=
  rest = [] ∨ ∃ segment, isVersionSegment segment ∧ rest = '/' :: segment

theorem isVersionSegment_head {segment : Text} (h : isVersionSegment segment) :
    ∃ rest, segment = 'v' :: rest := by
  unfold isVersionSegment at h
  split at h
  · exact ⟨_, rfl⟩
  · cases h

theorem slash_not_mem_versionSegment {segment : Text} (h : isVersionSegment segment) :
    '/' ∉ segment := by
  have hdecimal : Text.isDecimal '/' = false := by decide
  obtain ⟨rest, hrest⟩ := isVersionSegment_head h
  rw [hrest] at h ⊢
  intro hmem
  have hin : '/' ∈ rest := by simpa using hmem
  rw [← List.takeWhile_append_dropWhile (p := Text.isDecimal) (l := rest), List.mem_append] at hin
  rcases hin with hdigits | hfraction
  · have hall := List.mem_takeWhile_imp hdigits
    rw [hdecimal] at hall
    cases hall
  · simp only [isVersionSegment, Bool.and_eq_true] at h
    have hshape := h.2
    split at hshape
    · rename_i hnil
      rw [hnil] at hfraction
      cases hfraction
    · rename_i digits hdot
      rw [hdot] at hfraction
      have hin : '/' ∈ digits := by simpa using hfraction
      rw [Bool.and_eq_true, List.all_eq_true] at hshape
      have hall := hshape.2 '/' hin
      rw [hdecimal] at hall
      cases hall
    · cases hshape

theorem withoutApiPathPrefix_append {rest : Text} (h : rest ≠ []) :
    withoutApiPathPrefix ("/v1.0".toList ++ rest) = rest := by
  have htruthy : truthy (some rest) = some rest := truthy_eq_some.mpr ⟨rfl, h⟩
  have hslash : ['/'].isPrefixOf ("/v1.0".toList ++ rest) = true := by simp
  have hstarts : "/v1.0".toList.isPrefixOf ("/v1.0".toList ++ rest) = true := by simp
  have hdrop : ("/v1.0".toList ++ rest).drop 5 = rest := by simp
  unfold withoutApiPathPrefix
  dsimp only
  rw [hslash, if_pos rfl, hstarts, if_pos rfl, hdrop, htruthy, Option.getD_some]

theorem withoutApiPathPrefix_other {rest : Text} (h : ¬ "v1.0".toList.isPrefixOf rest) :
    withoutApiPathPrefix ('/' :: rest) = '/' :: rest := by
  have hslash : ['/'].isPrefixOf ('/' :: rest) = true := by simp
  have hstarts : "/v1.0".toList.isPrefixOf ('/' :: rest) = "v1.0".toList.isPrefixOf rest := rfl
  unfold withoutApiPathPrefix
  dsimp only
  rw [hslash, if_pos rfl, hstarts, if_neg h]

/-- What is left of a prefixed route. -/
theorem withoutApiPathPrefix_lifecyclePath {apiPrefix : Text} (h : ApiPrefix apiPrefix)
    (instanceId command : Text) (slashes : Nat) :
    ∃ rest, VersionPrefix rest ∧
      withoutApiPathPrefix (lifecyclePath apiPrefix instanceId command slashes) =
        lifecyclePath rest instanceId command slashes := by
  cases h with
  | none =>
      refine ⟨[], Or.inl rfl, withoutApiPathPrefix_other ?_⟩
      simp
  | current =>
      have hne : lifecyclePath [] instanceId command slashes ≠ [] := by
        simp [lifecyclePath, lifecycleRoute]
      have hpath : lifecyclePath "/v1.0".toList instanceId command slashes =
          "/v1.0".toList ++ lifecyclePath [] instanceId command slashes := by
        simp [lifecyclePath]
      refine ⟨[], Or.inl rfl, ?_⟩
      rw [hpath, withoutApiPathPrefix_append hne]
  | version segment hversion hother =>
      have hpath : lifecyclePath ('/' :: segment) instanceId command slashes =
          '/' :: (segment ++ '/' :: (lifecyclePath [] instanceId command slashes).tail) := by
        simp [lifecyclePath, lifecycleRoute]
      refine ⟨'/' :: segment, Or.inr ⟨segment, hversion, rfl⟩, ?_⟩
      rw [hpath]
      apply withoutApiPathPrefix_other
      intro hlong
      exact hother (Text.isPrefixOf_append (by decide) hlong)
  | both segment hversion =>
      have hne : lifecyclePath ('/' :: segment) instanceId command slashes ≠ [] := by
        simp [lifecyclePath]
      have hpath : lifecyclePath ("/v1.0".toList ++ '/' :: segment) instanceId command slashes =
          "/v1.0".toList ++ lifecyclePath ('/' :: segment) instanceId command slashes := by
        simp [lifecyclePath]
      refine ⟨'/' :: segment, Or.inr ⟨segment, hversion, rfl⟩, ?_⟩
      rw [hpath, withoutApiPathPrefix_append hne]

/-- A command does not end in a slash. -/
theorem lifecycleCommand_last {command : Text} (h : command ∈ lifecycleCommands) :
    ∃ front last, last ≠ '/' ∧ command = front ++ [last] := by
  simp only [lifecycleCommands, List.mem_cons, List.not_mem_nil, or_false] at h
  rcases h with hsuspend | hresume | hterminate
  · exact ⟨"suspen".toList, 'd', by decide, hsuspend⟩
  · exact ⟨"resum".toList, 'e', by decide, hresume⟩
  · exact ⟨"terminat".toList, 'e', by decide, hterminate⟩

/-- The route after normalization: the slashes at its end are gone. -/
theorem normalizeAuthorizationPath_lifecyclePath {apiPrefix : Text} (h : ApiPrefix apiPrefix)
    {instanceId command : Text} (hcommand : command ∈ lifecycleCommands) (slashes : Nat) :
    ∃ rest, VersionPrefix rest ∧
      normalizeAuthorizationPath (lifecyclePath apiPrefix instanceId command slashes) =
        rest ++ lifecycleRoute instanceId command := by
  obtain ⟨rest, hrest, hleft⟩ :=
    withoutApiPathPrefix_lifecyclePath h instanceId command slashes
  refine ⟨rest, hrest, ?_⟩
  have hlast : ∀ hne : rest ++ lifecycleRoute instanceId command ≠ [],
      (rest ++ lifecycleRoute instanceId command).getLast hne ≠ '/' := by
    obtain ⟨front, last, hslash, hsame⟩ := lifecycleCommand_last hcommand
    have hends : rest ++ lifecycleRoute instanceId command =
        rest ++ lifecycleRoute instanceId front ++ [last] := by
      simp [lifecycleRoute, hsame]
    intro hne
    simp only [hends, List.getLast_concat]
    exact hslash
  have hstripped : Text.rstripChar '/' (lifecyclePath rest instanceId command slashes) =
      rest ++ lifecycleRoute instanceId command := by
    unfold lifecyclePath
    rw [Text.rstripChar_append_replicate, Text.rstripChar_eq_self hlast]
  have hhead : ∃ c tail, c ≠ 'm' ∧ rest ++ lifecycleRoute instanceId command = '/' :: c :: tail := by
    rcases hrest with hnil | hversion
    · rw [hnil]
      exact ⟨'p', _, by decide, rfl⟩
    · obtain ⟨segment, hsegment, hsame⟩ := hversion
      obtain ⟨tail, htail⟩ := isVersionSegment_head hsegment
      rw [hsame, htail]
      exact ⟨'v', _, by decide, rfl⟩
  obtain ⟨c, tail, hne, hsame⟩ := hhead
  unfold normalizeAuthorizationPath
  dsimp only
  rw [hleft, hstripped, hsame]
  have htruthy : (truthy (some ('/' :: c :: tail))).getD ['/'] = '/' :: c :: tail := rfl
  have hslash : ['/'].isPrefixOf ('/' :: c :: tail) = true := by simp
  have hpublic : isUnder "/m8flow/task-review".toList ('/' :: c :: tail) = false := by
    simp [isUnder, List.isPrefixOf_cons_cons, hne, Ne.symm hne]
  rw [htruthy, hslash, if_pos rfl, hpublic, if_neg Bool.false_ne_true]

/-- A numeric instance id: decimal digits. -/
def IsInstanceId (instanceId : Text) : Prop :=
  instanceId ≠ [] ∧ ∀ c ∈ instanceId, Text.isDecimal c

theorem not_mem_instanceId {instanceId : Text} (h : IsInstanceId instanceId) {c : Char}
    (hc : Text.isDecimal c = false) : c ∉ instanceId := by
  intro hmem
  have hdecimal := h.2 c hmem
  rw [hc] at hdecimal
  cases hdecimal

theorem splitOn_lifecycleRoute {instanceId command : Text} (hid : IsInstanceId instanceId)
    (hcommand : command ∈ lifecycleCommands) :
    Text.splitOn ['/'] (lifecycleRoute instanceId command) =
      [[], "process-instances".toList, instanceId, command] := by
  have hslash : '/' ∉ command := by
    simp only [lifecycleCommands, List.mem_cons, List.not_mem_nil, or_false] at hcommand
    rcases hcommand with hsuspend | hresume | hterminate
    · rw [hsuspend]
      decide
    · rw [hresume]
      decide
    · rw [hterminate]
      decide
  have hroot : lifecycleRoute instanceId command =
      [] ++ '/' :: ("process-instances".toList ++ '/' :: (instanceId ++ '/' :: command)) := rfl
  rw [hroot, Text.splitOn_append (by simp), Text.splitOn_append (by decide),
    Text.splitOn_append (not_mem_instanceId hid (by decide)), Text.splitOn_of_not_mem hslash]

/-- The route's target, with a version segment and without one. -/
theorem lifecycleTarget_lifecycleRoute {rest instanceId command : Text}
    (hrest : VersionPrefix rest) (hid : IsInstanceId instanceId)
    (hcommand : command ∈ lifecycleCommands) :
    lifecycleTarget (rest ++ lifecycleRoute instanceId command) =
      some ("/process-instances/".toList ++ instanceId) := by
  have hroot : isVersionSegment "process-instances".toList = false := by decide
  rcases hrest with hnil | hversion
  · rw [hnil, List.nil_append]
    unfold lifecycleTarget
    dsimp only
    rw [splitOn_lifecycleRoute hid hcommand]
    dsimp only
    rw [hroot, if_neg Bool.false_ne_true]
    dsimp only
    rw [if_pos ⟨rfl, hid.1, hcommand, Or.inl rfl⟩]
  · obtain ⟨segment, hsegment, hsame⟩ := hversion
    have hsplit : Text.splitOn ['/'] (rest ++ lifecycleRoute instanceId command) =
        [[], segment, "process-instances".toList, instanceId, command] := by
      have htail : lifecycleRoute instanceId command =
          [] ++ '/' :: (lifecycleRoute instanceId command).tail := rfl
      have hpath : rest ++ lifecycleRoute instanceId command =
          [] ++ '/' :: (segment ++ '/' :: (lifecycleRoute instanceId command).tail) := by
        rw [hsame]
        rfl
      have hroute := splitOn_lifecycleRoute hid hcommand
      rw [htail, Text.splitOn_append (by simp)] at hroute
      rw [hpath, Text.splitOn_append (by simp),
        Text.splitOn_append (slash_not_mem_versionSegment hsegment), (List.cons.inj hroute).2]
    unfold lifecycleTarget
    dsimp only
    rw [hsplit]
    dsimp only
    rw [hsegment, if_pos rfl]
    dsimp only
    rw [if_pos ⟨rfl, hid.1, hcommand, Or.inl rfl⟩]

theorem methodToAction_post (casing : Casing) : methodToAction casing "POST".toList = .create := by
  have hstrip : Text.strip "POST".toList = "POST".toList := by decide
  unfold methodToAction
  rw [hstrip, casing.upper_ascii _ (by decide), casing.lower_ascii _ (by decide)]
  decide

/-- A POST of a lifecycle route asks to execute on the instance. -/
theorem requestTarget_lifecyclePath (context : Context) {apiPrefix instanceId command : Text}
    (hstarts : ApiPrefix apiPrefix) (hid : IsInstanceId instanceId)
    (hcommand : command ∈ lifecycleCommands) (slashes : Nat) :
    requestTarget context "POST".toList (lifecyclePath apiPrefix instanceId command slashes) =
      (.execute, "/process-instances/".toList ++ instanceId) := by
  obtain ⟨rest, hrest, hnormalized⟩ :=
    @normalizeAuthorizationPath_lifecyclePath _ hstarts instanceId _ hcommand slashes
  unfold requestTarget lifecycleRequest
  rw [hnormalized, methodToAction_post, lifecycleTarget_lifecycleRoute hrest hid hcommand]
  rfl

/-- The path of an instance is not one of tasks. -/
theorem isTasksPath_instance {instanceId : Text} (hid : IsInstanceId instanceId) :
    isTasksPath ("/process-instances/".toList ++ instanceId) = false := by
  have hnot : ∀ c, Text.isDecimal c = false → c ∉ "/process-instances/".toList →
      ∀ sep : Text, c ∈ sep → ¬ sep <:+: "/process-instances/".toList ++ instanceId := by
    intro c hdecimal hroot sep hsep hinside
    rcases List.mem_append.mp (hinside.subset hsep) with hin | hin
    · exact hroot hin
    · exact not_mem_instanceId hid hdecimal hin
  have htasks := hnot 'k' (by decide) (by decide) "/tasks".toList (by decide)
  have honboarding := hnot 'b' (by decide) (by decide) "/onboarding".toList (by decide)
  unfold isTasksPath
  rw [← Bool.not_eq_true, Bool.or_eq_true, Bool.or_eq_true, Text.hasInfix_iff, Text.hasInfix_iff,
    List.isSuffixOf_iff_suffix]
  intro h
  rcases h with (hinside | hsuffix) | hinside
  · exact honboarding hinside
  · exact htasks hsuffix.isInfix
  · exact htasks hinside

/-! ## Without a grant to execute -/

/-- The assignment grants executing: it does not deny, and is for `execute` or for all. -/
def PermissionAssignment.GrantsExecute (assignment : PermissionAssignment) : Prop :=
  ¬ assignment.Denies ∧
    (assignment.permission = "execute".toList ∨ assignment.permission = "all".toList)

/-- The policy of the core allows a lifecycle command only on a grant to execute that the
actor holds. -/
def AllowsOnExecuteGrant (context : Context)
    (default : Store → AuthorizationRequest → AuthorizationDecision) : Prop :=
  ∀ store request, request.commandKey ∈ lifecycleCommandKeys →
    request.permission = "execute".toList → (default store request).allowed →
      ∃ assignment, Holds context.tenantIds store.grants request.actorUserId
        (store.groupsOf request.actorUserId) assignment ∧ assignment.GrantsExecute

section Execute

variable {context : Context} {store : Store} {user : UserModel}

theorem resourcePermitted_execute
    (hgrants : ∀ assignment, Holds context.tenantIds store.grants user.id
      (store.groupsOf user.id) assignment → ¬ assignment.GrantsExecute)
    {request : ResourceRequest} (haction : request.action = .execute) :
    resourcePermitted context.tenantIds store.grants user.id (store.groupsOf user.id) request =
      false := by
  rw [← Bool.not_eq_true, resourcePermitted_iff]
  intro h
  obtain ⟨⟨assignment, hheld, happlies⟩, hnone⟩ := h
  apply hgrants assignment hheld
  refine ⟨fun hdenies => hnone ⟨assignment, hheld, happlies, hdenies⟩, ?_⟩
  unfold PermissionAssignment.applies at happlies
  rw [Bool.and_eq_true, Bool.or_eq_true, decide_eq_true_eq, decide_eq_true_eq, haction] at happlies
  exact happlies.2

/-- The routes of the lifecycle are refused. -/
theorem allowUri_lifecyclePath (hsuper : superAdminIn context store user = false)
    (hroles : ∀ group ∈ activeTenantGroups context.tenantIds (store.groupsOf user.id),
      ¬ endsInRole "tenant-admin" group.identifier ∧ ¬ endsInRole "editor" group.identifier)
    (hgrants : ∀ assignment, Holds context.tenantIds store.grants user.id
      (store.groupsOf user.id) assignment → ¬ assignment.GrantsExecute)
    {apiPrefix instanceId command : Text} (hstarts : ApiPrefix apiPrefix)
    (hid : IsInstanceId instanceId) (hcommand : command ∈ lifecycleCommands) (slashes : Nat)
    (session groupFallback : Bool) :
    allowUri context store (some user) "POST".toList
      (lifecyclePath apiPrefix instanceId command slashes) session groupFallback = false := by
  have htarget := requestTarget_lifecyclePath context hstarts hid hcommand slashes
  have hpath : normalizeAuthorizationPath (lifecyclePath apiPrefix instanceId command slashes) ≠
      homeTaskCountPath := by
    intro hhome
    rw [requestTarget_home hhome] at htarget
    have hfront := congrArg (fun target : Action × Text => target.2.take 2) htarget
    have hroute : ("/process-instances/".toList ++ instanceId).take 2 = ['/', 'p'] := rfl
    dsimp only at hfront
    rw [hroute] at hfront
    exact absurd hfront (by decide)
  have hnorole : ¬ HasFallbackRole context (store.groupsOf user.id)
      (.execute, "/process-instances/".toList ++ instanceId) := by
    intro h
    obtain ⟨group, hactive, hadmin | heditor | htasks⟩ := h
    · exact (hroles group hactive).1 hadmin
    · exact (hroles group hactive).2 heditor.2
    · have hpath := htasks.1
      rw [isTasksPath_instance hid] at hpath
      cases hpath
  have hfallback : groupIdentifierFallback context (store.groupsOf user.id)
      ("/process-instances/".toList ++ instanceId) (some Action.execute.name) = false := by
    rw [← Bool.not_eq_true]
    intro h
    exact hnorole ((groupIdentifierFallback_iff hsuper
      (.execute, "/process-instances/".toList ++ instanceId)).mp h)
  show allowWithGroups context store.grants user (store.groupsOf user.id) _ _ _ _ = false
  rw [allowWithGroups_other _ _ hpath hsuper, htarget, hfallback,
    resourcePermitted_execute hgrants rfl, Bool.and_false, Bool.and_false, Bool.or_false,
    Bool.and_false]

/-- The commands of the lifecycle are refused. -/
theorem authorize_lifecycle {users : List UserModel}
    {default : Store → AuthorizationRequest → AuthorizationDecision}
    {request : AuthorizationRequest}
    (huser : Table.lookup UserModel.id users request.actorUserId = some user)
    (hsuper : superAdminIn context store user = false)
    (hgrants : ∀ assignment, Holds context.tenantIds store.grants user.id
      (store.groupsOf user.id) assignment → ¬ assignment.GrantsExecute)
    (hdefault : AllowsOnExecuteGrant context default)
    (hcommand : request.commandKey ∈ lifecycleCommandKeys) :
    (authorize context users default store request).allowed = false := by
  have hid : user.id = request.actorUserId := Table.key_of_lookup huser
  have hkeys : request.commandKey ≠ "process_definition.import".toList ∧
      request.commandKey ≠ processStartCommand ∧ request.commandKey ∉ taskCommandKeys := by
    simp only [lifecycleCommandKeys, List.mem_cons, List.not_mem_nil, or_false] at hcommand
    rcases hcommand with hkey | hkey | hkey | hkey
    · rw [hkey]
      decide
    · rw [hkey]
      decide
    · rw [hkey]
      decide
    · rw [hkey]
      decide
  have himport : importDecision context store user request = none := if_neg hkeys.1
  have hstart : startDecision context store user request = none := if_neg hkeys.2.1
  have htask : taskDecision context store user request = none := if_neg hkeys.2.2
  have hexecute : ∀ resourceType pathPrefix command,
      hostYamlDecision context store user .execute resourceType request.resourceId pathPrefix
        command false = none := by
    intro resourceType pathPrefix command
    unfold hostYamlDecision
    rw [resourcePermitted_execute hgrants rfl]
    rfl
  unfold authorize
  rw [huser]
  dsimp only
  rw [hsuper, if_neg Bool.false_ne_true, himport, hstart, htask, Option.none_or, Option.none_or,
    Option.none_or]
  unfold lifecycleDecision
  rw [if_pos hcommand]
  by_cases hpermission : request.permission = "execute".toList
  · rw [if_neg (not_not.mpr hpermission)]
    dsimp only
    rw [hexecute, hexecute, Option.none_or, Option.none_or]
    split
    · rfl
    · rw [Option.getD_none, ← Bool.not_eq_true]
      intro hallowed
      obtain ⟨assignment, hheld, hgrant⟩ :=
        hdefault store request hcommand hpermission hallowed
      rw [← hid] at hheld
      exact hgrants assignment hheld hgrant
  · rw [if_pos hpermission]
    rfl

end Execute

/-- Who is not a super-admin, is in no group of the tenant with the tenant-admin's or the
editor's role, and holds no grant to execute, is refused every lifecycle route of every
instance and every lifecycle command. -/
theorem lifecycle_needs_execute (context : Context) (store : Store) (user : UserModel)
    (hsuper : superAdminIn context store user = false)
    (hroles : ∀ group ∈ activeTenantGroups context.tenantIds (store.groupsOf user.id),
      ¬ endsInRole "tenant-admin" group.identifier ∧ ¬ endsInRole "editor" group.identifier)
    (hgrants : ∀ assignment, Holds context.tenantIds store.grants user.id
      (store.groupsOf user.id) assignment → ¬ assignment.GrantsExecute) :
    (∀ apiPrefix instanceId command slashes session groupFallback, ApiPrefix apiPrefix →
      IsInstanceId instanceId → command ∈ lifecycleCommands →
      allowUri context store (some user) "POST".toList
        (lifecyclePath apiPrefix instanceId command slashes) session groupFallback = false) ∧
    ∀ users default request,
      Table.lookup UserModel.id users request.actorUserId = some user →
      AllowsOnExecuteGrant context default → request.commandKey ∈ lifecycleCommandKeys →
      (authorize context users default store request).allowed = false := by
  constructor
  · intro apiPrefix instanceId command slashes session groupFallback hstarts hid hcommand
    exact allowUri_lifecyclePath hsuper hroles hgrants hstarts hid hcommand slashes session
      groupFallback
  · intro users default request huser hdefault hcommand
    exact authorize_lifecycle huser hsuper hgrants hdefault hcommand

/-! ## A submitter, and a super-admin by claims -/

def submitterContext (claims : Option VerifiedClaims) : Context where
  casing := Casing.ascii
  tenants := [⟨"t1".toList, "acme".toList⟩]
  current := some "t1".toList
  claims := claims

def submitterUser : UserModel :=
  ⟨7, "ann".toList, "realm".toList, "s7".toList, none, none, none, none, []⟩

/-- The grant to create instances. -/
def createInstances : PermissionAssignment where
  principalId := 4
  permission := "create".toList
  grantType := "permit".toList
  target := some ⟨some "tenant".toList, some "/process-instances/*".toList, none, none⟩

/-- A submitter whose group may create instances. -/
def submitterStore : Store where
  groups := [⟨1, "submitter".toList, "t1:submitter".toList, none⟩]
  memberships := [⟨7, 1⟩]
  grants := { principals := [⟨4, none, some 1⟩], assignments := [createInstances] }

/-- The core's policy, as far as it asks for a grant of the command on the resource. -/
def corePolicy (context : Context) (store : Store) (request : AuthorizationRequest) :
    AuthorizationDecision :=
  ⟨resourcePermitted context.tenantIds store.grants request.actorUserId
      (store.groupsOf request.actorUserId)
      ⟨Action.ofName request.permission, request.resourceType, request.resourceId,
        some request.commandKey, false⟩, "grant".toList⟩

theorem corePolicy_allowsOnExecuteGrant (context : Context) :
    AllowsOnExecuteGrant context (corePolicy context) := by
  intro store request _ hpermission hallowed
  obtain ⟨⟨assignment, hheld, happlies⟩, hnone⟩ := resourcePermitted_iff.mp hallowed
  have haction : Action.ofName request.permission = .execute := by
    rw [hpermission]
    decide
  refine ⟨assignment, hheld, fun hdenies => hnone ⟨assignment, hheld, happlies, hdenies⟩, ?_⟩
  unfold PermissionAssignment.applies at happlies
  rw [Bool.and_eq_true, Bool.or_eq_true, decide_eq_true_eq, decide_eq_true_eq, haction] at happlies
  exact happlies.2

theorem submitter_holds_no_execute (claims : Option VerifiedClaims)
    (assignment : PermissionAssignment)
    (h : Holds (submitterContext claims).tenantIds submitterStore.grants submitterUser.id
      (submitterStore.groupsOf submitterUser.id) assignment) : ¬ assignment.GrantsExecute := by
  obtain ⟨id, -, hmem⟩ := mem_of_holds h
  have hsame := congrArg PermissionAssignment.permission (List.mem_singleton.mp hmem)
  intro hgrant
  rw [PermissionAssignment.GrantsExecute, show assignment.permission = "create".toList from hsame]
    at hgrant
  exact absurd hgrant.2 (by decide)

/-- The submitter does not suspend an instance. -/
theorem submitter_does_not_suspend :
    allowUri (submitterContext none) submitterStore (some submitterUser) "POST".toList
        "/v1.0/process-instances/42/suspend/".toList true true = false ∧
      (authorize (submitterContext none) [submitterUser] (corePolicy (submitterContext none))
        submitterStore
        ⟨7, "process.suspend".toList, "execute".toList, "process_instance".toList,
          "42".toList⟩).allowed = false := by
  have hrefused := lifecycle_needs_execute (submitterContext none) submitterStore submitterUser
    (by decide) (by decide) (submitter_holds_no_execute none)
  constructor
  · exact hrefused.1 _ "42".toList "suspend".toList 1 true true ApiPrefix.current
      ⟨by decide, List.all_eq_true.mp (by decide)⟩ (by decide)
  · exact hrefused.2 _ _ _ rfl (corePolicy_allowsOnExecuteGrant _) (by decide)

/-- The claims of a platform administrator who has no group yet. -/
def platformClaims : VerifiedClaims where
  subject := "s7".toList
  issuer := "http://kc/realms/master".toList
  username := some "ann".toList
  email := none
  roles := [superAdminRole]
  memberships := []
  activeTenantRef := none
  issuerKey := none
  trustDomain := some .platform
  membershipsComplete := true

/-- Without a group of these roles and without a grant to execute, the super-admin role in
the verified claims allows suspending an instance. -/
theorem claims_allow_lifecycle :
    superAdminRole ∉ (submitterStore.groupsOf 7).map GroupModel.identifier ∧
      (∀ group ∈ activeTenantGroups (submitterContext (some platformClaims)).tenantIds
        (submitterStore.groupsOf 7),
        ¬ endsInRole "tenant-admin" group.identifier ∧ ¬ endsInRole "editor" group.identifier) ∧
      (∀ assignment, Holds (submitterContext (some platformClaims)).tenantIds
        submitterStore.grants 7 (submitterStore.groupsOf 7) assignment →
        ¬ assignment.GrantsExecute) ∧
      allowUri (submitterContext (some platformClaims)) submitterStore (some submitterUser)
        "POST".toList "/v1.0/process-instances/42/suspend".toList true true = true :=
  ⟨by decide, by decide, submitter_holds_no_execute (some platformClaims), by decide⟩

end M8flow.Authorization
