import M8flow.Identity.Users
import M8flow.Lib.Run
import Mathlib.Data.List.Nodup

/-!
# Which identities a local row stands for

A row stores the issuer and the user id of one identity.  Three things can
happen to what is stored, and `step_effect` says that nothing else does:

- a call leaves every row's identity as it is;
- a call that finds no row for its identity creates one with it;
- the provisioning of a member re-binds one row to the member's identity: the
  row that is found for that identity, and without one, deliberately, the row
  that has the member's username.

Every fact about runs follows from it.  The last part is what holds where the
username decides nothing: a row then stands for the identity it was created for.
-/

namespace M8flow.Identity

open M8flow.Auth M8flow.Lib

/-- What a row stores of an identity, with the row's id. -/
def UserModel.binding (user : UserModel) : Nat × Text × Text :=
  (user.id, user.service, user.serviceId)

def bindings (users : List UserModel) : List (Nat × Text × Text) := users.map UserModel.binding

/-- One row stores another identity. -/
def rebind (id : Nat) (service serviceId : Text) (stored : List (Nat × Text × Text)) :
    List (Nat × Text × Text) :=
  Table.updateAt Prod.fst id (fun row => (row.1, service, serviceId)) stored

/-- The issuer and the user id that a call is made for, if it does anything. -/
def Call.identity : Call → Option (Text × Text)
  | .ensureUser _ service serviceId _ => some (service, serviceId)
  | .upsertLocalSharedRealmMember member sharedRealmService =>
      match strippedField member.id, strippedField member.username, truthy sharedRealmService with
      | some memberId, some _, some service => some (service, memberId)
      | _, _, _ => none

/-- The username by which a call may look for a row. -/
def Call.memberUsername : Call → Option Text
  | .ensureUser .. => none
  | .upsertLocalSharedRealmMember member _ => strippedField member.username

/-- The row that a call may re-bind: the row found for its identity, and without one the
row with the member's username. -/
def rebound (users : List UserModel) (call : Call) (service serviceId : Text) :
    Option UserModel :=
  match call.memberUsername with
  | none => none
  | some username =>
      (findUserByServiceIdentity users service serviceId).or
        (preferredMatch (findUsersByUsername users username) service)

/-- The ids of the rows are distinct. -/
def IdsDistinct (users : List UserModel) : Prop := (users.map UserModel.id).Nodup

/-- What a call does to the identities that the rows store. -/
inductive Effect (users : List UserModel) (call : Call) (after : List UserModel) : Prop where
  | kept (hsame : bindings after = bindings users)
  | created (user : UserModel) (hafter : after = users ++ [user])
      (hfresh : user.id ∉ users.map UserModel.id)
      (hcall : call.identity = some (user.service, user.serviceId))
      (hnone : findUserByServiceIdentity users user.service user.serviceId = none)
  | moved (row : UserModel) (service serviceId : Text)
      (hcall : call.identity = some (service, serviceId))
      (hrow : rebound users call service serviceId = some row)
      (hafter : bindings after = rebind row.id service serviceId (bindings users))

/-! ## Finding a row -/

/-- A found row stores the user id and an issuer of the same realm. -/
theorem find_identity {users : List UserModel} {service serviceId : Text} {row : UserModel}
    (h : findUserByServiceIdentity users service serviceId = some row) :
    row ∈ users ∧ row.identity = (realmFromService (some service), serviceId) := by
  unfold findUserByServiceIdentity at h
  split at h
  · rename_i exact hexact
    cases h
    have hmem := List.mem_of_find?_eq_some hexact
    have hstored := List.find?_some hexact
    simp only [Bool.decide_and, Bool.and_eq_true, decide_eq_true_eq] at hstored
    refine ⟨hmem, ?_⟩
    unfold UserModel.identity
    rw [hstored.1, hstored.2]
  · split at h
    · cases h
    · have hmem := List.argmax_mem (Option.mem_def.mpr h)
      obtain ⟨hin, hsame⟩ := List.mem_filter.mp hmem
      simp only [Bool.decide_and, Bool.and_eq_true, decide_eq_true_eq] at hsame
      refine ⟨hin, ?_⟩
      unfold UserModel.identity
      rw [hsame.1, hsame.2]

theorem mem_of_preferredMatch {matching : List UserModel} {service : Text} {row : UserModel}
    (h : preferredMatch matching service = some row) : row ∈ matching :=
  List.argmax_mem (Option.mem_def.mpr h)

/-- The row that a call re-binds is a row of the table. -/
theorem mem_of_rebound {users : List UserModel} {call : Call} {service serviceId : Text}
    {row : UserModel} (h : rebound users call service serviceId = some row) : row ∈ users := by
  unfold rebound at h
  split at h
  · cases h
  · rcases Option.or_eq_some_iff.mp h with hfound | ⟨_, hmatch⟩
    · exact (find_identity hfound).1
    · exact (List.mem_filter.mp (mem_of_preferredMatch hmatch)).1

/-! ## One call -/

theorem bindings_store (user : UserModel) (users : List UserModel) :
    bindings (store user users) = rebind user.id user.service user.serviceId (bindings users) := by
  unfold bindings rebind store Table.updateAt Table.updateWhere
  rw [List.map_map, List.map_map]
  apply List.map_congr_left
  intro row _
  by_cases hid : row.id = user.id
  · simp [UserModel.binding, hid]
  · simp [UserModel.binding, hid]

/-- Storing a row with the identity that it had leaves what is stored alone. -/
theorem bindings_store_same {users : List UserModel} {user changed : UserModel}
    (hids : IdsDistinct users) (hmem : user ∈ users) (hsame : changed.binding = user.binding) :
    bindings (store changed users) = bindings users := by
  have hid : changed.id = user.id := congrArg Prod.fst hsame
  unfold bindings store Table.updateAt Table.updateWhere
  rw [List.map_map]
  apply List.map_congr_left
  intro row hrow
  simp only [Function.comp, hid, decide_eq_true_eq]
  split
  · rename_i heq
    have hrow' : row = user := List.inj_on_of_nodup_map hids hrow hmem heq
    rw [hsame, hrow']
  · rfl

/-- Refreshing a row for a member leaves what is stored alone, or re-binds the row. -/
theorem refresh_bindings (users : List UserModel) (db : Database) (localUser : UserModel)
    (member : Member) (memberId service : Text) :
    bindings (refreshLocalSharedRealmUser users db localUser member memberId service).2 =
        bindings users ∨
      bindings (refreshLocalSharedRealmUser users db localUser member memberId service).2 =
        rebind localUser.id service memberId (bindings users) := by
  unfold refreshLocalSharedRealmUser
  dsimp only
  split
  · exact Or.inl rfl
  · split
    · right
      rw [bindings_store]
    · exact Or.inl rfl

/-- `ensure_user` never re-binds a row. -/
theorem ensureUser_effect {users : List UserModel} (hids : IdsDistinct users) (db : Database)
    (username service serviceId : Text) (email : Option Text) :
    bindings (ensureUser users db username service serviceId email).2 = bindings users ∨
      ∃ user, (ensureUser users db username service serviceId email).2 = users ++ [user] ∧
        user.id ∉ users.map UserModel.id ∧ user.service = service ∧ user.serviceId = serviceId ∧
        findUserByServiceIdentity users service serviceId = none := by
  unfold ensureUser
  split
  · rename_i user hfound
    left
    dsimp only
    split
    · exact bindings_store_same hids (find_identity hfound).1 rfl
    · rfl
  · rename_i hnone
    dsimp only
    split
    · exact Or.inl rfl
    · split
      · rename_i hinsert
        exact Or.inr ⟨_, rfl, hinsert.2, rfl, rfl, hnone⟩
      · exact Or.inl rfl

theorem ensureUser_raised {users : List UserModel} {db : Database}
    {username service serviceId : Text} {email : Option Text}
    (h : (ensureUser users db username service serviceId email).1 = .raised) :
    (ensureUser users db username service serviceId email).2 = users := by
  unfold ensureUser at h ⊢
  split
  · rename_i hfound
    rw [hfound] at h
    dsimp only at h
    split at h
    · cases h
    · cases h
  · rename_i hnone
    rw [hnone] at h
    dsimp only at h ⊢
    split
    · rfl
    · rename_i htimer
      rw [htimer] at h
      dsimp only at h
      split at h
      · cases h
      · rename_i hrefused
        rw [if_neg hrefused]

/-- What one call does. -/
theorem step_effect {users : List UserModel} (hids : IdsDistinct users) (request : Request) :
    Effect users request.call (request.run users).2 := by
  obtain ⟨call, db⟩ := request
  cases call with
  | ensureUser username service serviceId email =>
      rcases ensureUser_effect hids db username service serviceId email with
        hsame | ⟨user, hafter, hfresh, rfl, rfl, hnone⟩
      · exact Effect.kept hsame
      · exact Effect.created user hafter hfresh rfl hnone
  | upsertLocalSharedRealmMember member sharedRealmService =>
      unfold Request.run upsertLocalSharedRealmMember
      dsimp only
      split
      · rename_i memberId memberUsername service hid husername hservice
        have hcall : Call.identity (.upsertLocalSharedRealmMember member sharedRealmService) =
            some (service, memberId) := by
          simp only [Call.identity, hid, husername, hservice]
        have hrebound : rebound users (.upsertLocalSharedRealmMember member sharedRealmService)
            service memberId = (findUserByServiceIdentity users service memberId).or
              (preferredMatch (findUsersByUsername users memberUsername) service) := by
          simp only [rebound, Call.memberUsername, husername]
        -- a refresh of the row that is to be re-bound
        have hrefresh : ∀ (rows : List UserModel) (row : UserModel) (id : Nat),
            bindings rows = bindings users → row.id = id →
            (∃ found, found.id = id ∧
              rebound users (.upsertLocalSharedRealmMember member sharedRealmService)
                service memberId = some found) →
            Effect users (.upsertLocalSharedRealmMember member sharedRealmService)
              (refreshLocalSharedRealmUser rows db row member memberId service).2 := by
          intro rows row id hrows hrow hfound
          obtain ⟨found, hfoundId, hfound⟩ := hfound
          rcases refresh_bindings rows db row member memberId service with hsame | hmoved
          · exact Effect.kept (hsame.trans hrows)
          · refine Effect.moved found service memberId hcall hfound ?_
            rw [hmoved, hrows, hrow, hfoundId]
        unfold upsertMember
        split
        · rename_i exactUser hfound
          rw [hfound, Option.some_or] at hrebound
          split
          · split
            · dsimp only
              refine hrefresh _ _ exactUser.id ?_ rfl ⟨exactUser, rfl, hrebound⟩
              exact bindings_store_same hids (find_identity hfound).1 rfl
            · exact Effect.kept rfl
          · exact hrefresh users exactUser exactUser.id rfl rfl ⟨exactUser, rfl, hrebound⟩
        · rename_i hnone
          rw [hnone, Option.none_or] at hrebound
          split
          · rename_i existingUser hmatch
            rw [hmatch] at hrebound
            exact hrefresh users existingUser existingUser.id rfl rfl ⟨existingUser, rfl, hrebound⟩
          · rename_i hnoMatch
            dsimp only
            split
            · rcases ensureUser_effect hids db memberUsername service memberId
                (some (member.email.getD [])) with hsame | ⟨user, hafter, hfresh, rfl, rfl, hfind⟩
              · exact Effect.kept hsame
              · exact Effect.created user hafter hfresh hcall hfind
            · rename_i hraised
              rw [ensureUser_raised hraised, hnoMatch]
              exact Effect.kept rfl
      · exact Effect.kept rfl

section Effect

variable {users after : List UserModel} {call : Call}

theorem ids_eq (users : List UserModel) :
    users.map UserModel.id = (bindings users).map Prod.fst := by
  unfold bindings
  rw [List.map_map]
  rfl

/-- A call keeps the ids of the rows, and may add one. -/
theorem effect_ids (h : Effect users call after) :
    after.map UserModel.id = users.map UserModel.id ∨
      ∃ id, id ∉ users.map UserModel.id ∧
        after.map UserModel.id = users.map UserModel.id ++ [id] := by
  cases h with
  | kept hsame =>
      left
      rw [ids_eq, hsame, ← ids_eq]
  | created user hafter hfresh =>
      refine Or.inr ⟨user.id, hfresh, ?_⟩
      rw [hafter, List.map_append, List.map_singleton]
  | moved row service serviceId _ _ hafter =>
      left
      have hkeys : (rebind row.id service serviceId (bindings users)).map Prod.fst =
          (bindings users).map Prod.fst := by
        unfold rebind Table.updateAt
        rw [Table.keys_updateWhere]
        intro stored
        rfl
      rw [ids_eq, hafter, hkeys, ← ids_eq]

theorem idsDistinct_effect (hids : IdsDistinct users) (h : Effect users call after) :
    IdsDistinct after := by
  unfold IdsDistinct
  rcases effect_ids h with hsame | ⟨id, hfresh, hadded⟩
  · rw [hsame]
    exact hids
  · rw [hadded]
    exact List.nodup_append.mpr ⟨hids, List.nodup_singleton id, by
      intro a ha b hb
      rw [List.mem_singleton.mp hb]
      exact fun heq => hfresh (heq ▸ ha)⟩

/-- An identity that a row did not store before is the one that the call is made for. -/
theorem effect_new_binding (h : Effect users call after) {stored : Nat × Text × Text}
    (hnew : stored ∉ bindings users) (hmem : stored ∈ bindings after) :
    call.identity = some stored.2 := by
  cases h with
  | kept hsame =>
      rw [hsame] at hmem
      exact absurd hmem hnew
  | created user hafter _ hcall =>
      rw [hafter, bindings, List.map_append, List.mem_append] at hmem
      rcases hmem with hold | hadded
      · exact absurd hold hnew
      · rw [List.map_singleton, List.mem_singleton] at hadded
        rw [hadded]
        exact hcall
  | moved row service serviceId hcall _ hafter =>
      rw [hafter] at hmem
      obtain ⟨old, hold, hrewritten⟩ := List.mem_map.mp hmem
      split at hrewritten
      · rw [← hrewritten]
        exact hcall
      · rw [hrewritten] at hold
        exact absurd hold hnew

/-- A row whose identity is not stored any more is the one row that the call re-binds, and
stores the identity that the call is made for. -/
theorem effect_lost_binding (hids : IdsDistinct users) (h : Effect users call after)
    {user : UserModel} (hmem : user ∈ users) (hlost : user.binding ∉ bindings after) :
    ∃ service serviceId, call.identity = some (service, serviceId) ∧
      rebound users call service serviceId = some user ∧
      (user.id, service, serviceId) ∈ bindings after := by
  have hstored : user.binding ∈ bindings users := List.mem_map_of_mem hmem
  cases h with
  | kept hsame =>
      rw [hsame] at hlost
      exact absurd hstored hlost
  | created added hafter =>
      rw [hafter, bindings, List.map_append] at hlost
      exact absurd (List.mem_append_left _ hstored) hlost
  | moved row service serviceId hcall hrow hafter =>
      rw [hafter] at hlost ⊢
      by_cases hid : user.id = row.id
      · have hsame : user = row := List.inj_on_of_nodup_map hids hmem (mem_of_rebound hrow) hid
        refine ⟨service, serviceId, hcall, by rw [hsame]; exact hrow, ?_⟩
        exact List.mem_map.mpr ⟨user.binding, hstored, by simp [UserModel.binding, hid]⟩
      · refine absurd (List.mem_map.mpr ⟨user.binding, hstored, ?_⟩) hlost
        simp [UserModel.binding, hid]

end Effect

/-! ## Runs -/

/-- Any call may come at any time. -/
def anyRequest (_ : List UserModel) (_ : Request) : Prop := True

instance (users : List UserModel) (request : Request) : Decidable (anyRequest users request) :=
  isTrue trivial

/-- A call of the run is made for the identity that the row stores, and stored it there. -/
def StoredBy (requests : List Request) (row : UserModel) : Prop :=
  ∃ before request after users users', requests = before ++ request :: after ∧
    Run step anyRequest [] before users ∧ step users request = some users' ∧
    row.binding ∉ bindings users ∧ row.binding ∈ bindings users' ∧
    request.call.identity = some (row.service, row.serviceId)

/-- A call of the run is made for an issuer of the realm and for the user id, and created
the row. -/
def CreatedFor (requests : List Request) (id : Nat) (realm serviceId : Text) : Prop :=
  ∃ before request after users users', requests = before ++ request :: after ∧
    Run step anyRequest [] before users ∧ step users request = some users' ∧
    id ∉ users.map UserModel.id ∧ id ∈ users'.map UserModel.id ∧
    ∃ service, request.call.identity = some (service, serviceId) ∧
      realmFromService (some service) = realm

/-- The username decides nothing: the identity of the call has a row, or no row has the
member's username. -/
def ByIdentity (users : List UserModel) (request : Request) : Prop :=
  ∀ wanted ∈ request.call.identity,
    (findUserByServiceIdentity users wanted.1 wanted.2).isSome ∨
      ∀ username ∈ request.call.memberUsername, findUsersByUsername users username = []

section Runs

variable {guard : List UserModel → Request → Prop} {requests : List Request}
  {users users' : List UserModel}

theorem effect_of_step {request : Request} (hids : IdsDistinct users)
    (h : step users request = some users') : Effect users request.call users' := by
  cases h
  exact step_effect hids request

theorem idsDistinct_of_run (h : Run step guard [] requests users) : IdsDistinct users := by
  refine h.invariant List.nodup_nil ?_
  intro s request s' hids _ hstep
  exact idsDistinct_effect hids (effect_of_step hids hstep)

/-- What a row stores was stored there by a call made for it. -/
theorem storedBy_of_run (h : Run step anyRequest [] requests users) {row : UserModel}
    (hrow : row ∈ users) : StoredBy requests row := by
  have hempty : ¬ row.binding ∈ bindings [] := by simp [bindings]
  have hend : row.binding ∈ bindings users := List.mem_map_of_mem hrow
  obtain ⟨before, request, after, s, s', hrequests, hbefore, _, hstep, _, hnew, hstored⟩ :=
    h.entered (P := fun s => row.binding ∈ bindings s) hempty hend
  have heffect := effect_of_step (idsDistinct_of_run hbefore) hstep
  have hidentity := effect_new_binding heffect hnew hstored
  exact ⟨before, request, after, s, s', hrequests, hbefore, hstep, hnew, hstored, hidentity⟩

/-- Where the username decides nothing, a row keeps its identity. -/
theorem identity_kept {request : Request} (hids : IdsDistinct users)
    (hguard : ByIdentity users request) (h : step users request = some users')
    {user : UserModel} (hmem : user ∈ users) :
    ∃ kept ∈ users', kept.id = user.id ∧ kept.identity = user.identity := by
  have heffect := effect_of_step hids h
  by_cases hstored : user.binding ∈ bindings users'
  · obtain ⟨kept, hkept, hsame⟩ := List.mem_map.mp hstored
    obtain ⟨hid, hservice, hserviceId⟩ := by simpa [UserModel.binding] using hsame
    refine ⟨kept, hkept, hid, ?_⟩
    unfold UserModel.identity
    rw [hservice, hserviceId]
  · obtain ⟨service, serviceId, hcall, hrow, hnow⟩ :=
      effect_lost_binding hids heffect hmem hstored
    obtain ⟨kept, hkept, hsame⟩ := List.mem_map.mp hnow
    obtain ⟨hid, hservice, hserviceId⟩ := by simpa [UserModel.binding] using hsame
    have hfound : findUserByServiceIdentity users service serviceId = some user := by
      unfold rebound at hrow
      split at hrow
      · cases hrow
      · rename_i username husername
        rcases hguard (service, serviceId) hcall with hsome | hnobody
        · obtain ⟨found, hfound⟩ := Option.isSome_iff_exists.mp hsome
          rw [hfound, Option.some_or] at hrow
          rw [hfound, hrow]
        · rw [hnobody username husername] at hrow
          exact (Option.or_eq_some_iff.mp hrow).elim id fun h => by cases h.2
    refine ⟨kept, hkept, hid, ?_⟩
    rw [(find_identity hfound).2]
    unfold UserModel.identity
    rw [hservice, hserviceId]

/-- Where the username decides nothing, a row was created for the identity it stores. -/
theorem createdFor_of_run (h : Run step ByIdentity [] requests users) {row : UserModel}
    (hrow : row ∈ users) :
    CreatedFor requests row.id (realmFromService (some row.service)) row.serviceId := by
  have hend : row.id ∈ users.map UserModel.id := List.mem_map_of_mem hrow
  obtain ⟨before, request, after, s, s', hrequests, hbefore, hguard, hstep, hrest, hnew, hadded⟩ :=
    h.entered (P := fun s => row.id ∈ s.map UserModel.id) (by simp) hend
  have hids := idsDistinct_of_run hbefore
  have heffect := effect_of_step hids hstep
  obtain ⟨user, huser, hid, hcall⟩ : ∃ user ∈ s', user.id = row.id ∧
      request.call.identity = some (user.service, user.serviceId) := by
    cases heffect with
    | kept hsame =>
        rw [ids_eq, hsame, ← ids_eq] at hadded
        exact absurd hadded hnew
    | created user hafter _ hcall =>
        rw [hafter] at hadded ⊢
        rw [List.map_append, List.mem_append, or_iff_right hnew] at hadded
        have hsame : row.id = user.id := List.mem_singleton.mp hadded
        exact ⟨user, List.mem_append_right s (List.mem_singleton_self user), hsame.symm, hcall⟩
    | moved moved service serviceId _ _ hafter =>
        have hkeys : s'.map UserModel.id = s.map UserModel.id := by
          rw [ids_eq, ids_eq, hafter]
          unfold rebind Table.updateAt
          rw [Table.keys_updateWhere]
          intro stored
          rfl
        rw [hkeys] at hadded
        exact absurd hadded hnew
  -- from its creation on, the row keeps the identity
  have hkept : IdsDistinct users ∧
      ∃ kept ∈ users, kept.id = row.id ∧ kept.identity = user.identity := by
    refine hrest.invariant (P := fun t => IdsDistinct t ∧
      ∃ kept ∈ t, kept.id = row.id ∧ kept.identity = user.identity)
      ⟨idsDistinct_effect hids heffect, user, huser, hid, rfl⟩ ?_
    intro t request t' hinv hguard hstep
    obtain ⟨htids, kept, hkept, hkeptId, hidentity⟩ := hinv
    obtain ⟨next, hnext, hnextId, hnextIdentity⟩ := identity_kept htids hguard hstep hkept
    exact ⟨idsDistinct_effect htids (effect_of_step htids hstep), next, hnext,
      hnextId.trans hkeptId, hnextIdentity.trans hidentity⟩
  obtain ⟨husers, kept, hmem, hkeptId, hidentity⟩ := hkept
  have hsame : kept = row := List.inj_on_of_nodup_map husers hmem hrow hkeptId
  rw [hsame] at hidentity
  have hrealm : realmFromService (some row.service) = realmFromService (some user.service) :=
    congrArg Prod.fst hidentity
  have hserviceId : row.serviceId = user.serviceId := congrArg Prod.snd hidentity
  have hanyBefore : Run step anyRequest [] before s := hbefore.mono fun _ _ _ => trivial
  rw [hrealm, hserviceId]
  exact ⟨before, request, after, s, s', hrequests, hanyBefore, hstep, hnew, hadded,
    user.service, hcall, rfl⟩

end Runs

/-- A local row stands for an identity of one realm.  In every table that calls can make,
an identity finds only a row that stores its user id and an issuer of its realm, by a call
made for just that; a call re-binds a row only as the provisioning of a member, to the
member's identity, and only the row found for it or, without one, the row with the
member's username.  Where the username decides nothing, a row is found only by the identity
it was created for, and no call moves it to another. -/
theorem local_user_identity {requests : List Request} {users : List UserModel}
    (h : Run step anyRequest [] requests users) :
    (∀ service serviceId row, findUserByServiceIdentity users service serviceId = some row →
      row ∈ users ∧ row.serviceId = serviceId ∧
      realmFromService (some row.service) = realmFromService (some service) ∧
      (∀ realm ∈ realmPath row.service, ∀ realm' ∈ realmPath service, realm = realm') ∧
      StoredBy requests row) ∧
    (∀ request : Request, ∀ user ∈ users, user.binding ∉ bindings (request.run users).2 →
      ∃ service serviceId username, request.call.identity = some (service, serviceId) ∧
        request.call.memberUsername = some username ∧
        (user.id, service, serviceId) ∈ bindings (request.run users).2 ∧
        (findUserByServiceIdentity users service serviceId = some user ∨
          (findUserByServiceIdentity users service serviceId = none ∧
            preferredMatch (findUsersByUsername users username) service = some user))) ∧
    (Run step ByIdentity [] requests users →
      (∀ service serviceId row, findUserByServiceIdentity users service serviceId = some row →
        CreatedFor requests row.id (realmFromService (some service)) serviceId) ∧
      ∀ request : Request, ByIdentity users request → ∀ user ∈ users,
        ∃ kept ∈ (request.run users).2, kept.id = user.id ∧ kept.identity = user.identity) := by
  have hids := idsDistinct_of_run h
  refine ⟨?_, ?_, ?_⟩
  · intro service serviceId row hfound
    obtain ⟨hmem, hidentity⟩ := find_identity hfound
    have hrealm : realmFromService (some row.service) = realmFromService (some service) :=
      congrArg Prod.fst hidentity
    refine ⟨hmem, congrArg Prod.snd hidentity, hrealm, ?_, storedBy_of_run h hmem⟩
    intro realm hpath realm' hpath'
    rw [realmFromService_of_realmPath hpath, realmFromService_of_realmPath hpath'] at hrealm
    exact hrealm
  · intro request user hmem hlost
    obtain ⟨service, serviceId, hcall, hrow, hnow⟩ :=
      effect_lost_binding hids (step_effect hids request) hmem hlost
    unfold rebound at hrow
    split at hrow
    · cases hrow
    · rename_i username husername
      exact ⟨service, serviceId, username, hcall, husername, hnow, Option.or_eq_some_iff.mp hrow⟩
  · intro hguarded
    refine ⟨?_, ?_⟩
    · intro service serviceId row hfound
      obtain ⟨hmem, hidentity⟩ := find_identity hfound
      have hcreated := createdFor_of_run hguarded hmem
      have hrealm : realmFromService (some row.service) = realmFromService (some service) :=
        congrArg Prod.fst hidentity
      have hserviceId : row.serviceId = serviceId := congrArg Prod.snd hidentity
      rw [hrealm, hserviceId] at hcreated
      exact hcreated
    · intro request hguard user hmem
      exact identity_kept hids hguard rfl hmem

/-! ## A member who takes over a username -/

def sharedIssuer : Text := "http://h/realms/m8flow".toList

/-- The administrator of the master realm logs in. -/
def adminLogin : Request where
  call := .ensureUser "admin".toList "http://h/realms/master".toList "kc-1".toList none
  db := ⟨5, 1, true, true, true, id⟩

/-- A member of the shared realm with the same username is provisioned. -/
def memberProvisioned : Request where
  call := .upsertLocalSharedRealmMember
    ⟨some "kc-2".toList, some "admin".toList, none, none, none⟩ (some sharedIssuer)
  db := ⟨6, 2, true, true, true, id⟩

/-- The member's identity is stored in the row that was made for the administrator. -/
theorem local_user_identity_member :
    ∃ users row, Run step anyRequest [] [adminLogin, memberProvisioned] users ∧
      findUserByServiceIdentity users sharedIssuer "kc-2".toList = some row ∧ row.id = 1 ∧
      StoredBy [adminLogin, memberProvisioned] row := by
  have hexec : (exec step anyRequest [] [adminLogin, memberProvisioned]).map (fun users =>
      (findUserByServiceIdentity users sharedIssuer "kc-2".toList).map UserModel.id) =
      some (some 1) := by decide
  obtain ⟨users, hrun, hfound⟩ := run_of_exec_map hexec
  obtain ⟨row, hrow, hid⟩ := Option.map_eq_some_iff.mp hfound
  exact ⟨users, row, hrun, hrow, hid, ((local_user_identity hrun).1 _ _ row hrow).2.2.2.2⟩

/-- The row that was made for the administrator of the master realm is found for the
member of the shared realm. -/
theorem member_takes_over_username :
    (exec step anyRequest [] [adminLogin]).map (List.map fun row => (row.id, row.identity)) =
      some [(1, "master".toList, "kc-1".toList)] ∧
    (exec step anyRequest [] [adminLogin, memberProvisioned]).map
        (List.map fun row => (row.id, row.identity)) =
      some [(1, "m8flow".toList, "kc-2".toList)] ∧
    (exec step anyRequest [] [adminLogin, memberProvisioned]).map (fun users =>
        (findUserByServiceIdentity users sharedIssuer "kc-2".toList).map UserModel.id) =
      some (some 1) := by
  refine ⟨by decide, by decide, by decide⟩

end M8flow.Identity
