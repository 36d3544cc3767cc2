import M8flow.Auth.Bind

/-!
# When the lookups agree with the bound tenant

Binding checks that a cookie's tenant is one of the caller's; the lookups that
follow read the cookie again and do not.  They agree with what was bound exactly
where the cookie says nothing else, and `_canonical` leaves the bound id alone.

- `Settled` is what the scope is after a tenant was bound, and `settled_lookup`
  says that a lookup then answers with that tenant or refuses, and changes nothing.
- `lookups_agree_iff` is the equivalence, over every sequence of lookups.
-/

namespace M8flow.Auth

open M8flow.Lib M8flow.Identity

/-- The scope of a request before anything is bound. -/
def Scope.fresh (context : Option Text) : Scope :=
  { tenant := none, context, exempt := false }

/-- The tenant is stored in both places. -/
def Settled (tenant : Text) (scope : Scope) : Prop :=
  scope.tenant = some tenant ∧ scope.context = some tenant

/-- The cookie is absent or empty, or says exactly the tenant. -/
def CookieAgrees (request : Request) (tenant : Text) : Prop :=
  truthy request.cookie = none ∨ request.cookie = some tenant

/-- A lookup refuses, or answers with the tenant. -/
def Agrees (tenant : Text) (answer : Answer) : Prop :=
  ∀ found, answer = .ok found → found = some tenant

theorem settled_bind (request : Request) (scope : Scope) (tenantId : Text) :
    Settled (request.canonical tenantId) (bindRequestTenant request scope tenantId) :=
  ⟨rfl, rfl⟩

/-- Where resolving stores a tenant, it stores it in both places. -/
theorem settled_of_resolve {request : Request} {context : Option Text} {bound : Scope}
    {tenant : Text} (h : resolveRequestTenant request (Scope.fresh context) = .ok bound)
    (htenant : bound.tenant = some tenant) : Settled tenant bound := by
  -- a scope that is not fresh any more is one that was bound
  have hbound : ∀ tenantId, bindRequestTenant request (Scope.fresh context) tenantId = bound →
      Settled tenant bound := by
    intro tenantId hsame
    rw [← hsame] at htenant ⊢
    have hcanonical : request.canonical tenantId = tenant := Option.some.inj htenant
    rw [← hcanonical]
    exact settled_bind request (Scope.fresh context) tenantId
  have hfresh : ∀ exempt, ({ Scope.fresh context with exempt } : Scope) = bound →
      Settled tenant bound := by
    intro exempt hsame
    rw [← hsame] at htenant
    cases htenant
  unfold resolveRequestTenant at h
  split at h
  · split at h
    · exact hbound _ (Except.ok.inj h)
    · split at h
      · exact hbound _ (Except.ok.inj h)
      · exact hfresh true (Except.ok.inj h)
  · dsimp only at h
    split at h
    · exact hbound _ (Except.ok.inj h)
    · split at h
      · exact hbound _ (Except.ok.inj h)
      · split at h
        · split at h
          · exact hfresh true (Except.ok.inj h)
          · exact hfresh false (Except.ok.inj h)
        · split at h
          · exact hbound _ (Except.ok.inj h)
          · cases h
        · split at h
          · exact hbound _ (Except.ok.inj h)
          · cases h
        · split at h
          · exact hfresh true (Except.ok.inj h)
          · cases h

/-- An empty id stands for itself. -/
theorem canonical_nil (request : Request) : request.canonical [] = [] := by
  have hnone : canonicalTenantId request.tenants [some []] = none := rfl
  have hunmatched : ∀ memberships,
      membershipForActiveTenant request.tenants memberships [] = none := fun _ => rfl
  unfold Request.canonical
  rw [hnone]
  dsimp only
  rw [hunmatched]
  rfl

section Lookups

variable {request : Request} {scope : Scope} {tenant : Text}

/-- The lookup by cookie finds the stored tenant or nothing. -/
theorem selected_of_agrees (hcookie : CookieAgrees request tenant)
    (htenant : scope.tenant = some tenant) :
    truthy (tenantIdFromSelectedCookie request scope) = truthy (some tenant) := by
  unfold tenantIdFromSelectedCookie
  rw [truthy_or, htenant]
  rcases hcookie with hnone | hsame
  · rw [hnone, Option.none_or]
  · rw [hsame]
    exact Option.or_self

/-- A stored tenant that is read again is the stored tenant. -/
theorem eq_of_truthy {found : Text} (h : truthy (some tenant) = some found) : found = tenant :=
  (Option.some.inj (truthy_eq_some.mp h).1).symm

theorem settled_requireTenantId (hadmin : request.superAdmin = false)
    (hcookie : CookieAgrees request tenant) (hcanonical : request.canonical tenant = tenant)
    (hscope : Settled tenant scope) (allowOverride : Bool) :
    Agrees tenant (requireTenantId request scope allowOverride).1 ∧
      (requireTenantId request scope allowOverride).2 = scope := by
  have hoverride : (if allowOverride then request.tenantOverride request.superAdmin else none) =
      none := by
    simp [Request.tenantOverride, hadmin]
  unfold requireTenantId
  dsimp only
  rw [hoverride, Option.none_or, selected_of_agrees hcookie hscope.1]
  split
  · exact ⟨nofun, rfl⟩
  · rename_i found hfound
    rw [eq_of_truthy hfound, hcanonical, ← hscope.1]
    refine ⟨?_, rfl⟩
    intro answer h
    rw [← Except.ok.inj h]
    exact hscope.1

/-- Every lookup answers with the settled tenant or refuses, and changes nothing. -/
theorem settled_lookup (hadmin : request.superAdmin = false)
    (hcookie : CookieAgrees request tenant) (hcanonical : request.canonical tenant = tenant)
    (hscope : Settled tenant scope) (lookup : Lookup) :
    Agrees tenant (lookup.run request scope).1 ∧ (lookup.run request scope).2 = scope := by
  have hrequire := settled_requireTenantId hadmin hcookie hcanonical hscope
  cases lookup with
  | requireTenantId allowOverride => exact hrequire allowOverride
  | resolveReadTenantId =>
      unfold Lookup.run resolveReadTenantId
      simp only [hadmin, Bool.false_eq_true, if_false]
      exact hrequire true
  | requireCatalogWriteTenantId explicitTenantId =>
      unfold Lookup.run requireCatalogWriteTenantId
      dsimp only
      split
      · exact ⟨nofun, rfl⟩
      · simp only [hadmin, Bool.false_eq_true, if_false]
        exact hrequire true
  | listTaskReview =>
      unfold Lookup.run listTaskReviewTenantId
      rw [selected_of_agrees hcookie hscope.1, hadmin]
      dsimp only
      split
      · exact ⟨nofun, rfl⟩
      · rename_i found hfound
        rw [eq_of_truthy hfound, ← hscope.1]
        refine ⟨?_, rfl⟩
        intro answer h
        rw [← Except.ok.inj h]
        exact hscope.1
  | getTenantId =>
      obtain ⟨stored, context, exempt⟩ := scope
      obtain ⟨rfl, rfl⟩ := hscope
      unfold Lookup.run getTenantId
      dsimp only
      split
      · rename_i found hfound
        rw [eq_of_truthy hfound]
        refine ⟨?_, rfl⟩
        intro answer h
        exact (Except.ok.inj h).symm
      · exact ⟨nofun, rfl⟩

/-- What one lookup keeps, a sequence of them keeps. -/
theorem settled_answers (hadmin : request.superAdmin = false)
    (hcookie : CookieAgrees request tenant) (hcanonical : request.canonical tenant = tenant)
    (hscope : Settled tenant scope) (lookups : List Lookup) :
    ∀ answer ∈ answers request scope lookups, Agrees tenant answer := by
  induction lookups with
  | nil => nofun
  | cons lookup lookups ih =>
      obtain ⟨hanswer, hsame⟩ := settled_lookup hadmin hcookie hcanonical hscope lookup
      intro answer hmem
      rcases List.mem_cons.mp hmem with hfirst | hrest
      · rw [hfirst]
        exact hanswer
      · rw [hsame] at hrest
        exact ih answer hrest

/-- Where the lookups agree, the cookie does, and the stored id stands for itself. -/
theorem agrees_of_answers (hadmin : request.superAdmin = false) (hscope : Settled tenant scope)
    (h : ∀ lookups, ∀ answer ∈ answers request scope lookups, Agrees tenant answer) :
    CookieAgrees request tenant ∧ request.canonical tenant = tenant := by
  have hlist := h [.listTaskReview] _ List.mem_cons_self
  have hrequire := h [.requireTenantId true] _ List.mem_cons_self
  have hcookie : CookieAgrees request tenant := by
    cases hsent : truthy request.cookie with
    | none => exact Or.inl hsent
    | some cookie =>
        right
        have hselected : truthy (tenantIdFromSelectedCookie request scope) = some cookie := by
          unfold tenantIdFromSelectedCookie
          rw [truthy_or, hsent, Option.some_or]
        have hanswer : (Lookup.run request scope .listTaskReview).1 = .ok (some cookie) := by
          unfold Lookup.run listTaskReviewTenantId
          rw [hselected, hadmin]
          rfl
        rw [← hlist (some cookie) hanswer]
        exact (truthy_eq_some.mp hsent).1
  refine ⟨hcookie, ?_⟩
  have hselected := selected_of_agrees hcookie hscope.1
  cases hstored : truthy (some tenant) with
  | none =>
      -- an empty id names no tenant
      have hempty : tenant = [] := by
        by_contra hne
        rw [truthy_eq_some.mpr ⟨rfl, hne⟩] at hstored
        cases hstored
      rw [hempty]
      exact canonical_nil request
  | some found =>
      have hanswer : (Lookup.run request scope (.requireTenantId true)).1 =
          .ok (some (request.canonical tenant)) := by
        have hoverride : request.tenantOverride request.superAdmin = none := by
          rw [hadmin]
          rfl
        unfold Lookup.run requireTenantId
        simp only [if_true]
        rw [hoverride, Option.none_or, hselected, hstored, eq_of_truthy hstored]
      exact Option.some.inj (hrequire _ hanswer)

end Lookups

/-- For a caller who is not a super-admin, every sequence of lookups answers with the
tenant that was bound, or refuses, exactly where the selected-tenant cookie is absent,
empty, or that tenant's id, and `_canonical` leaves the id alone. -/
theorem lookups_agree_iff {request : Request} {context : Option Text} {bound : Scope}
    {tenant : Text} (hadmin : request.superAdmin = false)
    (h : resolveRequestTenant request (Scope.fresh context) = .ok bound)
    (htenant : bound.tenant = some tenant) :
    (∀ lookups, ∀ answer ∈ answers request bound lookups, Agrees tenant answer) ↔
      CookieAgrees request tenant ∧ request.canonical tenant = tenant := by
  have hscope := settled_of_resolve h htenant
  constructor
  · exact agrees_of_answers hadmin hscope
  · intro hagrees lookups
    exact settled_answers hadmin hagrees.1 hagrees.2 hscope lookups

/-! ## A cookie that disagrees with the token -/

/-- A member of `t1` asks, with a cookie for a tenant of the client's choice. -/
def memberRequest (cookie : Option Text) : Request where
  tenants := [⟨"t1".toList, "acme".toList⟩, ⟨"t2".toList, "umbra".toList⟩]
  users := []
  user := some
    { id := 1, username := "ann".toList, service := "http://h/realms/m8flow".toList,
      serviceId := "kc-1".toList, email := none, displayName := none, createdAt := none,
      updatedAt := none, groups := ["t1:editor".toList] }
  claims := some
    { subject := "kc-1".toList, issuer := "http://h/realms/m8flow".toList,
      username := some "ann".toList, email := none, roles := [],
      memberships := [⟨⟨some "t1".toList, some "acme".toList, none⟩, [], [], false⟩],
      activeTenantRef := some ⟨some "t1".toList, some "acme".toList, none⟩,
      issuerKey := none, trustDomain := none, membershipsComplete := false }
  tenantClaim := none
  cookie := cookie
  header := none
  tenantIdArg := none
  tenantIdSnakeArg := none
  path := "/v1.0/m8flow/task-review".toList
  wsgiPathPrefix := []

/-- With the cookie of the bound tenant the lookups agree. -/
theorem member_lookups_agree :
    resolveRequestTenant (memberRequest (some "t1".toList)) (Scope.fresh none) =
        .ok ⟨some "t1".toList, some "t1".toList, false⟩ ∧
      ∀ lookups, ∀ answer ∈ answers (memberRequest (some "t1".toList))
        ⟨some "t1".toList, some "t1".toList, false⟩ lookups, Agrees "t1".toList answer := by
  have hresolve : resolveRequestTenant (memberRequest (some "t1".toList)) (Scope.fresh none) =
      .ok ⟨some "t1".toList, some "t1".toList, false⟩ := by rfl
  exact ⟨hresolve, (lookups_agree_iff (by decide) hresolve rfl).mpr ⟨Or.inr rfl, by decide⟩⟩

/-- With the cookie of another tenant, the token's tenant is bound and the lookups answer
with the other one. -/
theorem cookie_chooses_tenant :
    (memberRequest (some "t2".toList)).superAdmin = false ∧
    resolveRequestTenant (memberRequest (some "t2".toList)) (Scope.fresh none) =
      .ok ⟨some "t1".toList, some "t1".toList, false⟩ ∧
    answers (memberRequest (some "t2".toList)) ⟨some "t1".toList, some "t1".toList, false⟩
        [.getTenantId, .requireTenantId true, .resolveReadTenantId,
          .requireCatalogWriteTenantId none, .listTaskReview] =
      [.ok (some "t1".toList), .ok (some "t2".toList), .ok (some "t2".toList),
        .ok (some "t2".toList), .ok (some "t2".toList)] := by
  refine ⟨by decide, by rfl, by rfl⟩

end M8flow.Auth
