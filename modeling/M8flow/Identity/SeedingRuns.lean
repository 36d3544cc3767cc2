import M8flow.Identity.SeedingLaws
import M8flow.Lib.Results

/-!
# Runs of the permission seed

`import_yaml` against the same grants without the cache, against itself a second time, and
against the rows of other groups.

- `settle` is what one step does to the tables, with the key of a target as a parameter: the
  cache strips commands and resource types (`Request.cacheKey`) and the uncached path does
  not (`Request.targetKey`).
- `performAll_uncached` and, while the cache mirrors the tables (`Mirrors`),
  `performAll_cached` say that a run comes to `settle` after `settle`.
- What a step has settled (`Settled`) stays settled, and a settled step changes nothing.
-/

namespace M8flow.Identity.Seeding

open M8flow.Auth M8flow.Authorization M8flow.Lib

section Settle

variable {ρ : Type} (core : Core ρ) (keyOf : Request → TargetKey)

/-- The grant of one request to a principal. -/
def settleGrant (principal : Principal) (rows : Rows ρ) (request : Request) : Rows ρ :=
  let found := core.findOrCreatePermissionTarget rows (keyOf request)
  found.1.putAssignment ⟨principal.id, found.2.id, request.permission⟩ permit

def settle (rows : Rows ρ) : Step → Rows ρ
  | .group identifier => (ensureGroup core rows identifier).1
  | .grants identifier requests =>
      let found := ensureGroup core rows identifier
      let attached := core.findOrCreatePrincipalForGroup found.1 found.2.id
      requests.foldl (settleGrant core keyOf attached.2) attached.1

end Settle

def Step.identifier : Step → Text
  | .group identifier => identifier
  | .grants identifier _ => identifier

section Facts

variable {ρ : Type}

/-- The group that is found for an identifier, and its principal. -/
structure Attached (rows : Rows ρ) (identifier : Text) (group : GroupModel)
    (principal : Principal) : Prop where
  found : rows.foundGroup identifier = some group
  attached : rows.principal group.id = some principal

/-- The principal has the permission. -/
def Granted (keyOf : Request → TargetKey) (rows : Rows ρ) (principal : Principal)
    (request : Request) : Prop :=
  ∃ target, rows.target (keyOf request) = some target ∧
    rows.assignment ⟨principal.id, target.id, request.permission⟩ =
      some ⟨⟨principal.id, target.id, request.permission⟩, permit⟩

def Settled (keyOf : Request → TargetKey) (rows : Rows ρ) : Step → Prop
  | .group identifier => ∃ group, rows.foundGroup identifier = some group
  | .grants identifier requests =>
      ∃ group principal, Attached rows identifier group principal ∧
        ∀ request ∈ requests, Granted keyOf rows principal request

variable {keyOf : Request → TargetKey} {rows after : Rows ρ} {identifier : Text}
  {group : GroupModel} {principal : Principal}

theorem Attached.grows (h : Attached rows identifier group principal) (hgrows : Grows rows after) :
    Attached after identifier group principal where
  found := hgrows.groups _ _ h.found
  attached := hgrows.principals _ _ h.attached

theorem Granted.grows (hfull : ∀ request, (keyOf request).Full) {request : Request}
    (h : Granted keyOf rows principal request) (hgrows : Grows rows after) :
    Granted keyOf after principal request := by
  obtain ⟨target, htarget, hassignment⟩ := h
  exact ⟨target, hgrows.targets _ _ (hfull request) htarget, hgrows.permits _ hassignment⟩

theorem Settled.grows (hfull : ∀ request, (keyOf request).Full) {step : Step}
    (h : Settled keyOf rows step) (hgrows : Grows rows after) : Settled keyOf after step := by
  cases step with
  | group identifier =>
      obtain ⟨group, hfound⟩ := h
      exact ⟨group, hgrows.groups _ _ hfound⟩
  | grants identifier requests =>
      obtain ⟨group, principal, hattached, hgranted⟩ := h
      exact ⟨group, principal, hattached.grows hgrows,
        fun request hrequest => (hgranted request hrequest).grows hfull hgrows⟩

end Facts

/-! ## One step -/

section Steps

variable {ρ : Type} {core : Core ρ} {keyOf : Request → TargetKey} {rows : Rows ρ}
  {identifier : Text} {group : GroupModel} {principal : Principal}
  (hlaw : core.Lawful) (hfull : ∀ request, (keyOf request).Full)

section Ensured

include hlaw

/-- After the group and its principal are ensured, they are attached. -/
theorem attached_ensured (rows : Rows ρ) (identifier : Text) :
    Attached
      (core.findOrCreatePrincipalForGroup (ensureGroup core rows identifier).1
        (ensureGroup core rows identifier).2.id).1
      identifier (ensureGroup core rows identifier).2
      (core.findOrCreatePrincipalForGroup (ensureGroup core rows identifier).1
        (ensureGroup core rows identifier).2.id).2 where
  found := (principal_grows hlaw _ _).groups _ _ (ensureGroup_found hlaw rows identifier)
  attached := principal_found hlaw _ _

theorem ensured_outside (h : Constraints rows) (identifier : Text) :
    SameOutside (NamedBy identifier) rows
      (core.findOrCreatePrincipalForGroup (ensureGroup core rows identifier).1
        (ensureGroup core rows identifier).2.id).1 := by
  obtain ⟨hmem, hnamed⟩ := foundGroup_mem (ensureGroup_found hlaw rows identifier)
  exact (ensureGroup_outside hlaw rows identifier).trans
    (principal_outside hlaw (ensureGroup_constraints hlaw h identifier) hmem hnamed)

theorem ensured_of_attached (h : Attached rows identifier group principal) :
    ensureGroup core rows identifier = (rows, group) ∧
      core.findOrCreatePrincipalForGroup rows group.id = (rows, principal) :=
  ⟨ensureGroup_of_found hlaw h.found, hlaw.principalFound rows group.id principal h.attached⟩

end Ensured

include hlaw hfull

theorem settleGrant_grows (rows : Rows ρ) (principal : Principal) (request : Request) :
    Grows rows (settleGrant core keyOf principal rows request) :=
  (target_grows hlaw rows (hfull request)).trans (putAssignment_grows _ _)

theorem settleGrant_constraints (h : Constraints rows) (principal : Principal)
    (request : Request) : Constraints (settleGrant core keyOf principal rows request) :=
  putAssignment_constraints (target_constraints hlaw h (hfull request)) _ _

theorem settleGrant_outside (h : Constraints rows)
    (hattached : Attached rows identifier group principal) (request : Request) :
    SameOutside (NamedBy identifier) rows (settleGrant core keyOf principal rows request) := by
  have hafter := hattached.grows (target_grows hlaw rows (hfull request))
  obtain ⟨hmem, hnamed⟩ := foundGroup_mem hafter.found
  exact (target_outside hlaw _ rows (hfull request)).trans
    (putAssignment_outside (target_constraints hlaw h (hfull request)) hmem hnamed
      hafter.attached rfl)

theorem settleGrant_granted (rows : Rows ρ) (principal : Principal) (request : Request) :
    Granted keyOf (settleGrant core keyOf principal rows request) principal request :=
  ⟨(core.findOrCreatePermissionTarget rows (keyOf request)).2,
    (putAssignment_grows _ _).targets _ _ (hfull request) (target_found hlaw rows (hfull request)),
    assignment_putAssignment _ _ _⟩

theorem settleGrant_of_granted (h : Constraints rows) {request : Request}
    (hgranted : Granted keyOf rows principal request) :
    settleGrant core keyOf principal rows request = rows := by
  obtain ⟨target, htarget, hassignment⟩ := hgranted
  unfold settleGrant
  rw [hlaw.targetFound rows _ target (hfull request) htarget]
  exact putAssignment_eq_self h.assignments hassignment

/-- What a list of grants to the principal of a group leaves. -/
theorem foldl_settleGrant (h : Constraints rows)
    (hattached : Attached rows identifier group principal) (requests : List Request) :
    Constraints (requests.foldl (settleGrant core keyOf principal) rows) ∧
      Grows rows (requests.foldl (settleGrant core keyOf principal) rows) ∧
      SameOutside (NamedBy identifier) rows
        (requests.foldl (settleGrant core keyOf principal) rows) ∧
      ∀ request ∈ requests,
        Granted keyOf (requests.foldl (settleGrant core keyOf principal) rows) principal
          request := by
  induction requests generalizing rows with
  | nil => exact ⟨h, Grows.refl rows, SameOutside.refl _ rows, by simp⟩
  | cons request requests ih =>
      have hgrows := settleGrant_grows hlaw hfull rows principal request
      have houtside := settleGrant_outside hlaw hfull h hattached request
      obtain ⟨hconstraints, hgrown, hsame, hgranted⟩ :=
        ih (settleGrant_constraints hlaw hfull h principal request) (hattached.grows hgrows)
      refine ⟨hconstraints, hgrows.trans hgrown, houtside.trans hsame, fun other hother => ?_⟩
      rw [List.mem_cons] at hother
      obtain hother | hother := hother
      · rw [hother]
        exact (settleGrant_granted hlaw hfull rows principal request).grows hfull hgrown
      · exact hgranted other hother

/-- What a step leaves. -/
theorem settle_spec (h : Constraints rows) (step : Step) :
    Constraints (settle core keyOf rows step) ∧ Grows rows (settle core keyOf rows step) ∧
      SameOutside (NamedBy step.identifier) rows (settle core keyOf rows step) ∧
      Settled keyOf (settle core keyOf rows step) step := by
  cases step with
  | group identifier =>
      exact ⟨ensureGroup_constraints hlaw h identifier, ensureGroup_grows hlaw rows identifier,
        ensureGroup_outside hlaw rows identifier, _, ensureGroup_found hlaw rows identifier⟩
  | grants identifier requests =>
      have hattached := attached_ensured hlaw rows identifier
      obtain ⟨hconstraints, hgrows, hsame, hgranted⟩ :=
        foldl_settleGrant hlaw hfull
          (principal_constraints hlaw (ensureGroup_constraints hlaw h identifier) _) hattached
          requests
      exact ⟨hconstraints,
        ((ensureGroup_grows hlaw rows identifier).trans (principal_grows hlaw _ _)).trans hgrows,
        (ensured_outside hlaw h identifier).trans hsame,
        _, _, hattached.grows hgrows, hgranted⟩

/-- A settled step changes nothing. -/
theorem settle_of_settled (h : Constraints rows) {step : Step}
    (hsettled : Settled keyOf rows step) : settle core keyOf rows step = rows := by
  cases step with
  | group identifier =>
      obtain ⟨group, hfound⟩ := hsettled
      exact congrArg Prod.fst (ensureGroup_of_found hlaw hfound)
  | grants identifier requests =>
      obtain ⟨group, principal, hattached, hgranted⟩ := hsettled
      obtain ⟨hensured, hprincipal⟩ := ensured_of_attached hlaw hattached
      unfold settle
      dsimp only
      rw [hensured, hprincipal]
      clear hensured hprincipal
      induction requests with
      | nil => rfl
      | cons request requests ih =>
          rw [List.foldl_cons,
            settleGrant_of_granted hlaw hfull h (hgranted request List.mem_cons_self)]
          exact ih fun other hother => hgranted other (List.mem_cons_of_mem _ hother)

/-- What a run of steps leaves. -/
theorem foldl_settle (h : Constraints rows) (named : GroupModel → Prop) (steps : List Step)
    (hnamed : ∀ step ∈ steps, ∀ group, NamedBy step.identifier group → named group) :
    Constraints (steps.foldl (settle core keyOf) rows) ∧
      Grows rows (steps.foldl (settle core keyOf) rows) ∧
      SameOutside named rows (steps.foldl (settle core keyOf) rows) ∧
      ∀ step ∈ steps, Settled keyOf (steps.foldl (settle core keyOf) rows) step := by
  induction steps generalizing rows with
  | nil => exact ⟨h, Grows.refl rows, SameOutside.refl _ rows, by simp⟩
  | cons step steps ih =>
      obtain ⟨hconstraints, hgrows, hsame, hsettled⟩ := settle_spec hlaw hfull h step
      obtain ⟨hkept, hgrown, hrest, hothers⟩ :=
        ih hconstraints fun other hother => hnamed other (List.mem_cons_of_mem _ hother)
      refine ⟨hkept, hgrows.trans hgrown,
        (hsame.mono (hnamed step List.mem_cons_self)).trans hrest, fun other hother => ?_⟩
      rw [List.mem_cons] at hother
      obtain hother | hother := hother
      · rw [hother]
        exact hsettled.grows hfull hgrown
      · exact hothers other hother

/-- A run of settled steps changes nothing. -/
theorem foldl_settle_of_settled (h : Constraints rows) {steps : List Step}
    (hsettled : ∀ step ∈ steps, Settled keyOf rows step) :
    steps.foldl (settle core keyOf) rows = rows := by
  induction steps with
  | nil => rfl
  | cons step steps ih =>
      rw [List.foldl_cons, settle_of_settled hlaw hfull h (hsettled step List.mem_cons_self)]
      exact ih fun other hother => hsettled other (List.mem_cons_of_mem _ hother)

end Steps

/-! ## The grants without the cache -/

theorem targetKey_full (request : Request) : request.targetKey.Full :=
  ⟨Option.some_ne_none _, Option.some_ne_none _, Option.some_ne_none _⟩

theorem cacheKey_full (request : Request) : request.cacheKey.Full :=
  ⟨Option.some_ne_none _, Option.some_ne_none _, Option.some_ne_none _⟩

section Uncached

variable {ρ : Type} {core : Core ρ} {rows : Rows ρ} {identifier : Text} {group : GroupModel}
  {principal : Principal} (hlaw : core.Lawful)

theorem key_of_target {key : TargetKey} {row : TargetRow} (h : rows.target key = some row) :
    row.key = key := by
  have hkey := List.find?_some h
  exact of_decide_eq_true hkey

include hlaw

theorem grant_eq (h : Constraints rows) (hattached : Attached rows identifier group principal)
    (request : Request) :
    grant core rows principal request =
      .ok (settleGrant core Request.targetKey principal rows request) := by
  have hfull := targetKey_full request
  have hfound := target_found hlaw rows hfull
  have hafter := hattached.grows (target_grows hlaw rows hfull)
  have hkey := key_of_target hfound
  unfold grant settleGrant
  dsimp only
  split
  · next hsome => rw [Rows.putAssignment, if_pos hsome]
  · exact grantForExistingPrincipal_eq hlaw (target_constraints hlaw h hfull)
      (foundGroup_mem hafter.found).1 hafter.attached (hkey.symm ▸ hfull) (hkey.symm ▸ hfound) _ _

theorem foldlM_grant (h : Constraints rows) (hattached : Attached rows identifier group principal)
    (requests : List Request) :
    requests.foldlM (fun rows request => grant core rows principal request) rows =
      .ok (requests.foldl (settleGrant core Request.targetKey principal) rows) := by
  induction requests generalizing rows with
  | nil => rfl
  | cons request requests ih =>
      rw [List.foldlM_cons, grant_eq hlaw h hattached]
      exact ih (settleGrant_constraints hlaw targetKey_full h principal request)
        (hattached.grows (settleGrant_grows hlaw targetKey_full rows principal request))

theorem performAll_uncached (h : Constraints rows) (steps : List Step) :
    performAll (uncached core) rows steps =
      .ok (steps.foldl (settle core Request.targetKey) rows) := by
  induction steps generalizing rows with
  | nil => rfl
  | cons step steps ih =>
      have hstep : step.perform (uncached core) rows =
          .ok (settle core Request.targetKey rows step) := by
        cases step with
        | group identifier => rfl
        | grants identifier requests =>
            exact foldlM_grant hlaw
              (principal_constraints hlaw (ensureGroup_constraints hlaw h identifier) _)
              (attached_ensured hlaw rows identifier) requests
      unfold performAll at ih ⊢
      rw [List.foldlM_cons, hstep]
      exact ih (settle_spec hlaw targetKey_full h step).1

end Uncached

/-! ## The cache -/

/-- The cache holds what is in the tables. -/
structure Mirrors {ρ : Type} (run : Run ρ) (rows : Rows ρ) : Prop where
  table : run.rows = rows
  constraints : Constraints rows
  targets : ∀ key, key.Full → run.targets.get? key = rows.target key
  assignments : ∀ key, key ∈ run.assignments ↔ (rows.assignment key).isSome
  groups : ∀ identifier group, run.groupsByIdentifier.get? identifier = some group →
    rows.foundGroup identifier = some group
  principals : ∀ id principal, run.principalsByGroupId.get? id = some principal →
    rows.principal id = some principal

section Cached

variable {ρ : Type} {core : Core ρ} {run : Run ρ} {rows : Rows ρ}

/-- There is one row with a full key, so the last that is loaded is the first that is found. -/
theorem mirrors_load (h : Constraints rows) : Mirrors (Run.load rows) rows where
  table := rfl
  constraints := h
  targets key hfull := by
    have hentries : ∀ row, (key, row) ∈ rows.targets.map (fun row => (row.key, row)) →
        row ∈ rows.targets ∧ row.key = key := by
      intro row hmem
      obtain ⟨other, hother, hsame⟩ := List.mem_map.mp hmem
      obtain ⟨hkey, hrow⟩ := Prod.mk.inj hsame
      exact ⟨hrow ▸ hother, hrow ▸ hkey⟩
    cases hloaded : (Run.load rows).targets.get? key with
    | none =>
        symm
        unfold Rows.target
        refine List.find?_eq_none.mpr fun row hrow hkey => ?_
        refine Dict.get?_eq_none.mp hloaded (Dict.mem_keys_ofEntries ?_)
        exact List.mem_map.mpr
          ⟨(row.key, row), List.mem_map.mpr ⟨row, hrow, rfl⟩, of_decide_eq_true hkey⟩
    | some row =>
        obtain ⟨hrow, hkey⟩ :=
          hentries row (Dict.mem_of_mem_entries_ofEntries (Dict.get?_eq_some.mp hloaded))
        cases hfound : rows.target key with
        | none =>
            exact absurd (decide_eq_true hkey) (List.find?_eq_none.mp hfound row hrow)
        | some found =>
            rw [h.targets row hrow found (List.mem_of_find?_eq_some hfound) (hkey ▸ hfull)
              (hkey.trans (key_of_target hfound).symm)]
  assignments key := isSome_assignment.symm
  groups _ _ h := by cases h
  principals _ _ h := by cases h

theorem isSome_putAssignment (rows : Rows ρ) (key other : AssignmentKey) (grantType : Text) :
    ((rows.putAssignment key grantType).assignment other).isSome ↔
      other = key ∨ (rows.assignment other).isSome := by
  by_cases hsame : other = key
  · rw [hsame, assignment_putAssignment]
    simp
  · rw [assignment_putAssignment_other hsame]
    simp [hsame]

/-- A run that has the rows of a grant and its key still mirrors the tables. -/
theorem Mirrors.put (h : Mirrors run rows) (key : AssignmentKey) {after : Run ρ}
    (htable : after.rows = rows.putAssignment key permit)
    (hassignments : ∀ other, other ∈ after.assignments ↔ other = key ∨ other ∈ run.assignments)
    (htargets : after.targets = run.targets)
    (hgroups : after.groupsByIdentifier = run.groupsByIdentifier)
    (hprincipals : after.principalsByGroupId = run.principalsByGroupId) :
    Mirrors after (rows.putAssignment key permit) where
  table := htable
  constraints := putAssignment_constraints h.constraints key permit
  targets other hfull := by
    rw [htargets, h.targets other hfull]
    unfold Rows.putAssignment
    split <;> rfl
  assignments other := by rw [hassignments, isSome_putAssignment, h.assignments]
  groups identifier group hget :=
    (putAssignment_grows rows key).groups _ _ (h.groups identifier group (hgroups ▸ hget))
  principals id principal hget :=
    (putAssignment_grows rows key).principals _ _ (h.principals id principal (hprincipals ▸ hget))

variable (hlaw : core.Lawful)

include hlaw

theorem mirrors_group (h : Mirrors run rows) (identifier : Text) :
    (cachedGroup core run identifier).2 = (ensureGroup core rows identifier).2 ∧
      Mirrors (cachedGroup core run identifier).1 (ensureGroup core rows identifier).1 := by
  unfold cachedGroup
  cases hcached : run.groupsByIdentifier.get? identifier with
  | some group =>
      rw [ensureGroup_of_found hlaw (h.groups identifier group hcached)]
      exact ⟨rfl, h⟩
  | none =>
      dsimp only
      rw [h.table]
      refine ⟨rfl, rfl, ensureGroup_constraints hlaw h.constraints identifier, ?_, ?_, ?_, ?_⟩
      · intro key hfull
        rw [h.targets key hfull]
        obtain ⟨group, -, hop⟩ | ⟨-, group, hop, -⟩ := ensureGroup_spec hlaw rows identifier
        · rw [hop]
        · rw [hop]; rfl
      · intro key
        rw [h.assignments key]
        obtain ⟨group, -, hop⟩ | ⟨-, group, hop, -⟩ := ensureGroup_spec hlaw rows identifier
        · rw [hop]
        · rw [hop]; rfl
      · intro other group hget
        rw [Dict.get?_set] at hget
        split at hget
        · next hsame =>
            rw [hsame, ← Option.some.inj hget]
            exact ensureGroup_found hlaw rows identifier
        · exact (ensureGroup_grows hlaw rows identifier).groups _ _ (h.groups other group hget)
      · intro id principal hget
        exact (ensureGroup_grows hlaw rows identifier).principals _ _
          (h.principals id principal hget)

theorem mirrors_principal (h : Mirrors run rows) (group : GroupModel) :
    (cachedPrincipal core run group).2 = (core.findOrCreatePrincipalForGroup rows group.id).2 ∧
      Mirrors (cachedPrincipal core run group).1
        (core.findOrCreatePrincipalForGroup rows group.id).1 := by
  unfold cachedPrincipal
  cases hcached : run.principalsByGroupId.get? group.id with
  | some principal =>
      rw [hlaw.principalFound rows group.id principal (h.principals group.id principal hcached)]
      exact ⟨rfl, h⟩
  | none =>
      dsimp only
      rw [h.table]
      refine ⟨rfl, rfl, principal_constraints hlaw h.constraints group.id, ?_, ?_, ?_, ?_⟩
      · intro key hfull
        rw [h.targets key hfull]
        obtain ⟨principal, -, hop⟩ | ⟨-, principal, hop, -⟩ := principal_spec hlaw rows group.id
        · rw [hop]
        · rw [hop]; rfl
      · intro key
        rw [h.assignments key]
        obtain ⟨principal, -, hop⟩ | ⟨-, principal, hop, -⟩ := principal_spec hlaw rows group.id
        · rw [hop]
        · rw [hop]; rfl
      · intro identifier other hget
        exact (principal_grows hlaw rows group.id).groups _ _ (h.groups identifier other hget)
      · intro id principal hget
        rw [Dict.get?_set] at hget
        split at hget
        · next hsame =>
            rw [hsame, ← Option.some.inj hget]
            exact principal_found hlaw rows group.id
        · exact (principal_grows hlaw rows group.id).principals _ _
            (h.principals id principal hget)

theorem mirrors_target (h : Mirrors run rows) (request : Request) :
    (cachedTarget core run request).2 =
        (core.findOrCreatePermissionTarget rows request.cacheKey).2 ∧
      Mirrors (cachedTarget core run request).1
        (core.findOrCreatePermissionTarget rows request.cacheKey).1 := by
  have hfull := cacheKey_full request
  unfold cachedTarget
  cases hcached : run.targets.get? request.cacheKey with
  | some target =>
      rw [hlaw.targetFound rows request.cacheKey target hfull
        ((h.targets request.cacheKey hfull).symm.trans hcached)]
      exact ⟨rfl, h⟩
  | none =>
      have hnone : rows.target request.cacheKey = none :=
        (h.targets request.cacheKey hfull).symm.trans hcached
      obtain ⟨row, hop, hkey, -⟩ := hlaw.targetCreated rows request.cacheKey hfull hnone
      dsimp only
      rw [h.table]
      refine ⟨rfl, rfl, target_constraints hlaw h.constraints hfull, ?_, ?_, ?_, ?_⟩
      · intro key hother
        rw [Dict.get?_set, h.targets key hother]
        split
        · next hsame => rw [hsame, target_found hlaw rows hfull]
        · next hdifferent =>
            rw [hop]
            unfold Rows.target
            simp [List.find?_append, hkey, Ne.symm hdifferent]
      · intro key
        rw [h.assignments key, hop]
        rfl
      · intro identifier group hget
        exact (target_grows hlaw rows hfull).groups _ _ (h.groups identifier group hget)
      · intro id principal hget
        exact (target_grows hlaw rows hfull).principals _ _ (h.principals id principal hget)

theorem mirrors_assignment (h : Mirrors run rows) {identifier : Text} {group : GroupModel}
    {principal : Principal} (hattached : Attached rows identifier group principal)
    {target : TargetRow} (hfull : target.key.Full) (htarget : rows.target target.key = some target)
    (permission : Text) :
    ∃ after, cachedAssignment core run principal target permission permit = .ok after ∧
      Mirrors after (rows.putAssignment ⟨principal.id, target.id, permission⟩ permit) := by
  have hmem := (foundGroup_mem hattached.found).1
  unfold cachedAssignment
  dsimp only
  generalize hkey : (⟨principal.id, target.id, permission⟩ : AssignmentKey) = key
  split
  · next hcached =>
      have hsome := (h.assignments key).mp hcached
      have hset : rows.putAssignment key permit = rows.setGrantType key permit :=
        if_pos hsome
      have hassignments : ∀ other,
          other ∈ run.assignments ↔ other = key ∨ other ∈ run.assignments :=
        fun other => ⟨.inr, fun hother => hother.elim (fun hsame => hsame ▸ hcached) id⟩
      split
      · next hpermit =>
          obtain ⟨row, hrow, hgrant⟩ := Option.map_eq_some_iff.mp hpermit
          have hfound : rows.assignment key = some ⟨key, permit⟩ := by
            rw [← h.table, hrow, ← hgrant, ← (assignment_eq_some hrow).2]
          refine ⟨run, rfl, h.put key ?_ hassignments rfl rfl rfl⟩
          rw [putAssignment_eq_self h.constraints.assignments hfound, h.table]
      · refine ⟨_, rfl, h.put key ?_ hassignments rfl rfl rfl⟩
        rw [hset, h.table]
  · rw [h.table, groupOf_eq h.constraints hmem hattached.attached]
    dsimp only
    rw [grantForExistingPrincipal_eq hlaw h.constraints hmem hattached.attached hfull htarget, hkey]
    exact ⟨_, rfl, h.put key rfl (fun other => List.mem_cons) rfl rfl rfl⟩

theorem mirrors_grant (h : Mirrors run rows) {identifier : Text} {group : GroupModel}
    {principal : Principal} (hattached : Attached rows identifier group principal)
    (request : Request) :
    ∃ after, cachedGrant core run principal request = .ok after ∧
      Mirrors after (settleGrant core Request.cacheKey principal rows request) := by
  have hfull := cacheKey_full request
  obtain ⟨hsame, hmirrors⟩ := mirrors_target hlaw h request
  have hfound := target_found hlaw rows hfull
  have hkey := key_of_target hfound
  unfold cachedGrant settleGrant
  dsimp only
  rw [hsame]
  exact mirrors_assignment hlaw hmirrors (hattached.grows (target_grows hlaw rows hfull))
    (hkey.symm ▸ hfull) (hkey.symm ▸ hfound) request.permission

theorem mirrors_grants (h : Mirrors run rows) {identifier : Text} {group : GroupModel}
    {principal : Principal} (hattached : Attached rows identifier group principal)
    (requests : List Request) :
    ∃ after,
      requests.foldlM (fun run request => cachedGrant core run principal request) run = .ok after ∧
      Mirrors after (requests.foldl (settleGrant core Request.cacheKey principal) rows) := by
  have hstep : ∀ request ∈ requests, ∀ run rows,
      Mirrors run rows ∧ Attached rows identifier group principal →
      ∃ after, cachedGrant core run principal request = .ok after ∧
        Mirrors after (settleGrant core Request.cacheKey principal rows request) ∧
        Attached (settleGrant core Request.cacheKey principal rows request) identifier group
          principal := by
    intro request _ run rows hboth
    obtain ⟨after, hafter, hmirrors⟩ := mirrors_grant hlaw hboth.1 hboth.2 request
    exact ⟨after, hafter, hmirrors,
      hboth.2.grows (settleGrant_grows hlaw cacheKey_full rows principal request)⟩
  obtain ⟨after, hafter, hmirrors, -⟩ := Results.foldlM_simulates
    (R := fun run rows => Mirrors run rows ∧ Attached rows identifier group principal) hstep
    ⟨h, hattached⟩
  exact ⟨after, hafter, hmirrors⟩

theorem mirrors_step (h : Mirrors run rows) (step : Step) :
    ∃ after, step.perform (cached core) run = .ok after ∧
      Mirrors after (settle core Request.cacheKey rows step) := by
  cases step with
  | group identifier => exact ⟨_, rfl, (mirrors_group hlaw h identifier).2⟩
  | grants identifier requests =>
      obtain ⟨hgroup, hensured⟩ := mirrors_group hlaw h identifier
      obtain ⟨hprincipal, hattached⟩ :=
        mirrors_principal hlaw hensured (ensureGroup core rows identifier).2
      unfold Step.perform settle cached
      dsimp only
      rw [hgroup, hprincipal]
      exact mirrors_grants hlaw hattached (attached_ensured hlaw rows identifier) requests

theorem performAll_cached (h : Constraints rows) (steps : List Step) :
    ∃ after, performAll (cached core) (Run.load rows) steps = .ok after ∧
      after.rows = steps.foldl (settle core Request.cacheKey) rows := by
  have hstep : ∀ step ∈ steps, ∀ run rows, Mirrors run rows →
      ∃ after, step.perform (cached core) run = .ok after ∧
        Mirrors after (settle core Request.cacheKey rows step) :=
    fun step _ run rows h => mirrors_step hlaw h step
  obtain ⟨after, hafter, hmirrors⟩ := Results.foldlM_simulates hstep (mirrors_load h)
  exact ⟨after, hafter, hmirrors.table⟩

end Cached

end M8flow.Identity.Seeding
