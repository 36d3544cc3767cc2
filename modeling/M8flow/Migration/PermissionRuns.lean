import M8flow.Migration.PermissionSteps

/-!
# Runs of the permission migrations

- `run_kept` says that no run of them fails, up or down, in any order, and what it keeps.
- `lifecycle_stays` and `review_stays` say that what a backfill completes stays complete,
  whatever is run after it.
- `restore_revoke` says what a downgrade restores, and that the upgrade after it takes exactly
  that away.
-/

namespace M8flow.Migration.Permissions

open M8flow.Auth M8flow.Authorization M8flow.Identity M8flow.Identity.Seeding M8flow.Lib

/-! ## Any run -/

section Runs

variable {ids : Ids} {tables : Tables}

/-- One migration, up or down. -/
theorem perform_spec (hids : ids.Fresh) (h : Intact tables) (hkeyed : Keyed tables) (move : Move) :
    ∃ after, move.perform ids tables = .ok after ∧ Intact after ∧ Kept tables after := by
  cases move with
  | up revision =>
      cases revision with
      | lifecycle =>
          obtain ⟨after, hafter, hintact, hgrown⟩ := backfillLifecycle_extends h
          exact ⟨after, hafter, hintact, hgrown.kept⟩
      | editorTaskCount =>
          exact ⟨_, rfl, intact_upgrade h _, kept_upgrade (by simp [revocations])⟩
      | review =>
          obtain ⟨after, hafter, hintact, hgrown, -⟩ := backfillReview_spec hids h hkeyed
          exact ⟨after, hafter, hintact, hgrown.kept⟩
      | submitterInstances =>
          exact ⟨_, rfl, intact_upgrade h _, kept_upgrade (by simp [revocations])⟩
      | editorViewerInstances =>
          exact ⟨_, rfl, intact_upgrade h _, kept_upgrade (by simp [revocations])⟩
  | down revision =>
      cases revision with
      | lifecycle => exact ⟨tables, rfl, h, Kept.refl tables⟩
      | editorTaskCount => exact ⟨tables, rfl, h, Kept.refl tables⟩
      | review => exact ⟨tables, rfl, h, Kept.refl tables⟩
      | submitterInstances =>
          obtain ⟨after, hafter, hintact, hgrown⟩ := restore_extends h _ _
          exact ⟨after, hafter, hintact, hgrown.kept⟩
      | editorViewerInstances =>
          obtain ⟨after, hafter, hintact, hgrown⟩ := restore_extends h _ _
          exact ⟨after, hafter, hintact, hgrown.kept⟩

theorem run_spec (hids : ids.Fresh) (h : Intact tables) (hkeyed : Keyed tables)
    (moves : List Move) :
    ∃ after, run ids moves tables = .ok after ∧ Intact after ∧ Kept tables after := by
  have hstep : ∀ move ∈ moves, ∀ (current : Tables) (_ : Unit),
      Intact current ∧ Kept tables current →
        ∃ after, Move.perform ids current move = .ok after ∧ Intact after ∧ Kept tables after := by
    intro move _ current _ hcurrent
    obtain ⟨after, hafter, hintact, hkept⟩ :=
      perform_spec hids hcurrent.1 (hcurrent.2.toExtended.keys hkeyed) move
    exact ⟨after, hafter, hintact, hcurrent.2.trans h hcurrent.1 hkept⟩
  exact Results.foldlM_simulates (g := fun _ _ => ()) (t := ()) hstep ⟨h, Kept.refl tables⟩

theorem run_append {moves later : List Move} {middle after : Tables}
    (h : run ids moves tables = .ok middle) (h' : run ids later middle = .ok after) :
    run ids (moves ++ later) tables = .ok after := by
  unfold run at *
  rw [List.foldlM_append, h]
  exact h'

theorem run_cons {move : Move} {later : List Move} {middle after : Tables}
    (h : move.perform ids tables = .ok middle) (h' : run ids later middle = .ok after) :
    run ids (move :: later) tables = .ok after := by
  unfold run at *
  rw [List.foldlM_cons, h]
  exact h'

end Runs

/-! ## Backfills -/

section Backfills

variable {ids : Ids} {before after : Tables}

/-- A legacy grant without its `execute` would be an old one, or one of those that migrations add,
and these have other commands. -/
theorem lifecycleSource_kept (hbefore : Intact before) (hafter : Intact after)
    (hkept : Kept before after) (h : lifecycleSource before = []) : lifecycleSource after = [] := by
  have hnone : ∀ spec ∈ reviewTargets, isLifecycle spec.2 = false := by decide
  have hexecute : executePermission ∉ [readPermission, allPermission] := by decide
  have hcreateRead : createPermission ≠ readPermission := by decide
  have hcreateExecute : createPermission ≠ executePermission := by decide
  refine List.eq_nil_iff_forall_not_mem.mpr fun row hrow => ?_
  obtain ⟨legacy, hlegacy, target, htarget, hid, hcreate, hcommand, hnew, -⟩ :=
    mem_lifecycleSource.mp hrow
  by_cases hold : legacy ∈ before.assignments
  · obtain ⟨old, hmem, holdId⟩ := List.mem_map.mp (hbefore.targetRefs legacy hold)
    have hsame : old = target :=
      List.inj_on_of_nodup_map hafter.targetIds (hkept.targets old hmem) htarget
        (holdId.trans hid.symm)
    have hthere : { legacy.key with permission := executePermission } ∈
        before.assignments.map AssignmentRow.key := by
      by_contra hmissing
      have hsource : (⟨{ legacy.key with permission := executePermission },
          legacy.grantType⟩ : AssignmentRow) ∈ lifecycleSource before :=
        mem_lifecycleSource.mpr ⟨legacy, hold, old, hmem, holdId, hcreate, hsame ▸ hcommand,
          hmissing, rfl⟩
      rw [h] at hsource
      cases hsource
    obtain ⟨execute, hmemExecute, hkey⟩ := List.mem_map.mp hthere
    refine hnew (List.mem_map.mpr ⟨execute, hkept.assignments execute hmemExecute ?_, hkey⟩)
    intro hrevocable
    have hpermission := hrevocable.permission
    rw [hkey] at hpermission
    exact hexecute hpermission
  · obtain ⟨added, hadded, haddedId, hcase⟩ := hkept.added legacy hlegacy hold
    have hsame : added = target :=
      List.inj_on_of_nodup_map hafter.targetIds hadded htarget (haddedId.trans hid.symm)
    rw [hsame, hcreate] at hcase
    obtain ⟨hother, -⟩ | ⟨-, hreview | ⟨hother, -⟩⟩ := hcase
    · exact hcreateExecute hother
    · rw [hnone _ hreview] at hcommand
      cases hcommand
    · exact hcreateRead hother

/-- The groups of the review roles keep the rows of the review targets. -/
theorem Assigned.kept (hbefore : Intact before) (hkept : Kept before after) {tenant role : Text}
    (hrole : role ∈ reviewRoles) {spec : Text × TargetKey} (hspec : spec ∈ reviewTargets)
    (h : Assigned before (tenantIdentifier tenant role) spec.1 spec.2) :
    Assigned after (tenantIdentifier tenant role) spec.1 spec.2 := by
  have hplain : ∀ role ∈ reviewRoles, ':' ∉ role := by decide
  have hroles : ∀ revocation ∈ revocations, ∀ role ∈ revocation.roles, ':' ∉ role := by decide
  have hspares : ∀ revocation ∈ revocations, ∀ role ∈ reviewRoles, role ∈ revocation.roles →
      ∀ spec ∈ reviewTargets, revocation.revokes spec.2 = false := by decide
  obtain ⟨group, hgroup, principal, hprincipal, target, htarget, hnamed, hattached, hkey, hrow⟩ := h
  obtain ⟨row, hmem, hsame⟩ := List.mem_map.mp hrow
  refine ⟨group, hkept.groups group hgroup, principal, hkept.principals principal hprincipal,
    target, hkept.targets target htarget, hnamed, hattached, hkey,
    List.mem_map.mpr ⟨row, hkept.assignments row hmem fun hrevocable => ?_, hsame⟩⟩
  obtain ⟨revocation, hrevocation, hmatches⟩ := hrevocable
  obtain ⟨hin, ⟨revoked, hrevoked, hrevokes, hid⟩, -⟩ := Revocation.matches_iff.mp hmatches
  rw [hsame] at hin hid
  have hrevokedTarget : revoked = target :=
    List.inj_on_of_nodup_map hbefore.targetIds hrevoked htarget hid
  rw [hrevokedTarget, hkey] at hrevokes
  obtain ⟨-, hglobal⟩ | ⟨other, -, second, hsecond, hidentifier⟩ :=
    role_of_principal hbefore hgroup hprincipal hattached hin
  · rw [hnamed] at hglobal
    exact hroles revocation hrevocation _ hglobal (List.mem_append_right _ List.mem_cons_self)
  · have hroleSame : role = second :=
      role_eq (hplain role hrole) (hroles revocation hrevocation second hsecond)
        (hnamed.symm.trans hidentifier)
    rw [hspares revocation hrevocation role hrole (hroleSame ▸ hsecond) spec hspec] at hrevokes
    cases hrevokes

end Backfills

/-! ## Downgrades -/

section Downgrades

variable {tables : Tables}

/-- The principals that a downgrade gives grants. -/
def Revision.restored (tables : Tables) : Revision → List Nat
  | .lifecycle => []
  | .editorTaskCount => []
  | .review => []
  | .submitterInstances => rolePrincipals tables ["submitter".toList] true
  | .editorViewerInstances => rolePrincipals tables ["editor".toList, "viewer".toList] false

/-- The ids of the targets that a downgrade restores the grants of. -/
def restoredIds (tables : Tables) : List Nat :=
  restoredTargets.flatMap fun key =>
    (tables.targets.filter fun target => target.key = key).map TargetRow.id

theorem mem_restoredIds {id : Nat} :
    id ∈ restoredIds tables ↔
      ∃ target ∈ tables.targets, target.id = id ∧ target.key ∈ restoredTargets := by
  unfold restoredIds
  simp only [List.mem_flatMap, List.mem_map, List.mem_filter, decide_eq_true_eq]
  constructor
  · intro h
    obtain ⟨key, hkey, target, ⟨htarget, hsame⟩, hid⟩ := h
    exact ⟨target, htarget, hid, hsame ▸ hkey⟩
  · intro h
    obtain ⟨target, htarget, hid, hkey⟩ := h
    exact ⟨target.key, hkey, target, ⟨htarget, rfl⟩, hid⟩

/-- What the loop of a downgrade has done for some of the targets. -/
structure Restoring (tables : Tables) (revocation : Revocation) (principals : List Nat)
    (current : Tables) (done : List Nat) : Prop where
  intact : Intact current
  added : ∃ rows, current = { tables with assignments := tables.assignments ++ rows } ∧
    ∀ row ∈ rows, revocation.matches tables row = true
  granted : ∀ targetId ∈ done, ∀ id ∈ principals,
    ⟨id, targetId, readPermission⟩ ∈ current.assignments.map AssignmentRow.key

theorem Restoring.rows {revocation : Revocation} {principals done : List Nat} {current : Tables}
    (h : Restoring tables revocation principals current done) :
    ∀ row ∈ tables.assignments, row ∈ current.assignments := by
  intro row hrow
  obtain ⟨rows, hrows, -⟩ := h.added
  rw [hrows]
  exact List.mem_append_left _ hrow

theorem mem_roles_of_any {roles : List Text} {legacyGlobal : Bool} {id : Nat}
    (h : id ∈ rolePrincipals tables roles legacyGlobal) :
    id ∈ rolePrincipals tables roles true := by
  obtain ⟨principal, hprincipal, hid, group, hgroup, hattached, hcase⟩ := mem_rolePrincipals.mp h
  exact mem_rolePrincipals.mpr ⟨principal, hprincipal, hid, group, hgroup, hattached,
    hcase.imp_left fun hglobal => ⟨rfl, hglobal.2⟩⟩

/-- A restored grant of a principal with the roles is one that the revocation deletes. -/
theorem matches_restored {revocation : Revocation}
    (hread : readPermission ∈ revocation.permissions)
    (hrevokes : ∀ key ∈ restoredTargets, revocation.revokes key = true) {legacyGlobal : Bool}
    {id : Nat} (hid : id ∈ rolePrincipals tables revocation.roles legacyGlobal) {targetId : Nat}
    (htarget : targetId ∈ restoredIds tables) :
    revocation.matches tables ⟨⟨id, targetId, readPermission⟩, permit⟩ = true := by
  obtain ⟨target, hmem, hsame, hkey⟩ := mem_restoredIds.mp htarget
  exact Revocation.matches_iff.mpr
    ⟨mem_roles_of_any hid, ⟨target, hmem, hrevokes _ hkey, hsame⟩, hread, rfl⟩

theorem restore_spec (h : Intact tables) (revocation : Revocation)
    (hread : readPermission ∈ revocation.permissions)
    (hrevokes : ∀ key ∈ restoredTargets, revocation.revokes key = true) (legacyGlobal : Bool) :
    ∃ restored, restore revocation.roles legacyGlobal tables = .ok restored ∧
      Restoring tables revocation (rolePrincipals tables revocation.roles legacyGlobal) restored
        (restoredIds tables) := by
  have hstep : ∀ targetId ∈ restoredIds tables, ∀ (current : Tables) (done : List Nat),
      Restoring tables revocation (rolePrincipals tables revocation.roles legacyGlobal) current
          done →
        ∃ after, insertAssignments current (restoredRows current
            (rolePrincipals tables revocation.roles legacyGlobal) targetId) = .ok after ∧
          Restoring tables revocation (rolePrincipals tables revocation.roles legacyGlobal) after
            (done ++ [targetId]) := by
    intro targetId htargetId current done hcurrent
    obtain ⟨rows, hrows, hmatches⟩ := hcurrent.added
    have hprincipals : ∀ id ∈ rolePrincipals tables revocation.roles legacyGlobal,
        id ∈ current.principals.map Principal.id := by
      intro id hid
      obtain ⟨principal, hprincipal, hsame, -⟩ := mem_rolePrincipals.mp hid
      rw [hrows]
      exact List.mem_map.mpr ⟨principal, hprincipal, hsame⟩
    have htarget : targetId ∈ current.targets.map TargetRow.id := by
      obtain ⟨target, hmem, hsame, -⟩ := mem_restoredIds.mp htargetId
      rw [hrows]
      exact List.mem_map.mpr ⟨target, hmem, hsame⟩
    have hinsert := insertable_restored
      (nodup_rolePrincipals h revocation.roles legacyGlobal) hprincipals htarget
    refine ⟨_, insertAssignments_eq hcurrent.intact hinsert, intact_insert hcurrent.intact hinsert,
      ?_, fun other hother id hid => ?_⟩
    · refine ⟨rows ++ restoredRows current
        (rolePrincipals tables revocation.roles legacyGlobal) targetId, ?_, fun row hrow => ?_⟩
      · rw [hrows]
        dsimp only
        rw [List.append_assoc]
      · obtain hold | hnew := List.mem_append.mp hrow
        · exact hmatches row hold
        · obtain ⟨hid, hsame, -⟩ := mem_restoredRows.mp hnew
          rw [hsame]
          exact matches_restored hread hrevokes hid htargetId
    · dsimp only
      rw [List.map_append, List.mem_append]
      rw [List.mem_append, List.mem_singleton] at hother
      obtain hold | hnew := hother
      · exact .inl (hcurrent.granted other hold id hid)
      · -- the principal has a row for the target, or gets one
        rw [hnew]
        by_cases hthere : (⟨id, targetId, readPermission⟩ : AssignmentKey) ∈
            current.assignments.map AssignmentRow.key
        · exact .inl hthere
        · exact .inr (List.mem_map.mpr ⟨⟨⟨id, targetId, readPermission⟩, permit⟩,
            mem_restoredRows.mpr ⟨hid, rfl, hthere⟩, rfl⟩)
  exact Results.foldlM_processed (s := tables) hstep
    ⟨h, ⟨[], by rw [List.append_nil], by simp⟩, by simp⟩

/-- Where every principal has its rows, the loop adds none. -/
theorem restore_again {revocation : Revocation} {legacyGlobal : Bool} {restored : Tables}
    (h : Restoring tables revocation (rolePrincipals tables revocation.roles legacyGlobal) restored
      (restoredIds tables)) : restore revocation.roles legacyGlobal restored = .ok restored := by
  obtain ⟨rows, hrows, -⟩ := h.added
  have hprincipals : rolePrincipals restored revocation.roles legacyGlobal =
      rolePrincipals tables revocation.roles legacyGlobal := by rw [hrows]; rfl
  have hids : restoredIds restored = restoredIds tables := by rw [hrows]; rfl
  have hstep : ∀ targetId ∈ restoredIds restored,
      insertAssignments restored (restoredRows restored
        (rolePrincipals restored revocation.roles legacyGlobal) targetId) = .ok restored := by
    intro targetId htargetId
    have hnone : restoredRows restored
        (rolePrincipals restored revocation.roles legacyGlobal) targetId = [] := by
      refine List.eq_nil_iff_forall_not_mem.mpr fun row hrow => ?_
      obtain ⟨hid, hsame, hnew⟩ := mem_restoredRows.mp hrow
      rw [hsame] at hnew
      exact hnew (h.granted targetId (hids ▸ htargetId) _ (hprincipals ▸ hid))
    rw [hnone, insertAssignments_eq h.intact
      ⟨by simp, by simp, by simp, by simp⟩, List.append_nil]
  have hloop : ∀ targetIds : List Nat, (∀ targetId ∈ targetIds, targetId ∈ restoredIds restored) →
      targetIds.foldlM (fun tables targetId => insertAssignments tables (restoredRows tables
        (rolePrincipals restored revocation.roles legacyGlobal) targetId)) restored =
          .ok restored := by
    intro targetIds hin
    induction targetIds with
    | nil => rfl
    | cons targetId targetIds ih =>
        rw [List.foldlM_cons, hstep targetId (hin targetId List.mem_cons_self)]
        exact ih fun other hother => hin other (List.mem_cons_of_mem _ hother)
  exact hloop _ fun _ htargetId => htargetId

/-- The revocation deletes all that was added. -/
theorem upgrade_restored {revocation : Revocation} {principals done : List Nat}
    {restored : Tables} (h : Restoring tables revocation principals restored done) :
    revocation.upgrade restored = revocation.upgrade tables := by
  obtain ⟨rows, hrows, hmatches⟩ := h.added
  have hgone : rows.filter (fun row => !(revocation.matches tables row)) = [] := by
    rw [List.filter_eq_nil_iff]
    intro row hrow
    rw [hmatches row hrow]
    decide
  rw [hrows]
  show { tables with
    assignments := (tables.assignments ++ rows).filter fun row =>
      !(revocation.matches tables row) } = revocation.upgrade tables
  rw [List.filter_append, hgone, List.append_nil]
  rfl

end Downgrades

/-! ## The results -/

/-- The id after the last one. -/
def demoIds : Ids where
  group tables := nextId (tables.groups.map GroupModel.id)
  principal tables := nextId (tables.principals.map Principal.id)
  target tables := nextId (tables.targets.map TargetRow.id)

theorem demoIds_fresh : demoIds.Fresh where
  group _ := nextId_not_mem _
  principal _ := nextId_not_mem _
  target _ := nextId_not_mem _

/-- A tenant whose editors may read all instances and suspend them by a legacy grant, and whose
submitters are denied a restored target. -/
def demoTables : Tables where
  groups := [⟨1, "editor".toList, "t:editor".toList,
      some (groupAuthorizationKey "t:editor".toList)⟩,
    ⟨2, "t:submitter".toList, "t:submitter".toList,
      some (groupAuthorizationKey "t:submitter".toList)⟩]
  principals := [⟨1, none, some 1⟩, ⟨2, none, some 2⟩]
  targets := [⟨1, routeKey "/process-instances".toList "process_instance.list".toList⟩,
    ⟨2, routeKey "/process-instances/%".toList "process.suspend".toList⟩]
  assignments := [⟨⟨1, 1, readPermission⟩, permit⟩, ⟨⟨1, 2, createPermission⟩, permit⟩,
    ⟨⟨2, 1, readPermission⟩, "deny".toList⟩]
  seeds := Dict.empty
  rest := ["t".toList]

theorem demoTables_intact : Intact demoTables where
  groupIds := by decide
  principalIds := by decide
  targets := by
    intro row hrow other hother _ hsame
    have hkeys : (demoTables.targets.map TargetRow.key).Nodup := by decide
    exact List.inj_on_of_nodup_map hkeys hrow hother hsame
  assignments := by decide
  targetIds := by decide
  authorizationKeys := by
    intro group hgroup other hother key hkey hkey'
    have hkeys : (demoTables.groups.map GroupModel.authorizationKey).Nodup := by decide
    exact List.inj_on_of_nodup_map hkeys hgroup hother (hkey.trans hkey'.symm)
  principalRefs := by decide
  targetRefs := by decide
  groupRefs := by
    intro principal hprincipal id hgroup
    have hall : ∀ principal ∈ demoTables.principals,
        principal.groupId.all fun id => id ∈ demoTables.groups.map GroupModel.id := by decide
    have hid := hall principal hprincipal
    rw [hgroup] at hid
    exact of_decide_eq_true hid

theorem demoTables_keyed : Keyed demoTables := by
  intro tenant _ role _ group hgroup hkey
  have hown : ∀ group ∈ demoTables.groups,
      group.authorizationKey = some (groupAuthorizationKey group.identifier) := by decide
  exact groupAuthorizationKey_injective (Option.some.inj ((hown group hgroup).symm.trans hkey))

/-- No run fails.  Only permits that a revocation names go, and only the grants of the backfills
and the downgrades come. -/
theorem run_kept {ids : Ids} (hids : ids.Fresh) {tables : Tables} (h : Intact tables)
    (hkeyed : Keyed tables) (moves : List Move) :
    ∃ after, run ids moves tables = .ok after ∧ Intact after ∧
      (∀ group ∈ tables.groups, group ∈ after.groups) ∧
      (∀ principal ∈ tables.principals, principal ∈ after.principals) ∧
      (∀ target ∈ tables.targets, target ∈ after.targets) ∧
      (∀ row ∈ tables.assignments, row ∈ after.assignments ∨ Revocable tables row) ∧
      ∀ row ∈ after.assignments, row ∈ tables.assignments ∨ Introduced after row := by
  obtain ⟨after, hafter, hintact, hkept⟩ := run_spec hids h hkeyed moves
  refine ⟨after, hafter, hintact, hkept.groups, hkept.principals, hkept.targets,
    fun row hrow => ?_, fun row hrow => ?_⟩
  · by_contra hlost
    rw [not_or] at hlost
    exact hlost.1 (hkept.assignments row hrow hlost.2)
  · by_contra hnew
    rw [not_or] at hnew
    exact hnew.2 (hkept.added row hrow hnew.1)

theorem run_kept_demo :
    ∃ after, run demoIds [.up .lifecycle, .up .editorViewerInstances, .up .review,
        .down .editorViewerInstances] demoTables = .ok after ∧ Intact after ∧
      (∀ group ∈ demoTables.groups, group ∈ after.groups) ∧
      (∀ principal ∈ demoTables.principals, principal ∈ after.principals) ∧
      (∀ target ∈ demoTables.targets, target ∈ after.targets) ∧
      (∀ row ∈ demoTables.assignments, row ∈ after.assignments ∨ Revocable demoTables row) ∧
      ∀ row ∈ after.assignments, row ∈ demoTables.assignments ∨ Introduced after row :=
  run_kept demoIds_fresh demoTables_intact demoTables_keyed _

/-- Once the lifecycle backfill has run, every legacy grant has its `execute`, whatever was run
before it and is run after it. -/
theorem lifecycle_stays {ids : Ids} (hids : ids.Fresh) {tables : Tables} (h : Intact tables)
    (hkeyed : Keyed tables) (moves later : List Move) :
    ∃ after, run ids (moves ++ .up .lifecycle :: later) tables = .ok after ∧
      lifecycleSource after = [] := by
  obtain ⟨middle, hmiddle, hintact, hfirst⟩ := run_spec hids h hkeyed moves
  have hfilled := backfillLifecycle_eq hintact
  have hintact' := intact_insert hintact (insertable_lifecycle hintact)
  obtain ⟨after, hafter, hintactAfter, hkept⟩ :=
    run_spec hids hintact' (hfirst.toExtended.keys hkeyed) later
  exact ⟨after, run_append hmiddle (run_cons hfilled hafter),
    lifecycleSource_kept hintact' hintactAfter hkept (lifecycleSource_inserted middle)⟩

theorem lifecycle_stays_demo :
    ∃ after, run demoIds ([.up .review] ++ .up .lifecycle :: [.up .editorViewerInstances])
        demoTables = .ok after ∧ lifecycleSource after = [] :=
  lifecycle_stays demoIds_fresh demoTables_intact demoTables_keyed _ _

/-- Once the review backfill has run, the three roles of each tenant that was stale have a row for
each of its targets, whatever is run after it. -/
theorem review_stays {ids : Ids} (hids : ids.Fresh) {tables : Tables} (h : Intact tables)
    (hkeyed : Keyed tables) (moves later : List Move) :
    ∃ middle after, run ids moves tables = .ok middle ∧
      run ids (moves ++ .up .review :: later) tables = .ok after ∧
      ∀ tenant ∈ staleTenants middle, ∀ role ∈ reviewRoles, ∀ spec ∈ reviewTargets,
        Assigned after (tenantIdentifier tenant role) spec.1 spec.2 := by
  obtain ⟨middle, hmiddle, hintact, hfirst⟩ := run_spec hids h hkeyed moves
  have hkeyed' := hfirst.toExtended.keys hkeyed
  obtain ⟨filled, hfilled, hintact', hgrown, hassigned⟩ :=
    backfillReview_spec hids hintact hkeyed'
  obtain ⟨after, hafter, -, hkept⟩ := run_spec hids hintact' (hgrown.toExtended.keys hkeyed') later
  exact ⟨middle, after, hmiddle, run_append hmiddle (run_cons hfilled hafter),
    fun tenant htenant role hrole spec hspec =>
      (hassigned tenant htenant role hrole spec hspec).kept hintact' hkept hrole hspec⟩

theorem review_stays_demo :
    ∃ middle after, run demoIds [.up .lifecycle] demoTables = .ok middle ∧
      run demoIds ([.up .lifecycle] ++ .up .review :: [.up .submitterInstances]) demoTables =
        .ok after ∧
      ∀ tenant ∈ staleTenants middle, ∀ role ∈ reviewRoles, ∀ spec ∈ reviewTargets,
        Assigned after (tenantIdentifier tenant role) spec.1 spec.2 :=
  review_stays demoIds_fresh demoTables_intact demoTables_keyed _ _

/-- A downgrade gives its principals a row for each restored target and is idempotent, and the
upgrade after it leaves what the upgrade leaves without it. -/
theorem restore_revoke (ids : Ids) {tables : Tables} (h : Intact tables) (revision : Revision) :
    ∃ restored, revision.downgrade tables = .ok restored ∧
      (∀ row ∈ tables.assignments, row ∈ restored.assignments) ∧
      (∀ id ∈ revision.restored tables, ∀ target ∈ tables.targets, target.key ∈ restoredTargets →
        ⟨id, target.id, readPermission⟩ ∈ restored.assignments.map AssignmentRow.key) ∧
      revision.downgrade restored = .ok restored ∧
      revision.upgrade ids restored = revision.upgrade ids tables := by
  have hkeys : ∀ key ∈ restoredTargets, isTenantWide key = true := by decide
  cases revision with
  | lifecycle => exact ⟨tables, rfl, fun _ hrow => hrow, by simp [Revision.restored], rfl, rfl⟩
  | editorTaskCount =>
      exact ⟨tables, rfl, fun _ hrow => hrow, by simp [Revision.restored], rfl, rfl⟩
  | review => exact ⟨tables, rfl, fun _ hrow => hrow, by simp [Revision.restored], rfl, rfl⟩
  | submitterInstances =>
      obtain ⟨restored, hrestored, hspec⟩ :=
        restore_spec h revokeSubmitterInstances (by decide) hkeys true
      refine ⟨restored, hrestored, hspec.rows, fun id hid target htarget hkey => ?_,
        restore_again hspec,
        congrArg Except.ok (upgrade_restored hspec)⟩
      exact hspec.granted target.id (mem_restoredIds.mpr ⟨target, htarget, rfl, hkey⟩) id hid
  | editorViewerInstances =>
      obtain ⟨restored, hrestored, hspec⟩ :=
        restore_spec h revokeEditorViewerInstances (by decide) hkeys false
      refine ⟨restored, hrestored, hspec.rows, fun id hid target htarget hkey => ?_,
        restore_again hspec,
        congrArg Except.ok (upgrade_restored hspec)⟩
      exact hspec.granted target.id (mem_restoredIds.mpr ⟨target, htarget, rfl, hkey⟩) id hid

theorem restore_revoke_demo :
    ∃ restored, Revision.editorViewerInstances.downgrade demoTables = .ok restored ∧
      (∀ row ∈ demoTables.assignments, row ∈ restored.assignments) ∧
      (∀ id ∈ Revision.editorViewerInstances.restored demoTables, ∀ target ∈ demoTables.targets,
        target.key ∈ restoredTargets →
          ⟨id, target.id, readPermission⟩ ∈ restored.assignments.map AssignmentRow.key) ∧
      Revision.editorViewerInstances.downgrade restored = .ok restored ∧
      Revision.editorViewerInstances.upgrade demoIds restored =
        Revision.editorViewerInstances.upgrade demoIds demoTables :=
  restore_revoke demoIds demoTables_intact .editorViewerInstances

end M8flow.Migration.Permissions
