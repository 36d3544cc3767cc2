import M8flow.Identity.SeedingChecks
import M8flow.Lib.Results
import M8flow.Migration.Permissions

/-!
# Steps of the permission migrations

What each of the migrations of `Migration.Permissions` does to tables within their constraints.

- `Intact` are the constraints of the tables, with their foreign keys; each migration keeps them.
- `Keyed` is what the backfill of Task Review needs beside them: no other group has the key of one
  of its groups.
- `Grown` says that no row is lost, `Kept` that an assignment is lost only when it is `Revocable`;
  both say that an assignment is new only when it is `Introduced`.
- The backfills and the restoring downgrades return and only add rows: `backfillLifecycle_eq`,
  `backfillReview_spec`, `restore_extends`.  The revocations delete what they name:
  `kept_upgrade`.
-/

namespace M8flow.Migration.Permissions

open M8flow.Auth M8flow.Authorization M8flow.Identity M8flow.Identity.Seeding M8flow.Lib

/-! ## Rows that are read one at a time -/

section Rows

variable {α β : Type}

/-- Where the items with a property are all one, a search finds one at most. -/
theorem length_filter_le_one {items : List α} (hnodup : items.Nodup) {p : α → Bool}
    (hone : ∀ item ∈ items, ∀ other ∈ items, p item = true → p other = true → item = other) :
    (items.filter p).length ≤ 1 := by
  have hdistinct := hnodup.filter p
  have hsame : ∀ item ∈ items.filter p, ∀ other ∈ items.filter p, item = other := by
    intro item hitem other hother
    rw [List.mem_filter] at hitem hother
    exact hone item hitem.1 other hother.1 hitem.2 hother.2
  cases hfound : items.filter p with
  | nil => simp
  | cons item rest =>
      rw [hfound] at hdistinct hsame
      cases rest with
      | nil => simp
      | cons other rest =>
          have heq := hsame item List.mem_cons_self other (by simp)
          simp [heq] at hdistinct

theorem length_filter_key_le_one [DecidableEq β] {key : α → β} {items : List α}
    (h : (items.map key).Nodup) (value : β) :
    (items.filter fun item => key item = value).length ≤ 1 := by
  refine length_filter_le_one h.of_map fun item hitem other hother hkey hkey' => ?_
  exact List.inj_on_of_nodup_map h hitem hother
    ((of_decide_eq_true hkey).trans (of_decide_eq_true hkey').symm)

theorem nodup_of_length_le_one {items : List α} (h : items.length ≤ 1) : items.Nodup := by
  cases items with
  | nil => simp
  | cons item rest =>
      have hrest : rest = [] := List.eq_nil_of_length_eq_zero (by rw [List.length_cons] at h; omega)
      simp [hrest]

theorem oneOrNone_of_length {items : List α} (h : items.length ≤ 1) :
    oneOrNone items = .ok items.head? := by
  cases items with
  | nil => rfl
  | cons item rest =>
      have hrest : rest = [] := List.eq_nil_of_length_eq_zero (by rw [List.length_cons] at h; omega)
      rw [hrest]
      rfl

end Rows

/-- The role of an identifier is what stands behind its last colon. -/
theorem role_eq {tenant other role second : Text} (hrole : ':' ∉ role) (hsecond : ':' ∉ second)
    (h : tenantIdentifier tenant role = tenantIdentifier other second) : role = second := by
  have hlast : ∀ tenant role : Text, ':' ∉ role →
      ((tenantIdentifier tenant role).reverse.takeWhile fun c => c ≠ ':').reverse = role := by
    intro tenant role hrole
    have hfree : ∀ c ∈ role.reverse, decide (c ≠ ':') = true := by
      intro c hc
      exact decide_eq_true fun hsame => hrole (List.mem_reverse.mp (hsame ▸ hc))
    rw [tenantIdentifier, List.reverse_append, List.reverse_cons, List.append_assoc,
      List.takeWhile_append_of_pos hfree]
    simp
  rw [← hlast tenant role hrole, h, hlast other second hsecond]

/-! ## Constraints -/

/-- The constraints of the tables, foreign keys included. -/
structure Intact (tables : Tables) : Prop extends Constraints tables where
  targetIds : (tables.targets.map TargetRow.id).Nodup
  authorizationKeys : ∀ group ∈ tables.groups, ∀ other ∈ tables.groups, ∀ key,
    group.authorizationKey = some key → other.authorizationKey = some key → group = other
  principalRefs : ∀ row ∈ tables.assignments,
    row.key.principalId ∈ tables.principals.map Principal.id
  targetRefs : ∀ row ∈ tables.assignments, row.key.targetId ∈ tables.targets.map TargetRow.id
  groupRefs : ∀ principal ∈ tables.principals, ∀ id, principal.groupId = some id →
    id ∈ tables.groups.map GroupModel.id

/-- The authorization keys of the groups that the backfill of Task Review grants to are on rows with
their identifiers. -/
def Keyed (tables : Tables) : Prop :=
  ∀ tenant ∈ tenants tables, ∀ role ∈ reviewRoles,
    KeyedFor tables.groups (tenantIdentifier tenant role)

def revocations : List Revocation :=
  [revokeEditorTaskCount, revokeSubmitterInstances, revokeEditorViewerInstances]

/-- A permit that a migration deletes. -/
def Revocable (tables : Tables) (row : AssignmentRow) : Prop :=
  ∃ revocation ∈ revocations, revocation.matches tables row = true

/-- A row that a migration may add: the `execute` beside a `create`, a grant of Task Review or Home,
or a grant that a downgrade restores. -/
def Introduced (tables : Tables) (row : AssignmentRow) : Prop :=
  ∃ target ∈ tables.targets, target.id = row.key.targetId ∧
    ((row.key.permission = executePermission ∧ isLifecycle target.key = true ∧
        (⟨{ row.key with permission := createPermission }, row.grantType⟩ : AssignmentRow) ∈
          tables.assignments) ∨
      (row.grantType = permit ∧ ((row.key.permission, target.key) ∈ reviewTargets ∨
        (row.key.permission = readPermission ∧ target.key ∈ restoredTargets))))

/-- The tenants are the same, no group, principal or target is lost, and the keys that were on rows
with their identifiers still are. -/
structure Extended (before after : Tables) : Prop where
  tenants : tenants after = tenants before
  groups : ∀ group ∈ before.groups, group ∈ after.groups
  principals : ∀ principal ∈ before.principals, principal ∈ after.principals
  targets : ∀ target ∈ before.targets, target ∈ after.targets
  keyed : ∀ identifier, KeyedFor before.groups identifier → KeyedFor after.groups identifier

structure Kept (before after : Tables) : Prop extends Extended before after where
  assignments : ∀ row ∈ before.assignments, ¬ Revocable before row → row ∈ after.assignments
  added : ∀ row ∈ after.assignments, row ∉ before.assignments → Introduced after row

/-- No row is lost. -/
structure Grown (before after : Tables) : Prop extends Extended before after where
  assignments : ∀ row ∈ before.assignments, row ∈ after.assignments
  added : ∀ row ∈ after.assignments, row ∉ before.assignments → Introduced after row

/-- The ids of new rows are new. -/
structure Ids.Fresh (ids : Ids) : Prop where
  group : ∀ tables : Tables, ids.group tables ∉ tables.groups.map GroupModel.id
  principal : ∀ tables : Tables, ids.principal tables ∉ tables.principals.map Principal.id
  target : ∀ tables : Tables, ids.target tables ∉ tables.targets.map TargetRow.id

section Kept

variable {before after : Tables}

theorem Kept.refl (tables : Tables) : Kept tables tables where
  tenants := rfl
  groups _ h := h
  principals _ h := h
  targets _ h := h
  keyed _ h := h
  assignments _ h _ := h
  added _ h hnot := absurd h hnot

/-- What was introduced stays so where the targets and the rows of `create` stay. -/
theorem Introduced.mono {row : AssignmentRow} (h : Introduced before row)
    (htargets : ∀ target ∈ before.targets, target ∈ after.targets)
    (hrows : ∀ other ∈ before.assignments, other.key.permission = createPermission →
      other ∈ after.assignments) : Introduced after row := by
  obtain ⟨target, htarget, hid, hcase⟩ := h
  refine ⟨target, htargets target htarget, hid, hcase.imp_left fun hlifecycle => ?_⟩
  exact ⟨hlifecycle.1, hlifecycle.2.1, hrows _ hlifecycle.2.2 rfl⟩

theorem Grown.kept (h : Grown before after) : Kept before after where
  tenants := h.tenants
  groups := h.groups
  principals := h.principals
  targets := h.targets
  keyed := h.keyed
  assignments row hrow _ := h.assignments row hrow
  added := h.added

theorem Grown.refl (tables : Tables) : Grown tables tables where
  tenants := rfl
  groups _ h := h
  principals _ h := h
  targets _ h := h
  keyed _ h := h
  assignments _ h := h
  added _ h hnot := absurd h hnot

theorem Grown.trans {last : Tables} (h : Grown before after) (h' : Grown after last) :
    Grown before last where
  tenants := h'.tenants.trans h.tenants
  groups group hgroup := h'.groups group (h.groups group hgroup)
  principals principal hprincipal := h'.principals principal (h.principals principal hprincipal)
  targets target htarget := h'.targets target (h.targets target htarget)
  keyed identifier hkeyed := h'.keyed identifier (h.keyed identifier hkeyed)
  assignments row hrow := h'.assignments row (h.assignments row hrow)
  added row hrow hnot := by
    by_cases hmiddle : row ∈ after.assignments
    · exact (h.added row hmiddle hnot).mono h'.targets fun other hother _ =>
        h'.assignments other hother
    · exact h'.added row hrow hmiddle

theorem mem_rolePrincipals {tables : Tables} {roles : List Text} {legacyGlobal : Bool}
    {id : Nat} :
    id ∈ rolePrincipals tables roles legacyGlobal ↔
      ∃ principal ∈ tables.principals, principal.id = id ∧ ∃ group ∈ tables.groups,
        principal.groupId = some group.id ∧
          ((legacyGlobal = true ∧ group.identifier ∈ roles) ∨
            group.identifier ∈
              (tenants tables).flatMap fun tenant => roles.map (tenantIdentifier tenant)) := by
  unfold rolePrincipals
  simp only [List.mem_flatMap, List.mem_filterMap, List.mem_filter, decide_eq_true_eq,
    Option.ite_none_right_eq_some, Option.some.injEq]
  constructor
  · intro h
    obtain ⟨principal, hprincipal, group, hgroup, hrole, hid⟩ := h
    exact ⟨principal, hprincipal, hid, group, hgroup.1, hgroup.2, hrole⟩
  · intro h
    obtain ⟨principal, hprincipal, hid, group, hgroup, hattached, hrole⟩ := h
    exact ⟨principal, hprincipal, group, ⟨hgroup, hattached⟩, hrole, hid⟩

/-- A principal has the roles that the identifier of its group gives it. -/
theorem role_of_principal {tables : Tables} (h : Intact tables) {group : GroupModel}
    (hgroup : group ∈ tables.groups) {principal : Principal}
    (hprincipal : principal ∈ tables.principals) (hattached : principal.groupId = some group.id)
    {roles : List Text} {legacyGlobal : Bool}
    (hrole : principal.id ∈ rolePrincipals tables roles legacyGlobal) :
    (legacyGlobal = true ∧ group.identifier ∈ roles) ∨ ∃ tenant ∈ tenants tables, ∃ role ∈ roles,
      group.identifier = tenantIdentifier tenant role := by
  obtain ⟨other, hother, hid, second, hsecond, hattached', hcase⟩ := mem_rolePrincipals.mp hrole
  have hsame : other = principal := List.inj_on_of_nodup_map h.principalIds hother hprincipal hid
  rw [hsame, hattached] at hattached'
  have hgroups : group = second :=
    List.inj_on_of_nodup_map h.groupIds hgroup hsecond (Option.some.inj hattached')
  rw [hgroups]
  refine hcase.imp_right fun hqualified => ?_
  obtain ⟨tenant, htenant, hnamed⟩ := List.mem_flatMap.mp hqualified
  obtain ⟨role, hmem, hidentifier⟩ := List.mem_map.mp hnamed
  exact ⟨tenant, htenant, role, hmem, hidentifier.symm⟩

/-- Whether a principal has one of the roles stays as it was. -/
theorem mem_rolePrincipals_of_after (hbefore : Intact before) (hafter : Intact after)
    (hkept : Extended before after) {roles : List Text} {legacyGlobal : Bool} {id : Nat}
    (hid : id ∈ before.principals.map Principal.id)
    (h : id ∈ rolePrincipals after roles legacyGlobal) :
    id ∈ rolePrincipals before roles legacyGlobal := by
  obtain ⟨principal, hprincipal, hsame, group, hgroup, hattached, hrole⟩ :=
    mem_rolePrincipals.mp h
  obtain ⟨old, hold, holdId⟩ := List.mem_map.mp hid
  have hold' : old = principal :=
    List.inj_on_of_nodup_map hafter.principalIds (hkept.principals old hold) hprincipal
      (holdId.trans hsame.symm)
  obtain ⟨oldGroup, hgroupOld, hgroupId⟩ :=
    List.mem_map.mp (hbefore.groupRefs old hold group.id (hold' ▸ hattached))
  have hgroup' : oldGroup = group :=
    List.inj_on_of_nodup_map hafter.groupIds (hkept.groups oldGroup hgroupOld) hgroup hgroupId
  exact mem_rolePrincipals.mpr ⟨old, hold, holdId, oldGroup, hgroupOld,
    by rw [hold', hattached, hgroup'], by rw [hgroup', ← hkept.tenants]; exact hrole⟩

theorem Revocation.matches_iff {revocation : Revocation} {tables : Tables} {row : AssignmentRow} :
    revocation.matches tables row = true ↔
      row.key.principalId ∈ rolePrincipals tables revocation.roles true ∧
        (∃ target ∈ tables.targets, revocation.revokes target.key = true ∧
          target.id = row.key.targetId) ∧
        row.key.permission ∈ revocation.permissions ∧ row.grantType = permit := by
  unfold Revocation.matches
  simp [and_assoc]

theorem Revocable.permission {tables : Tables} {row : AssignmentRow} (h : Revocable tables row) :
    row.key.permission ∈ [readPermission, allPermission] := by
  have hall : ∀ revocation ∈ revocations, ∀ permission ∈ revocation.permissions,
      permission ∈ [readPermission, allPermission] := by decide
  obtain ⟨revocation, hrevocation, hmatches⟩ := h
  exact hall revocation hrevocation _ (Revocation.matches_iff.mp hmatches).2.2.1

theorem not_revoked_create : createPermission ∉ [readPermission, allPermission] := by decide

theorem Extended.keys (h : Extended before after) (hkeyed : Keyed before) : Keyed after := by
  intro tenant htenant role hrole
  rw [h.tenants] at htenant
  exact h.keyed _ (hkeyed tenant htenant role hrole)

theorem Kept.trans {last : Tables} (hbefore : Intact before) (hafter : Intact after)
    (h : Kept before after) (h' : Kept after last) : Kept before last where
  tenants := h'.tenants.trans h.tenants
  groups group hgroup := h'.groups group (h.groups group hgroup)
  principals principal hprincipal := h'.principals principal (h.principals principal hprincipal)
  targets target htarget := h'.targets target (h.targets target htarget)
  keyed identifier hkeyed := h'.keyed identifier (h.keyed identifier hkeyed)
  assignments row hrow hnot := by
    refine h'.assignments row (h.assignments row hrow hnot) fun hrevocable => hnot ?_
    obtain ⟨revocation, hrevocation, hmatches⟩ := hrevocable
    obtain ⟨hprincipal, ⟨target, htarget, hrevoked, hid⟩, hrest⟩ :=
      Revocation.matches_iff.mp hmatches
    obtain ⟨old, hold, holdId⟩ := List.mem_map.mp (hbefore.targetRefs row hrow)
    have hsame : old = target :=
      List.inj_on_of_nodup_map hafter.targetIds (h.targets old hold) htarget
        (holdId.trans hid.symm)
    refine ⟨revocation, hrevocation, Revocation.matches_iff.mpr ⟨?_, ?_, hrest⟩⟩
    · exact mem_rolePrincipals_of_after hbefore hafter h.toExtended
        (hbefore.principalRefs row hrow) hprincipal
    · exact ⟨old, hold, hsame ▸ hrevoked, holdId⟩
  added row hrow hnot := by
    by_cases hmiddle : row ∈ after.assignments
    · refine (h.added row hmiddle hnot).mono h'.targets fun other hother hcreate => ?_
      exact h'.assignments other hother fun hrevocable =>
        not_revoked_create (hcreate ▸ hrevocable.permission)
    · exact h'.added row hrow hmiddle

end Kept

/-! ## Inserts -/

section Insert

variable {tables : Tables}

/-- Assignments with new keys, of principals and targets that are there. -/
structure Insertable (tables : Tables) (rows : List AssignmentRow) : Prop where
  keys : (rows.map AssignmentRow.key).Nodup
  new : ∀ row ∈ rows, row.key ∉ tables.assignments.map AssignmentRow.key
  principals : ∀ row ∈ rows, row.key.principalId ∈ tables.principals.map Principal.id
  targets : ∀ row ∈ rows, row.key.targetId ∈ tables.targets.map TargetRow.id

theorem insertAssignments_eq (h : Intact tables) {rows : List AssignmentRow}
    (hrows : Insertable tables rows) :
    insertAssignments tables rows =
      .ok { tables with assignments := tables.assignments ++ rows } := by
  have hnodup : ((tables.assignments ++ rows).map AssignmentRow.key).Nodup := by
    rw [List.map_append, List.nodup_append]
    refine ⟨h.assignments, hrows.keys, fun key hkey other hother hsame => ?_⟩
    obtain ⟨row, hrow, hrowKey⟩ := List.mem_map.mp hother
    exact hrows.new row hrow (by rw [hrowKey, ← hsame]; exact hkey)
  exact if_pos hnodup

theorem intact_insert (h : Intact tables) {rows : List AssignmentRow}
    (hrows : Insertable tables rows) :
    Intact { tables with assignments := tables.assignments ++ rows } where
  groupIds := h.groupIds
  principalIds := h.principalIds
  targets := h.targets
  assignments := by
    rw [List.map_append, List.nodup_append]
    refine ⟨h.assignments, hrows.keys, fun key hkey other hother hsame => ?_⟩
    obtain ⟨row, hrow, hrowKey⟩ := List.mem_map.mp hother
    exact hrows.new row hrow (by rw [hrowKey, ← hsame]; exact hkey)
  targetIds := h.targetIds
  authorizationKeys := h.authorizationKeys
  principalRefs row hrow := by
    rw [List.mem_append] at hrow
    exact hrow.elim (h.principalRefs row) (hrows.principals row)
  targetRefs row hrow := by
    rw [List.mem_append] at hrow
    exact hrow.elim (h.targetRefs row) (hrows.targets row)
  groupRefs := h.groupRefs

theorem grown_insert {rows : List AssignmentRow}
    (hrows : ∀ row ∈ rows,
      Introduced { tables with assignments := tables.assignments ++ rows } row) :
    Grown tables { tables with assignments := tables.assignments ++ rows } where
  tenants := rfl
  groups _ h := h
  principals _ h := h
  targets _ h := h
  keyed _ h := h
  assignments _ h := List.mem_append_left _ h
  added row hrow hnot := hrows row ((List.mem_append.mp hrow).resolve_left hnot)

/-- What a loop of inserts returns. -/
def Extends (before : Tables) (result : Except MigrationError Tables) : Prop :=
  ∃ after, result = .ok after ∧ Intact after ∧ Grown before after

theorem foldlM_extends {ι : Type} {f : Tables → ι → Except MigrationError Tables}
    {items : List ι} (h : Intact tables)
    (hstep : ∀ item ∈ items, ∀ current, Intact current → Grown tables current →
      Extends current (f current item)) : Extends tables (items.foldlM f tables) := by
  have hloop : ∀ item ∈ items, ∀ (current : Tables) (_ : Unit),
      Intact current ∧ Grown tables current →
        ∃ after, f current item = .ok after ∧ Intact after ∧ Grown tables after := by
    intro item hitem current _ hcurrent
    obtain ⟨after, hafter, hintact, hgrown⟩ := hstep item hitem current hcurrent.1 hcurrent.2
    exact ⟨after, hafter, hintact, hcurrent.2.trans hgrown⟩
  exact Results.foldlM_simulates (g := fun _ _ => ()) (t := ()) hloop ⟨h, Grown.refl tables⟩

end Insert

/-! ## Lifecycle grants -/

section Lifecycle

variable {tables : Tables} {row : AssignmentRow}

theorem mem_lifecycleSource :
    row ∈ lifecycleSource tables ↔
      ∃ legacy ∈ tables.assignments, ∃ target ∈ tables.targets,
        target.id = legacy.key.targetId ∧ legacy.key.permission = createPermission ∧
          isLifecycle target.key = true ∧
          { legacy.key with permission := executePermission } ∉
            tables.assignments.map AssignmentRow.key ∧
          row = ⟨{ legacy.key with permission := executePermission }, legacy.grantType⟩ := by
  unfold lifecycleSource
  simp only [List.mem_flatMap, List.mem_filterMap, List.mem_filter, decide_eq_true_eq,
    Option.ite_none_right_eq_some, Option.some.injEq, ← isSome_assignment,
    Option.isNone_iff_eq_none,
    Option.not_isSome_iff_eq_none]
  constructor
  · intro h
    obtain ⟨legacy, hlegacy, target, htarget, hrow, hsame⟩ := h
    exact ⟨legacy, hlegacy, target, htarget.1, htarget.2, hrow.1, hrow.2.1, hrow.2.2, hsame.symm⟩
  · intro h
    obtain ⟨legacy, hlegacy, target, htarget, hid, hcreate, hcommand, hnew, hsame⟩ := h
    exact ⟨legacy, hlegacy, target, ⟨htarget, hid⟩, ⟨hcreate, hcommand, hnew⟩, hsame.symm⟩

theorem insertable_lifecycle (h : Intact tables) : Insertable tables (lifecycleSource tables) where
  keys := by
    unfold lifecycleSource
    rw [List.map_flatMap, List.nodup_flatMap]
    refine ⟨fun legacy _ => ?_, ?_⟩
    · refine nodup_of_length_le_one ?_
      rw [List.length_map]
      exact (List.length_filterMap_le _ _).trans (length_filter_key_le_one h.targetIds _)
    · refine (List.pairwise_map.mp h.assignments).imp_of_mem fun {legacy other} _ _ hkeys => ?_
      simp only [Function.onFun, List.disjoint_left, List.mem_map, List.mem_filterMap,
        Option.ite_none_right_eq_some, Option.some.injEq]
      intro key hkey hkey'
      obtain ⟨row, ⟨target, -, ⟨hcreate, -⟩, hrow⟩, hsame⟩ := hkey
      obtain ⟨row', ⟨target', -, ⟨hcreate', -⟩, hrow'⟩, hsame'⟩ := hkey'
      refine hkeys ?_
      rw [← hrow] at hsame
      rw [← hrow', ← hsame] at hsame'
      simp only [AssignmentKey.mk.injEq] at hsame'
      rw [AssignmentKey.mk.injEq]
      exact ⟨hsame'.1.symm, hsame'.2.1.symm, hcreate.trans hcreate'.symm⟩
  new row hrow := by
    obtain ⟨legacy, -, target, -, -, -, -, hnew, hsame⟩ := mem_lifecycleSource.mp hrow
    rw [hsame]
    exact hnew
  principals row hrow := by
    obtain ⟨legacy, hlegacy, target, -, -, -, -, -, hsame⟩ := mem_lifecycleSource.mp hrow
    rw [hsame]
    exact h.principalRefs legacy hlegacy
  targets row hrow := by
    obtain ⟨legacy, hlegacy, target, -, -, -, -, -, hsame⟩ := mem_lifecycleSource.mp hrow
    rw [hsame]
    exact h.targetRefs legacy hlegacy

/-- The check after the backfill finds nothing: what was missing is there. -/
theorem lifecycleSource_inserted (tables : Tables) :
    lifecycleSource { tables with assignments := tables.assignments ++ lifecycleSource tables } =
      [] := by
  refine List.eq_nil_iff_forall_not_mem.mpr fun row hrow => ?_
  obtain ⟨legacy, hlegacy, target, htarget, hid, hcreate, hcommand, hnew, -⟩ :=
    mem_lifecycleSource.mp hrow
  dsimp only at hlegacy htarget hnew
  rw [List.map_append, List.mem_append, not_or] at hnew
  obtain hold | hinserted := List.mem_append.mp hlegacy
  · refine hnew.2 (List.mem_map.mpr ⟨⟨{ legacy.key with permission := executePermission },
      legacy.grantType⟩, ?_, rfl⟩)
    exact mem_lifecycleSource.mpr
      ⟨legacy, hold, target, htarget, hid, hcreate, hcommand, hnew.1, rfl⟩
  · -- a row that was inserted is for `execute`
    obtain ⟨_, -, _, -, -, -, -, -, hsame⟩ := mem_lifecycleSource.mp hinserted
    have hother : executePermission ≠ createPermission := by decide
    rw [hsame] at hcreate
    exact hother hcreate

theorem backfillLifecycle_eq (h : Intact tables) :
    backfillLifecycle tables =
      .ok { tables with assignments := tables.assignments ++ lifecycleSource tables } := by
  unfold backfillLifecycle
  rw [insertAssignments_eq h (insertable_lifecycle h)]
  simp only [bind, Except.bind, lifecycleSource_inserted, List.take_nil]

theorem backfillLifecycle_extends (h : Intact tables) :
    Extends tables (backfillLifecycle tables) := by
  refine ⟨_, backfillLifecycle_eq h, intact_insert h (insertable_lifecycle h),
    grown_insert fun row hrow => ?_⟩
  obtain ⟨legacy, hlegacy, target, htarget, hid, hcreate, hcommand, -, hsame⟩ :=
    mem_lifecycleSource.mp hrow
  rw [hsame]
  refine ⟨target, htarget, hid, .inl ⟨rfl, hcommand, List.mem_append_left _ ?_⟩⟩
  have hkey : { legacy.key with permission := createPermission } = legacy.key := by
    rw [← hcreate]
  dsimp only
  rw [hkey]
  exact hlegacy

end Lifecycle

/-! ## Revocations -/

section Revocations

variable {tables : Tables} {revocation : Revocation}

theorem mem_upgrade {row : AssignmentRow} :
    row ∈ (revocation.upgrade tables).assignments ↔
      row ∈ tables.assignments ∧ revocation.matches tables row = false := by
  unfold Revocation.upgrade
  simp

theorem intact_upgrade (h : Intact tables) (revocation : Revocation) :
    Intact (revocation.upgrade tables) where
  groupIds := h.groupIds
  principalIds := h.principalIds
  targets := h.targets
  assignments := h.assignments.sublist (List.filter_sublist.map _)
  targetIds := h.targetIds
  authorizationKeys := h.authorizationKeys
  principalRefs row hrow := h.principalRefs row (mem_upgrade.mp hrow).1
  targetRefs row hrow := h.targetRefs row (mem_upgrade.mp hrow).1
  groupRefs := h.groupRefs

theorem kept_upgrade (hrevocation : revocation ∈ revocations) :
    Kept tables (revocation.upgrade tables) where
  tenants := rfl
  groups _ h := h
  principals _ h := h
  targets _ h := h
  keyed _ h := h
  assignments row hrow hnot := by
    refine mem_upgrade.mpr ⟨hrow, ?_⟩
    by_contra hmatches
    exact hnot ⟨revocation, hrevocation, Bool.eq_true_of_not_eq_false hmatches⟩
  added row hrow hnot := absurd (mem_upgrade.mp hrow).1 hnot

end Revocations

/-! ## Restored grants -/

section Restore

variable {tables : Tables}

theorem mem_restoredRows {principals : List Nat} {targetId : Nat} {row : AssignmentRow} :
    row ∈ restoredRows tables principals targetId ↔
      row.key.principalId ∈ principals ∧
        row = ⟨⟨row.key.principalId, targetId, readPermission⟩, permit⟩ ∧
        row.key ∉ tables.assignments.map AssignmentRow.key := by
  have hfree : ∀ principalId,
      (tables.assignments.all fun other =>
        !decide (other.key.targetId = targetId ∧ other.key.permission = readPermission ∧
          other.key.principalId = principalId)) = true ↔
        (⟨principalId, targetId, readPermission⟩ : AssignmentKey) ∉
          tables.assignments.map AssignmentRow.key := by
    intro principalId
    rw [List.all_eq_true]
    constructor
    · intro hall hmem
      obtain ⟨other, hother, hkey⟩ := List.mem_map.mp hmem
      have hfree := hall other hother
      simp [hkey] at hfree
    · intro hnew other hother
      rw [Bool.not_eq_true', decide_eq_false_iff_not]
      intro hsame
      obtain ⟨htarget, hread, hprincipal⟩ := hsame
      exact hnew (List.mem_map.mpr ⟨other, hother, by rw [← htarget, ← hread, ← hprincipal]⟩)
  unfold restoredRows
  simp only [List.mem_map, List.mem_filter, hfree]
  constructor
  · intro h
    obtain ⟨principalId, ⟨hprincipal, hnew⟩, hsame⟩ := h
    rw [← hsame]
    exact ⟨hprincipal, rfl, hnew⟩
  · intro h
    obtain ⟨hprincipal, hsame, hnew⟩ := h
    rw [hsame] at hnew
    exact ⟨row.key.principalId, ⟨hprincipal, hnew⟩, hsame.symm⟩

theorem nodup_rolePrincipals (h : Intact tables) (roles : List Text) (legacyGlobal : Bool) :
    (rolePrincipals tables roles legacyGlobal).Nodup := by
  unfold rolePrincipals
  dsimp only
  rw [List.nodup_flatMap]
  refine ⟨fun principal _ => nodup_of_length_le_one ?_, ?_⟩
  · refine (List.length_filterMap_le _ _).trans ?_
    refine length_filter_le_one h.groupIds.of_map fun group hgroup other hother hid hid' => ?_
    have hsame := (of_decide_eq_true hid).symm.trans (of_decide_eq_true hid')
    exact List.inj_on_of_nodup_map h.groupIds hgroup hother (Option.some.inj hsame)
  · refine (List.pairwise_map.mp h.principalIds).imp fun {principal other} hids => ?_
    simp only [Function.onFun, List.disjoint_left, List.mem_filterMap,
      Option.ite_none_right_eq_some, Option.some.injEq]
    intro id hid hid'
    obtain ⟨_, -, -, hsame⟩ := hid
    obtain ⟨_, -, -, hsame'⟩ := hid'
    exact hids (hsame.trans hsame'.symm)

theorem insertable_restored {principals : List Nat} (hnodup : principals.Nodup)
    (hprincipals : ∀ id ∈ principals, id ∈ tables.principals.map Principal.id) {targetId : Nat}
    (htarget : targetId ∈ tables.targets.map TargetRow.id) :
    Insertable tables (restoredRows tables principals targetId) where
  keys := by
    unfold restoredRows
    rw [List.map_map]
    refine (hnodup.filter _).map fun id other hsame => ?_
    exact congrArg AssignmentKey.principalId hsame
  new row hrow := (mem_restoredRows.mp hrow).2.2
  principals row hrow := hprincipals _ (mem_restoredRows.mp hrow).1
  targets row hrow := by
    rw [(mem_restoredRows.mp hrow).2.1]
    exact htarget

theorem restore_extends (h : Intact tables) (roles : List Text) (legacyGlobal : Bool) :
    Extends tables (restore roles legacyGlobal tables) := by
  refine foldlM_extends h fun targetId htargetId current hcurrent hgrown => ?_
  have hprincipals : ∀ id ∈ rolePrincipals tables roles legacyGlobal,
      id ∈ current.principals.map Principal.id := by
    intro id hid
    obtain ⟨principal, hprincipal, hsame, -⟩ := mem_rolePrincipals.mp hid
    exact List.mem_map.mpr ⟨principal, hgrown.principals principal hprincipal, hsame⟩
  obtain ⟨key, hkey, hfound⟩ := List.mem_flatMap.mp htargetId
  obtain ⟨target, hmem, hsame⟩ := List.mem_map.mp hfound
  obtain ⟨hthere, hsameKey⟩ := List.mem_filter.mp hmem
  have htarget : targetId ∈ current.targets.map TargetRow.id :=
    List.mem_map.mpr ⟨target, hgrown.targets target hthere, hsame⟩
  have hrows := insertable_restored (nodup_rolePrincipals h roles legacyGlobal) hprincipals htarget
  refine ⟨_, insertAssignments_eq hcurrent hrows, intact_insert hcurrent hrows,
    grown_insert fun row hrow => ?_⟩
  rw [(mem_restoredRows.mp hrow).2.1]
  exact ⟨target, hgrown.targets target hthere, hsame,
    .inr ⟨rfl, .inr ⟨rfl, of_decide_eq_true hsameKey ▸ hkey⟩⟩⟩

end Restore

/-! ## Task Review and Home -/

section Review

variable {ids : Ids} (hids : ids.Fresh) {tables : Tables}

theorem intact_addTarget (h : Intact tables) {target : TargetRow}
    (hid : target.id ∉ tables.targets.map TargetRow.id)
    (hkey : ∀ other ∈ tables.targets, other.key ≠ target.key) :
    Intact { tables with targets := tables.targets ++ [target] } where
  groupIds := h.groupIds
  principalIds := h.principalIds
  targets row hrow other hother hfull hsame := by
    rw [List.mem_append, List.mem_singleton] at hrow hother
    obtain hold | hnew := hrow
    · obtain hold' | hnew' := hother
      · exact h.targets row hold other hold' hfull hsame
      · exact absurd (hnew' ▸ hsame) (hkey row hold)
    · obtain hold' | hnew' := hother
      · exact absurd (hnew ▸ hsame.symm) (hkey other hold')
      · rw [hnew, hnew']
  assignments := h.assignments
  targetIds := by
    rw [List.map_append, List.map_singleton, ← List.concat_eq_append]
    exact h.targetIds.concat hid
  authorizationKeys := h.authorizationKeys
  principalRefs := h.principalRefs
  targetRefs row hrow := by
    rw [List.map_append]
    exact List.mem_append_left _ (h.targetRefs row hrow)
  groupRefs := h.groupRefs

theorem intact_addGroup (h : Intact tables) {group : GroupModel}
    (hid : group.id ∉ tables.groups.map GroupModel.id)
    (hnew : ∀ other ∈ tables.groups, other.authorizationKey ≠ group.authorizationKey) :
    Intact { tables with groups := tables.groups ++ [group] } where
  groupIds := by
    rw [List.map_append, List.map_singleton, ← List.concat_eq_append]
    exact h.groupIds.concat hid
  principalIds := h.principalIds
  targets := h.targets
  assignments := h.assignments
  targetIds := h.targetIds
  authorizationKeys row hrow other hother key hrowKey hotherKey := by
    rw [List.mem_append, List.mem_singleton] at hrow hother
    obtain hold | hlast := hrow
    · obtain hold' | hlast' := hother
      · exact h.authorizationKeys row hold other hold' key hrowKey hotherKey
      · exact absurd (hrowKey.trans (hlast' ▸ hotherKey).symm) (hnew row hold)
    · obtain hold' | hlast' := hother
      · exact absurd (hotherKey.trans (hlast ▸ hrowKey).symm) (hnew other hold')
      · rw [hlast, hlast']
  principalRefs := h.principalRefs
  targetRefs := h.targetRefs
  groupRefs principal hprincipal id hattached := by
    rw [List.map_append]
    exact List.mem_append_left _ (h.groupRefs principal hprincipal id hattached)

theorem intact_addPrincipal (h : Intact tables) {principal : Principal}
    (hid : principal.id ∉ tables.principals.map Principal.id)
    (hgroup : ∀ id, principal.groupId = some id → id ∈ tables.groups.map GroupModel.id) :
    Intact { tables with principals := tables.principals ++ [principal] } where
  groupIds := h.groupIds
  principalIds := by
    rw [List.map_append, List.map_singleton, ← List.concat_eq_append]
    exact h.principalIds.concat hid
  targets := h.targets
  assignments := h.assignments
  targetIds := h.targetIds
  authorizationKeys := h.authorizationKeys
  principalRefs row hrow := by
    rw [List.map_append]
    exact List.mem_append_left _ (h.principalRefs row hrow)
  targetRefs := h.targetRefs
  groupRefs row hrow := by
    rw [List.mem_append, List.mem_singleton] at hrow
    obtain hold | hnew := hrow
    · exact h.groupRefs row hold
    · rw [hnew]
      exact hgroup

theorem grown_addTarget (tables : Tables) (target : TargetRow) :
    Grown tables { tables with targets := tables.targets ++ [target] } where
  tenants := rfl
  groups _ h := h
  principals _ h := h
  targets _ h := List.mem_append_left _ h
  keyed _ h := h
  assignments _ h := h
  added _ h hnot := absurd h hnot

theorem grown_addGroup (tables : Tables) {group : GroupModel}
    (hkey : group.authorizationKey = some (groupAuthorizationKey group.identifier)) :
    Grown tables { tables with groups := tables.groups ++ [group] } where
  tenants := rfl
  groups _ h := List.mem_append_left _ h
  principals _ h := h
  targets _ h := h
  keyed _ h := h.append hkey
  assignments _ h := h
  added _ h hnot := absurd h hnot

theorem grown_addPrincipal (tables : Tables) (principal : Principal) :
    Grown tables { tables with principals := tables.principals ++ [principal] } where
  tenants := rfl
  groups _ h := h
  principals _ h := List.mem_append_left _ h
  targets _ h := h
  keyed _ h := h
  assignments _ h := h
  added _ h hnot := absurd h hnot

/-- The keys of the migration's targets are full, so at most one row has each. -/
theorem filter_target_le_one (h : Intact tables) {key : TargetKey} (hfull : key.Full) :
    (tables.targets.filter fun target => target.key = key).length ≤ 1 := by
  refine length_filter_le_one h.targetIds.of_map fun target htarget other hother hkey hkey' => ?_
  have hsame := (of_decide_eq_true hkey).trans (of_decide_eq_true hkey').symm
  exact h.targets target htarget other hother (of_decide_eq_true hkey ▸ hfull) hsame

theorem filter_group_le_one (h : Intact tables) (identifier : Text) :
    (tables.groups.filter fun group => group.identifier = identifier ∧
      group.authorizationKey = some (groupAuthorizationKey identifier)).length ≤ 1 := by
  refine length_filter_le_one h.groupIds.of_map fun group hgroup other hother hkey hkey' => ?_
  exact h.authorizationKeys group hgroup other hother _ (of_decide_eq_true hkey).2
    (of_decide_eq_true hkey').2

include hids

theorem targetId_spec (h : Intact tables) {key : TargetKey} (hfull : key.Full) :
    ∃ after id, targetId ids tables key = .ok (after, id) ∧ Intact after ∧ Grown tables after ∧
      after.seeds = tables.seeds ∧ ∃ target ∈ after.targets, target.id = id ∧ target.key = key := by
  unfold targetId
  rw [oneOrNone_of_length (filter_target_le_one h hfull)]
  simp only [bind, Except.bind]
  cases hfound : (tables.targets.filter fun target => target.key = key).head? with
  | some target =>
      have hmem := List.mem_filter.mp (List.mem_of_mem_head? hfound)
      exact ⟨tables, target.id, rfl, h, Grown.refl tables, rfl, target, hmem.1, rfl,
        of_decide_eq_true hmem.2⟩
  | none =>
      have hnone := List.filter_eq_nil_iff.mp (List.head?_eq_none_iff.mp hfound)
      refine ⟨_, _, rfl, intact_addTarget h (hids.target tables) fun other hother hsame =>
        hnone other hother (decide_eq_true hsame), grown_addTarget tables _, rfl, _,
        List.mem_append_right _ List.mem_cons_self, rfl, rfl⟩

theorem reviewGroup_spec (h : Intact tables) {identifier : Text}
    (hkeyed : KeyedFor tables.groups identifier) :
    ∃ after id, reviewGroup ids tables identifier = .ok (after, id) ∧ Intact after ∧
      Grown tables after ∧ ∃ group ∈ after.groups, group.id = id ∧
        group.identifier = identifier := by
  unfold reviewGroup
  rw [oneOrNone_of_length (filter_group_le_one h identifier)]
  simp only [bind, Except.bind]
  cases hfound : (tables.groups.filter fun group => group.identifier = identifier ∧
      group.authorizationKey = some (groupAuthorizationKey identifier)).head? with
  | some group =>
      have hmem := List.mem_filter.mp (List.mem_of_mem_head? hfound)
      exact ⟨tables, group.id, rfl, h, Grown.refl tables, group, hmem.1, rfl,
        (of_decide_eq_true hmem.2).1⟩
  | none =>
      have hnone := List.filter_eq_nil_iff.mp (List.head?_eq_none_iff.mp hfound)
      -- the key is free: a row with it would have the identifier, too
      have hfree : ∀ other ∈ tables.groups,
          other.authorizationKey ≠ some (groupAuthorizationKey identifier) := by
        intro other hother hkey
        exact hnone other hother (decide_eq_true ⟨hkeyed other hother hkey, hkey⟩)
      have hany : (tables.groups.any fun group =>
          group.authorizationKey = some (groupAuthorizationKey identifier)) = false := by
        simpa using hfree
      dsimp only
      rw [hany, if_neg Bool.false_ne_true]
      exact ⟨_, _, rfl, intact_addGroup h (hids.group tables) hfree, grown_addGroup tables rfl, _,
        List.mem_append_right _ List.mem_cons_self, rfl, rfl⟩

theorem ensureGroupPrincipal_spec (h : Intact tables) {identifier : Text}
    (hkeyed : KeyedFor tables.groups identifier) :
    ∃ after id, ensureGroupPrincipal ids tables identifier = .ok (after, id) ∧ Intact after ∧
      Grown tables after ∧ ∃ principal ∈ after.principals, principal.id = id ∧
        ∃ group ∈ after.groups, principal.groupId = some group.id ∧
          group.identifier = identifier := by
  obtain ⟨grouped, groupId, hgrouped, hintact, hgrown, group, hgroup, hid, hnamed⟩ :=
    reviewGroup_spec hids h hkeyed
  unfold ensureGroupPrincipal
  rw [hgrouped]
  simp only [bind, Except.bind]
  cases hprincipal : grouped.principal groupId with
  | some principal =>
      have hattached := List.find?_some hprincipal
      exact ⟨grouped, principal.id, rfl, hintact, hgrown, principal,
        List.mem_of_find?_eq_some hprincipal, rfl, group, hgroup,
        hid ▸ of_decide_eq_true hattached, hnamed⟩
  | none =>
      refine ⟨_, _, rfl, intact_addPrincipal hintact (hids.principal grouped) fun id hsame => ?_,
        hgrown.trans (grown_addPrincipal grouped _), _,
        List.mem_append_right _ List.mem_cons_self, rfl, group, hgroup, by rw [hid], hnamed⟩
      exact List.mem_map.mpr ⟨group, hgroup, hid.trans (Option.some.inj hsame)⟩

end Review

/-! ### Grants -/

/-- There is a row for the permission on a target, whatever its grant, for the group with the
identifier. -/
def Assigned (tables : Tables) (identifier permission : Text) (key : TargetKey) : Prop :=
  ∃ group ∈ tables.groups, ∃ principal ∈ tables.principals, ∃ target ∈ tables.targets,
    group.identifier = identifier ∧ principal.groupId = some group.id ∧ target.key = key ∧
      ⟨principal.id, target.id, permission⟩ ∈ tables.assignments.map AssignmentRow.key

/-- The ids of the targets with the keys. -/
structure Resolved (tables : Tables) (found : List (Text × Nat)) (specs : List (Text × TargetKey)) :
    Prop where
  ids : ∀ pair ∈ found, ∃ target ∈ tables.targets, target.id = pair.2 ∧
    (pair.1, target.key) ∈ specs
  specs : ∀ spec ∈ specs, ∃ target ∈ tables.targets, (spec.1, target.id) ∈ found ∧
    target.key = spec.2

section Grants

variable {before after tables : Tables} {ids : Ids}

theorem Assigned.grown {identifier permission : Text} {key : TargetKey}
    (h : Assigned before identifier permission key) (hgrown : Grown before after) :
    Assigned after identifier permission key := by
  obtain ⟨group, hgroup, principal, hprincipal, target, htarget, hnamed, hattached, hkey, hrow⟩ := h
  obtain ⟨row, hrow, hsame⟩ := List.mem_map.mp hrow
  exact ⟨group, hgrown.groups group hgroup, principal, hgrown.principals principal hprincipal,
    target, hgrown.targets target htarget, hnamed, hattached, hkey,
    List.mem_map.mpr ⟨row, hgrown.assignments row hrow, hsame⟩⟩

theorem Resolved.grown {found : List (Text × Nat)} {specs : List (Text × TargetKey)}
    (h : Resolved before found specs) (hgrown : Grown before after) :
    Resolved after found specs where
  ids pair hpair := by
    obtain ⟨target, htarget, hrest⟩ := h.ids pair hpair
    exact ⟨target, hgrown.targets target htarget, hrest⟩
  specs spec hspec := by
    obtain ⟨target, htarget, hrest⟩ := h.specs spec hspec
    exact ⟨target, hgrown.targets target htarget, hrest⟩

theorem ensureAssignment_spec (h : Intact tables) (key : AssignmentKey)
    (hprincipal : key.principalId ∈ tables.principals.map Principal.id)
    (htarget : ∃ target ∈ tables.targets, target.id = key.targetId ∧
      (key.permission, target.key) ∈ reviewTargets) :
    Intact (ensureAssignment tables key) ∧ Grown tables (ensureAssignment tables key) ∧
      key ∈ (ensureAssignment tables key).assignments.map AssignmentRow.key := by
  unfold ensureAssignment
  by_cases hsome : (tables.assignment key).isSome = true
  · rw [if_pos hsome]
    exact ⟨h, Grown.refl tables, isSome_assignment.mp hsome⟩
  · rw [if_neg hsome]
    obtain ⟨target, hmem, hid, hspec⟩ := htarget
    have hrows : Insertable tables [⟨key, permit⟩] :=
      { keys := by simp
        new := by simpa [← isSome_assignment] using hsome
        principals := by simpa using hprincipal
        targets := by
          intro row hrow
          rw [List.mem_singleton.mp hrow]
          exact List.mem_map.mpr ⟨target, hmem, hid⟩ }
    refine ⟨intact_insert h hrows, grown_insert fun row hrow => ?_, by simp⟩
    rw [List.mem_singleton.mp hrow]
    exact ⟨target, hmem, hid, .inr ⟨rfl, .inl hspec⟩⟩

theorem foldl_ensureAssignment_spec (h : Intact tables) {principalId : Nat}
    (hprincipal : principalId ∈ tables.principals.map Principal.id) {found : List (Text × Nat)}
    (hfound : ∀ pair ∈ found, ∃ target ∈ tables.targets, target.id = pair.2 ∧
      (pair.1, target.key) ∈ reviewTargets) :
    Intact (found.foldl
        (fun tables pair => ensureAssignment tables ⟨principalId, pair.2, pair.1⟩) tables) ∧
      Grown tables (found.foldl
        (fun tables pair => ensureAssignment tables ⟨principalId, pair.2, pair.1⟩) tables) ∧
      ∀ pair ∈ found, ⟨principalId, pair.2, pair.1⟩ ∈ (found.foldl
        (fun tables pair => ensureAssignment tables ⟨principalId, pair.2, pair.1⟩)
          tables).assignments.map AssignmentRow.key := by
  induction found generalizing tables with
  | nil => exact ⟨h, Grown.refl tables, by simp⟩
  | cons pair found ih =>
      obtain ⟨hintact, hgrown, hthere⟩ :=
        ensureAssignment_spec h ⟨principalId, pair.2, pair.1⟩ hprincipal
          (hfound pair List.mem_cons_self)
      have hprincipal' :
          principalId ∈ (ensureAssignment tables ⟨principalId, pair.2, pair.1⟩).principals.map
            Principal.id := by
        obtain ⟨principal, hmem, hid⟩ := List.mem_map.mp hprincipal
        exact List.mem_map.mpr ⟨principal, hgrown.principals principal hmem, hid⟩
      have hfound' : ∀ other ∈ found,
          ∃ target ∈ (ensureAssignment tables ⟨principalId, pair.2, pair.1⟩).targets,
            target.id = other.2 ∧ (other.1, target.key) ∈ reviewTargets := by
        intro other hother
        obtain ⟨target, hmem, hrest⟩ := hfound other (List.mem_cons_of_mem _ hother)
        exact ⟨target, hgrown.targets target hmem, hrest⟩
      obtain ⟨hintact', hgrown', hrest⟩ := ih hintact hprincipal' hfound'
      rw [List.foldl_cons]
      refine ⟨hintact', hgrown.trans hgrown', fun other hother => ?_⟩
      obtain hfirst | hlater := List.mem_cons.mp hother
      · obtain ⟨row, hrow, hkey⟩ := List.mem_map.mp hthere
        rw [hfirst]
        exact List.mem_map.mpr ⟨row, hgrown'.assignments row hrow, hkey⟩
      · exact hrest other hlater

theorem grantReview_spec (hids : ids.Fresh) (h : Intact tables) {found : List (Text × Nat)}
    (hfound : Resolved tables found reviewTargets) {identifier : Text}
    (hkeyed : KeyedFor tables.groups identifier) :
    ∃ after, grantReview ids found tables identifier = .ok after ∧ Intact after ∧
      Grown tables after ∧ ∀ spec ∈ reviewTargets, Assigned after identifier spec.1 spec.2 := by
  obtain ⟨attached, principalId, hattached, hintact, hgrown, principal, hprincipal, hid, group,
    hgroup, hin, hnamed⟩ := ensureGroupPrincipal_spec hids h hkeyed
  have hresolved := hfound.grown hgrown
  obtain ⟨hintact', hgrown', hrows⟩ :=
    foldl_ensureAssignment_spec hintact (List.mem_map.mpr ⟨principal, hprincipal, hid⟩)
      hresolved.ids
  refine ⟨_, ?_, hintact', hgrown.trans hgrown', fun spec hspec => ?_⟩
  · unfold grantReview
    rw [hattached]
    rfl
  · obtain ⟨target, htarget, hpair, hkey⟩ := hresolved.specs spec hspec
    exact ⟨group, hgrown'.groups group hgroup, principal, hgrown'.principals principal hprincipal,
      target, hgrown'.targets target htarget, hnamed, hin, hkey, by rw [hid]; exact hrows _ hpair⟩

theorem resolve_spec (hids : ids.Fresh) (h : Intact tables) {specs : List (Text × TargetKey)}
    (hfull : ∀ spec ∈ specs, spec.2.Full) :
    ∃ found : Tables × List (Text × Nat),
      specs.foldlM (fun (found : Tables × List (Text × Nat)) target => do
          let next ← targetId ids found.1 target.2
          .ok (next.1, found.2 ++ [(target.1, next.2)])) (tables, []) = .ok found ∧
        Intact found.1 ∧ Grown tables found.1 ∧ found.1.seeds = tables.seeds ∧
          Resolved found.1 found.2 specs := by
  have hstep : ∀ spec ∈ specs, ∀ (found : Tables × List (Text × Nat))
      (resolved : List (Text × TargetKey)),
      (Intact found.1 ∧ Grown tables found.1 ∧ found.1.seeds = tables.seeds ∧
        Resolved found.1 found.2 resolved) →
      ∃ next, (do
          let next ← targetId ids found.1 spec.2
          .ok (next.1, found.2 ++ [(spec.1, next.2)])) = (.ok next : Except MigrationError _) ∧
        Intact next.1 ∧ Grown tables next.1 ∧ next.1.seeds = tables.seeds ∧
          Resolved next.1 next.2 (resolved ++ [spec]) := by
    intro spec hspec found resolved hfound
    obtain ⟨hintact, hgrown, hseeds, hresolved⟩ := hfound
    obtain ⟨after, id, hafter, hintact', hgrown', hseeds', target, htarget, hid, hkey⟩ :=
      targetId_spec hids hintact (hfull spec hspec)
    refine ⟨(after, found.2 ++ [(spec.1, id)]), by rw [hafter]; rfl, hintact',
      hgrown.trans hgrown', hseeds'.trans hseeds, ?_, ?_⟩
    · intro pair hpair
      rw [List.mem_append, List.mem_singleton] at hpair
      obtain hold | hnew := hpair
      · obtain ⟨row, hrow, hsame, hspec'⟩ := (hresolved.grown hgrown').ids pair hold
        exact ⟨row, hrow, hsame, List.mem_append_left _ hspec'⟩
      · rw [hnew]
        exact ⟨target, htarget, hid, List.mem_append_right _ (by simp [hkey])⟩
    · intro other hother
      rw [List.mem_append, List.mem_singleton] at hother
      obtain hold | hnew := hother
      · obtain ⟨row, hrow, hpair, hsame⟩ := (hresolved.grown hgrown').specs other hold
        exact ⟨row, hrow, List.mem_append_left _ hpair, hsame⟩
      · rw [hnew]
        exact ⟨target, htarget, List.mem_append_right _ (by simp [hid]), hkey⟩
  exact Results.foldlM_processed (s := (tables, ([] : List (Text × Nat)))) hstep
    ⟨h, Grown.refl tables, rfl, ⟨by simp, by simp⟩⟩

theorem foldlM_grantReview_spec (hids : ids.Fresh) (h : Intact tables)
    {found : List (Text × Nat)} (hfound : Resolved tables found reviewTargets)
    {identifiers : List Text}
    (hkeyed : ∀ identifier ∈ identifiers, KeyedFor tables.groups identifier) :
    ∃ after, identifiers.foldlM (grantReview ids found) tables = .ok after ∧ Intact after ∧
      Grown tables after ∧ ∀ identifier ∈ identifiers, ∀ spec ∈ reviewTargets,
        Assigned after identifier spec.1 spec.2 := by
  have hstep : ∀ identifier ∈ identifiers, ∀ (current : Tables) (granted : List Text),
      (Intact current ∧ Grown tables current ∧ ∀ other ∈ granted, ∀ spec ∈ reviewTargets,
        Assigned current other spec.1 spec.2) →
      ∃ after, grantReview ids found current identifier = .ok after ∧ Intact after ∧
        Grown tables after ∧ ∀ other ∈ granted ++ [identifier], ∀ spec ∈ reviewTargets,
          Assigned after other spec.1 spec.2 := by
    intro identifier hidentifier current granted hcurrent
    obtain ⟨hintact, hgrown, hgranted⟩ := hcurrent
    obtain ⟨after, hafter, hintact', hgrown', hassigned⟩ :=
      grantReview_spec hids hintact (hfound.grown hgrown)
        (hgrown.keyed _ (hkeyed identifier hidentifier))
    refine ⟨after, hafter, hintact', hgrown.trans hgrown', fun other hother spec hspec => ?_⟩
    rw [List.mem_append, List.mem_singleton] at hother
    obtain hold | hnew := hother
    · exact (hgranted other hold spec hspec).grown hgrown'
    · rw [hnew]
      exact hassigned spec hspec
  exact Results.foldlM_processed (s := tables) hstep ⟨h, Grown.refl tables, by simp⟩

theorem intact_seeds (h : Intact tables) (seeds : Dict Text Nat) :
    Intact { tables with seeds } where
  groupIds := h.groupIds
  principalIds := h.principalIds
  targets := h.targets
  assignments := h.assignments
  targetIds := h.targetIds
  authorizationKeys := h.authorizationKeys
  principalRefs := h.principalRefs
  targetRefs := h.targetRefs
  groupRefs := h.groupRefs

theorem backfillReview_spec (hids : ids.Fresh) (h : Intact tables) (hkeyed : Keyed tables) :
    ∃ after, backfillReview ids tables = .ok after ∧ Intact after ∧ Grown tables after ∧
      ∀ tenant ∈ staleTenants tables, ∀ role ∈ reviewRoles, ∀ spec ∈ reviewTargets,
        Assigned after (tenantIdentifier tenant role) spec.1 spec.2 := by
  have hfull : ∀ spec ∈ reviewTargets, spec.2.Full := by
    simp [reviewTargets, routeKey, TargetKey.Full]
  obtain ⟨found, hfound, hintact, hgrown, hseeds, hresolved⟩ := resolve_spec hids h hfull
  have hstale : staleTenants found.1 = staleTenants tables := by
    unfold staleTenants
    rw [hgrown.tenants, hseeds]
  have hgroups : ∀ identifier ∈ (staleTenants found.1).flatMap fun tenant =>
      reviewRoles.map (tenantIdentifier tenant), KeyedFor found.1.groups identifier := by
    intro identifier hidentifier
    obtain ⟨tenant, htenant, hnamed⟩ := List.mem_flatMap.mp hidentifier
    obtain ⟨role, hrole, hsame⟩ := List.mem_map.mp hnamed
    have hthere : tenant ∈ tenants tables := by
      rw [← hgrown.tenants]
      exact (List.mem_filter.mp htenant).1
    rw [← hsame]
    exact hgrown.keyed _ (hkeyed tenant hthere role hrole)
  obtain ⟨granted, hgranted, hintact', hgrown', hassigned⟩ :=
    foldlM_grantReview_spec hids hintact hresolved hgroups
  refine ⟨{ granted with
      seeds := granted.seeds.mapValues fun version =>
        if version < reviewSeedVersion then reviewSeedVersion else version },
    ?_, intact_seeds hintact' _, ?_, fun tenant htenant role hrole spec hspec => ?_⟩
  · unfold backfillReview
    rw [hfound]
    simp only [bind, Except.bind]
    rw [hgranted]
  · have htotal := hgrown.trans hgrown'
    exact ⟨⟨htotal.tenants, htotal.groups, htotal.principals, htotal.targets, htotal.keyed⟩,
      htotal.assignments, htotal.added⟩
  · refine hassigned _ (List.mem_flatMap.mpr ⟨tenant, hstale ▸ htenant, ?_⟩) spec hspec
    exact List.mem_map_of_mem hrole

end Grants

end M8flow.Migration.Permissions
