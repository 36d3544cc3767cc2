import M8flow.Keycloak.RealmTemplate
import M8flow.Lib.Results

/-!
# Tenant realms and the super-admin role

What the import of a new tenant's realm says about the role `super-admin`.  The role is left
out of the realm's roles, and users neither are nor have it; groups and composite roles are
imported with the roles that the template gives them.

- `GroupRefers` and `CompositeRefers` say that a group, at any depth, or a role refers to a
  role with a property.
- `import_groups`, `import_realmRoles` and `import_clientRoles` follow them through the import,
  and `fill_groups`, `fill_realmRoles` and `fill_clientRoles` through the filled template.
- `withholds_iff` says for which templates nothing in the import has the role.
-/

namespace M8flow.Keycloak

open M8flow.Lib M8flow.Lib.Json M8flow.Lib.Results

def superAdmin : Text := "super-admin".toList

/-! ## References to roles -/

/-- A list has a text with the property. -/
def HasText (p : Text → Prop) (value : Json) : Prop := ∃ s, .str s ∈ value.items ∧ p s

/-- A group or one of the groups below it, at any depth, has a role with the property. -/
inductive GroupRefers (p : Text → Prop) : Json → Prop where
  | own {fields : Fields} (has : HasText p (getD fields "realmRoles".toList)) :
      GroupRefers p (.obj fields)
  | sub {fields : Fields} {group : Json}
      (mem : group ∈ (getD fields "subGroups".toList).items) (refers : GroupRefers p group) :
      GroupRefers p (.obj fields)

/-- One of the groups does. -/
def GroupsRefer (p : Text → Prop) (groups : List Json) : Prop := ∃ group ∈ groups, GroupRefers p group

/-- A composite role contains a realm role with the property. -/
def CompositeRefers (p : Text → Prop) (role : Json) : Prop :=
  HasText p (getD (getD role.fields "composites".toList).fields "realm".toList)

/-- The realm roles of a template, or of an import. -/
def realmRolesOf (payload : Fields) : List Json :=
  (getD (getD payload "roles".toList).fields "realm".toList).items

/-- The roles of the clients. -/
def clientRolesOf (payload : Fields) : List Json :=
  (getD (getD payload "roles".toList).fields "client".toList).fields.flatMap fun entry =>
    entry.2.items

def groupsOf (payload : Fields) : List Json := (getD payload "groups".toList).items

def usersOf (payload : Fields) : List Json := (getD payload "users".toList).items

/-- Nothing in the import is or has the super-admin role. -/
structure Withholds (payload : Fields) : Prop where
  roles : ∀ role ∈ realmRolesOf payload, field role.fields "name".toList ≠ some (.str superAdmin)
  users : ∀ user ∈ usersOf payload, field user.fields "username".toList ≠ some (.str superAdmin)
  userRoles : ∀ user ∈ usersOf payload, ¬ HasText (· = superAdmin) (getD user.fields "realmRoles".toList)
  groups : ¬ GroupsRefer (· = superAdmin) (groupsOf payload)
  composites : ∀ role ∈ realmRolesOf payload ++ clientRolesOf payload,
    ¬ CompositeRefers (· = superAdmin) role

/-- The text is the name of the role once the redirect placeholders are replaced. -/
def BecomesSuperAdmin (settings : RealmSettings) (s : Text) : Prop :=
  replaceRedirects settings s = superAdmin

/-- The realm role is left out of the import: its name, as it is in the filled template, is
that of the super-admin role. -/
def LeftOut (settings : RealmSettings) (names : Renaming) (role : Json) : Prop :=
  ∃ s, field (retargetRole names role.fields) "name".toList = some (.str s) ∧
    BecomesSuperAdmin settings s

/-- A group of the template, at any depth, has the super-admin role, or a role of the template
that is imported contains it. -/
def TemplateRefers (settings : RealmSettings) (names : Renaming) (template : Fields) : Prop :=
  GroupsRefer (BecomesSuperAdmin settings) (groupsOf template) ∨
    (∃ role ∈ realmRolesOf template, ¬ LeftOut settings names role ∧
      CompositeRefers (BecomesSuperAdmin settings) role) ∨
    ∃ role ∈ clientRolesOf template, CompositeRefers (BecomesSuperAdmin settings) role

section References

variable {p : Text → Prop}

theorem groupRefers_obj {fields : Fields} :
    GroupRefers p (.obj fields) ↔ HasText p (getD fields "realmRoles".toList) ∨
      GroupsRefer p (getD fields "subGroups".toList).items := by
  constructor
  · intro h
    cases h with
    | own has => exact .inl has
    | sub mem refers => exact .inr ⟨_, mem, refers⟩
  · intro h
    rcases h with has | ⟨group, mem, refers⟩
    · exact .own has
    · exact .sub mem refers

theorem not_groupsRefer_nil : ¬ GroupsRefer p [] := by
  intro h
  obtain ⟨_, hmem, _⟩ := h
  cases hmem

theorem groupsRefer_cons {group : Json} {rest : List Json} :
    GroupsRefer p (group :: rest) ↔ GroupRefers p group ∨ GroupsRefer p rest := by
  unfold GroupsRefer
  rw [List.exists_mem_cons_iff]

/-- A value that is no dictionary refers to nothing. -/
theorem not_compositeRefers {role : Json} (h : role.fields = []) : ¬ CompositeRefers p role := by
  unfold CompositeRefers HasText
  rw [h]
  intro hrefers
  obtain ⟨s, hmem, _⟩ := hrefers
  cases hmem

end References

/-! ## Keys that a step leaves alone -/

section Keys

variable {payload after : Fields} {key other : Text}

theorem getD_set (fields : Fields) (key other : Text) (value : Json) :
    getD (set fields key value) other = if key = other then value else getD fields other := by
  unfold getD
  rw [field_set]
  split <;> rfl

theorem field_updateField {f : Json → Except TemplateError Json}
    (h : updateField payload key f = .ok after) :
    (∀ other, key ≠ other → field after other = field payload other) ∧
      ∀ value, field payload key = some value → ∃ value', f value = .ok value' ∧
        field after key = some value' := by
  unfold updateField at h
  cases hkey : field payload key with
  | none =>
      rw [hkey] at h
      rw [← Except.ok.inj h]
      refine ⟨fun _ _ => rfl, ?_⟩
      intro value hvalue
      cases hvalue
  | some value =>
      rw [hkey] at h
      dsimp only at h
      cases hf : f value with
      | error e => rw [hf] at h; cases h
      | ok value' =>
          rw [hf] at h
          rw [← Except.ok.inj h]
          refine ⟨fun other hne => by rw [field_set, if_neg hne], ?_⟩
          intro value'' hvalue
          rw [← Option.some.inj hvalue]
          exact ⟨value', hf, by rw [field_set, if_pos rfl]⟩

theorem getD_updateField {f : Json → Except TemplateError Json}
    (h : updateField payload key f = .ok after) (hne : key ≠ other) :
    getD after other = getD payload other := by
  unfold getD
  rw [(field_updateField h).1 other hne]

/-- A key without a value has none afterwards. -/
theorem field_updateField_none {f : Json → Except TemplateError Json}
    (h : updateField payload key f = .ok after) (hnone : field payload key = none) :
    after = payload := by
  unfold updateField at h
  rw [hnone] at h
  exact (Except.ok.inj h).symm

end Keys

/-! ## The import -/

section Import

variable {settings : RealmSettings} {full payload : Fields} {p : Text → Prop}

/-- What the import is made of. -/
theorem partialImportPayload_parts (h : partialImportPayload settings full = .ok payload) :
    ∃ roles groups users,
      sanitizeRolesForPartialImport
        (if (getD full "roles".toList).truthy then getD full "roles".toList else .obj []) = .ok roles ∧
      sanitizeGroupsForPartialImport (orEmpty (getD full "groups".toList)) = .ok groups ∧
      sanitizeUsersForPartialImport (orEmpty (getD full "users".toList)) = .ok users ∧
      getD payload "roles".toList = roles ∧ getD payload "groups".toList = groups ∧
      getD payload "users".toList = users := by
  unfold partialImportPayload at h
  obtain ⟨clients, _, h⟩ := bind_eq_ok.mp h
  obtain ⟨roles, hroles, h⟩ := bind_eq_ok.mp h
  obtain ⟨groups, hgroups, h⟩ := bind_eq_ok.mp h
  obtain ⟨users, husers, h⟩ := bind_eq_ok.mp h
  obtain ⟨clientScopes, _, h⟩ := bind_eq_ok.mp h
  obtain ⟨identityProviders, _, h⟩ := bind_eq_ok.mp h
  rw [← Except.ok.inj h]
  exact ⟨roles, groups, users, hroles, hgroups, husers, rfl, rfl, rfl⟩

/-- The values of a loop are the items of a list, and texts elsewhere. -/
theorem loop_items {value : Json} {values : List Json} (h : loop value = .ok values) :
    values = value.items ∨ (value.items = [] ∧ ∀ item ∈ values, item.fields = []) := by
  unfold loop at h
  cases value with
  | arr items => exact .inl (Except.ok.inj h).symm
  | obj fields =>
      right
      refine ⟨rfl, ?_⟩
      intro item hitem
      rw [← Except.ok.inj h] at hitem
      obtain ⟨_, _, hsame⟩ := List.mem_map.mp hitem
      rw [← hsame]
      rfl
  | str s =>
      right
      refine ⟨rfl, ?_⟩
      intro item hitem
      rw [← Except.ok.inj h] at hitem
      obtain ⟨_, _, hsame⟩ := List.mem_map.mp hitem
      rw [← hsame]
      rfl
  | _ => cases h

theorem items_orEmpty (value : Json) : (orEmpty value).items = value.items := by
  unfold orEmpty
  split
  · rfl
  · rename_i hfalsy
    cases value with
    | arr items =>
        cases items with
        | nil => rfl
        | cons => exact absurd rfl hfalsy
    | _ => rfl

/-- The role of a realm once its identifiers are off. -/
theorem onDicts_role {role role' : Json} (h : onDicts sanitizeRoleIdentifiers role = .ok role') :
    ∀ key, key ≠ "id".toList → key ≠ "containerId".toList →
      field role'.fields key = field role.fields key := by
  intro key hid hcontainer
  unfold onDicts at h
  split at h
  · rename_i fields
    obtain ⟨fields', hfields, hrole⟩ := map_eq_ok.mp h
    rw [← hrole, ← Except.ok.inj hfields]
    show field (pop (pop fields _) _) key = _
    rw [field_pop, if_neg hcontainer, field_pop, if_neg hid]
    rfl
  · rw [Except.ok.inj h]

theorem compositeRefers_congr {role role' : Json}
    (h : field role'.fields "composites".toList = field role.fields "composites".toList) :
    CompositeRefers p role' ↔ CompositeRefers p role := by
  unfold CompositeRefers getD
  rw [h]

/-- The name of a realm role is that of the super-admin role. -/
def IsSuperAdmin (role : Json) : Prop := field role.fields "name".toList = some (.str superAdmin)

theorem getD_eq_str {fields : Fields} {key s : Text} :
    getD fields key = .str s ↔ field fields key = some (.str s) := by
  unfold getD
  cases field fields key with
  | none => simp
  | some value => simp

theorem isOneOf_eq_ok {names : List Text} {value : Json} {found : Bool}
    (h : isOneOf names value = .ok found) : found = true ↔ ∃ s ∈ names, value = .str s := by
  unfold isOneOf at h
  split at h
  · rename_i s
    rw [← Except.ok.inj h]
    simp
  · cases h
  · cases h
  · rename_i hstr _ _
    rw [← Except.ok.inj h]
    constructor
    · intro hfalse
      cases hfalse
    · intro hfound
      obtain ⟨s, _, hvalue⟩ := hfound
      exact absurd hvalue (hstr s)

theorem isGlobalRole_eq_ok {role : Json} {found : Bool} (h : isGlobalRole role = .ok found) :
    found = true ↔ IsSuperAdmin role := by
  cases role with
  | obj fields =>
      have hone : isOneOf globalOnlyRealmRoleNames (getD fields "name".toList) = .ok found := h
      rw [isOneOf_eq_ok hone]
      show _ ↔ field fields "name".toList = _
      rw [← getD_eq_str]
      unfold globalOnlyRealmRoleNames
      constructor
      · intro hfound
        obtain ⟨s, hs, hvalue⟩ := hfound
        rw [hvalue, List.mem_singleton.mp hs]
        rfl
      · intro hvalue
        exact ⟨superAdmin, List.mem_singleton_self _, hvalue⟩
  | _ =>
      have hfalse : false = found := Except.ok.inj h
      rw [← hfalse]
      constructor
      · intro hfound
        cases hfound
      · intro hname
        cases hname

/-- What is left of the realm roles. -/
theorem sanitizeRealmRoles_cases {roles sanitized : List Json}
    (h : sanitizeRealmRolesForPartialImport roles = .ok sanitized) :
    (∀ role ∈ sanitized, ¬ IsSuperAdmin role) ∧
      ((∃ role ∈ sanitized, CompositeRefers p role) ↔
        ∃ role ∈ roles, ¬ IsSuperAdmin role ∧ CompositeRefers p role) := by
  induction roles generalizing sanitized with
  | nil =>
      rw [← Except.ok.inj h]
      simp
  | cons role rest ih =>
      unfold sanitizeRealmRolesForPartialImport at h
      obtain ⟨isGlobal, hglobal, h⟩ := bind_eq_ok.mp h
      obtain ⟨role', hrole, h⟩ := bind_eq_ok.mp h
      obtain ⟨others, hothers, h⟩ := bind_eq_ok.mp h
      obtain ⟨hnames, hrefers⟩ := ih hothers
      have hkept := onDicts_role hrole
      have hsuper := isGlobalRole_eq_ok hglobal
      have hname : IsSuperAdmin role' ↔ IsSuperAdmin role := by
        unfold IsSuperAdmin
        rw [hkept _ (by decide) (by decide)]
      have hcomposite : CompositeRefers p role' ↔ CompositeRefers p role :=
        compositeRefers_congr (hkept _ (by decide) (by decide))
      rw [List.exists_mem_cons_iff, ← hrefers, ← Except.ok.inj h]
      by_cases hisSuper : IsSuperAdmin role
      · rw [hsuper.mpr hisSuper]
        refine ⟨hnames, ?_⟩
        simp [hisSuper]
      · have hfalse : isGlobal = false := by
          rw [← Bool.not_eq_true, hsuper]
          exact hisSuper
        rw [hfalse, if_neg Bool.false_ne_true, List.forall_mem_cons, List.exists_mem_cons_iff, hname, hcomposite]
        exact ⟨⟨hisSuper, hnames⟩, by simp [hisSuper]⟩

end Import

section Import

variable {full payload : Fields} {settings : RealmSettings} {p : Text → Prop}

/-- The roles of one client. -/
theorem updateItems_roles {roles roles' : Json}
    (h : updateItems sanitizeRoleIdentifiers roles = .ok roles') :
    (∃ role ∈ roles'.items, CompositeRefers p role) ↔ ∃ role ∈ roles.items, CompositeRefers p role := by
  unfold updateItems at h
  split at h
  · rename_i items
    obtain ⟨items', hitems, hroles⟩ := map_eq_ok.mp h
    rw [← hroles]
    show (∃ role ∈ items', _) ↔ ∃ role ∈ items, _
    have hall := mapM_eq_ok.mp hitems
    clear hitems hroles h
    induction hall with
    | nil => rfl
    | cons hrole _ ih =>
        rw [List.exists_mem_cons_iff, List.exists_mem_cons_iff]
        exact or_congr (compositeRefers_congr (onDicts_role hrole _ (by decide) (by decide))) ih
  · obtain ⟨_, _, hroles⟩ := map_eq_ok.mp h
    rw [hroles]

theorem sanitizeClientRoles_refers {clients clients' : Json}
    (h : sanitizeClientRolesForPartialImport clients = .ok clients') :
    (∃ role ∈ clients'.fields.flatMap fun entry => entry.2.items, CompositeRefers p role) ↔
      ∃ role ∈ clients.fields.flatMap fun entry => entry.2.items, CompositeRefers p role := by
  unfold sanitizeClientRolesForPartialImport at h
  split at h
  · rename_i fields
    obtain ⟨fields', hfields, hclients⟩ := map_eq_ok.mp h
    rw [← hclients]
    show (∃ role ∈ fields'.flatMap _, _) ↔ ∃ role ∈ fields.flatMap _, _
    have hall := mapM_eq_ok.mp hfields
    clear hfields hclients h
    induction hall with
    | nil => rfl
    | @cons entry entry' rest rest' hentry _ ih =>
        have hroles : (∃ role ∈ entry'.2.items, CompositeRefers p role) ↔
            ∃ role ∈ entry.2.items, CompositeRefers p role := by
          split at hentry
          · obtain ⟨roles, hroles, hsame⟩ := map_eq_ok.mp hentry
            rw [← hsame]
            exact updateItems_roles hroles
          · rw [Except.ok.inj hentry]
        simp only [List.flatMap_cons, List.mem_append, or_and_right, exists_or, ih, hroles]
  · rw [Except.ok.inj h]

/-- The realm roles that are imported. -/
theorem import_realm {roles roles' : Fields}
    (h : updateField roles "realm".toList (fun realmRoles => do
      let sanitized ← sanitizeRealmRolesForPartialImport (← loop (orEmpty realmRoles))
      return .arr sanitized) = .ok roles') :
    (∀ role ∈ (getD roles' "realm".toList).items, ¬ IsSuperAdmin role) ∧
      ((∃ role ∈ (getD roles' "realm".toList).items, CompositeRefers p role) ↔
        ∃ role ∈ (getD roles "realm".toList).items, ¬ IsSuperAdmin role ∧ CompositeRefers p role) := by
  cases hfield : field roles "realm".toList with
  | none =>
      rw [field_updateField_none h hfield]
      unfold getD
      rw [hfield]
      simp [items]
  | some realmRoles =>
      obtain ⟨sanitized', hsanitized, hafter⟩ := (field_updateField h).2 _ hfield
      obtain ⟨values, hloop, hsanitized⟩ := bind_eq_ok.mp hsanitized
      obtain ⟨sanitized, hroles, hsame⟩ := bind_eq_ok.mp hsanitized
      unfold getD
      rw [hfield, hafter, ← Except.ok.inj hsame]
      show (∀ role ∈ sanitized, _) ∧ ((∃ role ∈ sanitized, _) ↔ ∃ role ∈ realmRoles.items, _)
      obtain ⟨hnames, hrefers⟩ := sanitizeRealmRoles_cases (p := p) hroles
      refine ⟨hnames, hrefers.trans ?_⟩
      rw [← items_orEmpty realmRoles]
      rcases loop_items hloop with hitems | ⟨hnone, htexts⟩
      · rw [hitems]
      · rw [hnone]
        constructor
        · intro hrole
          obtain ⟨role, hmem, _, hrefers⟩ := hrole
          exact absurd hrefers (not_compositeRefers (htexts role hmem))
        · intro hrole
          obtain ⟨_, hmem, _⟩ := hrole
          cases hmem

/-- The roles of the import. -/
theorem import_roles {roles roles' : Json} (h : sanitizeRolesForPartialImport roles = .ok roles') :
    (∀ role ∈ (getD roles'.fields "realm".toList).items, ¬ IsSuperAdmin role) ∧
      ((∃ role ∈ (getD roles'.fields "realm".toList).items, CompositeRefers p role) ↔
        ∃ role ∈ (getD roles.fields "realm".toList).items,
          ¬ IsSuperAdmin role ∧ CompositeRefers p role) ∧
      ((∃ role ∈ (getD roles'.fields "client".toList).fields.flatMap fun entry => entry.2.items,
          CompositeRefers p role) ↔
        ∃ role ∈ (getD roles.fields "client".toList).fields.flatMap fun entry => entry.2.items,
          CompositeRefers p role) := by
  unfold sanitizeRolesForPartialImport at h
  split at h
  · rename_i fields
    obtain ⟨withRealm, hrealm, h⟩ := bind_eq_ok.mp h
    obtain ⟨withClient, hclient, h⟩ := bind_eq_ok.mp h
    rw [← Except.ok.inj h]
    show (∀ role ∈ (getD withClient _).items, _) ∧ ((∃ role ∈ (getD withClient _).items, _) ↔
        ∃ role ∈ (getD fields _).items, _) ∧ ((∃ role ∈ (getD withClient _).fields.flatMap _, _) ↔
        ∃ role ∈ (getD fields _).fields.flatMap _, _)
    refine ⟨?_, ?_, ?_⟩
    · rw [getD_updateField hclient (by decide)]
      exact (import_realm hrealm (p := p)).1
    · rw [getD_updateField hclient (by decide)]
      exact (import_realm hrealm).2
    · rw [← getD_updateField hrealm (by decide : "realm".toList ≠ "client".toList)]
      cases hfield : field withRealm "client".toList with
      | none =>
          rw [field_updateField_none hclient hfield]
      | some clients =>
          obtain ⟨clients', hclients, hafter⟩ := (field_updateField hclient).2 _ hfield
          unfold getD
          rw [hfield, hafter]
          exact sanitizeClientRoles_refers hclients
  · cases h

end Import

/-! ## Groups -/

section Groups

variable {p : Text → Prop}

/-- What is kept of the groups: who refers to what. -/
def KeepsGroups (p : Text → Prop) (value : Json) : Prop :=
  (∀ value', stripGroupIds value = .ok value' → (GroupRefers p value' ↔ GroupRefers p value)) ∧
    ∀ value', stripSubGroups value = .ok value' →
      (GroupsRefer p value'.items ↔ GroupsRefer p value.items)

theorem stripGroups_refer {groups groups' : List Json} (hkeep : ∀ group ∈ groups, KeepsGroups p group)
    (h : stripGroups groups = .ok groups') : GroupsRefer p groups' ↔ GroupsRefer p groups := by
  induction groups generalizing groups' with
  | nil =>
      rw [stripGroups] at h
      rw [← Except.ok.inj h]
  | cons group rest ih =>
      rw [stripGroups] at h
      obtain ⟨group', hgroup, h⟩ := bind_eq_ok.mp h
      obtain ⟨rest', hrest, h⟩ := bind_eq_ok.mp h
      rw [List.forall_mem_cons] at hkeep
      rw [← Except.ok.inj h, groupsRefer_cons, groupsRefer_cons, hkeep.1.1 _ hgroup,
        ih hkeep.2 hrest]

/-- The entries of a group that matter are kept. -/
theorem stripGroupFields_refer {fields fields' : Fields}
    (hkeep : ∀ entry ∈ fields, KeepsGroups p entry.2) (h : stripGroupFields fields = .ok fields') :
    getD fields' "realmRoles".toList = getD fields "realmRoles".toList ∧
      (GroupsRefer p (getD fields' "subGroups".toList).items ↔
        GroupsRefer p (getD fields "subGroups".toList).items) := by
  induction fields generalizing fields' with
  | nil =>
      rw [stripGroupFields] at h
      rw [← Except.ok.inj h]
      exact ⟨rfl, Iff.rfl⟩
  | cons entry rest ih =>
      obtain ⟨key, value⟩ := entry
      rw [stripGroupFields] at h
      obtain ⟨rest', hrest, h⟩ := bind_eq_ok.mp h
      rw [List.forall_mem_cons] at hkeep
      obtain ⟨hroles, hsubs⟩ := ih hkeep.2 hrest
      have hid : "id".toList ≠ "realmRoles".toList := by decide
      have hidSub : "id".toList ≠ "subGroups".toList := by decide
      have hsub : "subGroups".toList ≠ "realmRoles".toList := by decide
      by_cases hkeyId : key = "id".toList
      · rw [if_pos hkeyId] at h
        rw [← Except.ok.inj h, hkeyId, getD_cons_ne hid, getD_cons_ne hidSub]
        exact ⟨hroles, hsubs⟩
      · rw [if_neg hkeyId] at h
        by_cases hkeySub : key = "subGroups".toList
        · rw [if_pos hkeySub] at h
          obtain ⟨value', hvalue, h⟩ := bind_eq_ok.mp h
          rw [← Except.ok.inj h, hkeySub, getD_cons_ne hsub, getD_cons_ne hsub, getD_cons_self,
            getD_cons_self]
          exact ⟨hroles, hkeep.1.2 _ hvalue⟩
        · rw [if_neg hkeySub] at h
          rw [← Except.ok.inj h, getD_cons_ne hkeySub, getD_cons_ne hkeySub, getD_cons, getD_cons,
            hroles]
          exact ⟨rfl, hsubs⟩

theorem keepsGroups (value : Json) : KeepsGroups p value := by
  have hplain : ∀ value : Json, (∀ fields, value ≠ .obj fields) → (∀ items, value ≠ .arr items) →
      KeepsGroups p value := by
    intro value hobj harr
    constructor
    · intro value' h
      rw [stripGroupIds] at h
      · rw [Except.ok.inj h]
      · exact hobj
    · intro value' h
      rw [stripSubGroups] at h
      · split at h
        · obtain ⟨_, _, hsame⟩ := map_eq_ok.mp h
          rw [hsame]
        · rw [Except.ok.inj h]
      · exact harr
  induction value using Json.induct with
  | null => exact hplain _ (by simp) (by simp)
  | bool b => exact hplain _ (by simp) (by simp)
  | num n => exact hplain _ (by simp) (by simp)
  | str s => exact hplain _ (by simp) (by simp)
  | arr items ih =>
      constructor
      · intro value' h
        rw [stripGroupIds] at h
        · rw [Except.ok.inj h]
        · simp
      · intro value' h
        rw [stripSubGroups] at h
        obtain ⟨items', hitems, hvalue⟩ := map_eq_ok.mp h
        rw [← hvalue]
        exact stripGroups_refer ih hitems
  | obj fields ih =>
      constructor
      · intro value' h
        rw [stripGroupIds] at h
        obtain ⟨fields', hfields, hvalue⟩ := map_eq_ok.mp h
        obtain ⟨hroles, hsubs⟩ := stripGroupFields_refer ih hfields
        rw [← hvalue, groupRefers_obj, groupRefers_obj, hroles, hsubs]
      · intro value' h
        rw [stripSubGroups] at h
        · split at h
          · obtain ⟨_, _, hvalue⟩ := map_eq_ok.mp h
            rw [← hvalue]
          · rw [Except.ok.inj h]
        · simp

theorem import_groups {groups groups' : Json} (h : sanitizeGroupsForPartialImport groups = .ok groups') :
    GroupsRefer p groups'.items ↔ GroupsRefer p groups.items := by
  unfold sanitizeGroupsForPartialImport at h
  split at h
  · obtain ⟨items', hitems, hgroups⟩ := map_eq_ok.mp h
    rw [← hgroups]
    exact stripGroups_refer (fun group _ => keepsGroups group) hitems
  · obtain ⟨_, _, hgroups⟩ := map_eq_ok.mp h
    rw [hgroups]

end Groups

/-! ## Users -/

theorem not_hasText_of_withoutGlobalRoles {roles kept : List Json}
    (h : withoutGlobalRoles roles = .ok kept) : .str superAdmin ∉ kept := by
  induction roles generalizing kept with
  | nil =>
      rw [← Except.ok.inj h]
      exact List.not_mem_nil
  | cons role rest ih =>
      unfold withoutGlobalRoles at h
      obtain ⟨isGlobal, hglobal, h⟩ := bind_eq_ok.mp h
      obtain ⟨others, hothers, h⟩ := bind_eq_ok.mp h
      rw [← Except.ok.inj h]
      split
      · exact ih hothers
      · rename_i hnot
        rw [List.mem_cons, not_or]
        refine ⟨?_, ih hothers⟩
        intro hrole
        exact hnot ((isOneOf_eq_ok hglobal).mpr
          ⟨superAdmin, List.mem_singleton_self _, hrole.symm⟩)

/-- The realm roles of a user, and the rest of it. -/
theorem sanitizeUserRealmRoles_kept {user user' : Fields} (h : sanitizeUserRealmRoles user = .ok user') :
    field user' "username".toList = field user "username".toList ∧
      ¬ HasText (· = superAdmin) (getD user' "realmRoles".toList) := by
  unfold sanitizeUserRealmRoles at h
  split at h
  · obtain ⟨kept, hkept, huser⟩ := map_eq_ok.mp h
    rw [← huser, field_set, if_neg (by decide), getD_set, if_pos rfl]
    refine ⟨rfl, ?_⟩
    intro hrole
    obtain ⟨s, hmem, hs⟩ := hrole
    rw [hs] at hmem
    exact not_hasText_of_withoutGlobalRoles hkept hmem
  · rename_i hlist
    rw [← Except.ok.inj h]
    refine ⟨rfl, ?_⟩
    intro hrole
    obtain ⟨s, hmem, _⟩ := hrole
    unfold getD at hmem
    cases hfield : field user "realmRoles".toList with
    | none =>
        rw [hfield] at hmem
        cases hmem
    | some value =>
        rw [hfield] at hmem
        cases value with
        | arr items => exact hlist items hfield
        | _ => cases hmem

/-- The users that are imported neither are nor have the role. -/
theorem sanitizeUser_some {user user' : Json} (h : sanitizeUserForPartialImport user = .ok (some user')) :
    field user'.fields "username".toList ≠ some (.str superAdmin) ∧
      ¬ HasText (· = superAdmin) (getD user'.fields "realmRoles".toList) := by
  have hplain : ∀ user : Json, user.fields = [] →
      field user.fields "username".toList ≠ some (.str superAdmin) ∧
        ¬ HasText (· = superAdmin) (getD user.fields "realmRoles".toList) := by
    intro user hfields
    rw [hfields]
    constructor
    · intro hname
      cases hname
    · intro hrole
      obtain ⟨s, hmem, _⟩ := hrole
      cases hmem
  cases user with
  | null => cases Except.ok.inj h
  | obj fields =>
      unfold sanitizeUserForPartialImport at h
      obtain ⟨isGlobal, hglobal, h⟩ := bind_eq_ok.mp h
      cases isGlobal with
      | true => cases Except.ok.inj h
      | false =>
          obtain ⟨withRoles, hroles, h⟩ := bind_eq_ok.mp h
          obtain ⟨withCredentials, hcredentials, h⟩ := bind_eq_ok.mp h
          rw [← Option.some.inj (Except.ok.inj h)]
          show field withCredentials _ ≠ _ ∧ ¬ HasText _ (getD withCredentials _)
          obtain ⟨hname, hhas⟩ := sanitizeUserRealmRoles_kept hroles
          rw [(field_updateField hcredentials).1 _ (by decide), getD_updateField hcredentials (by decide),
            hname, field_pop, if_neg (by decide)]
          refine ⟨?_, hhas⟩
          intro husername
          have htrue := (isOneOf_eq_ok hglobal).mpr
            ⟨superAdmin, List.mem_singleton_self _, getD_eq_str.mpr husername⟩
          cases htrue
  | _ =>
      rw [← Option.some.inj (Except.ok.inj h)]
      exact hplain _ rfl

theorem sanitizeUsers_cases {users sanitized : List Json} (h : sanitizeUsers users = .ok sanitized) :
    ∀ user ∈ sanitized, field user.fields "username".toList ≠ some (.str superAdmin) ∧
      ¬ HasText (· = superAdmin) (getD user.fields "realmRoles".toList) := by
  induction users generalizing sanitized with
  | nil =>
      rw [← Except.ok.inj h]
      exact fun _ hmem => absurd hmem List.not_mem_nil
  | cons value rest ih =>
      unfold sanitizeUsers at h
      obtain ⟨first, hfirst, h⟩ := bind_eq_ok.mp h
      obtain ⟨others, hothers, h⟩ := bind_eq_ok.mp h
      rw [← Except.ok.inj h]
      intro user huser
      rcases List.mem_append.mp huser with hone | hmore
      · rw [Option.mem_toList.mp hone] at hfirst
        exact sanitizeUser_some hfirst
      · exact ih hothers user hmore

theorem import_users {users users' : Json} (h : sanitizeUsersForPartialImport users = .ok users') :
    ∀ user ∈ users'.items, field user.fields "username".toList ≠ some (.str superAdmin) ∧
      ¬ HasText (· = superAdmin) (getD user.fields "realmRoles".toList) := by
  unfold sanitizeUsersForPartialImport at h
  obtain ⟨values, _, h⟩ := bind_eq_ok.mp h
  obtain ⟨sanitized, hsanitized, h⟩ := bind_eq_ok.mp h
  rw [← Except.ok.inj h]
  exact sanitizeUsers_cases hsanitized

/-! ## The filled template -/

section Fill

variable {p : Text → Prop}

theorem mapItems_eq_map (f : Text → Text) (items : List Json) :
    mapItems f items = items.map (mapTexts f) := by
  induction items with
  | nil => rw [mapItems, List.map_nil]
  | cons item rest ih => rw [mapItems, ih, List.map_cons]

theorem mapFields_eq_map (f : Text → Text) (fields : Fields) :
    mapFields f fields = fields.map fun entry => (entry.1, mapTexts f entry.2) := by
  induction fields with
  | nil => rw [mapFields, List.map_nil]
  | cons entry rest ih =>
      obtain ⟨key, value⟩ := entry
      rw [mapFields, ih, List.map_cons]

theorem field_mapFields (f : Text → Text) (fields : Fields) (key : Text) :
    field (mapFields f fields) key = (field fields key).map (mapTexts f) := by
  rw [mapFields_eq_map, field_map]

theorem getD_mapFields (f : Text → Text) (fields : Fields) (key : Text) :
    getD (mapFields f fields) key = mapTexts f (getD fields key) := by
  unfold getD
  rw [field_mapFields]
  cases field fields key with
  | none => simp [mapTexts]
  | some value => rfl

theorem items_mapTexts (f : Text → Text) (value : Json) :
    (mapTexts f value).items = value.items.map (mapTexts f) := by
  cases value with
  | arr items =>
      rw [mapTexts, mapItems_eq_map]
      rfl
  | _ => simp [mapTexts, items]

theorem fields_mapTexts (f : Text → Text) (value : Json) :
    (mapTexts f value).fields = mapFields f value.fields := by
  cases value with
  | obj fields =>
      rw [mapTexts]
      rfl
  | _ => simp [mapTexts, fields, mapFields]

theorem mapTexts_eq_str {f : Text → Text} {value : Json} {s : Text} :
    mapTexts f value = .str s ↔ ∃ t, value = .str t ∧ f t = s := by
  cases value with
  | str t => simp [mapTexts]
  | _ => simp [mapTexts]

theorem hasText_mapTexts (f : Text → Text) (value : Json) :
    HasText p (mapTexts f value) ↔ HasText (fun s => p (f s)) value := by
  unfold HasText
  rw [items_mapTexts]
  constructor
  · intro h
    obtain ⟨s, hmem, hs⟩ := h
    obtain ⟨item, hitem, hsame⟩ := List.mem_map.mp hmem
    obtain ⟨t, ht, hft⟩ := mapTexts_eq_str.mp hsame
    rw [← hft] at hs
    exact ⟨t, ht ▸ hitem, hs⟩
  · intro h
    obtain ⟨t, hmem, ht⟩ := h
    exact ⟨f t, List.mem_map.mpr ⟨.str t, hmem, mapTexts_eq_str.mpr ⟨t, rfl, rfl⟩⟩, ht⟩

theorem compositeRefers_mapTexts (f : Text → Text) (role : Json) :
    CompositeRefers p (mapTexts f role) ↔ CompositeRefers (fun s => p (f s)) role := by
  unfold CompositeRefers
  rw [fields_mapTexts, getD_mapFields, fields_mapTexts, getD_mapFields, hasText_mapTexts]

/-- Groups with their texts replaced refer to what the replaced texts are. -/
theorem groupRefers_mapTexts (f : Text → Text) (value : Json) :
    (GroupRefers p (mapTexts f value) ↔ GroupRefers (fun s => p (f s)) value) ∧
      (GroupsRefer p (mapTexts f value).items ↔ GroupsRefer (fun s => p (f s)) value.items) := by
  have hplain : ∀ value : Json, (∀ fields, value ≠ .obj fields) → (∀ fields, mapTexts f value ≠ .obj fields) →
      (GroupRefers p (mapTexts f value) ↔ GroupRefers (fun s => p (f s)) value) := by
    intro value hvalue hmapped
    constructor
    · intro h
      cases hm : mapTexts f value with
      | obj fields => exact absurd hm (hmapped fields)
      | _ => rw [hm] at h; cases h
    · intro h
      cases value with
      | obj fields => exact absurd rfl (hvalue fields)
      | _ => cases h
  have hnone : GroupsRefer p [] ↔ GroupsRefer (fun s => p (f s)) [] := by simp [GroupsRefer]
  induction value using Json.induct with
  | arr items ih =>
      refine ⟨hplain _ (by simp) (by simp [mapTexts]), ?_⟩
      rw [items_mapTexts]
      show GroupsRefer p (items.map _) ↔ GroupsRefer _ items
      induction items with
      | nil => exact hnone
      | cons item rest ih' =>
          rw [List.forall_mem_cons] at ih
          rw [List.map_cons, groupsRefer_cons, groupsRefer_cons, ih.1.1, ih' ih.2]
  | obj fields ih =>
      refine ⟨?_, by rw [items_mapTexts]; exact hnone⟩
      have hsub : GroupsRefer p (mapTexts f (getD fields "subGroups".toList)).items ↔
          GroupsRefer (fun s => p (f s)) (getD fields "subGroups".toList).items := by
        unfold getD
        cases hfield : field fields "subGroups".toList with
        | none =>
            rw [items_mapTexts]
            exact hnone
        | some value => exact (ih _ (mem_of_field hfield)).2
      rw [mapTexts, groupRefers_obj, groupRefers_obj, getD_mapFields, getD_mapFields, hasText_mapTexts,
        hsub]
  | null => exact ⟨hplain _ (by simp) (by simp [mapTexts]), by rw [items_mapTexts]; exact hnone⟩
  | bool b => exact ⟨hplain _ (by simp) (by simp [mapTexts]), by rw [items_mapTexts]; exact hnone⟩
  | num n => exact ⟨hplain _ (by simp) (by simp [mapTexts]), by rw [items_mapTexts]; exact hnone⟩
  | str s => exact ⟨hplain _ (by simp) (by simp [mapTexts]), by rw [items_mapTexts]; exact hnone⟩

theorem groupsRefer_mapTexts (f : Text → Text) (groups : List Json) :
    GroupsRefer p (groups.map (mapTexts f)) ↔ GroupsRefer (fun s => p (f s)) groups := by
  have h := (groupRefers_mapTexts (p := p) f (.arr groups)).2
  rw [items_mapTexts] at h
  exact h

/-! ### Merging the default groups -/

/-- An update that keeps what a group refers to, or a new group that refers to nothing. -/
theorem updateFirst_refers {q : Json → Bool} {update : Json → Json} {added : Json}
    (hupdate : ∀ group, q group = true → (GroupRefers p (update group) ↔ GroupRefers p group))
    (hadded : ¬ GroupRefers p added) (groups : List Json) :
    GroupsRefer p (updateFirst q update added groups) ↔ GroupsRefer p groups := by
  induction groups with
  | nil =>
      rw [updateFirst, groupsRefer_cons]
      simp [hadded]
  | cons group rest ih =>
      rw [updateFirst]
      split
      · rename_i hq
        rw [groupsRefer_cons, groupsRefer_cons, hupdate group hq]
      · rw [groupsRefer_cons, groupsRefer_cons, ih]

theorem getD_setDefault {fields : Fields} {key other : Text} (h : key ≠ other) (value : Json) :
    getD (setDefault fields key value) other = getD fields other := by
  unfold getD
  rw [field_setDefault h]

theorem adoptGroup_refers {segment candidatePath : Text} {below : List Json → List Json}
    (hbelow : ∀ groups, GroupsRefer p (below groups) ↔ GroupsRefer p groups) (group : Fields) :
    GroupRefers p (.obj (adoptGroup segment candidatePath below group)) ↔ GroupRefers p (.obj group) := by
  have hsub : ∀ key, key ≠ "name".toList → key ≠ "path".toList →
      getD (setDefault (setDefault group "name".toList (.str segment)) "path".toList
        (.str candidatePath)) key = getD group key := by
    intro key hname hpath
    rw [getD_setDefault (Ne.symm hpath), getD_setDefault (Ne.symm hname)]
  rw [groupRefers_obj, groupRefers_obj]
  unfold adoptGroup subGroupsOf
  dsimp only
  rw [getD_set, if_neg (by decide), getD_set, if_pos rfl, hsub _ (by decide) (by decide)]
  apply or_congr Iff.rfl
  show GroupsRefer p (below (getD _ _).items) ↔ _
  rw [hbelow, hsub _ (by decide) (by decide)]

theorem not_newGroup_refers {segment candidatePath : Text} {below : List Json → List Json}
    (hbelow : ∀ groups, GroupsRefer p (below groups) ↔ GroupsRefer p groups) :
    ¬ GroupRefers p (newGroup segment candidatePath below) := by
  unfold newGroup
  rw [groupRefers_obj]
  intro h
  rcases h with ⟨s, hmem, _⟩ | hsub
  · cases hmem
  · exact not_groupsRefer_nil ((hbelow []).mp hsub)

theorem mergeSegments_refers (parentPath : Text) (segments : List Text) (groups : List Json) :
    GroupsRefer p (mergeSegments parentPath segments groups) ↔ GroupsRefer p groups := by
  induction segments generalizing parentPath groups with
  | nil => rw [mergeSegments]
  | cons segment rest ih =>
      rw [mergeSegments]
      apply updateFirst_refers
      · intro group hgroup
        cases group with
        | obj fields => exact adoptGroup_refers (ih _) fields
        | _ => cases hgroup
      · exact not_newGroup_refers (ih _)

theorem mergeGroups_refers {groups groups' : Json} {paths : List Text}
    (h : mergeDefaultOrganizationalGroups groups paths = .ok groups') :
    GroupsRefer p groups'.items ↔ GroupsRefer p groups.items := by
  unfold mergeDefaultOrganizationalGroups at h
  induction paths generalizing groups with
  | nil =>
      rw [List.foldlM_nil] at h
      rw [Except.ok.inj h]
  | cons path rest ih =>
      rw [List.foldlM_cons] at h
      obtain ⟨merged, hmerged, h⟩ := bind_eq_ok.mp h
      rw [ih h]
      unfold mergeGroupPathIntoKeycloakGroups at hmerged
      split at hmerged
      · rw [Except.ok.inj hmerged]
      · split at hmerged
        · rw [← Except.ok.inj hmerged]
          exact mergeSegments_refers _ _ _
        · cases hmerged
        · cases hmerged
        · cases hmerged

end Fill

/-! ### Roles -/

section Roles

variable {settings : RealmSettings} {names : Renaming} {payload after full template : Fields}

/-- A realm role in the filled template, before the placeholders are replaced. -/
def Retargeted (names : Renaming) (role role' : Json) : Prop :=
  role'.fields = retargetRole names role.fields

theorem field_retarget {key old new other : Text} (h : key ≠ other) (fields : Fields) :
    field (retarget key old new fields) other = field fields other := by
  unfold retarget
  split
  · rw [field_set, if_neg h]
  · rfl

theorem retargeted_composites {role role' : Json} (h : Retargeted names role role') :
    field role'.fields "composites".toList = field role.fields "composites".toList := by
  unfold Retargeted retargetRole at h
  rw [h, field_retarget (by decide), field_retarget (by decide)]

theorem updateDicts_retarget {roles roles' : Json}
    (h : updateDicts (retargetRole names) roles = .ok roles') :
    List.Forall₂ (Retargeted names) roles.items roles'.items := by
  unfold updateDicts at h
  split at h
  · split at h
    · obtain ⟨items', hitems, hroles⟩ := map_eq_ok.mp h
      rw [← hroles]
      refine (mapM_eq_ok.mp hitems).imp ?_
      intro role role' hrole
      unfold onDict at hrole
      split at hrole
      · rw [← Except.ok.inj hrole]
        rfl
      · cases hrole
    · cases h
    · cases h
    · cases h
  · rename_i hfalsy
    rw [← Except.ok.inj h]
    cases roles with
    | arr items =>
        cases items with
        | nil => exact .nil
        | cons => exact absurd rfl hfalsy
    | _ => exact .nil

/-- The roles of the clients stay, and the realm roles are retargeted. -/
theorem retargetRealmRoles_kept (h : retargetRealmRoles names payload = .ok after) :
    (∀ key, key ≠ "roles".toList → getD after key = getD payload key) ∧
      List.Forall₂ (Retargeted names) (realmRolesOf payload) (realmRolesOf after) ∧
      clientRolesOf after = clientRolesOf payload := by
  unfold retargetRealmRoles at h
  refine ⟨fun key hkey => getD_updateField h (Ne.symm hkey), ?_⟩
  unfold realmRolesOf clientRolesOf
  cases hfield : field payload "roles".toList with
  | none =>
      rw [field_updateField_none h hfield]
      unfold getD
      rw [hfield]
      exact ⟨.nil, rfl⟩
  | some roles =>
      obtain ⟨roles', hroles, hafter⟩ := (field_updateField h).2 _ hfield
      have hbefore : getD payload "roles".toList = roles := by
        unfold getD
        rw [hfield]
        rfl
      have hafterD : getD after "roles".toList = roles' := by
        unfold getD
        rw [hafter]
        rfl
      rw [hbefore, hafterD]
      split at hroles
      · split at hroles
        · rename_i fields _
          obtain ⟨fields', hfields, hsame⟩ := map_eq_ok.mp hroles
          rw [← hsame]
          have hclient : getD fields' "client".toList = getD fields "client".toList :=
            getD_updateField hfields (by decide)
          show List.Forall₂ _ (getD fields _).items (getD fields' _).items ∧
            (getD fields' _).fields.flatMap _ = (getD fields _).fields.flatMap _
          rw [hclient]
          refine ⟨?_, rfl⟩
          cases hrealm : field fields "realm".toList with
          | none =>
              rw [field_updateField_none hfields hrealm]
              unfold getD
              rw [hrealm]
              exact .nil
          | some realm =>
              obtain ⟨realm', hupdated, hrealm'⟩ := (field_updateField hfields).2 _ hrealm
              unfold getD
              rw [hrealm, hrealm']
              exact updateDicts_retarget hupdated
        · cases hroles
      · rename_i hfalsy
        rw [← Except.ok.inj hroles]
        refine ⟨?_, rfl⟩
        cases roles with
        | obj fields =>
            cases fields with
            | nil => exact .nil
            | cons => exact absurd rfl hfalsy
        | _ => exact .nil

theorem getD_renameDefaultRole {key : Text} (h : "defaultRole".toList ≠ key) :
    getD (renameDefaultRole names payload) key = getD payload key := by
  unfold renameDefaultRole
  split
  · rw [getD_set, if_neg h]
  · rfl

/-- What the filled template has for groups and roles. -/
theorem fillRealmTemplate_parts {realmId templateName : Text} {displayName : Option Text}
    (h : fillRealmTemplate settings template realmId displayName templateName = .ok full) :
    ∃ groups retargeted paths,
      mergeDefaultOrganizationalGroups (orEmpty (getD template "groups".toList)) paths = .ok groups ∧
      groupsOf full = groups.items.map (mapTexts (replaceRedirects settings)) ∧
      List.Forall₂ (Retargeted ⟨templateName, realmId⟩) (realmRolesOf template)
        (realmRolesOf retargeted) ∧
      clientRolesOf retargeted = clientRolesOf template ∧
      getD full "roles".toList =
        mapTexts (replaceRedirects settings) (getD retargeted "roles".toList) := by
  unfold fillRealmTemplate at h
  obtain ⟨paths, _, h⟩ := bind_eq_ok.mp h
  obtain ⟨groups, hgroups, h⟩ := bind_eq_ok.mp h
  obtain ⟨retargeted, hroles, h⟩ := bind_eq_ok.mp h
  obtain ⟨withUsers, husers, h⟩ := bind_eq_ok.mp h
  obtain ⟨withClients, hclients, h⟩ := bind_eq_ok.mp h
  obtain ⟨hkept, hrealm, hclientRoles⟩ := retargetRealmRoles_kept hroles
  have hstart : getD (set (pop (set (set template "realm".toList (.str realmId)) "displayName".toList
        (.str ((M8flow.Lib.truthy displayName).getD realmId))) "id".toList) "groups".toList groups)
      "roles".toList = getD template "roles".toList := by
    rw [getD_set, if_neg (by decide), getD_pop (by decide), getD_set, if_neg (by decide), getD_set,
      if_neg (by decide)]
  have hlater : ∀ key, key ≠ "users".toList → key ≠ "clients".toList → key ≠ "defaultRole".toList →
      getD withClients key = getD retargeted key := by
    intro key husersKey hclientsKey hdefault
    rw [getD_updateField hclients (Ne.symm hclientsKey), getD_updateField husers (Ne.symm husersKey),
      getD_renameDefaultRole (Ne.symm hdefault)]
  rw [← Except.ok.inj h]
  refine ⟨groups, retargeted, paths, ?_, ?_, ?_, ?_, ?_⟩
  · rw [getD_pop (by decide), getD_set, if_neg (by decide), getD_set, if_neg (by decide)] at hgroups
    exact hgroups
  · unfold groupsOf
    rw [getD_mapFields, items_mapTexts, hlater _ (by decide) (by decide) (by decide),
      hkept _ (by decide), getD_set, if_pos rfl]
  · unfold realmRolesOf at hrealm ⊢
    rw [hstart] at hrealm
    exact hrealm
  · unfold clientRolesOf at hclientRoles ⊢
    rw [hclientRoles, hstart]
  · rw [getD_mapFields, hlater _ (by decide) (by decide) (by decide)]

end Roles

/-! ## The import of a tenant -/

section Tenant

variable {settings : RealmSettings} {template payload : Fields} {realmId templateName : Text}
  {displayName : Option Text}

/-- A realm role of the filled template is left out exactly if the template's one is. -/
theorem isSuperAdmin_iff {names : Renaming} {role role' : Json} (h : Retargeted names role role') :
    IsSuperAdmin (mapTexts (replaceRedirects settings) role') ↔ LeftOut settings names role := by
  unfold IsSuperAdmin LeftOut BecomesSuperAdmin
  rw [fields_mapTexts, field_mapFields, ← h]
  cases field role'.fields "name".toList with
  | none => simp
  | some value =>
      rw [Option.map_some, Option.some.injEq, mapTexts_eq_str]
      simp only [Option.some.injEq]

theorem fields_orDict (value : Json) :
    (if value.truthy then value else .obj []).fields = value.fields := by
  split
  · rfl
  · rename_i hfalsy
    cases value with
    | obj fields =>
        cases fields with
        | nil => rfl
        | cons => exact absurd rfl hfalsy
    | _ => rfl

theorem clientItems_mapTexts (f : Text → Text) (clients : Json) :
    ((mapTexts f clients).fields.flatMap fun entry => entry.2.items) =
      (clients.fields.flatMap fun entry => entry.2.items).map (mapTexts f) := by
  rw [fields_mapTexts, mapFields_eq_map, List.flatMap_map, List.map_flatMap]
  simp only [items_mapTexts]

/-- The realm roles of the import that refer to the role. -/
theorem realmRoles_refer {names : Renaming} {retargeted : Fields}
    (h : List.Forall₂ (Retargeted names) (realmRolesOf template) (realmRolesOf retargeted)) :
    (∃ role ∈ (realmRolesOf retargeted).map (mapTexts (replaceRedirects settings)),
        ¬ IsSuperAdmin role ∧ CompositeRefers (· = superAdmin) role) ↔
      ∃ role ∈ realmRolesOf template, ¬ LeftOut settings names role ∧
        CompositeRefers (BecomesSuperAdmin settings) role := by
  simp only [List.mem_map, exists_exists_and_eq_and]
  apply (exists_mem_iff h _).symm
  intro role role' hrole
  rw [isSuperAdmin_iff hrole, compositeRefers_mapTexts, compositeRefers_congr (retargeted_composites hrole)]
  exact Iff.rfl

/-- The import of a template withholds the super-admin role exactly if no group of the
template, at any depth, and no role of it that is imported refers to that role. -/
theorem withholds_iff
    (h : tenantImport settings template realmId displayName templateName = .ok payload) :
    Withholds payload ↔ ¬ TemplateRefers settings ⟨templateName, realmId⟩ template := by
  obtain ⟨full, hfull, h⟩ := bind_eq_ok.mp h
  obtain ⟨groups, retargeted, paths, hmerged, hgroups, hrealm, hclient, hroles⟩ :=
    fillRealmTemplate_parts hfull
  obtain ⟨roles', groups', users', himportRoles, himportGroups, himportUsers, hpayloadRoles,
    hpayloadGroups, hpayloadUsers⟩ := partialImportPayload_parts h
  obtain ⟨hnames, hrealmRefer, hclientRefer⟩ := import_roles (p := (· = superAdmin)) himportRoles
  rw [fields_orDict, hroles, fields_mapTexts, getD_mapFields] at hrealmRefer hclientRefer
  rw [items_mapTexts] at hrealmRefer
  rw [clientItems_mapTexts] at hclientRefer
  have hrealmIff := hrealmRefer.trans (realmRoles_refer hrealm)
  have hclientIff : (∃ role ∈ (getD roles'.fields "client".toList).fields.flatMap (fun entry => entry.2.items),
      CompositeRefers (· = superAdmin) role) ↔
        ∃ role ∈ clientRolesOf template, CompositeRefers (BecomesSuperAdmin settings) role := by
    rw [hclientRefer, ← hclient]
    simp only [List.mem_map, exists_exists_and_eq_and, compositeRefers_mapTexts]
    exact Iff.rfl
  have hgroupIff : GroupsRefer (· = superAdmin) groups'.items ↔
      GroupsRefer (BecomesSuperAdmin settings) (groupsOf template) := by
    rw [import_groups himportGroups, items_orEmpty]
    show GroupsRefer _ (groupsOf full) ↔ _
    rw [hgroups, groupsRefer_mapTexts, mergeGroups_refers hmerged, items_orEmpty]
    exact Iff.rfl
  unfold TemplateRefers
  rw [← hrealmIff, ← hclientIff, ← hgroupIff, not_or, not_or]
  constructor
  · intro hwithholds
    refine ⟨?_, ?_, ?_⟩
    · have hnone := hwithholds.groups
      unfold groupsOf at hnone
      rw [hpayloadGroups] at hnone
      exact hnone
    · rintro ⟨role, hmem, hrefers⟩
      apply hwithholds.composites role _ hrefers
      unfold realmRolesOf
      rw [hpayloadRoles]
      exact List.mem_append_left _ hmem
    · rintro ⟨role, hmem, hrefers⟩
      apply hwithholds.composites role _ hrefers
      unfold clientRolesOf
      rw [hpayloadRoles]
      exact List.mem_append_right _ hmem
  · intro hnone
    obtain ⟨hnoGroup, hnoRealm, hnoClient⟩ := hnone
    constructor
    · unfold realmRolesOf
      rw [hpayloadRoles]
      exact hnames
    · unfold usersOf
      rw [hpayloadUsers]
      exact fun user huser => (import_users himportUsers user huser).1
    · unfold usersOf
      rw [hpayloadUsers]
      exact fun user huser => (import_users himportUsers user huser).2
    · unfold groupsOf
      rw [hpayloadGroups]
      exact hnoGroup
    · unfold realmRolesOf clientRolesOf
      rw [hpayloadRoles]
      intro role hmem hrefers
      rcases List.mem_append.mp hmem with hrealmRole | hclientRole
      · exact hnoRealm ⟨role, hrealmRole, hrefers⟩
      · exact hnoClient ⟨role, hclientRole, hrefers⟩

/-- Settings without public URLs and without default groups. -/
def bareSettings : RealmSettings where
  defaultGroupPaths := .ok []
  backendOrigin := none
  frontendOrigin := none
  backendVal := none
  frontendVal := none
  spokeClientId := "m8flow-backend".toList
  certificate := none

/-- A template with one group, and another one below it that has a role. -/
def groupTemplate (roleName : String) : Fields :=
  [("groups".toList, .arr [.obj [("name".toList, .str "staff".toList),
      ("subGroups".toList, .arr [.obj [("name".toList, .str "admins".toList),
        ("realmRoles".toList, .arr [.str roleName.toList])]])]]),
    ("users".toList, .arr [.obj [("username".toList, .str superAdmin)]])]

/-- A group with another role is harmless. -/
theorem editors_withheld : ∃ payload,
    tenantImport bareSettings (groupTemplate "editor") "acme".toList none "m8flow".toList = .ok payload ∧
      (Withholds payload ↔
        ¬ TemplateRefers bareSettings ⟨"m8flow".toList, "acme".toList⟩ (groupTemplate "editor")) :=
  ⟨_, rfl, withholds_iff rfl⟩

/-- The members of a group of the template are super-admins of the new realm. -/
theorem group_keeps_superAdmin : ∃ payload,
    tenantImport bareSettings (groupTemplate "super-admin") "acme".toList none "m8flow".toList =
        .ok payload ∧
      ¬ Withholds payload := by
  refine ⟨_, rfl, ?_⟩
  intro hwithholds
  apply hwithholds.groups
  refine ⟨_, List.mem_singleton_self _, .sub (List.mem_singleton_self _) (.own ?_)⟩
  exact ⟨superAdmin, List.mem_singleton_self _, rfl⟩

end Tenant

end M8flow.Keycloak
