import M8flow.Lib.Dict
import M8flow.Lib.Text
import Mathlib.Data.List.Dedup
import Mathlib.Data.List.Nodup

/-!
# Tenant scoping of stored JSON

`_tenant_scope_json_data` of the migration `b2c3d4e5f6a7`.  Payloads that all tenants
shared under a hash are copied into a table by tenant and hash, once for every tenant
with a row that refers to the hash, and the new table takes the place of the old one.

Hashes and tenants are stripped on the way, and the rows that refer to them are not.
`tenantScopeJsonData_iff` says when every reference still finds its payload: the migration
stops at one of its checks, or what the rows refer to is stripped as it stands and what
is copied is the payload that was there.

Text columns are compared as they are written.  Rows are inserted in the order of the
references; the code sorts them by tenant, which a table does not show.
-/

namespace M8flow.Migration

open M8flow.Lib

/-! ## The tables -/

/-- A row of `bpmn_process`, as far as it is read. -/
structure BpmnProcessRow where
  m8fTenantId : Option Text
  jsonDataHash : Option Text

/-- A row of `task`, as far as it is read. -/
structure TaskRow where
  m8fTenantId : Option Text
  jsonDataHash : Option Text
  pythonEnvDataHash : Option Text

/-- The tables that are read. -/
structure Referring where
  bpmnProcess : List BpmnProcessRow
  task : List TaskRow
  /-- `m8flow_tenant.id`. -/
  tenants : List Text

/-- A row of the table by tenant and hash. -/
structure ScopedRow (Payload : Type) where
  m8fTenantId : Text
  hash : Text
  data : Payload
  deriving DecidableEq

/-- `json_data`: there is none, it is shared by all tenants, or it is by tenant already. -/
inductive JsonData (Payload : Type) where
  | missing
  | shared (rows : Dict Text Payload)
  | byTenant (rows : List (ScopedRow Payload))

/-- The tables that are written; the stage table may be left from an earlier attempt. -/
structure Tables (Payload : Type) where
  jsonData : JsonData Payload
  stage : Option (List (ScopedRow Payload))

/-- What the database does: what a payload that was selected is stored as when it is inserted,
and whether foreign keys are checked. -/
structure Dialect (Payload : Type) where
  rewritten : Payload → Payload
  enforcesForeignKeys : Bool

/-! ## The migration -/

/-- The references: a tenant, where the row has one, and a hash. -/
def Referring.references (db : Referring) : List (Option Text × Text) :=
  (db.bpmnProcess.filterMap (fun row => row.jsonDataHash.map fun hash => (row.m8fTenantId, hash)) ++
    db.task.filterMap (fun row => row.jsonDataHash.map fun hash => (row.m8fTenantId, hash)) ++
      db.task.filterMap fun row =>
        row.pythonEnvDataHash.map fun hash => (row.m8fTenantId, hash)).dedup

/-- `set.add`. -/
def addTenant (tenants : List Text) (tenantId : Text) : List Text :=
  if tenantId ∈ tenants then tenants else tenants ++ [tenantId]

/-- One reference; without a tenant it is passed over. -/
def addReference (tenants : Dict Text (List Text)) (reference : Option Text × Text) :
    Dict Text (List Text) :=
  match reference.1 with
  | none => tenants
  | some tenantId =>
      let hash := reference.2.strip
      tenants.set hash (addTenant ((tenants.get? hash).getD []) tenantId.strip)

/-- `reference_tenants`. -/
def referenceTenants (references : List (Option Text × Text)) : Dict Text (List Text) :=
  references.foldl addReference Dict.empty

section Migrate

variable {Payload : Type}

/-- `json_rows`: the payloads by their stripped hashes. -/
def jsonRows (rows : Dict Text Payload) : Dict Text Payload :=
  Dict.ofEntries (rows.entries.map fun row => (row.1.strip, row.2))

/-- What is wrong with the references. -/
structure Rejection where
  invalidReferences : List (Option Text × Text)
  missingPayloads : List Text
  missingTenants : List Text
  deriving DecidableEq

/-- The three checks that come before any table is changed. -/
def checkReferences (db : Referring) (rows : Dict Text Payload) : Rejection where
  invalidReferences := db.references.filter fun reference => reference.1 = none
  missingPayloads :=
    (referenceTenants db.references).keys.filter fun hash => hash ∉ (jsonRows rows).keys
  missingTenants := (referenceTenants db.references).values.flatten.dedup.filter fun tenantId =>
    tenantId ∉ db.tenants.map Text.strip

inductive MigrationError where
  /-- `RuntimeError`, with all that was found. -/
  | runtimeError (rejection : Rejection)
  | keyError
  | integrityError
  deriving DecidableEq

/-- A row that is to be inserted, with what `json_rows` has for its hash. -/
structure Pending (Payload : Type) where
  m8fTenantId : Text
  hash : Text
  data : Option Payload

def pendingRows (db : Referring) (rows : Dict Text Payload) : List (Pending Payload) :=
  (referenceTenants db.references).entries.flatMap fun entry =>
    entry.2.map fun tenantId => ⟨tenantId, entry.1, (jsonRows rows).get? entry.1⟩

/-- The inserts into the stage table, up to the first that raises. -/
def insertAll (dialect : Dialect Payload) (tenants : List Text) :
    List (ScopedRow Payload) → List (Pending Payload) →
      List (ScopedRow Payload) × Option MigrationError
  | stage, [] => (stage, none)
  | stage, row :: rest =>
      match row.data with
      | none => (stage, some .keyError)
      | some data =>
          if (∃ old ∈ stage, old.m8fTenantId = row.m8fTenantId ∧ old.hash = row.hash) ∨
              (dialect.enforcesForeignKeys = true ∧ row.m8fTenantId ∉ tenants) then
            (stage, some .integrityError)
          else
            insertAll dialect tenants
              (stage ++ [⟨row.m8fTenantId, row.hash, dialect.rewritten data⟩]) rest

/-- `_tenant_scope_json_data`: the tables afterwards, and what was raised. -/
def tenantScopeJsonData (dialect : Dialect Payload) (db : Referring) (tables : Tables Payload) :
    Tables Payload × Option MigrationError :=
  match tables.jsonData with
  | .missing => (tables, none)
  | .byTenant _ => (tables, none)
  | .shared rows =>
      let rejection := checkReferences db rows
      if rejection ≠ ⟨[], [], []⟩ then (tables, some (.runtimeError rejection))
      else
        match insertAll dialect db.tenants [] (pendingRows db rows) with
        | (stage, some error) => ({ tables with stage := some stage }, some error)
        | (stage, none) => ({ jsonData := .byTenant stage, stage := none }, none)

/-! ## What is to hold -/

/-- A stored reference of a tenant. -/
def Refers (db : Referring) (tenantId hash : Text) : Prop := (some tenantId, hash) ∈ db.references

/-- The payload of a tenant's reference, looked up as it is stored. -/
def lookupScoped (rows : List (ScopedRow Payload)) (tenantId hash : Text) : Option Payload :=
  (rows.find? fun row => row.m8fTenantId = tenantId ∧ row.hash = hash).map ScopedRow.data

/-- Every reference has the payload it had, and every row is a reference's. -/
structure Kept (db : Referring) (rows : Dict Text Payload) (after : List (ScopedRow Payload)) :
    Prop where
  resolves : ∀ tenantId hash, Refers db tenantId hash →
    ∃ data, rows.get? hash = some data ∧ lookupScoped after tenantId hash = some data
  owns : ∀ row ∈ after, Refers db row.m8fTenantId row.hash ∧ rows.get? row.hash = some row.data

/-- The migration raises and leaves `json_data` as it was, or a shared table is scoped with every
reference kept. -/
def Safe (dialect : Dialect Payload) (db : Referring) (tables : Tables Payload) : Prop :=
  let result := tenantScopeJsonData dialect db tables
  (result.2 ≠ none ∧ result.1.jsonData = tables.jsonData) ∨
    (result.2 = none ∧
      ((∃ rows after, tables.jsonData = .shared rows ∧ result.1.jsonData = .byTenant after ∧
          Kept db rows after) ∨
        ((∀ rows, tables.jsonData ≠ .shared rows) ∧ result.1.jsonData = tables.jsonData)))

/-- What the migration stops at. -/
inductive Stops (dialect : Dialect Payload) (db : Referring) (rows : Dict Text Payload) : Prop where
  | nullTenant (hash : Text) (h : (none, hash) ∈ db.references)
  | missingPayload (tenantId hash : Text) (h : Refers db tenantId hash)
      (hmissing : hash.strip ∉ rows.keys.map Text.strip)
  | missingTenant (tenantId hash : Text) (h : Refers db tenantId hash)
      (hmissing : tenantId.strip ∉ db.tenants.map Text.strip)
  | foreignKey (tenantId hash : Text) (henforced : dialect.enforcesForeignKeys = true)
      (h : Refers db tenantId hash) (hmissing : tenantId.strip ∉ db.tenants)

/-- Every reference is stripped as it stands, and its own payload is what is copied for it. -/
def Exact (dialect : Dialect Payload) (db : Referring) (rows : Dict Text Payload) : Prop :=
  ∀ tenantId hash, Refers db tenantId hash → tenantId.strip = tenantId ∧ hash.strip = hash ∧
    ∃ data, (jsonRows rows).get? hash = some data ∧ rows.get? hash = some (dialect.rewritten data)

end Migrate

/-! ## The tenants of a hash -/

theorem mem_addTenant {tenants : List Text} {tenantId other : Text} :
    other ∈ addTenant tenants tenantId ↔ other ∈ tenants ∨ other = tenantId := by
  unfold addTenant
  split
  · rename_i hmem
    constructor
    · exact .inl
    · intro h
      cases h with
      | inl h => exact h
      | inr h => exact h ▸ hmem
  · rw [List.mem_append, List.mem_singleton]

theorem nodup_addTenant {tenants : List Text} (h : tenants.Nodup) (tenantId : Text) :
    (addTenant tenants tenantId).Nodup := by
  unfold addTenant
  split
  · exact h
  · rename_i hmem
    exact List.nodup_append.mpr ⟨h, List.nodup_singleton _, fun other hother last hlast hsame =>
      hmem (List.mem_singleton.mp hlast ▸ hsame ▸ hother)⟩

/-- The tenants that a dictionary has for a hash. -/
def tenantsOf (tenants : Dict Text (List Text)) (hash : Text) : List Text :=
  (tenants.get? hash).getD []

/-- One reference adds its tenant to those of its hash. -/
theorem tenantsOf_addReference (tenants : Dict Text (List Text)) (tenantId stored hash : Text) :
    tenantsOf (addReference tenants (some tenantId, stored)) hash =
      if hash = stored.strip then addTenant (tenantsOf tenants hash) tenantId.strip
      else tenantsOf tenants hash := by
  unfold addReference tenantsOf
  dsimp only
  rw [Dict.get?_set]
  split
  · rename_i hsame
    rw [Option.getD_some, hsame]
  · rfl

/-- A tenant is one of a hash exactly when a reference names both, stripped. -/
theorem mem_tenantsOf {references : List (Option Text × Text)} {hash tenantId : Text} :
    tenantId ∈ tenantsOf (referenceTenants references) hash ↔
      ∃ tenant stored, (some tenant, stored) ∈ references ∧ stored.strip = hash ∧
        tenant.strip = tenantId := by
  have hgeneral : ∀ tenants : Dict Text (List Text),
      tenantId ∈ tenantsOf (references.foldl addReference tenants) hash ↔
        tenantId ∈ tenantsOf tenants hash ∨ ∃ tenant stored, (some tenant, stored) ∈ references ∧
          stored.strip = hash ∧ tenant.strip = tenantId := by
    induction references with
    | nil => exact fun tenants => by simp
    | cons reference references ih =>
        intro tenants
        obtain ⟨named, stored⟩ := reference
        rw [List.foldl_cons, ih]
        cases named with
        | none => simp [addReference]
        | some tenant =>
            rw [tenantsOf_addReference]
            constructor
            · intro h
              obtain h | ⟨other, otherHash, hmem, hboth⟩ := h
              · split at h
                · rename_i hhash
                  cases mem_addTenant.mp h with
                  | inl h => exact .inl h
                  | inr h => exact .inr ⟨tenant, stored, List.mem_cons_self, hhash.symm, h.symm⟩
                · exact .inl h
              · exact .inr ⟨other, otherHash, List.mem_cons_of_mem _ hmem, hboth⟩
            · intro h
              obtain h | ⟨other, otherHash, hmem, hhash, htenant⟩ := h
              · left
                split
                · exact mem_addTenant.mpr (.inl h)
                · exact h
              · cases List.mem_cons.mp hmem with
                | inl hfirst =>
                    cases hfirst
                    left
                    rw [if_pos hhash.symm]
                    exact mem_addTenant.mpr (.inr htenant.symm)
                | inr hmem => exact .inr ⟨other, otherHash, hmem, hhash, htenant⟩
  have hnone : tenantId ∉ tenantsOf Dict.empty hash := List.not_mem_nil
  unfold referenceTenants
  rw [hgeneral]
  exact or_iff_right hnone

/-- A property of the tenants of a hash that adding a tenant gives and keeps. -/
theorem referenceTenants_induct {p : List Text → Prop}
    (hadd : ∀ tenants tenantId, (tenants = [] ∨ p tenants) → p (addTenant tenants tenantId))
    (references : List (Option Text × Text)) :
    ∀ hash tenants, (referenceTenants references).get? hash = some tenants → p tenants := by
  have hgeneral : ∀ known : Dict Text (List Text),
      (∀ hash tenants, known.get? hash = some tenants → p tenants) →
      ∀ hash tenants, (references.foldl addReference known).get? hash = some tenants →
        p tenants := by
    induction references with
    | nil => exact fun known hknown => hknown
    | cons reference references ih =>
        intro known hknown
        rw [List.foldl_cons]
        apply ih
        obtain ⟨named, stored⟩ := reference
        cases named with
        | none => exact hknown
        | some tenant =>
            intro hash tenants hget
            unfold addReference at hget
            dsimp only at hget
            rw [Dict.get?_set] at hget
            split at hget
            · rw [← Option.some.inj hget]
              apply hadd
              cases hold : known.get? (Text.strip stored) with
              | none => exact .inl rfl
              | some old => exact .inr (hknown _ old hold)
            · exact hknown hash tenants hget
  exact hgeneral Dict.empty fun hash tenants h => by cases h

theorem nodup_of_get? {references : List (Option Text × Text)} {hash : Text} {tenants : List Text}
    (h : (referenceTenants references).get? hash = some tenants) : tenants.Nodup := by
  refine referenceTenants_induct (p := List.Nodup) ?_ references hash tenants h
  intro tenants tenantId hold
  cases hold with
  | inl hnil => exact nodup_addTenant (hnil ▸ List.nodup_nil) tenantId
  | inr hnodup => exact nodup_addTenant hnodup tenantId

theorem ne_nil_of_get? {references : List (Option Text × Text)} {hash : Text} {tenants : List Text}
    (h : (referenceTenants references).get? hash = some tenants) : tenants ≠ [] := by
  refine referenceTenants_induct (p := fun tenants => tenants ≠ []) ?_ references hash tenants h
  intro tenants tenantId _
  exact List.ne_nil_of_mem (mem_addTenant.mpr (.inr rfl))

/-- A hash is known exactly when a reference of a tenant has it. -/
theorem mem_keys_referenceTenants {references : List (Option Text × Text)} {hash : Text} :
    hash ∈ (referenceTenants references).keys ↔
      ∃ tenant stored, (some tenant, stored) ∈ references ∧ stored.strip = hash := by
  rw [Dict.mem_keys_iff]
  constructor
  · intro h
    obtain ⟨tenants, htenants⟩ := Option.ne_none_iff_exists'.mp h
    obtain ⟨tenantId, hmem⟩ := List.exists_mem_of_ne_nil _ (ne_nil_of_get? htenants)
    have htenant : tenantId ∈ tenantsOf (referenceTenants references) hash := by
      rw [tenantsOf, htenants]
      exact hmem
    obtain ⟨tenant, stored, href, hhash, -⟩ := mem_tenantsOf.mp htenant
    exact ⟨tenant, stored, href, hhash⟩
  · intro h hnone
    obtain ⟨tenant, stored, href, hhash⟩ := h
    have htenant : tenant.strip ∈ tenantsOf (referenceTenants references) hash :=
      mem_tenantsOf.mpr ⟨tenant, stored, href, hhash, rfl⟩
    rw [tenantsOf, hnone] at htenant
    cases htenant

section Check

variable {Payload : Type} {dialect : Dialect Payload} {db : Referring} {rows : Dict Text Payload}

theorem mem_keys_jsonRows {hash : Text} :
    hash ∈ (jsonRows rows).keys ↔ hash ∈ rows.keys.map Text.strip := by
  have hkeys : rows.keys.map Text.strip =
      (rows.entries.map fun row => (Text.strip row.1, row.2)).map Prod.fst := by
    rw [Dict.keys, List.map_map, List.map_map]
    rfl
  rw [hkeys]
  constructor
  · exact Dict.mem_of_mem_keys_ofEntries
  · exact Dict.mem_keys_ofEntries

/-- The checks pass exactly when no reference is one that they name. -/
theorem checkReferences_eq :
    checkReferences db rows = ⟨[], [], []⟩ ↔
      (∀ hash, (none, hash) ∉ db.references) ∧
      (∀ tenantId hash, Refers db tenantId hash → hash.strip ∈ rows.keys.map Text.strip) ∧
      ∀ tenantId hash, Refers db tenantId hash → tenantId.strip ∈ db.tenants.map Text.strip := by
  unfold checkReferences
  rw [Rejection.mk.injEq, List.filter_eq_nil_iff, List.filter_eq_nil_iff, List.filter_eq_nil_iff]
  refine and_congr ?_ (and_congr ?_ ?_)
  · constructor
    · intro h hash hmem
      exact h _ hmem (decide_eq_true rfl)
    · intro h reference hmem hnone
      obtain ⟨named, hash⟩ := reference
      have hnamed : named = none := of_decide_eq_true hnone
      rw [hnamed] at hmem
      exact h hash hmem
  · constructor
    · intro h tenantId hash href
      have hkey := mem_keys_referenceTenants.mpr ⟨tenantId, hash, href, rfl⟩
      by_contra hmissing
      exact h _ hkey (decide_eq_true fun hmem => hmissing (mem_keys_jsonRows.mp hmem))
    · intro h hash hkey hmissing
      obtain ⟨tenantId, stored, href, hhash⟩ := mem_keys_referenceTenants.mp hkey
      apply of_decide_eq_true hmissing
      rw [mem_keys_jsonRows, ← hhash]
      exact h tenantId stored href
  · constructor
    · intro h tenantId hash href
      by_contra hmissing
      refine h tenantId.strip ?_ (decide_eq_true hmissing)
      have hmem : tenantId.strip ∈ tenantsOf (referenceTenants db.references) hash.strip :=
        mem_tenantsOf.mpr ⟨tenantId, hash, href, rfl, rfl⟩
      unfold tenantsOf at hmem
      cases hget : (referenceTenants db.references).get? hash.strip with
      | none =>
          rw [hget] at hmem
          cases hmem
      | some tenants =>
          rw [hget] at hmem
          have hvalue := Dict.mem_values_of_get? hget
          exact List.mem_dedup.mpr (List.mem_flatten.mpr ⟨tenants, hvalue, hmem⟩)
    · intro h tenantId hmem hmissing
      obtain ⟨tenants, hvalue, htenant⟩ := List.mem_flatten.mp (List.mem_dedup.mp hmem)
      obtain ⟨entry, hentry, hsnd⟩ := List.mem_map.mp hvalue
      have hget : (referenceTenants db.references).get? entry.1 = some tenants :=
        Dict.get?_of_mem (hsnd ▸ hentry)
      have hof : tenantId ∈ tenantsOf (referenceTenants db.references) entry.1 := by
        rw [tenantsOf, hget]
        exact htenant
      obtain ⟨tenant, stored, href, -, hsame⟩ := mem_tenantsOf.mp hof
      exact of_decide_eq_true hmissing (hsame ▸ h tenant stored href)

/-! ## The copies -/

/-- A row waits to be inserted for the tenants and the hash of every reference, stripped. -/
theorem mem_pendingRows {row : Pending Payload} :
    row ∈ pendingRows db rows ↔
      (∃ tenantId hash, Refers db tenantId hash ∧ hash.strip = row.hash ∧
        tenantId.strip = row.m8fTenantId) ∧ row.data = (jsonRows rows).get? row.hash := by
  unfold pendingRows Refers
  rw [List.mem_flatMap, ← and_congr_left fun _ => mem_tenantsOf]
  constructor
  · intro h
    obtain ⟨entry, hentry, hmem⟩ := h
    obtain ⟨tenantId, htenant, hrow⟩ := List.mem_map.mp hmem
    have hget : (referenceTenants db.references).get? entry.1 = some entry.2 :=
      Dict.get?_of_mem hentry
    rw [← hrow]
    refine ⟨?_, rfl⟩
    rw [tenantsOf, hget]
    exact htenant
  · intro h
    obtain ⟨htenant, hdata⟩ := h
    unfold tenantsOf at htenant
    cases hget : (referenceTenants db.references).get? row.hash with
    | none =>
        rw [hget] at htenant
        cases htenant
    | some tenants =>
        rw [hget] at htenant
        refine ⟨(row.hash, tenants), Dict.get?_eq_some.mp hget, ?_⟩
        refine List.mem_map.mpr ⟨row.m8fTenantId, htenant, ?_⟩
        dsimp only
        rw [← hdata]

/-- The key of a row. -/
def Pending.key (row : Pending Payload) : Text × Text := (row.m8fTenantId, row.hash)

/-- No two of them have one key. -/
theorem nodup_pendingRows : ((pendingRows db rows).map Pending.key).Nodup := by
  have hkeys := (referenceTenants db.references).keys_nodup
  have hvalues : ∀ entry ∈ (referenceTenants db.references).entries, entry.2.Nodup :=
    fun entry hentry => nodup_of_get? (Dict.get?_of_mem hentry)
  unfold pendingRows
  generalize (referenceTenants db.references).entries = entries at hkeys hvalues
  induction entries with
  | nil => exact List.nodup_nil
  | cons entry entries ih =>
      obtain ⟨hentry, hentries⟩ := List.forall_mem_cons.mp hvalues
      rw [List.map_cons, List.nodup_cons] at hkeys
      rw [List.flatMap_cons, List.map_append, List.nodup_append]
      refine ⟨?_, ih hkeys.2 hentries, ?_⟩
      · rw [List.map_map]
        exact hentry.map fun tenantId other hsame => (Prod.mk.inj hsame).1
      · intro key hkey other hother hsame
        obtain ⟨row, hrow, hrowKey⟩ := List.mem_map.mp hkey
        obtain ⟨tenantId, -, hfirst⟩ := List.mem_map.mp hrow
        obtain ⟨later, hlater, hlaterKey⟩ := List.mem_map.mp hother
        obtain ⟨next, hnext, hmem⟩ := List.mem_flatMap.mp hlater
        obtain ⟨laterTenant, -, hsecond⟩ := List.mem_map.mp hmem
        have hhash : entry.1 = next.1 := by
          have hboth : row.key = later.key := hrowKey.trans (hsame.trans hlaterKey.symm)
          rw [← hfirst, ← hsecond] at hboth
          exact (Prod.mk.inj hboth).2
        exact hkeys.1 (hhash ▸ List.mem_map_of_mem hnext)

/-- The copy of a row. -/
def Pending.copy (dialect : Dialect Payload) (row : Pending Payload) : Option (ScopedRow Payload) :=
  row.data.map fun data => ⟨row.m8fTenantId, row.hash, dialect.rewritten data⟩

/-- Nothing is raised where every row has a payload, a key of its own and a tenant. -/
theorem insertAll_eq {tenants : List Text} {stage : List (ScopedRow Payload)}
    {pending : List (Pending Payload)} (hdata : ∀ row ∈ pending, row.data ≠ none)
    (hkeys : (pending.map Pending.key).Nodup)
    (hnew : ∀ row ∈ pending, ∀ old ∈ stage, (old.m8fTenantId, old.hash) ≠ row.key)
    (htenants : dialect.enforcesForeignKeys = true → ∀ row ∈ pending, row.m8fTenantId ∈ tenants) :
    insertAll dialect tenants stage pending =
      (stage ++ pending.filterMap (Pending.copy dialect), none) := by
  induction pending generalizing stage with
  | nil => rw [insertAll, List.filterMap_nil, List.append_nil]
  | cons row rest ih =>
      obtain ⟨hrow, hrest⟩ := List.forall_mem_cons.mp hdata
      obtain ⟨hrowNew, hrestNew⟩ := List.forall_mem_cons.mp hnew
      rw [List.map_cons, List.nodup_cons] at hkeys
      obtain ⟨data, hsome⟩ := Option.ne_none_iff_exists'.mp hrow
      have hcopy : row.copy dialect = some ⟨row.m8fTenantId, row.hash, dialect.rewritten data⟩ := by
        rw [Pending.copy, hsome, Option.map_some]
      have hpass : ¬ ((∃ old ∈ stage, old.m8fTenantId = row.m8fTenantId ∧ old.hash = row.hash) ∨
          (dialect.enforcesForeignKeys = true ∧ row.m8fTenantId ∉ tenants)) := by
        intro h
        obtain ⟨old, hold, htenant, hhash⟩ | ⟨henforced, hmissing⟩ := h
        · exact hrowNew old hold (Prod.ext htenant hhash)
        · exact hmissing (htenants henforced row List.mem_cons_self)
      rw [insertAll, hsome]
      dsimp only
      rw [if_neg hpass, ih hrest hkeys.2, List.filterMap_cons_some hcopy, List.append_assoc,
        List.singleton_append]
      · intro next hnext old hold
        cases List.mem_append.mp hold with
        | inl hstage => exact hrestNew next hnext old hstage
        | inr hlast =>
            rw [List.mem_singleton.mp hlast]
            exact fun hsame => hkeys.1 (List.mem_map.mpr ⟨next, hnext, hsame.symm⟩)
      · exact fun henforced next hnext => htenants henforced next (List.mem_cons_of_mem _ hnext)

/-- A tenant that the foreign key does not find makes an insert raise. -/
theorem insertAll_raises {tenants : List Text} (henforced : dialect.enforcesForeignKeys = true)
    {pending : List (Pending Payload)} {row : Pending Payload} (hrow : row ∈ pending)
    (hmissing : row.m8fTenantId ∉ tenants) (stage : List (ScopedRow Payload)) :
    (insertAll dialect tenants stage pending).2 ≠ none := by
  induction pending generalizing stage with
  | nil => cases hrow
  | cons first rest ih =>
      rw [insertAll]
      cases first.data with
      | none => exact Option.some_ne_none _
      | some data =>
          dsimp only
          split
          · exact Option.some_ne_none _
          · rename_i hpass
            cases List.mem_cons.mp hrow with
            | inl hfirst => exact absurd (.inr ⟨henforced, hfirst ▸ hmissing⟩) hpass
            | inr hrest => exact ih hrest _

/-- The rows of the new table. -/
def copies (dialect : Dialect Payload) (db : Referring) (rows : Dict Text Payload) :
    List (ScopedRow Payload) :=
  (pendingRows db rows).filterMap (Pending.copy dialect)

theorem mem_copies {row : ScopedRow Payload} :
    row ∈ copies dialect db rows ↔
      (∃ tenantId hash, Refers db tenantId hash ∧ hash.strip = row.hash ∧
        tenantId.strip = row.m8fTenantId) ∧
      ∃ data, (jsonRows rows).get? row.hash = some data ∧ row.data = dialect.rewritten data := by
  unfold copies
  rw [List.mem_filterMap]
  constructor
  · intro h
    obtain ⟨pending, hpending, hcopy⟩ := h
    obtain ⟨href, hdata⟩ := mem_pendingRows.mp hpending
    obtain ⟨data, hsome, hrow⟩ := Option.map_eq_some_iff.mp hcopy
    rw [← hrow]
    exact ⟨href, data, hdata ▸ hsome, rfl⟩
  · intro h
    obtain ⟨href, data, hget, hdata⟩ := h
    obtain ⟨tenantId, hash, stored⟩ := row
    refine ⟨⟨tenantId, hash, some data⟩, mem_pendingRows.mpr ⟨href, hget.symm⟩, ?_⟩
    rw [Pending.copy, Option.map_some]
    dsimp only at hdata
    rw [hdata]

/-- What is looked up is the copy that is there. -/
theorem lookup_copies {tenantId hash : Text} {data : Payload} :
    lookupScoped (copies dialect db rows) tenantId hash = some data ↔
      ⟨tenantId, hash, data⟩ ∈ copies dialect db rows := by
  unfold lookupScoped
  constructor
  · intro h
    obtain ⟨row, hfind, hdata⟩ := Option.map_eq_some_iff.mp h
    have hmem := List.mem_of_find?_eq_some hfind
    have hkey := List.find?_some hfind
    obtain ⟨htenant, hhash⟩ := of_decide_eq_true hkey
    rw [← htenant, ← hhash, ← hdata]
    exact hmem
  · intro h
    cases hfind : (copies dialect db rows).find? fun row =>
        row.m8fTenantId = tenantId ∧ row.hash = hash with
    | none =>
        rw [List.find?_eq_none] at hfind
        exact absurd (decide_eq_true ⟨rfl, rfl⟩) (hfind _ h)
    | some row =>
        have hmem := List.mem_of_find?_eq_some hfind
        have hkey := List.find?_some hfind
        obtain ⟨htenant, hhash⟩ := of_decide_eq_true hkey
        -- the payload of a copy is determined by its hash
        obtain ⟨-, first, hfirst, hrow⟩ := mem_copies.mp hmem
        obtain ⟨-, second, hsecond, hdata⟩ := mem_copies.mp h
        dsimp only at hsecond hdata
        rw [hhash, hsecond] at hfirst
        rw [Option.map_some, hrow, hdata, Option.some.inj hfirst]

/-- The copies keep every reference exactly when each was stripped and its own is copied. -/
theorem kept_copies_iff :
    Kept db rows (copies dialect db rows) ↔ Exact dialect db rows := by
  constructor
  · intro h tenantId hash href
    obtain ⟨data, hget, hlookup⟩ := h.resolves tenantId hash href
    have hmem := lookup_copies.mp hlookup
    obtain ⟨⟨tenant, stored, -, hhash, htenant⟩, payload, hpayload, hdata⟩ := mem_copies.mp hmem
    dsimp only at hhash htenant hpayload hdata
    refine ⟨?_, ?_, payload, hpayload, ?_⟩
    · rw [← htenant, Text.strip_strip]
    · rw [← hhash, Text.strip_strip]
    · rw [hget, hdata]
  · intro h
    constructor
    · intro tenantId hash href
      obtain ⟨htenant, hhash, payload, hpayload, hget⟩ := h tenantId hash href
      refine ⟨dialect.rewritten payload, hget, lookup_copies.mpr (mem_copies.mpr ?_)⟩
      exact ⟨⟨tenantId, hash, href, hhash, htenant⟩, payload, hpayload, rfl⟩
    · intro row hrow
      obtain ⟨⟨tenantId, hash, href, hhash, htenant⟩, payload, hpayload, hdata⟩ :=
        mem_copies.mp hrow
      obtain ⟨htenantSame, hhashSame, other, hother, hget⟩ := h tenantId hash href
      have hrowTenant : row.m8fTenantId = tenantId := htenant.symm.trans htenantSame
      have hrowHash : row.hash = hash := hhash.symm.trans hhashSame
      rw [hrowHash, hother] at hpayload
      rw [hrowTenant, hrowHash, hdata, ← Option.some.inj hpayload]
      exact ⟨href, hget⟩

/-! ## The result -/

/-- The migration keeps every reference, or stops with `json_data` as it was, exactly when what the
rows refer to is stripped as it stands and has its own payload copied, or a check stops it. -/
theorem tenantScopeJsonData_iff (dialect : Dialect Payload) (db : Referring)
    (tables : Tables Payload) :
    Safe dialect db tables ↔
      ∀ rows, tables.jsonData = .shared rows → Stops dialect db rows ∨ Exact dialect db rows := by
  unfold Safe tenantScopeJsonData
  cases htable : tables.jsonData with
  | missing =>
      refine iff_of_true (.inr ⟨rfl, .inr ⟨fun rows h => ?_, htable⟩⟩) fun rows h => ?_
      · cases h
      · cases h
  | byTenant old =>
      refine iff_of_true (.inr ⟨rfl, .inr ⟨fun rows h => ?_, htable⟩⟩) fun rows h => ?_
      · cases h
      · cases h
  | shared rows =>
      dsimp only
      have hshared : (∀ other, JsonData.shared rows = .shared other →
          Stops dialect db other ∨ Exact dialect db other) ↔
            Stops dialect db rows ∨ Exact dialect db rows := by
        constructor
        · exact fun h => h rows rfl
        · intro h other hsame
          cases hsame
          exact h
      rw [hshared]
      split
      · rename_i hreject
        refine iff_of_true (.inl ⟨Option.some_ne_none _, htable⟩) (.inl ?_)
        by_contra hgo
        apply hreject
        rw [checkReferences_eq]
        refine ⟨fun hash h => hgo (.nullTenant hash h), fun tenantId hash h => ?_,
          fun tenantId hash h => ?_⟩
        · by_contra hmissing
          exact hgo (.missingPayload tenantId hash h hmissing)
        · by_contra hmissing
          exact hgo (.missingTenant tenantId hash h hmissing)
      · rename_i hpass
        obtain ⟨hnull, hpayloads, htenants⟩ := checkReferences_eq.mp (not_not.mp hpass)
        by_cases hforeign : dialect.enforcesForeignKeys = true ∧
            ∃ tenantId hash, Refers db tenantId hash ∧ tenantId.strip ∉ db.tenants
        · obtain ⟨henforced, tenantId, hash, href, hmissing⟩ := hforeign
          have hrow : (⟨tenantId.strip, hash.strip, (jsonRows rows).get? hash.strip⟩ :
              Pending Payload) ∈ pendingRows db rows :=
            mem_pendingRows.mpr ⟨⟨tenantId, hash, href, rfl, rfl⟩, rfl⟩
          have hraises := insertAll_raises henforced hrow hmissing []
          refine iff_of_true ?_ (.inl (.foreignKey tenantId hash henforced href hmissing))
          cases hinsert : insertAll dialect db.tenants [] (pendingRows db rows) with
          | mk stage raised =>
              rw [hinsert] at hraises
              cases raised with
              | none => exact absurd rfl hraises
              | some error => exact .inl ⟨Option.some_ne_none _, rfl⟩
        · have hinsert : insertAll dialect db.tenants [] (pendingRows db rows) =
              (copies dialect db rows, none) := by
            rw [insertAll_eq _ nodup_pendingRows (fun _ _ _ hold => absurd hold List.not_mem_nil)]
            · rfl
            · intro henforced row hrow
              obtain ⟨⟨tenantId, hash, href, -, htenant⟩, -⟩ := mem_pendingRows.mp hrow
              by_contra hmissing
              exact hforeign ⟨henforced, tenantId, hash, href, htenant ▸ hmissing⟩
            · intro row hrow
              obtain ⟨⟨tenantId, hash, href, hhash, -⟩, hdata⟩ := mem_pendingRows.mp hrow
              rw [hdata, ← hhash, ← Dict.mem_keys_iff, mem_keys_jsonRows]
              exact hpayloads tenantId hash href
          have hstops : ¬ Stops dialect db rows := by
            intro h
            cases h with
            | nullTenant hash h => exact hnull hash h
            | missingPayload tenantId hash h hmissing => exact hmissing (hpayloads tenantId hash h)
            | missingTenant tenantId hash h hmissing => exact hmissing (htenants tenantId hash h)
            | foreignKey tenantId hash henforced h hmissing =>
                exact hforeign ⟨henforced, tenantId, hash, h, hmissing⟩
          rw [hinsert, or_iff_right hstops, ← kept_copies_iff]
          dsimp only
          constructor
          · intro h
            obtain ⟨hraised, -⟩ | ⟨-, ⟨other, after, hother, hafter, hkept⟩ | ⟨hnot, -⟩⟩ := h
            · exact absurd rfl hraised
            · cases hother
              cases hafter
              exact hkept
            · exact absurd rfl (hnot rows)
          · intro h
            exact .inr ⟨rfl, .inl ⟨rows, _, rfl, rfl, h⟩⟩

end Check

/-! ## A tenant with a blank -/

/-- One process refers to a payload, with a blank after its tenant. -/
def spaced : Referring where
  bpmnProcess := [⟨some "acme ".toList, some "h1".toList⟩]
  task := []
  tenants := ["acme".toList]

def onePayload : Dict Text Nat where
  entries := [("h1".toList, 7)]
  keys_nodup := List.nodup_singleton _

/-- A database that stores what it is given. -/
def plainDialect : Dialect Nat where
  rewritten := id
  enforcesForeignKeys := true

/-- The payload is stored under the tenant without the blank, and the process does not find it. -/
theorem spaced_not_found :
    (tenantScopeJsonData plainDialect spaced ⟨.shared onePayload, none⟩).2 = none ∧
      (tenantScopeJsonData plainDialect spaced ⟨.shared onePayload, none⟩).1.jsonData =
        .byTenant [⟨"acme".toList, "h1".toList, 7⟩] ∧
      Refers spaced "acme ".toList "h1".toList ∧
      lookupScoped [⟨"acme".toList, "h1".toList, 7⟩] "acme ".toList "h1".toList =
        (none : Option Nat) := by
  refine ⟨by rfl, by rfl, ?_, by decide⟩
  unfold Refers
  decide

end M8flow.Migration
