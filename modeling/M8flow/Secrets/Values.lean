import M8flow.Lib.Results
import M8flow.Secrets.Store

/-!
# What the table of secrets holds

The database provider as a map from places, a tenant and a key, to values: one lemma for each
operation of the facade says what is at every place afterwards.
-/

namespace M8flow.Secrets

open M8flow.Lib

/-- The value at a place of the table. -/
def valueAt (cipher : Cipher) (rows : List SecretRow) (place : Text × Text) : Option Text :=
  (Table.lookup SecretRow.place rows place).map fun row => cipher.decrypt row.value

/-- No two rows are at one place. -/
def Unique (rows : List SecretRow) : Prop := (rows.map SecretRow.place).Nodup

section Values

variable {words : WordTable} {server : Server} {cipher : Cipher} {rows after : List SecretRow}
  {tenantId key value : Text}

theorem valueAt_eq_none {place : Text × Text} :
    valueAt cipher rows place = none ↔ Table.lookup SecretRow.place rows place = none := by
  unfold valueAt
  rw [Option.map_eq_none_iff]

theorem lookup_filter_ne (rows : List SecretRow) (place other : Text × Text) :
    Table.lookup SecretRow.place (rows.filter fun row => row.place ≠ place) other =
      if other = place then none else Table.lookup SecretRow.place rows other := by
  unfold Table.lookup
  rw [List.find?_filter]
  split
  · rename_i hsame
    rw [List.find?_eq_none]
    intro row _
    rw [hsame, decide_eq_true_eq, decide_eq_true_eq, decide_eq_true_eq]
    exact fun hboth => hboth.1 hboth.2
  · rename_i hother
    congr 1
    funext row
    by_cases hplace : row.place = other
    · have hne : row.place ≠ place := fun heq => hother (hplace.symm.trans heq)
      rw [decide_eq_true hplace, decide_eq_true hne]
      rfl
    · rw [decide_eq_false hplace]
      exact decide_eq_false fun hboth => Bool.false_ne_true hboth.2

/-- A secret is added where there is none, and nothing else changes. -/
theorem addSecret_spec (hstrip : key.strip = key) (hunique : Unique rows) {userId : Int}
    {record : SecretRecord}
    (h : addSecret (databaseProvider server cipher) words rows tenantId key value userId =
      .ok (record, after)) :
    valueAt cipher rows (tenantId, key) = none ∧ isKey words key = true ∧ Unique after ∧
      ∀ place, valueAt cipher after place =
        if place = (tenantId, key) then some value else valueAt cipher rows place := by
  unfold addSecret at h
  obtain ⟨cleaned, hcleaned, h⟩ := Results.bind_eq_ok.mp h
  unfold requireSecretKey at hcleaned
  rw [hstrip] at hcleaned
  split at hcleaned
  · rename_i hkey
    rw [← Except.ok.inj hcleaned] at h
    unfold databaseProvider at h
    dsimp only at h
    cases hlookup : Table.lookup SecretRow.place rows (tenantId, key) with
    | some row =>
        rw [hlookup] at h
        cases h
    | none =>
        rw [hlookup] at h
        dsimp only at h
        split at h
        · have hafter := (Prod.mk.inj (Except.ok.inj h)).2
          refine ⟨valueAt_eq_none.mpr hlookup, hkey, ?_, ?_⟩
          · unfold Unique
            rw [← hafter, List.map_append, List.map_singleton]
            refine List.nodup_append.mpr ⟨hunique, List.nodup_singleton _, ?_⟩
            intro place hplace other hother hsame
            obtain ⟨row, hrow, hrowPlace⟩ := List.mem_map.mp hplace
            rw [List.mem_singleton.mp hother] at hsame
            exact List.find?_eq_none.mp hlookup row hrow (decide_eq_true (hrowPlace.trans hsame))
          · intro place
            unfold valueAt
            rw [← hafter, Table.lookup_append, Table.lookup_cons, Table.lookup_nil]
            by_cases hplace : place = (tenantId, key)
            · rw [if_pos hplace, hplace, hlookup, Option.none_or]
              simp [SecretRow.place, cipher.decrypt_encrypt]
            · rw [if_neg hplace, if_neg fun heq => hplace heq.symm, Option.or_none]
        · cases h
  · cases hcleaned

/-- A secret that is there takes the value, and nothing else changes. -/
theorem updateSecret_spec (hstrip : key.strip = key) (hunique : Unique rows)
    (h : updateSecret (databaseProvider server cipher) words rows tenantId key value = .ok after) :
    (valueAt cipher rows (tenantId, key)).isSome = true ∧ Unique after ∧
      ∀ place, valueAt cipher after place =
        if place = (tenantId, key) then some value else valueAt cipher rows place := by
  unfold updateSecret at h
  obtain ⟨cleaned, hcleaned, h⟩ := Results.bind_eq_ok.mp h
  unfold requireSecretKey at hcleaned
  rw [hstrip] at hcleaned
  split at hcleaned
  · rw [← Except.ok.inj hcleaned] at h
    unfold databaseProvider at h
    dsimp only at h
    cases hlookup : Table.lookup SecretRow.place rows (tenantId, key) with
    | none =>
        rw [hlookup] at h
        cases h
    | some row =>
        rw [hlookup] at h
        have hafter := Except.ok.inj h
        have hplaces : ∀ row : SecretRow,
            SecretRow.place { row with value := cipher.encrypt value } = row.place := fun _ => rfl
        refine ⟨?_, ?_, ?_⟩
        · unfold valueAt
          rw [hlookup]
          rfl
        · have hkeys : (Table.updateAt SecretRow.place (tenantId, key)
              (fun row => { row with value := cipher.encrypt value }) rows).map SecretRow.place =
                rows.map SecretRow.place := Table.keys_updateWhere hplaces rows
          unfold Unique
          rw [← hafter, hkeys]
          exact hunique
        · intro place
          unfold valueAt
          rw [← hafter]
          by_cases hplace : place = (tenantId, key)
          · rw [if_pos hplace, hplace, Table.lookup_updateAt_self hplaces, hlookup, Option.map_some,
              Option.map_some, cipher.decrypt_encrypt]
          · rw [if_neg hplace, Table.lookup_updateAt_ne hplaces (Ne.symm hplace)]
  · cases hcleaned

/-- A secret that is there is taken away, and nothing else changes. -/
theorem deleteSecret_spec (hstrip : key.strip = key) (hunique : Unique rows)
    (h : deleteSecret (databaseProvider server cipher) words rows tenantId key = .ok after) :
    Unique after ∧ ∀ place, valueAt cipher after place =
      if place = (tenantId, key) then none else valueAt cipher rows place := by
  unfold deleteSecret at h
  obtain ⟨cleaned, hcleaned, h⟩ := Results.bind_eq_ok.mp h
  unfold requireSecretKey at hcleaned
  rw [hstrip] at hcleaned
  split at hcleaned
  · rw [← Except.ok.inj hcleaned] at h
    unfold databaseProvider at h
    dsimp only at h
    cases hlookup : Table.lookup SecretRow.place rows (tenantId, key) with
    | none =>
        rw [hlookup] at h
        cases h
    | some row =>
        rw [hlookup] at h
        have hafter := Except.ok.inj h
        refine ⟨?_, ?_⟩
        · unfold Unique
          rw [← hafter]
          exact (List.filter_sublist.map SecretRow.place).nodup hunique
        · intro place
          unfold valueAt
          rw [← hafter, lookup_filter_ne]
          split
          · rfl
          · rfl
  · cases hcleaned

theorem getSecretValue_database (hkey : isKey words key = true) :
    getSecretValue (databaseProvider server cipher) words rows tenantId key =
      .ok (valueAt cipher rows (tenantId, key)) := by
  unfold getSecretValue databaseProvider valueAt
  rw [if_pos hkey]
  dsimp only
  cases Table.lookup SecretRow.place rows (tenantId, key) with
  | none => rfl
  | some row => rfl

end Values

end M8flow.Secrets
