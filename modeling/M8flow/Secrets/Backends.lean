import M8flow.Lib.Results
import M8flow.Secrets.Isolation
import M8flow.Secrets.Store
import Mathlib.Algebra.Ring.Int.Defs
import Mathlib.Data.List.Dedup

/-!
# The two backends of the secrets

The documents of the vault provider are the rows of the database provider, under other keys:
the path of a secret takes the place of its tenant and key.

- `pathOf_inj` says that no two secrets have one path;
- `mirror` is the store that belongs to a table, and `step_mirror` is one call on the two;
- `outcomes_agree` is any sequence of calls, and `outcomes_own` that a tenant's outcomes come
  from its own calls alone.
-/

namespace M8flow.Secrets

open M8flow.Lib

/-- A tenant id that is its own trimmed form. -/
def Plain (tenantId : Text) : Prop := tenantId.strip = tenantId ∧ tenantId ≠ []

instance (tenantId : Text) : Decidable (Plain tenantId) := by
  unfold Plain
  infer_instance

/-! ## Paths -/

/-- The path of a tenant's secret. -/
def pathOf (config : Config) (place : Text × Text) : Text :=
  rootText config place.1 ++ '/' :: place.2

section Keys

variable {words : WordTable} {key : Text}

theorem slash_not_mem (h : isKey words key = true) : '/' ∉ key :=
  not_mem_of_isKey h (by decide) (by decide)

/-- The path of a key. -/
theorem secretPath_of_isKey {config : Config} {tenantId : Text} (hconfig : PrefixTight config)
    (hplain : Plain tenantId) (h : isKey words key = true) :
    secretPath config words.unicode tenantId key = .ok (pathOf config (tenantId, key)) := by
  have hdots : Text.hasInfix ['.', '.'] key = false := by
    rw [Bool.eq_false_iff, Ne, Text.hasInfix_iff]
    intro hdotted
    have hdot : '.' ∉ key := not_mem_of_isKey h (by decide) (by decide)
    exact hdot (hdotted.subset (by decide))
  have hslash : key.contains '/' = false := by
    rw [Bool.eq_false_iff, Ne, List.contains_iff_mem]
    exact slash_not_mem h
  have hall : key.all (isWord words.unicode) = true := List.all_eq_true.mpr (isWord_of_isKey h)
  have htenant : tenantId.strip ≠ [] := by
    rw [hplain.1]
    exact hplain.2
  have hclean : cleanPart key = key := by
    unfold cleanPart
    rw [strip_of_isKey h, stripSlashes (slash_not_mem h)]
  have hroot := cleanPart_rootText_ne_nil config tenantId
  unfold secretPath
  rw [secretRoot_eq htenant, strip_of_isKey h]
  dsimp only
  rw [if_neg (ne_nil_of_isKey h), hdots, hslash, hall]
  show Except.ok (joinVaultPath [rootText config tenantId, key]) = _
  unfold joinVaultPath pathOf
  rw [cleanPart_rootText hconfig] at hroot
  rw [List.map_cons, List.map_cons, List.map_nil, hclean, cleanPart_rootText hconfig]
  simp [hroot, ne_nil_of_isKey h, List.intercalate]

end Keys

/-- Tenants and keys with one path are the same. -/
theorem pathOf_inj {config : Config} {place other : Text × Text} (hplace : Plain place.1)
    (hother : Plain other.1) (h : pathOf config place = pathOf config other) : place = other := by
  have hcomponent := component_eq_of_prefix (prefix_of_eq h)
  have htenant : place.1 = other.1 := by
    have hstrip := encodedComponent_inj hcomponent
    rwa [hplace.1, hother.1] at hstrip
  unfold pathOf at h
  rw [htenant] at h
  have hkey := List.append_cancel_left h
  exact Prod.ext htenant (List.cons.inj hkey).2

/-! ## The store of a table -/

/-- Rows that the facade can have written for plain tenants. -/
structure Placed (words : WordTable) (rows : List SecretRow) : Prop where
  plain : ∀ row ∈ rows, Plain row.tenantId
  keys : ∀ row ∈ rows, isKey words row.key = true
  nodup : (rows.map SecretRow.place).Nodup

/-- The document of a row. -/
def storedOf (config : Config) (cipher : Cipher) (row : SecretRow) : StoredDocument :=
  ⟨pathOf config row.place, row.key, cipher.decrypt row.value, row.tenantId, row.createdByUserId⟩

/-- The store that belongs to a table. -/
def mirror (config : Config) (cipher : Cipher) (rows : List SecretRow) : KeyValueStore :=
  rows.map (storedOf config cipher)

section Mirror

variable {config : Config} {words : WordTable} {cipher : Cipher} {rows : List SecretRow}
  {tenantId key : Text}

theorem placed_nil : Placed words [] :=
  ⟨fun _ hrow => absurd hrow List.not_mem_nil, fun _ hrow => absurd hrow List.not_mem_nil,
    List.nodup_nil⟩

/-- No row of another place has the path. -/
theorem place_of_path (hplaced : Placed words rows) (hplain : Plain tenantId) :
    ∀ row ∈ rows, pathOf config row.place = pathOf config (tenantId, key) →
      row.place = (tenantId, key) := fun row hrow hpath =>
  pathOf_inj (hplaced.plain row hrow) hplain hpath

theorem path_storedOf (row : SecretRow) :
    (storedOf config cipher row).path = pathOf config row.place := rfl

/-- What the store has at the path of a secret. -/
theorem getDocument_mirror (hplaced : Placed words rows) (hplain : Plain tenantId) :
    getDocument (mirror config cipher rows) (pathOf config (tenantId, key)) =
      (Table.lookup SecretRow.place rows (tenantId, key)).map fun row =>
        (storedOf config cipher row).document := by
  unfold getDocument mirror
  rw [Table.lookup_image path_storedOf (place_of_path hplaced hplain), Option.map_map]
  rfl

theorem readDocument_mirror (hconfig : PrefixTight config) (hplaced : Placed words rows)
    (hplain : Plain tenantId) (hkey : isKey words key = true) :
    readDocument config words (mirror config cipher rows) tenantId key =
      .ok ((Table.lookup SecretRow.place rows (tenantId, key)).map fun row =>
        (storedOf config cipher row).document) := by
  unfold readDocument
  rw [secretPath_of_isKey hconfig hplain hkey]
  exact congrArg Except.ok (getDocument_mirror hplaced hplain)

/-- The record of a document is that of its row. -/
theorem recordFromDocument_storedOf (hplaced : Placed words rows) {row : SecretRow}
    (hlookup : Table.lookup SecretRow.place rows (tenantId, key) = some row) :
    recordFromDocument (storedOf config cipher row).document key tenantId = recordOf row := by
  have hplace : row.place = (tenantId, key) := Table.key_of_lookup hlookup
  have htenant : row.tenantId ≠ [] := (hplaced.plain row (Table.mem_of_lookup hlookup)).2
  have hkey : row.key = key := congrArg Prod.snd hplace
  unfold recordFromDocument recordOf
  show (⟨key, row.createdByUserId, if row.tenantId = [] then tenantId else row.tenantId⟩ :
    SecretRecord) = _
  rw [if_neg htenant, hkey]

end Mirror

/-! ## What is written -/

section Writes

variable {config : Config} {words : WordTable} {cipher : Cipher} {rows : List SecretRow}
  {tenantId key : Text}

/-- A row that is added comes with its document. -/
theorem putDocument_new (hplaced : Placed words rows) (hplain : Plain tenantId)
    (hlookup : Table.lookup SecretRow.place rows (tenantId, key) = none) (value : Text)
    (userId : Int) :
    putDocument (mirror config cipher rows) (pathOf config (tenantId, key))
        ⟨key, value, tenantId, userId⟩ =
      mirror config cipher (rows ++ [⟨key, cipher.encrypt value, tenantId, userId⟩]) := by
  unfold putDocument
  rw [getDocument_mirror hplaced hplain, hlookup, Option.map_none, Option.isSome_none,
    if_neg Bool.false_ne_true]
  unfold mirror
  rw [List.map_append, List.map_singleton, storedOf, cipher.decrypt_encrypt]
  rfl

/-- A row that changes takes its document along. -/
theorem putDocument_mirror (hplaced : Placed words rows) (hplain : Plain tenantId)
    {row : SecretRow} (hlookup : Table.lookup SecretRow.place rows (tenantId, key) = some row)
    (value : Text) :
    putDocument (mirror config cipher rows) (pathOf config (tenantId, key))
        { (storedOf config cipher row).document with value } =
      mirror config cipher (Table.updateAt SecretRow.place (tenantId, key)
        (fun row => { row with value := cipher.encrypt value }) rows) := by
  unfold putDocument
  rw [getDocument_mirror hplaced hplain, hlookup, Option.map_some, Option.isSome_some, if_pos rfl]
  unfold mirror
  apply Table.updateAt_image path_storedOf (place_of_path hplaced hplain)
  intro other hother hplace
  have hsame : other = row := by
    have hfound := Table.lookup_of_mem hplaced.nodup hother
    rw [hplace, hlookup] at hfound
    exact (Option.some.inj hfound).symm
  rw [hsame]
  unfold storedOf
  rw [cipher.decrypt_encrypt]
  rfl

theorem deleteDocument_mirror (hplaced : Placed words rows) (hplain : Plain tenantId) :
    deleteDocument (mirror config cipher rows) (pathOf config (tenantId, key)) =
      mirror config cipher (rows.filter fun row => row.place ≠ (tenantId, key)) :=
  Table.filter_ne_image path_storedOf (place_of_path hplaced hplain)

theorem placed_add (hplaced : Placed words rows) (hplain : Plain tenantId)
    (hkey : isKey words key = true)
    (hlookup : Table.lookup SecretRow.place rows (tenantId, key) = none) (value : Text)
    (userId : Int) : Placed words (rows ++ [⟨key, value, tenantId, userId⟩]) where
  plain row hrow := by
    rcases List.mem_append.mp hrow with hold | hnew
    · exact hplaced.plain row hold
    · rw [List.mem_singleton.mp hnew]
      exact hplain
  keys row hrow := by
    rcases List.mem_append.mp hrow with hold | hnew
    · exact hplaced.keys row hold
    · rw [List.mem_singleton.mp hnew]
      exact hkey
  nodup := by
    rw [List.map_append, List.map_singleton]
    refine List.nodup_append.mpr ⟨hplaced.nodup, List.nodup_singleton _, ?_⟩
    intro place hplace other hother hsame
    rw [List.mem_singleton.mp hother] at hsame
    obtain ⟨row, hrow, hrowPlace⟩ := List.mem_map.mp hplace
    have hnone := List.find?_eq_none.mp hlookup row hrow
    exact hnone (decide_eq_true (hrowPlace.trans hsame))

theorem placed_filter (hplaced : Placed words rows) (p : SecretRow → Bool) :
    Placed words (rows.filter p) where
  plain row hrow := hplaced.plain row (List.mem_of_mem_filter hrow)
  keys row hrow := hplaced.keys row (List.mem_of_mem_filter hrow)
  nodup := (List.filter_sublist.map SecretRow.place).nodup hplaced.nodup

theorem placed_update (hplaced : Placed words rows) (place : Text × Text) (value : Text) :
    Placed words (Table.updateAt SecretRow.place place (fun row => { row with value }) rows) := by
  have hrows : ∀ row ∈ Table.updateAt SecretRow.place place (fun row => { row with value }) rows,
      ∃ old ∈ rows, row.tenantId = old.tenantId ∧ row.key = old.key := by
    intro row hrow
    obtain ⟨old, hold, hsame⟩ := List.mem_map.mp hrow
    refine ⟨old, hold, ?_⟩
    rw [← hsame]
    split
    · exact ⟨rfl, rfl⟩
    · exact ⟨rfl, rfl⟩
  constructor
  · intro row hrow
    obtain ⟨old, hold, htenant, _⟩ := hrows row hrow
    rw [htenant]
    exact hplaced.plain old hold
  · intro row hrow
    obtain ⟨old, hold, _, hkey⟩ := hrows row hrow
    rw [hkey]
    exact hplaced.keys old hold
  · have hplaces : (Table.updateAt SecretRow.place place (fun row => { row with value }) rows).map
        SecretRow.place = rows.map SecretRow.place := by
      have hsame : ∀ row : SecretRow, SecretRow.place { row with value } = row.place := fun _ => rfl
      exact Table.keys_updateWhere hsame rows
    rw [hplaces]
    exact hplaced.nodup

end Writes

/-! ## What is listed -/

section Lists

variable {config : Config} {words : WordTable} {cipher : Cipher} {rows : List SecretRow}
  {tenantId : Text}

/-- The rows of a tenant. -/
def rowsOf (rows : List SecretRow) (tenantId : Text) : List SecretRow :=
  rows.filter fun row => row.tenantId = tenantId

/-- A root lists the keys of its own tenant. -/
theorem childOf_pathOf {row : SecretRow} (hrow : Plain row.tenantId) (hplain : Plain tenantId)
    (hkey : isKey words row.key = true) :
    childOf (rootText config tenantId) (pathOf config row.place) =
      if row.tenantId = tenantId then some row.key else none := by
  unfold childOf
  by_cases hsame : row.tenantId = tenantId
  · have hpath : pathOf config row.place = rootText config tenantId ++ '/' :: row.key := by
      rw [← hsame]
      rfl
    have hrest : (rootText config tenantId ++ '/' :: row.key).drop
        ((rootText config tenantId).length + 1) = row.key := by
      rw [← List.drop_drop, List.drop_left]
      rfl
    have hstart : (rootText config tenantId ++ ['/']).isPrefixOf
        (rootText config tenantId ++ '/' :: row.key) = true := by
      rw [List.isPrefixOf_iff_prefix, List.prefix_append_right_inj]
      exact ⟨row.key, rfl⟩
    rw [hpath, if_pos hstart, if_pos hsame, hrest]
    dsimp only
    rw [if_neg (slash_not_mem hkey)]
  · rw [if_neg hsame, if_neg]
    intro hstart
    have hcomponent := component_eq_of_prefix (List.isPrefixOf_iff_prefix.mp hstart)
    have hstrip : tenantId.strip = row.tenantId.strip := encodedComponent_inj hcomponent
    rw [hplain.1, hrow.1] at hstrip
    exact hsame hstrip.symm

theorem children_mirror (hplaced : Placed words rows) (hplain : Plain tenantId) :
    ((mirror config cipher rows).filterMap fun stored =>
        childOf (rootText config tenantId) stored.path) =
      (rowsOf rows tenantId).map SecretRow.key := by
  unfold mirror rowsOf
  rw [List.filterMap_map, ← List.filterMap_eq_map, List.filterMap_filter]
  apply List.filterMap_congr
  intro row hrow
  show childOf (rootText config tenantId) (pathOf config row.place) = _
  rw [childOf_pathOf (hplaced.plain row hrow) hplain (hplaced.keys row hrow)]
  by_cases hsame : row.tenantId = tenantId
  · rw [if_pos hsame, if_pos (decide_eq_true hsame)]
    rfl
  · rw [if_neg hsame, if_neg]
    rw [decide_eq_false hsame]
    exact Bool.false_ne_true

theorem nodup_keys (hplaced : Placed words rows) (tenantId : Text) :
    ((rowsOf rows tenantId).map SecretRow.key).Nodup := by
  have hplaces := (placed_filter hplaced fun row => row.tenantId = tenantId).nodup
  apply List.Nodup.of_map (fun key => (tenantId, key))
  rw [List.map_map]
  have hsame : (rowsOf rows tenantId).map ((fun key => (tenantId, key)) ∘ SecretRow.key) =
      (rowsOf rows tenantId).map SecretRow.place := by
    apply List.map_congr_left
    intro row hrow
    have htenant : row.tenantId = tenantId := of_decide_eq_true (List.mem_filter.mp hrow).2
    show (tenantId, row.key) = (row.tenantId, row.key)
    rw [htenant]
  rw [hsame]
  exact hplaces

theorem listNames_mirror (hplaced : Placed words rows) (hplain : Plain tenantId) :
    listNames (mirror config cipher rows) (rootText config tenantId) =
      Paging.sortBy id ((rowsOf rows tenantId).map SecretRow.key) := by
  have hkeys : ∀ key ∈ (rowsOf rows tenantId).map SecretRow.key, isKey words key = true := by
    intro key hkey
    obtain ⟨row, hrow, hsame⟩ := List.mem_map.mp hkey
    rw [← hsame]
    exact hplaced.keys row (List.mem_of_mem_filter hrow)
  have hstripped : ((rowsOf rows tenantId).map SecretRow.key).map (Text.rstripChar '/') =
      (rowsOf rows tenantId).map SecretRow.key := by
    have hsame : ((rowsOf rows tenantId).map SecretRow.key).map (Text.rstripChar '/') =
        ((rowsOf rows tenantId).map SecretRow.key).map id := by
      apply List.map_congr_left
      intro key hkey
      apply Text.rstripChar_eq_self
      intro hne hlast
      exact slash_not_mem (hkeys key hkey) (hlast ▸ List.getLast_mem hne)
    rw [hsame, List.map_id]
  have hfilled : ((rowsOf rows tenantId).map SecretRow.key).filter (· ≠ []) =
      (rowsOf rows tenantId).map SecretRow.key := by
    rw [List.filter_eq_self]
    exact fun key hkey => decide_eq_true (ne_nil_of_isKey (hkeys key hkey))
  unfold listNames
  rw [children_mirror hplaced hplain, List.dedup_eq_self.mpr (nodup_keys hplaced tenantId)]
  dsimp only
  rw [hstripped, hfilled]

/-- The table lists the rows of a tenant in the order of their keys. -/
theorem keys_orderedRows (rows : List SecretRow) (tenantId : Text) :
    (orderedRows rows tenantId).map SecretRow.key =
      Paging.sortBy id ((rowsOf rows tenantId).map SecretRow.key) := by
  have hperm : (orderedRows rows tenantId).Perm (rowsOf rows tenantId) := Paging.sortBy_perm _
  have hsorted : ((orderedRows rows tenantId).map SecretRow.key).Pairwise (· ≤ ·) := by
    rw [List.pairwise_map]
    apply List.Pairwise.imp_of_mem _ (Paging.sorted_sortBy _)
    intro row other hrow hother hle
    have htenant : ∀ row ∈ orderedRows rows tenantId, row.tenantId = tenantId := fun row hrow =>
      of_decide_eq_true (List.mem_filter.mp (hperm.mem_iff.mp hrow)).2
    rcases Prod.Lex.toLex_le_toLex.mp hle with hless | hequal
    · have hsame : row.place.1 = other.place.1 :=
        (htenant row hrow).trans (htenant other hother).symm
      rw [hsame] at hless
      exact absurd hless (lt_irrefl _)
    · exact hequal.2
  refine List.Perm.eq_of_pairwise (fun a b _ _ hab hba => le_antisymm hab hba) hsorted ?_ ?_
  · exact Paging.sorted_sortBy _
  · exact (hperm.map SecretRow.key).trans (Paging.sortBy_perm _).symm

theorem map_slice {α β : Type} (f : α → β) (perPage page : Nat) (rows : List α) :
    (Paging.slice perPage page rows).map f = Paging.slice perPage page (rows.map f) := by
  unfold Paging.slice
  rw [List.map_take, List.map_drop]

/-- The documents of listed keys give the records of their rows. -/
theorem listedRecords_mirror (hconfig : PrefixTight config) (hplaced : Placed words rows)
    (hplain : Plain tenantId) {listed : List SecretRow}
    (hlisted : ∀ row ∈ listed, row ∈ rowsOf rows tenantId) :
    (listed.map SecretRow.key).mapM
        (listedRecord config words (mirror config cipher rows) tenantId) =
      .ok (listed.map fun row => some (recordOf row)) := by
  rw [Results.mapM_eq_ok, List.forall₂_map_left_iff, List.forall₂_map_right_iff, List.forall₂_same]
  intro row hrow
  have hmem := List.mem_filter.mp (hlisted row hrow)
  have htenant : row.tenantId = tenantId := of_decide_eq_true hmem.2
  have hlookup : Table.lookup SecretRow.place rows (tenantId, row.key) = some row := by
    rw [← htenant]
    exact Table.lookup_of_mem hplaced.nodup hmem.1
  unfold listedRecord
  rw [readDocument_mirror hconfig hplaced hplain (hplaced.keys row hmem.1), hlookup]
  exact congrArg (fun record => Except.ok (some record))
    (recordFromDocument_storedOf hplaced hlookup)

end Lists

/-! ## One call -/

/-- The tenant id is plain, and the database takes what is added and the offset of the page. -/
def Call.Fits (server : Server) : Call → Prop
  | add tenantId key _ _ =>
      Plain tenantId ∧ server.column tenantId = true ∧ server.column key.strip = true
  | list tenantId page perPage =>
      Plain tenantId ∧ server.offset ((pageOf page - 1) * perPageOf perPage) = true
  | get tenantId _ => Plain tenantId
  | getValue tenantId _ => Plain tenantId
  | update tenantId _ _ => Plain tenantId
  | delete tenantId _ => Plain tenantId
  | listKeys tenantId => Plain tenantId

instance (server : Server) : (call : Call) → Decidable (call.Fits server)
  | .add tenantId key _ _ => inferInstanceAs (Decidable
      (Plain tenantId ∧ server.column tenantId = true ∧ server.column key.strip = true))
  | .list tenantId page perPage => inferInstanceAs (Decidable
      (Plain tenantId ∧ server.offset ((pageOf page - 1) * perPageOf perPage) = true))
  | .get tenantId _ => inferInstanceAs (Decidable (Plain tenantId))
  | .getValue tenantId _ => inferInstanceAs (Decidable (Plain tenantId))
  | .update tenantId _ _ => inferInstanceAs (Decidable (Plain tenantId))
  | .delete tenantId _ => inferInstanceAs (Decidable (Plain tenantId))
  | .listKeys tenantId => inferInstanceAs (Decidable (Plain tenantId))

section Providers

variable {config : Config} {words : WordTable} {server : Server} {cipher : Cipher}
  {rows : List SecretRow} {tenantId key : Text}

theorem vault_add (hconfig : PrefixTight config) (hplaced : Placed words rows)
    (hplain : Plain tenantId) (hkey : isKey words key = true)
    (htenant : server.column tenantId = true) (hcolumn : server.column key = true) (value : Text)
    (userId : Int) :
    (vaultProvider config words).add (mirror config cipher rows) tenantId key value userId =
      ((databaseProvider server cipher).add rows tenantId key value userId).map
        (Prod.map id (mirror config cipher)) := by
  unfold vaultProvider databaseProvider
  dsimp only
  rw [secretPath_of_isKey hconfig hplain hkey]
  dsimp only
  rw [getDocument_mirror hplaced hplain]
  cases hlookup : Table.lookup SecretRow.place rows (tenantId, key) with
  | some row => rfl
  | none =>
      rw [hcolumn, htenant]
      dsimp only [Option.map_none]
      rw [putDocument_new hplaced hplain hlookup value userId]
      unfold recordFromDocument
      rw [if_neg hplain.2]
      rfl

theorem placed_after_add (hplaced : Placed words rows) (hplain : Plain tenantId)
    (hkey : isKey words key = true) {value : Text} {userId : Int} {record : SecretRecord}
    {after : List SecretRow}
    (h : (databaseProvider server cipher).add rows tenantId key value userId =
      .ok (record, after)) : Placed words after := by
  unfold databaseProvider at h
  dsimp only at h
  cases hlookup : Table.lookup SecretRow.place rows (tenantId, key) with
  | some row =>
      rw [hlookup] at h
      cases h
  | none =>
      rw [hlookup] at h
      dsimp only at h
      split at h
      · rw [← (Prod.mk.inj (Except.ok.inj h)).2]
        exact placed_add hplaced hplain hkey hlookup _ userId
      · cases h

theorem vault_get (hconfig : PrefixTight config) (hplaced : Placed words rows)
    (hplain : Plain tenantId) (hkey : isKey words key = true) :
    (vaultProvider config words).get (mirror config cipher rows) tenantId key =
      (databaseProvider server cipher).get rows tenantId key := by
  unfold vaultProvider databaseProvider requireDocument
  dsimp only
  rw [readDocument_mirror hconfig hplaced hplain hkey]
  cases hlookup : Table.lookup SecretRow.place rows (tenantId, key) with
  | none => rfl
  | some row => exact congrArg Except.ok (recordFromDocument_storedOf hplaced hlookup)

theorem vault_getValue (hconfig : PrefixTight config) (hplaced : Placed words rows)
    (hplain : Plain tenantId) (hkey : isKey words key = true) :
    (vaultProvider config words).getValue (mirror config cipher rows) tenantId key =
      (databaseProvider server cipher).getValue rows tenantId key := by
  unfold vaultProvider databaseProvider
  dsimp only
  rw [readDocument_mirror hconfig hplaced hplain hkey]
  cases hlookup : Table.lookup SecretRow.place rows (tenantId, key) with
  | none => rfl
  | some row => rfl

theorem vault_update (hconfig : PrefixTight config) (hplaced : Placed words rows)
    (hplain : Plain tenantId) (hkey : isKey words key = true) (value : Text) :
    (vaultProvider config words).update (mirror config cipher rows) tenantId key value =
      ((databaseProvider server cipher).update rows tenantId key value).map
        (mirror config cipher) := by
  unfold vaultProvider databaseProvider requireDocument pathFor
  dsimp only
  rw [readDocument_mirror hconfig hplaced hplain hkey, secretPath_of_isKey hconfig hplain hkey]
  cases hlookup : Table.lookup SecretRow.place rows (tenantId, key) with
  | none => rfl
  | some row => exact congrArg Except.ok (putDocument_mirror hplaced hplain hlookup value)

theorem vault_delete (hconfig : PrefixTight config) (hplaced : Placed words rows)
    (hplain : Plain tenantId) (hkey : isKey words key = true) :
    (vaultProvider config words).delete (mirror config cipher rows) tenantId key =
      ((databaseProvider server cipher).delete rows tenantId key).map (mirror config cipher) := by
  unfold vaultProvider databaseProvider requireDocument pathFor
  dsimp only
  rw [readDocument_mirror hconfig hplaced hplain hkey, secretPath_of_isKey hconfig hplain hkey]
  cases hlookup : Table.lookup SecretRow.place rows (tenantId, key) with
  | none => rfl
  | some row => exact congrArg Except.ok (deleteDocument_mirror hplaced hplain)

theorem vaultListKeys_mirror (hplaced : Placed words rows) (hplain : Plain tenantId) :
    vaultListKeys config (mirror config cipher rows) tenantId =
      .ok (Paging.sortBy id ((rowsOf rows tenantId).map SecretRow.key)) := by
  have htenant : tenantId.strip ≠ [] := by
    rw [hplain.1]
    exact hplain.2
  unfold vaultListKeys
  rw [secretRoot_eq htenant]
  exact congrArg Except.ok (listNames_mirror hplaced hplain)

theorem vault_list (hconfig : PrefixTight config) (hplaced : Placed words rows)
    (hplain : Plain tenantId) {page perPage : Int}
    (hoffset : server.offset ((pageOf page - 1) * perPageOf perPage) = true) :
    (vaultProvider config words).list (mirror config cipher rows) tenantId page perPage =
      (databaseProvider server cipher).list rows tenantId page perPage := by
  have hlisted : ∀ row ∈ Paging.slice (perPageOf perPage) (pageOf page) (orderedRows rows tenantId),
      row ∈ rowsOf rows tenantId := by
    intro row hrow
    have hmem : row ∈ orderedRows rows tenantId := List.mem_of_mem_drop (List.mem_of_mem_take hrow)
    exact (Paging.sortBy_perm _).mem_iff.mp hmem
  have hrecords : ((Paging.slice (perPageOf perPage) (pageOf page)
      (orderedRows rows tenantId)).map SecretRow.key).mapM
        (listedRecord config words (mirror config cipher rows) tenantId) = .ok _ :=
    listedRecords_mirror hconfig hplaced hplain hlisted
  rw [map_slice, keys_orderedRows] at hrecords
  unfold vaultProvider databaseProvider
  dsimp only
  rw [vaultListKeys_mirror hplaced hplain, if_pos hoffset]
  dsimp only [bind, Except.bind]
  rw [hrecords]
  dsimp only
  have hlength : (Paging.sortBy id ((rowsOf rows tenantId).map SecretRow.key)).length =
      (rowsOf rows tenantId).length := by
    rw [(Paging.sortBy_perm _).length_eq, List.length_map]
  rw [hlength, List.filterMap_map]
  have hsome : ((id : Option SecretRecord → Option SecretRecord) ∘ fun row => some (recordOf row)) =
      some ∘ recordOf := rfl
  rw [hsome, List.filterMap_eq_map]
  rfl

end Providers

section Steps

variable {config : Config} {words : WordTable} {server : Server} {cipher : Cipher}
  {rows : List SecretRow}

theorem written_mirror (outcome : Except SecretError (List SecretRow)) :
    written (mirror config cipher rows) (outcome.map (mirror config cipher)) =
      ((written rows outcome).1, mirror config cipher (written rows outcome).2) := by
  cases outcome with
  | error error => rfl
  | ok after => rfl

/-- A call on the two backends: one outcome, and stores that belong together. -/
theorem step_mirror (hconfig : PrefixTight config) (hplaced : Placed words rows) {call : Call}
    (hfits : call.Fits server) :
    step (vaultProvider config words) words (mirror config cipher rows) call =
      ((step (databaseProvider server cipher) words rows call).1,
        mirror config cipher (step (databaseProvider server cipher) words rows call).2) := by
  cases call with
  | add tenantId key value userId =>
      obtain ⟨hplain, htenant, hcolumn⟩ := hfits
      unfold step addSecret requireSecretKey
      dsimp only
      by_cases hkey : isKey words key.strip = true
      · rw [if_pos hkey]
        dsimp only [bind, Except.bind]
        rw [vault_add hconfig hplaced hplain hkey htenant hcolumn]
        cases (databaseProvider server cipher).add rows tenantId key.strip value userId with
        | error error => rfl
        | ok after => rfl
      · rw [if_neg hkey]
        rfl
  | get tenantId key =>
      unfold step getSecret requireSecretKey
      dsimp only
      by_cases hkey : isKey words key.strip = true
      · rw [if_pos hkey]
        dsimp only [bind, Except.bind]
        have hget : (vaultProvider config words).get (mirror config cipher rows) tenantId key.strip =
            (databaseProvider server cipher).get rows tenantId key.strip :=
          vault_get hconfig hplaced hfits hkey
        rw [hget]
      · rw [if_neg hkey]
        rfl
  | getValue tenantId key =>
      unfold step getSecretValue
      dsimp only
      by_cases hkey : isKey words key = true
      · have hvalue : (vaultProvider config words).getValue (mirror config cipher rows) tenantId key =
            (databaseProvider server cipher).getValue rows tenantId key :=
          vault_getValue hconfig hplaced hfits hkey
        rw [if_pos hkey, if_pos hkey, hvalue]
      · rw [if_neg hkey, if_neg hkey]
  | update tenantId key value =>
      unfold step updateSecret requireSecretKey
      dsimp only
      by_cases hkey : isKey words key.strip = true
      · rw [if_pos hkey]
        dsimp only [bind, Except.bind]
        have hupdate : (vaultProvider config words).update (mirror config cipher rows) tenantId
            key.strip value = ((databaseProvider server cipher).update rows tenantId key.strip
              value).map (mirror config cipher) := vault_update hconfig hplaced hfits hkey value
        rw [hupdate, written_mirror]
      · rw [if_neg hkey]
        rfl
  | delete tenantId key =>
      unfold step deleteSecret requireSecretKey
      dsimp only
      by_cases hkey : isKey words key.strip = true
      · rw [if_pos hkey]
        dsimp only [bind, Except.bind]
        have hdelete : (vaultProvider config words).delete (mirror config cipher rows) tenantId
            key.strip = ((databaseProvider server cipher).delete rows tenantId key.strip).map
              (mirror config cipher) := vault_delete hconfig hplaced hfits hkey
        rw [hdelete, written_mirror]
      · rw [if_neg hkey]
        rfl
  | list tenantId page perPage =>
      unfold step
      dsimp only
      rw [vault_list hconfig hplaced hfits.1 hfits.2]
  | listKeys tenantId =>
      unfold step
      dsimp only
      have hkeys : (vaultProvider config words).listKeys (mirror config cipher rows) tenantId =
          (databaseProvider server cipher).listKeys rows tenantId :=
        vaultListKeys_mirror hplaced hfits
      rw [hkeys]

end Steps

section Table

variable {words : WordTable} {server : Server} {cipher : Cipher} {rows : List SecretRow}

theorem placed_written (hplaced : Placed words rows)
    {outcome : Except SecretError (List SecretRow)}
    (h : ∀ after, outcome = .ok after → Placed words after) :
    Placed words (written rows outcome).2 := by
  cases outcome with
  | error error => exact hplaced
  | ok after => exact h after rfl

theorem placed_after_update (hplaced : Placed words rows) {tenantId key value : Text}
    {after : List SecretRow}
    (h : (databaseProvider server cipher).update rows tenantId key value = .ok after) :
    Placed words after := by
  unfold databaseProvider at h
  dsimp only at h
  split at h
  · cases h
  · rw [← Except.ok.inj h]
    exact placed_update hplaced _ _

theorem placed_after_delete (hplaced : Placed words rows) {tenantId key : Text}
    {after : List SecretRow}
    (h : (databaseProvider server cipher).delete rows tenantId key = .ok after) :
    Placed words after := by
  unfold databaseProvider at h
  dsimp only at h
  split at h
  · cases h
  · rw [← Except.ok.inj h]
    exact placed_filter hplaced _

/-- The facade leaves rows that it can have written. -/
theorem placed_step (hplaced : Placed words rows) {call : Call} (hfits : call.Fits server) :
    Placed words (step (databaseProvider server cipher) words rows call).2 := by
  cases call with
  | add tenantId key value userId =>
      unfold step addSecret requireSecretKey
      dsimp only
      by_cases hkey : isKey words key.strip = true
      · rw [if_pos hkey]
        dsimp only [bind, Except.bind]
        cases hadd : (databaseProvider server cipher).add rows tenantId key.strip value userId with
        | error error => exact hplaced
        | ok after => exact placed_after_add hplaced hfits.1 hkey hadd
      · rw [if_neg hkey]
        exact hplaced
  | update tenantId key value =>
      apply placed_written hplaced
      intro after hafter
      obtain ⟨_, _, hupdate⟩ := Results.bind_eq_ok.mp hafter
      exact placed_after_update hplaced hupdate
  | delete tenantId key =>
      apply placed_written hplaced
      intro after hafter
      obtain ⟨_, _, hdelete⟩ := Results.bind_eq_ok.mp hafter
      exact placed_after_delete hplaced hdelete
  | get tenantId key => exact hplaced
  | getValue tenantId key => exact hplaced
  | list tenantId page perPage => exact hplaced
  | listKeys tenantId => exact hplaced

end Table

/-- Any calls on the two backends have the same outcomes. -/
theorem outcomes_mirror {config : Config} {words : WordTable} {server : Server}
    (cipher : Cipher) (hconfig : PrefixTight config) {calls : List Call}
    (hfits : ∀ call ∈ calls, call.Fits server) {rows : List SecretRow}
    (hplaced : Placed words rows) :
    outcomes (vaultProvider config words) words (mirror config cipher rows) calls =
      outcomes (databaseProvider server cipher) words rows calls := by
  induction calls generalizing rows with
  | nil => rfl
  | cons call calls ih =>
      rw [List.forall_mem_cons] at hfits
      unfold outcomes
      rw [step_mirror hconfig hplaced hfits.1]
      exact congrArg _ (ih hfits.2 (placed_step hplaced hfits.1))

/-! ## A tenant's own calls -/

/-- The outcomes of a tenant's calls. -/
def outcomesFor (tenantId : Text) (calls : List Call) (found : List (Except SecretError Reply)) :
    List (Except SecretError Reply) :=
  ((calls.zip found).filter fun entry => entry.1.tenantId = tenantId).map Prod.snd

theorem outcomesFor_cons (tenantId : Text) (call : Call) (calls : List Call)
    (outcome : Except SecretError Reply) (found : List (Except SecretError Reply)) :
    outcomesFor tenantId (call :: calls) (outcome :: found) =
      if call.tenantId = tenantId then outcome :: outcomesFor tenantId calls found
      else outcomesFor tenantId calls found := by
  unfold outcomesFor
  rw [List.zip_cons_cons, List.filter_cons]
  by_cases hown : call.tenantId = tenantId
  · rw [if_pos hown, if_pos (decide_eq_true hown), List.map_cons]
  · rw [if_neg hown, if_neg fun heq => hown (of_decide_eq_true heq)]

section Own

variable {words : WordTable} {server : Server} {cipher : Cipher} {rows : List SecretRow}
  {tenantId key : Text}

theorem lookup_rowsOf (rows : List SecretRow) (tenantId key : Text) :
    Table.lookup SecretRow.place (rowsOf rows tenantId) (tenantId, key) =
      Table.lookup SecretRow.place rows (tenantId, key) := by
  unfold Table.lookup rowsOf
  rw [List.find?_filter]
  congr 1
  funext row
  by_cases hplace : row.place = (tenantId, key)
  · have htenant : row.tenantId = tenantId := congrArg Prod.fst hplace
    rw [decide_eq_true hplace, decide_eq_true htenant]
    rfl
  · rw [decide_eq_false hplace]
    exact decide_eq_false fun hboth => Bool.false_ne_true hboth.2

theorem rowsOf_rowsOf (rows : List SecretRow) (tenantId : Text) :
    rowsOf (rowsOf rows tenantId) tenantId = rowsOf rows tenantId := by
  unfold rowsOf
  rw [List.filter_filter]
  simp

theorem rowsOf_update (rows : List SecretRow) (tenantId : Text) (place : Text × Text)
    (value : Text) :
    rowsOf (Table.updateAt SecretRow.place place (fun row => { row with value }) rows) tenantId =
      Table.updateAt SecretRow.place place (fun row => { row with value })
        (rowsOf rows tenantId) := by
  unfold Table.updateAt Table.updateWhere rowsOf
  rw [List.filter_map]
  congr 1
  apply List.filter_congr
  intro row _
  show decide (SecretRow.tenantId (if _ then _ else _) = tenantId) = _
  split
  · rfl
  · rfl

theorem rowsOf_delete (rows : List SecretRow) (tenantId : Text) (place : Text × Text) :
    rowsOf (rows.filter fun row => row.place ≠ place) tenantId =
      (rowsOf rows tenantId).filter fun row => row.place ≠ place := by
  unfold rowsOf
  rw [List.filter_filter, List.filter_filter]
  apply List.filter_congr
  intro row _
  exact Bool.and_comm _ _

theorem rowsOf_add (rows : List SecretRow) (key value tenantId : Text) (userId : Int) :
    rowsOf (rows ++ [⟨key, value, tenantId, userId⟩]) tenantId =
      rowsOf rows tenantId ++ [⟨key, value, tenantId, userId⟩] := by
  unfold rowsOf
  rw [List.filter_append]
  congr 1
  exact List.filter_cons_of_pos (decide_eq_true rfl)

/-- Nothing of another tenant is in the rows of a tenant. -/
theorem place_ne_of_rowsOf (rows : List SecretRow) {owner : Text} (hother : owner ≠ tenantId)
    (key : Text) : ∀ row ∈ rowsOf rows tenantId, row.place ≠ (owner, key) := by
  intro row hrow hplace
  have htenant : row.tenantId = tenantId := of_decide_eq_true (List.mem_filter.mp hrow).2
  have howner : row.tenantId = owner := congrArg Prod.fst hplace
  exact hother (howner.symm.trans htenant)

/-- The call of a tenant reads and writes the tenant's rows. -/
theorem step_own {call : Call} (hown : call.tenantId = tenantId) :
    step (databaseProvider server cipher) words (rowsOf rows tenantId) call =
      ((step (databaseProvider server cipher) words rows call).1,
        rowsOf (step (databaseProvider server cipher) words rows call).2 tenantId) := by
  cases call with
  | add owner key value userId =>
      have howner : owner = tenantId := hown
      unfold step addSecret databaseProvider
      dsimp only
      rw [howner]
      cases requireSecretKey words key with
      | error error => rfl
      | ok key =>
          dsimp only [bind, Except.bind]
          rw [lookup_rowsOf]
          cases Table.lookup SecretRow.place rows (tenantId, key) with
          | some row => rfl
          | none =>
              dsimp only
              by_cases hcolumns : (server.column key && server.column tenantId) = true
              · rw [if_pos hcolumns, if_pos hcolumns]
                dsimp only
                exact congrArg _ (rowsOf_add rows key _ tenantId userId).symm
              · rw [if_neg hcolumns, if_neg hcolumns]
  | get owner key =>
      have howner : owner = tenantId := hown
      unfold step getSecret databaseProvider
      dsimp only
      rw [howner]
      cases requireSecretKey words key with
      | error error => rfl
      | ok key =>
          dsimp only [bind, Except.bind]
          rw [lookup_rowsOf]
  | getValue owner key =>
      have howner : owner = tenantId := hown
      unfold step getSecretValue databaseProvider
      dsimp only
      rw [howner, lookup_rowsOf]
  | update owner key value =>
      have howner : owner = tenantId := hown
      unfold step updateSecret databaseProvider
      dsimp only
      rw [howner]
      cases requireSecretKey words key with
      | error error => rfl
      | ok key =>
          dsimp only [bind, Except.bind]
          rw [lookup_rowsOf]
          cases Table.lookup SecretRow.place rows (tenantId, key) with
          | none => rfl
          | some row => exact congrArg _ (rowsOf_update rows tenantId _ _).symm
  | delete owner key =>
      have howner : owner = tenantId := hown
      unfold step deleteSecret databaseProvider
      dsimp only
      rw [howner]
      cases requireSecretKey words key with
      | error error => rfl
      | ok key =>
          dsimp only [bind, Except.bind]
          rw [lookup_rowsOf]
          cases Table.lookup SecretRow.place rows (tenantId, key) with
          | none => rfl
          | some row => exact congrArg _ (rowsOf_delete rows tenantId _).symm
  | list owner page perPage =>
      have howner : owner = tenantId := hown
      have hrows : (rowsOf rows tenantId).filter (fun row => row.tenantId = tenantId) =
          rows.filter fun row => row.tenantId = tenantId := rowsOf_rowsOf rows tenantId
      unfold step databaseProvider orderedRows
      dsimp only
      rw [howner, hrows]
  | listKeys owner =>
      have howner : owner = tenantId := hown
      have hrows : (rowsOf rows tenantId).filter (fun row => row.tenantId = tenantId) =
          rows.filter fun row => row.tenantId = tenantId := rowsOf_rowsOf rows tenantId
      unfold step databaseProvider
      dsimp only
      rw [howner, hrows]

theorem update_other (rows : List SecretRow) {owner : Text} (hother : owner ≠ tenantId)
    (key value : Text) :
    rowsOf (Table.updateAt SecretRow.place (owner, key) (fun row => { row with value }) rows)
      tenantId = rowsOf rows tenantId := by
  rw [rowsOf_update]
  unfold Table.updateAt Table.updateWhere
  have hsame : (rowsOf rows tenantId).map (fun row =>
      if decide (row.place = (owner, key)) then { row with value } else row) =
        (rowsOf rows tenantId).map id := by
    apply List.map_congr_left
    intro row hrow
    rw [decide_eq_false (place_ne_of_rowsOf rows hother key row hrow), if_neg Bool.false_ne_true]
    rfl
  rw [hsame, List.map_id]

theorem delete_other (rows : List SecretRow) {owner : Text} (hother : owner ≠ tenantId)
    (key : Text) :
    rowsOf (rows.filter fun row => row.place ≠ (owner, key)) tenantId = rowsOf rows tenantId := by
  rw [rowsOf_delete, List.filter_eq_self]
  exact fun row hrow => decide_eq_true (place_ne_of_rowsOf rows hother key row hrow)

theorem rowsOf_written {outcome : Except SecretError (List SecretRow)}
    (h : ∀ after, outcome = .ok after → rowsOf after tenantId = rowsOf rows tenantId) :
    rowsOf (written rows outcome).2 tenantId = rowsOf rows tenantId := by
  cases outcome with
  | error error => rfl
  | ok after => exact h after rfl

/-- The call of another tenant leaves them alone. -/
theorem step_other {call : Call} (hother : call.tenantId ≠ tenantId) :
    rowsOf (step (databaseProvider server cipher) words rows call).2 tenantId =
      rowsOf rows tenantId := by
  cases call with
  | add owner key value userId =>
      unfold step addSecret databaseProvider
      dsimp only
      cases requireSecretKey words key with
      | error error => rfl
      | ok key =>
          dsimp only [bind, Except.bind]
          cases Table.lookup SecretRow.place rows (owner, key) with
          | some row => rfl
          | none =>
              dsimp only
              by_cases hcolumns : (server.column key && server.column owner) = true
              · rw [if_pos hcolumns]
                unfold rowsOf
                rw [List.filter_append, List.filter_cons_of_neg, List.filter_nil, List.append_nil]
                exact fun heq => hother (of_decide_eq_true heq)
              · rw [if_neg hcolumns]
  | update owner key value =>
      apply rowsOf_written
      intro after hafter
      obtain ⟨key, _, hupdate⟩ := Results.bind_eq_ok.mp hafter
      unfold databaseProvider at hupdate
      dsimp only at hupdate
      split at hupdate
      · cases hupdate
      · rw [← Except.ok.inj hupdate]
        exact update_other rows hother key _
  | delete owner key =>
      apply rowsOf_written
      intro after hafter
      obtain ⟨key, _, hdelete⟩ := Results.bind_eq_ok.mp hafter
      unfold databaseProvider at hdelete
      dsimp only at hdelete
      split at hdelete
      · cases hdelete
      · rw [← Except.ok.inj hdelete]
        exact delete_other rows hother key
  | get owner key => rfl
  | getValue owner key => rfl
  | list owner page perPage => rfl
  | listKeys owner => rfl

/-- The outcomes of a tenant's calls are those of its calls alone. -/
theorem outcomesFor_database (calls : List Call) (rows : List SecretRow) :
    outcomesFor tenantId calls (outcomes (databaseProvider server cipher) words rows calls) =
      outcomes (databaseProvider server cipher) words (rowsOf rows tenantId)
        (calls.filter fun call => call.tenantId = tenantId) := by
  induction calls generalizing rows with
  | nil => rfl
  | cons call calls ih =>
      rw [outcomes_cons, outcomesFor_cons]
      by_cases hown : call.tenantId = tenantId
      · have hfilter : (call :: calls).filter (fun call => call.tenantId = tenantId) =
            call :: calls.filter fun call => call.tenantId = tenantId :=
          List.filter_cons_of_pos (decide_eq_true hown)
        rw [if_pos hown, hfilter, outcomes_cons, step_own hown, ← ih]
      · have hfilter : (call :: calls).filter (fun call => call.tenantId = tenantId) =
            calls.filter fun call => call.tenantId = tenantId :=
          List.filter_cons_of_neg fun heq => hown (of_decide_eq_true heq)
        rw [if_neg hown, hfilter, ih, step_other hown]

end Own

/-! ## The backends -/

/-- On the same calls the two backends have the same outcomes, and on either of them those of
a tenant come from its own calls alone, in the database whatever the calls are. -/
theorem backends_agree (config : Config) (words : WordTable) (server : Server) (cipher : Cipher)
    (calls : List Call) :
    (PrefixTight config → (∀ call ∈ calls, call.Fits server) →
      outcomes (vaultProvider config words) words [] calls =
          outcomes (databaseProvider server cipher) words [] calls ∧
        ∀ tenantId,
          outcomesFor tenantId calls (outcomes (vaultProvider config words) words [] calls) =
            outcomes (vaultProvider config words) words []
              (calls.filter fun call => call.tenantId = tenantId)) ∧
    ∀ tenantId,
      outcomesFor tenantId calls (outcomes (databaseProvider server cipher) words [] calls) =
        outcomes (databaseProvider server cipher) words []
          (calls.filter fun call => call.tenantId = tenantId) := by
  have hown : ∀ tenantId, outcomesFor tenantId calls
      (outcomes (databaseProvider server cipher) words [] calls) =
        outcomes (databaseProvider server cipher) words []
          (calls.filter fun call => call.tenantId = tenantId) :=
    fun _ => outcomesFor_database calls []
  refine ⟨?_, hown⟩
  intro hconfig hfits
  have hagree : ∀ calls : List Call, (∀ call ∈ calls, call.Fits server) →
      outcomes (vaultProvider config words) words [] calls =
        outcomes (databaseProvider server cipher) words [] calls := fun calls hfits =>
    outcomes_mirror cipher hconfig hfits placed_nil
  refine ⟨hagree calls hfits, fun tenantId => ?_⟩
  rw [hagree calls hfits, hown tenantId, hagree]
  exact fun call hcall => hfits call (List.mem_of_mem_filter hcall)

/-- Calls of two tenants with a key of the same name. -/
def twoTenants : List Call :=
  [.add "a".toList "k".toList "1".toList 7, .add "b".toList " k".toList "2".toList 8,
    .add "a".toList "j".toList "3".toList 7, .update "b".toList "k".toList "4".toList,
    .list "a".toList 0 1, .delete "a".toList "k".toList, .getValue "b".toList "k".toList,
    .getValue "a".toList "k".toList, .delete "a".toList "k".toList]

theorem backends_agree_two :
    outcomes (databaseProvider bigintServer markCipher) asciiWords [] twoTenants =
        [.ok (.record ⟨"k".toList, 7, "a".toList⟩), .ok (.record ⟨"k".toList, 8, "b".toList⟩),
          .ok (.record ⟨"j".toList, 7, "a".toList⟩), .ok .done,
          .ok (.page ⟨[⟨"j".toList, 7, "a".toList⟩], 2, 1, 1⟩), .ok .done,
          .ok (.value (some "4".toList)), .ok (.value none),
          .error (deleteSecretError "k".toList)] ∧
      outcomes (vaultProvider defaultConfig asciiWords) asciiWords [] twoTenants =
        outcomes (databaseProvider bigintServer markCipher) asciiWords [] twoTenants :=
  ⟨by decide +kernel,
    ((backends_agree defaultConfig asciiWords bigintServer markCipher twoTenants).1 (by decide)
      (by decide)).1⟩

/-- What the two make of other calls: the vault provider trims the ids of tenants, which joins
two tenants, and refuses blank ones; the table has a limit for keys and for offsets. -/
theorem backends_differ :
    outcomes (vaultProvider defaultConfig asciiWords) asciiWords []
        [.add "a".toList "k".toList "1".toList 7, .getValue " a".toList "k".toList] =
      [.ok (.record ⟨"k".toList, 7, "a".toList⟩), .ok (.value (some "1".toList))] ∧
    outcomes (databaseProvider bigintServer markCipher) asciiWords []
        [.add "a".toList "k".toList "1".toList 7, .getValue " a".toList "k".toList] =
      [.ok (.record ⟨"k".toList, 7, "a".toList⟩), .ok (.value none)] ∧
    outcomes (vaultProvider defaultConfig asciiWords) asciiWords []
        [.add " ".toList "k".toList "1".toList 7] =
      [.error (.valueError "tenant_id must not be empty.")] ∧
    outcomes (databaseProvider bigintServer markCipher) asciiWords []
        [.add " ".toList "k".toList "1".toList 7] =
      [.ok (.record ⟨"k".toList, 7, " ".toList⟩)] ∧
    outcomes (vaultProvider defaultConfig asciiWords) asciiWords []
        [.list "a".toList (2 ^ 64) 100] = [.ok (.page ⟨[], 0, 2 ^ 64, 100⟩)] ∧
    outcomes (databaseProvider bigintServer markCipher) asciiWords []
        [.list "a".toList (2 ^ 64) 100] = [.error .dataError] :=
  ⟨by decide +kernel, by decide +kernel, by decide +kernel, by decide +kernel, by decide +kernel,
    by decide +kernel⟩

end M8flow.Secrets
