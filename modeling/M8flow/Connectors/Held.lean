import M8flow.Connectors.Service

/-!
# What connector profiles hold

The values that a profile resolves to are those that the successful calls on it left: for each
field the last value that was set, unless the field was cleared since.

- `After` says what a write of secrets leaves of a profile and of everything else;
  `setFields_spec` and `clearFields_spec` are the loops of an update.
- `Kept` is the invariant of the two tables, and `attempt_spec` what one call does to them.
- `profiles_hold` is any run of calls.
-/

namespace M8flow.Connectors

open M8flow.Lib M8flow.Secrets

/-! ## The names of secrets -/

theorem isDigit_of_mem_ofNat {n : Nat} {c : Char} (h : c ∈ Text.ofNat n) : c.isDigit = true :=
  Nat.isDigit_of_mem_toDigits (by decide) (by decide) h

theorem ofNat_inj {n m : Nat} (h : Text.ofNat n = Text.ofNat m) : n = m := by
  have hvalue : Nat.ofDigitChars 10 (Text.ofNat n) 0 = Nat.ofDigitChars 10 (Text.ofNat m) 0 := by
    rw [h]
  unfold Text.ofNat at hvalue
  rwa [Nat.ofDigitChars_ten_toDigits, Nat.ofDigitChars_ten_toDigits] at hvalue

/-- Texts without a separator before their first separator are equal. -/
theorem eq_of_append_cons {c : Char} {s t u v : Text} (hs : c ∉ s) (ht : c ∉ t)
    (h : s ++ c :: u = t ++ c :: v) : s = t ∧ u = v := by
  induction s generalizing t with
  | nil =>
      cases t with
      | nil => exact ⟨rfl, (List.cons.inj h).2⟩
      | cons d t => exact absurd ((List.cons.inj h).1 ▸ List.mem_cons_self) ht
  | cons d s ih =>
      cases t with
      | nil => exact absurd ((List.cons.inj h).1 ▸ List.mem_cons_self) hs
      | cons e t =>
          obtain ⟨hfirst, hrest⟩ := List.cons.inj h
          obtain ⟨hsame, hlast⟩ := ih (fun hmem => hs (List.mem_cons_of_mem d hmem))
            (fun hmem => ht (List.mem_cons_of_mem e hmem)) hrest
          exact ⟨by rw [hfirst, hsame], hlast⟩

/-- A secret belongs to one field of one profile. -/
theorem secretRef_inj {id other : Nat} {name name' : Text}
    (h : secretRef id name = secretRef other name') : id = other ∧ name = name' := by
  unfold secretRef at h
  have hmark : ∀ n, '_' ∉ Text.ofNat n := by
    intro n hmem
    have hdigit := isDigit_of_mem_ofNat hmem
    revert hdigit
    decide
  obtain ⟨hid, hname⟩ := eq_of_append_cons (hmark id) (hmark other) (List.append_cancel_left h)
  exact ⟨ofNat_inj hid, hname⟩

section Names

variable {words : WordTable} {connectorType name : Text}

theorem isWord_of_mark {c : Char} (h : c.isAlphanum = true ∨ c = '_') (hascii : c.toNat < 128) :
    isWord words.unicode c = true := by
  unfold isWord
  rw [if_pos hascii, Bool.or_eq_true, beq_iff_eq]
  exact h

theorem toNat_lt_of_mark {c : Char} (h : c.isAlphanum = true ∨ c = '_') : c.toNat < 128 := by
  rcases h with halnum | hunderscore
  · exact Percent.toNat_lt_of_isAlphanum halnum
  · rw [hunderscore]
    decide

/-- The name of a field's secret is a key of the secrets. -/
theorem isKey_secretRef (words : WordTable) (h : name ∈ secretFieldNames connectorType)
    (id : Nat) : isKey words (secretRef id name) = true := by
  have hchars : ∀ c ∈ secretRef id name, c.isAlphanum = true ∨ c = '_' := by
    intro c hc
    unfold secretRef at hc
    rcases List.mem_append.mp hc with hfirst | hrest
    · have hall : "cnx_".toList.all (fun c => c.isAlphanum || c = '_') = true := by decide
      have hchar := List.all_eq_true.mp hall c hfirst
      rwa [Bool.or_eq_true, decide_eq_true_eq] at hchar
    · rcases List.mem_append.mp hrest with hdigits | hmore
      · exact .inl (Bool.or_eq_true_iff.mpr (.inr (isDigit_of_mem_ofNat hdigits)))
      · rcases List.mem_cons.mp hmore with hmark | hname
        · exact .inr hmark
        · exact chars_of_secretFieldNames h c hname
  unfold isKey
  rw [Bool.and_eq_true, List.all_eq_true, decide_eq_true_eq]
  refine ⟨fun hnil => ?_, fun c hc => isWord_of_mark (hchars c hc) (toNat_lt_of_mark (hchars c hc))⟩
  cases hnil

end Names

/-! ## What a write leaves -/

/-- The value of a field: that of the secret it refers to. -/
def heldIn (cipher : Cipher) (tenantId : Text) (refs : Dict Text Text) (secrets : List SecretRow)
    (name : Text) : Option Text :=
  (refs.get? name).bind fun key => valueAt cipher secrets (tenantId, key)

/-- Every reference of a profile is to a secret of its own that is there. -/
def RefsKept (words : WordTable) (cipher : Cipher) (tenantId : Text) (id : Nat)
    (refs : Dict Text Text) (secrets : List SecretRow) : Prop :=
  ∀ name key, refs.get? name = some key → key = secretRef id name ∧ isKey words key = true ∧
    (valueAt cipher secrets (tenantId, key)).isSome = true

/-- A write of the secrets of one profile: its values afterwards, and what is left alone. -/
structure After (words : WordTable) (cipher : Cipher) (tenantId : Text) (id : Nat)
    (secrets : List SecretRow) (values : Text → Option Text)
    (written : Dict Text Text × List SecretRow) : Prop where
  unique : Unique written.2
  kept : RefsKept words cipher tenantId id written.1 written.2
  held : ∀ name, heldIn cipher tenantId written.1 written.2 name = values name
  frame : ∀ place, (∀ name, place ≠ (tenantId, secretRef id name)) →
    valueAt cipher written.2 place = valueAt cipher secrets place

section Writes

variable {words : WordTable} {server : Server} {cipher : Cipher} {tenantId name value : Text}
  {id : Nat} {userId : Int} {refs : Dict Text Text} {secrets : List SecretRow}
  {written : Dict Text Text × List SecretRow}

theorem After.trans {values values' : Text → Option Text}
    {more : Dict Text Text × List SecretRow}
    (h : After words cipher tenantId id secrets values written)
    (h' : After words cipher tenantId id written.2 values' more) :
    After words cipher tenantId id secrets values' more where
  unique := h'.unique
  kept := h'.kept
  held := h'.held
  frame place hplace := (h'.frame place hplace).trans (h.frame place hplace)

/-- The value of a field is looked up under the name of its secret. -/
theorem heldIn_of_refsKept (hkept : RefsKept words cipher tenantId id refs secrets)
    (name : Text) : heldIn cipher tenantId refs secrets name =
      if (refs.get? name).isSome then valueAt cipher secrets (tenantId, secretRef id name)
      else none := by
  unfold heldIn
  cases hget : refs.get? name with
  | none => rfl
  | some key =>
      rw [(hkept name key hget).1]
      rfl

/-- A secret that is added under a field's name becomes the value of the field. -/
theorem after_add (hunique : Unique secrets)
    (hkept : RefsKept words cipher tenantId id refs secrets)
    (hkey : isKey words (secretRef id name) = true) {record : SecretRecord}
    {after : List SecretRow}
    (h : addSecret (databaseProvider server cipher) words secrets tenantId (secretRef id name)
      value userId = .ok (record, after)) :
    After words cipher tenantId id secrets
      (fun other => if other = name then some value else heldIn cipher tenantId refs secrets other)
      (refs.set name (secretRef id name), after) := by
  obtain ⟨_, _, huniqueAfter, hafter⟩ := addSecret_spec (strip_of_isKey hkey) hunique h
  have hplace : ∀ other, (tenantId, secretRef id other) = (tenantId, secretRef id name) →
      other = name := fun other heq => (secretRef_inj (congrArg Prod.snd heq)).2
  have hkeptAfter : RefsKept words cipher tenantId id (refs.set name (secretRef id name)) after := by
    intro other key hget
    rw [Dict.get?_set] at hget
    by_cases hsame : other = name
    · rw [if_pos hsame] at hget
      have hkeySame := Option.some.inj hget
      rw [← hkeySame, hafter, if_pos rfl, hsame]
      exact ⟨rfl, hkey, rfl⟩
    · rw [if_neg hsame] at hget
      obtain ⟨href, hword, hthere⟩ := hkept other key hget
      refine ⟨href, hword, ?_⟩
      rw [hafter]
      split
      · rfl
      · exact hthere
  refine ⟨huniqueAfter, hkeptAfter, ?_, ?_⟩
  · intro other
    rw [heldIn_of_refsKept hkeptAfter, hafter, Dict.get?_set]
    by_cases hsame : other = name
    · rw [if_pos hsame, if_pos hsame, hsame, if_pos rfl]
      rfl
    · rw [if_neg hsame, if_neg hsame, if_neg fun heq => hsame (hplace other heq),
        heldIn_of_refsKept hkept]
  · intro place hother
    rw [hafter, if_neg (hother name)]

/-- A secret that takes a value under a field's name keeps the references. -/
theorem after_update (hunique : Unique secrets)
    (hkept : RefsKept words cipher tenantId id refs secrets)
    (hget : refs.get? name = some (secretRef id name)) {after : List SecretRow}
    (h : updateSecret (databaseProvider server cipher) words secrets tenantId (secretRef id name)
      value = .ok after) :
    After words cipher tenantId id secrets
      (fun other => if other = name then some value else heldIn cipher tenantId refs secrets other)
      (refs, after) := by
  have hkey := (hkept name _ hget).2.1
  obtain ⟨_, huniqueAfter, hafter⟩ := updateSecret_spec (strip_of_isKey hkey) hunique h
  have hplace : ∀ other, (tenantId, secretRef id other) = (tenantId, secretRef id name) →
      other = name := fun other heq => (secretRef_inj (congrArg Prod.snd heq)).2
  have hkeptAfter : RefsKept words cipher tenantId id refs after := by
    intro other key hother
    obtain ⟨href, hword, hthere⟩ := hkept other key hother
    refine ⟨href, hword, ?_⟩
    rw [hafter]
    split
    · rfl
    · exact hthere
  refine ⟨huniqueAfter, hkeptAfter, ?_, ?_⟩
  · intro other
    rw [heldIn_of_refsKept hkeptAfter, hafter]
    by_cases hsame : other = name
    · rw [if_pos hsame, hsame, hget, if_pos rfl]
      rfl
    · rw [if_neg hsame, if_neg fun heq => hsame (hplace other heq), heldIn_of_refsKept hkept]
  · intro place hother
    rw [hafter, if_neg (hother name)]

/-- The error of a missing secret is the one that is ignored. -/
theorem ignoreMissing_eq_ok {outcome : Except SecretError (List SecretRow)}
    {found : Option (List SecretRow)} (h : ignoreMissing outcome = .ok found) :
    (∃ after, outcome = .ok after ∧ found = some after) ∨
      ∃ error, outcome = .error error ∧ found = none := by
  cases outcome with
  | ok after => exact .inl ⟨after, rfl, (Except.ok.inj h).symm⟩
  | error error =>
      right
      refine ⟨error, rfl, ?_⟩
      cases error with
      | api error =>
          unfold ignoreMissing at h
          dsimp only at h
          split at h
          · exact (Except.ok.inj h).symm
          · cases h
      | valueError message => cases h
      | dataError => cases h

/-- One field that is set. -/
theorem setField_spec (hunique : Unique secrets)
    (hkept : RefsKept words cipher tenantId id refs secrets)
    (hkey : isKey words (secretRef id name) = true)
    (h : setField words server cipher tenantId id userId name value refs secrets = .ok written) :
    After words cipher tenantId id secrets
      (fun other => if other = name then some value else heldIn cipher tenantId refs secrets other)
      written := by
  have hname : keyOf id refs name = secretRef id name := by
    unfold keyOf
    cases hget : refs.get? name with
    | none => rfl
    | some key =>
        have hne : key ≠ [] := ne_nil_of_isKey (hkept name key hget).2.1
        rw [truthy_eq_some.mpr ⟨rfl, hne⟩]
        exact (hkept name key hget).1
  unfold setField at h
  dsimp only at h
  rw [hname] at h
  obtain ⟨found, hfound, h⟩ := Results.bind_eq_ok.mp h
  unfold updateExisting at hfound
  cases hget : refs.get? name with
  | none =>
      rw [hget] at hfound
      rw [← Except.ok.inj hfound] at h
      obtain ⟨⟨record, after⟩, hadd, h⟩ := Results.bind_eq_ok.mp h
      rw [← Except.ok.inj h]
      exact after_add hunique hkept hkey hadd
  | some key =>
      rw [hget] at hfound
      rw [(hkept name key hget).1] at hget
      rcases ignoreMissing_eq_ok hfound with hupdated | hmissing
      · obtain ⟨after, hupdate, hsome⟩ := hupdated
        rw [hsome] at h
        rw [← Except.ok.inj h]
        exact after_update hunique hkept hget hupdate
      · obtain ⟨_, _, hnone⟩ := hmissing
        rw [hnone] at h
        obtain ⟨⟨record, after⟩, hadd, h⟩ := Results.bind_eq_ok.mp h
        rw [← Except.ok.inj h]
        exact after_add hunique hkept hkey hadd

/-- The last value that a list gives a name. -/
def lastIn : List (Text × Text) → Text → Option Text
  | [], _ => none
  | (name, value) :: rest, other =>
      (lastIn rest other).or (if other = name then some value else none)

/-- The fields that are set have their last values. -/
theorem setFields_spec {values : List (Text × Text)} (hunique : Unique secrets)
    (hkept : RefsKept words cipher tenantId id refs secrets)
    (hkeys : ∀ entry ∈ values, isKey words (secretRef id entry.1) = true)
    (h : setFields words server cipher tenantId id userId values refs secrets = .ok written) :
    After words cipher tenantId id secrets
      (fun other => (lastIn values other).or (heldIn cipher tenantId refs secrets other))
      written := by
  induction values generalizing refs secrets with
  | nil =>
      rw [← Except.ok.inj h]
      exact ⟨hunique, hkept, fun _ => rfl, fun _ _ => rfl⟩
  | cons entry rest ih =>
      obtain ⟨name, value⟩ := entry
      rw [List.forall_mem_cons] at hkeys
      unfold setFields at h
      obtain ⟨first, hfirst, h⟩ := Results.bind_eq_ok.mp h
      have hset := setField_spec hunique hkept hkeys.1 hfirst
      have hmore := ih hset.unique hset.kept hkeys.2 h
      refine ⟨hmore.unique, hmore.kept, fun other => ?_, (hset.trans hmore).frame⟩
      rw [hmore.held, hset.held, lastIn, Option.or_assoc]
      split
      · rfl
      · rfl

/-- The fields of a new profile have their last values. -/
theorem writeEach_spec {values : List (Text × Text)} (hunique : Unique secrets)
    (hkept : RefsKept words cipher tenantId id refs secrets)
    (hkeys : ∀ entry ∈ values, isKey words (secretRef id entry.1) = true)
    (h : writeEach words server cipher tenantId id userId values refs secrets = .ok written) :
    After words cipher tenantId id secrets
      (fun other => (lastIn values other).or (heldIn cipher tenantId refs secrets other))
      written := by
  induction values generalizing refs secrets with
  | nil =>
      rw [← Except.ok.inj h]
      exact ⟨hunique, hkept, fun _ => rfl, fun _ _ => rfl⟩
  | cons entry rest ih =>
      obtain ⟨name, value⟩ := entry
      rw [List.forall_mem_cons] at hkeys
      unfold writeEach at h
      obtain ⟨⟨record, after⟩, hadd, h⟩ := Results.bind_eq_ok.mp h
      have hset := after_add hunique hkept hkeys.1 hadd
      have hmore := ih hset.unique hset.kept hkeys.2 h
      refine ⟨hmore.unique, hmore.kept, fun other => ?_, (hset.trans hmore).frame⟩
      rw [hmore.held, hset.held, lastIn, Option.or_assoc]
      split
      · rfl
      · rfl

end Writes

section Clears

variable {words : WordTable} {server : Server} {cipher : Cipher} {tenantId name : Text}
  {id : Nat} {refs : Dict Text Text} {secrets : List SecretRow}
  {written : Dict Text Text × List SecretRow}

theorem refsKept_pop (hkept : RefsKept words cipher tenantId id refs secrets) {after : List SecretRow}
    (hafter : ∀ place, place ≠ (tenantId, secretRef id name) →
      valueAt cipher after place = valueAt cipher secrets place) :
    RefsKept words cipher tenantId id (refs.pop name) after := by
  intro other key hget
  rw [Dict.get?_pop] at hget
  split at hget
  · cases hget
  · rename_i hother
    obtain ⟨href, hword, hthere⟩ := hkept other key hget
    refine ⟨href, hword, ?_⟩
    rw [hafter]
    · exact hthere
    · intro hplace
      rw [href] at hplace
      exact hother (secretRef_inj (congrArg Prod.snd hplace)).2

/-- A field without its reference has no value, and the others have theirs. -/
theorem after_pop (hkept : RefsKept words cipher tenantId id refs secrets)
    {after : List SecretRow} (huniqueAfter : Unique after)
    (hafter : ∀ place, place ≠ (tenantId, secretRef id name) →
      valueAt cipher after place = valueAt cipher secrets place) :
    After words cipher tenantId id secrets
      (fun other => if other = name then none else heldIn cipher tenantId refs secrets other)
      (refs.pop name, after) := by
  refine ⟨huniqueAfter, refsKept_pop hkept hafter, fun other => ?_, fun place hplace => ?_⟩
  · rw [heldIn_of_refsKept (refsKept_pop hkept hafter), Dict.get?_pop]
    by_cases hsame : other = name
    · rw [if_pos hsame, if_pos hsame]
      rfl
    · rw [if_neg hsame, if_neg hsame, heldIn_of_refsKept hkept, hafter]
      exact fun hplace => hsame (secretRef_inj (congrArg Prod.snd hplace)).2
  · exact hafter place (hplace name)

/-- One field that is cleared. -/
theorem clearField_spec (hunique : Unique secrets)
    (hkept : RefsKept words cipher tenantId id refs secrets)
    (h : clearField words server cipher tenantId name refs secrets = .ok written) :
    After words cipher tenantId id secrets
      (fun other => if other = name then none else heldIn cipher tenantId refs secrets other)
      written := by
  unfold clearField at h
  cases hget : refs.get? name with
  | none =>
      rw [hget] at h
      rw [← Except.ok.inj h]
      exact after_pop hkept hunique fun _ _ => rfl
  | some key =>
      rw [hget] at h
      obtain ⟨removed, hremoved, h⟩ := Results.bind_eq_ok.mp h
      rw [← Except.ok.inj h]
      obtain ⟨href, hword, _⟩ := hkept name key hget
      rcases ignoreMissing_eq_ok hremoved with hdeleted | hmissing
      · obtain ⟨after, hdelete, hsome⟩ := hdeleted
        obtain ⟨huniqueAfter, hafter⟩ := deleteSecret_spec (strip_of_isKey hword) hunique hdelete
        rw [hsome]
        apply after_pop hkept huniqueAfter
        intro place hplace
        rw [hafter, href, if_neg hplace]
      · obtain ⟨_, _, hnone⟩ := hmissing
        rw [hnone]
        exact after_pop hkept hunique fun _ _ => rfl

theorem clearFields_spec {names : List Text} (hunique : Unique secrets)
    (hkept : RefsKept words cipher tenantId id refs secrets)
    (h : clearFields words server cipher tenantId names refs secrets = .ok written) :
    After words cipher tenantId id secrets
      (fun other => if other ∈ names then none else heldIn cipher tenantId refs secrets other)
      written := by
  induction names generalizing refs secrets with
  | nil =>
      rw [← Except.ok.inj h]
      exact ⟨hunique, hkept, fun _ => rfl, fun _ _ => rfl⟩
  | cons name names ih =>
      unfold clearFields at h
      obtain ⟨first, hfirst, h⟩ := Results.bind_eq_ok.mp h
      have hclear := clearField_spec hunique hkept hfirst
      have hmore := ih hclear.unique hclear.kept h
      refine ⟨hmore.unique, hmore.kept, fun other => ?_, (hclear.trans hmore).frame⟩
      rw [hmore.held, hclear.held]
      by_cases hsame : other = name
      · rw [if_pos hsame, ite_self, if_pos (hsame ▸ List.mem_cons_self)]
      · rw [if_neg hsame]
        by_cases hmem : other ∈ names
        · rw [if_pos hmem, if_pos (List.mem_cons_of_mem _ hmem)]
        · rw [if_neg hmem, if_neg]
          intro hcons
          rcases List.mem_cons.mp hcons with heq | hlater
          · exact hsame heq
          · exact hmem hlater

end Clears

/-! ## What a body gives -/

/-- The value that a configuration gives a field. -/
def given (config : Dict Text ConfigValue) (name : Text) : Option Text :=
  match config.get? name with
  | some (.text s) => if s = [] then none else some s
  | some (.number shown) => some shown
  | _ => none

/-- The value that a body gives a field. -/
def givenBy (body : Body) (name : Text) : Option Text :=
  match body.config with
  | some (some config) => given config name
  | _ => none

section Given

variable {config : Dict Text ConfigValue} {connectorType name : Text}

theorem fieldValue_eq_ok {value : Option Text} (h : fieldValue config name = .ok value) :
    value = given config name := by
  unfold fieldValue at h
  unfold given
  cases hget : config.get? name with
  | none =>
      rw [hget] at h
      exact (Except.ok.inj h).symm
  | some value =>
      rw [hget] at h
      cases value with
      | null => exact (Except.ok.inj h).symm
      | text s =>
          dsimp only at h ⊢
          split at h
          · rename_i hempty
            rw [if_pos hempty]
            exact (Except.ok.inj h).symm
          · rename_i hempty
            rw [if_neg hempty]
            exact (Except.ok.inj h).symm
      | number shown => exact (Except.ok.inj h).symm
      | bool b => cases h
      | nested => cases h

/-- The values that are read are those that are given, of the names that are read. -/
theorem secretValues_spec {names : List Text} {values : List (Text × Text)}
    (h : secretValues config names = .ok values) :
    (∀ entry ∈ values, entry.1 ∈ names) ∧
      ∀ name, lastIn values name = if name ∈ names then given config name else none := by
  induction names generalizing values with
  | nil =>
      rw [← Except.ok.inj h]
      exact ⟨fun _ hmem => absurd hmem List.not_mem_nil, fun _ => rfl⟩
  | cons first names ih =>
      unfold secretValues at h
      obtain ⟨value, hvalue, h⟩ := Results.bind_eq_ok.mp h
      obtain ⟨rest, hrest, h⟩ := Results.bind_eq_ok.mp h
      obtain ⟨hnames, hlast⟩ := ih hrest
      have hgiven := fieldValue_eq_ok hvalue
      rw [← Except.ok.inj h]
      constructor
      · intro entry hentry
        rcases List.mem_append.mp hentry with hfirst | hmore
        · cases hcase : value with
          | none =>
              rw [hcase] at hfirst
              cases hfirst
          | some text =>
              rw [hcase] at hfirst
              rw [List.mem_singleton.mp hfirst]
              exact List.mem_cons_self
        · exact List.mem_cons_of_mem _ (hnames entry hmore)
      · intro name
        have hsplit : lastIn ((value.map fun value => (first, value)).toList ++ rest) name =
            (lastIn rest name).or (if name = first then value else none) := by
          cases value with
          | none => simp
          | some text => rfl
        rw [hsplit, hlast, hgiven]
        by_cases hsame : name = first
        · rw [hsame, if_pos rfl, if_pos List.mem_cons_self]
          split
          · rw [Option.or_self]
          · rfl
        · rw [if_neg hsame, Option.or_none]
          by_cases hmem : name ∈ names
          · rw [if_pos hmem, if_pos (List.mem_cons_of_mem _ hmem)]
          · rw [if_neg hmem, if_neg]
            intro hcons
            rcases List.mem_cons.mp hcons with heq | hlater
            · exact hsame heq
            · exact hmem hlater

/-- The values that are read of a configuration are those that it gives. -/
theorem secretValuesFromConfig_spec {values : List (Text × Text)}
    (h : secretValuesFromConfig connectorType config = .ok values) :
    (∀ entry ∈ values, entry.1 ∈ secretFieldNames connectorType) ∧
      ∀ name, lastIn values name = given config name := by
  unfold secretValuesFromConfig at h
  dsimp only at h
  split at h
  · cases h
  · rename_i hunknown
    rw [ne_eq, not_not, List.filter_eq_nil_iff] at hunknown
    obtain ⟨hnames, hlast⟩ := secretValues_spec h
    refine ⟨hnames, fun name => ?_⟩
    rw [hlast]
    split
    · rfl
    · rename_i hmem
      have hnone : config.get? name = none := by
        rw [Dict.get?_eq_none]
        intro hkey
        exact hunknown name hkey (decide_eq_true hmem)
      unfold given
      rw [hnone]

theorem configFromBody_spec {body : Body} (h : configFromBody body = .ok config) :
    ∀ name, given config name = givenBy body name := by
  intro name
  unfold configFromBody at h
  unfold givenBy
  cases hbody : body.config with
  | none =>
      rw [hbody] at h
      rw [← Except.ok.inj h]
      rfl
  | some submitted =>
      rw [hbody] at h
      cases submitted with
      | none => cases h
      | some config' => rw [Except.ok.inj h]

end Given

/-! ## The tables -/

/-- The columns of the unique constraint. -/
def Profile.name (profile : Profile) : Text × Text × Text :=
  (profile.tenantId, profile.connectorType, profile.profileName)

/-- The invariant of the two tables. -/
structure Kept (words : WordTable) (cipher : Cipher) (state : State) : Prop where
  ids : (state.profiles.map Profile.id).Nodup
  names : (state.profiles.map Profile.name).Nodup
  fresh : ∀ profile ∈ state.profiles, profile.id < state.nextId
  unique : Unique state.secrets
  refs : ∀ profile ∈ state.profiles,
    RefsKept words cipher profile.tenantId profile.id profile.secretRefs state.secrets
  config : ∀ profile ∈ state.profiles, profile.configJson = .empty

/-- The value of a profile's field. -/
def valueOf (cipher : Cipher) (state : State) (profile : Profile) (name : Text) : Option Text :=
  heldIn cipher profile.tenantId profile.secretRefs state.secrets name

/-- What a successful call did to the values of its profile. -/
structure Event where
  profileId : Nat
  sets : Text → Option Text
  clears : List Text

/-- The values after the call: those that were set, those of before, and none where cleared. -/
def Event.apply (event : Event) (values : Text → Option Text) (name : Text) : Option Text :=
  if name ∈ event.clears then none else (event.sets name).or (values name)

/-- The fields that a body clears. -/
def clearedBy (body : Body) : List Text := (body.clear.getD []).filterMap id

/-- The event of a call that was about a profile. -/
def eventOf (call : Call) (profileId : Nat) : Event :=
  match call with
  | .create _ body _ => ⟨profileId, givenBy body, []⟩
  | .update _ _ body _ => ⟨profileId, givenBy body, clearedBy body⟩
  | .deactivate _ _ => ⟨profileId, fun _ => none, []⟩

section Tables

variable {words : WordTable} {server : Server} {cipher : Cipher} {state after : State}
  {profile : Profile}

/-- A profile is found by its names. -/
theorem byName_of_mem (hkept : Kept words cipher state) (hmem : profile ∈ state.profiles) :
    byName state profile.tenantId profile.connectorType profile.profileName = some profile := by
  unfold byName
  cases hfind : state.profiles.find? fun other => other.tenantId = profile.tenantId ∧
      other.connectorType = profile.connectorType ∧ other.profileName = profile.profileName with
  | none => exact absurd (decide_eq_true ⟨rfl, rfl, rfl⟩) (List.find?_eq_none.mp hfind profile hmem)
  | some other =>
      have hmatch := List.find?_some hfind
      have hnames := of_decide_eq_true hmatch
      have hsame : other.name = profile.name := by
        unfold Profile.name
        rw [hnames.1, hnames.2.1, hnames.2.2]
      rw [List.inj_on_of_nodup_map hkept.names (List.mem_of_find?_eq_some hfind) hmem hsame]

theorem getProfile_eq_ok {tenantId : Text} {profileId : Nat}
    (h : getProfile state tenantId profileId = .ok profile) :
    profile ∈ state.profiles ∧ profile.tenantId = tenantId ∧ profile.id = profileId := by
  unfold getProfile at h
  cases hfind : state.profiles.find? fun profile =>
      profile.tenantId = tenantId ∧ profile.id = profileId with
  | none =>
      rw [hfind] at h
      cases h
  | some found =>
      rw [hfind] at h
      have hmatch := List.find?_some hfind
      rw [← Except.ok.inj h]
      exact ⟨List.mem_of_find?_eq_some hfind, of_decide_eq_true hmatch⟩

/-- What a call leaves: the invariant, the other profiles, and the values. -/
structure Effect (words : WordTable) (cipher : Cipher) (state : State) (event : Event)
    (profile : Profile) (after : State) : Prop where
  kept : Kept words cipher after
  mem : profile ∈ after.profiles
  later : state.nextId ≤ after.nextId
  known : profile.id < after.nextId
  others : ∀ other, other.id ≠ profile.id →
    (other ∈ after.profiles ↔ other ∈ state.profiles)
  same : ∀ other ∈ state.profiles, other.id ≠ profile.id → ∀ name,
    valueAt cipher after.secrets (other.tenantId, secretRef other.id name) =
      valueAt cipher state.secrets (other.tenantId, secretRef other.id name)
  values : ∀ before : Text → Option Text,
    (∀ old ∈ state.profiles, old.id = profile.id → ∀ name, valueOf cipher state old name = before name) →
    (profile.id = state.nextId → ∀ name, before name = none) →
    ∀ name, valueOf cipher after profile name = event.apply before name

/-- The secrets of another profile are not those that a write changes. -/
theorem frame_other {tenantId : Text} {id : Nat} {secrets : List SecretRow}
    {values : Text → Option Text} {written : Dict Text Text × List SecretRow}
    (h : After words cipher tenantId id secrets values written) {other : Profile}
    (hother : other.id ≠ id) (name : Text) :
    valueAt cipher written.2 (other.tenantId, secretRef other.id name) =
      valueAt cipher secrets (other.tenantId, secretRef other.id name) := by
  apply h.frame
  intro name' hplace
  exact hother (secretRef_inj (congrArg Prod.snd hplace)).1

theorem refsKept_frame {tenantId : Text} {id : Nat} {refs : Dict Text Text}
    {secrets changed : List SecretRow} (hkept : RefsKept words cipher tenantId id refs secrets)
    (hframe : ∀ name, valueAt cipher changed (tenantId, secretRef id name) =
      valueAt cipher secrets (tenantId, secretRef id name)) :
    RefsKept words cipher tenantId id refs changed := by
  intro name key hget
  obtain ⟨href, hword, hthere⟩ := hkept name key hget
  refine ⟨href, hword, ?_⟩
  rw [href, hframe, ← href]
  exact hthere

/-- A write of the secrets of a profile that is there. -/
theorem effect_put (hkept : Kept words cipher state) {old : Profile} (hold : old ∈ state.profiles)
    (hid : profile.id = old.id) (hname : profile.name = old.name)
    (hconfig : profile.configJson = old.configJson) {event : Event}
    {secrets : List SecretRow} {values : Text → Option Text}
    (h : After words cipher profile.tenantId profile.id state.secrets values
      (profile.secretRefs, secrets))
    (hvalues : ∀ name, values name = event.apply (valueOf cipher state old) name) :
    Effect words cipher state event profile (state.put profile secrets) := by
  have hmem : ∀ other, other ∈ (state.put profile secrets).profiles ↔
      other = profile ∨ (other ∈ state.profiles ∧ other.id ≠ profile.id) := by
    intro other
    unfold State.put
    rw [List.mem_map]
    constructor
    · intro hother
      obtain ⟨row, hrow, hsame⟩ := hother
      split at hsame
      · exact .inl hsame.symm
      · rename_i hne
        rw [← hsame]
        exact .inr ⟨hrow, hne⟩
    · intro hother
      rcases hother with hsame | hstays
      · exact ⟨old, hold, by rw [if_pos hid.symm, hsame]⟩
      · exact ⟨other, hstays.1, if_neg hstays.2⟩
  have hsameId : (state.put profile secrets).profiles.map Profile.id =
      state.profiles.map Profile.id := by
    unfold State.put
    rw [List.map_map]
    apply List.map_congr_left
    intro row _
    show Profile.id (if row.id = profile.id then profile else row) = row.id
    split
    · rename_i hsame
      exact hsame.symm
    · rfl
  have hsameName : (state.put profile secrets).profiles.map Profile.name =
      state.profiles.map Profile.name := by
    unfold State.put
    rw [List.map_map]
    apply List.map_congr_left
    intro row hrow
    show Profile.name (if row.id = profile.id then profile else row) = row.name
    split
    · rename_i hsame
      have hrowOld : row = old :=
        List.inj_on_of_nodup_map hkept.ids hrow hold (hsame.trans hid)
      rw [hrowOld, hname]
    · rfl
  constructor
  · constructor
    · rw [hsameId]
      exact hkept.ids
    · rw [hsameName]
      exact hkept.names
    · intro other hother
      rcases (hmem other).mp hother with hsame | hstays
      · rw [hsame, hid]
        exact hkept.fresh old hold
      · exact hkept.fresh other hstays.1
    · exact h.unique
    · intro other hother
      rcases (hmem other).mp hother with hsame | hstays
      · rw [hsame]
        exact h.kept
      · exact refsKept_frame (hkept.refs other hstays.1) (frame_other h hstays.2)
    · intro other hother
      rcases (hmem other).mp hother with hsame | hstays
      · rw [hsame, hconfig]
        exact hkept.config old hold
      · exact hkept.config other hstays.1
  · exact (hmem profile).mpr (.inl rfl)
  · exact Nat.le_refl _
  · rw [hid]
    exact hkept.fresh old hold
  · intro other hother
    rw [hmem]
    constructor
    · intro hcase
      rcases hcase with hsame | hstays
      · exact absurd (congrArg Profile.id hsame) hother
      · exact hstays.1
    · exact fun hthere => .inr ⟨hthere, hother⟩
  · intro other _ hother name
    exact frame_other h hother name
  · intro before hbefore _ name
    have hheld := h.held name
    show heldIn cipher profile.tenantId profile.secretRefs secrets name = _
    rw [hheld, hvalues]
    unfold Event.apply
    rw [hbefore old hold hid.symm]

end Tables

/-! ## One call -/

section Calls

variable {words : WordTable} {server : Server} {cipher : Cipher} {state after : State}
  {profile : Profile} {tenantId : Text} {profileId : Nat} {body : Body} {userId : Int}

theorem mapError_eq_ok {α : Type} {outcome : Except SecretError α} {result : α}
    (h : fromSecrets outcome = .ok result) : outcome = .ok result := by
  cases outcome with
  | error error => cases h
  | ok found => exact congrArg Except.ok (Except.ok.inj h)

theorem keys_of_values {connectorType : Text} {config : Dict Text ConfigValue}
    {values : List (Text × Text)} (h : secretValuesFromConfig connectorType config = .ok values)
    (words : WordTable) (id : Nat) :
    ∀ entry ∈ values, isKey words (secretRef id entry.1) = true := fun entry hentry =>
  isKey_secretRef words ((secretValuesFromConfig_spec h).1 entry hentry) id

/-- An update of the secrets sets the fields that are given and takes away the cleared ones. -/
theorem updateSecrets_spec {submitted : Dict Text ConfigValue} {clear : List Text}
    {secrets : List SecretRow} {written : Dict Text Text × List SecretRow}
    (hunique : Unique secrets)
    (hkept : RefsKept words cipher profile.tenantId profile.id profile.secretRefs secrets)
    (h : updateSecrets words server cipher profile submitted clear userId secrets = .ok written) :
    After words cipher profile.tenantId profile.id secrets
      (fun name => if name ∈ clear then none
        else (given submitted name).or (heldIn cipher profile.tenantId profile.secretRefs secrets name))
      written := by
  unfold updateSecrets at h
  obtain ⟨values, hvalues, h⟩ := Results.bind_eq_ok.mp h
  dsimp only at h
  split at h
  · cases h
  · split at h
    · cases h
    · obtain ⟨_, _, h⟩ := Results.bind_eq_ok.mp h
      obtain ⟨first, hfirst, h⟩ := Results.bind_eq_ok.mp h
      have hset := setFields_spec hunique hkept (keys_of_values hvalues words profile.id)
        (mapError_eq_ok hfirst)
      have hclear := clearFields_spec hset.unique hset.kept (mapError_eq_ok h)
      refine ⟨hclear.unique, hclear.kept, fun name => ?_, (hset.trans hclear).frame⟩
      rw [hclear.held, hset.held, (secretValuesFromConfig_spec hvalues).2]

theorem clearFromBody_spec {clear : List Text} (h : clearFromBody body = .ok clear) :
    clear = clearedBy body := by
  unfold clearFromBody at h
  unfold clearedBy
  cases hbody : body.clear with
  | none =>
      rw [hbody] at h
      cases h
  | some items =>
      rw [hbody] at h
      dsimp only at h
      cases hitems : items.mapM id with
      | none =>
          rw [hitems] at h
          cases h
      | some texts =>
          rw [hitems] at h
          dsimp only at h
          split at h
          · rw [← Except.ok.inj h]
            clear h hbody
            induction items generalizing texts with
            | nil =>
                rw [← Option.some.inj hitems]
                rfl
            | cons item items ih =>
                rw [List.mapM_cons] at hitems
                obtain ⟨text, htext, hrest⟩ := Option.bind_eq_some_iff.mp hitems
                obtain ⟨rest, hmore, htexts⟩ := Option.bind_eq_some_iff.mp hrest
                rw [← Option.some.inj htexts, ih rest hmore]
                · have hitem : item = some text := htext
                  rw [hitem]
                  rfl
                · rename_i hnodup
                  rw [← Option.some.inj htexts, List.nodup_cons] at hnodup
                  exact hnodup.2
          · cases h

theorem updatedSecrets_spec {clear : List Text} {written : Dict Text Text × List SecretRow}
    (hunique : Unique state.secrets)
    (hkept : RefsKept words cipher profile.tenantId profile.id profile.secretRefs state.secrets)
    (hclear : clearFromBody body = .ok clear)
    (h : updatedSecrets words server cipher profile body clear userId state.secrets = .ok written) :
    After words cipher profile.tenantId profile.id state.secrets
      ((Event.mk profile.id (givenBy body) (clearedBy body)).apply (valueOf cipher state profile))
      written := by
  unfold updatedSecrets at h
  rw [← clearFromBody_spec hclear]
  split at h
  · obtain ⟨submitted, hsubmitted, h⟩ := Results.bind_eq_ok.mp h
    have hafter := updateSecrets_spec hunique hkept h
    refine ⟨hafter.unique, hafter.kept, fun name => ?_, hafter.frame⟩
    rw [hafter.held, configFromBody_spec hsubmitted]
    rfl
  · rename_i hneither
    rw [not_or, not_not] at hneither
    have hconfig : body.config = none := Option.not_isSome_iff_eq_none.mp hneither.1
    rw [← Except.ok.inj h, hneither.2]
    refine ⟨hunique, hkept, fun name => ?_, fun _ _ => rfl⟩
    unfold Event.apply givenBy
    rw [hconfig, if_neg List.not_mem_nil]
    rfl

/-- `update_profile`. -/
theorem updateProfile_spec (hkept : Kept words cipher state)
    (h : updateProfile words server cipher state tenantId profileId body userId =
      .ok (profile, after)) :
    Effect words cipher state ⟨profile.id, givenBy body, clearedBy body⟩ profile after := by
  unfold updateProfile at h
  obtain ⟨old, hold, h⟩ := Results.bind_eq_ok.mp h
  obtain ⟨displayName, _, h⟩ := Results.bind_eq_ok.mp h
  obtain ⟨clear, hclear, h⟩ := Results.bind_eq_ok.mp h
  obtain ⟨⟨refs, secrets⟩, hwritten, h⟩ := Results.bind_eq_ok.mp h
  obtain ⟨hprofile, hafter⟩ := Prod.mk.inj (Except.ok.inj h)
  have hmem := (getProfile_eq_ok hold).1
  have hwrite := updatedSecrets_spec hkept.unique (hkept.refs old hmem) hclear hwritten
  rw [← hafter, ← hprofile]
  apply effect_put hkept hmem
  · rfl
  · rfl
  · rfl
  · exact hwrite
  · exact fun _ => rfl

/-- `deactivate_profile`. -/
theorem deactivateProfile_spec (hkept : Kept words cipher state)
    (h : deactivateProfile state tenantId profileId = .ok (profile, after)) :
    Effect words cipher state ⟨profile.id, fun _ => none, []⟩ profile after := by
  unfold deactivateProfile at h
  obtain ⟨old, hold, h⟩ := Results.bind_eq_ok.mp h
  obtain ⟨hprofile, hafter⟩ := Prod.mk.inj (Except.ok.inj h)
  have hmem := (getProfile_eq_ok hold).1
  rw [← hafter, ← hprofile]
  have hwrite : After words cipher old.tenantId old.id state.secrets (valueOf cipher state old)
      (old.secretRefs, state.secrets) :=
    ⟨hkept.unique, hkept.refs old hmem, fun _ => rfl, fun _ _ => rfl⟩
  apply effect_put hkept hmem
  · rfl
  · rfl
  · rfl
  · exact hwrite
  · intro name
    unfold Event.apply
    rw [if_neg List.not_mem_nil, Option.none_or]

theorem writeSecrets_eq_ok {id : Nat} {values : List (Text × Text)} {secrets : List SecretRow}
    {written : Dict Text Text × List SecretRow}
    (h : writeSecrets words server cipher tenantId id values userId secrets = .ok written) :
    writeEach words server cipher tenantId id userId values .empty secrets = .ok written := by
  unfold writeSecrets at h
  split at h
  · rename_i found hfound
    rw [hfound]
    exact congrArg Except.ok (Except.ok.inj h)
  · cases h
  · cases h

/-- A profile that is inserted with its secrets. -/
theorem insertProfile_spec (hkept : Kept words cipher state) {fresh : Profile}
    (hid : fresh.id = state.nextId) (hconfig : fresh.configJson = .empty)
    (hname : byName state fresh.tenantId fresh.connectorType fresh.profileName = none)
    {values : List (Text × Text)}
    (hkeys : ∀ entry ∈ values, isKey words (secretRef fresh.id entry.1) = true)
    (h : insertProfile words server cipher state fresh values = .ok (profile, after)) :
    Effect words cipher state ⟨profile.id, lastIn values, []⟩ profile after := by
  unfold insertProfile at h
  obtain ⟨⟨refs, secrets⟩, hwritten, h⟩ := Results.bind_eq_ok.mp h
  obtain ⟨hprofile, hafter⟩ := Prod.mk.inj (Except.ok.inj h)
  have hempty : RefsKept words cipher fresh.tenantId fresh.id .empty state.secrets :=
    fun name key hget => by cases hget
  have hwrite := writeEach_spec hkept.unique hempty hkeys (writeSecrets_eq_ok hwritten)
  have hbelow : ∀ other ∈ state.profiles, other.id ≠ fresh.id := by
    intro other hother heq
    have hless := hkept.fresh other hother
    rw [heq, hid] at hless
    exact Nat.lt_irrefl _ hless
  have hmem : ∀ other, other ∈ state.profiles ++ [{ fresh with secretRefs := refs }] ↔
      other ∈ state.profiles ∨ other = { fresh with secretRefs := refs } := by
    intro other
    rw [List.mem_append, List.mem_singleton]
  rw [← hafter, ← hprofile]
  constructor
  · constructor
    · rw [List.map_append, List.map_singleton]
      refine List.nodup_append.mpr ⟨hkept.ids, List.nodup_singleton _, ?_⟩
      intro id hfirst other hother hsame
      obtain ⟨row, hrow, hrowId⟩ := List.mem_map.mp hfirst
      rw [List.mem_singleton.mp hother] at hsame
      exact hbelow row hrow (hrowId.trans hsame)
    · rw [List.map_append, List.map_singleton]
      refine List.nodup_append.mpr ⟨hkept.names, List.nodup_singleton _, ?_⟩
      intro name hfirst other hother hsame
      obtain ⟨row, hrow, hrowName⟩ := List.mem_map.mp hfirst
      rw [List.mem_singleton.mp hother] at hsame
      have hnames := Prod.mk.inj (hrowName.trans hsame)
      have hrest := Prod.mk.inj hnames.2
      exact List.find?_eq_none.mp hname row hrow (decide_eq_true ⟨hnames.1, hrest.1, hrest.2⟩)
    · intro other hother
      rcases (hmem other).mp hother with hold | hnew
      · exact Nat.lt_succ_of_lt (hkept.fresh other hold)
      · rw [hnew]
        show fresh.id < state.nextId + 1
        rw [hid]
        exact Nat.lt_succ_self _
    · exact hwrite.unique
    · intro other hother
      rcases (hmem other).mp hother with hold | hnew
      · exact refsKept_frame (hkept.refs other hold) (frame_other hwrite (hbelow other hold))
      · rw [hnew]
        exact hwrite.kept
    · intro other hother
      rcases (hmem other).mp hother with hold | hnew
      · exact hkept.config other hold
      · rw [hnew]
        exact hconfig
  · exact (hmem _).mpr (.inr rfl)
  · exact Nat.le_succ _
  · show fresh.id < state.nextId + 1
    rw [hid]
    exact Nat.lt_succ_self _
  · intro other hother
    rw [hmem]
    constructor
    · intro hcase
      rcases hcase with hold | hnew
      · exact hold
      · exact absurd (congrArg Profile.id hnew) hother
    · exact .inl
  · intro other hother hne name
    exact frame_other hwrite hne name
  · intro before _ hbefore name
    have hheld := hwrite.held name
    show heldIn cipher fresh.tenantId refs secrets name = _
    rw [hheld]
    unfold Event.apply
    rw [if_neg List.not_mem_nil, hbefore hid]
    rfl

/-- `create_profile`. -/
theorem createProfile_spec (hkept : Kept words cipher state)
    (h : createProfile words server cipher state tenantId body userId = .ok (profile, after)) :
    Effect words cipher state ⟨profile.id, givenBy body, []⟩ profile after := by
  unfold createProfile at h
  cases hconnector : body.connectorType with
  | none =>
      rw [hconnector] at h
      cases h
  | some connectorType =>
      rw [hconnector] at h
      dsimp only at h
      split at h
      · cases h
      · obtain ⟨_, _, h⟩ := Results.bind_eq_ok.mp h
        obtain ⟨config, hconfig, h⟩ := Results.bind_eq_ok.mp h
        obtain ⟨values, hvalues, h⟩ := Results.bind_eq_ok.mp h
        split at h
        · cases h
        · rename_i hname
          split at h
          · cases h
          · have hsets : lastIn values = givenBy body := by
              funext name
              rw [(secretValuesFromConfig_spec hvalues).2, configFromBody_spec hconfig]
            rw [← hsets]
            exact insertProfile_spec hkept rfl rfl hname (keys_of_values hvalues words _) h

/-- A call that succeeds has its effect. -/
theorem attempt_spec (hkept : Kept words cipher state) {call : Call}
    (h : attempt words server cipher state call = .ok (profile, after)) :
    Effect words cipher state (eventOf call profile.id) profile after := by
  cases call with
  | create tenantId body userId => exact createProfile_spec hkept h
  | update tenantId profileId body userId => exact updateProfile_spec hkept h
  | deactivate tenantId profileId => exact deactivateProfile_spec hkept h

end Calls

/-! ## What a profile resolves to -/

section Resolve

variable {words : WordTable} {server : Server} {cipher : Cipher} {state after : State}
  {profile : Profile} {tenantId profileName : Text} {secrets : List SecretRow}

/-- The values of all references, if they are there. -/
theorem resolveEach_spec {entries : List (Text × Text)} (hkeys : (entries.map Prod.fst).Nodup)
    (hentries : ∀ entry ∈ entries, isKey words entry.2 = true ∧
      (valueAt cipher secrets (tenantId, entry.2)).isSome = true) (resolved : Dict Text Text) :
    ∃ found, resolveEach words server cipher secrets tenantId profileName entries resolved =
        .ok found ∧
      (∀ entry ∈ entries, found.get? entry.1 = valueAt cipher secrets (tenantId, entry.2)) ∧
      ∀ name, name ∉ entries.map Prod.fst → found.get? name = resolved.get? name := by
  induction entries generalizing resolved with
  | nil => exact ⟨resolved, rfl, fun _ hmem => absurd hmem List.not_mem_nil, fun _ _ => rfl⟩
  | cons entry rest ih =>
      obtain ⟨name, key⟩ := entry
      rw [List.map_cons, List.nodup_cons] at hkeys
      rw [List.forall_mem_cons] at hentries
      obtain ⟨value, hvalue⟩ := Option.isSome_iff_exists.mp hentries.1.2
      obtain ⟨found, hfound, hvalues, hothers⟩ := ih hkeys.2 hentries.2 (resolved.set name value)
      refine ⟨found, ?_, ?_, ?_⟩
      · unfold resolveEach
        rw [getSecretValue_database hentries.1.1, hvalue]
        exact hfound
      · rw [List.forall_mem_cons]
        refine ⟨?_, hvalues⟩
        show found.get? name = _
        rw [hothers name hkeys.1, Dict.get?_set, if_pos rfl, hvalue]
      · intro other hother
        rw [List.map_cons, List.mem_cons, not_or] at hother
        rw [hothers other hother.2, Dict.get?_set, if_neg hother.1]

/-- Only the values of the references matter. -/
theorem resolveEach_congr {changed : List SecretRow} {entries : List (Text × Text)}
    (hentries : ∀ entry ∈ entries, isKey words entry.2 = true ∧
      valueAt cipher changed (tenantId, entry.2) = valueAt cipher secrets (tenantId, entry.2))
    (resolved : Dict Text Text) :
    resolveEach words server cipher changed tenantId profileName entries resolved =
      resolveEach words server cipher secrets tenantId profileName entries resolved := by
  induction entries generalizing resolved with
  | nil => rfl
  | cons entry rest ih =>
      rw [List.forall_mem_cons] at hentries
      unfold resolveEach
      rw [getSecretValue_database hentries.1.1, getSecretValue_database hentries.1.1,
        hentries.1.2]
      cases valueAt cipher secrets (tenantId, entry.2) with
      | none => rfl
      | some value => exact ih hentries.2 _

/-- An active profile resolves to its values. -/
theorem resolve_of_active (hkept : Kept words cipher state) (hmem : profile ∈ state.profiles)
    (hactive : profile.isActive = true) :
    ∃ resolved, resolveForRuntime words server cipher state profile.tenantId profile.connectorType
        profile.profileName = .ok resolved ∧
      ∀ name, resolved.get? name = valueOf cipher state profile name := by
  have hentries : ∀ entry ∈ profile.secretRefs.entries, isKey words entry.2 = true ∧
      (valueAt cipher state.secrets (profile.tenantId, entry.2)).isSome = true := fun entry hentry =>
    (hkept.refs profile hmem entry.1 entry.2 (Dict.get?_of_mem hentry)).2
  have hresolved : ∃ found, resolveEach words server cipher state.secrets profile.tenantId
      profile.profileName profile.secretRefs.entries profile.configJson = .ok found ∧ _ :=
    resolveEach_spec profile.secretRefs.keys_nodup hentries profile.configJson
  obtain ⟨found, hfound, hvalues, hothers⟩ := hresolved
  refine ⟨found, ?_, fun name => ?_⟩
  · unfold resolveForRuntime
    rw [byName_of_mem hkept hmem]
    dsimp only
    rw [if_neg (not_not.mpr hactive)]
    exact hfound
  · unfold valueOf heldIn
    cases hget : profile.secretRefs.get? name with
    | none =>
        rw [hothers name (Dict.get?_eq_none.mp hget), hkept.config profile hmem]
        rfl
    | some key => exact hvalues (name, key) (Dict.get?_eq_some.mp hget)

/-- A call on another profile leaves a profile with what it resolves to. -/
theorem resolve_other (hkept : Kept words cipher state) {event : Event} {changed : Profile}
    (heffect : Effect words cipher state event changed after) (hmem : profile ∈ state.profiles)
    (hother : profile.id ≠ changed.id) :
    profile ∈ after.profiles ∧
      resolveForRuntime words server cipher after profile.tenantId profile.connectorType
          profile.profileName =
        resolveForRuntime words server cipher state profile.tenantId profile.connectorType
          profile.profileName := by
  have hthere : profile ∈ after.profiles := (heffect.others profile hother).mpr hmem
  have hentries : ∀ entry ∈ profile.secretRefs.entries, isKey words entry.2 = true ∧
      valueAt cipher after.secrets (profile.tenantId, entry.2) =
        valueAt cipher state.secrets (profile.tenantId, entry.2) := by
    intro entry hentry
    obtain ⟨href, hword, _⟩ := hkept.refs profile hmem entry.1 entry.2 (Dict.get?_of_mem hentry)
    refine ⟨hword, ?_⟩
    rw [href]
    exact heffect.same profile hmem hother entry.1
  refine ⟨hthere, ?_⟩
  unfold resolveForRuntime
  rw [byName_of_mem heffect.kept hthere, byName_of_mem hkept hmem]
  dsimp only
  rw [resolveEach_congr hentries]

end Resolve

/-! ## Runs -/

/-- The events of the successful calls of a run, and the tables afterwards. -/
def runs (words : WordTable) (server : Server) (cipher : Cipher) :
    State → List Call → List Event × State
  | state, [] => ([], state)
  | state, call :: calls =>
      let (outcome, after) := step words server cipher state call
      let (events, final) := runs words server cipher after calls
      match outcome with
      | .ok profileId => (eventOf call profileId :: events, final)
      | .error _ => (events, final)

/-- The fold of a profile's sets and clears: its values after the events. -/
def heldBy (events : List Event) (profileId : Nat) : Text → Option Text :=
  events.foldl (fun values event => if event.profileId = profileId then event.apply values else values)
    fun _ => none

/-- Every profile holds what the events left it. -/
structure Recorded (cipher : Cipher) (state : State) (events : List Event) : Prop where
  values : ∀ profile ∈ state.profiles, ∀ name,
    valueOf cipher state profile name = heldBy events profile.id name
  known : ∀ event ∈ events, event.profileId < state.nextId

section Runs

variable {words : WordTable} {server : Server} {cipher : Cipher} {state after : State}
  {profile : Profile} {events : List Event}

theorem heldBy_append (events : List Event) (event : Event) (profileId : Nat) :
    heldBy (events ++ [event]) profileId =
      if event.profileId = profileId then event.apply (heldBy events profileId)
      else heldBy events profileId := by
  unfold heldBy
  rw [List.foldl_append]
  rfl

/-- Nothing happened to a profile that no event is about. -/
theorem heldBy_of_unknown {profileId : Nat} (h : ∀ event ∈ events, event.profileId ≠ profileId) :
    heldBy events profileId = fun _ => none := by
  induction events using List.reverseRecOn with
  | nil => rfl
  | append_singleton events event ih =>
      rw [heldBy_append, if_neg (h event (List.mem_append_right _ (List.mem_singleton_self event))),
        ih fun event hevent => h event (List.mem_append_left _ hevent)]

/-- A successful call adds its event. -/
theorem recorded_append {event : Event} (hkept : Kept words cipher state)
    (hevent : event.profileId = profile.id)
    (heffect : Effect words cipher state event profile after)
    (hrecorded : Recorded cipher state events) : Recorded cipher after (events ++ [event]) where
  values other hother name := by
    rw [heldBy_append]
    by_cases hsame : other.id = profile.id
    · have hprofile : other = profile :=
        List.inj_on_of_nodup_map heffect.kept.ids hother heffect.mem hsame
      rw [hprofile, if_pos hevent]
      apply heffect.values (heldBy events profile.id)
      · intro old hold hid
        rw [← hid]
        exact hrecorded.values old hold
      · intro hnew _
        rw [heldBy_of_unknown]
        intro past hpast heq
        have hless := hrecorded.known past hpast
        rw [heq, hnew] at hless
        exact Nat.lt_irrefl _ hless
    · have hold : other ∈ state.profiles := (heffect.others other hsame).mp hother
      rw [if_neg fun heq => hsame (heq.symm.trans hevent), ← hrecorded.values other hold name]
      show heldIn cipher other.tenantId other.secretRefs after.secrets name =
        heldIn cipher other.tenantId other.secretRefs state.secrets name
      rw [heldIn_of_refsKept (heffect.kept.refs other hother),
        heldIn_of_refsKept (hkept.refs other hold), heffect.same other hold hsame]
  known past hpast := by
    rcases List.mem_append.mp hpast with hold | hnew
    · exact Nat.lt_of_lt_of_le (hrecorded.known past hold) heffect.later
    · rw [List.mem_singleton.mp hnew, hevent]
      exact heffect.known

theorem profileId_eventOf (call : Call) (profileId : Nat) :
    (eventOf call profileId).profileId = profileId := by
  cases call with
  | create tenantId body userId => rfl
  | update tenantId id body userId => rfl
  | deactivate tenantId id => rfl

/-- A run keeps the invariant and records its events. -/
theorem runs_spec (server : Server) (hkept : Kept words cipher state)
    (hrecorded : Recorded cipher state events) (calls : List Call) :
    Kept words cipher (runs words server cipher state calls).2 ∧
      Recorded cipher (runs words server cipher state calls).2
        (events ++ (runs words server cipher state calls).1) := by
  induction calls generalizing state events with
  | nil =>
      unfold runs
      rw [List.append_nil]
      exact ⟨hkept, hrecorded⟩
  | cons call calls ih =>
      unfold runs step
      cases hattempt : attempt words server cipher state call with
      | error error => exact ih hkept hrecorded
      | ok found =>
          obtain ⟨profile, after⟩ := found
          have heffect := attempt_spec hkept hattempt
          have hnext := recorded_append hkept (profileId_eventOf call profile.id) heffect hrecorded
          have hrest := ih heffect.kept hnext
          rw [List.append_assoc] at hrest
          exact hrest

theorem kept_start {secrets : List SecretRow} (hunique : Unique secrets) (first : Nat) :
    Kept words cipher ⟨[], secrets, first⟩ where
  ids := List.nodup_nil
  names := List.nodup_nil
  fresh _ hmem := absurd hmem List.not_mem_nil
  unique := hunique
  refs _ hmem := absurd hmem List.not_mem_nil
  config _ hmem := absurd hmem List.not_mem_nil

theorem recorded_start (secrets : List SecretRow) (first : Nat) :
    Recorded cipher ⟨[], secrets, first⟩ [] :=
  ⟨fun _ hmem => absurd hmem List.not_mem_nil, fun _ hmem => absurd hmem List.not_mem_nil⟩

end Runs

/-- After any calls, an active profile resolves to the fold of its sets and clears, and one more
call changes what a profile resolves to only if it succeeds for that profile. -/
theorem profiles_hold (words : WordTable) (server : Server) (cipher : Cipher)
    {secrets : List SecretRow} (hunique : Unique secrets) (first : Nat) (calls : List Call) :
    (∀ profile ∈ (runs words server cipher ⟨[], secrets, first⟩ calls).2.profiles,
      profile.isActive = true →
        ∃ resolved, resolveForRuntime words server cipher
            (runs words server cipher ⟨[], secrets, first⟩ calls).2 profile.tenantId
            profile.connectorType profile.profileName = .ok resolved ∧
          ∀ name, resolved.get? name =
            heldBy (runs words server cipher ⟨[], secrets, first⟩ calls).1 profile.id name) ∧
      ∀ call, ∀ profile ∈ (runs words server cipher ⟨[], secrets, first⟩ calls).2.profiles,
        (step words server cipher (runs words server cipher ⟨[], secrets, first⟩ calls).2 call).1 ≠
            .ok profile.id →
          resolveForRuntime words server cipher
              (step words server cipher
                (runs words server cipher ⟨[], secrets, first⟩ calls).2 call).2
              profile.tenantId profile.connectorType profile.profileName =
            resolveForRuntime words server cipher
              (runs words server cipher ⟨[], secrets, first⟩ calls).2
              profile.tenantId profile.connectorType profile.profileName := by
  have hspec : Kept words cipher (runs words server cipher ⟨[], secrets, first⟩ calls).2 ∧
      Recorded cipher (runs words server cipher ⟨[], secrets, first⟩ calls).2
        ([] ++ (runs words server cipher ⟨[], secrets, first⟩ calls).1) :=
    runs_spec server (kept_start hunique first) (recorded_start secrets first) calls
  rw [List.nil_append] at hspec
  obtain ⟨hkept, hrecorded⟩ := hspec
  generalize runs words server cipher ⟨[], secrets, first⟩ calls = found at hkept hrecorded
  constructor
  · intro profile hmem hactive
    obtain ⟨resolved, hresolved, hvalues⟩ := resolve_of_active hkept hmem hactive
    refine ⟨resolved, hresolved, fun name => ?_⟩
    rw [hvalues, hrecorded.values profile hmem]
  · intro call profile hmem hother
    unfold step at hother ⊢
    cases hattempt : attempt words server cipher found.2 call with
    | error error => rfl
    | ok outcome =>
        obtain ⟨changed, after⟩ := outcome
        rw [hattempt] at hother
        have hne : profile.id ≠ changed.id := fun heq => hother (by rw [heq])
        exact (resolve_other hkept (attempt_spec hkept hattempt) hmem hne).2

/-- A body that names an SMTP profile. -/
def smtpBody (profileName : String) (config : List (String × ConfigValue)) (clear : List String) :
    Body where
  connectorType := some "smtp".toList
  profileName := profileName.toList
  displayName := none
  description := none
  isActive := none
  config := some (some (.ofEntries (config.map fun entry => (entry.1.toList, entry.2))))
  clear := some (clear.map fun name => some name.toList)

/-- A profile is created, a field of it is set again and another one cleared, and a call that
clears a required field is refused. -/
def smtpCalls : List Call :=
  [.create "acme".toList (smtpBody "mail-1" [("smtp_host", .text "h".toList),
      ("smtp_port", .number "25".toList), ("smtp_user", .text "u".toList)] []) 7,
    .update "acme".toList 1 (smtpBody "" [("smtp_port", .number "587".toList)] ["smtp_user"]) 7,
    .update "acme".toList 1 (smtpBody "" [("smtp_port", .number "1".toList)] ["smtp_host"]) 7]

/-- Another secret of the tenant. -/
def otherSecret : SecretRow := ⟨"k".toList, "#v".toList, "acme".toList, 7⟩

theorem unique_otherSecret : Unique [otherSecret] := List.nodup_singleton _

theorem profiles_hold_smtp :
    (runs asciiWords bigintServer markCipher ⟨[], [otherSecret], 1⟩ smtpCalls).2.profiles.map
        (fun profile => (profile.id, profile.isActive)) = [(1, true)] ∧
      (secretFieldNames "smtp".toList).map
          (heldBy (runs asciiWords bigintServer markCipher ⟨[], [otherSecret], 1⟩ smtpCalls).1 1) =
        [some "h".toList, some "587".toList, none, none, none, none] ∧
      ∀ profile ∈ (runs asciiWords bigintServer markCipher ⟨[], [otherSecret], 1⟩
          smtpCalls).2.profiles,
        profile.isActive = true →
          ∃ resolved, resolveForRuntime asciiWords bigintServer markCipher
              (runs asciiWords bigintServer markCipher ⟨[], [otherSecret], 1⟩ smtpCalls).2
              profile.tenantId profile.connectorType profile.profileName = .ok resolved ∧
            ∀ name, resolved.get? name =
              heldBy (runs asciiWords bigintServer markCipher ⟨[], [otherSecret], 1⟩ smtpCalls).1
                profile.id name :=
  ⟨by decide +kernel, by decide +kernel,
    (profiles_hold asciiWords bigintServer markCipher unique_otherSecret 1 smtpCalls).1⟩

end M8flow.Connectors
