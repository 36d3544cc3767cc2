import M8flow.Template.Frozen

/-!
# The next version

`_version_key` and `_next_version` of `template_service.py` over all rows of a template key.

- `versionKey_vVersion`: a version of the V-series is read as its number.
- `maxVersion_spec`: the latest row has a key, and no other row has a greater one.
- `nextVersion_fresh_iff`: the next version is fresh and newest unless a row has digits that
  `int` does not read.
-/

namespace M8flow.Template

open M8flow.Lib

/-! ## The V-series -/

theorem not_isSpace_of_isDigit {c : Char} (h : c.isDigit = true) : ¬ Text.isSpace c := by
  rw [Char.isDigit_iff_toNat] at h
  have hlow : 48 ≤ c.toNat := h.1
  have hhigh : c.toNat ≤ 57 := h.2
  unfold Text.isSpace
  simp only [Bool.or_eq_true, Bool.and_eq_true, decide_eq_true_eq, beq_iff_eq]
  omega

theorem strip_vVersion (number : Nat) : (vVersion number).strip = vVersion number := by
  apply Text.stripWhere_eq_self_of_ends
  · intro c hc
    rw [← Option.some.inj hc]
    decide
  · intro c hc
    have hmem : c ∈ vVersion number := List.mem_of_getLast? hc
    rcases List.mem_cons.mp hmem with hv | hdigit
    · rw [hv]
      decide
    · exact not_isSpace_of_isDigit (Text.isDigit_of_mem_ofNat hdigit)

theorem vDigits_vVersion (number : Nat) : vDigits (vVersion number) = some (Text.ofNat number) := by
  unfold vDigits
  rw [strip_vVersion]
  exact if_pos ⟨Or.inl rfl, Text.isdigit_ofNat number⟩

/-- A version of the V-series is read as its number. -/
theorem versionKey_vVersion {number : Nat}
    (h : (Text.ofNat number).length ≤ Text.intMaxStrDigits) :
    versionKey (vVersion number) = .ok (.numbered number) := by
  unfold versionKey
  rw [vDigits_vVersion]
  dsimp only
  rw [Text.intOfDigits_ofNat h]

theorem length_of_versionKey_vVersion {number : Nat} {key : VersionKey}
    (h : versionKey (vVersion number) = .ok key) :
    (Text.ofNat number).length ≤ Text.intMaxStrDigits := by
  by_contra hlong
  unfold versionKey at h
  rw [vDigits_vVersion] at h
  dsimp only at h
  unfold Text.intOfDigits at h
  rw [if_neg hlong] at h
  cases h

/-! ## The order of the keys -/

theorem VersionKey.lt_irrefl (key : VersionKey) : key.lt key = false := by
  cases key with
  | legacy v => exact decide_eq_false (List.lt_irrefl v)
  | numbered n => exact decide_eq_false (Nat.lt_irrefl n)

theorem VersionKey.lt_trans {key other third : VersionKey} (h : key.lt other)
    (hother : other.lt third) : key.lt third := by
  cases key with
  | legacy v =>
      cases other with
      | legacy v' =>
          cases third with
          | legacy v'' =>
              exact decide_eq_true
                (List.lt_trans (of_decide_eq_true h) (of_decide_eq_true hother))
          | numbered n => rfl
      | numbered n =>
          cases third with
          | legacy v'' => cases hother
          | numbered n' => rfl
  | numbered n =>
      cases other with
      | legacy v' => cases h
      | numbered n' =>
          cases third with
          | legacy v'' => cases hother
          | numbered n'' =>
              exact decide_eq_true (Nat.lt_trans (of_decide_eq_true h) (of_decide_eq_true hother))

theorem VersionKey.lt_trichotomy (key other : VersionKey) :
    key.lt other ∨ key = other ∨ other.lt key := by
  cases key with
  | legacy v =>
      cases other with
      | legacy v' =>
          rcases Std.lt_trichotomy v v' with hlt | heq | hgt
          · exact Or.inl (decide_eq_true hlt)
          · exact Or.inr (Or.inl (congrArg VersionKey.legacy heq))
          · exact Or.inr (Or.inr (decide_eq_true hgt))
      | numbered n => exact Or.inl rfl
  | numbered n =>
      cases other with
      | legacy v => exact Or.inr (Or.inr rfl)
      | numbered n' =>
          rcases Nat.lt_trichotomy n n' with hlt | heq | hgt
          · exact Or.inl (decide_eq_true hlt)
          · exact Or.inr (Or.inl (congrArg VersionKey.numbered heq))
          · exact Or.inr (Or.inr (decide_eq_true hgt))

/-- What is not greater than something that is not greater. -/
theorem VersionKey.not_lt_trans {key other third : VersionKey} (h : key.lt other = false)
    (hother : other.lt third = false) : key.lt third = false := by
  rw [Bool.eq_false_iff] at h hother ⊢
  intro hlt
  rcases key.lt_trichotomy other with hkey | heq | hgt
  · exact h hkey
  · exact hother (heq ▸ hlt)
  · exact hother (VersionKey.lt_trans hgt hlt)

/-! ## The latest row -/

/-- The latest of the rows: its key is there and no row has a greater one. -/
structure Latest (rows : List TemplateModel) (latest : TemplateModel) (key : VersionKey) :
    Prop where
  key_eq : versionKey latest.version = .ok key
  greatest : ∀ row ∈ rows, ∃ other, versionKey row.version = .ok other ∧ key.lt other = false

theorem maxVersion_spec {rows : List TemplateModel} {best : TemplateModel × VersionKey}
    {latest : TemplateModel} (hbest : versionKey best.1.version = .ok best.2)
    (h : maxVersion rows best = .ok latest) :
    ∃ key, Latest (best.1 :: rows) latest key ∧ key.lt best.2 = false := by
  induction rows generalizing best with
  | nil =>
      cases h
      refine ⟨best.2, ⟨hbest, ?_⟩, best.2.lt_irrefl⟩
      exact List.forall_mem_singleton.mpr ⟨best.2, hbest, best.2.lt_irrefl⟩
  | cons row rows ih =>
      unfold maxVersion at h
      cases hkey : versionKey row.version with
      | error e =>
          rw [hkey] at h
          cases h
      | ok key =>
          rw [hkey] at h
          cases hlt : best.2.lt key with
          | true =>
              have hmax : maxVersion rows (row, key) = .ok latest := by
                have hbranch := h
                dsimp only [bind, Except.bind] at hbranch
                rwa [if_pos hlt] at hbranch
              obtain ⟨top, hlatest, htop⟩ := ih hkey hmax
              have hold : top.lt best.2 = false := by
                rw [Bool.eq_false_iff] at htop ⊢
                exact fun hless => htop (VersionKey.lt_trans hless hlt)
              exact ⟨top, ⟨hlatest.key_eq, List.forall_mem_cons.mpr
                ⟨⟨best.2, hbest, hold⟩, hlatest.greatest⟩⟩, hold⟩
          | false =>
              have hmax : maxVersion rows best = .ok latest := by
                have hbranch := h
                dsimp only [bind, Except.bind] at hbranch
                rwa [if_neg (Bool.eq_false_iff.mp hlt)] at hbranch
              obtain ⟨top, hlatest, htop⟩ := ih hbest hmax
              obtain ⟨hfirst, hrest⟩ := List.forall_mem_cons.mp hlatest.greatest
              refine ⟨top, ⟨hlatest.key_eq, List.forall_mem_cons.mpr ⟨hfirst,
                List.forall_mem_cons.mpr ⟨⟨key, hkey, ?_⟩, hrest⟩⟩⟩, htop⟩
              exact VersionKey.not_lt_trans htop hlt

/-- Rows whose keys are there have a latest one. -/
theorem maxVersion_isOk {rows : List TemplateModel} {best : TemplateModel × VersionKey}
    (h : ∀ row ∈ rows, ∃ key, versionKey row.version = .ok key) :
    ∃ latest, maxVersion rows best = .ok latest := by
  induction rows generalizing best with
  | nil => exact ⟨best.1, rfl⟩
  | cons row rows ih =>
      obtain ⟨⟨key, hkey⟩, hrest⟩ := List.forall_mem_cons.mp h
      unfold maxVersion
      rw [hkey]
      exact ih hrest

/-! ## Fresh versions -/

/-- The rows of a template key in a tenant, deleted or not. -/
def rowsOf (rows : List TemplateModel) (templateKey tenantId : Text) : List TemplateModel :=
  rows.filter fun row => row.templateKey = templateKey ∧ row.m8fTenantId = tenantId

/-- A version of the V-series that no row has, and that is newer than all rows. -/
def Fresh (rows : List TemplateModel) (version : Text) : Prop :=
  (∃ number, version = vVersion number) ∧ ∃ key, versionKey version = .ok key ∧
    ∀ row ∈ rows, row.version ≠ version ∧
      ∃ older, versionKey row.version = .ok older ∧ older.lt key

/-- `int` reads the digits of the version, and the interpreter writes the number after it. -/
def Countable (version : Text) : Prop :=
  ∀ digits, vDigits version = some digits →
    ∃ number, Text.intOfDigits digits = some number ∧
      (Text.ofNat (number + 1)).length ≤ Text.intMaxStrDigits

theorem fresh_vVersion {rows : List TemplateModel} {number : Nat}
    (hlength : (Text.ofNat number).length ≤ Text.intMaxStrDigits)
    (h : ∀ row ∈ rows, ∃ older, versionKey row.version = .ok older ∧
      older.lt (.numbered number)) : Fresh rows (vVersion number) := by
  refine ⟨⟨number, rfl⟩, .numbered number, versionKey_vVersion hlength, fun row hrow => ?_⟩
  obtain ⟨older, holder, hlt⟩ := h row hrow
  refine ⟨?_, older, holder, hlt⟩
  intro hsame
  rw [hsame, versionKey_vVersion hlength] at holder
  rw [← Except.ok.inj holder, VersionKey.lt_irrefl] at hlt
  exact Bool.false_ne_true hlt

theorem versionKey_of_vDigits {version digits : Text} {number : Nat}
    (h : vDigits version = some digits) (hnumber : Text.intOfDigits digits = some number) :
    versionKey version = .ok (.numbered number) := by
  unfold versionKey
  rw [h]
  dsimp only
  rw [hnumber]

theorem Countable.versionKey {version : Text} (h : Countable version) :
    ∃ key, versionKey version = .ok key := by
  cases hdigits : vDigits version with
  | none =>
      refine ⟨.legacy version.strip, ?_⟩
      unfold Template.versionKey
      rw [hdigits]
  | some digits =>
      obtain ⟨number, hnumber, -⟩ := h digits hdigits
      exact ⟨_, versionKey_of_vDigits hdigits hnumber⟩

/-- A version with a number is countable if a greater number can be written. -/
theorem countable_of_versionKey {version : Text} {key : VersionKey} {number : Nat}
    (hkey : versionKey version = .ok key) (hlt : key.lt (.numbered number))
    (hlength : (Text.ofNat number).length ≤ Text.intMaxStrDigits) : Countable version := by
  intro digits hdigits
  unfold versionKey at hkey
  rw [hdigits] at hkey
  dsimp only at hkey
  cases hnumber : Text.intOfDigits digits with
  | none =>
      rw [hnumber] at hkey
      cases hkey
  | some n =>
      rw [hnumber] at hkey
      rw [← Except.ok.inj hkey] at hlt
      have hless : n < number := of_decide_eq_true hlt
      exact ⟨n, rfl, (Text.length_ofNat_mono hless).trans hlength⟩

/-- The version after the latest key. -/
def versionAfter : VersionKey → Except Raised Text
  | .numbered number =>
      if (Text.ofNat (number + 1)).length ≤ Text.intMaxStrDigits then .ok (vVersion (number + 1))
      else .error .valueError
  | .legacy _ => .ok (vVersion 1)

/-- The next version comes after the latest row. -/
theorem nextVersion_cons {rows others : List TemplateModel} {templateKey tenantId : Text}
    {row latest : TemplateModel} {key latestKey : VersionKey}
    (hrows : rowsOf rows templateKey tenantId = row :: others)
    (hkey : versionKey row.version = .ok key)
    (hmax : maxVersion others (row, key) = .ok latest)
    (hlatest : versionKey latest.version = .ok latestKey) :
    nextVersion rows templateKey tenantId = versionAfter latestKey := by
  unfold rowsOf at hrows
  unfold nextVersion
  rw [hrows]
  dsimp only
  rw [hkey]
  show (maxVersion others (row, key) >>= _) = _
  rw [hmax]
  show (versionKey latest.version >>= _) = _
  rw [hlatest]
  cases latestKey with
  | numbered number => rfl
  | legacy v => rfl

theorem length_ofNat_one : (Text.ofNat 1).length ≤ Text.intMaxStrDigits := by decide

/-- After the latest key all rows are older. -/
theorem fresh_versionAfter {rows : List TemplateModel} {latest : TemplateModel} {key : VersionKey}
    (h : Latest rows latest key) {version : Text} (hversion : versionAfter key = .ok version) :
    Fresh rows version := by
  have hall : ∀ number, key.lt (.numbered number) → ∀ row ∈ rows,
      ∃ older, versionKey row.version = .ok older ∧ older.lt (.numbered number) := by
    intro number hnumber row hrow
    obtain ⟨older, holder, hnot⟩ := h.greatest row hrow
    refine ⟨older, holder, ?_⟩
    by_contra hgreater
    have hstill := VersionKey.not_lt_trans hnot (Bool.eq_false_iff.mpr hgreater)
    rw [hnumber] at hstill
    cases hstill
  cases key with
  | numbered number =>
      rw [versionAfter] at hversion
      split at hversion
      · rename_i hlength
        cases hversion
        exact fresh_vVersion hlength (hall _ (decide_eq_true (Nat.lt_succ_self number)))
      · cases hversion
  | legacy v =>
      cases hversion
      exact fresh_vVersion length_ofNat_one (hall 1 rfl)

theorem versionAfter_of_countable {version : Text} {key : VersionKey} (h : Countable version)
    (hkey : versionKey version = .ok key) : ∃ next, versionAfter key = .ok next := by
  cases key with
  | legacy v => exact ⟨_, rfl⟩
  | numbered number =>
      cases hdigits : vDigits version with
      | none =>
          unfold versionKey at hkey
          rw [hdigits] at hkey
          cases hkey
      | some digits =>
          obtain ⟨n, hn, hlength⟩ := h digits hdigits
          rw [versionKey_of_vDigits hdigits hn] at hkey
          rw [← VersionKey.numbered.inj (Except.ok.inj hkey)]
          exact ⟨_, if_pos hlength⟩

/-- The next version is fresh and newer than all rows exactly when every row of the V-series is
countable. -/
theorem nextVersion_fresh_iff (rows : List TemplateModel) (templateKey tenantId : Text) :
    (∃ version, nextVersion rows templateKey tenantId = .ok version ∧
      Fresh (rowsOf rows templateKey tenantId) version) ↔
    ∀ row ∈ rowsOf rows templateKey tenantId, Countable row.version := by
  constructor
  · intro h
    obtain ⟨version, -, ⟨number, hnumber⟩, key, hkey, hrows⟩ := h
    rw [hnumber] at hkey
    have hlength := length_of_versionKey_vVersion hkey
    rw [versionKey_vVersion hlength] at hkey
    intro row hrow
    obtain ⟨-, older, holder, hlt⟩ := hrows row hrow
    rw [← Except.ok.inj hkey] at hlt
    exact countable_of_versionKey holder hlt hlength
  · intro hall
    cases hrows : rowsOf rows templateKey tenantId with
    | nil =>
        refine ⟨vVersion 1, ?_, ?_⟩
        · unfold rowsOf at hrows
          unfold nextVersion
          rw [hrows]
        · exact fresh_vVersion length_ofNat_one fun _ hmem => absurd hmem List.not_mem_nil
    | cons row others =>
        rw [hrows] at hall
        obtain ⟨hrow, hothers⟩ := List.forall_mem_cons.mp hall
        obtain ⟨key, hkey⟩ := hrow.versionKey
        have hsome : ∃ latest, maxVersion others (row, key) = .ok latest :=
          maxVersion_isOk fun other hother => (hothers other hother).versionKey
        obtain ⟨latest, hmax⟩ := hsome
        obtain ⟨top, hlatest, -⟩ := maxVersion_spec hkey hmax
        have hcountable := hall latest (mem_of_maxVersion hmax)
        obtain ⟨next, hnext⟩ := versionAfter_of_countable hcountable hlatest.key_eq
        refine ⟨next, ?_, fresh_versionAfter hlatest hnext⟩
        rw [nextVersion_cons hrows hkey hmax hlatest.key_eq, hnext]

/-- A version with a superscript, which counts as a digit. -/
def superscript : TemplateModel where
  id := 1
  templateKey := "order".toList
  version := "V²".toList
  name := "Order".toList
  description := none
  tags := none
  category := none
  m8fTenantId := "t1".toList
  visibility := "PRIVATE".toList
  files := [⟨some "bpmn".toList, some "order.bpmn".toList⟩]
  isPublished := false
  status := some "draft".toList
  isDeleted := false
  createdBy := "ada".toList
  modifiedBy := "ada".toList

/-- There is no next version after it. -/
theorem superscript_raises :
    nextVersion [superscript] "order".toList "t1".toList = .error .valueError := by
  decide

end M8flow.Template
