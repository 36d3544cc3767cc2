import M8flow.Lib.Text

/-!
# Tenants and their identifiers

`auth/canonicalize.py`: a claimed tenant identifier is the id or the slug of a
tenant row, and is resolved to that row.  Several identifiers resolve together,
to the one row that any of them names.
-/

namespace M8flow.Auth

open M8flow.Lib

/-- A tenant row, as far as identifiers are compared with it. -/
structure TenantRow where
  id : Text
  slug : Text
  deriving Repr, DecidableEq

/-- A text that is not blank, stripped. -/
def nonblank (value : Option Text) : Option Text :=
  value.bind fun s => if s.strip = [] then none else some s.strip

/-- The distinct identifiers that are not blank, stripped. -/
def normalizedIdentifiers (identifiers : List (Option Text)) : List Text :=
  (identifiers.filterMap nonblank).eraseDups

/-- The row has one of the identifiers. -/
def TenantRow.namedBy (row : TenantRow) (identifiers : List Text) : Bool :=
  row.id ∈ identifiers || row.slug ∈ identifiers

/-- `_find_tenant_row`; `one_or_none` raises where several rows match, which the caller
reads as none. -/
def findTenantRow (tenants : List TenantRow) (identifiers : List (Option Text)) :
    Option TenantRow :=
  let normalized := normalizedIdentifiers identifiers
  if normalized = [] then none
  else
    match tenants.filter fun row => row.namedBy normalized with
    | [row] => some row
    | _ => none

/-- `_canonical_tenant_id_from_identifiers`. -/
def canonicalTenantId (tenants : List TenantRow) (identifiers : List (Option Text)) :
    Option Text :=
  (findTenantRow tenants identifiers).bind fun row => nonblank (some row.id)

/-- `current_tenant_identifiers`; `current` is `current_tenant_id_or_none()`. -/
def currentTenantIdentifiers (tenants : List TenantRow) (current : Option Text)
    (tenantId : Option Text) : List Text :=
  let effective := Text.strip (((truthy tenantId).or current).getD [])
  if effective = [] then []
  else
    effective ::
      match findTenantRow tenants [some effective] with
      | some row => [row.id.strip, row.slug.strip].filter fun s => s ≠ []
      | none => []

/-- `is_concrete_tenant_id`. -/
def isConcreteTenantId (tenantId : Text) : Bool :=
  tenantId.strip ≠ [] ∧ tenantId.strip ≠ "default".toList ∧ tenantId.strip ≠ "public".toList

/-! ## Resolving -/

@[simp] theorem mem_normalizedIdentifiers {identifiers : List (Option Text)} {s : Text} :
    s ∈ normalizedIdentifiers identifiers ↔ ∃ value ∈ identifiers, nonblank value = some s := by
  unfold normalizedIdentifiers
  rw [List.mem_eraseDups, List.mem_filterMap]

@[simp] theorem nonblank_none : nonblank none = none := rfl

theorem nonblank_eq_some {value : Option Text} {s : Text} :
    nonblank value = some s ↔ ∃ given, value = some given ∧ given.strip = s ∧ s ≠ [] := by
  unfold nonblank
  rw [Option.bind_eq_some_iff]
  constructor
  · rintro ⟨given, rfl, h⟩
    split at h
    · cases h
    · rename_i hne
      cases h
      exact ⟨given, rfl, rfl, hne⟩
  · rintro ⟨given, rfl, rfl, hne⟩
    exact ⟨given, rfl, if_neg hne⟩

/-- Which rows identifiers name depends on the identifiers as a set. -/
theorem namedBy_iff {row : TenantRow} {identifiers : List Text} :
    row.namedBy identifiers ↔ ∃ s ∈ identifiers, row.id = s ∨ row.slug = s := by
  unfold TenantRow.namedBy
  rw [Bool.or_eq_true, decide_eq_true_eq, decide_eq_true_eq]
  constructor
  · rintro (h | h)
    · exact ⟨row.id, h, Or.inl rfl⟩
    · exact ⟨row.slug, h, Or.inr rfl⟩
  · rintro ⟨s, hs, rfl | rfl⟩
    · exact Or.inl hs
    · exact Or.inr hs

/-- A resolved row is the one row of the table that the identifiers name. -/
theorem findTenantRow_eq_some {tenants : List TenantRow} {identifiers : List (Option Text)}
    {row : TenantRow} :
    findTenantRow tenants identifiers = some row ↔
      (tenants.filter fun row => row.namedBy (normalizedIdentifiers identifiers)) = [row] := by
  unfold findTenantRow
  constructor
  · intro h
    dsimp only at h
    split at h
    · cases h
    · split at h
      · rename_i found hfilter
        cases h
        exact hfilter
      · cases h
  · intro h
    dsimp only
    have hne : normalizedIdentifiers identifiers ≠ [] := by
      intro hnil
      have hmem : row ∈ tenants.filter fun row => row.namedBy (normalizedIdentifiers identifiers) := by
        rw [h]
        exact List.mem_singleton_self row
      have hnamed := (List.mem_filter.mp hmem).2
      rw [hnil] at hnamed
      cases hnamed
    rw [if_neg hne, h]

end M8flow.Auth
