import M8flow.Keycloak.Claims
import M8flow.Lib.JsonTree

/-!
# The organizations that the MCP server sees

`auth/tenant_selection.py` reads the `organization` claim a second time, and
`middleware/tenant_context.py` falls back to the tenant claim or to a default
tenant when it finds no organization there.

- `Names` says which texts the MCP server can name an organization by;
- `organizationMemberships_ne_nil` says when it finds an organization;
- `fallback_iff` compares with what the backend finds in the same payload.
-/

namespace M8flow.Mcp

open M8flow.Lib M8flow.Auth M8flow.Keycloak

/-- An organization as the MCP server lists it. -/
structure Organization where
  orgAlias : Text
  id : Option Text
  name : Option Text
  deriving Repr, DecidableEq

/-- `_clean_str` of a value. -/
def cleanStr (value : Option Json) : Option Text := nonblank (value.bind Json.asText)

/-- `_membership`. -/
def membership (orgAlias : Text) (details : List (Text × Json)) : Organization :=
  { orgAlias
    id := cleanStr (Json.field details "id".toList)
    name := cleanStr (Json.field details "name".toList) }

/-- The organizations that `add` appends for a text.  A text that begins with a brace is
read as JSON, whose keys are added in turn where they have details. -/
def add : (fuel : Nat) → Text → List (Text × Json) → List Organization
  | 0, _, _ => []
  | fuel + 1, orgAlias, details =>
      match nonblank (some orgAlias) with
      | none => []
      | some aliasStr =>
          if aliasStr.head? = some '\x7b' then
            match JsonTree.loads aliasStr with
            | some (.obj parsed) => parsed.flatMap fun (nested, nestedDetails) =>
                match nestedDetails with
                | .obj nestedDetails => add fuel nested nestedDetails
                | _ => []
            | _ => []
          else [membership aliasStr details]

/-- `add` of a text; a nested key is shorter than the text it is in. -/
def addText (orgAlias : Text) (details : List (Text × Json)) : List Organization :=
  add (orgAlias.length + 1) orgAlias details

/-- The organizations of the claim, with duplicates. -/
def listed (claim : Option Json) : List Organization :=
  match claim with
  | some (.obj fields) => fields.flatMap fun (orgAlias, details) =>
      match details with
      | .obj details => addText orgAlias details
      | _ => []
  | some (.arr items) => items.flatMap fun item =>
      match item with
      | .str s => addText s []
      | .obj details =>
          match Json.field details "alias".toList with
          | some (.str orgAlias) => addText orgAlias details
          | _ => []
      | _ => []
  | _ => []

/-- `by_alias`: one entry for each alias, with the first id and name that a duplicate has. -/
def merge (organizations : List Organization) (organization : Organization) :
    List Organization :=
  if organizations.any fun existing => existing.orgAlias = organization.orgAlias then
    organizations.map fun existing =>
      if existing.orgAlias = organization.orgAlias then
        { existing with
          id := existing.id.or organization.id
          name := existing.name.or organization.name }
      else existing
  else organizations ++ [organization]

/-- `organization_memberships` of decoded claims. -/
def organizationMemberships (claims : Payload) : List Organization :=
  (listed (Json.field claims "organization".toList)).foldl merge []

example : organizationMemberships [("organization".toList, .arr
    [.str "\x7b\"acme\": \x7b\"id\": \"7\"\x7d\x7d".toList, .str "acme".toList])] =
    [⟨"acme".toList, some "7".toList, none⟩] := by decide +kernel

/-! ## The middleware without a stored selection -/

/-- A value that Python counts as true. -/
def isTrue : Json → Bool
  | .null => false
  | .bool b => b
  | .num n => n ≠ 0
  | .str s => s ≠ []
  | .arr items => !items.isEmpty
  | .obj fields => !fields.isEmpty

/-- What `_apply_tenant_context` does for a request that has no stored selection. -/
inductive Resolution where
  /-- Finalize the only organization, and leave the tenant unresolved if that fails. -/
  | finalize (orgAlias : Text)
  | unresolved
  /-- `set_tenant_id(str(claim_tenant))`. -/
  | tenantClaim (value : Json)
  /-- `set_tenant_id(settings.default_tenant_id)`. -/
  | defaultTenant (tenantId : Text)
  | noTenant

/-- The part of `_apply_tenant_context` after the stored selection. -/
def resolve (claims : Payload) (defaultTenantId : Option Text) : Resolution :=
  match organizationMemberships claims with
  | [organization] => .finalize organization.orgAlias
  | _ :: _ :: _ => .unresolved
  | [] =>
      match (Json.field claims "m8flow_tenant_id".toList).filter isTrue with
      | some value => .tenantClaim value
      | none =>
          match truthy defaultTenantId with
          | some tenantId => .defaultTenant tenantId
          | none => .noTenant

/-- The tenant comes from the tenant claim or from the default. -/
def Resolution.IsFallback : Resolution → Prop
  | .tenantClaim _ | .defaultTenant _ => True
  | _ => False

/-! ## Which organizations have a name -/

/-- A text that names an organization for the MCP server: one that does not begin with a
brace, or JSON with such a name among its keys. -/
inductive Names : Text → Prop where
  | plain {s} : s.strip ≠ [] → s.strip.head? ≠ some '\x7b' → Names s
  | nested {s fields name details} : s.strip.head? = some '\x7b' →
      JsonTree.loads s.strip = some (.obj fields) → (name, .obj details) ∈ fields →
      Names name → Names s

/-- An item of the claim with details or a text that names an organization. -/
inductive IsNamed : Json → Prop where
  | map {fields name details} :
      (name, .obj details) ∈ fields → Names name → IsNamed (.obj fields)
  | listText {items name} : .str name ∈ items → Names name → IsNamed (.arr items)
  | listDetails {items details name} : .obj details ∈ items →
      Json.field details "alias".toList = some (.str name) → Names name → IsNamed (.arr items)

/-- With fuel for its length, a text adds an organization exactly where it names one. -/
theorem add_ne_nil {fuel : Nat} {name : Text} (hfuel : name.length < fuel)
    (details : List (Text × Json)) : add fuel name details ≠ [] ↔ Names name := by
  induction fuel generalizing name details with
  | zero => omega
  | succ fuel ih =>
      have hstrip := Text.length_strip name
      have hnested : ∀ {fields : List (Text × Json)},
          JsonTree.loads name.strip = some (.obj fields) →
          ∀ field ∈ fields, field.1.length < fuel := by
        intro fields hloads field hfield
        have hlength := JsonTree.length_lt_of_mem_loads hloads field hfield
        omega
      by_cases hblank : name.strip = []
      · have hnone : nonblank (some name) = none := by
          cases hcase : nonblank (some name) with
          | none => rfl
          | some s =>
              obtain ⟨given, hgiven, hs, hne⟩ := nonblank_eq_some.mp hcase
              cases hgiven
              exact absurd hblank (hs ▸ hne)
        rw [add, hnone]
        constructor
        · intro h
          exact absurd rfl h
        · intro h
          cases h with
          | plain hne _ => exact absurd hblank hne
          | nested hhead _ _ _ => simp [hblank] at hhead
      · rw [add, nonblank_some_eq hblank]
        dsimp only
        by_cases hbrace : name.strip.head? = some '\x7b'
        · rw [if_pos hbrace]
          constructor
          · intro h
            obtain ⟨organization, hmem⟩ := List.exists_mem_of_ne_nil _ h
            split at hmem
            · rename_i parsed hloads
              obtain ⟨⟨nested, nestedDetails⟩, hfield, hmem⟩ := List.mem_flatMap.mp hmem
              dsimp only at hmem
              split at hmem
              · rename_i nestedDetails
                have hadded := (ih (hnested hloads _ hfield) nestedDetails).mp
                  (List.ne_nil_of_mem hmem)
                exact .nested hbrace hloads hfield hadded
              · cases hmem
            · cases hmem
          · intro h
            cases h with
            | plain _ hhead => exact absurd hbrace hhead
            | @nested _ fields inner nestedDetails _ hloads hfield hinner =>
                obtain ⟨organization, hmem⟩ := List.exists_mem_of_ne_nil _
                  ((ih (hnested hloads _ hfield) nestedDetails).mpr hinner)
                rw [hloads]
                apply List.ne_nil_of_mem (a := organization)
                exact List.mem_flatMap.mpr ⟨_, hfield, hmem⟩
        · rw [if_neg hbrace]
          constructor
          · intro _
            exact .plain hblank hbrace
          · intro _
            exact List.cons_ne_nil _ _

theorem addText_ne_nil (name : Text) (details : List (Text × Json)) :
    addText name details ≠ [] ↔ Names name :=
  add_ne_nil (Nat.lt_succ_self _) details

/-- The claim lists an organization exactly where an item is named. -/
theorem listed_ne_nil (claim : Option Json) :
    listed claim ≠ [] ↔ ∃ value, claim = some value ∧ IsNamed value := by
  constructor
  · intro h
    obtain ⟨organization, hmem⟩ := List.exists_mem_of_ne_nil _ h
    unfold listed at hmem
    split at hmem
    · refine ⟨_, rfl, ?_⟩
      obtain ⟨⟨name, details⟩, hfield, hmem⟩ := List.mem_flatMap.mp hmem
      dsimp only at hmem
      split at hmem
      · exact .map hfield ((addText_ne_nil _ _).mp (List.ne_nil_of_mem hmem))
      · cases hmem
    · refine ⟨_, rfl, ?_⟩
      obtain ⟨item, hitem, hmem⟩ := List.mem_flatMap.mp hmem
      split at hmem
      · exact .listText hitem ((addText_ne_nil _ _).mp (List.ne_nil_of_mem hmem))
      · split at hmem
        · rename_i name hname
          exact .listDetails hitem hname ((addText_ne_nil _ _).mp (List.ne_nil_of_mem hmem))
        · cases hmem
      · cases hmem
    · cases hmem
  · rintro ⟨value, rfl, hvalue⟩
    have hmem : ∃ organization, organization ∈ listed (some value) := by
      cases hvalue with
      | @map fields name details hfield hname =>
          obtain ⟨organization, hmem⟩ :=
            List.exists_mem_of_ne_nil _ ((addText_ne_nil name details).mpr hname)
          exact ⟨organization, List.mem_flatMap.mpr ⟨_, hfield, hmem⟩⟩
      | @listText items name hitem hname =>
          obtain ⟨organization, hmem⟩ :=
            List.exists_mem_of_ne_nil _ ((addText_ne_nil name []).mpr hname)
          exact ⟨organization, List.mem_flatMap.mpr ⟨_, hitem, hmem⟩⟩
      | @listDetails items details name hitem hfield hname =>
          obtain ⟨organization, hmem⟩ :=
            List.exists_mem_of_ne_nil _ ((addText_ne_nil name details).mpr hname)
          refine ⟨organization, List.mem_flatMap.mpr ⟨_, hitem, ?_⟩⟩
          simp only [hfield]
          exact hmem
    obtain ⟨organization, hmem⟩ := hmem
    exact List.ne_nil_of_mem hmem

theorem merge_ne_nil (organizations : List Organization) (organization : Organization) :
    merge organizations organization ≠ [] := by
  unfold merge
  split
  · rename_i hany
    obtain ⟨existing, hmem, _⟩ := List.any_eq_true.mp hany
    intro hnil
    rw [List.map_eq_nil_iff.mp hnil] at hmem
    cases hmem
  · simp

/-- The MCP server finds an organization exactly where an item of the claim is named. -/
theorem organizationMemberships_ne_nil (claims : Payload) :
    organizationMemberships claims ≠ [] ↔
      ∃ value, Json.field claims "organization".toList = some value ∧ IsNamed value := by
  rw [← listed_ne_nil]
  unfold organizationMemberships
  cases listed (Json.field claims "organization".toList) with
  | nil => simp
  | cons first rest =>
      have hfold : ∀ (rest organizations : List Organization), organizations ≠ [] →
          rest.foldl merge organizations ≠ [] := by
        intro rest
        induction rest with
        | nil => exact fun _ h => h
        | cons next rest ih => exact fun _ _ => ih _ (merge_ne_nil _ _)
      constructor
      · intro _
        exact List.cons_ne_nil _ _
      · intro _
        exact hfold rest _ (merge_ne_nil [] first)

/-! ## Members and the fallback -/

/-- Where the backend takes an item of the claim for a membership, the MCP server can name
an organization. -/
def EntriesNamed (payload : Payload) : Prop :=
  ∀ claim, Json.field payload "organization".toList = some claim → IsEntry claim → IsNamed claim

theorem memberships_ne_nil (payload : Payload) :
    membershipsFromOrganizationClaim payload ≠ [] ↔
      ∃ value, Json.field payload "organization".toList = some value ∧ IsEntry value := by
  rw [← organizationEntries_ne_nil]
  unfold membershipsFromOrganizationClaim
  simp

/-- Without organizations the middleware falls back, where there is a default. -/
theorem isFallback_of_nil {claims : Payload} (h : organizationMemberships claims = []) :
    (resolve claims (some ['d'])).IsFallback := by
  unfold resolve
  rw [h]
  dsimp only
  split
  · trivial
  · trivial

theorem not_isFallback_of_ne_nil {claims : Payload} (h : organizationMemberships claims ≠ [])
    (defaultTenantId : Option Text) : ¬ (resolve claims defaultTenantId).IsFallback := by
  unfold resolve
  cases hlist : organizationMemberships claims with
  | nil => exact absurd hlist h
  | cons first rest =>
      cases rest with
      | nil => exact id
      | cons second rest => exact id

/-- A member of an organization never runs under the tenant claim or a default tenant, and
the two lists agree on whether there is an organization, exactly for the payloads whose
entries include one that the MCP server can name. -/
theorem fallback_iff (payload : Payload) :
    ((membershipsFromOrganizationClaim payload ≠ [] →
        ∀ defaultTenantId, ¬ (resolve payload defaultTenantId).IsFallback) ↔
      EntriesNamed payload) ∧
    ((organizationMemberships payload = [] → membershipsFromOrganizationClaim payload = []) ↔
      EntriesNamed payload) := by
  have hlists : (membershipsFromOrganizationClaim payload ≠ [] →
      organizationMemberships payload ≠ []) ↔ EntriesNamed payload := by
    rw [memberships_ne_nil, organizationMemberships_ne_nil]
    constructor
    · intro h claim hclaim hentry
      obtain ⟨value, hvalue, hnamed⟩ := h ⟨claim, hclaim, hentry⟩
      rw [hclaim] at hvalue
      cases hvalue
      exact hnamed
    · rintro h ⟨claim, hclaim, hentry⟩
      exact ⟨claim, hclaim, h claim hclaim hentry⟩
  constructor
  · rw [← hlists]
    constructor
    · intro h hmember hnil
      exact h hmember _ (isFallback_of_nil hnil)
    · intro h hmember
      exact not_isFallback_of_ne_nil (h hmember)
  · rw [← hlists]
    exact not_imp_not.symm

/-- A member by an alias without details runs under the tenant that the token claims. -/
theorem alias_without_details_falls_back :
    ∃ payload : Payload, membershipsFromOrganizationClaim payload ≠ [] ∧
      organizationMemberships payload = [] ∧ ∃ value, resolve payload none = .tenantClaim value := by
  refine ⟨[("organization".toList, .obj [("acme".toList, .null)]),
    ("m8flow_tenant_id".toList, .str "other".toList)], ?_, ?_, .str "other".toList, ?_⟩
  · decide +kernel
  · decide +kernel
  · rfl

end M8flow.Mcp
