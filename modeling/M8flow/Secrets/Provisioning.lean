import M8flow.Secrets.Paths
import Mathlib.Logic.Function.Basic

/-!
# Vault identities of tenants

`secrets/provisioning.py`, and `write_policy`, `write_approle`, `store_for_tenant` and the
request paths of `secrets/http.py`.  Vault is a map from policy names to policies and one
from role names to the policies of their tokens.  A policy is the list of its stanzas, of
which the text of `_tenant_policy` has three.

- `provisionTenantIdentity_spec` says what one call writes;
- `provisionAll_spec` says what a sequence of calls leaves for each tenant.
-/

namespace M8flow.Secrets

open M8flow.Lib

/-! ## Names -/

/-- `_require`. -/
def required (value : Text) (fieldName : String) : Except String Text :=
  if value.strip = [] then .error (fieldName ++ " must not be empty.") else .ok value.strip

/-- A character of `_SAFE_NAME`'s complement. -/
def isSafeName (c : Char) : Bool := c.isAlphanum || c == '.' || c == '_' || c == '-'

/-- `_SAFE_NAME.sub("-", value)`; the flag says that the run of unsafe characters has
begun. -/
def subUnsafe : Bool → Text → Text
  | _, [] => []
  | inRun, c :: rest =>
      if isSafeName c then c :: subUnsafe false rest
      else if inRun then subUnsafe true rest
      else '-' :: subUnsafe true rest

/-- What `_safe_component` makes of a value. -/
def safeText (value : Text) : Text :=
  Text.stripWhere (fun c => c == '-' || c == '.') (subUnsafe false value.strip)

/-- `_safe_component`. -/
def safeComponent (value : Text) (fieldName : String) : Except String Text := do
  let _ ← required value fieldName
  if safeText value = [] then
    .error (fieldName ++ " must contain at least one Vault-safe character.")
  else .ok (safeText value)

/-- `tenant_policy_name` and `tenant_role_name`, with their prefixes. -/
def identityName (namePrefix tenantId : Text) : Except String Text := do
  let first ← safeComponent namePrefix "prefix"
  let second ← safeComponent tenantId "tenant_id"
  pure (first ++ '-' :: second)

def tenantPolicyName (config : Config) (tenantId : Text) : Except String Text :=
  identityName config.tenantPolicyPrefix tenantId

def tenantRoleName (config : Config) (tenantId : Text) : Except String Text :=
  identityName config.tenantRolePrefix tenantId

/-! ## Policies -/

inductive Capability where
  | create
  | read
  | update
  | delete
  | list
  deriving Repr, DecidableEq

/-- `path "..." { capabilities = [...] }`. -/
structure Stanza where
  path : Text
  capabilities : List Capability
  deriving Repr, DecidableEq

/-- `_tenant_policy`, once its parts are known. -/
def policyOf (mount root : Text) : List Stanza :=
  [⟨mount ++ ("/data/".toList ++ (root ++ ['/', '*'])), [.create, .read, .update, .delete]⟩,
    ⟨mount ++ ("/metadata/".toList ++ root), [.list, .read]⟩,
    ⟨mount ++ ("/metadata/".toList ++ (root ++ ['/', '*'])), [.list, .read, .delete]⟩]

/-- `_tenant_policy`. -/
def tenantPolicy (config : Config) (tenantId : Text) : Except String (List Stanza) := do
  let mount ← required config.mountPoint "vault_mount_point"
  let tenant ← required tenantId "tenant_id"
  let root ← secretRoot config tenant
  pure (policyOf mount root)

/-- A path that ends in a star covers what extends the text before it, another one itself. -/
def Stanza.Covers (stanza : Stanza) (path : Text) : Prop :=
  if stanza.path.getLast? = some '*' then stanza.path.dropLast <+: path else stanza.path = path

/-- The policy grants the capability on the path. -/
def Grants (policy : List Stanza) (capability : Capability) (path : Text) : Prop :=
  ∃ stanza ∈ policy, capability ∈ stanza.capabilities ∧ stanza.Covers path

/-! ## Vault -/

/-- Vault: the policies by name, and the token policies of the roles. -/
structure Vault where
  policies : Text → Option (List Stanza)
  roles : Text → Option (List Text)

def Vault.empty : Vault := ⟨fun _ => none, fun _ => none⟩

/-- `write_policy`. -/
def Vault.writePolicy (vault : Vault) (name : Text) (policy : List Stanza) : Vault :=
  { vault with policies := Function.update vault.policies name (some policy) }

/-- `write_approle`. -/
def Vault.writeApprole (vault : Vault) (roleName : Text) (tokenPolicies : List Text) : Vault :=
  { vault with roles := Function.update vault.roles roleName (some tokenPolicies) }

/-- `store_for_tenant`: a login of the role, with the policies of its token; nothing is the
`VaultTransportError` where there is no such role. -/
def Vault.storeForTenant (vault : Vault) (roleName : Text) : Option (List Text) :=
  vault.roles roleName

/-- A token with the policies may do this on the path. -/
def Vault.Allows (vault : Vault) (tokenPolicies : List Text) (capability : Capability)
    (path : Text) : Prop :=
  ∃ name ∈ tokenPolicies, ∃ policy, vault.policies name = some policy ∧
    Grants policy capability path

/-- `HttpVault._mount`. -/
def requestMount (config : Config) : Text := cleanPart config.mountPoint

/-- The path of `_kv_data_url`. -/
def dataPath (config : Config) (path : Text) : Text :=
  requestMount config ++ ("/data/".toList ++ Text.stripWhere (· == '/') path)

/-- The path of `_kv_meta_url`. -/
def metadataPath (config : Config) (path : Text) : Text :=
  requestMount config ++ ("/metadata/".toList ++ Text.stripWhere (· == '/') path)

/-! ## Provisioning -/

/-- `TenantVaultIdentity`, without the ids and secrets that Vault makes up. -/
structure TenantVaultIdentity where
  tenantId : Text
  policyName : Text
  roleName : Text
  createdNewSecretId : Bool
  deriving Repr, DecidableEq

/-- `provision_tenant_identity`, where every request succeeds. -/
def provisionTenantIdentity (config : Config) (tenantId : Text) (vault : Vault) :
    Except String (TenantVaultIdentity × Vault) := do
  let normalized ← required tenantId "tenant_id"
  let policyName ← tenantPolicyName config normalized
  let roleName ← tenantRoleName config normalized
  let _ ← required config.approleMountPoint "vault_approle_mount_point"
  let existing := vault.roles roleName
  let policy ← tenantPolicy config normalized
  let vault := vault.writePolicy policyName policy
  let vault := vault.writeApprole roleName [policyName]
  pure (⟨normalized, policyName, roleName, existing.isNone⟩, vault)

/-- A sequence of calls, all of which succeed. -/
def provisionAll (config : Config) : List Text → Vault → Except String Vault
  | [], vault => .ok vault
  | tenantId :: rest, vault => do
      let (_, vault) ← provisionTenantIdentity config tenantId vault
      provisionAll config rest vault

/-! ## What the calls write -/

theorem required_eq_ok {value cleaned : Text} {fieldName : String} :
    required value fieldName = .ok cleaned ↔ value.strip ≠ [] ∧ cleaned = value.strip := by
  unfold required
  split
  · rename_i hempty
    simp [hempty]
  · rename_i hne
    constructor
    · intro h
      cases h
      exact ⟨hne, rfl⟩
    · rintro ⟨_, rfl⟩
      rfl

theorem safeText_strip (value : Text) : safeText value.strip = safeText value := by
  unfold safeText
  rw [Text.strip_strip]

/-- A computation that goes on after another one succeeds only if both do. -/
theorem bind_eq_ok {α β : Type} {x : Except String α} {f : α → Except String β} {b : β} :
    (x >>= f) = .ok b ↔ ∃ a, x = .ok a ∧ f a = .ok b := by
  cases x with
  | error message =>
      constructor
      · intro h
        cases h
      · rintro ⟨a, h, _⟩
        cases h
  | ok a =>
      constructor
      · intro h
        exact ⟨a, rfl, h⟩
      · rintro ⟨a', h, hf⟩
        cases h
        exact hf

theorem safeComponent_eq_ok {value component : Text} {fieldName : String}
    (h : safeComponent value fieldName = .ok component) : component = safeText value := by
  obtain ⟨cleaned, _, hrest⟩ := bind_eq_ok.mp h
  split at hrest
  · cases hrest
  · cases hrest
    rfl

/-- A name is the prefix's component and the tenant's. -/
theorem identityName_eq_ok {namePrefix tenantId name : Text}
    (h : identityName namePrefix tenantId = .ok name) :
    name = safeText namePrefix ++ '-' :: safeText tenantId := by
  obtain ⟨first, hfirst, h⟩ := bind_eq_ok.mp h
  obtain ⟨second, hsecond, h⟩ := bind_eq_ok.mp h
  cases h
  rw [safeComponent_eq_ok hfirst, safeComponent_eq_ok hsecond]

/-- The names do not depend on white space around the id. -/
theorem identityName_strip (namePrefix tenantId : Text) :
    identityName namePrefix tenantId.strip = identityName namePrefix tenantId := by
  unfold identityName safeComponent required
  rw [Text.strip_strip, safeText_strip]

/-- Two tenants have one name exactly if they have one component. -/
theorem identityName_inj {namePrefix tenantId other name otherName : Text}
    (h : identityName namePrefix tenantId = .ok name)
    (hother : identityName namePrefix other = .ok otherName) :
    name = otherName ↔ safeText tenantId = safeText other := by
  rw [identityName_eq_ok h, identityName_eq_ok hother, List.append_cancel_left_eq,
    List.cons.injEq]
  constructor
  · exact fun heq => heq.2
  · exact fun heq => ⟨rfl, heq⟩

/-- The policy that a tenant is provisioned with. -/
def policyFor (config : Config) (tenantId : Text) : List Stanza :=
  policyOf config.mountPoint.strip (rootText config tenantId)

/-- A call writes the tenant's policy and a role with it. -/
theorem provisionTenantIdentity_spec {config : Config} {tenantId : Text} {vault after : Vault}
    {identity : TenantVaultIdentity}
    (h : provisionTenantIdentity config tenantId vault = .ok (identity, after)) :
    tenantId.strip ≠ [] ∧ ∃ policyName roleName,
      tenantPolicyName config tenantId = .ok policyName ∧
      tenantRoleName config tenantId = .ok roleName ∧
      after = (vault.writePolicy policyName (policyFor config tenantId)).writeApprole roleName
        [policyName] := by
  obtain ⟨normalized, hnormalized, h⟩ := bind_eq_ok.mp h
  obtain ⟨hne, rfl⟩ := required_eq_ok.mp hnormalized
  obtain ⟨policyName, hpolicyName, h⟩ := bind_eq_ok.mp h
  obtain ⟨roleName, hroleName, h⟩ := bind_eq_ok.mp h
  obtain ⟨approle, _, h⟩ := bind_eq_ok.mp h
  obtain ⟨policy, hpolicy, h⟩ := bind_eq_ok.mp h
  obtain ⟨mount, hmount, hparts⟩ := bind_eq_ok.mp hpolicy
  obtain ⟨tenant, htenant, hlines⟩ := bind_eq_ok.mp hparts
  obtain ⟨root, hroot, hstanzas⟩ := bind_eq_ok.mp hlines
  obtain ⟨_, rfl⟩ := required_eq_ok.mp hmount
  obtain ⟨htenantNe, rfl⟩ := required_eq_ok.mp htenant
  rw [Text.strip_strip] at htenantNe hroot
  have hrootText : root = rootText config tenantId := by
    rw [secretRoot_eq (by rw [Text.strip_strip]; exact hne)] at hroot
    rw [← rootText_strip]
    exact (Except.ok.inj hroot).symm
  cases hstanzas
  cases h
  refine ⟨hne, policyName, roleName, ?_, ?_, ?_⟩
  · rw [← hpolicyName]
    exact (identityName_strip _ _).symm
  · rw [← hroleName]
    exact (identityName_strip _ _).symm
  · rw [hrootText]
    rfl

/-- What Vault has for a tenant: a role, whose policy is the one of the given tenant. -/
structure Provisioned (config : Config) (vault : Vault) (tenantId owner : Text) : Prop where
  named : tenantId.strip ≠ []
  component : safeText owner = safeText tenantId
  written : ∃ policyName roleName,
    tenantPolicyName config tenantId = .ok policyName ∧
    tenantRoleName config tenantId = .ok roleName ∧
    vault.roles roleName = some [policyName] ∧
    vault.policies policyName = some (policyFor config owner)

/-- The tenant of a call is provisioned after it. -/
theorem provisioned_self {config : Config} {tenantId : Text} {vault after : Vault}
    {identity : TenantVaultIdentity}
    (h : provisionTenantIdentity config tenantId vault = .ok (identity, after)) :
    Provisioned config after tenantId tenantId := by
  obtain ⟨hne, policyName, roleName, hpolicyName, hroleName, rfl⟩ :=
    provisionTenantIdentity_spec h
  refine ⟨hne, rfl, policyName, roleName, hpolicyName, hroleName, ?_, ?_⟩
  · exact Function.update_self _ _ _
  · exact Function.update_self _ _ _

/-- A call for another tenant leaves what is there, unless the two have one component; then
the policy is the other tenant's. -/
theorem provisioned_other {config : Config} {tenantId other owner : Text}
    {vault after : Vault} {identity : TenantVaultIdentity}
    (hprovisioned : Provisioned config vault tenantId owner)
    (h : provisionTenantIdentity config other vault = .ok (identity, after)) :
    Provisioned config after tenantId (if safeText other = safeText tenantId then other else owner) := by
  obtain ⟨_, otherPolicy, otherRole, hotherPolicy, hotherRole, rfl⟩ :=
    provisionTenantIdentity_spec h
  obtain ⟨hne, hcomponent, policyName, roleName, hpolicyName, hroleName, hrole, hpolicy⟩ :=
    hprovisioned
  have hpolicies := identityName_inj hotherPolicy hpolicyName
  have hroles := identityName_inj hotherRole hroleName
  by_cases hsame : safeText other = safeText tenantId
  · rw [if_pos hsame]
    refine ⟨hne, hsame, policyName, roleName, hpolicyName, hroleName, ?_, ?_⟩
    · rw [hpolicies.mpr hsame, hroles.mpr hsame]
      exact Function.update_self _ _ _
    · rw [hpolicies.mpr hsame]
      exact Function.update_self _ _ _
  · rw [if_neg hsame]
    refine ⟨hne, hcomponent, policyName, roleName, hpolicyName, hroleName, ?_, ?_⟩
    · show Function.update vault.roles otherRole (some [otherPolicy]) roleName = _
      rw [Function.update_of_ne (fun heq => hsame (hroles.mp heq.symm)), hrole]
    · show Function.update vault.policies otherPolicy _ policyName = _
      rw [Function.update_of_ne (fun heq => hsame (hpolicies.mp heq.symm)), hpolicy]

/-- A tenant stays provisioned, for one of the tenants. -/
theorem provisioned_all {config : Config} {tenantId owner : Text} {ids : List Text}
    {vault after : Vault} (hprovisioned : Provisioned config vault tenantId owner)
    (h : provisionAll config ids vault = .ok after) :
    ∃ last, (last = owner ∨ last ∈ ids) ∧ Provisioned config after tenantId last := by
  induction ids generalizing vault owner with
  | nil =>
      cases h
      exact ⟨owner, .inl rfl, hprovisioned⟩
  | cons other rest ih =>
      obtain ⟨⟨identity, next⟩, hcall, hrest⟩ := bind_eq_ok.mp h
      obtain ⟨last, hlast, hafter⟩ := ih (provisioned_other hprovisioned hcall) hrest
      refine ⟨last, ?_, hafter⟩
      rcases hlast with rfl | hmem
      · split
        · exact .inr List.mem_cons_self
        · exact .inl rfl
      · exact .inr (List.mem_cons_of_mem _ hmem)

/-- After a sequence of calls every tenant of them has a role, with the policy of a tenant
of them that has the same component. -/
theorem provisionAll_spec {config : Config} {ids : List Text} {vault after : Vault}
    (h : provisionAll config ids vault = .ok after) :
    ∀ tenantId ∈ ids, ∃ owner ∈ ids, Provisioned config after tenantId owner := by
  induction ids generalizing vault with
  | nil =>
      intro tenantId hmem
      cases hmem
  | cons other rest ih =>
      obtain ⟨⟨identity, next⟩, hcall, hrest⟩ := bind_eq_ok.mp h
      intro tenantId hmem
      rcases List.mem_cons.mp hmem with rfl | hmem
      · obtain ⟨last, hlast, hafter⟩ := provisioned_all (provisioned_self hcall) hrest
        refine ⟨last, ?_, hafter⟩
        rcases hlast with rfl | hlast
        · exact List.mem_cons_self
        · exact List.mem_cons_of_mem _ hlast
      · obtain ⟨owner, howner, hafter⟩ := ih hrest tenantId hmem
        exact ⟨owner, List.mem_cons_of_mem _ howner, hafter⟩

/-- The tenant of the last call has its own policy. -/
theorem provisionAll_last {config : Config} {ids : List Text} {vault after : Vault}
    (h : provisionAll config ids vault = .ok after) {tenantId : Text}
    (hlast : ids.getLast? = some tenantId) : Provisioned config after tenantId tenantId := by
  induction ids generalizing vault with
  | nil => cases hlast
  | cons other rest ih =>
      obtain ⟨⟨identity, next⟩, hcall, hrest⟩ := bind_eq_ok.mp h
      cases rest with
      | nil =>
          cases hlast
          cases hrest
          exact provisioned_self hcall
      | cons second rest =>
          rw [List.getLast?_cons_cons] at hlast
          exact ih hrest hlast

end M8flow.Secrets
