import M8flow.Secrets.Provisioning

/-!
# Isolation of tenants in Vault

What the token of one provisioned tenant may do with the paths of the others.  The roots of
two tenants differ in a component without slashes, so no policy reaches out of its root; the
names of roles and policies are made of sanitised ids, which two tenants can share.

- `component_eq_of_grants` says that a policy grants nothing outside its tenant's root;
- `tight_of_grants` says what a policy needs to cover its own tenant's paths;
- `isolated_iff` says when a sequence of calls keeps the tenants apart.
-/

namespace M8flow.Secrets

open M8flow.Lib

/-- A token of each tenant covers the tenant's secrets, and nothing of the other tenants. -/
def Isolated (config : Config) (unicode : Char → Bool) (vault : Vault) (ids : List Text) :
    Prop :=
  ∀ tenantId ∈ ids, ∃ roleName tokenPolicies,
    tenantRoleName config tenantId = .ok roleName ∧
    vault.storeForTenant roleName = some tokenPolicies ∧
    (∀ key path, secretPath config unicode tenantId key = .ok path →
      (∀ capability ∈ [Capability.create, .read, .update, .delete],
        vault.Allows tokenPolicies capability (dataPath config path)) ∧
      vault.Allows tokenPolicies .delete (metadataPath config path)) ∧
    ∀ other ∈ ids, other.strip ≠ tenantId.strip →
      (∀ key path capability, secretPath config unicode other key = .ok path →
        ¬ vault.Allows tokenPolicies capability (dataPath config path) ∧
        ¬ vault.Allows tokenPolicies capability (metadataPath config path)) ∧
      ∀ root capability, secretRoot config other = .ok root →
        ¬ vault.Allows tokenPolicies capability (dataPath config root) ∧
        ¬ vault.Allows tokenPolicies capability (metadataPath config root)

/-- The configured mount has no slash at its ends, and the configured prefix does not begin
with white space once its slashes are off. -/
structure Tight (config : Config) : Prop where
  mount : cleanPart config.mountPoint = config.mountPoint.strip
  root : PrefixTight config

/-- No two of the tenants have one component in the names of roles and policies. -/
def Distinct (ids : List Text) : Prop :=
  ∀ tenantId ∈ ids, ∀ other ∈ ids, safeText tenantId = safeText other →
    tenantId.strip = other.strip

instance (ids : List Text) : Decidable (Distinct ids) := by
  unfold Distinct
  infer_instance

/-! ## What a policy covers -/

/-- A path under a star is covered exactly if it extends the text before the star. -/
theorem covers_star {first : Text} {capabilities : List Capability} {path : Text} :
    (⟨first ++ ['*'], capabilities⟩ : Stanza).Covers path ↔ first <+: path := by
  unfold Stanza.Covers
  rw [if_pos List.getLast?_concat, List.dropLast_concat]

/-- A path that ends in a letter covers itself. -/
theorem covers_self {stanza : Stanza} {path : Text} (h : stanza.path.getLast? = some 's') :
    stanza.Covers path ↔ stanza.path = path := by
  unfold Stanza.Covers
  rw [h, if_neg (by decide)]

/-- What the policy of a tenant grants. -/
theorem grants_policyFor {config : Config} {tenantId : Text} {capability : Capability}
    {path : Text} :
    Grants (policyFor config tenantId) capability path ↔
      (capability ∈ [Capability.create, .read, .update, .delete] ∧
        config.mountPoint.strip ++ ("/data/".toList ++ (rootText config tenantId ++ ['/'])) <+:
          path) ∨
      (capability ∈ [Capability.list, .read] ∧
        config.mountPoint.strip ++ ("/metadata/".toList ++ rootText config tenantId) = path) ∨
      (capability ∈ [Capability.list, .read, .delete] ∧
        config.mountPoint.strip ++ ("/metadata/".toList ++ (rootText config tenantId ++ ['/'])) <+:
          path) := by
  have hstar : ∀ kind : Text,
      config.mountPoint.strip ++ (kind ++ (rootText config tenantId ++ ['/', '*'])) =
        (config.mountPoint.strip ++ (kind ++ (rootText config tenantId ++ ['/']))) ++ ['*'] := by
    intro kind
    simp [List.append_assoc]
  have hroot : (config.mountPoint.strip ++
      ("/metadata/".toList ++ rootText config tenantId)).getLast? = some 's' := by
    rw [List.getLast?_append, List.getLast?_append, getLast?_rootText]
    rfl
  unfold Grants policyFor policyOf
  rw [hstar, hstar]
  simp only [List.mem_cons, List.not_mem_nil, or_false, exists_eq_or_imp, exists_eq_left]
  rw [covers_star, covers_star, covers_self hroot]

theorem prefix_of_eq {s t : Text} (h : s = t) : s <+: t := by
  rw [h]

/-- A path that begins with the root of a tenant is in the tenant's component. -/
theorem component_eq_of_prefix {config : Config} {owner tenantId s t : Text}
    (h : rootText config owner ++ s <+: rootText config tenantId ++ t) :
    encodedComponent owner = encodedComponent tenantId := by
  unfold rootText at h
  simp only [List.append_assoc] at h
  rw [List.prefix_append_right_inj, List.prefix_append_right_inj] at h
  have hslash : "/secrets".toList = '/' :: "secrets".toList := rfl
  rw [hslash, List.cons_append, List.cons_append] at h
  exact eq_of_slash_prefix (slash_not_mem_encodedComponent owner)
    (slash_not_mem_encodedComponent tenantId) h

/-- Data and metadata lie apart. -/
theorem not_data_prefix_metadata (s t : Text) :
    ¬ "/data/".toList ++ s <+: "/metadata/".toList ++ t ∧
      ¬ "/metadata/".toList ++ s <+: "/data/".toList ++ t := by
  have hdata : "/data/".toList = '/' :: 'd' :: "ata/".toList := rfl
  have hmetadata : "/metadata/".toList = '/' :: 'm' :: "etadata/".toList := rfl
  rw [hdata, hmetadata]
  simp [List.cons_append, List.cons_prefix_cons]

/-- A policy grants nothing on the data or metadata of another tenant's paths. -/
theorem component_eq_of_grants {config : Config} {owner tenantId : Text}
    {capability : Capability} {t : Text}
    (h : Grants (policyFor config owner) capability
        (config.mountPoint.strip ++ ("/data/".toList ++ (rootText config tenantId ++ t))) ∨
      Grants (policyFor config owner) capability
        (config.mountPoint.strip ++ ("/metadata/".toList ++ (rootText config tenantId ++ t)))) :
    encodedComponent owner = encodedComponent tenantId := by
  rw [grants_policyFor, grants_policyFor] at h
  rcases h with (⟨_, h⟩ | ⟨_, h⟩ | ⟨_, h⟩) | (⟨_, h⟩ | ⟨_, h⟩ | ⟨_, h⟩)
  · rw [List.prefix_append_right_inj, List.prefix_append_right_inj] at h
    exact component_eq_of_prefix h
  · have hsame := prefix_of_eq (List.append_cancel_left h)
    exact absurd hsame (not_data_prefix_metadata _ _).2
  · rw [List.prefix_append_right_inj] at h
    exact absurd h (not_data_prefix_metadata _ _).2
  · rw [List.prefix_append_right_inj] at h
    exact absurd h (not_data_prefix_metadata _ _).1
  · have hsame : rootText config owner ++ [] = rootText config tenantId ++ t := by
      rw [List.append_nil]
      exact List.append_cancel_left (List.append_cancel_left h)
    exact component_eq_of_prefix (prefix_of_eq hsame)
  · rw [List.prefix_append_right_inj, List.prefix_append_right_inj] at h
    exact component_eq_of_prefix h

/-- A policy covers what lies in the root of its own tenant. -/
theorem grants_self (config : Config) (tenantId key : Text) :
    (∀ capability ∈ [Capability.create, .read, .update, .delete],
      Grants (policyFor config tenantId) capability
        (config.mountPoint.strip ++
          ("/data/".toList ++ (rootText config tenantId ++ '/' :: key)))) ∧
    Grants (policyFor config tenantId) .delete
      (config.mountPoint.strip ++
        ("/metadata/".toList ++ (rootText config tenantId ++ '/' :: key))) := by
  constructor
  · intro capability hcapability
    rw [grants_policyFor]
    refine .inl ⟨hcapability, ?_⟩
    rw [List.prefix_append_right_inj, List.prefix_append_right_inj, List.prefix_append_right_inj]
    exact ⟨key, rfl⟩
  · rw [grants_policyFor]
    refine .inr (.inr ⟨by decide, ?_⟩)
    rw [List.prefix_append_right_inj, List.prefix_append_right_inj, List.prefix_append_right_inj]
    exact ⟨key, rfl⟩

/-- A policy that covers the shortest path of its own tenant is of a tight configuration:
in another one the requested path is too short to extend what the policy says. -/
theorem tight_of_grants {config : Config} {tenantId : Text}
    (h : Grants (policyFor config tenantId) .read
      (dataPath config (cleanPart (rootText config tenantId) ++ ['/', 'k']))) : Tight config := by
  have hpath : Text.stripWhere (· == '/') (cleanPart (rootText config tenantId) ++ ['/', 'k']) =
      cleanPart (rootText config tenantId) ++ ['/', 'k'] :=
    stripSlashes_path config tenantId (by decide) (by decide)
  unfold dataPath requestMount at h
  rw [hpath, grants_policyFor] at h
  have hmount : cleanPart config.mountPoint <:+: config.mountPoint.strip :=
    Text.stripWhere_isInfix _
  have hmountLength := hmount.length_le
  have hrootLength := (cleanPart_isInfix (rootText config tenantId)).length_le
  have hdata : "/data/".toList.length = 6 := rfl
  have hmetadata : "/metadata/".toList.length = 10 := rfl
  rcases h with ⟨_, h⟩ | ⟨_, h⟩ | ⟨_, h⟩
  · have hlength := h.length_le
    simp only [List.length_append, List.length_cons, List.length_nil] at hlength
    by_cases hshort : config.mountPoint.strip.length + (rootText config tenantId).length ≤
        (cleanPart config.mountPoint).length + (cleanPart (rootText config tenantId)).length
    · have hmountSame : (cleanPart config.mountPoint).length = config.mountPoint.strip.length := by
        omega
      have hrootSame : (rootText config tenantId).length ≤
          (cleanPart (rootText config tenantId)).length := by
        omega
      exact ⟨hmount.eq_of_length hmountSame, prefixTight_of_length hrootSame⟩
    · have hsame := h.eq_of_length (by
        simp only [List.length_append, List.length_cons, List.length_nil]
        omega)
      have hends := congrArg List.getLast? hsame
      simp only [List.getLast?_append, List.getLast?_cons, List.getLast?_nil] at hends
      cases hends
  · have hends := congrArg List.getLast? h
    simp only [List.getLast?_append, getLast?_rootText] at hends
    cases hends
  · have hlength := h.length_le
    simp only [List.length_append, List.length_cons, List.length_nil] at hlength
    omega

/-! ## Sequences of calls -/

/-- What the only policy of a token grants. -/
theorem allows_singleton {vault : Vault} {policyName : Text} {policy : List Stanza}
    (h : vault.policies policyName = some policy) {capability : Capability} {path : Text} :
    vault.Allows [policyName] capability path ↔ Grants policy capability path := by
  constructor
  · rintro ⟨name, hname, found, hfound, hgrants⟩
    rw [List.mem_singleton.mp hname, h] at hfound
    cases hfound
    exact hgrants
  · intro hgrants
    exact ⟨policyName, List.mem_singleton_self _, policy, h, hgrants⟩

theorem policyFor_congr (config : Config) {tenantId other : Text}
    (h : tenantId.strip = other.strip) : policyFor config tenantId = policyFor config other := by
  unfold policyFor
  rw [← rootText_strip, h, rootText_strip]

section Requests

variable {config : Config} {unicode : Char → Bool} {tenantId : Text}

/-- The requests for a secret, where the configuration is tight. -/
theorem requests_secretPath (htight : Tight config) {key path : Text}
    (h : secretPath config unicode tenantId key = .ok path) :
    dataPath config path = config.mountPoint.strip ++
        ("/data/".toList ++ (rootText config tenantId ++ '/' :: key.strip)) ∧
      metadataPath config path = config.mountPoint.strip ++
        ("/metadata/".toList ++ (rootText config tenantId ++ '/' :: key.strip)) := by
  obtain ⟨hslash, hne, rfl⟩ := secretPath_eq h
  unfold dataPath metadataPath requestMount
  rw [stripSlashes_path config tenantId hne hslash, cleanPart_rootText htight.root,
    htight.mount]
  exact ⟨rfl, rfl⟩

/-- The requests for a root, where the configuration is tight. -/
theorem requests_secretRoot (htight : Tight config) {root : Text}
    (h : secretRoot config tenantId = .ok root) :
    dataPath config root = config.mountPoint.strip ++
        ("/data/".toList ++ (rootText config tenantId ++ [])) ∧
      metadataPath config root = config.mountPoint.strip ++
        ("/metadata/".toList ++ (rootText config tenantId ++ [])) := by
  rw [secretRoot_eq (strip_ne_nil_of_secretRoot h)] at h
  cases h
  unfold dataPath metadataPath requestMount
  rw [stripSlashes_rootText, htight.mount, List.append_nil]
  exact ⟨rfl, rfl⟩

end Requests

section Sequences

variable {config : Config} {unicode : Char → Bool} {ids : List Text} {vault after : Vault}

/-- In a tight configuration, tenants with components of their own are kept apart. -/
theorem isolated_of_distinct (h : provisionAll config ids vault = .ok after)
    (htight : Tight config) (hdistinct : Distinct ids) : Isolated config unicode after ids := by
  intro tenantId hmem
  obtain ⟨owner, howner, hprovisioned⟩ := provisionAll_spec h tenantId hmem
  obtain ⟨policyName, roleName, _, hroleName, hrole, hpolicy⟩ := hprovisioned.written
  have hsame := hdistinct owner howner tenantId hmem hprovisioned.component
  rw [policyFor_congr config hsame] at hpolicy
  have hallows : ∀ {capability : Capability} {path : Text},
      after.Allows [policyName] capability path ↔
        Grants (policyFor config tenantId) capability path := allows_singleton hpolicy
  have hother : ∀ {other : Text} {capability : Capability} {t : Text},
      other.strip ≠ tenantId.strip →
      ¬ Grants (policyFor config tenantId) capability
          (config.mountPoint.strip ++ ("/data/".toList ++ (rootText config other ++ t))) ∧
        ¬ Grants (policyFor config tenantId) capability
          (config.mountPoint.strip ++ ("/metadata/".toList ++ (rootText config other ++ t))) := by
    intro other capability t hne
    constructor
    · intro hgrants
      exact hne (encodedComponent_inj (component_eq_of_grants (.inl hgrants))).symm
    · intro hgrants
      exact hne (encodedComponent_inj (component_eq_of_grants (.inr hgrants))).symm
  refine ⟨roleName, [policyName], hroleName, hrole, ?_, ?_⟩
  · intro key path hpath
    obtain ⟨hdata, hmetadata⟩ := requests_secretPath htight hpath
    obtain ⟨hsecrets, hdelete⟩ := grants_self config tenantId key.strip
    constructor
    · intro capability hcapability
      rw [hallows, hdata]
      exact hsecrets capability hcapability
    · rw [hallows, hmetadata]
      exact hdelete
  · intro other _ hne
    constructor
    · intro key path capability hpath
      obtain ⟨hdata, hmetadata⟩ := requests_secretPath htight hpath
      rw [hallows, hallows, hdata, hmetadata]
      exact hother hne
    · intro root capability hroot
      obtain ⟨hdata, hmetadata⟩ := requests_secretRoot htight hroot
      rw [hallows, hallows, hdata, hmetadata]
      exact hother hne

/-- The policy under a tenant's name covers the tenant's shortest path, if the tenants are
kept apart. -/
theorem grants_of_isolated (hisolated : Isolated config unicode after ids) {tenantId owner : Text}
    (hmem : tenantId ∈ ids) (hprovisioned : Provisioned config after tenantId owner) :
    Grants (policyFor config owner) .read
      (dataPath config (cleanPart (rootText config tenantId) ++ ['/', 'k'])) := by
  obtain ⟨roleName, tokenPolicies, hroleName, hstore, hcovers, _⟩ := hisolated tenantId hmem
  obtain ⟨policyName, otherName, _, hotherName, hrole, hpolicy⟩ := hprovisioned.written
  rw [hroleName] at hotherName
  cases hotherName
  have htoken : after.roles roleName = some tokenPolicies := hstore
  rw [hrole] at htoken
  cases htoken
  have hpath := secretPath_letter config unicode hprovisioned.named
  exact (allows_singleton hpolicy).mp ((hcovers _ _ hpath).1 .read (by decide))

/-- Tenants that are kept apart have components of their own. -/
theorem distinct_of_isolated (h : provisionAll config ids vault = .ok after)
    (htight : Tight config) (hisolated : Isolated config unicode after ids) : Distinct ids := by
  intro tenantId hmem other hother hcomponent
  obtain ⟨owner, _, hprovisioned⟩ := provisionAll_spec h tenantId hmem
  obtain ⟨second, _, hsecond⟩ := provisionAll_spec h other hother
  have hpolicies : policyFor config second = policyFor config owner := by
    obtain ⟨policyName, _, hpolicyName, _, _, hpolicy⟩ := hprovisioned.written
    obtain ⟨otherName, _, hotherName, _, _, hotherPolicy⟩ := hsecond.written
    rw [(identityName_inj hpolicyName hotherName).mpr hcomponent, hotherPolicy] at hpolicy
    exact Option.some.inj hpolicy
  have hown := grants_of_isolated hisolated hmem hprovisioned
  have hothers := grants_of_isolated hisolated hother hsecond
  have hcovered : ∀ {tenantId : Text},
      Grants (policyFor config owner) .read
        (dataPath config (cleanPart (rootText config tenantId) ++ ['/', 'k'])) →
      encodedComponent owner = encodedComponent tenantId := by
    intro tenantId hgrants
    unfold dataPath requestMount at hgrants
    rw [stripSlashes_path config tenantId (by decide) (by decide),
      cleanPart_rootText htight.root, htight.mount] at hgrants
    exact component_eq_of_grants (.inl hgrants)
  rw [hpolicies] at hothers
  exact encodedComponent_inj ((hcovered hown).symm.trans (hcovered hothers))

/-- A sequence of calls keeps the tenants apart exactly if the configuration is tight and no
two of them have one component. -/
theorem isolated_iff (h : provisionAll config ids vault = .ok after) :
    Isolated config unicode after ids ↔ (ids ≠ [] → Tight config) ∧ Distinct ids := by
  constructor
  · intro hisolated
    have htight : ids ≠ [] → Tight config := by
      intro hne
      have hlast := List.getLast?_eq_some_getLast hne
      have hprovisioned := provisionAll_last h hlast
      exact tight_of_grants
        (grants_of_isolated hisolated (List.mem_of_getLast? hlast) hprovisioned)
    refine ⟨htight, ?_⟩
    intro tenantId hmem
    exact distinct_of_isolated h (htight (List.ne_nil_of_mem hmem)) hisolated tenantId hmem
  · rintro ⟨htight, hdistinct⟩ tenantId hmem
    exact isolated_of_distinct h (htight (List.ne_nil_of_mem hmem)) hdistinct tenantId hmem

end Sequences

/-! ## Two tenants -/

/-- The configuration where nothing is set. -/
def defaultConfig : Config where
  mountPoint := "kv".toList
  approleMountPoint := "approle".toList
  secretPathPrefix := "m8flow".toList
  tenantPolicyPrefix := "m8flow-tenant-policy".toList
  tenantRolePrefix := "m8flow-tenant-role".toList

theorem tight_defaultConfig : Tight defaultConfig :=
  ⟨by decide +kernel, by decide +kernel⟩

theorem exists_of_isOk {ε α : Type} {x : Except ε α} (h : x.isOk = true) : ∃ a, x = .ok a := by
  cases x with
  | error message => cases h
  | ok a => exact ⟨a, rfl⟩

/-- Two tenants with ordinary ids are kept apart. -/
theorem isolated_iff_ordinary :
    ∃ after, provisionAll defaultConfig ["acme".toList, "globex".toList] .empty = .ok after ∧
      Isolated defaultConfig (fun _ => false) after ["acme".toList, "globex".toList] := by
  obtain ⟨after, hafter⟩ := exists_of_isOk
    (x := provisionAll defaultConfig ["acme".toList, "globex".toList] .empty) (by decide +kernel)
  exact ⟨after, hafter, (isolated_iff hafter).mpr ⟨fun _ => tight_defaultConfig, by decide⟩⟩

/-- Two ids that differ in an unsafe character share their role and their policy. -/
theorem shared_component_leaks :
    ∃ after, provisionAll defaultConfig ["t/1".toList, "t-1".toList] .empty = .ok after ∧
      ¬ Isolated defaultConfig (fun _ => false) after ["t/1".toList, "t-1".toList] := by
  obtain ⟨after, hafter⟩ := exists_of_isOk
    (x := provisionAll defaultConfig ["t/1".toList, "t-1".toList] .empty) (by decide +kernel)
  refine ⟨after, hafter, ?_⟩
  intro hisolated
  have hdistinct := distinct_of_isolated hafter tight_defaultConfig hisolated
  revert hdistinct
  decide

end M8flow.Secrets
