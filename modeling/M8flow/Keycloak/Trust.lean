import M8flow.Auth.Selection
import M8flow.Identity.LocalGroups
import M8flow.Keycloak.Provider
import M8flow.Lib.Separator

/-!
# Who can be super-admin

Two functions read the realm from an issuer: `realm_from_issuer` chooses the keys that verify a
token, and `extract_realm_from_issuer` decides the trust domain, from the issuer without the
white space around it.  The platform's role is honoured in the platform's domain alone.

- `FromPlatform` is what a payload that was accepted should meet: both functions read one realm,
  and if it is not the master realm, `super-admin` reaches no role and no group.
- `ReadAlike` is the condition on the issuer and the configured bases.
- `extractRealmFromIssuer_eq` computes the second reading, `fromPlatform_iff` connects the two.
-/

namespace M8flow.Keycloak

open M8flow.Lib M8flow.Auth M8flow.Identity

/-! ## The second reading of an issuer -/

section Issuer

def realmsName : Text := "realms".toList

theorem realmsSegment_eq : realmsSegment = Text.separator '/' realmsName := rfl

theorem segment_last : realmsSegment = '/' :: realmsName ++ ['/'] := rfl

theorem slash_not_mem_realmsName : '/' ∉ realmsName := by decide

theorem realmsName_ne_nil : realmsName ≠ [] := by decide

/-- The realm that is read behind a base, where a word and some slashes follow. -/
def readRealm (base word : Text) (n : Nat) : Text :=
  if Text.Splits '/' realmsName base then word
  else if word = realmsName ∧ n ≠ 0 then [] else realmsName

theorem extractRealmFromIssuer_eq {word : Text} (hword : '/' ∉ word) (base : Text) (n : Nat) :
    extractRealmFromIssuer
        (some (base ++ (realmsSegment ++ (word ++ List.replicate n '/')))) =
      some (readRealm base word n) := by
  have hin : Text.hasInfix realmsSegment
      (base ++ (realmsSegment ++ (word ++ List.replicate n '/'))) = true := by
    rw [Text.hasInfix_iff]
    exact ⟨base, word ++ List.replicate n '/', by rw [List.append_assoc]⟩
  rw [extractRealmFromIssuer, if_pos hin, realmsSegment_eq, Text.splitOn,
    Text.firstPart_lastSplit realmsName_ne_nil slash_not_mem_realmsName hword]
  rfl

/-- `s.rstrip()`. -/
def rstrip (s : Text) : Text := s.rdropWhile Text.isSpace

/-- Stripping the end stops at a text whose last character stays. -/
theorem rstrip_around {mid before : Text} {d : Char} (hlast : mid = before ++ [d])
    (hd : Text.isSpace d = false) (base rest : Text) :
    rstrip (base ++ (mid ++ rest)) = base ++ (mid ++ rstrip rest) := by
  have hreverse : (base ++ (mid ++ rest)).reverse =
      rest.reverse ++ (d :: (before.reverse ++ base.reverse)) := by
    rw [hlast]
    simp
  have hstay : (d :: (before.reverse ++ base.reverse)).dropWhile Text.isSpace =
      d :: (before.reverse ++ base.reverse) :=
    List.dropWhile_cons_of_neg (by rw [hd]; exact Bool.false_ne_true)
  rw [rstrip, rstrip, List.rdropWhile, hreverse, List.dropWhile_append, hstay, List.rdropWhile]
  split
  · rename_i hempty
    rw [List.isEmpty_iff.mp hempty, hlast]
    simp
  · rw [hlast]
    simp

/-- Stripping the start stops at a text whose first character stays. -/
theorem dropSpaces_around {mid more : Text} {c : Char} (hhead : mid = c :: more)
    (hc : Text.isSpace c = false) (base rest : Text) :
    (base ++ (mid ++ rest)).dropWhile Text.isSpace =
      base.dropWhile Text.isSpace ++ (mid ++ rest) := by
  have hstay : (mid ++ rest).dropWhile Text.isSpace = mid ++ rest := by
    rw [hhead, List.cons_append, List.dropWhile_cons_of_neg (by rw [hc]; exact Bool.false_ne_true)]
  rw [List.dropWhile_append, hstay]
  split
  · rename_i hempty
    rw [List.isEmpty_iff.mp hempty, List.nil_append]
  · rfl

theorem rstrip_issuer (base rest : Text) :
    rstrip (base ++ (realmsSegment ++ rest)) = base ++ (realmsSegment ++ rstrip rest) :=
  rstrip_around segment_last (by decide) base rest

theorem strip_issuer (base rest : Text) :
    Text.strip (base ++ (realmsSegment ++ rest)) =
      base.dropWhile Text.isSpace ++ (realmsSegment ++ rstrip rest) := by
  have hdrop := dropSpaces_around realmsSegment_eq (by decide) base rest
  unfold Text.strip Text.stripWhere
  rw [hdrop]
  exact rstrip_issuer _ rest

theorem splits_dropSpaces (base : Text) :
    Text.Splits '/' realmsName (base.dropWhile Text.isSpace) ↔ Text.Splits '/' realmsName base := by
  have hspaces : '/' ∉ base.takeWhile Text.isSpace := by
    intro hmem
    exact absurd (List.mem_takeWhile_imp hmem) (by decide)
  have hsplit := Text.splits_append slash_not_mem_realmsName hspaces
    (base.dropWhile Text.isSpace)
  rw [List.takeWhile_append_dropWhile] at hsplit
  exact hsplit.symm

theorem readRealm_eq_iff {realm base : Text} {n : Nat} (hne : realm ≠ []) :
    readRealm base realm n = realm ↔
      Text.Splits '/' realmsName base ∨ (realm = realmsName ∧ n = 0) := by
  unfold readRealm
  by_cases hsplits : Text.Splits '/' realmsName base
  · simp [hsplits]
  · rw [if_neg hsplits]
    by_cases hname : realm = realmsName
    · by_cases hn : n = 0
      · simp [hname, hn]
      · rw [if_pos ⟨hname, hn⟩]
        simp [hsplits, hn, hne.symm]
    · rw [if_neg fun h => hname h.1]
      simp [hsplits, hname, Ne.symm hname]

/-- The second reading gives the realm that follows the base, if and only if the issuer does not
end in white space and the base does not take away the separator. -/
theorem extract_eq_iff {realm : Text} (hrealm : '/' ∉ realm) (hne : realm ≠ []) (base : Text)
    (n : Nat) {issuer : Text}
    (hissuer : issuer = base ++ (realmsSegment ++ (realm ++ List.replicate n '/'))) :
    extractRealmFromIssuer (nonblank (some issuer)) = some realm ↔
      rstrip issuer = issuer ∧
        (Text.Splits '/' realmsName base ∨ (realm = realmsName ∧ n = 0)) := by
  have hstrip := strip_issuer base (realm ++ List.replicate n '/')
  have hblank : nonblank (some issuer) = some issuer.strip := by
    apply nonblank_eq_some.mpr
    refine ⟨issuer, rfl, rfl, ?_⟩
    rw [hissuer, hstrip]
    exact List.append_ne_nil_of_right_ne_nil _ (List.cons_ne_nil _ _)
  rw [hblank, hissuer, hstrip, rstrip_issuer, List.append_cancel_left_eq,
    List.append_cancel_left_eq]
  by_cases hspace : rstrip (realm ++ List.replicate n '/') = realm ++ List.replicate n '/'
  · rw [hspace, extractRealmFromIssuer_eq hrealm, Option.some.injEq, readRealm_eq_iff hne,
      splits_dropSpaces]
    simp
  · -- white space at the end belongs to the realm, and the second reading takes it off
    have hn : n = 0 := by
      by_contra hpos
      obtain ⟨less, hless⟩ : ∃ less, n = less + 1 := ⟨n - 1, by omega⟩
      apply hspace
      rw [hless, List.replicate_succ', ← List.append_assoc, rstrip,
        List.rdropWhile_concat_neg _ _ _ (by decide)]
    rw [hn, List.replicate_zero, List.append_nil] at hspace ⊢
    have hshort : '/' ∉ rstrip realm :=
      fun hmem => hrealm ((List.rdropWhile_prefix Text.isSpace realm).subset hmem)
    have hread := extractRealmFromIssuer_eq hshort (base.dropWhile Text.isSpace) 0
    rw [List.replicate_zero, List.append_nil] at hread
    have hother : readRealm (base.dropWhile Text.isSpace) (rstrip realm) 0 ≠ realm := by
      unfold readRealm
      split
      · exact hspace
      · rw [if_neg fun h => h.2 rfl]
        intro hsame
        rw [← hsame] at hspace
        exact hspace (by decide)
    rw [hread, Option.some.injEq]
    simp [hspace, hother]

end Issuer

/-! ## The platform's role -/

section SuperAdmin

theorem not_mem_withoutSuperAdmin (values : List Text) :
    superAdminRole ∉ withoutSuperAdmin values := by
  intro hmem
  have hkept := (List.mem_filter.mp hmem).2
  exact absurd hkept (by decide)

/-- The role reaches neither the claims nor the groups that `select` computes from them and
`sync_groups` stores. -/
structure NoSuperAdmin (claims : VerifiedClaims) : Prop where
  roles : superAdminRole ∉ claims.roles
  memberships : ∀ m ∈ claims.memberships, superAdminRole ∉ m.roles ++ m.groups
  selected : ∀ selection : Selection, selection.roles = claims.roles →
    superAdminRole ∉ (select selection).groupIdentifiers
  stored : ∀ selection : Selection, selection.roles = claims.roles →
    superAdminRole ∉ desiredGroups (select selection).groupIdentifiers

theorem colon_mem_strip (s t : Text) : ':' ∈ Text.strip (s ++ ':' :: t) := by
  have hdrop := dropSpaces_around (rfl : [':'] = ':' :: []) (by decide) s t
  have hmid : [':'] = [] ++ [':'] := rfl
  have hrdrop := rstrip_around hmid (by decide)
    (s.dropWhile Text.isSpace) t
  have hwhole : Text.strip (s ++ ([':'] ++ t)) =
      s.dropWhile Text.isSpace ++ ([':'] ++ rstrip t) := by
    unfold Text.strip Text.stripWhere
    rw [hdrop]
    exact hrdrop
  rw [List.singleton_append] at hwhole
  rw [hwhole]
  exact List.mem_append_right _ List.mem_cons_self

/-- The identifier of a tenant role is not the platform's role. -/
theorem qualified_ne_superAdmin {name : Text} (h : name.strip ∈ validTenantRoleNames)
    (current tenantId : Option Text) :
    Text.strip (qualifyGroupIdentifier current name.strip tenantId) ≠ superAdminRole := by
  have hstrip : name.strip.strip = name.strip := Text.strip_strip name
  have hother : name.strip ≠ superAdminRole := by
    intro hsame
    rw [hsame] at h
    exact absurd h (by decide)
  have hcolon : ':' ∉ superAdminRole := by decide
  unfold qualifyGroupIdentifier
  dsimp only
  rw [hstrip, if_neg hother]
  split
  · rw [hstrip]
    exact hother
  · split
    · rw [hstrip]
      exact hother
    · split
      · rw [hstrip]
        exact hother
      · -- a tenant in front leaves a colon
        intro hsame
        apply hcolon
        rw [← hsame]
        exact colon_mem_strip _ _

/-- `select` has the platform's role only from the roles. -/
theorem superAdmin_of_select {selection : Selection}
    (h : superAdminRole ∈ (select selection).groupIdentifiers) :
    superAdminRole ∈ selection.roles := by
  rcases group_cases h with hglobal | ⟨m, _, name, _, hvalid, hsame⟩
  · exact hglobal.2
  · exact absurd hsame.symm (qualified_ne_superAdmin hvalid _ _)

theorem superAdmin_of_desired {selection : Selection}
    (h : superAdminRole ∈ desiredGroups (select selection).groupIdentifiers) :
    superAdminRole ∈ selection.roles := by
  obtain ⟨hmapped, _⟩ := List.mem_filter.mp (List.mem_dedup.mp h)
  obtain ⟨group, hgroup, hstrip⟩ := List.mem_map.mp hmapped
  obtain ⟨_, value, _, hvalue⟩ := mem_addAll.mp hgroup
  have hsame : group = superAdminRole := by
    rw [← hstrip, ← hvalue, Text.strip_strip]
  exact superAdmin_of_select (hsame ▸ hgroup)

/-- The policy takes the role away outside the platform's domain. -/
theorem noSuperAdmin_enforce (claims : VerifiedClaims) {domain : TrustDomain}
    (h : domain ≠ .platform) : NoSuperAdmin (enforceTrustPolicy claims domain) := by
  have hroles : superAdminRole ∉ (enforceTrustPolicy claims domain).roles := by
    rw [enforceTrustPolicy, if_neg h]
    exact not_mem_withoutSuperAdmin _
  refine ⟨hroles, ?_, ?_, ?_⟩
  · intro m hm
    rw [enforceTrustPolicy, if_neg h] at hm
    obtain ⟨given, _, hsame⟩ := List.mem_map.mp hm
    rw [← hsame, List.mem_append, not_or]
    exact ⟨not_mem_withoutSuperAdmin _, not_mem_withoutSuperAdmin _⟩
  · intro selection hsame hmem
    exact hroles (hsame ▸ superAdmin_of_select hmem)
  · intro selection hsame hmem
    exact hroles (hsame ▸ superAdmin_of_desired hmem)

end SuperAdmin

/-! ## Mapping keeps the issuer -/

section Mapping

variable {settings : KeycloakSettings} {messages : Messages}

theorem issuer_of_verifiedClaims {payload : Payload} {claims : VerifiedClaims}
    (h : verifiedClaimsFromPayload payload = some claims) :
    stringClaim payload "iss" = some claims.issuer := by
  unfold verifiedClaimsFromPayload at h
  split at h
  · rename_i hissuer
    cases h
    exact hissuer
  · cases h

theorem applyContractClaim_keeps {claims mapped : VerifiedClaims} {payload : Payload}
    {domain : TrustDomain}
    (h : applyContractClaim settings messages claims payload domain = .ok mapped) :
    mapped.issuer = claims.issuer ∧ mapped.trustDomain = claims.trustDomain := by
  unfold applyContractClaim at h
  cases hparsed : parseContractClaim messages payload settings.contractClaimKey domain
      claims.issuerKey with
  | error e =>
      rw [hparsed] at h
      cases h
  | ok contract =>
      rw [hparsed] at h
      cases contract with
      | none =>
          cases h
          exact ⟨rfl, rfl⟩
      | some contract =>
          cases h
          exact ⟨rfl, rfl⟩

/-- The trust domain of the mapped claims is that of their issuer. -/
theorem mapClaims_domain {payload : Payload} {claims : VerifiedClaims}
    (h : mapClaims settings messages payload = .ok claims) :
    stringClaim payload "iss" = some claims.issuer ∧
      claims.trustDomain = some (trustDomain settings claims) := by
  unfold mapClaims at h
  split at h
  · cases h
  · rename_i read hread
    have hissuer := issuer_of_verifiedClaims hread
    dsimp only at h
    split at h
    · obtain ⟨hsame, hdomain⟩ := applyContractClaim_keeps h
      dsimp only at hsame hdomain
      refine ⟨by rw [hsame, hissuer], ?_⟩
      rw [hdomain, trustDomain, trustDomain, isMasterIssuer, isMasterIssuer, hsame]
    · cases h
      exact ⟨hissuer, rfl⟩

/-- Claims of an issuer that is not the master realm's are without the role. -/
theorem noSuperAdmin_of_verified {κ : Type} {backend : Backend κ} {token : Text}
    {payload : Payload} (haccepted : verifyAccessToken settings backend token = .ok payload)
    (hother : extractRealmFromIssuer (stringClaim payload "iss") ≠ some settings.masterRealmName)
    {claims : VerifiedClaims} (h : verifyToken settings messages backend token = .ok claims) :
    NoSuperAdmin claims := by
  unfold verifyToken at h
  rw [haccepted] at h
  dsimp only at h
  split at h
  · cases h
  · rename_i mapped hmapped
    obtain ⟨hissuer, hdomain⟩ := mapClaims_domain hmapped
    cases h
    rw [hdomain, Option.getD_some]
    apply noSuperAdmin_enforce
    rw [hissuer] at hother
    have hnot : isMasterIssuer settings mapped = false := decide_eq_false hother
    unfold trustDomain
    rw [hnot, if_neg Bool.false_ne_true]
    dsimp only
    split
    · exact fun hsame => by cases hsame
    · exact fun hsame => by cases hsame

end Mapping

/-! ## One realm -/

/-- What an accepted payload should meet: the realm whose keys verified it is the realm that
decides the trust domain, and unless that is the master realm, nothing has the platform's
role. -/
def FromPlatform {κ : Type} (settings : KeycloakSettings) (messages : Messages)
    (backend : Backend κ) (token : Text) (payload : Payload) : Prop :=
  ∃ issuer realm, (Json.field payload "iss".toList).bind Json.asText = some issuer ∧
    realmFromIssuer backend issuer = .ok (some realm) ∧
    VerifiedBy backend token payload realm ∧
    extractRealmFromIssuer (stringClaim payload "iss") = some realm ∧
    (realm ≠ settings.masterRealmName →
      ∀ claims, verifyToken settings messages backend token = .ok claims → NoSuperAdmin claims)

/-- The issuer does not end in white space, and the base in front of its realm does not end in a
`/realms` that takes the separator's first slash; or the realm is called `realms`, and is the
end. -/
def ReadAlike (bases : List Text) (issuer : Text) : Prop :=
  rstrip issuer = issuer ∧ ∃ base ∈ bases, ∃ realm, '/' ∉ realm ∧
    Text.rstripChar '/' issuer = base ++ realmsSegment ++ realm ∧
    (Text.Splits '/' realmsName base ∨
      (realm = realmsName ∧ Text.rstripChar '/' issuer = issuer))

theorem exists_slashes (s : Text) : ∃ n, s = Text.rstripChar '/' s ++ List.replicate n '/' := by
  refine ⟨(s.rtakeWhile (· == '/')).length, ?_⟩
  have hall : s.rtakeWhile (· == '/') =
      List.replicate (s.rtakeWhile (· == '/')).length '/' := by
    apply List.eq_replicate_of_mem
    intro c hc
    exact beq_iff_eq.mp (List.mem_rtakeWhile_imp (p := fun d => d == '/') hc)
  rw [← hall]
  exact List.rdropWhile_append_rtakeWhile.symm

/-- The realm behind the last separator of an issuer is one. -/
theorem base_unique {base base' realm realm' : Text} (hrealm : '/' ∉ realm) (hrealm' : '/' ∉ realm')
    (h : base ++ realmsSegment ++ realm = base' ++ realmsSegment ++ realm') :
    base = base' ∧ realm = realm' := by
  have hlast : ∀ b r : Text, b ++ realmsSegment ++ r = (b ++ '/' :: realmsName) ++ '/' :: r := by
    intro b r
    rw [segment_last]
    simp
  rw [hlast, hlast] at h
  have hparts := congrArg (Text.rpartition '/') h
  rw [Text.rpartition_append hrealm, Text.rpartition_append hrealm', Prod.mk.injEq,
    Prod.mk.injEq] at hparts
  exact ⟨List.append_cancel_right hparts.1, hparts.2.2⟩

/-- A payload that `verify_access_token` accepts meets the property if and only if its issuer is
read alike by the two functions. -/
theorem fromPlatform_iff {κ : Type} (settings : KeycloakSettings) (messages : Messages)
    (backend : Backend κ) {token issuer : Text} {payload : Payload}
    (haccepted : verifyAccessToken settings backend token = .ok payload)
    (hissuer : (Json.field payload "iss".toList).bind Json.asText = some issuer) :
    FromPlatform settings messages backend token payload ↔ ReadAlike settings.bases issuer := by
  obtain ⟨issuer', realm, hissuer', hrealm, hverified, base, hbase, hsame⟩ :=
    verified_of_ok haccepted
  rw [hissuer, Option.some.injEq] at hissuer'
  subst hissuer'
  obtain ⟨hne, hslash⟩ := realm_of_realmFromIssuer hrealm
  obtain ⟨n, hn⟩ := exists_slashes issuer
  have hparts : issuer = base ++ (realmsSegment ++ (realm ++ List.replicate n '/')) := by
    rw [hsame, List.append_assoc, List.append_assoc] at hn
    exact hn
  have hzero : n = 0 ↔ Text.rstripChar '/' issuer = issuer := by
    constructor
    · intro hnil
      rw [hnil, List.replicate_zero, List.append_nil] at hn
      exact hn.symm
    · intro hself
      rw [hself] at hn
      have hlength := congrArg List.length hn
      rw [List.length_append, List.length_replicate] at hlength
      omega
  have hreads := extract_eq_iff hslash hne base n hparts
  have hclaim : stringClaim payload "iss" = nonblank (some issuer) := by
    rw [stringClaim, hissuer]
  constructor
  · rintro ⟨issuer', realm', hissuer', hrealm', _, hextract, _⟩
    rw [hissuer, Option.some.injEq] at hissuer'
    subst hissuer'
    rw [hrealm, Except.ok.injEq, Option.some.injEq] at hrealm'
    subst hrealm'
    rw [hclaim] at hextract
    obtain ⟨hspace, hends⟩ := hreads.mp hextract
    rw [hzero] at hends
    exact ⟨hspace, base, hbase, realm, hslash, hsame, hends⟩
  · rintro ⟨hspace, base', hbase', realm', hslash', hsame', hends⟩
    obtain ⟨hbases, hrealms⟩ := base_unique hslash hslash' (hsame.symm.trans hsame')
    rw [← hbases, ← hrealms, ← hzero] at hends
    have hextract := hreads.mpr ⟨hspace, hends⟩
    rw [← hclaim] at hextract
    refine ⟨issuer, realm, hissuer, hrealm, hverified, hextract, ?_⟩
    intro hother claims hclaims
    refine noSuperAdmin_of_verified haccepted ?_ hclaims
    rw [hextract]
    exact fun hmaster => hother (Option.some.inj hmaster)

section Example

/-- A host that trusts every realm of its Keycloak, which is the default. -/
def defaultSettings : KeycloakSettings where
  keycloakUrl := "http://kc:8080".toList
  keycloakPublicIssuerBase := "https://kc.example".toList
  sharedRealmName := "m8flow".toList
  masterRealmName := "master".toList
  spokeClientId := "m8flow-backend".toList
  strictIssuers := false
  trustedRealmNames := []
  contractClaimsEnabled := false
  contractClaimKey := "https://m8flow.io/claims".toList

/-- A token of an issuer with the platform's role. -/
def payloadOf (issuer : String) : Payload :=
  [("sub".toList, .str "u1".toList), ("iss".toList, .str issuer.toList),
    ("azp".toList, .str "m8flow-backend".toList),
    ("roles".toList, .arr [.str "super-admin".toList])]

/-- One token, signed with the one key of its realm. -/
def backendOf (payload : Payload) : Backend Unit where
  netlocIsValid _ := true
  unverified token :=
    if token = "t1".toList then some (⟨some "RS256".toList, none⟩, payload) else none
  loadJwks _ _ := .ok [⟨none, some "RSA".toList, ()⟩]
  decode _ token := if token = "t1".toList then .ok payload else .error .other
  reprAlg _ := ""
  decode_payload := by
    intro key token found h
    by_cases htoken : token = "t1".toList
    · rw [if_pos htoken, Except.ok.injEq] at h
      rw [if_pos htoken, h]
      exact ⟨_, rfl⟩
    · rw [if_neg htoken] at h
      cases h

def noMessages : Messages := ⟨fun _ => "", fun _ => ""⟩

theorem shared_realm_fromPlatform :
    FromPlatform defaultSettings noMessages
        (backendOf (payloadOf "https://kc.example/realms/m8flow")) "t1".toList
        (payloadOf "https://kc.example/realms/m8flow") ↔
      ReadAlike defaultSettings.bases "https://kc.example/realms/m8flow".toList :=
  fromPlatform_iff defaultSettings noMessages _ rfl rfl

/-- The realm `master` with a space behind it: its own keys verify the token, and its issuer is
taken for the master realm's. -/
theorem master_with_space :
    let backend := backendOf (payloadOf "https://kc.example/realms/master ")
    verifyAccessToken defaultSettings backend "t1".toList =
        .ok (payloadOf "https://kc.example/realms/master ") ∧
      (∃ claims, verifyToken defaultSettings noMessages backend "t1".toList = .ok claims ∧
        superAdminRole ∈ claims.roles) ∧
      ¬ FromPlatform defaultSettings noMessages backend "t1".toList
        (payloadOf "https://kc.example/realms/master ") := by
  refine ⟨rfl, ⟨_, rfl, by decide +kernel⟩, ?_⟩
  rintro ⟨issuer, realm, hissuer, hrealm, _, hextract, _⟩
  have hread : (Json.field (payloadOf "https://kc.example/realms/master ") "iss".toList).bind
      Json.asText = some "https://kc.example/realms/master ".toList := rfl
  rw [hread, Option.some.injEq] at hissuer
  subst hissuer
  have hkeys : realmFromIssuer (backendOf (payloadOf "https://kc.example/realms/master "))
      "https://kc.example/realms/master ".toList = .ok (some "master ".toList) := rfl
  rw [hkeys, Except.ok.injEq, Option.some.injEq] at hrealm
  subst hrealm
  have hdomain : extractRealmFromIssuer
      (stringClaim (payloadOf "https://kc.example/realms/master ") "iss") =
        some "master".toList := by
    decide +kernel
  rw [hdomain, Option.some.injEq] at hextract
  exact absurd hextract (by decide)

end Example

end M8flow.Keycloak
