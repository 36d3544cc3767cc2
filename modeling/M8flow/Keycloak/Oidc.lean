import M8flow.Auth.Realm
import M8flow.Keycloak.Claims
import M8flow.Lib.FileTree
import M8flow.Lib.Url

/-!
# Verifying an access token

`integrations/auth/base/oidc.py` with the hooks of `integrations/auth/keycloak/oidc.py`: from a
token to its verified payload.

- `Backend` is what the libraries make of tokens, keys and requests.
- `realmFromIssuer` chooses the realm whose keys are tried, `issuerIsAllowed` compares the
  issuer with the configured bases.
- `verified_of_ok` says what is known of a payload that was accepted.
-/

namespace M8flow.Keycloak

open M8flow.Lib M8flow.Auth

/-- `KeycloakSettings`, as far as tokens need them, and the settings of the contract claim. -/
structure KeycloakSettings where
  keycloakUrl : Text
  keycloakPublicIssuerBase : Text
  sharedRealmName : Text
  masterRealmName : Text
  spokeClientId : Text
  strictIssuers : Bool
  trustedRealmNames : List Text
  contractClaimsEnabled : Bool
  contractClaimKey : Text

/-- `trusted_realm_names()`. -/
def KeycloakSettings.trusted (settings : KeycloakSettings) : List Text :=
  settings.sharedRealmName :: settings.masterRealmName :: settings.trustedRealmNames

/-- The two bases of `issuer_is_allowed`. -/
def KeycloakSettings.bases (settings : KeycloakSettings) : List Text :=
  [Text.rstripChar '/' settings.keycloakPublicIssuerBase,
    Text.rstripChar '/' settings.keycloakUrl]

/-- What verifying a token raises. -/
inductive AuthError where
  | tokenInvalid (message : String)
  | providerUnavailable (message : String)
  | valueError
  deriving Repr, DecidableEq

structure TokenHeader where
  alg : Option Text
  kid : Option Text
  deriving Repr, DecidableEq

/-- A key of a realm. -/
structure Jwk (κ : Type) where
  kid : Option Text
  kty : Option Text
  key : κ

/-- What `jwt.decode` raises. -/
inductive DecodeError where
  | expired
  | invalidIssuer
  | other
  deriving Repr, DecidableEq

/-- PyJWT, the requests for the keys of a realm, and the checks of `urlsplit`. -/
structure Backend (κ : Type) where
  netlocIsValid : Text → Bool
  /-- The header and the payload of a token, read without verification. -/
  unverified : Text → Option (TokenHeader × Payload)
  loadJwks : (realm : Text) → (force : Bool) → Except AuthError (List (Jwk κ))
  decode : κ → Text → Except DecodeError Payload
  /-- `f"{alg!r}"`. -/
  reprAlg : Option Text → String
  /-- Verification does not change what is read. -/
  decode_payload : ∀ key token payload, decode key token = .ok payload →
    ∃ header, unverified token = some (header, payload)

/-! ## The hooks -/

section Hooks

variable {κ : Type} (settings : KeycloakSettings) (backend : Backend κ)

/-- `realm_from_issuer`. -/
def realmFromIssuer (issuer : Text) : Except AuthError (Option Text) :=
  match Url.path backend.netlocIsValid issuer with
  | none => .error .valueError
  | some path =>
      match (Text.splitOn ['/'] path).filter (· ≠ []) with
      | first :: second :: _ => .ok (if first = "realms".toList then some second else none)
      | _ => .ok none

/-- `issuer_is_allowed`. -/
def issuerIsAllowed (issuer realm : Text) : Bool :=
  if settings.strictIssuers ∧ realm ∉ settings.trusted then false
  else (settings.bases.map fun base => base ++ realmsSegment ++ realm).contains
    (Text.rstripChar '/' issuer)

/-- `_issuer_and_realm_allowed`. -/
def issuerAndRealmAllowed (issuer : Text) : Except AuthError Bool :=
  (realmFromIssuer backend issuer).map fun realm =>
    (truthy realm).any fun realm => issuerIsAllowed settings issuer realm

/-- `payload.get(name)` is `None`. -/
def isMissing (payload : Payload) (name : String) : Bool :=
  match Json.field payload name.toList with
  | none | some .null => true
  | some _ => false

/-- `audience_is_allowed`. -/
def audienceIsAllowed (payload : Payload) : Bool :=
  let clientId := settings.spokeClientId
  let accepted := fun audience => audience = clientId ∨ audience = "account".toList
  if (Json.field payload "azp".toList).bind Json.asText = some clientId then true
  else
    match Json.field payload "aud".toList with
    | some (.str audience) => accepted audience
    | some (.arr items) => (items.filterMap Json.asText).any fun audience => accepted audience
    | _ => isMissing payload "aud" && isMissing payload "azp" && !settings.strictIssuers

end Hooks

/-! ## The pipeline -/

section Verify

variable {κ : Type} (settings : KeycloakSettings) (backend : Backend κ)

/-- `_signing_key`. -/
def signingKey (jwks : List (Jwk κ)) (kid : Option Text) : Option κ :=
  (jwks.find? fun jwk =>
    (kid.all fun kid => jwk.kid = some kid) && decide (jwk.kty = some "RSA".toList)).map Jwk.key

/-- The key, from the cache or else fetched anew. -/
def findKey (realm : Text) (kid : Option Text) : Except AuthError (Option κ) :=
  match backend.loadJwks realm false with
  | .error e => .error e
  | .ok jwks =>
      match signingKey jwks kid with
      | some key => .ok (some key)
      | none => (backend.loadJwks realm true).map fun jwks => signingKey jwks kid

def DecodeError.message : DecodeError → String
  | .expired => "Token has expired"
  | .invalidIssuer => "Token issuer is invalid"
  | .other => "Token signature verification failed"

def issuerNotConfigured : AuthError := .tokenInvalid "Token issuer is not a configured Keycloak realm"

/-- `payload["iss"]`, if it is a string that is allowed. -/
def allowedIssuer (payload : Payload) : Except AuthError Text :=
  match (Json.field payload "iss".toList).bind Json.asText with
  | none => .error issuerNotConfigured
  | some issuer =>
      match issuerAndRealmAllowed settings backend issuer with
      | .error e => .error e
      | .ok true => .ok issuer
      | .ok false => .error issuerNotConfigured

/-- The part that chooses the key: the realm of the issuer, and a key of that realm. -/
def chooseKey (header : TokenHeader) (issuer : Text) : Except AuthError (Text × κ) :=
  match realmFromIssuer backend issuer with
  | .error e => .error e
  | .ok none => .error (.tokenInvalid "Token issuer is missing a realm")
  | .ok (some realm) =>
      if header.alg ≠ some "RS256".toList then
        .error (.tokenInvalid ("Unsupported token algorithm " ++ backend.reprAlg header.alg))
      else
        match findKey backend realm header.kid with
        | .error e => .error e
        | .ok none => .error (.tokenInvalid "Token signing key was not found in JWKS")
        | .ok (some key) => .ok (realm, key)

/-- The part that verifies with the key, and checks the payload. -/
def checkPayload (key : κ) (token : Text) : Except AuthError Payload :=
  match backend.decode key token with
  | .error e => .error (.tokenInvalid e.message)
  | .ok payload =>
      if ¬ audienceIsAllowed settings payload then
        .error (.tokenInvalid "Token audience does not match the configured client")
      else (allowedIssuer settings backend payload).map fun _ => payload

/-- `verify_access_token`. -/
def verifyAccessToken (token : Text) : Except AuthError Payload :=
  match backend.unverified token with
  | none => .error (.tokenInvalid "Token is malformed")
  | some (header, unverified) =>
      match allowedIssuer settings backend unverified with
      | .error e => .error e
      | .ok issuer =>
          match chooseKey backend header issuer with
          | .error e => .error e
          | .ok (_, key) => checkPayload settings backend key token

end Verify

/-! ## An accepted payload -/

section Accepted

variable {κ : Type} {settings : KeycloakSettings} {backend : Backend κ}

/-- A key of the realm verified the token. -/
def VerifiedBy (backend : Backend κ) (token : Text) (payload : Payload) (realm : Text) : Prop :=
  ∃ force jwks, backend.loadJwks realm force = .ok jwks ∧
    ∃ jwk ∈ jwks, backend.decode jwk.key token = .ok payload

theorem realm_of_realmFromIssuer {issuer realm : Text}
    (h : realmFromIssuer backend issuer = .ok (some realm)) : realm ≠ [] ∧ '/' ∉ realm := by
  unfold realmFromIssuer at h
  split at h
  · cases h
  · rename_i path _
    split at h
    · rename_i first second rest hparts
      split at h
      · cases h
        have hmem : realm ∈ (Text.splitOn ['/'] path).filter (· ≠ []) := by
          rw [hparts]
          exact List.mem_cons_of_mem _ List.mem_cons_self
        obtain ⟨hsegment, hne⟩ := List.mem_filter.mp hmem
        exact ⟨of_decide_eq_true hne, Text.not_mem_of_mem_splitOn hsegment⟩
      · cases h
    · cases h

theorem mem_of_signingKey {jwks : List (Jwk κ)} {kid : Option Text} {key : κ}
    (h : signingKey jwks kid = some key) : ∃ jwk ∈ jwks, jwk.key = key := by
  obtain ⟨jwk, hjwk, hkey⟩ := Option.map_eq_some_iff.mp h
  exact ⟨jwk, List.mem_of_find?_eq_some hjwk, hkey⟩

theorem mem_of_findKey {realm : Text} {kid : Option Text} {key : κ}
    (h : findKey backend realm kid = .ok (some key)) :
    ∃ force jwks, backend.loadJwks realm force = .ok jwks ∧ ∃ jwk ∈ jwks, jwk.key = key := by
  unfold findKey at h
  split at h
  · cases h
  · rename_i jwks hload
    split at h
    · rename_i found hfound
      cases h
      exact ⟨false, jwks, hload, mem_of_signingKey hfound⟩
    · cases hagain : backend.loadJwks realm true with
      | error e =>
          rw [hagain] at h
          cases h
      | ok fresh =>
          rw [hagain] at h
          exact ⟨true, fresh, hagain, mem_of_signingKey (Except.ok.inj h)⟩

/-- An issuer that is allowed names a realm, behind one of the bases. -/
theorem allowedIssuer_ok {payload : Payload} {issuer : Text}
    (h : allowedIssuer settings backend payload = .ok issuer) :
    (Json.field payload "iss".toList).bind Json.asText = some issuer ∧
      ∃ realm, realmFromIssuer backend issuer = .ok (some realm) ∧
        ∃ base ∈ settings.bases,
          Text.rstripChar '/' issuer = base ++ realmsSegment ++ realm := by
  unfold allowedIssuer at h
  split at h
  · cases h
  · rename_i found hfound
    split at h
    · cases h
    · rename_i hallowed
      cases h
      refine ⟨hfound, ?_⟩
      unfold issuerAndRealmAllowed at hallowed
      cases hrealm : realmFromIssuer backend issuer with
      | error e =>
          rw [hrealm] at hallowed
          cases hallowed
      | ok realm =>
          rw [hrealm] at hallowed
          obtain ⟨name, hname, hbase⟩ := (Option.any_eq_true _ _).mp (Except.ok.inj hallowed)
          rw [(truthy_eq_some.mp hname).1]
          refine ⟨name, rfl, ?_⟩
          unfold issuerIsAllowed at hbase
          split at hbase
          · cases hbase
          · obtain ⟨base, hmem, hsame⟩ := List.mem_map.mp (List.contains_iff_mem.mp hbase)
            exact ⟨base, hmem, hsame.symm⟩
    · cases h

/-- The keys that verified an accepted payload are those of the realm of its issuer. -/
theorem verified_of_ok {token : Text} {payload : Payload}
    (h : verifyAccessToken settings backend token = .ok payload) :
    ∃ issuer realm, (Json.field payload "iss".toList).bind Json.asText = some issuer ∧
      realmFromIssuer backend issuer = .ok (some realm) ∧
      VerifiedBy backend token payload realm ∧
      ∃ base ∈ settings.bases, Text.rstripChar '/' issuer = base ++ realmsSegment ++ realm := by
  unfold verifyAccessToken at h
  split at h
  · cases h
  · rename_i header unverified hunverified
    split at h
    · cases h
    · rename_i issuer hissuer
      split at h
      · cases h
      · rename_i realm key hkey
        -- what the key verified is what was read before
        have hpayload : backend.decode key token = .ok payload := by
          unfold checkPayload at h
          split at h
          · cases h
          · rename_i decoded hdecoded
            split at h
            · cases h
            · cases hallowed : allowedIssuer settings backend decoded with
              | error e =>
                  rw [hallowed] at h
                  cases h
              | ok again =>
                  rw [hallowed] at h
                  rw [← Except.ok.inj h]
                  exact hdecoded
        obtain ⟨header', hsame⟩ := backend.decode_payload key token payload hpayload
        rw [hunverified] at hsame
        cases hsame
        obtain ⟨hiss, named, hnamed, hbase⟩ := allowedIssuer_ok hissuer
        unfold chooseKey at hkey
        rw [hnamed] at hkey
        dsimp only at hkey
        split at hkey
        · cases hkey
        · split at hkey
          · cases hkey
          · cases hkey
          · rename_i found hfound
            cases hkey
            obtain ⟨force, jwks, hload, jwk, hjwk, hjwkKey⟩ := mem_of_findKey hfound
            exact ⟨issuer, _, hiss, hnamed, ⟨force, jwks, hload, jwk, hjwk, hjwkKey ▸ hpayload⟩,
              hbase⟩

end Accepted

end M8flow.Keycloak
