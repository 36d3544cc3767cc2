import M8flow.Lib.Text

/-!
# The realm of an issuer

`auth/claims.py`: the realm that an issuer URL names, and the key by which the
issuers stored with local users are compared.
-/

namespace M8flow.Auth

open M8flow.Lib

/-- The separator before the realm in an issuer URL. -/
def realmsSegment : Text := "/realms/".toList

/-- `extract_realm_from_issuer`. -/
def extractRealmFromIssuer (iss : Option Text) : Option Text :=
  match iss with
  | none => none
  | some iss =>
      if Text.hasInfix realmsSegment iss then
        some (Text.firstPart '/' ((Text.splitOn realmsSegment iss).getLast?.getD []))
      else none

/-- `realm_from_service`. -/
def realmFromService (service : Option Text) : Text :=
  match truthy (extractRealmFromIssuer service) with
  | some realm => realm
  | none =>
      match truthy service with
      | none => "unknown".toList
      | some service =>
          let normalized := Text.rstripChar '/' service
          let key := Text.replace ['/'] ['_'] (Text.replace "://".toList ['_'] normalized)
          (truthy (some (key.drop (key.length - 32)))).getD "unknown".toList

/-- The realm path of an issuer, for issuers that have one. -/
def realmPath (service : Text) : Option Text := truthy (extractRealmFromIssuer (some service))

/-- The key of an issuer with a realm path is the realm. -/
theorem realmFromService_of_realmPath {service realm : Text} (h : realmPath service = some realm) :
    realmFromService (some service) = realm := by
  unfold realmFromService
  unfold realmPath at h
  rw [h]

example : realmFromService (some "http://localhost:6842/realms/m8flow".toList) =
    "m8flow".toList := by decide

example : realmFromService (some "https://idp.example/a/".toList) =
    "https_idp.example_a".toList := by decide

end M8flow.Auth
