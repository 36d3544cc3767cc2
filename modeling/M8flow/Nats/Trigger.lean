import M8flow.Catalog.Identifiers
import M8flow.Errors
import M8flow.Lib.Digits
import M8flow.Lib.JsonCanonical
import Mathlib

/-!
# Signed trigger events

`sign_trigger` and `verify_trigger` of `nats_token_service.py`.  The backend signs some fields
of an event, publishes the event as a JSON text, and the consumer signs the fields of what it
reads to compare.

- `verify_received`: the event is accepted as it was sent.
- `signed_of_signature`: accepted events with one signature agree on what is signed.
- `verifies_iff`: a signature that no UTF-8 text can have raises where it should be refused.
-/

namespace M8flow.Nats

open Lib Lib.JsonText Lib.JsonWire
open Catalog (encodeUtf8 decodeUtf8)

/-! ## The signing key -/

/-- `_PUBLIC_NATS_SALTS`. -/
def publicNatsSalts : List Text :=
  ["m8flow_default_salt".toList, "changeme_nats_salt".toList, "my-random-salt-string".toList]

/-- `_MIN_NATS_SIGNING_SALT_LENGTH`. -/
def minNatsSigningSaltLength : Nat := 32

/-- `config._get` for a variable of the environment without a default. -/
def readVariable (value : Option Text) : Option Text :=
  value.bind fun value => if value = [] then none else some (Text.strip value)

/-- `nats_trigger_signing_salt`, from the value of `M8FLOW_NATS_TOKEN_SALT`. -/
def natsTriggerSigningSalt (value : Option Text) : Option Text :=
  (readVariable value).bind fun salt =>
    if salt ∈ publicNatsSalts ∨ salt.length < minNatsSigningSaltLength then none else some salt

/-- What an event is signed with: the environment, HMAC-SHA256 and the interpreter's floats. -/
structure Signing (φ : Type) where
  tokenSalt : Option Text
  hmac : (key message : Bytes) → Bytes
  format : FloatFormat φ

variable {φ : Type}

/-! ## Signing -/

/-- `SIGNED_TRIGGER_FIELDS`. -/
def signedTriggerFields : List Text :=
  ["id".toList, "tenant_id".toList, "tenant_slug".toList, "process_identifier".toList,
    "api_key_id".toList, "payload".toList, "reply_to".toList, "issued_at".toList]

/-- The two hexadecimal digits of a byte. -/
def hexByte (b : UInt8) : Text := [hexDigit (b.toNat / 16), hexDigit (b.toNat % 16)]

/-- `digest.hexdigest()`. -/
def hexdigest (digest : Bytes) : Text := digest.data.toList.flatMap hexByte

/-- `{field: event.get(field) for field in SIGNED_TRIGGER_FIELDS}`. -/
def signedFields (event : JsonObject φ) : List (Str × Value φ) :=
  signedTriggerFields.map fun field => (codes field, event.get field)

/-- `_trigger_signature`. -/
def triggerSignature (signing : Signing φ) (event : JsonObject φ) (salt : Text) : Text :=
  let signingKey := signing.hmac (encodeUtf8 salt) (encodeUtf8 "m8flow-nats-trigger-v1".toList)
  let body := canonical signing.format (.obj (signedFields event))
  hexdigest (signing.hmac signingKey (encodeUtf8 body))

/-- The refusal of a salt that is unset, published or short. -/
def signingNotConfigured : ApiError :=
  .of "nats_signing_not_configured"
    ("NATS triggers are disabled until M8FLOW_NATS_TOKEN_SALT is set to a private value of " ++
      "at least 32 characters.") 503

/-- `sign_trigger`. -/
def signTrigger (signing : Signing φ) (event : JsonObject φ) : Except ApiError Text :=
  match natsTriggerSigningSalt signing.tokenSalt with
  | none => .error signingNotConfigured
  | some salt => .ok (triggerSignature signing event salt)

/-! ## Verifying -/

/-- What `str.encode("utf-8")` raises on a surrogate. -/
inductive UnicodeEncodeError where
  | surrogatesNotAllowed
  deriving Repr, DecidableEq

/-- A text that has bytes. -/
def encodable (s : Str) : Bool := s.all fun n => n.isValidChar

/-- `s.encode("utf-8")`. -/
def encodeStr (s : Str) : Except UnicodeEncodeError Bytes :=
  if encodable s then .ok (encodeUtf8 (s.map Char.ofNat)) else .error .surrogatesNotAllowed

/-- `verify_trigger`. -/
def verifyTrigger (signing : Signing φ) (event : JsonObject φ) : Except UnicodeEncodeError Bool :=
  match natsTriggerSigningSalt signing.tokenSalt with
  | none => .ok false
  | some salt =>
      match event.get "signature".toList with
      | .str signature =>
          (encodeStr signature).map fun given =>
            encodeUtf8 (triggerSignature signing event salt) = given
      | _ => .ok false

/-! ## Transport -/

/-- `json.dumps(event_data).encode("utf-8")`. -/
def messageOf (signing : Signing φ) (event : JsonObject φ) : Bytes :=
  encodeUtf8 (render signing.format [' '] (.obj event.fields))

/-- `json.loads(msg.data.decode("utf-8"))`: nothing stands for the refusal of both. -/
def receive (signing : Signing φ) (message : Bytes) : Option (Value φ) :=
  (decodeUtf8 message).bind (loads signing.format)

/-! ## Texts and bytes -/

theorem encodeUtf8_injective {s t : Text} (h : encodeUtf8 s = encodeUtf8 t) : s = t := by
  have hdecode := Catalog.decodeUtf8_encodeUtf8 s
  rw [h, Catalog.decodeUtf8_encodeUtf8] at hdecode
  exact (Option.some.inj hdecode).symm

theorem hexDigit_inj {m n : Nat} (hm : m < 16) (hn : n < 16) (h : hexDigit m = hexDigit n) :
    m = n := by
  have hvalue := hexDigitValue_hexDigit hm
  rw [h, hexDigitValue_hexDigit hn] at hvalue
  exact (Option.some.inj hvalue).symm

theorem flatMap_hexByte_injective {bytes others : List UInt8}
    (h : bytes.flatMap hexByte = others.flatMap hexByte) : bytes = others := by
  induction bytes generalizing others with
  | nil =>
      cases others with
      | nil => rfl
      | cons other others => cases h
  | cons byte bytes ih =>
      cases others with
      | nil => cases h
      | cons other others =>
          have hhigh := byte.toNat_lt
          have hother := other.toNat_lt
          rw [List.flatMap_cons, List.flatMap_cons] at h
          obtain ⟨hfirst, h⟩ := List.cons.inj h
          obtain ⟨hsecond, h⟩ := List.cons.inj h
          have hdiv := hexDigit_inj (by omega) (by omega) hfirst
          have hmod := hexDigit_inj (by omega) (by omega) hsecond
          have hbyte : byte = other := UInt8.toNat_inj.mp (by omega)
          rw [hbyte, ih h]

/-- A digest is known from its hexadecimal digits. -/
theorem hexdigest_injective {digest other : Bytes} (h : hexdigest digest = hexdigest other) :
    digest = other := by
  have hlist := flatMap_hexByte_injective h
  exact ByteArray.ext (Array.toList_inj.mp hlist)

theorem toNat_isValidChar (c : Char) : c.toNat.isValidChar := c.valid

theorem encodable_codes (s : Text) : encodable (codes s) = true := by
  unfold encodable codes
  rw [List.all_eq_true]
  intro n hn
  obtain ⟨c, -, hc⟩ := List.mem_map.mp hn
  rw [← hc]
  exact decide_eq_true (toNat_isValidChar c)

theorem codes_map_ofNat {s : Str} (h : encodable s = true) : codes (s.map Char.ofNat) = s := by
  have hsame : ∀ n ∈ s, (Char.ofNat n).toNat = n := by
    intro n hn
    exact toNat_ofNat (of_decide_eq_true (List.all_eq_true.mp h n hn))
  unfold codes
  rw [List.map_map]
  exact (List.map_congr_left hsame).trans (List.map_id s)

/-- A text without surrogates has the bytes of its characters. -/
theorem encodeStr_codes (s : Text) : encodeStr (codes s) = .ok (encodeUtf8 s) := by
  have hchars : (codes s).map Char.ofNat = s := by
    unfold codes
    rw [List.map_map]
    exact (List.map_congr_left fun c _ => Char.ofNat_toNat c).trans (List.map_id s)
  unfold encodeStr
  rw [if_pos (encodable_codes s), hchars]

/-- Only the code points of a text have its bytes. -/
theorem eq_codes_of_encodeStr {s : Str} {t : Text} (h : encodeStr s = .ok (encodeUtf8 t)) :
    s = codes t := by
  unfold encodeStr at h
  split at h
  · rename_i hencodable
    have htext := encodeUtf8_injective (Except.ok.inj h)
    rw [← htext, codes_map_ofNat hencodable]
  · cases h

/-! ## What is signed -/

section Signed

variable {signing : Signing φ} {salt : Text}

theorem soundDict_signedFields (event : JsonObject φ) : SoundDict (signedFields event) := by
  refine ⟨soundFields_iff.mpr ?_, ?_⟩
  · intro field hmem
    obtain ⟨name, -, hfield⟩ := List.mem_map.mp hmem
    rw [← hfield]
    exact ⟨joined_codes name, event.sound_get name⟩
  · have hkeys : (signedFields event).map Prod.fst = signedTriggerFields.map codes := by
      unfold signedFields
      rw [List.map_map]
      rfl
    rw [hkeys]
    decide

/-- The signature is no signed field. -/
theorem signedFields_setText (event : JsonObject φ) (text : Text) :
    signedFields (event.setText "signature".toList text) = signedFields event := by
  have hother : (signedTriggerFields.all fun name => name ≠ "signature".toList) = true := by decide
  apply List.map_congr_left
  intro name hmem
  rw [JsonObject.get_setText, if_neg (of_decide_eq_true (List.all_eq_true.mp hother name hmem))]

/-- Events with one signature agree on all signed fields, up to the order of keys. -/
theorem signed_of_signature (hinjective : ∀ key, Function.Injective (signing.hmac key))
    {event other : JsonObject φ}
    (h : triggerSignature signing event salt = triggerSignature signing other salt) :
    ∀ name ∈ signedTriggerFields, (event.get name).sorted = (other.get name).sorted := by
  have hbody := encodeUtf8_injective (hinjective _ (hexdigest_injective h))
  have hsorted := sorted_of_canonical (sound_obj.mpr (soundDict_signedFields event))
    (sound_obj.mpr (soundDict_signedFields other)) hbody
  have hfields : sortKeys (sortedFields (signedFields event)) =
      sortKeys (sortedFields (signedFields other)) := Value.obj.inj hsorted
  intro name hname
  have hmem : (codes name, (event.get name).sorted) ∈ sortedFields (signedFields event) := by
    rw [sortedFields_eq]
    exact List.mem_map.mpr ⟨_, List.mem_map_of_mem hname, rfl⟩
  rw [← (sortKeys_perm _).mem_iff, hfields, (sortKeys_perm _).mem_iff, sortedFields_eq] at hmem
  obtain ⟨field, hfield, hsame⟩ := List.mem_map.mp hmem
  obtain ⟨found, -, hfound⟩ := List.mem_map.mp hfield
  rw [← hfound] at hsame
  have hcodes : codes found = codes name := congrArg Prod.fst hsame
  have hvalue : (other.get found).sorted = (event.get name).sorted := congrArg Prod.snd hsame
  rw [codes_injective hcodes] at hvalue
  exact hvalue.symm

/-- An event is read as it was sent. -/
theorem receive_messageOf (signing : Signing φ) (event : JsonObject φ) :
    receive signing (messageOf signing event) = some (.obj event.fields) := by
  have hgap : Spaces [' '] := by
    intro c hc
    rw [List.mem_singleton.mp hc]
    decide
  unfold receive messageOf
  rw [Catalog.decodeUtf8_encodeUtf8, Option.bind_some]
  exact loads_render hgap (sound_obj.mpr event.sound)

/-- The fields that a message is read with are those of an event: what is shown for every event
holds of every message. -/
theorem received_object {message : Bytes} {fields : List (Str × Value φ)}
    (h : receive signing message = some (.obj fields)) :
    ∃ event : JsonObject φ, event.fields = fields := by
  obtain ⟨text, -, hloads⟩ := Option.bind_eq_some_iff.mp h
  exact ⟨⟨fields, sound_obj.mp (sound_of_loads hloads)⟩, rfl⟩

/-! ## What is accepted -/

variable (hsalt : natsTriggerSigningSalt signing.tokenSalt = some salt)
include hsalt

theorem verifyTrigger_str {event : JsonObject φ} {signature : Str}
    (h : event.get "signature".toList = .str signature) :
    verifyTrigger signing event = (encodeStr signature).map fun given =>
      decide (encodeUtf8 (triggerSignature signing event salt) = given) := by
  unfold verifyTrigger
  rw [hsalt]
  dsimp only
  rw [h]

/-- An accepted event has its own signature. -/
theorem signature_of_verifyTrigger {event : JsonObject φ}
    (h : verifyTrigger signing event = .ok true) :
    event.get "signature".toList = .str (codes (triggerSignature signing event salt)) := by
  cases hget : event.get "signature".toList with
  | str signature =>
      rw [verifyTrigger_str hsalt hget] at h
      cases hencode : encodeStr signature with
      | error e =>
          rw [hencode] at h
          cases h
      | ok given =>
          rw [hencode] at h
          have hsame := of_decide_eq_true (Except.ok.inj h)
          rw [← hsame] at hencode
          rw [eq_codes_of_encodeStr hencode]
  | _ =>
      unfold verifyTrigger at h
      rw [hsalt] at h
      dsimp only at h
      rw [hget] at h
      cases h

/-- Whatever comes between, an event with the signature of its fields is accepted. -/
theorem verifyTrigger_of_signature {event : JsonObject φ}
    (h : event.get "signature".toList = .str (codes (triggerSignature signing event salt))) :
    verifyTrigger signing event = .ok true := by
  rw [verifyTrigger_str hsalt h, encodeStr_codes]
  exact congrArg Except.ok (decide_eq_true rfl)

/-- A signed event is accepted as the consumer reads it. -/
theorem verify_received (event : JsonObject φ) :
    ∃ signature received, signTrigger signing event = .ok signature ∧
      receive signing (messageOf signing (event.setText "signature".toList signature)) =
        some (.obj received.fields) ∧
      verifyTrigger signing received = .ok true := by
  refine ⟨triggerSignature signing event salt,
    event.setText "signature".toList (triggerSignature signing event salt), ?_,
    receive_messageOf signing _, ?_⟩
  · unfold signTrigger
    rw [hsalt]
  · apply verifyTrigger_of_signature hsalt
    have hsignature : triggerSignature signing
        (event.setText "signature".toList (triggerSignature signing event salt)) salt =
        triggerSignature signing event salt := by
      unfold triggerSignature
      rw [signedFields_setText]
    rw [JsonObject.get_setText, if_pos rfl, hsignature]

/-- A boolean is returned where the signature has bytes, if it is a text. -/
theorem verifies_iff (event : JsonObject φ) :
    (∃ accepted, verifyTrigger signing event = .ok accepted) ↔
      ∀ signature, event.get "signature".toList = .str signature → encodable signature = true := by
  constructor
  · intro hreturns signature hget
    obtain ⟨accepted, hreturns⟩ := hreturns
    rw [verifyTrigger_str hsalt hget] at hreturns
    unfold encodeStr at hreturns
    split at hreturns
    · assumption
    · cases hreturns
  · intro hall
    cases hget : event.get "signature".toList with
    | str signature =>
        rw [verifyTrigger_str hsalt hget]
        unfold encodeStr
        rw [if_pos (hall signature hget)]
        exact ⟨_, rfl⟩
    | _ =>
        refine ⟨false, ?_⟩
        unfold verifyTrigger
        rw [hsalt]
        dsimp only
        rw [hget]

end Signed

/-- Signatures survive the transport and bind all signed fields, and an event is answered with a
boolean unless its signature is a text that no UTF-8 text is; whatever object a message holds is
an event. -/
theorem trigger_signatures {signing : Signing φ} {salt : Text}
    (hsalt : natsTriggerSigningSalt signing.tokenSalt = some salt)
    (hinjective : ∀ key, Function.Injective (signing.hmac key)) :
    (∀ event : JsonObject φ, ∃ signature received,
      signTrigger signing event = .ok signature ∧
      receive signing (messageOf signing (event.setText "signature".toList signature)) =
        some (.obj received.fields) ∧
      verifyTrigger signing received = .ok true) ∧
    (∀ event other : JsonObject φ, verifyTrigger signing event = .ok true →
      verifyTrigger signing other = .ok true →
      event.get "signature".toList = other.get "signature".toList →
      ∀ name ∈ signedTriggerFields, (event.get name).sorted = (other.get name).sorted) ∧
    (∀ event : JsonObject φ, (∃ accepted, verifyTrigger signing event = .ok accepted) ↔
      ∀ signature, event.get "signature".toList = .str signature →
        encodable signature = true) ∧
    ∀ message fields, receive signing message = some (.obj fields) →
      ∃ event : JsonObject φ, event.fields = fields := by
  refine ⟨verify_received hsalt, ?_, verifies_iff hsalt, fun _ _ h => received_object h⟩
  intro event other haccepted hother hsame
  rw [signature_of_verifyTrigger hsalt haccepted, signature_of_verifyTrigger hsalt hother] at hsame
  exact signed_of_signature hinjective (codes_injective (Value.str.inj hsame))

/-! ## A backend -/

/-- The floats that JSON has names for. -/
inductive NamedFloat where
  | nan
  | infinity
  | minusInfinity
  deriving Repr, DecidableEq

def namedFloats : FloatFormat NamedFloat where
  repr
    | .nan => "NaN".toList
    | .infinity => "Infinity".toList
    | .minusInfinity => "-Infinity".toList
  read := fun _ => .nan
  nan := .nan
  infinity := .infinity
  minusInfinity := .minusInfinity
  reads := by
    intro x
    cases x with
    | nan => exact Or.inl ⟨rfl, rfl⟩
    | infinity => exact Or.inr (Or.inl ⟨rfl, rfl⟩)
    | minusInfinity => exact Or.inr (Or.inr (Or.inl ⟨rfl, rfl⟩))

def backendSalt : Text := "5f1c0a9e7b3d4286c9e1f0a2b4d6e8f05f1c0a9e7b3d4286c9e1f0a2b4d6e8f0".toList

/-- The key that HMAC-SHA256 derives from the salt. -/
def derivedKey : Bytes :=
  ⟨#[243, 198, 188, 34, 11, 35, 124, 203, 171, 153, 108, 113, 176, 247, 75, 97, 63, 179, 72, 212,
    173, 162, 16, 98, 61, 225, 191, 225, 173, 97, 198, 222]⟩

/-- An order, without the fields that the sender left out. -/
def order : JsonObject NamedFloat where
  fields :=
    [(codes "id".toList, .str (codes "e1".toList)),
      (codes "tenant_id".toList, .str (codes "t1".toList)),
      (codes "process_identifier".toList, .str (codes "sales:order".toList)),
      (codes "payload".toList, .obj [(codes "b".toList, .arr [.int 1, .bool true]),
        (codes "a".toList, .str [233])]),
      (codes "issued_at".toList, .int 1800000000)]
  sound := ⟨by decide, by decide⟩

/-- What is signed of the order. -/
def orderBody : Text :=
  ("\x7b\"api_key_id\":null,\"id\":\"e1\",\"issued_at\":1800000000,\"payload\":" ++
    "\x7b\"a\":\"\\u00e9\",\"b\":[1,true]\x7d,\"process_identifier\":\"sales:order\"," ++
    "\"reply_to\":null,\"tenant_id\":\"t1\",\"tenant_slug\":null\x7d").toList

/-- The digest that HMAC-SHA256 has of it. -/
def orderDigest : Bytes :=
  ⟨#[172, 249, 127, 210, 209, 195, 143, 70, 227, 131, 147, 180, 7, 56, 44, 216, 241, 109, 130, 135,
    108, 143, 193, 175, 223, 204, 138, 253, 199, 109, 242, 117]⟩

local instance (priority := 2000) instDecidableEqMessage : DecidableEq Bytes :=
  ByteArray.instDecidableEq

/-- HMAC-SHA256 on the label and on the order, and injective everywhere. -/
def backendHmac (key : Bytes) : Bytes → Bytes :=
  if key = derivedKey then Equiv.swap (encodeUtf8 orderBody) orderDigest
  else Equiv.swap (encodeUtf8 "m8flow-nats-trigger-v1".toList) derivedKey

def backendSigning : Signing NamedFloat where
  tokenSalt := some backendSalt
  hmac := backendHmac
  format := namedFloats

theorem backendHmac_injective (key : Bytes) : Function.Injective (backendHmac key) := by
  unfold backendHmac
  split
  · exact (Equiv.swap _ _).injective
  · exact (Equiv.swap _ _).injective

theorem backendSalt_signs : natsTriggerSigningSalt backendSigning.tokenSalt = some backendSalt := by
  decide +kernel

theorem signature_order :
    triggerSignature backendSigning order backendSalt = hexdigest orderDigest := by
  have hkey : backendHmac (encodeUtf8 backendSalt) (encodeUtf8 "m8flow-nats-trigger-v1".toList) =
      derivedKey := by
    unfold backendHmac
    rw [if_neg (by decide +kernel), Equiv.swap_apply_left]
  have hbody : canonical namedFloats (.obj (signedFields order)) = orderBody := by decide +kernel
  have hdigest : backendHmac derivedKey (encodeUtf8 orderBody) = orderDigest := by
    unfold backendHmac
    rw [if_pos rfl, Equiv.swap_apply_left]
  unfold triggerSignature backendSigning
  dsimp only
  rw [hkey, hbody, hdigest]

theorem order_accepted :
    ∃ signature received, signTrigger backendSigning order = .ok signature ∧
      receive backendSigning (messageOf backendSigning
        (order.setText "signature".toList signature)) = some (.obj received.fields) ∧
      verifyTrigger backendSigning received = .ok true :=
  (trigger_signatures backendSalt_signs backendHmac_injective).1 order

/-- The signature that the backend sends with the order. -/
example : triggerSignature backendSigning order backendSalt =
    "acf97fd2d1c38f46e38393b407382cd8f16d82876c8fc1afdfcc8afdc76df275".toList :=
  signature_order.trans (by decide +kernel)

/-- An event with half a surrogate pair for its signature. -/
def halfPair : JsonObject NamedFloat where
  fields := [(codes "signature".toList, .str [0xd800])]
  sound := ⟨by decide, by decide⟩

/-- It can be received, and raises. -/
theorem halfPair_raises :
    receive backendSigning (messageOf backendSigning halfPair) = some (.obj halfPair.fields) ∧
    verifyTrigger backendSigning halfPair = .error .surrogatesNotAllowed :=
  ⟨receive_messageOf backendSigning halfPair, by decide +kernel⟩

end M8flow.Nats
