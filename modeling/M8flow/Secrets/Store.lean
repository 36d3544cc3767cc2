import M8flow.Errors
import M8flow.Lib.Paging
import M8flow.Lib.Table
import M8flow.Secrets.Paths
import Mathlib.Data.Char
import Mathlib.Data.List.Lex
import Mathlib.Data.Prod.Lex

/-!
# Secret providers

`secrets/__init__.py` over `secrets/database.py` and `secrets/vault.py`.  A provider keeps its
secrets in a state of its own, the table or the key-value store; a call that raises leaves the
state alone.

- `Provider` is the seam, and `addSecret`, `updateSecret` and the others are what callers use;
- `databaseProvider` keeps the rows of the table `secret`;
- `vaultProvider` keeps documents at paths.

Ids of secrets and the times of their changes, which each provider makes in its own way, are
left out of the records.
-/

namespace M8flow.Secrets

open M8flow.Lib

/-! ## The seam -/

/-- `SecretRecord`. -/
structure SecretRecord where
  key : Text
  userId : Int
  tenantId : Text
  deriving Repr, DecidableEq

/-- `SecretListPage`. -/
structure SecretListPage where
  records : List SecretRecord
  total : Nat
  page : Nat
  perPage : Nat
  deriving Repr, DecidableEq

/-- What a call can raise. -/
inductive SecretError where
  | api (error : ApiError)
  | valueError (message : String)
  /-- The database refuses a value or an offset. -/
  | dataError
  deriving Repr, DecidableEq

/-- `SecretProvider`, with the state it reads and writes. -/
structure Provider (σ : Type) where
  add : σ → (tenantId key value : Text) → (userId : Int) → Except SecretError (SecretRecord × σ)
  get : σ → (tenantId key : Text) → Except SecretError SecretRecord
  getValue : σ → (tenantId key : Text) → Except SecretError (Option Text)
  update : σ → (tenantId key value : Text) → Except SecretError σ
  delete : σ → (tenantId key : Text) → Except SecretError σ
  list : σ → (tenantId : Text) → (page perPage : Int) → Except SecretError SecretListPage
  listKeys : σ → (tenantId : Text) → Except SecretError (List Text)

/-- The letters and digits outside ASCII, none of which is white space. -/
structure WordTable where
  unicode : Char → Bool
  visible : ∀ c, 128 ≤ c.toNat → unicode c = true → Text.isSpace c = false

/-- `SECRET_KEY_PATTERN.fullmatch(key)`. -/
def isKey (words : WordTable) (key : Text) : Bool := key ≠ [] && key.all (isWord words.unicode)

section Keys

variable {words : WordTable} {key : Text}

theorem isSpace_of_isWord {c : Char} (h : isWord words.unicode c = true) :
    Text.isSpace c = false := by
  unfold isWord at h
  split at h
  · rw [Bool.or_eq_true, beq_iff_eq] at h
    rcases h with halnum | hunderscore
    · exact Percent.not_isSpace_of_isAlphanum halnum
    · rw [hunderscore]
      decide
  · rename_i hbeyond
    exact words.visible c (Nat.le_of_not_lt hbeyond) h

theorem ne_nil_of_isKey (h : isKey words key = true) : key ≠ [] := by
  unfold isKey at h
  rw [Bool.and_eq_true, decide_eq_true_eq] at h
  exact h.1

theorem isWord_of_isKey (h : isKey words key = true) : ∀ c ∈ key, isWord words.unicode c = true := by
  unfold isKey at h
  rw [Bool.and_eq_true, List.all_eq_true] at h
  exact h.2

theorem strip_of_isKey (h : isKey words key = true) : key.strip = key := by
  apply Text.stripWhere_eq_self_of_ends
  · intro c hc
    rw [isSpace_of_isWord (isWord_of_isKey h c (List.mem_of_head? hc))]
    exact Bool.false_ne_true
  · intro c hc
    rw [isSpace_of_isWord (isWord_of_isKey h c (List.mem_of_getLast? hc))]
    exact Bool.false_ne_true

/-- A mark of ASCII is no part of a key. -/
theorem not_mem_of_isKey (h : isKey words key = true) {c : Char} (hascii : c.toNat < 128)
    (hmark : (c.isAlphanum || c == '_') = false) : c ∉ key := by
  intro hmem
  have hword := isWord_of_isKey h c hmem
  unfold isWord at hword
  rw [if_pos hascii, hmark] at hword
  cases hword

end Keys

def invalidKey : SecretError :=
  .api (.of "validation_error" "Secret key must be a word (letters, digits, underscore)." 400)

/-- `require_secret_key`. -/
def requireSecretKey (words : WordTable) (key : Text) : Except SecretError Text :=
  if isKey words key.strip then .ok key.strip else .error invalidKey

section Facade

variable {σ : Type} (provider : Provider σ) (words : WordTable) (state : σ) (tenantId key : Text)

def addSecret (value : Text) (userId : Int) : Except SecretError (SecretRecord × σ) := do
  let key ← requireSecretKey words key
  provider.add state tenantId key value userId

def getSecret : Except SecretError SecretRecord := do
  let key ← requireSecretKey words key
  provider.get state tenantId key

def getSecretValue : Except SecretError (Option Text) :=
  if isKey words key then provider.getValue state tenantId key else .ok none

def updateSecret (value : Text) : Except SecretError σ := do
  let key ← requireSecretKey words key
  provider.update state tenantId key value

def deleteSecret : Except SecretError σ := do
  let key ← requireSecretKey words key
  provider.delete state tenantId key

end Facade

/-! ## Errors -/

/-- The text of a message. -/
def shown (key : Text) : String := String.ofList key

def missingSecret (key : Text) : SecretError :=
  .api (.of "missing_secret_error"
    ("Unable to locate a secret with the name: " ++ shown key ++ ". ") 404)

def createSecretError (key : Text) : SecretError :=
  .api (.of "create_secret_error"
    ("There was an error creating a secret with key: " ++ shown key ++ ".") 409)

def updateSecretError (key : Text) : SecretError :=
  .api (.of "update_secret_error"
    ("Cannot update secret with key: " ++ shown key ++ ". Resource does not exist.") 404)

def deleteSecretError (key : Text) : SecretError :=
  .api (.of "delete_secret_error"
    ("Cannot delete secret with key: " ++ shown key ++ ". Resource does not exist.") 404)

def vaultUnavailable (message : String) : SecretError := .api (.of "vault_unavailable" message 503)

/-- `max(1, page)`. -/
def pageOf (page : Int) : Nat := (max 1 page).toNat

/-- `max(1, min(per_page, 100))`. -/
def perPageOf (perPage : Int) : Nat := (max 1 (min perPage 100)).toNat

/-! ## The table -/

/-- `SecretModel`. -/
structure SecretRow where
  key : Text
  value : Text
  tenantId : Text
  createdByUserId : Int
  deriving Repr, DecidableEq

/-- The columns of the unique constraint. -/
def SecretRow.place (row : SecretRow) : Text × Text := (row.tenantId, row.key)

/-- Encryption at rest. -/
structure Cipher where
  encrypt : Text → Text
  decrypt : Text → Text
  decrypt_encrypt : ∀ value, decrypt (encrypt value) = value

/-- What the database server takes. -/
structure Server where
  /-- A `String(255)` column can hold the text. -/
  column : Text → Bool
  /-- A query can have the offset. -/
  offset : Nat → Bool

/-- `_record`. -/
def recordOf (row : SecretRow) : SecretRecord := ⟨row.key, row.createdByUserId, row.tenantId⟩

/-- The rows of a tenant, `ORDER BY m8f_tenant_id, key`. -/
def orderedRows (rows : List SecretRow) (tenantId : Text) : List SecretRow :=
  Paging.sortBy (fun row => toLex row.place) (rows.filter fun row => row.tenantId = tenantId)

/-- `DatabaseSecretProvider`. -/
def databaseProvider (server : Server) (cipher : Cipher) : Provider (List SecretRow) where
  add rows tenantId key value userId :=
    match Table.lookup SecretRow.place rows (tenantId, key) with
    | some _ => .error (createSecretError key)
    | none =>
        let row : SecretRow := ⟨key, cipher.encrypt value, tenantId, userId⟩
        if server.column key && server.column tenantId then .ok (recordOf row, rows ++ [row])
        else .error .dataError
  get rows tenantId key :=
    match Table.lookup SecretRow.place rows (tenantId, key) with
    | none => .error (missingSecret key)
    | some row => .ok (recordOf row)
  getValue rows tenantId key :=
    match Table.lookup SecretRow.place rows (tenantId, key) with
    | none => .ok none
    | some row => .ok (some (cipher.decrypt row.value))
  update rows tenantId key value :=
    match Table.lookup SecretRow.place rows (tenantId, key) with
    | none => .error (updateSecretError key)
    | some _ => .ok (Table.updateAt SecretRow.place (tenantId, key)
        (fun row => { row with value := cipher.encrypt value }) rows)
  delete rows tenantId key :=
    match Table.lookup SecretRow.place rows (tenantId, key) with
    | none => .error (deleteSecretError key)
    | some _ => .ok (rows.filter fun row => row.place ≠ (tenantId, key))
  list rows tenantId page perPage :=
    let page := pageOf page
    let perPage := perPageOf perPage
    let total := (rows.filter fun row => row.tenantId = tenantId).length
    if server.offset ((page - 1) * perPage) then
      .ok ⟨(Paging.slice perPage page (orderedRows rows tenantId)).map recordOf, total, page,
        perPage⟩
    else .error .dataError
  listKeys rows tenantId :=
    .ok (Paging.sortBy id ((rows.filter fun row => row.tenantId = tenantId).map SecretRow.key))

/-! ## The key-value store -/

/-- The document of a secret. -/
structure Document where
  key : Text
  value : Text
  tenantId : Text
  userId : Int
  deriving Repr, DecidableEq

/-- A path of the store and its document. -/
structure StoredDocument where
  path : Text
  document : Document
  deriving Repr, DecidableEq

/-- A store that maps paths to documents. -/
abbrev KeyValueStore := List StoredDocument

/-- `get_document`. -/
def getDocument (store : KeyValueStore) (path : Text) : Option Document :=
  (Table.lookup StoredDocument.path store path).map StoredDocument.document

/-- `put_document`. -/
def putDocument (store : KeyValueStore) (path : Text) (document : Document) : KeyValueStore :=
  if (getDocument store path).isSome then
    Table.updateAt StoredDocument.path path (fun stored => { stored with document }) store
  else store ++ [⟨path, document⟩]

/-- `delete_document`. -/
def deleteDocument (store : KeyValueStore) (path : Text) : KeyValueStore :=
  store.filter fun stored => stored.path ≠ path

/-- What the store lists of a path right below the listed one: a document or a folder. -/
def childOf (path stored : Text) : Option Text :=
  if (path ++ ['/']).isPrefixOf stored then
    let rest := stored.drop (path.length + 1)
    some (if '/' ∈ rest then rest.takeWhile (· ≠ '/') ++ ['/'] else rest)
  else none

/-- `list_names`. -/
def listNames (store : KeyValueStore) (path : Text) : List Text :=
  let children := (store.filterMap fun stored => childOf path stored.path).dedup
  Paging.sortBy id ((children.map (Text.rstripChar '/')).filter (· ≠ []))

/-- `_record_from_document`. -/
def recordFromDocument (document : Document) (key : Text) (tenantId : Text) : SecretRecord :=
  ⟨key, document.userId, if document.tenantId = [] then tenantId else document.tenantId⟩

section VaultProvider

variable (config : Config) (words : WordTable)

/-- `_read`: nothing where there is no document. -/
def readDocument (store : KeyValueStore) (tenantId key : Text) :
    Except SecretError (Option Document) :=
  match secretPath config words.unicode tenantId key with
  | .error _ => .error (vaultUnavailable ("Could not read secret with key: " ++ shown key ++ "."))
  | .ok path => .ok (getDocument store path)

/-- `_read` where the document must be there. -/
def requireDocument (store : KeyValueStore) (tenantId key : Text) (missing : SecretError) :
    Except SecretError Document := do
  match ← readDocument config words store tenantId key with
  | none => throw missing
  | some document => return document

/-- The path that a change goes to, with the message of a store that is down. -/
def pathFor (tenantId key : Text) (message : String) : Except SecretError Text :=
  match secretPath config words.unicode tenantId key with
  | .error _ => .error (vaultUnavailable message)
  | .ok path => .ok path

/-- `VaultSecretProvider.list_keys`. -/
def vaultListKeys (store : KeyValueStore) (tenantId : Text) : Except SecretError (List Text) :=
  match secretRoot config tenantId with
  | .error _ => .error (vaultUnavailable "Could not list secrets.")
  | .ok root => .ok (listNames store root)

/-- The record of a listed key, if its document is there. -/
def listedRecord (store : KeyValueStore) (tenantId key : Text) :
    Except SecretError (Option SecretRecord) := do
  let document ← readDocument config words store tenantId key
  return document.map fun document => recordFromDocument document key tenantId

/-- `VaultSecretProvider`, over one store. -/
def vaultProvider : Provider KeyValueStore where
  add store tenantId key value userId :=
    match secretPath config words.unicode tenantId key with
    | .error message => .error (.valueError message)
    | .ok path =>
        match getDocument store path with
        | some _ => .error (createSecretError key)
        | none =>
            let document : Document := ⟨key, value, tenantId, userId⟩
            .ok (recordFromDocument document key tenantId, putDocument store path document)
  get store tenantId key := do
    let document ← requireDocument config words store tenantId key (missingSecret key)
    return recordFromDocument document key tenantId
  getValue store tenantId key := do
    let document ← readDocument config words store tenantId key
    return document.map Document.value
  update store tenantId key value := do
    let document ← requireDocument config words store tenantId key (updateSecretError key)
    let path ← pathFor config words tenantId key
      ("Could not update secret with key: " ++ shown key ++ ".")
    return putDocument store path { document with value }
  delete store tenantId key := do
    let _ ← requireDocument config words store tenantId key (deleteSecretError key)
    let path ← pathFor config words tenantId key
      ("Could not delete secret with key: " ++ shown key ++ ".")
    return deleteDocument store path
  list store tenantId page perPage := do
    let page := pageOf page
    let perPage := perPageOf perPage
    let keys ← vaultListKeys config store tenantId
    let records ← (Paging.slice perPage page keys).mapM
      (listedRecord config words store tenantId)
    return ⟨records.filterMap id, keys.length, page, perPage⟩
  listKeys store tenantId := vaultListKeys config store tenantId

end VaultProvider

/-! ## Calls -/

/-- A call of the facade. -/
inductive Call where
  | add (tenantId key value : Text) (userId : Int)
  | get (tenantId key : Text)
  | getValue (tenantId key : Text)
  | update (tenantId key value : Text)
  | delete (tenantId key : Text)
  | list (tenantId : Text) (page perPage : Int)
  | listKeys (tenantId : Text)
  deriving Repr, DecidableEq

/-- The tenant of a call. -/
def Call.tenantId : Call → Text
  | add tenantId _ _ _ => tenantId
  | get tenantId _ => tenantId
  | getValue tenantId _ => tenantId
  | update tenantId _ _ => tenantId
  | delete tenantId _ => tenantId
  | list tenantId _ _ => tenantId
  | listKeys tenantId => tenantId

/-- What a call returns. -/
inductive Reply where
  | record (record : SecretRecord)
  | value (value : Option Text)
  | done
  | page (page : SecretListPage)
  | keys (keys : List Text)
  deriving Repr, DecidableEq

section Runs

variable {σ : Type} (provider : Provider σ) (words : WordTable)

/-- A call that writes and returns nothing. -/
def written (state : σ) (outcome : Except SecretError σ) : Except SecretError Reply × σ :=
  match outcome with
  | .error error => (.error error, state)
  | .ok after => (.ok .done, after)

/-- One call: its outcome, and the state afterwards. -/
def step (state : σ) : Call → Except SecretError Reply × σ
  | .add tenantId key value userId =>
      match addSecret provider words state tenantId key value userId with
      | .error error => (.error error, state)
      | .ok (record, after) => (.ok (.record record), after)
  | .get tenantId key => ((getSecret provider words state tenantId key).map .record, state)
  | .getValue tenantId key =>
      ((getSecretValue provider words state tenantId key).map .value, state)
  | .update tenantId key value =>
      written state (updateSecret provider words state tenantId key value)
  | .delete tenantId key => written state (deleteSecret provider words state tenantId key)
  | .list tenantId page perPage => ((provider.list state tenantId page perPage).map .page, state)
  | .listKeys tenantId => ((provider.listKeys state tenantId).map .keys, state)

/-- The outcomes of calls, one after the other. -/
def outcomes (state : σ) : List Call → List (Except SecretError Reply)
  | [] => []
  | call :: calls =>
      let (outcome, after) := step provider words state call
      outcome :: outcomes after calls

theorem outcomes_cons (state : σ) (call : Call) (calls : List Call) :
    outcomes provider words state (call :: calls) =
      (step provider words state call).1 ::
        outcomes provider words (step provider words state call).2 calls := rfl

end Runs

/-! ## One server and one cipher -/

/-- No letter or digit outside ASCII. -/
def asciiWords : WordTable where
  unicode _ := false
  visible _ _ h := absurd h Bool.false_ne_true

/-- A server with 255 characters in a column and offsets of 63 bits. -/
def bigintServer : Server where
  column text := text.length ≤ 255
  offset n := n < 2 ^ 63

/-- A cipher that writes the value after a mark. -/
def markCipher : Cipher where
  encrypt value := '#' :: value
  decrypt value := value.drop 1
  decrypt_encrypt _ := rfl

end M8flow.Secrets
