import Mathlib.Data.List.Nodup
import McpGateway.Text

/-! # The PII vault

`ingestion/src/sanitize/vault.rs` over the two tables of migration `V18`. The pure part (labels,
normalization, lookup hash, token text) comes first, then the tables with their constraints as
fields, then the one CTE statement of `PiiVault::upsert`. -/

namespace McpGateway.Vault

/-! ## Entity kinds -/

/-- `sanitize::EntityKind`. -/
inductive EntityKind where
  | nir | iban | phone | email | uuid | person | org | loc
  deriving DecidableEq, Repr

/-- `EntityKind::as_label`. -/
def EntityKind.asLabel : EntityKind → String
  | .nir    => "NIR"
  | .iban   => "IBAN"
  | .phone  => "PHONE"
  | .email  => "EMAIL"
  | .uuid   => "UUID"
  | .person => "PERSON"
  | .org    => "ORG"
  | .loc    => "LOC"

/-! ## The vault handle -/

/-- `VaultError`. -/
inductive VaultError where
  | db
  | crypto
  | other (msg : String)
  deriving DecidableEq, Repr

/-- The crates the vault calls: `hmac`/`sha2`, `aes-gcm`, and the Unicode tables. -/
structure Crates where
  /-- HMAC-SHA256 of a message under a key -/
  hmacSha256 : (key msg : Bytes) → Bytes
  /-- AES-256-GCM under a key and IV; `none` when the cipher reports an error -/
  aesGcmEncrypt : (key iv plaintext : Bytes) → Option Bytes
  unicode : UnicodeTables

/-- `PiiVault`; `new` rejects an HMAC root under 32 bytes, and the content key is `[u8; 32]`. -/
structure PiiVault where
  crates : Crates
  hmacRoot : Bytes
  contentKey : Bytes
  hmacRoot_length : 32 ≤ hmacRoot.length
  contentKey_length : contentKey.length = 32

/-- `PiiVault::new`. -/
def PiiVault.new (crates : Crates) (hmacRoot contentKey : Bytes)
    (hkey : contentKey.length = 32) : Except VaultError PiiVault :=
  if h : hmacRoot.length < 32 then
    .error (.other "hmac_root too short (need ≥32 bytes)")
  else
    .ok ⟨crates, hmacRoot, contentKey, Nat.le_of_not_lt h, hkey⟩

/-! ## Normalization -/

/-- The loop of `normalize_name`: whitespace runs become one space. -/
def collapseSpaces : (prevSpace : Bool) → List Char → List Char
  | _, [] => []
  | prevSpace, c :: cs =>
      if isWhitespace c then
        if prevSpace then collapseSpaces true cs else ' ' :: collapseSpaces true cs
      else
        c :: collapseSpaces false cs

/-- `normalize_name`: NFKC, trim, collapse whitespace, lowercase. -/
def normalizeName (u : UnicodeTables) (raw : String) : String :=
  u.toLowercase (String.ofList (collapseSpaces false (trim (u.nfkc raw).toList)))

/-- `normalize_strict`: drop whitespace, lowercase. -/
def normalizeStrict (u : UnicodeTables) (raw : String) : String :=
  u.toLowercase (String.ofList (raw.toList.filter fun c => !isWhitespace c))

/-- `normalize`. -/
def normalize (u : UnicodeTables) (kind : EntityKind) (raw : String) : String :=
  match kind with
  | .person | .org => normalizeName u raw
  | _ => normalizeStrict u raw

/-! ## Lookup hash and encryption -/

/-- `derive_workspace_key`: HMAC of the workspace id under the root secret. -/
def PiiVault.deriveWorkspaceKey (v : PiiVault) (workspaceId : Uuid) : Bytes :=
  v.crates.hmacSha256 v.hmacRoot workspaceId.asBytes

/-- The bytes `lookup_hash` feeds to the MAC: label, colon, normalized value. -/
def hashMessage (kind : EntityKind) (normalized : String) : Bytes :=
  asBytes kind.asLabel ++ asBytes ":" ++ asBytes normalized

/-- `lookup_hash`. HMAC accepts a key of any length, so its error branch is dead. -/
def PiiVault.lookupHash (v : PiiVault) (workspaceId : Uuid) (kind : EntityKind)
    (normalized : String) : Bytes :=
  v.crates.hmacSha256 (v.deriveWorkspaceKey workspaceId) (hashMessage kind normalized)

/-- `encrypt`: `[12B IV][ciphertext + tag]`, with the IV the RNG produced. -/
def PiiVault.encrypt (v : PiiVault) (iv plaintext : Bytes) : Except VaultError Bytes :=
  match v.crates.aesGcmEncrypt v.contentKey iv plaintext with
  | some ct => .ok (iv ++ ct)
  | none => .error .crypto

/-! ## The tables of `V18` -/

/-- The columns of `pii_token_map_workspace_kind_hash_key`. -/
structure Key where
  workspaceId : Uuid
  entityKind : EntityKind
  lookupHash : Bytes
  deriving DecidableEq, Repr

/-- A row of `pii_token_map`. -/
structure TokenRow where
  token : String
  key : Key
  originalValueCt : Bytes
  deriving DecidableEq, Repr

/-- `pii_token_map`: the primary key on `token` and the `UNIQUE` constraint on the lookup columns
are part of the type. -/
structure TokenMap where
  rows : List TokenRow
  token_pk : (rows.map TokenRow.token).Nodup
  key_unique : (rows.map TokenRow.key).Nodup

/-- `pii_token_counter`: `next_id` by its primary key `(workspace_id, entity_kind)`. -/
abbrev TokenCounter := Uuid → EntityKind → Option Nat

structure VaultDb where
  counter : TokenCounter
  map : TokenMap

/-- The tables as the migration creates them. -/
def VaultDb.empty : VaultDb where
  counter := fun _ _ => none
  map := ⟨[], by simp, by simp⟩

/-- The row of a key, if any: the `WHERE` clause of both `SELECT`s. -/
def TokenMap.find (m : TokenMap) (k : Key) : Option TokenRow :=
  m.rows.find? fun r => r.key = k

theorem TokenMap.eq_of_key {m : TokenMap} {r r' : TokenRow} (hr : r ∈ m.rows) (hr' : r' ∈ m.rows)
    (hk : r.key = r'.key) : r = r' :=
  List.inj_on_of_nodup_map m.key_unique hr hr' hk

theorem TokenMap.eq_of_token {m : TokenMap} {r r' : TokenRow} (hr : r ∈ m.rows)
    (hr' : r' ∈ m.rows) (ht : r.token = r'.token) : r = r' :=
  List.inj_on_of_nodup_map m.token_pk hr hr' ht

theorem TokenMap.find_eq_some {m : TokenMap} {k : Key} {r : TokenRow} :
    m.find k = some r ↔ r ∈ m.rows ∧ r.key = k := by
  constructor
  · intro h
    exact ⟨List.mem_of_find?_eq_some h, by simpa using List.find?_some h⟩
  · rintro ⟨hr, rfl⟩
    cases hf : m.find r.key with
    | none =>
        have hnone := List.find?_eq_none.mp hf r hr
        simp at hnone
    | some r' =>
        have hr' : r' ∈ m.rows := List.mem_of_find?_eq_some hf
        have hk' : r'.key = r.key := by simpa using List.find?_some hf
        rw [TokenMap.eq_of_key hr' hr hk']

theorem TokenMap.find_eq_none {m : TokenMap} {k : Key} :
    m.find k = none ↔ ∀ r ∈ m.rows, r.key ≠ k := by
  simp [TokenMap.find, List.find?_eq_none]

/-! ## The CTE statement -/

/-- What PostgreSQL or sqlx reports for the statement. -/
inductive SqlError where
  | uniqueViolation      -- 23505
  | numericOutOfRange    -- 22003
  | rowNotFound          -- sqlx `RowNotFound`, from `fetch_one`
  deriving DecidableEq, Repr

/-- `'PII_' || $2 || '_' || current_id`. -/
def tokenText (kind : EntityKind) (currentId : Nat) : String :=
  "PII_" ++ kind.asLabel ++ "_" ++ currentId.repr

/-- Set one counter row. -/
def TokenCounter.set (c : TokenCounter) (w : Uuid) (k : EntityKind) (n : Nat) : TokenCounter :=
  fun w' k' => if w' = w ∧ k' = k then some n else c w' k'

/-- `bump`: insert the counter row with `next_id = 2`, or add one to it; `RETURNING next_id - 1`. -/
def bump (c : TokenCounter) (w : Uuid) (k : EntityKind) : Except SqlError (Nat × TokenCounter) :=
  match c w k with
  | none => .ok (1, c.set w k 2)
  | some n => if n < bigintMax then .ok (n, c.set w k (n + 1)) else .error .numericOutOfRange

/-- Append a row that breaks no constraint. -/
def TokenMap.insert (m : TokenMap) (r : TokenRow) (hkey : m.find r.key = none)
    (htok : ∀ r' ∈ m.rows, r'.token ≠ r.token) : TokenMap where
  rows := m.rows ++ [r]
  token_pk := by
    simp only [List.map_append, List.map_cons, List.map_nil, List.nodup_append]
    refine ⟨m.token_pk, by simp, ?_⟩
    simpa using htok
  key_unique := by
    simp only [List.map_append, List.map_cons, List.map_nil, List.nodup_append]
    refine ⟨m.key_unique, by simp, ?_⟩
    simpa using TokenMap.find_eq_none.mp hkey

/-- `ins`: `INSERT … ON CONFLICT (workspace_id, entity_kind, lookup_hash) DO NOTHING RETURNING
token`. Only that constraint is the arbiter: a clash on the primary key `token` raises. -/
def TokenMap.ins (m : TokenMap) (r : TokenRow) : Except SqlError (Option String × TokenMap) :=
  if hkey : m.find r.key = none then
    if htok : ∀ r' ∈ m.rows, r'.token ≠ r.token then
      .ok (some r.token, m.insert r hkey htok)
    else
      .error .uniqueViolation
  else
    .ok (none, m)

theorem TokenMap.ins_fresh {m : TokenMap} {r : TokenRow} (hkey : m.find r.key = none)
    (htok : ∀ r' ∈ m.rows, r'.token ≠ r.token) :
    m.ins r = .ok (some r.token, m.insert r hkey htok) := by
  unfold TokenMap.ins
  rw [dif_pos hkey, dif_pos htok]

theorem TokenMap.ins_clash {m : TokenMap} {r : TokenRow} (hkey : m.find r.key = none)
    (htok : ¬ ∀ r' ∈ m.rows, r'.token ≠ r.token) : m.ins r = .error .uniqueViolation := by
  unfold TokenMap.ins
  rw [dif_pos hkey, dif_neg htok]

theorem TokenMap.ins_conflict {m : TokenMap} {r : TokenRow} (hkey : m.find r.key ≠ none) :
    m.ins r = .ok (none, m) := by
  unfold TokenMap.ins
  rw [dif_neg hkey]

/-- One execution of the statement, with `fetch_one`. `snapshot` is the map as of the moment the
statement started, which is all the final `SELECT` sees; `db` is what is committed when it runs. An
error raised inside the statement rolls all of it back; a missing row is only noticed by the
client, after the statement has committed. -/
def cteUpsert (snapshot : TokenMap) (db : VaultDb) (key : Key) (ct : Bytes) :
    Except SqlError String × VaultDb :=
  match bump db.counter key.workspaceId key.entityKind with
  | .error e => (.error e, db)
  | .ok (currentId, counter) =>
      match db.map.ins ⟨tokenText key.entityKind currentId, key, ct⟩ with
      | .error e => (.error e, db)
      | .ok (some token, map) => (.ok token, ⟨counter, map⟩)
      | .ok (none, map) =>
          match snapshot.find key with
          | some row => (.ok row.token, ⟨counter, map⟩)
          | none => (.error .rowNotFound, ⟨counter, map⟩)

/-- `From<sqlx::Error> for VaultError`: every database error becomes `VaultError::Db`. -/
def vaultResult : Except SqlError String → Except VaultError String
  | .ok token => .ok token
  | .error _ => .error .db

/-! ## A call from start to end -/

/-- The arguments of `tokenize_async` / `tokenize_blocking`, with the IV its `encrypt` draws. -/
structure Request where
  workspaceId : Uuid
  kind : EntityKind
  raw : String
  iv : Bytes
  deriving DecidableEq, Repr

variable (v : PiiVault)

/-- `normalize(kind, raw)` of a request. -/
def PiiVault.normalized (req : Request) : String := normalize v.crates.unicode req.kind req.raw

/-- The row key a request looks up. -/
def PiiVault.keyOf (req : Request) : Key where
  workspaceId := req.workspaceId
  entityKind := req.kind
  lookupHash := v.lookupHash req.workspaceId req.kind (v.normalized req)

/-- The ciphertext a request stores. -/
def PiiVault.ciphertext (req : Request) : Except VaultError Bytes :=
  v.encrypt req.iv (asBytes (v.normalized req))

/-- `upsert`: the short-circuit `lookup_existing`, then the statement. Nothing else runs, so the
statement's snapshot is the database itself. -/
def upsert (db : VaultDb) (key : Key) (ct : Bytes) : Except VaultError String × VaultDb :=
  match db.map.find key with
  | some row => (.ok row.token, db)
  | none =>
      let (res, db') := cteUpsert db.map db key ct
      (vaultResult res, db')

/-- `tokenize_async` (and `tokenize_blocking`) running alone with the database up. -/
def PiiVault.tokenize (db : VaultDb) (req : Request) : Except VaultError String × VaultDb :=
  match v.ciphertext req with
  | .error e => (.error e, db)
  | .ok ct => upsert db (v.keyOf req) ct

/-- `sanitize::render_token` with a vault: any vault error falls back to the placeholder. -/
def PiiVault.renderToken (db : VaultDb) (req : Request) : String :=
  match (v.tokenize db req).1 with
  | .ok token => token
  | .error _ => "[PII:" ++ req.kind.asLabel ++ "]"

end McpGateway.Vault
