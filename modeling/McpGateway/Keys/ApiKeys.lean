import McpGateway.Gateway.JavaText

/-! # API keys

`HmacApiKeyHasher` and `ApiKeyService`, over the rows of `api_keys`.

* `authenticate_eq_byHash` — a raw key and its hash are the same evidence. -/

namespace McpGateway.Keys

open Gateway

/-- What the `CHECK` of `V15` admits as `status`. -/
inductive KeyStatus where
  | active | revoked | expired
  deriving DecidableEq, Repr

/-- A row of `api_keys`, as far as authentication reads it. -/
structure KeyRow where
  id : Uuid
  keyHash : String
  role : AccessRole
  expiresAt : Option Nat
  revoked : Bool
  status : KeyStatus
  deriving DecidableEq

/-! ## `HmacApiKeyHasher` -/

/-- The HMAC-SHA256 of the JDK. -/
structure HmacSha256 where
  digest : Bytes → Bytes → Bytes
  length_digest : ∀ key message, (digest key message).length = 32

def hexDigit (n : Nat) : Char := Char.ofNat (if n < 10 then 48 + n else 87 + n)

/-- `HexFormat.of().formatHex`. -/
def formatHex (bs : Bytes) : String :=
  String.ofList (bs.flatMap fun b => [hexDigit (b.toNat / 16), hexDigit (b.toNat % 16)])

/-- The hasher: its HMAC and `mcp.hmac.pepper`. -/
structure ApiKeyHasher where
  hmac : HmacSha256
  pepper : Bytes

namespace ApiKeyHasher

variable (hasher : ApiKeyHasher)

def hash (rawKey : JString) : String :=
  formatHex (hasher.hmac.digest hasher.pepper (getBytes rawKey))

/-- `matches`. -/
def matchesHash (rawKey : JString) (storedHash : String) : Bool :=
  if (jstr storedHash).length ≠ 64 then false
  else getBytes (jstr (hasher.hash rawKey)) = getBytes (jstr storedHash)

end ApiKeyHasher

/-! ## `ApiKeyService` -/

/-- The three filters the two lookups share. -/
def usable (now : Nat) (key : KeyRow) : Bool :=
  !key.revoked && key.expiresAt.all (now < ·) &&
    (key.status ≠ .revoked && key.status ≠ .expired)

def authenticate (hasher : ApiKeyHasher) (keys : List KeyRow) (rawKey : JString) (now : Nat) :
    Option KeyRow :=
  keys.find? fun key => usable now key && hasher.matchesHash rawKey key.keyHash

def authenticateByHash (keys : List KeyRow) (keyHash : JString) (now : Nat) : Option KeyRow :=
  keys.find? fun key => usable now key && getBytes keyHash = getBytes (jstr key.keyHash)

/-- The entry of `keyCache`. -/
structure KeyCache where
  keys : List KeyRow
  loadedAt : Nat

/-- `expireAfterWrite(60, TimeUnit.SECONDS)`. -/
def keyCacheTtl : Nat := 60 * nanosPerSecond

theorem keyCacheTtl_pos : 0 < keyCacheTtl := Nat.mul_pos (by decide) (by decide)

/-- The table, the cache and the clock. -/
structure KeyStore where
  table : List KeyRow
  cache : Option KeyCache
  now : Nat

namespace KeyStore

/-- The entry that has not expired. -/
def liveCache (s : KeyStore) : Option KeyCache :=
  s.cache.filter fun c => s.now < c.loadedAt + keyCacheTtl

/-- `keyCache.get("all", k -> repository.findAll())`. -/
def cachedKeys (s : KeyStore) : List KeyRow :=
  match s.liveCache with
  | some c => c.keys
  | none => s.table

/-- The store after it. -/
def load (s : KeyStore) : KeyStore :=
  match s.liveCache with
  | some _ => s
  | none => { s with cache := some ⟨s.table, s.now⟩ }

/-- `invalidateCache`. -/
def invalidateCache (s : KeyStore) : KeyStore := { s with cache := none }

def advance (s : KeyStore) (elapsed : Nat) : KeyStore := { s with now := s.now + elapsed }

theorem liveCache_eq_some {s : KeyStore} {c : KeyCache} :
    s.liveCache = some c ↔ s.cache = some c ∧ s.now < c.loadedAt + keyCacheTtl := by
  unfold liveCache
  rw [Option.filter_eq_some_iff, decide_eq_true_eq]

theorem cachedKeys_some {s : KeyStore} {c : KeyCache} (h : s.liveCache = some c) :
    s.cachedKeys = c.keys := by
  unfold cachedKeys
  rw [h]

theorem cachedKeys_none {s : KeyStore} (h : s.liveCache = none) : s.cachedKeys = s.table := by
  unfold cachedKeys
  rw [h]

@[simp] theorem load_table (s : KeyStore) : s.load.table = s.table := by
  unfold load
  split <;> rfl

@[simp] theorem load_now (s : KeyStore) : s.load.now = s.now := by
  unfold load
  split <;> rfl

theorem liveCache_loaded (s : KeyStore) :
    ({ s with cache := some ⟨s.table, s.now⟩ } : KeyStore).liveCache = some ⟨s.table, s.now⟩ := by
  rw [liveCache_eq_some]
  exact ⟨rfl, Nat.lt_add_of_pos_right keyCacheTtl_pos⟩

/-- Loading does not change what is read. -/
@[simp] theorem cachedKeys_load (s : KeyStore) : s.load.cachedKeys = s.cachedKeys := by
  unfold load
  split
  · rfl
  · next h => rw [cachedKeys_none h, cachedKeys_some (liveCache_loaded s)]

/-- A list that has not expired had not expired earlier. -/
theorem cachedKeys_advance (s : KeyStore) (elapsed : Nat) :
    (s.advance elapsed).cachedKeys = s.cachedKeys ∨ (s.advance elapsed).cachedKeys = s.table := by
  cases h : (s.advance elapsed).liveCache with
  | none => exact Or.inr (cachedKeys_none h)
  | some c =>
      left
      obtain ⟨hc, hlive⟩ := liveCache_eq_some.mp h
      have hs : s.liveCache = some c :=
        liveCache_eq_some.mpr ⟨hc, Nat.lt_of_le_of_lt (Nat.le_add_right _ elapsed) hlive⟩
      rw [cachedKeys_some h, cachedKeys_some hs]

end KeyStore

/-! ## Hashes -/

theorem hexDigit_ascii {n : Nat} (h : n < 16) : hexDigit n ∈ "0123456789abcdef".toList := by
  have hall : ∀ n < 16, hexDigit n ∈ "0123456789abcdef".toList := by decide
  exact hall n h

theorem mem_formatHex {bs : Bytes} {c : Char} (h : c ∈ (formatHex bs).toList) :
    c ∈ "0123456789abcdef".toList := by
  unfold formatHex at h
  rw [String.toList_ofList] at h
  obtain ⟨b, -, hc⟩ := List.mem_flatMap.mp h
  have hb := b.toNat_lt
  rcases List.mem_pair.mp hc with rfl | rfl
  · exact hexDigit_ascii (by omega)
  · exact hexDigit_ascii (by omega)

theorem ascii_formatHex (bs : Bytes) : Ascii (formatHex bs).toList := by
  have hdigits : Ascii "0123456789abcdef".toList := ascii_of_all (by decide)
  exact fun c hc => hdigits c (mem_formatHex hc)

theorem length_formatHex (bs : Bytes) : (jstr (formatHex bs)).length = 2 * bs.length := by
  have hascii := ascii_formatHex bs
  unfold formatHex at hascii ⊢
  rw [String.toList_ofList] at hascii
  rw [jstr_ascii hascii, List.length_map]
  induction bs with
  | nil => rfl
  | cons b bs ih =>
      rw [List.flatMap_cons] at hascii ⊢
      rw [List.length_append, ih (ascii_append.mp hascii).2]
      simp only [List.length_cons, List.length_nil]
      omega

/-- The length check only spares the hashing. -/
theorem matchesHash_iff {hasher : ApiKeyHasher} {rawKey : JString} {storedHash : String} :
    hasher.matchesHash rawKey storedHash = true ↔ hasher.hash rawKey = storedHash := by
  have hlength : (jstr (hasher.hash rawKey)).length = 64 := by
    unfold ApiKeyHasher.hash
    rw [length_formatHex, hasher.hmac.length_digest]
  unfold ApiKeyHasher.matchesHash
  constructor
  · intro h
    split_ifs at h
    rw [decide_eq_true_eq, getBytes_jstr, getBytes_jstr] at h
    exact asBytes_injective h
  · rintro rfl
    rw [if_neg (not_not.mpr hlength), decide_eq_true_eq]

/-- **One evidence.** A raw key authenticates as what its hash does. -/
theorem authenticate_eq_byHash (hasher : ApiKeyHasher) (keys : List KeyRow) (rawKey : JString)
    (now : Nat) : authenticate hasher keys rawKey now =
      authenticateByHash keys (jstr (hasher.hash rawKey)) now := by
  have hmatch : ∀ key : KeyRow, hasher.matchesHash rawKey key.keyHash =
      decide (getBytes (jstr (hasher.hash rawKey)) = getBytes (jstr key.keyHash)) := by
    intro key
    rw [Bool.eq_iff_iff, matchesHash_iff, decide_eq_true_eq, getBytes_jstr, getBytes_jstr]
    exact ⟨fun h => congrArg asBytes h, fun h => asBytes_injective h⟩
  unfold authenticate authenticateByHash
  simp only [hmatch]

end McpGateway.Keys
