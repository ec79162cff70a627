import McpGateway.Basic

/-! # Keys and ciphertexts of the key rotation

`crypto.rs` of `tools/key-rotation`. AES-256-GCM itself is the `ring` crate: a parameter, with what
an AEAD promises under the two keys of a rotation as the hypothesis `Aead.Correct`. -/

namespace McpGateway.Rotation

/-- A 256-bit key. -/
structure Key where
  bytes : Bytes
  length_bytes : bytes.length = 32
  deriving DecidableEq, Repr

/-- The two keys `main` goes on with: it bails out when they are identical. -/
structure Keys where
  old : Key
  new : Key
  distinct : old ≠ new

/-- The 12 bytes the random number generator fills. -/
structure Iv where
  bytes : Bytes
  length_bytes : bytes.length = 12
  deriving DecidableEq, Repr

/-- `AES_256_GCM` of `ring`, without additional data. -/
structure Aead where
  sealInPlaceAppendTag : (key : Key) → (iv plaintext : Bytes) → Option Bytes
  openInPlace : (key : Key) → (iv sealed : Bytes) → Option Bytes

def ivLen : Nat := 12

/-- IV and GCM tag, no plaintext. -/
def minLen : Nat := ivLen + 16

/-- `[12B IV][ciphertext + 16B GCM tag]`. -/
def encrypt (aead : Aead) (key : Key) (iv : Option Iv) (plaintext : Bytes) : Except String Bytes :=
  match iv with
  | none => .error "RNG failed"
  | some iv =>
      match aead.sealInPlaceAppendTag key iv.bytes plaintext with
      | none => .error "seal failed"
      | some buf => .ok (iv.bytes ++ buf)

def decrypt (aead : Aead) (key : Key) (wire : Bytes) : Except String Bytes :=
  if wire.length < minLen then
    .error ("wire data too short: " ++ toString wire.length ++ " bytes (minimum 28)")
  else
    match aead.openInPlace key (wire.take ivLen) (wire.drop ivLen) with
    | none => .error "decryption failed — wrong key or tampered data"
    | some plain => .ok plain

/-! ## What the rotation relies on -/

/-- Opening undoes sealing, a sealed text is as long as its plaintext and the tag, and what one key
sealed does not open under the other. -/
structure Aead.Correct (aead : Aead) (keys : Keys) : Prop where
  open_seal : ∀ key iv plain buf, aead.sealInPlaceAppendTag key iv plain = some buf →
    aead.openInPlace key iv buf = some plain
  length_seal : ∀ key iv plain buf, aead.sealInPlaceAppendTag key iv plain = some buf →
    buf.length = plain.length + 16
  old_not_new : ∀ iv plain buf, aead.sealInPlaceAppendTag keys.old iv plain = some buf →
    aead.openInPlace keys.new iv buf = none
  new_not_old : ∀ iv plain buf, aead.sealInPlaceAppendTag keys.new iv plain = some buf →
    aead.openInPlace keys.old iv buf = none

/-- `decrypt` with the error forgotten. -/
def opens (aead : Aead) (key : Key) (wire : Bytes) : Option Bytes :=
  (decrypt aead key wire).toOption

/-- The wire is an encryption of the plaintext under the key. -/
def Encrypts (aead : Aead) (key : Key) (plain wire : Bytes) : Prop :=
  ∃ iv, encrypt aead key iv plain = .ok wire

/-- What `decrypt` makes of the bytes `encrypt` writes. -/
theorem opens_wire {aead : Aead} {keys : Keys} (hc : aead.Correct keys) {key : Key} (other : Key)
    {plain wire : Bytes} (h : Encrypts aead key plain wire) :
    ∃ iv buf, aead.sealInPlaceAppendTag key iv plain = some buf ∧
      opens aead other wire = aead.openInPlace other iv buf := by
  obtain ⟨iv, h⟩ := h
  cases iv with
  | none => cases h
  | some iv =>
      unfold encrypt at h
      dsimp only at h
      cases hs : aead.sealInPlaceAppendTag key iv.bytes plain with
      | none =>
          rw [hs] at h
          cases h
      | some buf =>
          rw [hs] at h
          cases h
          have hbuf : buf.length = plain.length + 16 := hc.length_seal _ _ _ _ hs
          have hlong : ¬ (iv.bytes ++ buf).length < minLen := by
            have hmin : minLen = 28 := rfl
            rw [List.length_append, iv.length_bytes, hbuf, hmin]
            omega
          refine ⟨iv.bytes, buf, hs, ?_⟩
          have htake : (iv.bytes ++ buf).take ivLen = iv.bytes := List.take_left' iv.length_bytes
          have hdrop : (iv.bytes ++ buf).drop ivLen = buf := List.drop_left' iv.length_bytes
          unfold opens decrypt
          rw [if_neg hlong, htake, hdrop]
          cases aead.openInPlace other iv.bytes buf <;> rfl

/-- **Round trip.** -/
theorem opens_of_encrypts {aead : Aead} {keys : Keys} (hc : aead.Correct keys) {key : Key}
    {plain wire : Bytes} (h : Encrypts aead key plain wire) : opens aead key wire = some plain := by
  obtain ⟨iv, buf, hs, ho⟩ := opens_wire hc key h
  rw [ho]
  exact hc.open_seal _ _ _ _ hs

theorem opens_new_of_encrypts_old {aead : Aead} {keys : Keys} (hc : aead.Correct keys)
    {plain wire : Bytes} (h : Encrypts aead keys.old plain wire) :
    opens aead keys.new wire = none := by
  obtain ⟨iv, buf, hs, ho⟩ := opens_wire hc keys.new h
  rw [ho]
  exact hc.old_not_new _ _ _ hs

theorem opens_old_of_encrypts_new {aead : Aead} {keys : Keys} (hc : aead.Correct keys)
    {plain wire : Bytes} (h : Encrypts aead keys.new plain wire) :
    opens aead keys.old wire = none := by
  obtain ⟨iv, buf, hs, ho⟩ := opens_wire hc keys.old h
  rw [ho]
  exact hc.new_not_old _ _ _ hs

/-- The wire opens to the plaintext under exactly one of the two keys. -/
def UnderOneKey (aead : Aead) (keys : Keys) (plain wire : Bytes) : Prop :=
  (opens aead keys.old wire = some plain ∧ opens aead keys.new wire = none) ∨
  (opens aead keys.new wire = some plain ∧ opens aead keys.old wire = none)

/-- The wire is under the new key. -/
def UnderNew (aead : Aead) (keys : Keys) (wire : Bytes) : Prop :=
  ∃ plain, opens aead keys.new wire = some plain

theorem underOneKey_of_encrypts {aead : Aead} {keys : Keys} (hc : aead.Correct keys)
    {plain wire : Bytes}
    (h : Encrypts aead keys.old plain wire ∨ Encrypts aead keys.new plain wire) :
    UnderOneKey aead keys plain wire := by
  rcases h with h | h
  · exact Or.inl ⟨opens_of_encrypts hc h, opens_new_of_encrypts_old hc h⟩
  · exact Or.inr ⟨opens_of_encrypts hc h, opens_old_of_encrypts_new hc h⟩

/-- Under exactly one key, the plaintext is determined. -/
theorem UnderOneKey.plain_eq {aead : Aead} {keys : Keys} {plain plain' wire : Bytes}
    (h : UnderOneKey aead keys plain wire)
    (h' : opens aead keys.old wire = some plain' ∨ opens aead keys.new wire = some plain') :
    plain' = plain := by
  rcases h with ⟨h₁, h₂⟩ | ⟨h₁, h₂⟩ <;> rcases h' with h' | h' <;> simp_all

/-! ## A concrete cipher

Concrete runs encrypt `hello` under the keys `02 … 02` and `03 … 03`. The cipher is AES-256-GCM on
that text, for one IV under the first key and two under the second. -/

theorem sampleKey_length (b : UInt8) : (List.replicate 32 b).length = 32 := by simp

def sampleKey (b : UInt8) : Key := ⟨List.replicate 32 b, sampleKey_length b⟩

theorem sampleKey_distinct : sampleKey 2 ≠ sampleKey 3 := by decide

def sampleKeys : Keys := ⟨sampleKey 2, sampleKey 3, sampleKey_distinct⟩

theorem sampleIv_length (b : UInt8) : (List.replicate 12 b).length = 12 := by simp

def sampleIv (b : UInt8) : Iv := ⟨List.replicate 12 b, sampleIv_length b⟩

/-- `hello` under a key and an IV. -/
def sampleSealed : List (Key × Bytes × Bytes) := [
  (sampleKey 2, (sampleIv 5).bytes, bytesBE 21 0x40350261cf2550a268d96d667db2692fa1ed80d76f),
  (sampleKey 3, (sampleIv 6).bytes, bytesBE 21 0xc3539f3796e58ec6462a3a9bb9ffa0ec9abbd8b8d9),
  (sampleKey 3, (sampleIv 7).bytes, bytesBE 21 0x7c48a8cf7b7fde8489eec8a994bcb1e284eaf34e51)]

def sampleAead : Aead where
  sealInPlaceAppendTag := fun key iv plain =>
    if plain = asBytes "hello" then
      (sampleSealed.find? fun c => c.1 = key ∧ c.2.1 = iv).map fun c => c.2.2
    else none
  openInPlace := fun key iv buf =>
    if (key, iv, buf) ∈ sampleSealed then some (asBytes "hello") else none

theorem mem_sampleSealed {key : Key} {iv plain buf : Bytes}
    (h : sampleAead.sealInPlaceAppendTag key iv plain = some buf) :
    plain = asBytes "hello" ∧ (key, iv, buf) ∈ sampleSealed := by
  unfold sampleAead at h
  dsimp only at h
  split_ifs at h with hplain
  obtain ⟨c, hc, rfl⟩ := Option.map_eq_some_iff.mp h
  have hkey := List.find?_some hc
  rw [decide_eq_true_eq] at hkey
  obtain ⟨rfl, rfl⟩ := hkey
  exact ⟨hplain, List.mem_of_find?_eq_some hc⟩

/-- No IV is used under both keys. -/
theorem sampleSealed_ivs (iv buf : Bytes) :
    ¬ ((sampleKey 2, iv, buf) ∈ sampleSealed ∧ (sampleKey 3, iv, buf) ∈ sampleSealed) := by
  rintro ⟨hold, hnew⟩
  have hiv : iv = (sampleIv 5).bytes := by
    simp only [sampleSealed, List.mem_cons, List.not_mem_nil, Prod.mk.injEq, or_false] at hold
    rcases hold with ⟨-, h, -⟩ | ⟨h, -⟩ | ⟨h, -⟩
    · exact h
    · exact absurd h sampleKey_distinct
    · exact absurd h sampleKey_distinct
  simp only [sampleSealed, List.mem_cons, List.not_mem_nil, Prod.mk.injEq, or_false] at hnew
  rw [hiv] at hnew
  rcases hnew with ⟨h, -⟩ | ⟨-, h, -⟩ | ⟨-, h, -⟩
  · exact absurd h.symm sampleKey_distinct
  · exact absurd h (by decide)
  · exact absurd h (by decide)

theorem sampleSealed_length {key : Key} {iv buf : Bytes} (h : (key, iv, buf) ∈ sampleSealed) :
    buf.length = 21 := by
  simp only [sampleSealed, List.mem_cons, List.not_mem_nil, Prod.mk.injEq, or_false] at h
  rcases h with ⟨-, -, rfl⟩ | ⟨-, -, rfl⟩ | ⟨-, -, rfl⟩ <;> rfl

theorem sampleAead_correct : sampleAead.Correct sampleKeys where
  open_seal := by
    intro key iv plain buf h
    obtain ⟨hplain, hmem⟩ := mem_sampleSealed h
    unfold sampleAead
    dsimp only
    rw [if_pos hmem, hplain]
  length_seal := by
    intro key iv plain buf h
    obtain ⟨hplain, hmem⟩ := mem_sampleSealed h
    rw [sampleSealed_length hmem, hplain]
    decide
  old_not_new := by
    intro iv plain buf h
    have hmem := (mem_sampleSealed h).2
    unfold sampleAead
    dsimp only
    rw [if_neg]
    exact fun hnew => sampleSealed_ivs iv buf ⟨hmem, hnew⟩
  new_not_old := by
    intro iv plain buf h
    have hmem := (mem_sampleSealed h).2
    unfold sampleAead
    dsimp only
    rw [if_neg]
    exact fun hold => sampleSealed_ivs iv buf ⟨hold, hmem⟩

/-- The wire of `hello` under the old key. -/
def sampleWire : Bytes :=
  (sampleIv 5).bytes ++ bytesBE 21 0x40350261cf2550a268d96d667db2692fa1ed80d76f

theorem encrypts_sampleWire : Encrypts sampleAead sampleKeys.old (asBytes "hello") sampleWire :=
  ⟨some (sampleIv 5), by decide⟩

end McpGateway.Rotation
