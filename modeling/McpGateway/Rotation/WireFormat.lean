import McpGateway.Gateway.Aspects
import McpGateway.Gateway.ContentEncryptor
import McpGateway.Ingestion.RunCycle
import McpGateway.Rotation.Run

/-! # One wire format in three programs

The gateway, the ingestion daemon and the key rotation read the same key text and write the same
wire: `[12B IV][ciphertext + 16B GCM tag]`. What is used of the `hex` crate is `DecodesHex`, what is
used of the three AES-256-GCM libraries is `Libraries`.

* `parseKey_of_contentEncryptor` — the two `parse_key`s accept what the Java constructor accepts.
* `reads_of_produces` — what one of the three encrypts, both decoders decrypt.
* `ciphertexts_travel` — both together, re-encryption, and wires that are too short. -/

namespace McpGateway

/-! ## Key texts -/

/-- The bytes that pairs of hexadecimal digits stand for. -/
def hexPairs : List Char → Option Bytes
  | [] => some []
  | [_] => none
  | a :: b :: rest => do
      let high ← Gateway.hexDigit a.toNat
      let low ← Gateway.hexDigit b.toNat
      let bytes ← hexPairs rest
      some (UInt8.ofNat (16 * high + low) :: bytes)

/-- `hex::decode` decodes pairs of digits, in either case. -/
def DecodesHex (decode : String → Except String Bytes) : Prop :=
  ∀ cs bytes, hexPairs cs = some bytes → decode (String.ofList cs) = .ok bytes

/-- The body that both `parse_key`s have. -/
def parseKeyBytes (decode : String → Except String Bytes) (hexStr : String) :
    Except String {bytes : Bytes // bytes.length = 32} :=
  match decode (String.ofList (trim hexStr.toList)) with
  | .error e => .error e
  | .ok bytes =>
      if h : bytes.length = 32 then .ok ⟨bytes, h⟩
      else .error ("key must be exactly 64 hex chars (32 bytes); got " ++
        toString (hexStr.utf8ByteSize / 2) ++ " bytes")

/-- `parse_key` of `ingestion/src/crypto.rs`. -/
def Ingestion.parseKey (decode : String → Except String Bytes) (hexStr : String) :
    Except String {bytes : Bytes // bytes.length = 32} :=
  parseKeyBytes decode hexStr

/-- `parse_key` of `tools/key-rotation/src/crypto.rs`. -/
def Rotation.parseKey (decode : String → Except String Bytes) (hexStr : String) :
    Except String Rotation.Key :=
  (parseKeyBytes decode hexStr).map fun key => ⟨key.val, key.property⟩

/-- The two languages read pairs of digits alike. -/
theorem hexPairs_of_parseHex {cs : List Char} {bytes : Bytes}
    (hascii : ∀ c ∈ cs, c.toNat < 128)
    (h : Gateway.parseHex (cs.map Gateway.charUnit) = some bytes) : hexPairs cs = some bytes := by
  induction cs using hexPairs.induct generalizing bytes with
  | case1 => exact h
  | case2 a => cases h
  | case3 a b rest ih =>
      obtain ⟨high, low, more, hhigh, hlow, hmore, rfl⟩ := Gateway.parseHex_cons h
      rw [Gateway.charUnit_toNat (hascii a (by simp))] at hhigh
      rw [Gateway.charUnit_toNat (hascii b (by simp))] at hlow
      have hrest := ih (fun c hc => hascii c (by simp [hc])) hmore
      simp [hexPairs, hhigh, hlow, hrest]

/-- There is nothing to trim from a text without white space. -/
theorem trim_eq_self {cs : List Char} (h : ∀ c ∈ cs, isWhitespace c = false) : trim cs = cs := by
  have hkeep : ∀ ds : List Char, (∀ c ∈ ds, isWhitespace c = false) →
      ds.dropWhile isWhitespace = ds := by
    intro ds hds
    cases ds with
    | nil => rfl
    | cons d ds => simp [hds d (by simp)]
  unfold trim
  rw [hkeep cs h, hkeep cs.reverse (by simpa using h), List.reverse_reverse]

theorem not_isWhitespace_of_hexDigit {c : Char} (h : (Gateway.hexDigit c.toNat).isSome = true) :
    isWhitespace c = false := by
  have hrange : (48 ≤ c.toNat ∧ c.toNat ≤ 57) ∨ (65 ≤ c.toNat ∧ c.toNat ≤ 102) := by
    obtain ⟨m, hm⟩ := Option.isSome_iff_exists.mp h
    unfold Gateway.hexDigit at hm
    split_ifs at hm <;> omega
  simp only [isWhitespace, Bool.or_eq_false_iff, Bool.and_eq_false_iff, decide_eq_false_iff_not,
    beq_eq_false_iff_ne]
  omega

/-- **Key texts.** What the Java constructor accepts, the Rust programs accept. -/
theorem parseKey_of_contentEncryptor {decode : String → Except String Bytes} (hhex : DecodesHex decode)
    {hexKey : String} {keyBytes : Bytes}
    (h : Gateway.contentEncryptor (some (Gateway.jstr hexKey)) = .ok keyBytes) :
    ∃ hlength : keyBytes.length = 32, parseKeyBytes decode hexKey = .ok ⟨keyBytes, hlength⟩ := by
  obtain ⟨hparse, hlength⟩ := Gateway.contentEncryptor_ok h
  obtain ⟨cs, rfl⟩ : ∃ cs, hexKey = String.ofList cs := ⟨hexKey.toList, String.ofList_toList.symm⟩
  have hdigits := Gateway.ascii_of_parseHex hparse
  have hascii : ∀ c ∈ cs, c.toNat < 128 := by
    intro c hc
    obtain ⟨m, hm⟩ := Option.isSome_iff_exists.mp (hdigits c hc)
    exact Gateway.hexDigit_lt hm
  rw [Gateway.jstr_ascii hascii] at hparse
  have htrim : trim cs = cs := trim_eq_self fun c hc => not_isWhitespace_of_hexDigit (hdigits c hc)
  have hdecode := hhex cs keyBytes (hexPairs_of_parseHex hascii hparse)
  refine ⟨hlength, ?_⟩
  unfold parseKeyBytes
  rw [String.toList_ofList, htrim, hdecode]
  dsimp only
  rw [dif_pos hlength]

namespace Rotation

/-! ## Wires -/

/-- The three libraries compute the same function, and opening undoes sealing; the tag is 16 bytes
long and comes last. -/
structure Libraries (aead : Aead)
    (ingestionSeal javaSeal javaOpen : (key iv input : Bytes) → Option Bytes) : Prop where
  open_seal : ∀ key iv plain buf, aead.sealInPlaceAppendTag key iv plain = some buf →
    aead.openInPlace key iv buf = some plain
  length_seal : ∀ key iv plain buf, aead.sealInPlaceAppendTag key iv plain = some buf →
    buf.length = plain.length + 16
  open_short : ∀ key iv buf, buf.length < 16 → aead.openInPlace key iv buf = none
  ingestion_seal : ∀ (key : Key) iv plain,
    ingestionSeal key.bytes iv plain = aead.sealInPlaceAppendTag key iv plain
  java_seal : ∀ (key : Key) iv plain,
    javaSeal key.bytes iv plain = aead.sealInPlaceAppendTag key iv plain
  java_open : ∀ (key : Key) iv buf, javaOpen key.bytes iv buf = aead.openInPlace key iv buf

/-- One of the three encoders wrote this wire for the text. -/
inductive Produces (aead : Aead) (cfg : Ingestion.Config)
    (javaSeal : (key iv plaintext : Bytes) → Option Bytes) (key : Key) (text : String)
    (wire : Bytes) : Prop where
  | ingestion (iv : Iv) (hkey : cfg.contentKey = key.bytes)
      (h : Ingestion.encrypt cfg (some iv.bytes) (asBytes text) = some wire)
  | rotation (iv : Iv) (h : encrypt aead key (some iv) (asBytes text) = .ok wire)
  | java (iv : Iv)
      (h : Gateway.encrypt javaSeal key.bytes iv.bytes (Gateway.jstr text) = .ok wire)

/-- Both decoders read the text from the wire. -/
structure Reads (aead : Aead) (p : Gateway.Platform) (key : Key) (text : String) (wire : Bytes) :
    Prop where
  rotation : decrypt aead key wire = .ok (asBytes text)
  java : Gateway.decrypt { p with contentKey := key.bytes } wire = .ok (Gateway.jstr text)

variable {aead : Aead} {cfg : Ingestion.Config} {p : Gateway.Platform}
  {javaSeal : (key iv plaintext : Bytes) → Option Bytes} {key : Key} {text : String} {wire : Bytes}

/-- **One framing.** -/
theorem Produces.framed (hlib : Libraries aead cfg.aesGcm javaSeal p.aesGcmDecrypt)
    (h : Produces aead cfg javaSeal key text wire) :
    ∃ (iv : Iv) (buf : Bytes), wire = iv.bytes ++ buf ∧
      aead.sealInPlaceAppendTag key iv.bytes (asBytes text) = some buf := by
  cases h with
  | ingestion iv hkey h =>
      obtain ⟨buf, hbuf, h⟩ := Option.bind_eq_some_iff.mp h
      rw [hkey, hlib.ingestion_seal] at hbuf
      exact ⟨iv, buf, (Option.some.inj h).symm, hbuf⟩
  | rotation iv h =>
      unfold encrypt at h
      dsimp only at h
      cases hbuf : aead.sealInPlaceAppendTag key iv.bytes (asBytes text) with
      | none =>
          rw [hbuf] at h
          cases h
      | some buf =>
          rw [hbuf] at h
          cases h
          exact ⟨iv, buf, rfl, hbuf⟩
  | java iv h =>
      unfold Gateway.encrypt at h
      rw [hlib.java_seal, Gateway.getBytes_jstr] at h
      cases hbuf : aead.sealInPlaceAppendTag key iv.bytes (asBytes text) with
      | none =>
          rw [hbuf] at h
          cases h
      | some buf =>
          rw [hbuf] at h
          cases h
          exact ⟨iv, buf, rfl, hbuf⟩

/-- **What one of the three encrypts, both decoders decrypt.** -/
theorem reads_of_produces (hlib : Libraries aead cfg.aesGcm javaSeal p.aesGcmDecrypt)
    (h : Produces aead cfg javaSeal key text wire) : Reads aead p key text wire := by
  obtain ⟨iv, buf, rfl, hseal⟩ := h.framed hlib
  have hopen := hlib.open_seal _ _ _ _ hseal
  have hlength := hlib.length_seal _ _ _ _ hseal
  constructor
  · have hlong : ¬ (iv.bytes ++ buf).length < minLen := by
      have hmin : minLen = 28 := rfl
      rw [List.length_append, iv.length_bytes, hlength, hmin]
      omega
    have hiv : iv.bytes.length = ivLen := iv.length_bytes
    unfold decrypt
    rw [if_neg hlong, List.take_left' hiv, List.drop_left' hiv, hopen]
  · refine Gateway.decrypt_wire iv.length_bytes ?_
    show p.aesGcmDecrypt key.bytes iv.bytes buf = some (asBytes text)
    rw [hlib.java_open, hopen]

/-- **What the rotation rewrites**, both decoders decrypt under the new key. -/
theorem reads_of_rotateChunk (hlib : Libraries aead cfg.aesGcm javaSeal p.aesGcmDecrypt)
    {job : Job} {args : Args} {chunk : Chunk} {env : ChunkEnv} {u : Update}
    (haead : job.aead = aead) (h : Produces aead cfg javaSeal job.keys.old text chunk.encryptedContent)
    (hrotate : rotateChunk job args chunk env = .ok (some u)) :
    Reads aead p job.keys.new text u.newContent := by
  have hold := (reads_of_produces hlib h).rotation
  unfold rotateChunk at hrotate
  rw [haead, hold] at hrotate
  dsimp only at hrotate
  cases hiv : env.iv with
  | none =>
      rw [hiv] at hrotate
      cases hrotate
  | some iv =>
      rw [hiv] at hrotate
      cases henc : encrypt aead job.keys.new (some iv) (asBytes text) with
      | error e =>
          rw [henc] at hrotate
          cases hrotate
      | ok newEnc =>
          rw [henc] at hrotate
          have hcontent : u.newContent = newEnc := by
            dsimp only at hrotate
            split at hrotate
            · split at hrotate <;> cases hrotate
              rfl
            · cases hrotate
              rfl
          rw [hcontent]
          exact reads_of_produces hlib (.rotation iv henc)

/-- **What is too short**, both decoders reject. -/
theorem rejects_short (hlib : Libraries aead cfg.aesGcm javaSeal p.aesGcmDecrypt) (key : Key)
    (hwire : wire.length < 28) :
    (∃ e, decrypt aead key wire = .error e) ∧
    ∃ e, Gateway.decrypt { p with contentKey := key.bytes } wire = .error e := by
  constructor
  · exact ⟨_, if_pos hwire⟩
  · refine Gateway.decrypt_short hwire ?_
    intro iv ciphertext hlength
    show p.aesGcmDecrypt key.bytes iv ciphertext = none
    rw [hlib.java_open, hlib.open_short _ _ _ hlength]

/-- **Ciphertexts travel between the three implementations.** -/
theorem ciphertexts_travel {decode : String → Except String Bytes} (hhex : DecodesHex decode)
    (hlib : Libraries aead cfg.aesGcm javaSeal p.aesGcmDecrypt) {hexKey : String} {keyBytes : Bytes}
    (hkey : Gateway.contentEncryptor (some (Gateway.jstr hexKey)) = .ok keyBytes) :
    ∃ key : Key, key.bytes = keyBytes ∧ parseKey decode hexKey = .ok key ∧
      (Ingestion.parseKey decode hexKey).map Subtype.val = .ok keyBytes ∧
      (∀ text wire, Produces aead cfg javaSeal key text wire → Reads aead p key text wire) ∧
      (∀ job args chunk env u text, job.aead = aead → job.keys.old = key →
        Produces aead cfg javaSeal key text chunk.encryptedContent →
        rotateChunk job args chunk env = .ok (some u) →
        Reads aead p job.keys.new text u.newContent) ∧
      ∀ wire, wire.length < 28 →
        (∃ e, decrypt aead key wire = .error e) ∧
        ∃ e, Gateway.decrypt { p with contentKey := key.bytes } wire = .error e := by
  obtain ⟨hlength, hparse⟩ := parseKey_of_contentEncryptor hhex hkey
  refine ⟨⟨keyBytes, hlength⟩, rfl, ?_, ?_, ?_, ?_, ?_⟩
  · rw [parseKey, hparse]
    rfl
  · rw [Ingestion.parseKey, hparse]
    rfl
  · exact fun text wire h => reads_of_produces hlib h
  · intro job args chunk env u text haead hold h hrotate
    rw [← hold] at h
    exact reads_of_rotateChunk hlib haead h hrotate
  · exact fun wire hwire => rejects_short hlib _ hwire

/-! ## `hello` under the key `02 … 02` -/

/-- The sample cipher on a key given as bytes. -/
def sampleSeal (key iv plain : Bytes) : Option Bytes :=
  if h : key.length = 32 then sampleAead.sealInPlaceAppendTag ⟨key, h⟩ iv plain else none

def sampleOpen (key iv buf : Bytes) : Option Bytes :=
  if h : key.length = 32 then sampleAead.openInPlace ⟨key, h⟩ iv buf else none

theorem sampleLibraries : Libraries sampleAead sampleSeal sampleSeal sampleOpen where
  open_seal := sampleAead_correct.open_seal
  length_seal := sampleAead_correct.length_seal
  open_short := by
    intro key iv buf hlength
    unfold sampleAead
    dsimp only
    rw [if_neg]
    intro hmem
    have := sampleSealed_length hmem
    omega
  ingestion_seal key _ _ := dif_pos key.length_bytes
  java_seal key _ _ := dif_pos key.length_bytes
  java_open key _ _ := dif_pos key.length_bytes

def sampleDecode (s : String) : Except String Bytes :=
  match hexPairs s.toList with
  | some bytes => .ok bytes
  | none => .error "Invalid character"

theorem sampleDecode_decodesHex : DecodesHex sampleDecode := by
  intro cs bytes h
  unfold sampleDecode
  rw [String.toList_ofList, h]

def sampleHexKey : String := "0202020202020202020202020202020202020202020202020202020202020202"

def sampleIngestion : Ingestion.Config := { Ingestion.sampleConfig with aesGcm := sampleSeal }

def sampleGateway : Gateway.Platform :=
  { Gateway.samplePlatform true with aesGcmDecrypt := sampleOpen }

theorem hello_travels :
    parseKey sampleDecode sampleHexKey = .ok (sampleKey 2) ∧
    Reads sampleAead sampleGateway (sampleKey 2) "hello" sampleWire := by
  have hkey : Gateway.contentEncryptor (some (Gateway.jstr sampleHexKey)) =
      .ok (sampleKey 2).bytes := by
    decide
  have hlib : Libraries sampleAead sampleIngestion.aesGcm sampleSeal sampleGateway.aesGcmDecrypt :=
    sampleLibraries
  obtain ⟨key, hbytes, hparse, -, hreads, -⟩ :=
    ciphertexts_travel sampleDecode_decodesHex hlib hkey
  obtain rfl : key = sampleKey 2 := by
    cases key
    cases hbytes
    rfl
  exact ⟨hparse, hreads "hello" sampleWire (.rotation (sampleIv 5) (by decide))⟩

end Rotation

end McpGateway
