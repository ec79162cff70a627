import McpGateway.Gateway.Connectors
import McpGateway.Gateway.JavaText

/-! # `ContentEncryptor`

The constructor and `encrypt`; `decrypt` is with its caller, in `Gateway/Connectors.lean`.
AES-256-GCM is the crypto provider of the platform. -/

namespace McpGateway.Gateway

def hexKeyLength : Nat := 64

/-- The value of a hexadecimal digit, by its code. -/
def hexDigit (n : Nat) : Option Nat :=
  if 48 ≤ n ∧ n ≤ 57 then some (n - 48)
  else if 97 ≤ n ∧ n ≤ 102 then some (n - 87)
  else if 65 ≤ n ∧ n ≤ 70 then some (n - 55)
  else none

/-- `HexFormat.of().parseHex`: only ASCII digits, in either case. -/
def parseHex : JString → Option Bytes
  | [] => some []
  | [_] => none
  | a :: b :: rest => do
      let high ← hexDigit a.toNat
      let low ← hexDigit b.toNat
      let bytes ← parseHex rest
      some (UInt8.ofNat (16 * high + low) :: bytes)

/-- The constructor: the bytes of `keySpec`. -/
def contentEncryptor (hexKey : Option JString) : Except Throwable Bytes :=
  match hexKey with
  | none => .error (.illegalState ("MCP_CONTENT_KEY must be exactly 64 hex characters (32 bytes). " ++
      "Generate with: openssl rand -hex 32"))
  | some hexKey =>
      if hexKey.length ≠ hexKeyLength then
        .error (.illegalState ("MCP_CONTENT_KEY must be exactly 64 hex characters (32 bytes). " ++
          "Generate with: openssl rand -hex 32"))
      else match parseHex hexKey with
        | none => .error (.illegalArgument "not a hexadecimal digit")
        | some keyBytes => .ok keyBytes

/-- `encrypt`: `[12B IV][ciphertext + 16B GCM tag]`. -/
def encrypt (aesGcmEncrypt : (key iv plaintext : Bytes) → Option Bytes) (keySpec iv : Bytes)
    (plaintext : JString) : Except Throwable Bytes :=
  match aesGcmEncrypt keySpec iv (getBytes plaintext) with
  | none => .error (.illegalState "Encryption failed")
  | some ciphertext => .ok (iv ++ ciphertext)

/-! ## What a key text is -/

theorem hexDigit_lt {n m : Nat} (h : hexDigit n = some m) : n < 128 := by
  unfold hexDigit at h
  split_ifs at h <;> omega

/-- What is parsed, unit by unit. -/
theorem parseHex_cons {a b : UInt16} {rest : JString} {bytes : Bytes}
    (h : parseHex (a :: b :: rest) = some bytes) :
    ∃ high low more, hexDigit a.toNat = some high ∧ hexDigit b.toNat = some low ∧
      parseHex rest = some more ∧ bytes = UInt8.ofNat (16 * high + low) :: more := by
  obtain ⟨high, hhigh, h⟩ := Option.bind_eq_some_iff.mp h
  obtain ⟨low, hlow, h⟩ := Option.bind_eq_some_iff.mp h
  obtain ⟨more, hmore, h⟩ := Option.bind_eq_some_iff.mp h
  exact ⟨high, low, more, hhigh, hlow, hmore, (Option.some.inj h).symm⟩

theorem parseHex_length {us : JString} {bytes : Bytes} (h : parseHex us = some bytes) :
    us.length = 2 * bytes.length := by
  induction us using parseHex.induct generalizing bytes with
  | case1 =>
      cases h
      rfl
  | case2 a => cases h
  | case3 a b rest ih =>
      obtain ⟨high, low, more, -, -, hmore, rfl⟩ := parseHex_cons h
      simp only [List.length_cons, ih hmore]
      omega

/-- Every unit is an ASCII digit. -/
theorem parseHex_ascii {us : JString} {bytes : Bytes} (h : parseHex us = some bytes) :
    ∀ u ∈ us, (hexDigit u.toNat).isSome = true := by
  induction us using parseHex.induct generalizing bytes with
  | case1 => simp
  | case2 a => cases h
  | case3 a b rest ih =>
      obtain ⟨high, low, more, hhigh, hlow, hmore, -⟩ := parseHex_cons h
      intro u hu
      rcases List.mem_cons.mp hu with rfl | hu
      · simp [hhigh]
      rcases List.mem_cons.mp hu with rfl | hu
      · simp [hlow]
      · exact ih hmore u hu

theorem contentEncryptor_ok {hexKey : JString} {keyBytes : Bytes}
    (h : contentEncryptor (some hexKey) = .ok keyBytes) :
    parseHex hexKey = some keyBytes ∧ keyBytes.length = 32 := by
  unfold contentEncryptor at h
  dsimp only at h
  split_ifs at h with hlength
  cases hparse : parseHex hexKey with
  | none =>
      rw [hparse] at h
      cases h
  | some bytes =>
      rw [hparse] at h
      cases h
      have := parseHex_length hparse
      have hlen : hexKey.length = 64 := by simpa [hexKeyLength] using hlength
      exact ⟨rfl, by omega⟩

/-- An accepted key text is ASCII. -/
theorem ascii_of_parseHex {cs : List Char} {bytes : Bytes}
    (h : parseHex (jstr (String.ofList cs)) = some bytes) :
    ∀ c ∈ cs, (hexDigit c.toNat).isSome = true := by
  have hall := parseHex_ascii h
  intro c hc
  unfold jstr at hall
  rw [String.toList_ofList] at hall
  by_cases hsmall : c.toNat < 0x10000
  · have hunit : (UInt16.ofNat c.toNat).toNat = c.toNat := UInt16.toNat_ofNat_of_lt' hsmall
    have hdigit := hall (UInt16.ofNat c.toNat)
      (List.mem_flatMap.mpr ⟨c, hc, by rw [if_pos hsmall]; exact List.mem_singleton_self _⟩)
    rwa [hunit] at hdigit
  · -- a surrogate is not a digit
    obtain ⟨hunit, -⟩ := supplementary_units hsmall
    have hdigit := hall (UInt16.ofNat (0xD800 + (c.toNat - 0x10000) / 1024))
      (List.mem_flatMap.mpr ⟨c, hc, by rw [if_neg hsmall]; exact List.mem_cons_self⟩)
    obtain ⟨m, hm⟩ := Option.isSome_iff_exists.mp hdigit
    have := hexDigit_lt hm
    omega

/-! ## What a wire is -/

theorem decodeUtf8_asBytes (s : String) : decodeUtf8 (asBytes s) = jstr s := by
  have hchars : ∀ cs : List Char,
      cs.flatMap (fun c => jstr (String.singleton c)) = jstr (String.ofList cs) := by
    intro cs
    induction cs with
    | nil => rfl
    | cons c cs ih =>
        have hsplit : String.ofList (c :: cs) = String.singleton c ++ String.ofList cs := by
          rw [String.singleton_eq_ofList, ← String.ofList_append]
          rfl
        rw [List.flatMap_cons, ih, hsplit, jstr_append]
  unfold decodeUtf8
  rw [utf8Decode_asBytes (by decide), List.flatMap_map]
  exact (hchars s.toList).trans (congrArg jstr String.ofList_toList)

example : decodeUtf8 [0xED, 0xA0, 0x80, 0x41, 0xC3] = [0xFFFD, 0x41, 0xFFFD] := by decide

/-- **What is opened.** -/
theorem decrypt_wire {p : Platform} {iv ciphertext : Bytes} (hiv : iv.length = ivLengthBytes)
    {text : String} (hopen : p.aesGcmDecrypt p.contentKey iv ciphertext = some (asBytes text)) :
    decrypt p (iv ++ ciphertext) = .ok (jstr text) := by
  have hlong : ¬ (iv ++ ciphertext).length < ivLengthBytes := by
    rw [List.length_append]
    omega
  unfold decrypt
  rw [if_neg hlong, List.take_left' hiv, List.drop_left' hiv, hopen]
  dsimp only
  rw [decodeUtf8_asBytes]

/-- **What is too short.** -/
theorem decrypt_short {p : Platform} {wire : Bytes} (hwire : wire.length < 28)
    (hshort : ∀ iv ciphertext, ciphertext.length < 16 →
      p.aesGcmDecrypt p.contentKey iv ciphertext = none) :
    ∃ e, decrypt p wire = .error e := by
  unfold decrypt
  split
  · exact ⟨_, rfl⟩
  · have hlen : (wire.drop ivLengthBytes).length < 16 := by
      have hiv : ivLengthBytes = 12 := rfl
      rw [List.length_drop]
      omega
    rw [hshort _ _ hlen]
    exact ⟨_, rfl⟩

end McpGateway.Gateway
