import McpGateway.Gateway.Types
import McpGateway.Text

/-! # Java text

Decoding and number parsing of the JDK, and what the codecs do to ASCII text: `jstr`, `getBytes`,
`newString` and base64url are inverse to each other there. -/

namespace McpGateway.Gateway

/-! ## Decoding -/

/-- `new String(bytes, UTF_8)`. -/
def newString (content : Bytes) : JString := jstr (fromUtf8Lossy content)

/-- The number of a character of the URL alphabet. -/
def base64UrlValue (u : UInt16) : Option Nat :=
  let n := u.toNat
  if 65 ≤ n ∧ n ≤ 90 then some (n - 65)
  else if 97 ≤ n ∧ n ≤ 122 then some (n - 71)
  else if 48 ≤ n ∧ n ≤ 57 then some (n + 4)
  else if n = 45 then some 62
  else if n = 95 then some 63
  else none

/-- The byte of a last unit of two characters. -/
def decodeTwo (a b : UInt16) : Option Bytes := do
  let n := (← base64UrlValue a) * 64 + (← base64UrlValue b)
  some [UInt8.ofNat (n / 16)]

/-- The bytes of a last unit of three characters. -/
def decodeThree (a b c : UInt16) : Option Bytes := do
  let n := ((← base64UrlValue a) * 64 + (← base64UrlValue b)) * 64 + (← base64UrlValue c)
  some [UInt8.ofNat (n / 1024), UInt8.ofNat (n / 4)]

def decodeFour (a b c d : UInt16) : Option Bytes := do
  let n := (((← base64UrlValue a) * 64 + (← base64UrlValue b)) * 64 + (← base64UrlValue c)) * 64 +
    (← base64UrlValue d)
  some [UInt8.ofNat (n / 65536), UInt8.ofNat (n / 256), UInt8.ofNat n]

/-- `Base64.getUrlDecoder().decode`: the padding may be missing, the unused bits may be anything. -/
def base64UrlDecode : JString → Option Bytes
  | [] => some []
  | [_] => none
  | [a, b] => decodeTwo a b
  | [a, b, c] => decodeThree a b c
  | a :: b :: c :: d :: rest =>
      if d = 61 ∧ rest = [] then
        if c = 61 then decodeTwo a b else decodeThree a b c
      else
        (decodeFour a b c d).bind fun bytes => (base64UrlDecode rest).map (bytes ++ ·)

/-! ## Numbers -/

/-- The zeros of the decimal digits (category `Nd`) that are one code unit. -/
def digitZeros : List Nat :=
  [0x0030, 0x0660, 0x06F0, 0x07C0, 0x0966, 0x09E6, 0x0A66, 0x0AE6, 0x0B66, 0x0BE6, 0x0C66, 0x0CE6,
    0x0D66, 0x0DE6, 0x0E50, 0x0ED0, 0x0F20, 0x1040, 0x1090, 0x17E0, 0x1810, 0x1946, 0x19D0, 0x1A80,
    0x1A90, 0x1B50, 0x1BB0, 0x1C40, 0x1C50, 0xA620, 0xA8D0, 0xA900, 0xA9D0, 0xA9F0, 0xAA50, 0xABF0,
    0xFF10]

/-- `Character.digit(u, 10)`. -/
def digitValue (u : UInt16) : Option Nat :=
  (digitZeros.find? fun z => z ≤ u.toNat && u.toNat ≤ z + 9).map (u.toNat - ·)

/-- `Character.isDigit`. -/
def isDigit (u : UInt16) : Bool := (digitValue u).isSome

/-- `Long.parseLong` on a run of digits. -/
def parseLong (digits : JString) : Option Nat := do
  let values ← digits.mapM digitValue
  let n := values.foldl (fun n value => 10 * n + value) 0
  if values ≠ [] ∧ n ≤ bigintMax then some n else none

/-! ## ASCII text -/

def Ascii (cs : List Char) : Prop := ∀ c ∈ cs, c.toNat < 128

theorem ascii_of_all {cs : List Char} (h : (cs.all fun c => c.toNat < 128) = true) : Ascii cs :=
  fun c hc => of_decide_eq_true (List.all_eq_true.mp h c hc)

/-- The code unit of a character. -/
def charUnit (c : Char) : UInt16 := UInt16.ofNat c.toNat

theorem charUnit_toNat {c : Char} (h : c.toNat < 128) : (charUnit c).toNat = c.toNat :=
  UInt16.toNat_ofNat_of_lt' (Nat.lt_trans h (by decide))

theorem toNat_ofNat {n : Nat} (h : n.isValidChar) : (Char.ofNat n).toNat = n := by
  unfold Char.ofNat
  rw [dif_pos h]
  rfl

theorem Ascii.tail {c : Char} {cs : List Char} (h : Ascii (c :: cs)) : Ascii cs :=
  fun d hd => h d (List.mem_cons_of_mem _ hd)

theorem Ascii.head {c : Char} {cs : List Char} (h : Ascii (c :: cs)) : c.toNat < 128 :=
  h c List.mem_cons_self

@[simp] theorem ascii_append {cs ds : List Char} : Ascii (cs ++ ds) ↔ Ascii cs ∧ Ascii ds :=
  List.forall_mem_append

@[simp] theorem jstr_append (s t : String) : jstr (s ++ t) = jstr s ++ jstr t := by
  unfold jstr
  rw [String.toList_append, List.flatMap_append]

theorem jstr_ascii {cs : List Char} (h : Ascii cs) :
    jstr (String.ofList cs) = cs.map charUnit := by
  unfold jstr
  rw [String.toList_ofList]
  induction cs with
  | nil => rfl
  | cons c cs ih =>
      have hc : c.toNat < 0x10000 := Nat.lt_trans h.head (by decide)
      rw [List.flatMap_cons, if_pos hc, ih h.tail]
      rfl

theorem newString_asBytes (s : String) : newString (asBytes s) = jstr s :=
  congrArg jstr (fromUtf8Lossy_asBytes s)

/-- A string whose bytes are ASCII, other than the replacement `?`, is that text. -/
theorem units_of_decodeUtf16 {s : JString} {cs : List Char} (h : Ascii cs) (hq : '?' ∉ cs)
    (hs : decodeUtf16 s = cs) : s = cs.map charUnit := by
  have hunit : ∀ {u : UInt16} {c : Char}, c.toNat < 128 → '?' ≠ c → decodeUnit u = c →
      u = charUnit c := by
    intro u c hc hne hu
    unfold decodeUnit at hu
    split_ifs at hu with hsurrogate
    · exact absurd hu hne
    · have hvalid : u.toNat.isValidChar := by
        have := u.toNat_lt
        simp only [isHighSurrogate, isLowSurrogate, Bool.or_eq_true, Bool.and_eq_true,
          decide_eq_true_eq, not_or, not_and] at hsurrogate
        unfold Nat.isValidChar
        omega
      rw [← hu, charUnit, toNat_ofNat hvalid]
      exact (UInt16.ofNat_toNat).symm
  induction s using decodeUtf16.induct generalizing cs with
  | case1 =>
      subst hs
      rfl
  | case2 u =>
      subst hs
      rw [decodeUtf16] at h hq ⊢
      rw [List.map_singleton, ← hunit h.head (fun he => hq (he ▸ List.mem_cons_self)) rfl]
  | case3 u v rest hpair ih =>
      -- A surrogate pair is not ASCII.
      exfalso
      subst hs
      rw [decodeUtf16, if_pos hpair] at h
      have hhead := h.head
      simp only [isHighSurrogate, isLowSurrogate, Bool.and_eq_true, decide_eq_true_eq] at hpair
      rw [toNat_ofNat (by unfold Nat.isValidChar; omega)] at hhead
      omega
  | case4 u v rest hpair ih =>
      subst hs
      rw [decodeUtf16, if_neg hpair] at h hq ⊢
      rw [List.map_cons, ← hunit h.head (fun he => hq (he ▸ List.mem_cons_self)) rfl,
        ← ih h.tail (fun he => hq (List.mem_cons_of_mem _ he)) rfl]

/-- A character of one unit is no surrogate. -/
theorem not_surrogate_ofNat {n : Nat} (h : n < 0x10000) (hvalid : n.isValidChar) :
    isHighSurrogate (UInt16.ofNat n) = false ∧ isLowSurrogate (UInt16.ofNat n) = false := by
  apply not_surrogate
  rw [UInt16.toNat_ofNat_of_lt' h]
  unfold Nat.isValidChar at hvalid
  omega

/-- A supplementary character is a pair. -/
theorem supplementary_units {c : Char} (hc : ¬ c.toNat < 0x10000) :
    (UInt16.ofNat (0xD800 + (c.toNat - 0x10000) / 1024)).toNat =
        0xD800 + (c.toNat - 0x10000) / 1024 ∧
      (UInt16.ofNat (0xDC00 + (c.toNat - 0x10000) % 1024)).toNat =
        0xDC00 + (c.toNat - 0x10000) % 1024 ∧
      isHighSurrogate (UInt16.ofNat (0xD800 + (c.toNat - 0x10000) / 1024)) = true ∧
      isLowSurrogate (UInt16.ofNat (0xDC00 + (c.toNat - 0x10000) % 1024)) = true := by
  have hbound : c.toNat < 0x110000 := by
    have hvalid : c.toNat.isValidChar := c.valid
    unfold Nat.isValidChar at hvalid
    omega
  have hhi : (UInt16.ofNat (0xD800 + (c.toNat - 0x10000) / 1024)).toNat =
      0xD800 + (c.toNat - 0x10000) / 1024 :=
    UInt16.toNat_ofNat_of_lt' (show _ < 65536 by omega)
  have hlo : (UInt16.ofNat (0xDC00 + (c.toNat - 0x10000) % 1024)).toNat =
      0xDC00 + (c.toNat - 0x10000) % 1024 :=
    UInt16.toNat_ofNat_of_lt' (show _ < 65536 by omega)
  refine ⟨hhi, hlo, ?_, ?_⟩
  · simp only [isHighSurrogate, hhi, Bool.and_eq_true, decide_eq_true_eq]
    omega
  · simp only [isLowSurrogate, hlo, Bool.and_eq_true, decide_eq_true_eq]
    omega

theorem decodeUnit_ofNat {n : Nat} (h : n < 0x10000) (hvalid : n.isValidChar) :
    isHighSurrogate (UInt16.ofNat n) = false ∧ decodeUnit (UInt16.ofNat n) = Char.ofNat n := by
  have hn : (UInt16.ofNat n).toNat = n := UInt16.toNat_ofNat_of_lt' h
  obtain ⟨hhigh, hlow⟩ := not_surrogate_ofNat h hvalid
  refine ⟨hhigh, ?_⟩
  unfold decodeUnit
  rw [hhigh, hlow, hn]
  rfl

/-- A Lean string has no unpaired surrogate, so nothing is replaced. -/
theorem decodeUtf16_jstr (cs : List Char) : decodeUtf16 (jstr (String.ofList cs)) = cs := by
  have hcons : ∀ {u : UInt16} (rest : JString), isHighSurrogate u = false →
      decodeUtf16 (u :: rest) = decodeUnit u :: decodeUtf16 rest := by
    intro u rest hu
    cases rest with
    | nil => rfl
    | cons v rest => rw [decodeUtf16, hu, Bool.false_and, if_neg Bool.false_ne_true]
  induction cs with
  | nil => rfl
  | cons c cs ih =>
      have hvalid : c.toNat.isValidChar := c.valid
      unfold jstr at ih ⊢
      rw [String.toList_ofList] at ih ⊢
      rw [List.flatMap_cons]
      split_ifs with hc
      · obtain ⟨hhigh, hunit⟩ := decodeUnit_ofNat hc hvalid
        rw [List.singleton_append, hcons _ hhigh, hunit, ih, Char.ofNat_toNat]
      · -- A surrogate pair.
        obtain ⟨hhi, hlo, hhigh, hlow⟩ := supplementary_units hc
        have hpair : (isHighSurrogate (UInt16.ofNat (0xD800 + (c.toNat - 0x10000) / 1024)) &&
            isLowSurrogate (UInt16.ofNat (0xDC00 + (c.toNat - 0x10000) % 1024))) = true := by
          rw [hhigh, hlow]
          rfl
        have hcode : 0x10000 + (0xD800 + (c.toNat - 0x10000) / 1024 - 0xD800) * 1024 +
            (0xDC00 + (c.toNat - 0x10000) % 1024 - 0xDC00) = c.toNat := by
          omega
        show decodeUtf16 (_ :: _ :: _) = _
        rw [decodeUtf16, if_pos hpair, hhi, hlo, hcode, Char.ofNat_toNat]
        exact congrArg (c :: ·) ih

theorem getBytes_jstr (s : String) : getBytes (jstr s) = asBytes s := by
  have htext := decodeUtf16_jstr s.toList
  rw [String.ofList_toList] at htext
  unfold getBytes
  rw [htext, String.ofList_toList]

theorem getBytes_ascii {cs : List Char} (h : Ascii cs) :
    getBytes (cs.map charUnit) = asBytes (String.ofList cs) := by
  rw [← jstr_ascii h, getBytes_jstr]

/-- ASCII text without `?` is determined by its bytes. -/
theorem eq_of_getBytes {s : JString} {cs : List Char} (h : Ascii cs) (hq : '?' ∉ cs)
    (hs : getBytes s = getBytes (cs.map charUnit)) : s = cs.map charUnit := by
  rw [getBytes_ascii h] at hs
  exact units_of_decodeUtf16 h hq (String.ofList_injective (asBytes_injective hs))

theorem base64UrlValue_charUnit {n : Nat} (h : n < 64) :
    base64UrlValue (charUnit (base64UrlChar n)) = some n := by
  have hall : ∀ n < 64, base64UrlValue (charUnit (base64UrlChar n)) = some n := by decide
  exact hall n h

theorem base64UrlChar_ascii {n : Nat} (h : n < 64) :
    (base64UrlChar n).toNat < 128 ∧ base64UrlChar n ∉ ['.', '=', '?'] := by
  have hall : ∀ n < 64, (base64UrlChar n).toNat < 128 ∧ base64UrlChar n ∉ ['.', '=', '?'] := by
    decide
  exact hall n h

theorem base64Url_chars (bs : Bytes) : ∀ c ∈ base64Url bs, ∃ n < 64, c = base64UrlChar n := by
  have hlow : ∀ n, ∃ m < 64, base64UrlChar (n % 64) = base64UrlChar m :=
    fun n => ⟨n % 64, Nat.mod_lt _ (by decide), rfl⟩
  have hhigh : ∀ {n : Nat}, n < 64 → ∃ m < 64, base64UrlChar n = base64UrlChar m :=
    fun h => ⟨_, h, rfl⟩
  fun_induction base64Url bs with
  | case1 => exact nofun
  | case2 a =>
      have := a.toNat_lt
      simp only [List.forall_mem_cons]
      exact ⟨hhigh (by omega), hlow _, nofun⟩
  | case3 a b =>
      have := a.toNat_lt
      have := b.toNat_lt
      simp only [List.forall_mem_cons]
      exact ⟨hhigh (by omega), hlow _, hlow _, nofun⟩
  | case4 a b c rest n ih =>
      have := a.toNat_lt
      have := b.toNat_lt
      have := c.toNat_lt
      simp only [List.forall_mem_cons]
      exact ⟨hhigh (by omega), hlow _, hlow _, hlow _, ih⟩

theorem ascii_base64Url (bs : Bytes) : Ascii (base64Url bs) := by
  intro c hc
  obtain ⟨n, hn, rfl⟩ := base64Url_chars bs c hc
  exact (base64UrlChar_ascii hn).1

/-- Base64url text has no `.`, no padding and no `?`. -/
theorem not_mem_base64Url {bs : Bytes} {c : Char} (hc : c ∈ ['.', '=', '?']) :
    c ∉ base64Url bs := by
  intro hmem
  obtain ⟨n, hn, rfl⟩ := base64Url_chars bs c hmem
  exact (base64UrlChar_ascii hn).2 hc

theorem byte_of_mod {n : Nat} {b : UInt8} (h : n % 256 = b.toNat) : UInt8.ofNat n = b := by
  apply UInt8.toNat_inj.mp
  rw [UInt8.toNat_ofNat']
  exact h

/-- **Base64url.** What was encoded is decoded. -/
theorem base64UrlDecode_base64Url (bs : Bytes) :
    base64UrlDecode ((base64Url bs).map charUnit) = some bs := by
  have hlow : ∀ n, base64UrlValue (charUnit (base64UrlChar (n % 64))) = some (n % 64) :=
    fun n => base64UrlValue_charUnit (Nat.mod_lt _ (by decide))
  fun_induction base64Url bs with
  | case1 => rfl
  | case2 a n =>
      have ha := a.toNat_lt
      show decodeTwo _ _ = _
      unfold decodeTwo
      rw [base64UrlValue_charUnit (by omega), hlow]
      show some [UInt8.ofNat ((n / 64 * 64 + n % 64) / 16)] = _
      rw [byte_of_mod (b := a) (by omega)]
  | case3 a b n =>
      have ha := a.toNat_lt
      have hb := b.toNat_lt
      show decodeThree _ _ _ = _
      unfold decodeThree
      rw [base64UrlValue_charUnit (by omega), hlow, hlow]
      have hn : (n / 4096 * 64 + n / 64 % 64) * 64 + n % 64 = n := by omega
      show some [UInt8.ofNat (((n / 4096 * 64 + n / 64 % 64) * 64 + n % 64) / 1024),
        UInt8.ofNat (((n / 4096 * 64 + n / 64 % 64) * 64 + n % 64) / 4)] = _
      rw [hn, byte_of_mod (b := a) (by omega), byte_of_mod (b := b) (by omega)]
  | case4 a b c rest n ih =>
      have ha := a.toNat_lt
      have hb := b.toNat_lt
      have hc := c.toNat_lt
      -- the last of the four is no padding, so the decoder reads a full group
      have hpad : charUnit (base64UrlChar (n % 64)) ≠ 61 := by
        intro h
        have hvalue := hlow n
        rw [h] at hvalue
        cases hvalue
      have hfour : decodeFour (charUnit (base64UrlChar (n / 262144)))
          (charUnit (base64UrlChar (n / 4096 % 64))) (charUnit (base64UrlChar (n / 64 % 64)))
          (charUnit (base64UrlChar (n % 64))) = some [a, b, c] := by
        have hn : ((n / 262144 * 64 + n / 4096 % 64) * 64 + n / 64 % 64) * 64 + n % 64 = n := by
          omega
        unfold decodeFour
        rw [base64UrlValue_charUnit (by omega), hlow, hlow, hlow]
        show some [UInt8.ofNat ((((n / 262144 * 64 + n / 4096 % 64) * 64 + n / 64 % 64) * 64 +
            n % 64) / 65536), UInt8.ofNat ((((n / 262144 * 64 + n / 4096 % 64) * 64 +
            n / 64 % 64) * 64 + n % 64) / 256), UInt8.ofNat (((n / 262144 * 64 + n / 4096 % 64) * 64 +
            n / 64 % 64) * 64 + n % 64)] = _
        rw [hn, byte_of_mod (b := a) (by omega), byte_of_mod (b := b) (by omega),
          byte_of_mod (b := c) (by omega)]
      simp only [List.map_cons]
      rw [base64UrlDecode, if_neg (fun h => hpad h.1), hfour, ih]
      rfl

/-! ## Decimal text -/

theorem digitValue_charUnit {c : Char} (h : c.isDigit = true) :
    digitValue (charUnit c) = some (c.toNat - 48) := by
  have hall : ∀ n < 58, 48 ≤ n → digitValue (UInt16.ofNat n) = some (n - 48) := by decide
  simp only [Char.isDigit, Bool.and_eq_true, decide_eq_true_eq, ge_iff_le,
    UInt32.le_iff_toNat_le] at h
  exact hall c.toNat (Nat.lt_succ_of_le h.2) h.1

theorem ascii_of_isDigit {cs : List Char} (h : ∀ c ∈ cs, c.isDigit = true) : Ascii cs := by
  intro c hc
  have hdigit := h c hc
  simp only [Char.isDigit, Bool.and_eq_true, decide_eq_true_eq, ge_iff_le,
    UInt32.le_iff_toNat_le] at hdigit
  exact Nat.lt_of_le_of_lt hdigit.2 (by decide)

theorem isDigit_toDigits (n : Nat) : ∀ c ∈ Nat.toDigits 10 n, c.isDigit = true :=
  fun _ hc => Nat.isDigit_of_mem_toDigits (by decide) (by decide) hc

theorem jstr_repr (n : Nat) : jstr n.repr = (Nat.toDigits 10 n).map charUnit := by
  rw [Nat.repr_eq_ofList_toDigits]
  exact jstr_ascii (ascii_of_isDigit (isDigit_toDigits n))

theorem isDigit_of_mem_repr {n : Nat} {u : UInt16} (h : u ∈ jstr n.repr) : isDigit u = true := by
  rw [jstr_repr] at h
  obtain ⟨c, hc, rfl⟩ := List.mem_map.mp h
  unfold isDigit
  rw [digitValue_charUnit (isDigit_toDigits n c hc)]
  rfl

/-- A run of digits ends where the digits end. -/
theorem takeWhile_isDigit (n : Nat) {u : UInt16} (hu : isDigit u = false) (rest : JString) :
    (jstr n.repr ++ u :: rest).takeWhile isDigit = jstr n.repr := by
  rw [List.takeWhile_append_of_pos fun _ => isDigit_of_mem_repr,
    List.takeWhile_cons_of_neg (by simp [hu]), List.append_nil]

/-- **Decimal text.** What was printed is parsed. -/
theorem parseLong_repr {n : Nat} (h : n ≤ bigintMax) : parseLong (jstr n.repr) = some n := by
  have hvalues : ∀ {cs : List Char}, (∀ c ∈ cs, c.isDigit = true) →
      (cs.map charUnit).mapM digitValue = some (cs.map fun c => c.toNat - 48) := by
    intro cs hcs
    induction cs with
    | nil => rfl
    | cons c cs ih =>
        rw [List.map_cons, List.mapM_cons, digitValue_charUnit (hcs c List.mem_cons_self),
          ih fun d hd => hcs d (List.mem_cons_of_mem _ hd)]
        rfl
  have hfold : ((Nat.toDigits 10 n).map fun c => c.toNat - 48).foldl
      (fun n value => 10 * n + value) 0 = n := by
    rw [List.foldl_map]
    exact Nat.ofDigitChars_ten_toDigits
  unfold parseLong
  rw [jstr_repr, hvalues (isDigit_toDigits n)]
  show (if _ ≠ [] ∧ _ ≤ bigintMax then _ else none) = _
  rw [hfold, if_pos ⟨by simp [Nat.toDigits_ne_nil], h⟩]

end McpGateway.Gateway
