import Mathlib.Data.Set.Defs
import McpGateway.Foundation.Separator
import McpGateway.Foundation.Substring
import McpGateway.Gateway.JavaText
import McpGateway.OAuth.Tokens

/-! # `JwtTokenService.validate`

The service on Java strings, for a secret and the HMAC-SHA256 of the JDK.

* `validate_of_bears` — a token that was issued is read back.
* `validate_sound_complete` — with an ideal MAC, nothing else is accepted. -/

namespace McpGateway.OAuth

open Foundation Gateway

/-! ## Reading the claims -/

/-- Where the value after `needle` begins; `indexOf` is -1 without an occurrence. -/
def valueStart (json needle : JString) : Nat :=
  match indexOf? needle json with
  | some i => i + needle.length
  | none => needle.length - 1

/-- `extractString`, which throws when no quote follows. -/
def extractString (json : JString) (field : String) : Option JString :=
  let value := json.drop (valueStart json (jstr ("\"" ++ field ++ "\":\"")))
  if value.contains 34 then some (value.takeWhile (· ≠ 34)) else none

/-- `extractLong`. -/
def extractLong (json : JString) (field : String) : Option Nat :=
  parseLong ((json.drop (valueStart json (jstr ("\"" ++ field ++ "\":")))).takeWhile isDigit)

/-- `AccessRole.valueOf`. -/
def roleOf (name : JString) : Option AccessRole :=
  [AccessRole.readOnly, .admin].find? fun role => jstr role.name = name

structure JwtClaims where
  keyHash : JString
  role : AccessRole
  deriving DecidableEq

section Service

variable (hmacSha256 : Bytes → Bytes → Bytes) (secret : Bytes)

/-- `hmacSha256`; an empty secret is not a key. -/
def mac (message : Bytes) : Option Bytes :=
  if secret = [] then none else some (hmacSha256 secret message)

/-- `issue`, at a number of seconds. -/
def issue (keyHash : String) (role : AccessRole) (now : Nat) (jti : Uuid) : Option JString :=
  let signed := signing keyHash role now jti
  (mac hmacSha256 secret (getBytes signed)).map fun tag =>
    signed ++ jstr "." ++ jstr (String.ofList (base64Url tag))

/-- `token.split("\\.", -1)`. -/
def splitDots (token : JString) : List JString := token.splitOn 46

/-- The claims of a payload, while it has not expired. -/
def readClaims (payload : JString) (now : Nat) : Option JwtClaims := do
  let json := newString (← base64UrlDecode payload)
  let exp ← extractLong json "exp"
  if exp < now then none
  else some ⟨← extractString json "sub", ← (extractString json "role").bind roleOf⟩

/-- `validate`, at a number of seconds. -/
def validate (token : Option JString) (now : Nat) : Option JwtClaims :=
  match token with
  | none => none
  | some token =>
      if isBlank token then none
      else match splitDots token with
        | [header, payload, signature] => do
            let expectedSig ← mac hmacSha256 secret (getBytes (header ++ jstr "." ++ payload))
            let actualSig ← base64UrlDecode signature
            if expectedSig ≠ actualSig then none else readClaims payload now
        | _ => none

end Service

/-- With a secret, these are the tokens of the authorization server. -/
theorem issue_eq {hmacSha256 : Bytes → Bytes → Bytes} {secret : Bytes} (hsecret : secret ≠ [])
    (sha256 : Bytes → Bytes) (keyHash : String) (role : AccessRole) (now : Nat) (jti : Uuid) :
    issue hmacSha256 secret keyHash role (now / nanosPerSecond) jti =
      some (issueJwt (javaStrings sha256 (hmacSha256 secret)) keyHash role now jti) := by
  show (mac hmacSha256 secret (getBytes (signing _ _ _ _))).map _ = _
  unfold mac
  rw [if_neg hsecret]
  rfl

/-! ## Issued tokens -/

/-- The largest epoch second of an `Instant`. -/
def instantMax : Nat := 31556889864403199

/-- A call of `issue`, with a lowercase hexadecimal key hash. -/
structure Issuance where
  keyHash : String
  role : AccessRole
  issuedAt : Nat
  jti : Uuid
  isHex : ∀ c ∈ keyHash.toList, c ∈ "0123456789abcdef".toList
  inRange : issuedAt ≤ instantMax

namespace Issuance

variable (i : Issuance)

def signing : JString := OAuth.signing i.keyHash i.role i.issuedAt i.jti

def exp : Nat := i.issuedAt + tokenTtlSeconds

def claims : JwtClaims := ⟨jstr i.keyHash, i.role⟩

def json : String := payloadJson i.keyHash i.role i.issuedAt i.jti

/-- The payload of its token. -/
def payload : JString := (base64Url (asBytes i.json)).map charUnit

end Issuance

def header : JString := (base64Url (asBytes "\x7b\"alg\":\"HS256\",\"typ\":\"JWT\"\x7d")).map charUnit

theorem base64Url_text (bs : Bytes) :
    jstr (String.ofList (base64Url bs)) = (base64Url bs).map charUnit :=
  jstr_ascii (ascii_base64Url bs)

theorem dot_not_mem {bs : Bytes} : (46 : UInt16) ∉ (base64Url bs).map charUnit := by
  intro h
  obtain ⟨c, hc, hdot⟩ := List.mem_map.mp h
  have hcode : c.toNat = 46 := by
    rw [← charUnit_toNat (ascii_base64Url bs c hc), hdot]
    rfl
  have hchar : c = '.' := by
    rw [← Char.ofNat_toNat c, hcode]
  exact not_mem_base64Url (by simp) (hchar ▸ hc)

theorem signing_eq (i : Issuance) : i.signing = header ++ 46 :: i.payload := by
  show jstr (String.ofList (base64Url _)) ++ jstr "." ++ jstr (String.ofList (base64Url _)) = _
  rw [base64Url_text, base64Url_text, List.append_assoc]
  rfl

/-- What is signed is ASCII text without `?`. -/
theorem signing_chars (i : Issuance) : ∃ cs, Ascii cs ∧ '?' ∉ cs ∧ i.signing = cs.map charUnit := by
  have hq : ∀ bs, '?' ∉ base64Url bs := fun bs => not_mem_base64Url (by simp)
  refine ⟨base64Url (asBytes "\x7b\"alg\":\"HS256\",\"typ\":\"JWT\"\x7d") ++
    '.' :: base64Url (asBytes i.json), ?_, ?_, ?_⟩
  · rw [ascii_append]
    refine ⟨ascii_base64Url _, fun c hc => ?_⟩
    rcases List.mem_cons.mp hc with rfl | hc
    · decide
    · exact ascii_base64Url _ c hc
  · simp [hq]
  · rw [signing_eq, List.map_append]
    rfl

/-! ### The payload -/

/-- The value starts after the name, when a letter of the name is new. -/
theorem drop_valueStart {a : UInt16} {needle before after : JString} (ha : a ∈ needle)
    (hbefore : a ∉ before) :
    (before ++ (needle ++ after)).drop (valueStart (before ++ (needle ++ after)) needle) = after := by
  unfold valueStart
  rw [indexOf?_of_fresh ha hbefore]
  show List.drop (before.length + _) _ = _
  rw [← List.drop_drop, List.drop_left, List.drop_left]

theorem extractString_eq {a : UInt16} {field : String} {needle before value after : JString}
    (hneedle : jstr ("\"" ++ field ++ "\":\"") = needle) (ha : a ∈ needle) (hbefore : a ∉ before)
    (hvalue : (34 : UInt16) ∉ value) :
    extractString (before ++ (needle ++ (value ++ 34 :: after))) field = some value := by
  have hquote : (value ++ 34 :: after).contains 34 = true :=
    List.contains_iff_mem.mpr (List.mem_append_right _ List.mem_cons_self)
  have hnot : ∀ u ∈ value, decide (u ≠ 34) = true := by
    intro u hu
    exact decide_eq_true fun h => hvalue (h ▸ hu)
  unfold extractString
  rw [hneedle, drop_valueStart ha hbefore]
  show (if (value ++ 34 :: after).contains 34 = true then _ else none) = _
  rw [if_pos hquote, List.takeWhile_append_of_pos hnot, List.takeWhile_cons_of_neg (by simp),
    List.append_nil]

theorem extractLong_eq {a : UInt16} {field : String} {needle before after : JString} {n : Nat}
    (hneedle : jstr ("\"" ++ field ++ "\":") = needle) (ha : a ∈ needle) (hbefore : a ∉ before)
    (hn : n ≤ bigintMax) :
    extractLong (before ++ (needle ++ (jstr n.repr ++ 44 :: after))) field = some n := by
  unfold extractLong
  rw [hneedle, drop_valueStart ha hbefore, takeWhile_isDigit n (by decide), parseLong_repr hn]

theorem mem_hex (i : Issuance) {u : UInt16} (h : u ∈ jstr i.keyHash) :
    u ∈ jstr "0123456789abcdef" := by
  obtain ⟨c, hc, hu⟩ := List.mem_flatMap.mp h
  exact List.mem_flatMap.mpr ⟨c, i.isHex c hc, hu⟩

theorem not_mem_role (role : AccessRole) {u : UInt16} (hu : u ∉ jstr "READ_ONLYADMIN") :
    u ∉ jstr role.name := by
  have hsub : ((jstr role.name).all fun u => u ∈ jstr "READ_ONLYADMIN") = true := by
    cases role <;> decide
  exact fun h => hu (of_decide_eq_true (List.all_eq_true.mp hsub u h))

theorem exp_le (i : Issuance) : i.exp ≤ bigintMax := by
  have hle := i.inRange
  unfold Issuance.exp
  have hmax : instantMax + tokenTtlSeconds ≤ bigintMax := by decide
  omega

theorem roleOf_name (role : AccessRole) : roleOf (jstr role.name) = some role := by
  cases role <;> decide

theorem not_mem_keyHash (i : Issuance) {u : UInt16} (hu : u ∉ jstr "0123456789abcdef") :
    u ∉ jstr i.keyHash :=
  fun h => hu (mem_hex i h)

/-- The text before the value of `role`. -/
def beforeRole (i : Issuance) : JString := jstr "\x7b\"sub\":\"" ++ (jstr i.keyHash ++ jstr "\",")

/-- The text before the value of `exp`. -/
def beforeExp (i : Issuance) : JString :=
  jstr "\x7b\"sub\":\"" ++ (jstr i.keyHash ++ (jstr "\",\"role\":\"" ++ (jstr i.role.name ++
    (jstr "\",\"iat\":" ++ (jstr i.issuedAt.repr ++ jstr ",")))))

theorem json_units (i : Issuance) : jstr i.json = jstr "\x7b\"sub\":\"" ++ (jstr i.keyHash ++
    (jstr "\",\"role\":\"" ++ (jstr i.role.name ++ (jstr "\",\"iat\":" ++ (jstr i.issuedAt.repr ++
      (jstr ",\"exp\":" ++ (jstr i.exp.repr ++ (jstr ",\"jti\":\"" ++ (jstr i.jti.toText ++
        jstr "\"\x7d"))))))))) := by
  unfold Issuance.json payloadJson Issuance.exp
  simp only [jstr_append, List.append_assoc]

theorem json_sub (i : Issuance) : ∃ rest, jstr i.json =
    jstr "\x7b" ++ (jstr "\"sub\":\"" ++ (jstr i.keyHash ++ 34 :: rest)) := by
  have hsub : jstr "\x7b\"sub\":\"" = jstr "\x7b" ++ jstr "\"sub\":\"" := by decide
  have hrole : jstr "\",\"role\":\"" = 34 :: jstr ",\"role\":\"" := by decide
  rw [json_units, hsub, hrole, List.append_assoc, List.cons_append]
  exact ⟨_, rfl⟩

theorem json_role (i : Issuance) : ∃ rest, jstr i.json =
    beforeRole i ++ (jstr "\"role\":\"" ++ (jstr i.role.name ++ 34 :: rest)) := by
  have hrole : jstr "\",\"role\":\"" = jstr "\"," ++ jstr "\"role\":\"" := by decide
  have hiat : jstr "\",\"iat\":" = 34 :: jstr ",\"iat\":" := by decide
  rw [json_units, hrole, hiat, List.cons_append]
  unfold beforeRole
  simp only [List.append_assoc]
  exact ⟨_, rfl⟩

theorem json_exp (i : Issuance) : ∃ rest, jstr i.json =
    beforeExp i ++ (jstr "\"exp\":" ++ (jstr i.exp.repr ++ 44 :: rest)) := by
  have hexp : jstr ",\"exp\":" = jstr "," ++ jstr "\"exp\":" := by decide
  have hjti : jstr ",\"jti\":\"" = 44 :: jstr "\"jti\":\"" := by decide
  rw [json_units, hexp, hjti, List.cons_append]
  unfold beforeExp
  simp only [List.append_assoc]
  exact ⟨_, rfl⟩

theorem extractString_sub (i : Issuance) :
    extractString (jstr i.json) "sub" = some (jstr i.keyHash) := by
  obtain ⟨rest, hjson⟩ := json_sub i
  rw [hjson]
  exact extractString_eq (a := 115) (by decide) (by decide) (by decide)
    (not_mem_keyHash i (by decide))

theorem extractString_role (i : Issuance) :
    extractString (jstr i.json) "role" = some (jstr i.role.name) := by
  obtain ⟨rest, hjson⟩ := json_role i
  have hbefore : (114 : UInt16) ∉ beforeRole i := by
    simp only [beforeRole, List.mem_append, not_or]
    exact ⟨by decide, not_mem_keyHash i (by decide), by decide⟩
  rw [hjson]
  exact extractString_eq (by decide) (by decide) hbefore (not_mem_role _ (by decide))

theorem extractLong_exp (i : Issuance) : extractLong (jstr i.json) "exp" = some i.exp := by
  obtain ⟨rest, hjson⟩ := json_exp i
  have hrepr : (120 : UInt16) ∉ jstr i.issuedAt.repr :=
    fun h => absurd (isDigit_of_mem_repr h) (by decide)
  have hbefore : (120 : UInt16) ∉ beforeExp i := by
    simp only [beforeExp, List.mem_append, not_or]
    exact ⟨by decide, not_mem_keyHash i (by decide), by decide, not_mem_role _ (by decide),
      by decide, hrepr, by decide⟩
  rw [hjson]
  exact extractLong_eq (by decide) (by decide) hbefore (exp_le i)

theorem readClaims_eq {payload keyHash name : JString} {content : Bytes} {exp : Nat}
    {role : AccessRole} (hcontent : base64UrlDecode payload = some content)
    (hexp : extractLong (newString content) "exp" = some exp)
    (hsub : extractString (newString content) "sub" = some keyHash)
    (hname : extractString (newString content) "role" = some name) (hrole : roleOf name = some role)
    (now : Nat) : readClaims payload now = if exp < now then none else some ⟨keyHash, role⟩ := by
  simp [readClaims, hcontent, hexp, hsub, hname, hrole]

/-- **Claims.** They are read back while the token lives. -/
theorem readClaims_payload (i : Issuance) (now : Nat) :
    readClaims i.payload now = if i.exp < now then none else some i.claims := by
  have hjson : newString (asBytes i.json) = jstr i.json := newString_asBytes _
  refine readClaims_eq (base64UrlDecode_base64Url (asBytes i.json)) ?_ ?_ ?_ (roleOf_name i.role) now
  · rw [hjson]
    exact extractLong_exp i
  · rw [hjson]
    exact extractString_sub i
  · rw [hjson]
    exact extractString_role i

/-! ### The parts -/

theorem splitDots_three {a b c : JString} (ha : (46 : UInt16) ∉ a) (hb : (46 : UInt16) ∉ b)
    (hc : (46 : UInt16) ∉ c) : splitDots (a ++ 46 :: (b ++ 46 :: c)) = [a, b, c] := by
  unfold splitDots
  rw [List.splitOn_append_cons_self_of_not_mem ha, List.splitOn_append_cons_self_of_not_mem hb,
    List.splitOn_eq_singleton hc]

theorem eq_of_splitDots {t a b c : JString} (h : splitDots t = [a, b, c]) :
    t = a ++ 46 :: (b ++ 46 :: c) := by
  have hjoin : [46].intercalate (t.splitOn 46) = t := List.intercalate_splitOn 46
  unfold splitDots at h
  rw [h] at hjoin
  rw [← hjoin]
  simp [List.intercalate]

/-! ## Soundness and completeness -/

/-- What `deriveClientSecret` authenticates, for a client id that was drawn. -/
def clientSecretMessage (clientId : Uuid) : Bytes :=
  getBytes (jstr "client-secret:" ++ jstr clientId.toText)

/-- What was authenticated under the secret. -/
def signedMessages (issued : Set Issuance) (clients : Set Uuid) : Set Bytes :=
  {m | (∃ i ∈ issued, m = getBytes i.signing) ∨ ∃ id ∈ clients, m = clientSecretMessage id}

section Soundness

variable (hmacSha256 : Bytes → Bytes → Bytes) (secret : Bytes)

/-- The ideal MAC: a string that is presented holds no MACs but those of signed messages. -/
def IdealMac (signed : Set Bytes) (t : JString) : Prop :=
  ∀ part ∈ splitDots t, ∀ m tag, mac hmacSha256 secret m = some tag →
    base64UrlDecode part = some tag → m ∈ signed

/-- The token of a call. -/
def Issuance.token (i : Issuance) : Option JString :=
  issue hmacSha256 secret i.keyHash i.role i.issuedAt i.jti

/-- The string has the first two parts of the token issued, and its MAC. -/
def Bears (t : JString) (i : Issuance) : Prop :=
  ∃ token header payload own signature, i.token hmacSha256 secret = some token ∧
    splitDots token = [header, payload, own] ∧ splitDots t = [header, payload, signature] ∧
      base64UrlDecode signature = mac hmacSha256 secret (getBytes i.signing)

variable {hmacSha256 secret}

theorem token_eq_some {i : Issuance} {token : JString} (h : i.token hmacSha256 secret = some token) :
    ∃ tag, mac hmacSha256 secret (getBytes i.signing) = some tag ∧
      splitDots token = [header, i.payload, (base64Url tag).map charUnit] := by
  obtain ⟨tag, htag, rfl⟩ := Option.map_eq_some_iff.mp h
  refine ⟨tag, htag, ?_⟩
  have hsigned : OAuth.signing i.keyHash i.role i.issuedAt i.jti = header ++ 46 :: i.payload :=
    signing_eq i
  rw [hsigned, base64Url_text, List.append_assoc, List.append_assoc]
  exact splitDots_three dot_not_mem dot_not_mem dot_not_mem

theorem token_of_mac {i : Issuance} {tag : Bytes}
    (h : mac hmacSha256 secret (getBytes i.signing) = some tag) :
    ∃ token, i.token hmacSha256 secret = some token :=
  ⟨_, Option.map_eq_some_iff.mpr ⟨tag, h, rfl⟩⟩

/-- `validate` on a string of three parts. -/
theorem validate_three {t header payload signature : JString} {tag : Bytes}
    (ht : splitDots t = [header, payload, signature])
    (htag : mac hmacSha256 secret (getBytes (header ++ jstr "." ++ payload)) = some tag)
    (hsignature : base64UrlDecode signature = some tag) (now : Nat) :
    validate hmacSha256 secret (some t) now = readClaims payload now := by
  have hblank : isBlank t = false := by
    rw [eq_of_splitDots ht]
    unfold isBlank
    rw [List.all_append, List.all_cons]
    have hdot : isWhitespaceUnit 46 = false := by decide
    rw [hdot, Bool.false_and, Bool.and_false]
  unfold validate
  simp only [hblank, ht]
  simp only [htag, hsignature]
  simp

/-- **Completeness.** A token that was issued is read back while it lives, from any string that
bears it. -/
theorem validate_of_bears {t : JString} {i : Issuance} (h : Bears hmacSha256 secret t i)
    (now : Nat) : validate hmacSha256 secret (some t) now =
      if i.exp < now then none else some i.claims := by
  obtain ⟨token, header', payload, own, signature, htoken, hown, ht, hsignature⟩ := h
  obtain ⟨tag, htag, hparts⟩ := token_eq_some htoken
  rw [hown] at hparts
  cases hparts
  rw [htag] at hsignature
  have hmessage : header ++ jstr "." ++ i.payload = i.signing := by
    rw [signing_eq, List.append_assoc]
    rfl
  rw [validate_three ht (by rw [hmessage, htag]) hsignature, readClaims_payload]

/-- A token of the authorization server is read back while it lives. -/
theorem validate_issueJwt (hsecret : secret ≠ []) (sha256 : Bytes → Bytes) (i : Issuance)
    {instant : Nat} (hissued : i.issuedAt = instant / nanosPerSecond) (now : Nat) :
    validate hmacSha256 secret (some (issueJwt (javaStrings sha256 (hmacSha256 secret)) i.keyHash
      i.role instant i.jti)) now = if i.exp < now then none else some i.claims := by
  have htoken : issue hmacSha256 secret i.keyHash i.role (instant / nanosPerSecond) i.jti = _ :=
    issue_eq hsecret sha256 i.keyHash i.role instant i.jti
  rw [← hissued] at htoken
  obtain ⟨tag, htag, hparts⟩ := token_eq_some htoken
  exact validate_of_bears ⟨_, _, _, _, _, htoken, hparts, hparts,
    (base64UrlDecode_base64Url tag).trans htag.symm⟩ now

theorem validate_eq_some {t : JString} {now : Nat} {claims : JwtClaims}
    (h : validate hmacSha256 secret (some t) now = some claims) :
    ∃ header payload signature tag, splitDots t = [header, payload, signature] ∧
      mac hmacSha256 secret (getBytes (header ++ jstr "." ++ payload)) = some tag ∧
        base64UrlDecode signature = some tag := by
  simp only [validate] at h
  split_ifs at h
  split at h
  · next header payload signature hparts =>
      obtain ⟨tag, htag, h⟩ := Option.bind_eq_some_iff.mp h
      obtain ⟨actual, hactual, h⟩ := Option.bind_eq_some_iff.mp h
      split_ifs at h with hequal
      exact ⟨header, payload, signature, tag, hparts, htag, by rw [hactual, not_not.mp hequal]⟩
  · cases h

/-- The text a client secret authenticates is ASCII, without a dot. -/
theorem clientSecret_chars (clientId : Uuid) : ∃ cs, Ascii cs ∧ '?' ∉ cs ∧
    (46 : UInt16) ∉ cs.map charUnit ∧ clientSecretMessage clientId = getBytes (cs.map charUnit) := by
  have hchar : ∀ c ∈ "client-secret:".toList ++ clientId.toText.toList,
      c.toNat < 128 ∧ c ≠ '?' ∧ charUnit c ≠ 46 := by
    intro c hc
    rcases List.mem_append.mp hc with hc | hc
    · have hall : ("client-secret:".toList.all fun c =>
          c.toNat < 128 && c ≠ '?' && charUnit c ≠ 46) = true := by decide
      simpa [and_assoc] using List.all_eq_true.mp hall c hc
    · have hall : ∀ d : Fin 16, (Uuid.hexChar d).toNat < 128 ∧ Uuid.hexChar d ≠ '?' ∧
          charUnit (Uuid.hexChar d) ≠ 46 := by decide
      rcases Uuid.mem_toText hc with rfl | ⟨d, rfl⟩
      · decide
      · exact hall d
  have hascii : Ascii ("client-secret:".toList ++ clientId.toText.toList) :=
    fun c hc => (hchar c hc).1
  refine ⟨_, hascii, fun h => (hchar _ h).2.1 rfl, ?_, ?_⟩
  · intro h
    obtain ⟨c, hc, hdot⟩ := List.mem_map.mp h
    exact (hchar c hc).2.2 hdot
  · unfold clientSecretMessage
    rw [← jstr_append, ← jstr_ascii hascii, ← String.toList_append, String.ofList_toList]

/-- A message that was signed and has a dot is the signed part of a token. -/
theorem eq_signing_of_signed {issued : Set Issuance} {clients : Set Uuid} {a b : JString}
    (h : getBytes (a ++ jstr "." ++ b) ∈ signedMessages issued clients) :
    ∃ i ∈ issued, a = header ∧ b = i.payload := by
  have htext : a ++ jstr "." ++ b = a ++ 46 :: b := by
    rw [List.append_assoc]
    rfl
  rw [htext] at h
  rcases h with ⟨i, hi, hbytes⟩ | ⟨id, -, hbytes⟩
  · obtain ⟨cs, hascii, hq, hcs⟩ := signing_chars i
    rw [hcs] at hbytes
    have hsigned := eq_of_getBytes hascii hq hbytes
    rw [← hcs, signing_eq] at hsigned
    -- The signed part has one dot, so what precedes it has none.
    have hdot : (46 : UInt16) ∉ a := by
      have hcount := congrArg (List.count 46) hsigned
      have hheader : header.count 46 = 0 := List.count_eq_zero.mpr dot_not_mem
      have hpayload : i.payload.count 46 = 0 := List.count_eq_zero.mpr dot_not_mem
      rw [List.count_append, List.count_append, List.count_cons_self, List.count_cons_self,
        hheader, hpayload] at hcount
      exact List.count_eq_zero.mp (by omega)
    obtain ⟨ha, hb⟩ := append_cons_inj hdot dot_not_mem hsigned
    exact ⟨i, hi, ha, hb⟩
  · obtain ⟨cs, hascii, hq, hdot, hcs⟩ := clientSecret_chars id
    rw [hcs] at hbytes
    have hsecret := eq_of_getBytes hascii hq hbytes
    rw [← hsecret] at hdot
    exact absurd (List.mem_append_right _ List.mem_cons_self) hdot

/-- **Soundness.** With the ideal MAC, a string that is accepted bears a token that was issued. -/
theorem bears_of_validate {issued : Set Issuance} {clients : Set Uuid} {t : JString} {now : Nat}
    {claims : JwtClaims} (hideal : IdealMac hmacSha256 secret (signedMessages issued clients) t)
    (h : validate hmacSha256 secret (some t) now = some claims) :
    ∃ i ∈ issued, Bears hmacSha256 secret t i := by
  obtain ⟨a, b, signature, tag, ht, htag, hsignature⟩ := validate_eq_some h
  have hsigned := hideal signature (by simp [ht]) _ tag htag hsignature
  obtain ⟨i, hi, rfl, rfl⟩ := eq_signing_of_signed hsigned
  have hmessage : header ++ jstr "." ++ i.payload = i.signing := by
    rw [signing_eq, List.append_assoc]
    rfl
  rw [hmessage] at htag
  obtain ⟨token, htoken⟩ := token_of_mac htag
  obtain ⟨tag', -, hparts⟩ := token_eq_some htoken
  exact ⟨i, hi, token, header, i.payload, _, signature, htoken, hparts, ht,
    hsignature.trans htag.symm⟩

/-- **Sound and complete.** A string is accepted exactly when it has the first two parts and the MAC
of a token that was issued and has not expired, and then the claims are those it was issued for. -/
theorem validate_sound_complete (issued : Set Issuance) (clients : Set Uuid) (t : JString)
    (hideal : IdealMac hmacSha256 secret (signedMessages issued clients) t) (now : Nat) :
    ((∃ claims, validate hmacSha256 secret (some t) now = some claims) ↔
      ∃ i ∈ issued, Bears hmacSha256 secret t i ∧ now ≤ i.exp) ∧
    ∀ claims, validate hmacSha256 secret (some t) now = some claims →
      ∀ i, Bears hmacSha256 secret t i → claims = i.claims := by
  refine ⟨⟨?_, ?_⟩, ?_⟩
  · rintro ⟨claims, h⟩
    obtain ⟨i, hi, hbears⟩ := bears_of_validate hideal h
    refine ⟨i, hi, hbears, ?_⟩
    rw [validate_of_bears hbears] at h
    split_ifs at h with hexpired
    exact Nat.not_lt.mp hexpired
  · rintro ⟨i, -, hbears, hlive⟩
    exact ⟨i.claims, (validate_of_bears hbears now).trans (if_neg (Nat.not_lt.mpr hlive))⟩
  · intro claims h i hbears
    rw [validate_of_bears hbears] at h
    split_ifs at h
    exact (Option.some.inj h).symm

end Soundness

/-! ## One token -/

def sampleSecret : Bytes := asBytes "test-jwt-secret-32-chars-minimum-00"

theorem sampleHash_isHex : ∀ c ∈ "abc123".toList, c ∈ "0123456789abcdef".toList := by
  have hall : ("abc123".toList.all fun c => c ∈ "0123456789abcdef".toList) = true := by decide
  exact fun c hc => of_decide_eq_true (List.all_eq_true.mp hall c hc)

def sampleIssuance : Issuance where
  keyHash := "abc123"
  role := .admin
  issuedAt := 1700000000
  jti := Uuid.ofDigit 7
  isHex := sampleHash_isHex
  inRange := by decide

/-- The HMAC-SHA256 of the signed part of the sample. -/
def sampleTag : Bytes :=
  [104, 183, 168, 253, 19, 179, 156, 32, 225, 164, 195, 254, 135, 0, 189, 125, 207, 143, 37, 193,
    72, 70, 133, 250, 13, 157, 138, 105, 8, 254, 150, 105]

/-- HMAC-SHA256 on the signed part of the sample under its secret; empty elsewhere. -/
def sampleHmac (key message : Bytes) : Bytes :=
  if key = sampleSecret ∧ message = getBytes sampleIssuance.signing then sampleTag else []

theorem mac_sample :
    mac sampleHmac sampleSecret (getBytes sampleIssuance.signing) = some sampleTag := by
  have hsecret : sampleSecret ≠ [] := by decide
  unfold mac
  rw [if_neg hsecret]
  exact congrArg some (if_pos ⟨rfl, rfl⟩)

/-- The sample is accepted in the last second of its life, for the role it was issued for. -/
theorem sample_accepted : ∃ token, sampleIssuance.token sampleHmac sampleSecret = some token ∧
    (∃ claims, validate sampleHmac sampleSecret (some token) 1700003600 = some claims) ∧
    ∀ claims, validate sampleHmac sampleSecret (some token) 1700003600 = some claims →
      claims = ⟨jstr "abc123", .admin⟩ := by
  obtain ⟨token, htoken⟩ := token_of_mac mac_sample
  obtain ⟨tag, htag, hparts⟩ := token_eq_some htoken
  rw [mac_sample, Option.some.injEq] at htag
  subst htag
  have hbears : Bears sampleHmac sampleSecret token sampleIssuance :=
    ⟨_, _, _, _, _, htoken, hparts, hparts, (base64UrlDecode_base64Url _).trans mac_sample.symm⟩
  have hideal : IdealMac sampleHmac sampleSecret
      (signedMessages {sampleIssuance} {Uuid.ofDigit 1}) token := by
    intro part hpart m tag hm hdecode
    by_cases hsigned : m = getBytes sampleIssuance.signing
    · exact Or.inl ⟨sampleIssuance, rfl, hsigned⟩
    · -- On another message the sample MAC is empty, and no part of the token is.
      have htag : mac sampleHmac sampleSecret m = some [] :=
        congrArg some (if_neg fun h => hsigned h.2)
      rw [htag] at hm
      cases hm
      have hcontent : ∀ bs : Bytes, bs ≠ [] →
          base64UrlDecode ((base64Url bs).map charUnit) ≠ some [] := by
        intro bs hbs h
        rw [base64UrlDecode_base64Url] at h
        exact hbs (Option.some.inj h)
      have hnone : ∀ part ∈ [header, sampleIssuance.payload, (base64Url sampleTag).map charUnit],
          base64UrlDecode part ≠ some [] := by
        simp only [List.forall_mem_cons]
        exact ⟨hcontent _ (by decide), hcontent _ (by decide +kernel), hcontent _ (by decide), nofun⟩
      exact absurd hdecode (hnone part (hparts ▸ hpart))
  have hsample := validate_sound_complete {sampleIssuance} {Uuid.ofDigit 1} token hideal 1700003600
  exact ⟨token, htoken, hsample.1.mpr ⟨sampleIssuance, rfl, hbears, Nat.le_refl _⟩,
    fun claims h => hsample.2 claims h sampleIssuance hbears⟩

end McpGateway.OAuth
