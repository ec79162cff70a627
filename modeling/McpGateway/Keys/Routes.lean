import McpGateway.Foundation.Transition
import McpGateway.Keys.ApiKeys
import McpGateway.OAuth.Controller
import McpGateway.OAuth.Jwt

/-! # Two routes to a key

`ApiKeyFilter` takes an API key, or a JWT that was obtained with one.

* `routes_agree` — at any moment of a run both authenticate as the same row of the cached list.
* `blank_key_differs` — unless the API key is blank. -/

namespace McpGateway.Keys

open Foundation Gateway OAuth

/-! ## `ApiKeyFilter` -/

/-- What `doFilterInternal` reads of a request. -/
structure FilterRequest where
  apiKeyHeader : Option JString
  apiKeyParameter : Option JString
  authorization : Option JString

inductive FilterOutcome where
  | authenticated (key : KeyRow)
  /-- The reason that is recorded and the message that is sent. -/
  | unauthorized (reason message : String)

/-- The principal of the request. -/
def FilterOutcome.key : FilterOutcome → Option KeyRow
  | .authenticated key => some key
  | .unauthorized _ _ => none

def notBlank (s : Option JString) : Option JString := s.filter fun s => !isBlank s

def bearerPrefix : JString := jstr "Bearer "

/-- The gateway: `mcp.hmac.pepper` and the HMAC, `mcp.oauth.jwt-secret`, and what the authorization
server is configured with. -/
structure Server where
  hasher : ApiKeyHasher
  jwtSecret : Bytes
  sha256 : Bytes → Bytes
  issuer : JString
  isAllowed : JString → Bool

namespace Server

variable (server : Server)

def hmacSha256 : Bytes → Bytes → Bytes := server.hasher.hmac.digest

def config : Config JString :=
  javaConfig server.sha256 (server.hmacSha256 server.jwtSecret) server.issuer server.isAllowed

/-- `doFilterInternal`, with the list it reads. -/
def doFilterInternal (keys : List KeyRow) (now : Nat) (request : FilterRequest) : FilterOutcome :=
  match (notBlank request.apiKeyHeader).or (notBlank request.apiKeyParameter) with
  | some rawKey =>
      match authenticate server.hasher keys rawKey now with
      | some key => .authenticated key
      | none => .unauthorized "invalid_key" "Invalid API key"
  | none =>
      match request.authorization.filter fun header => bearerPrefix.isPrefixOf header with
      | some authHeader =>
          let claims := validate server.hmacSha256 server.jwtSecret
            (some (authHeader.drop bearerPrefix.length)) (now / nanosPerSecond)
          match claims.bind fun c => authenticateByHash keys c.keyHash now with
          | some key => .authenticated key
          | none => .unauthorized "invalid_bearer" "Invalid Bearer token"
      | none => .unauthorized "missing_credentials" "Authentication required"

end Server

def apiKeyRequest (rawKey : JString) : FilterRequest := ⟨some rawKey, none, none⟩

def bearerRequest (jwt : JString) : FilterRequest := ⟨none, none, some (bearerPrefix ++ jwt)⟩

theorem apiKeyRequest_key (server : Server) (keys : List KeyRow) (now : Nat) {rawKey : JString}
    (h : isBlank rawKey = false) :
    (server.doFilterInternal keys now (apiKeyRequest rawKey)).key =
      authenticate server.hasher keys rawKey now := by
  have hkey : notBlank (some rawKey) = some rawKey := by
    simp [notBlank, Option.filter, h]
  unfold Server.doFilterInternal apiKeyRequest
  simp only [hkey, Option.some_or]
  cases authenticate server.hasher keys rawKey now <;> rfl

theorem bearerRequest_key (server : Server) (keys : List KeyRow) (now : Nat) (jwt : JString) :
    (server.doFilterInternal keys now (bearerRequest jwt)).key =
      (validate server.hmacSha256 server.jwtSecret (some jwt) (now / nanosPerSecond)).bind
        fun c => authenticateByHash keys c.keyHash now := by
  have hheader : (some (bearerPrefix ++ jwt)).filter (fun header => bearerPrefix.isPrefixOf header)
      = some (bearerPrefix ++ jwt) := by
    simp [Option.filter]
  have hnone : (notBlank none).or (notBlank none) = none := rfl
  unfold Server.doFilterInternal bearerRequest
  simp only [hnone, hheader, List.drop_left]
  cases (validate server.hmacSha256 server.jwtSecret (some jwt) (now / nanosPerSecond)).bind
    fun c => authenticateByHash keys c.keyHash now <;> rfl

/-! ## Runs -/

/-- A JWT that was returned, the API key its code was submitted with, and when. -/
structure Obtained where
  rawKey : JString
  jwt : JString
  issuedAt : Nat

structure Routes where
  keys : KeyStore
  codes : AuthCodeStore JString
  /-- The API key a code was last submitted with. -/
  submittedWith : JString → Option JString
  obtained : List Obtained

inductive RouteAction where
  | change (table : List KeyRow)
  | invalidate
  | advance (elapsed : Nat)
  /-- A request that reads the list. -/
  | load
  | submit (rawKey : JString) (request : SubmitRequest JString) (code : Uuid)
  | exchange (request : TokenRequest JString) (jti : Uuid)

namespace Routes

variable (server : Server) (s : Routes)

/-- `authorizeSubmit`. -/
def submit (rawKey : JString) (request : SubmitRequest JString) (code : Uuid) : Routes :=
  let identity := (Keys.authenticate server.hasher s.keys.cachedKeys rawKey s.keys.now).map
    fun key => ⟨key.keyHash, key.role⟩
  match authorizeSubmit server.config identity request code s.keys.now s.codes with
  | (.found _ code _ _, codes) =>
      { s with
        keys := s.keys.load
        codes := codes
        submittedWith := fun c => if c = code then some rawKey else s.submittedWith c }
  | (.unauthorized, codes) => { s with keys := s.keys.load, codes := codes }
  | (.badRequest, codes) => { s with codes := codes }

/-- `token`; with an empty secret, signing throws. -/
def exchange (request : TokenRequest JString) (jti : Uuid) : Routes :=
  match OAuth.token server.config request s.keys.now jti s.codes with
  | (.accessToken jwt, codes) =>
      let rawKey := if server.jwtSecret = [] then none else s.submittedWith request.code
      { s with
        codes := codes
        obtained := (rawKey.map fun r => ⟨r, jwt, s.keys.now⟩).toList ++ s.obtained }
  | (.error _, codes) => { s with codes := codes }

end Routes

/-- The instants of the clock. -/
def onClock (now : Nat) : Bool := now / nanosPerSecond ≤ instantMax

def routes (server : Server) : System Routes RouteAction where
  init s := s.codes = AuthCodeStore.empty ∧ s.obtained = [] ∧ onClock s.keys.now
  step s
    | .change table => some { s with keys := { s.keys with table := table } }
    | .invalidate => some { s with keys := s.keys.invalidateCache }
    | .advance elapsed =>
        if onClock (s.keys.now + elapsed) then some { s with keys := s.keys.advance elapsed }
        else none
    | .load => some { s with keys := s.keys.load }
    | .submit rawKey request code => some (s.submit server rawKey request code)
    | .exchange request jti => some (s.exchange server request jti)

/-- Codes and JWTs carry the hash of the API key they were obtained with. -/
structure Sound (server : Server) (s : Routes) : Prop where
  clock : onClock s.keys.now = true
  codes : ∀ code e, s.codes code = some e →
    ∃ r, s.submittedWith code = some r ∧ e.keyHash = server.hasher.hash r
  obtained : ∀ o ∈ s.obtained, server.jwtSecret ≠ [] ∧ onClock o.issuedAt = true ∧
    ∃ role jti, issueJwt server.config.toStrings (server.hasher.hash o.rawKey) role o.issuedAt jti
      = o.jwt

variable {server : Server} {s s' : Routes}

theorem authenticated_hash {keys : List KeyRow} {rawKey : JString} {now : Nat} {key : KeyRow}
    (h : authenticate server.hasher keys rawKey now = some key) :
    server.hasher.hash rawKey = key.keyHash := by
  have hmatch := List.find?_some h
  rw [Bool.and_eq_true] at hmatch
  exact matchesHash_iff.mp hmatch.2

/-- A submission that is granted. -/
theorem submit_found {rawKey : JString} {key : KeyRow} {request : SubmitRequest JString}
    (hallowed : server.config.isAllowed request.redirectUri = true)
    (hkey : authenticate server.hasher s.keys.cachedKeys rawKey s.keys.now = some key) (code : Uuid) :
    s.submit server rawKey request code = { s with
      keys := s.keys.load
      codes := s.codes.issue key.keyHash key.role request.redirectUri request.codeChallenge
        request.codeChallengeMethod (codeText server.config code) s.keys.now
      submittedWith := fun c =>
        if c = codeText server.config code then some rawKey else s.submittedWith c } := by
  simp [Routes.submit, authorizeSubmit, hallowed, hkey]

/-- A submission stores the hash of its API key, or no code. -/
theorem submit_cases (server : Server) (s : Routes) (rawKey : JString)
    (request : SubmitRequest JString) (code : Uuid) :
    (∃ c e, (s.submit server rawKey request code).codes =
        (s.codes.purgeExpired s.keys.now).put c e ∧ e.keyHash = server.hasher.hash rawKey ∧
      (s.submit server rawKey request code).submittedWith =
        fun c' => if c' = c then some rawKey else s.submittedWith c') ∨
    ((s.submit server rawKey request code).codes = s.codes ∧
      (s.submit server rawKey request code).submittedWith = s.submittedWith) := by
  by_cases hallowed : server.config.isAllowed request.redirectUri = true
  · cases hkey : authenticate server.hasher s.keys.cachedKeys rawKey s.keys.now with
    | none =>
        right
        simp [Routes.submit, authorizeSubmit, hallowed, hkey]
    | some key =>
        left
        rw [submit_found hallowed hkey]
        exact ⟨_, _, rfl, (authenticated_hash hkey).symm, rfl⟩
  · right
    simp [Routes.submit, authorizeSubmit, hallowed]

theorem submit_frame (server : Server) (s : Routes) (rawKey : JString)
    (request : SubmitRequest JString) (code : Uuid) :
    (s.submit server rawKey request code).keys.now = s.keys.now ∧
      (s.submit server rawKey request code).obtained = s.obtained := by
  unfold Routes.submit
  dsimp only
  split
  · exact ⟨KeyStore.load_now _, rfl⟩
  · exact ⟨KeyStore.load_now _, rfl⟩
  · exact ⟨rfl, rfl⟩

theorem sound_submit (h : Sound server s) (rawKey : JString) (request : SubmitRequest JString)
    (code : Uuid) : Sound server (s.submit server rawKey request code) := by
  obtain ⟨hnow, hobtained⟩ := submit_frame server s rawKey request code
  refine ⟨hnow ▸ h.clock, ?_, hobtained ▸ h.obtained⟩
  intro c' e he
  rcases submit_cases server s rawKey request code with ⟨c, e', hcodes, hhash, hwith⟩ | ⟨hcodes, hwith⟩
  · rw [hcodes] at he
    rw [hwith]
    rcases AuthCodeStore.put_eq_some.mp he with ⟨rfl, rfl⟩ | ⟨hne, he⟩
    · exact ⟨rawKey, if_pos rfl, hhash⟩
    · obtain ⟨r, hr, hhash'⟩ := h.codes c' e (AuthCodeStore.purgeExpired_eq_some.mp he).1
      exact ⟨r, (if_neg hne).trans hr, hhash'⟩
  · rw [hcodes] at he
    rw [hwith]
    exact h.codes c' e he

/-- A token request only removes codes. -/
theorem token_codes {cfg : Config JString} {request : TokenRequest JString} {now : Nat} {jti : Uuid}
    {codes : AuthCodeStore JString} {c : JString} {e : AuthCodeEntry JString}
    (h : (OAuth.token cfg request now jti codes).2 c = some e) : codes c = some e := by
  unfold OAuth.token at h
  split_ifs at h
  · exact h
  · exact (AuthCodeStore.remove_eq_some.mp h).2

theorem sound_exchange (h : Sound server s) (request : TokenRequest JString) (jti : Uuid) :
    Sound server (s.exchange server request jti) := by
  have hcodes : ∀ c e, (OAuth.token server.config request s.keys.now jti s.codes).2 c = some e →
      ∃ r, s.submittedWith c = some r ∧ e.keyHash = server.hasher.hash r :=
    fun c e he => h.codes c e (token_codes he)
  unfold Routes.exchange
  split
  · next jwt codes htoken =>
    rw [htoken] at hcodes
    refine ⟨h.clock, hcodes, ?_⟩
    intro o ho
    rcases List.mem_append.mp ho with ho | ho
    · obtain ⟨r, hr, rfl⟩ := Option.map_eq_some_iff.mp (Option.mem_toList.mp ho)
      split_ifs at hr with hsecret
      obtain ⟨-, e, he, -, -, -, hjwt⟩ :=
        (token_eq_accessToken _).mp (congrArg Prod.fst htoken)
      obtain ⟨r', hr', hhash⟩ := h.codes _ e he
      rw [hr, Option.some.injEq] at hr'
      subst hr'
      rw [hhash] at hjwt
      exact ⟨hsecret, h.clock, e.role, jti, hjwt⟩
    · exact h.obtained o ho
  · next codes htoken =>
    rw [htoken] at hcodes
    exact ⟨h.clock, hcodes, h.obtained⟩

theorem sound_step {a : RouteAction} (h : Sound server s) (hstep : (routes server).step s a = some s') :
    Sound server s' := by
  cases a with
  | change table =>
      cases hstep
      exact ⟨h.clock, h.codes, h.obtained⟩
  | invalidate =>
      cases hstep
      exact ⟨h.clock, h.codes, h.obtained⟩
  | advance elapsed =>
      replace hstep : (if onClock (s.keys.now + elapsed) then _ else none) = some s' := hstep
      split_ifs at hstep with hclock
      cases hstep
      exact ⟨hclock, h.codes, h.obtained⟩
  | load =>
      cases hstep
      refine ⟨?_, h.codes, h.obtained⟩
      show onClock s.keys.load.now = true
      rw [KeyStore.load_now]
      exact h.clock
  | submit rawKey request code =>
      cases hstep
      exact sound_submit h rawKey request code
  | exchange request jti =>
      cases hstep
      exact sound_exchange h request jti

theorem sound (h : (routes server).Reachable s) : Sound server s := by
  refine h.invariant ?_ fun _ _ _ h hstep => sound_step h hstep
  rintro s ⟨hcodes, hobtained, hclock⟩
  refine ⟨hclock, ?_, ?_⟩
  · rw [hcodes]
    exact nofun
  · rw [hobtained]
    exact nofun

/-! ## Agreement -/

/-- A JWT obtained with an API key authenticates as what the API key does. -/
theorem bearer_authenticates (h : Sound server s) {o : Obtained} (ho : o ∈ s.obtained)
    (hexp : s.keys.now / nanosPerSecond ≤ o.issuedAt / nanosPerSecond + tokenTtlSeconds) :
    (server.doFilterInternal s.keys.cachedKeys s.keys.now (bearerRequest o.jwt)).key =
      authenticate server.hasher s.keys.cachedKeys o.rawKey s.keys.now := by
  obtain ⟨hsecret, hclock, role, jti, hjwt⟩ := h.obtained o ho
  let i : Issuance :=
    ⟨server.hasher.hash o.rawKey, role, o.issuedAt / nanosPerSecond, jti,
      fun _ => mem_formatHex, of_decide_eq_true hclock⟩
  have hvalid : validate server.hmacSha256 server.jwtSecret (some o.jwt)
      (s.keys.now / nanosPerSecond) = some i.claims := by
    rw [← hjwt]
    exact (validate_issueJwt hsecret server.sha256 i rfl _).trans (if_neg (Nat.not_lt.mpr hexp))
  rw [bearerRequest_key, hvalid, authenticate_eq_byHash]
  rfl

/-- **Two routes.** In every state of every run, until it expires a JWT authenticates as the row of
the cached list that the API key it was obtained with authenticates as, or both are refused. -/
theorem routes_agree (server : Server) {s : Routes} (h : (routes server).Reachable s) {o : Obtained}
    (ho : o ∈ s.obtained) (hblank : isBlank o.rawKey = false)
    (hexp : s.keys.now / nanosPerSecond ≤ o.issuedAt / nanosPerSecond + tokenTtlSeconds) :
    (server.doFilterInternal s.keys.cachedKeys s.keys.now (bearerRequest o.jwt)).key =
      (server.doFilterInternal s.keys.cachedKeys s.keys.now (apiKeyRequest o.rawKey)).key ∧
    (server.doFilterInternal s.keys.cachedKeys s.keys.now (apiKeyRequest o.rawKey)).key =
      authenticate server.hasher s.keys.cachedKeys o.rawKey s.keys.now := by
  have hkey := apiKeyRequest_key server s.keys.cachedKeys s.keys.now hblank
  exact ⟨(bearer_authenticates (sound h) ho hexp).trans hkey.symm, hkey⟩

/-! ## One key -/

theorem exchange_granted {request : TokenRequest JString} {jti : Uuid} {jwt r : JString}
    (hsecret : server.jwtSecret ≠ [])
    (hjwt : (OAuth.token server.config request s.keys.now jti s.codes).1 = .accessToken jwt)
    (hwith : s.submittedWith request.code = some r) :
    (s.exchange server request jti).obtained = ⟨r, jwt, s.keys.now⟩ :: s.obtained ∧
      (s.exchange server request jti).keys = s.keys := by
  unfold Routes.exchange
  split
  · next jwt' codes htoken =>
    rw [htoken] at hjwt
    cases hjwt
    simp [hsecret, hwith]
  · next htoken =>
    rw [htoken] at hjwt
    cases hjwt

/-- Whoever has an API key that authenticates obtains a JWT with it. -/
theorem obtains {rawKey redirectUri verifier : JString} {key : KeyRow} (method state : JString)
    (hsecret : server.jwtSecret ≠ [])
    (hkey : authenticate server.hasher s.keys.cachedKeys rawKey s.keys.now = some key)
    (hallowed : server.config.isAllowed redirectUri = true) (hverifier : isBlank verifier = false)
    (code jti : Uuid) : ∃ s' as jwt, (routes server).Steps System.anyStep s as s' ∧
      ⟨rawKey, jwt, s.keys.now⟩ ∈ s'.obtained ∧ s'.keys = s.keys.load := by
  obtain ⟨s₁, hs₁⟩ : ∃ s₁, s.submit server rawKey
      ⟨redirectUri, server.config.sha256 verifier, method, state⟩ code = s₁ := ⟨_, rfl⟩
  obtain ⟨c, hc⟩ : ∃ c, codeText server.config code = c := ⟨_, rfl⟩
  -- submit the key, then exchange the code under the same verifier
  have hsubmit := hs₁
  rw [submit_found hallowed hkey, hc] at hsubmit
  have hentry : s₁.codes c = some (AuthCodeStore.newEntry key.keyHash key.role redirectUri
      (server.config.sha256 verifier) method s.keys.now) := by
    rw [← hsubmit]
    dsimp only
    rw [AuthCodeStore.issue_self]
  have hwith : s₁.submittedWith c = some rawKey := by
    rw [← hsubmit]
    simp only [if_true]
  have hkeys : s₁.keys = s.keys.load := by rw [← hsubmit]
  have hnow : s₁.keys.now = s.keys.now := by rw [hkeys, KeyStore.load_now]
  obtain ⟨request, hgrant, hcode, huri, hverify⟩ : ∃ request : TokenRequest JString,
      request.grantType = server.config.ofJava (jstr "authorization_code") ∧ request.code = c ∧
        redirectUri = request.redirectUri ∧ request.codeVerifier = some verifier :=
    ⟨⟨_, c, redirectUri, some verifier, none, none⟩, rfl, rfl, rfl, rfl⟩
  rw [← hcode] at hentry hwith
  obtain ⟨jwt, hjwt⟩ : ∃ jwt, (OAuth.token server.config request s₁.keys.now jti s₁.codes).1 =
      .accessToken jwt := by
    refine ⟨_, (token_eq_accessToken _).mpr ⟨hgrant, _, hentry, ?_, huri, Or.inl ?_, rfl⟩⟩
    · rw [hnow]
      exact Nat.le_add_right _ _
    · exact (pkceOk_iff _).mpr ⟨verifier, hverify, hverifier, rfl⟩
  obtain ⟨hobtained, hkeys'⟩ := exchange_granted hsecret hjwt hwith
  refine ⟨_, [.submit rawKey _ code, .exchange request jti], jwt,
    .cons trivial (congrArg some hs₁) (.cons trivial rfl (.nil _)), ?_, hkeys'.trans hkeys⟩
  rw [hobtained, hnow]
  exact List.mem_cons_self

theorem blank_refused (server : Server) (keys : List KeyRow) (now : Nat) {rawKey : JString}
    (h : isBlank rawKey = true) :
    (server.doFilterInternal keys now (apiKeyRequest rawKey)).key = none := by
  have hnone : notBlank (some rawKey) = none := by
    simp [notBlank, Option.filter, h]
  unfold Server.doFilterInternal apiKeyRequest
  rw [hnone]
  rfl

theorem authenticate_single {hasher : ApiKeyHasher} {rawKey : JString} {now : Nat} {key : KeyRow}
    (husable : usable now key = true) (hhash : hasher.hash rawKey = key.keyHash) :
    authenticate hasher [key] rawKey now = some key := by
  have hmatch := matchesHash_iff.mpr hhash
  unfold authenticate
  rw [List.find?_cons_of_pos]
  rw [husable, hmatch]
  rfl

def samplePepper : Bytes := asBytes "0123456789abcdef0123456789abcdef"

def sampleVerifier : JString := jstr "dBjftJeZ4CVP-mB92K27uhbUJU1p1r_wW1gFWFOEjXk"

theorem sampleDigest_length {keyDigest tag : Bytes} (hkey : keyDigest.length = 32)
    (htag : tag.length = 32) (key _message : Bytes) :
    (if key = samplePepper then keyDigest else tag).length = 32 := by
  split_ifs
  · exact hkey
  · exact htag

/-- A gateway with the two HMACs of a run, and the SHA-256 of the verifier. -/
def sampleServer (keyDigest tag : Bytes) (hkey : keyDigest.length = 32) (htag : tag.length = 32) :
    Server where
  hasher :=
    { hmac := ⟨fun key _ => if key = samplePepper then keyDigest else tag,
        sampleDigest_length hkey htag⟩
      pepper := samplePepper }
  jwtSecret := asBytes "test-jwt-secret-32-chars-minimum-00"
  sha256 _ :=
    [19, 211, 30, 150, 26, 26, 216, 236, 47, 22, 177, 12, 76, 152, 46, 8, 118, 168, 120, 173,
    109, 241, 68, 86, 110, 225, 137, 74, 203, 112, 249, 195]
  issuer := jstr "http://localhost:8080"
  isAllowed uri := (jstr "http://localhost").isPrefixOf uri

/-- The row of an API key. -/
def sampleKeyRow (hasher : ApiKeyHasher) (rawKey : JString) : KeyRow :=
  ⟨Uuid.ofDigit 1, hasher.hash rawKey, .readOnly, none, false, .active⟩

/-- A run that obtains a JWT. -/
theorem sample_obtains (keyDigest tag : Bytes) (hkey : keyDigest.length = 32)
    (htag : tag.length = 32) (rawKey : JString) :
    ∃ s o, (routes (sampleServer keyDigest tag hkey htag)).Reachable s ∧ o ∈ s.obtained ∧
      o.rawKey = rawKey ∧
      s.keys.now / nanosPerSecond ≤ o.issuedAt / nanosPerSecond + tokenTtlSeconds ∧
      authenticate (sampleServer keyDigest tag hkey htag).hasher s.keys.cachedKeys rawKey s.keys.now =
        some (sampleKeyRow (sampleServer keyDigest tag hkey htag).hasher rawKey) := by
  generalize hserver : sampleServer keyDigest tag hkey htag = server
  have hsecret : server.jwtSecret ≠ [] := by
    rw [← hserver]
    show asBytes "test-jwt-secret-32-chars-minimum-00" ≠ []
    decide
  have hallowed : server.config.isAllowed (jstr "http://localhost/cb") = true := by
    rw [← hserver]
    show (jstr "http://localhost").isPrefixOf (jstr "http://localhost/cb") = true
    decide
  let start : Routes := ⟨⟨[sampleKeyRow server.hasher rawKey], none, 0⟩, AuthCodeStore.empty,
    fun _ => none, []⟩
  have hclock : onClock 0 = true := by decide
  have hinit : (routes server).init start := ⟨rfl, rfl, hclock⟩
  have hverifier : isBlank sampleVerifier = false := by decide
  have hauthenticate : authenticate server.hasher start.keys.cachedKeys rawKey start.keys.now =
      some (sampleKeyRow server.hasher rawKey) :=
    authenticate_single rfl rfl
  obtain ⟨s, as, jwt, hrun, ho, hkeys⟩ := obtains (jstr "S256") [] hsecret hauthenticate
    hallowed hverifier (Uuid.ofDigit 4) (Uuid.ofDigit 5)
  refine ⟨s, _, ⟨start, as, hinit, hrun⟩, ho, rfl, ?_, ?_⟩
  · rw [hkeys, KeyStore.load_now]
    exact Nat.le_add_right _ _
  · rw [hkeys, KeyStore.cachedKeys_load, KeyStore.load_now]
    exact hauthenticate

def sampleKeyDigest : Bytes :=
  [179, 122, 119, 27, 105, 222, 179, 134, 238, 61, 212, 144, 193, 162, 120, 202, 6, 25, 53, 108,
    139, 246, 70, 139, 243, 194, 251, 168, 61, 109, 190, 17]

def sampleTag : Bytes :=
  [125, 242, 135, 189, 215, 115, 229, 179, 121, 156, 122, 245, 236, 185, 91, 170, 160, 143, 122, 37,
    188, 139, 176, 143, 118, 141, 47, 136, 47, 212, 48, 17]

/-- Both routes reach the row. -/
theorem sample_routes : ∃ (s : Routes) (o : Obtained),
    o ∈ s.obtained ∧ o.rawKey = jstr "demo-readonly-key-0001" ∧
      ((sampleServer sampleKeyDigest sampleTag rfl rfl).doFilterInternal s.keys.cachedKeys s.keys.now
        (bearerRequest o.jwt)).key =
      ((sampleServer sampleKeyDigest sampleTag rfl rfl).doFilterInternal s.keys.cachedKeys s.keys.now
        (apiKeyRequest o.rawKey)).key ∧
      ((sampleServer sampleKeyDigest sampleTag rfl rfl).doFilterInternal s.keys.cachedKeys s.keys.now
        (apiKeyRequest o.rawKey)).key =
        some (sampleKeyRow (sampleServer sampleKeyDigest sampleTag rfl rfl).hasher o.rawKey) := by
  obtain ⟨s, o, hs, ho, hraw, hexp, hkey⟩ := sample_obtains sampleKeyDigest sampleTag rfl rfl
    (jstr "demo-readonly-key-0001")
  have hblank : isBlank o.rawKey = false := by
    rw [hraw]
    decide
  obtain ⟨hsame, hrow⟩ := routes_agree _ hs ho hblank hexp
  rw [← hraw] at hkey
  exact ⟨s, o, ho, hraw, hsame, hrow.trans hkey⟩

def blankKeyDigest : Bytes :=
  [219, 74, 72, 61, 83, 57, 59, 64, 38, 70, 103, 215, 123, 251, 23, 55, 236, 107, 20, 212, 10, 212,
    81, 153, 141, 238, 32, 162, 177, 68, 56, 229]

def blankTag : Bytes :=
  [169, 103, 3, 180, 189, 91, 21, 198, 222, 141, 251, 215, 145, 223, 16, 238, 78, 12, 153, 161, 11,
    94, 72, 134, 112, 123, 192, 185, 116, 128, 211, 181]

/-- An API key of one space can be authorized with, but as a header it is no API key. -/
theorem blank_key_differs : ¬ ∀ (server : Server) (s : Routes) (o : Obtained),
    (routes server).Reachable s → o ∈ s.obtained →
      s.keys.now / nanosPerSecond ≤ o.issuedAt / nanosPerSecond + tokenTtlSeconds →
        (server.doFilterInternal s.keys.cachedKeys s.keys.now (bearerRequest o.jwt)).key =
          (server.doFilterInternal s.keys.cachedKeys s.keys.now (apiKeyRequest o.rawKey)).key := by
  intro hclaim
  obtain ⟨s, o, hs, ho, hraw, hexp, hkey⟩ := sample_obtains blankKeyDigest blankTag rfl rfl
    (jstr " ")
  have hblank : isBlank o.rawKey = true := by
    rw [hraw]
    decide
  have hsame := hclaim _ s o hs ho hexp
  rw [bearer_authenticates (sound hs) ho hexp, blank_refused _ _ _ hblank, hraw, hkey] at hsame
  cases hsame

end McpGateway.Keys
