import McpGateway.OAuth.AuthCodeStore
import McpGateway.OAuth.Tokens

/-! # `OAuthController`

The four endpoints. A page is the values its form carries; what `apiKeyService.authenticate` answers
to the API key of a submission is an argument.

* `token_eq_accessToken` — which token requests are granted. -/

namespace McpGateway.OAuth

open Foundation Gateway

/-! ## Requests and responses -/

/-- The query parameters of `GET /oauth/authorize`. -/
structure FormRequest (T : Type) where
  responseType : Option T
  clientId : Option T
  redirectUri : Option T
  codeChallenge : Option T
  codeChallengeMethod : Option T
  state : T

/-- `AuthorizeParams`. -/
structure AuthorizeParams (T : Type) where
  responseType : T
  clientId : T
  redirectUri : T
  codeChallenge : T
  codeChallengeMethod : T
  state : T
  deriving DecidableEq

/-- What `buildAuthorizeForm` puts into the page. -/
structure AuthorizeForm (T : Type) where
  clientId : T
  redirectUri : T
  codeChallenge : T
  codeChallengeMethod : T
  state : T
  deriving DecidableEq

inductive FormResponse (T : Type) where
  | badRequest (body : String)
  | form (page : AuthorizeForm T)
  | sessionExpired

/-- The form fields of `POST /oauth/authorize`, apart from the API key. -/
structure SubmitRequest (T : Type) where
  redirectUri : T
  codeChallenge : T
  codeChallengeMethod : T
  state : T
  deriving DecidableEq

/-- The key an API key authenticates as: its hash and role. -/
structure Identity where
  keyHash : String
  role : AccessRole

inductive SubmitResponse (T : Type) where
  | badRequest
  | unauthorized
  /-- The parts of the `Location`. -/
  | found (redirectUri code issuer state : T)

structure TokenRequest (T : Type) where
  grantType : T
  code : T
  redirectUri : T
  codeVerifier : Option T
  clientId : Option T
  clientSecret : Option T

inductive TokenResponse (T : Type) where
  | error (name : String)
  | accessToken (jwt : T)

/-! ## The server -/

/-- What the server is configured with: its strings, `mcp.oauth.issuer` and
`OAuthRedirectValidator.isAllowed`. -/
structure Config (T : Type) extends Strings T where
  issuer : JString
  isAllowed : T → Bool

/-- The server on Java strings. -/
def javaConfig (sha256 hmacSha256 : Bytes → Bytes) (issuer : JString) (isAllowed : JString → Bool) :
    Config JString where
  toStrings := javaStrings sha256 hmacSha256
  issuer := issuer
  isAllowed := isAllowed

/-- An entry of `pendingForms`. -/
structure PendingForm (T : Type) where
  params : AuthorizeParams T
  writtenAt : Nat

/-- `pendingForms`, by client id. -/
abbrev PendingForms (T : Type) := T → Option (PendingForm T)

/-- `expireAfterWrite(5, TimeUnit.MINUTES)`. -/
def pendingTtl : Nat := 5 * 60 * nanosPerSecond

/-- The entry of a client id that has not expired. -/
def livePending (forms : PendingForms T) (now : Nat) (clientId : T) : Option (AuthorizeParams T) :=
  (forms clientId).bind fun f => if now < f.writtenAt + pendingTtl then some f.params else none

/-- What the endpoints keep. -/
structure OAuthState (T : Type) where
  codes : AuthCodeStore T
  pendingForms : PendingForms T

variable {T : Type} [DecidableEq T] (cfg : Config T)

/-! ## `register` -/

/-- The `client_id` drawn and the `client_secret` made for it. -/
def register (clientId : Uuid) : T × T :=
  let id := cfg.ofJava (jstr clientId.toText)
  (id, deriveClientSecret cfg.toStrings id)

/-! ## `authorizeForm` -/

/-- The parameter, if it is `present`. -/
def present (s : Option T) : Option T := s.filter fun s => !cfg.isBlank s

def AuthorizeParams.form (p : AuthorizeParams T) : AuthorizeForm T :=
  ⟨p.clientId, p.redirectUri, p.codeChallenge, p.codeChallengeMethod, p.state⟩

/-- The first value of `pendingForms.asMap()`, in the order of the map, whose client id starts with
the one received. -/
def recoverForm (values : List (AuthorizeParams T)) (clientId : Option T) : FormResponse T :=
  match (present cfg clientId).bind fun id =>
      values.find? fun p => cfg.startsWith p.clientId id with
  | some p => .form p.form
  | none => .sessionExpired

/-- `authorizeForm`; `values` is what iterating over `pendingForms` yields. -/
def authorizeForm (request : FormRequest T) (values : List (AuthorizeParams T)) (now : Nat)
    (forms : PendingForms T) : FormResponse T × PendingForms T :=
  match present cfg request.clientId, present cfg request.redirectUri,
      present cfg request.codeChallenge, present cfg request.codeChallengeMethod with
  | some clientId, some redirectUri, some codeChallenge, some codeChallengeMethod =>
      if request.responseType ≠ some (cfg.ofJava (jstr "code"))
          ∨ codeChallengeMethod ≠ cfg.ofJava (jstr "S256") then
        (.badRequest "unsupported_response_type or code_challenge_method", forms)
      else if !cfg.isAllowed redirectUri then
        (.badRequest "invalid_redirect_uri", forms)
      else
        let params : AuthorizeParams T := ⟨cfg.ofJava (jstr "code"), clientId, redirectUri,
          codeChallenge, codeChallengeMethod, request.state⟩
        (.form params.form, fun c => if c = clientId then some ⟨params, now⟩ else forms c)
  | _, _, _, _ => (recoverForm cfg values request.clientId, forms)

/-- A complete request shows its page. -/
theorem authorizeForm_complete (page : AuthorizeForm T) (values : List (AuthorizeParams T))
    (now : Nat) (forms : PendingForms T) (hid : cfg.isBlank page.clientId = false)
    (huri : cfg.isBlank page.redirectUri = false)
    (hchallenge : cfg.isBlank page.codeChallenge = false)
    (hmethod : cfg.isBlank page.codeChallengeMethod = false)
    (hs256 : page.codeChallengeMethod = cfg.ofJava (jstr "S256"))
    (hallowed : cfg.isAllowed page.redirectUri = true) :
    authorizeForm cfg ⟨some (cfg.ofJava (jstr "code")), some page.clientId, some page.redirectUri,
      some page.codeChallenge, some page.codeChallengeMethod, page.state⟩ values now forms =
      (.form page, fun c => if c = page.clientId then some ⟨⟨cfg.ofJava (jstr "code"),
        page.clientId, page.redirectUri, page.codeChallenge, page.codeChallengeMethod,
        page.state⟩, now⟩ else forms c) := by
  have hpresent : ∀ {v : T}, cfg.isBlank v = false → present cfg (some v) = some v := by
    intro v hv
    simp [present, Option.filter, hv]
  unfold authorizeForm
  simp only [hpresent hid, hpresent huri, hpresent hchallenge, hpresent hmethod]
  simp [← hs256, hallowed, AuthorizeParams.form]

/-! ## `authorizeSubmit` -/

/-- `UUID.randomUUID().toString().replace("-", "")`. -/
def codeText (code : Uuid) : T :=
  cfg.ofJava (jstr (String.ofList (code.toText.toList.filter (· ≠ '-'))))

/-- `authorizeSubmit`, with what the API key authenticates as and the code drawn. -/
def authorizeSubmit (identity : Option Identity) (request : SubmitRequest T) (code : Uuid)
    (now : Nat) (codes : AuthCodeStore T) : SubmitResponse T × AuthCodeStore T :=
  if !cfg.isAllowed request.redirectUri then (.badRequest, codes)
  else match identity with
    | none => (.unauthorized, codes)
    | some key =>
        (.found request.redirectUri (codeText cfg code) (cfg.ofJava cfg.issuer) request.state,
          codes.issue key.keyHash key.role request.redirectUri request.codeChallenge
            request.codeChallengeMethod (codeText cfg code) now)

/-- Which submissions issue a code. -/
theorem authorizeSubmit_found {cfg : Config T} {identity : Option Identity}
    {request : SubmitRequest T} {code : Uuid} {now : Nat} {codes codes' : AuthCodeStore T}
    {redirectUri code' issuer state : T}
    (h : authorizeSubmit cfg identity request code now codes
      = (.found redirectUri code' issuer state, codes')) :
    cfg.isAllowed request.redirectUri = true ∧ ∃ key, identity = some key ∧
      redirectUri = request.redirectUri ∧ code' = codeText cfg code ∧
      issuer = cfg.ofJava cfg.issuer ∧ state = request.state ∧
      codes' = codes.issue key.keyHash key.role request.redirectUri request.codeChallenge
        request.codeChallengeMethod (codeText cfg code) now := by
  unfold authorizeSubmit at h
  split_ifs at h with hallowed
  · cases h
  · cases identity with
    | none => cases h
    | some key =>
        cases h
        exact ⟨by simpa using hallowed, key, rfl, rfl, rfl, rfl, rfl, rfl⟩

/-! ## `token` -/

def verifyPkce (verifier challenge : T) : Bool := cfg.sha256 verifier = challenge

def pkceOk (request : TokenRequest T) (entry : AuthCodeEntry T) : Bool :=
  request.codeVerifier.any fun v => !cfg.isBlank v && verifyPkce cfg v entry.codeChallenge

def secretOk (request : TokenRequest T) : Bool :=
  request.clientId.any fun id => request.clientSecret = some (deriveClientSecret cfg.toStrings id)

/-- `token` from the consumed entry on. -/
def redeem (request : TokenRequest T) (entry : Option (AuthCodeEntry T)) (now : Nat) (jti : Uuid) :
    TokenResponse T :=
  match entry with
  | none => .error "invalid_grant"
  | some entry =>
      if entry.redirectUri ≠ request.redirectUri then .error "invalid_grant"
      else if !pkceOk cfg request entry && !secretOk cfg request then .error "invalid_grant"
      else .accessToken (issueJwt cfg.toStrings entry.keyHash entry.role now jti)

def token (request : TokenRequest T) (now : Nat) (jti : Uuid) (codes : AuthCodeStore T) :
    TokenResponse T × AuthCodeStore T :=
  if request.grantType ≠ cfg.ofJava (jstr "authorization_code") then
    (.error "unsupported_grant_type", codes)
  else
    let (entry, codes') := codes.consume request.code now
    (redeem cfg request entry now jti, codes')

/-! ## What is granted -/

theorem pkceOk_iff {request : TokenRequest T} {entry : AuthCodeEntry T} :
    pkceOk cfg request entry = true ↔ ∃ v, request.codeVerifier = some v ∧
      cfg.isBlank v = false ∧ cfg.sha256 v = entry.codeChallenge := by
  unfold pkceOk verifyPkce
  cases request.codeVerifier with
  | none => simp
  | some v => simp

theorem secretOk_iff {request : TokenRequest T} :
    secretOk cfg request = true ↔ ∃ id, request.clientId = some id ∧
      request.clientSecret = some (deriveClientSecret cfg.toStrings id) := by
  unfold secretOk
  cases request.clientId with
  | none => simp
  | some id => simp

theorem redeem_eq_accessToken {request : TokenRequest T} {entry : Option (AuthCodeEntry T)}
    {now : Nat} {jti : Uuid} {jwt : T} :
    redeem cfg request entry now jti = .accessToken jwt ↔ ∃ e, entry = some e ∧
      e.redirectUri = request.redirectUri ∧
      (pkceOk cfg request e = true ∨ secretOk cfg request = true) ∧
      issueJwt cfg.toStrings e.keyHash e.role now jti = jwt := by
  cases entry with
  | none => simp [redeem]
  | some e =>
      unfold redeem
      by_cases huri : e.redirectUri = request.redirectUri
      · cases hpkce : pkceOk cfg request e
        · cases hsecret : secretOk cfg request
          · simp [huri, hpkce]
          · simp [huri, hpkce]
        · simp [huri, hpkce]
      · simp [huri]

/-- **Which token requests are granted.** -/
theorem token_eq_accessToken {request : TokenRequest T} {now : Nat} {jti : Uuid}
    {codes : AuthCodeStore T} {jwt : T} :
    (token cfg request now jti codes).1 = .accessToken jwt ↔
      request.grantType = cfg.ofJava (jstr "authorization_code") ∧
      ∃ e, codes request.code = some e ∧ now ≤ e.expiresAt ∧
        e.redirectUri = request.redirectUri ∧
        (pkceOk cfg request e = true ∨ secretOk cfg request = true) ∧
        issueJwt cfg.toStrings e.keyHash e.role now jti = jwt := by
  unfold token
  by_cases hgrant : request.grantType = cfg.ofJava (jstr "authorization_code")
  · simp [hgrant, AuthCodeStore.consume, redeem_eq_accessToken, AuthCodeStore.ifAlive_eq_some,
      and_assoc]
  · simp [hgrant]

end McpGateway.OAuth
