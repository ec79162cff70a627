import McpGateway.Zoho.TokenCache

/-! # `ZohoClient::download`

The redirect loop: a request, and for a redirect the URL of the next one. Whether the next request
carries the token is decided from the host of its URL.

* `auth_iff` — a request carries the header exactly when it is the first or its host is trusted;
  its scheme is not looked at.
* `redirect_budget_iff` — the loop counts requests, so the last redirect of the budget is not
  followed. -/

namespace McpGateway.Zoho

open Ingestion

/-! ## URLs and responses -/

/-- What the loop uses of a parsed `Url`: its text, and what `scheme` and `host_str` report. -/
structure Url where
  text : String
  scheme : String
  hostStr : Option String
  deriving DecidableEq, Repr

/-- `Url::parse` -/
abbrev UrlParser := String → Except String Url

/-- `HeaderValue::to_str`: visible ASCII, blanks and tabs. -/
def headerToStr (value : Bytes) : Option String :=
  if value.all fun b => (32 ≤ b.toNat && b.toNat < 127) || b.toNat == 9 then
    some (String.ofList (value.map fun b => Char.ofNat b.toNat))
  else none

/-- A response: its `Location` header, and what `stream_body` makes of its body. -/
structure DownloadResponse where
  status : Nat
  location : Option Bytes
  body : Except ConnectorError Bytes

/-- What the outside does in one round of the loop: the answer of `refresh_if_needed`, if it is
called, and of `send`. -/
structure HopEnv where
  token : Except ConnectorError String
  reply : Except String DownloadResponse

/-- A request that was sent. -/
structure DownloadRequest where
  url : Url
  authorization : Option String
  deriving DecidableEq, Repr

def isRedirection (status : Nat) : Bool := 300 ≤ status && status < 400

/-! ## The loop -/

def maxRedirects : Nat := 5

/-- `is_trusted_zoho_host` -/
def isTrustedZohoHost (host : String) : Bool :=
  ".zoho.eu".toList.isSuffixOf host.toList || ".zohocdn.com".toList.isSuffixOf host.toList ||
    host == "zoho.eu"

/-- The URL a redirect leads to. -/
def redirectTarget (urlParse : UrlParser) (resp : DownloadResponse) : Except ConnectorError Url :=
  match resp.location with
  | none => .error (.http resp.status)
  | some loc =>
      match headerToStr loc with
      | none => .error (.other "invalid Location header encoding")
      | some locStr =>
          match urlParse locStr with
          | .error _ => .error (.other "malformed redirect URL")
          | .ok nextUrl => .ok nextUrl

/-- The header of a request, if it gets one. -/
def authHeader (attachAuth : Bool) (token : Except ConnectorError String) :
    Except ConnectorError (Option String) :=
  if attachAuth then token.map fun token => some ("Zoho-oauthtoken " ++ token) else .ok none

/-- The rounds that are left, from the URL and the flag the previous one has left. -/
def redirectLoop (urlParse : UrlParser) (envs : Nat → HopEnv) :
    (rounds hop : Nat) → (currentUrl : Url) → (attachAuth : Bool) →
      List DownloadRequest × Except ConnectorError Bytes
  | 0, _, _, _ => ([], .error (.other "too many redirects"))
  | rounds + 1, hop, currentUrl, attachAuth =>
      match authHeader attachAuth (envs hop).token with
      | .error e => ([], .error e)
      | .ok authorization =>
          let request : DownloadRequest := ⟨currentUrl, authorization⟩
          match (envs hop).reply with
          | .error e => ([request], .error (.other ("download request failed: " ++ e)))
          | .ok resp =>
              if isRedirection resp.status then
                match redirectTarget urlParse resp with
                | .error e => ([request], .error e)
                | .ok nextUrl =>
                    let (requests, result) := redirectLoop urlParse envs rounds (hop + 1) nextUrl
                      (isTrustedZohoHost (nextUrl.hostStr.getD ""))
                    (request :: requests, result)
              else if !isSuccess resp.status then ([request], .error (.http resp.status))
              else ([request], resp.body)

/-- `download_with_trusted_auth`: the requests sent, and the result. -/
def downloadWithTrustedAuth (urlParse : UrlParser) (envs : Nat → HopEnv) (initialUrl : Url) :
    List DownloadRequest × Except ConnectorError Bytes :=
  redirectLoop urlParse envs maxRedirects 0 initialUrl true

/-- `api_base` for the one data center `ZohoClient::new` accepts. -/
def apiBase : String := "https://workdrive.zoho.eu/api/v1"

/-- `download` -/
def download (urlParse : UrlParser) (envs : Nat → HopEnv) (fileId : String) :
    List DownloadRequest × Except ConnectorError Bytes :=
  match urlParse (apiBase ++ "/files/" ++ fileId ++ "/download") with
  | .error e => ([], .error (.other ("invalid download URL: " ++ e)))
  | .ok initialUrl => downloadWithTrustedAuth urlParse envs initialUrl

/-! ## The token -/

section Loop

variable {urlParse : UrlParser} {envs : Nat → HopEnv} {rounds hop : Nat} {url : Url}
  {attachAuth : Bool}

theorem authHeader_isSome {token : Except ConnectorError String} {authorization : Option String}
    (h : authHeader attachAuth token = .ok authorization) : authorization.isSome = attachAuth := by
  unfold authHeader at h
  cases attachAuth with
  | false =>
      cases h
      rfl
  | true =>
      cases token with
      | error e => cases h
      | ok token =>
          cases h
          rfl

/-- **One round**: no token and no request; a request and the end; or a request and the rounds that
are left, from the URL it was redirected to. -/
theorem redirectLoop_cases (urlParse : UrlParser) (envs : Nat → HopEnv) (rounds hop : Nat) (url : Url)
    (attachAuth : Bool) :
    (∃ e, redirectLoop urlParse envs (rounds + 1) hop url attachAuth = ([], .error e)) ∨
    ∃ authorization : Option String, authorization.isSome = attachAuth ∧
      ((∃ result, redirectLoop urlParse envs (rounds + 1) hop url attachAuth
          = ([⟨url, authorization⟩], result)) ∨
        ∃ nextUrl, redirectLoop urlParse envs (rounds + 1) hop url attachAuth
          = (⟨url, authorization⟩ :: (redirectLoop urlParse envs rounds (hop + 1) nextUrl
              (isTrustedZohoHost (nextUrl.hostStr.getD ""))).1,
            (redirectLoop urlParse envs rounds (hop + 1) nextUrl
              (isTrustedZohoHost (nextUrl.hostStr.getD ""))).2)) := by
  rw [redirectLoop]
  cases hauth : authHeader attachAuth (envs hop).token with
  | error e => exact Or.inl ⟨e, rfl⟩
  | ok authorization =>
      refine Or.inr ⟨authorization, authHeader_isSome hauth, ?_⟩
      cases (envs hop).reply with
      | error e => exact Or.inl ⟨_, rfl⟩
      | ok resp =>
          dsimp only
          by_cases hredirect : isRedirection resp.status = true
          · rw [if_pos hredirect]
            cases redirectTarget urlParse resp with
            | error e => exact Or.inl ⟨_, rfl⟩
            | ok nextUrl => exact Or.inr ⟨nextUrl, rfl⟩
          · rw [if_neg hredirect]
            by_cases hsuccess : (!isSuccess resp.status) = true
            · rw [if_pos hsuccess]
              exact Or.inl ⟨_, rfl⟩
            · rw [if_neg hsuccess]
              exact Or.inl ⟨_, rfl⟩

/-- **The headers.** The first request goes to the URL of the rounds, with the header if the flag
says so; the host of its URL decides for every other. -/
theorem redirectLoop_headers (rounds hop : Nat) (url : Url) (attachAuth : Bool) (i : Nat)
    (r : DownloadRequest)
    (hr : (redirectLoop urlParse envs rounds hop url attachAuth).1[i]? = some r) :
    (i = 0 → r.url = url ∧ r.authorization.isSome = attachAuth) ∧
      (i ≠ 0 → r.authorization.isSome = isTrustedZohoHost (r.url.hostStr.getD "")) := by
  induction rounds generalizing hop url attachAuth i with
  | zero => cases hr
  | succ rounds ih =>
      rcases redirectLoop_cases urlParse envs rounds hop url attachAuth with
        ⟨e, h⟩ | ⟨authorization, hsome, ⟨result, h⟩ | ⟨nextUrl, h⟩⟩
      · rw [h] at hr
        cases hr
      · rw [h] at hr
        cases i with
        | zero =>
            cases hr
            exact ⟨fun _ => ⟨rfl, hsome⟩, fun h => absurd rfl h⟩
        | succ i => cases hr
      · rw [h] at hr
        cases i with
        | zero =>
            cases hr
            exact ⟨fun _ => ⟨rfl, hsome⟩, fun h => absurd rfl h⟩
        | succ i =>
            refine ⟨fun h => absurd h (Nat.succ_ne_zero i), fun _ => ?_⟩
            obtain ⟨hfirst, hlater⟩ := ih _ _ _ i hr
            by_cases hi : i = 0
            · -- the flag of this round was computed from the host of its URL
              obtain ⟨hurl, hflag⟩ := hfirst hi
              rw [hflag, hurl]
            · exact hlater hi

/-- **The requests** are no more than the rounds. -/
theorem redirectLoop_length (rounds hop : Nat) (url : Url) (attachAuth : Bool) :
    (redirectLoop urlParse envs rounds hop url attachAuth).1.length ≤ rounds := by
  induction rounds generalizing hop url attachAuth with
  | zero => exact Nat.le_refl 0
  | succ rounds ih =>
      rcases redirectLoop_cases urlParse envs rounds hop url attachAuth with
        ⟨e, h⟩ | ⟨authorization, -, ⟨result, h⟩ | ⟨nextUrl, h⟩⟩
      · rw [h]
        exact Nat.zero_le _
      · rw [h]
        exact Nat.succ_le_succ (Nat.zero_le _)
      · rw [h]
        exact Nat.succ_le_succ (ih _ _ _)

end Loop

/-- The hosts the token may go to. -/
def TrustedHost (host : String) : Prop :=
  host = "zoho.eu" ∨ ".zoho.eu".toList <:+ host.toList ∨ ".zohocdn.com".toList <:+ host.toList

theorem isTrustedZohoHost_iff {host : String} :
    isTrustedZohoHost host = true ↔ TrustedHost host := by
  unfold isTrustedZohoHost TrustedHost
  simp only [Bool.or_eq_true, List.isSuffixOf_iff_suffix, beq_iff_eq]
  tauto

/-- **Where the token goes.** Whatever the server answers, a request carries the header exactly when
it is the initial one or its URL has a trusted host. -/
theorem auth_iff (urlParse : UrlParser) (envs : Nat → HopEnv) (initialUrl : Url) (i : Nat)
    (r : DownloadRequest)
    (hr : (downloadWithTrustedAuth urlParse envs initialUrl).1[i]? = some r) :
    r.authorization.isSome = true ↔ i = 0 ∨ TrustedHost (r.url.hostStr.getD "") := by
  obtain ⟨hfirst, hlater⟩ := redirectLoop_headers _ _ _ _ i r hr
  by_cases hi : i = 0
  · rw [(hfirst hi).2]
    exact ⟨fun _ => Or.inl hi, fun _ => rfl⟩
  · rw [hlater hi, isTrustedZohoHost_iff]
    exact ⟨Or.inr, fun h => h.resolve_left hi⟩

/-! ## The budget -/

/-- `n` redirects with absolute URLs, then a response with the body `b`; tokens are there. -/
structure RedirectChain (urlParse : UrlParser) (envs : Nat → HopEnv) (n : Nat) (b : Bytes) : Prop where
  tokens : ∀ i, ∃ token, (envs i).token = .ok token
  redirects : ∀ i, i < n → ∃ resp nextUrl, (envs i).reply = .ok resp ∧
    isRedirection resp.status = true ∧ redirectTarget urlParse resp = .ok nextUrl
  success : ∃ resp, (envs n).reply = .ok resp ∧ isSuccess resp.status = true ∧ resp.body = .ok b

theorem isRedirection_of_isSuccess {status : Nat} (h : isSuccess status = true) :
    isRedirection status = false := by
  simp only [isSuccess, Bool.and_eq_true, decide_eq_true_eq] at h
  simp only [isRedirection, Bool.and_eq_false_iff, decide_eq_false_iff_not]
  omega

section Chain

variable {urlParse : UrlParser} {envs : Nat → HopEnv} {n : Nat} {b : Bytes}

theorem authHeader_ok (attachAuth : Bool) {token : Except ConnectorError String}
    (h : ∃ t, token = .ok t) : ∃ authorization, authHeader attachAuth token = .ok authorization := by
  obtain ⟨t, rfl⟩ := h
  cases attachAuth with
  | false => exact ⟨none, rfl⟩
  | true => exact ⟨_, rfl⟩

/-- **The rounds against the redirects that are left.** -/
theorem redirectLoop_chain (hchain : RedirectChain urlParse envs n b) (rounds hop : Nat) (url : Url)
    (attachAuth : Bool) (hhop : hop ≤ n) :
    (redirectLoop urlParse envs rounds hop url attachAuth).2
      = if n - hop < rounds then .ok b else .error (.other "too many redirects") := by
  induction rounds generalizing hop url attachAuth with
  | zero => rfl
  | succ rounds ih =>
      obtain ⟨authorization, hauth⟩ := authHeader_ok attachAuth (hchain.tokens hop)
      rw [redirectLoop, hauth]
      dsimp only
      by_cases hlast : hop = n
      · subst hlast
        obtain ⟨resp, hreply, hsuccess, hbody⟩ := hchain.success
        rw [hreply]
        dsimp only
        rw [isRedirection_of_isSuccess hsuccess, hsuccess, if_neg Bool.false_ne_true,
          if_neg (by decide), if_pos (by omega)]
        exact hbody
      · obtain ⟨resp, nextUrl, hreply, hredirect, htarget⟩ := hchain.redirects hop (by omega)
        rw [hreply]
        dsimp only
        rw [hredirect, if_pos rfl, htarget]
        dsimp only
        rw [ih _ _ _ (by omega)]
        have hcount : n - (hop + 1) < rounds ↔ n - hop < rounds + 1 := by omega
        simp only [hcount]

/-- **The redirect budget.** A chain of `n` redirects ends as the budget promises (with the body
up to `maxRedirects` of them, and with an error from there on) exactly when `n` is not
`maxRedirects`; and no server gets more than `maxRedirects` requests. -/
theorem redirect_budget_iff (hchain : RedirectChain urlParse envs n b) (initialUrl : Url) :
    ((n ≤ maxRedirects → (downloadWithTrustedAuth urlParse envs initialUrl).2 = .ok b) ∧
        (maxRedirects < n → ∃ e, (downloadWithTrustedAuth urlParse envs initialUrl).2 = .error e) ↔
      n ≠ maxRedirects) ∧
    ∀ (envs' : Nat → HopEnv) (initialUrl' : Url),
      (downloadWithTrustedAuth urlParse envs' initialUrl').1.length ≤ maxRedirects := by
  have hresult : (downloadWithTrustedAuth urlParse envs initialUrl).2
      = if n < maxRedirects then .ok b else .error (.other "too many redirects") :=
    redirectLoop_chain hchain maxRedirects 0 initialUrl true (Nat.zero_le n)
  refine ⟨?_, fun envs' initialUrl' => redirectLoop_length _ _ _ _⟩
  rw [hresult]
  constructor
  · rintro ⟨hwithin, -⟩ rfl
    have h := hwithin (Nat.le_refl _)
    rw [if_neg (Nat.lt_irrefl _)] at h
    cases h
  · intro hne
    constructor
    · intro hle
      rw [if_pos (Nat.lt_of_le_of_ne hle hne)]
    · intro hlt
      rw [if_neg (Nat.not_lt_of_gt hlt)]
      exact ⟨_, rfl⟩

end Chain

/-! ## A file behind redirects -/

def driveUrl : Url :=
  ⟨"https://workdrive.zoho.eu/api/v1/files/f1/download", "https", some "workdrive.zoho.eu"⟩

def plainUrl : Url := ⟨"http://files.zoho.eu/f1", "http", some "files.zoho.eu"⟩

/-- The parser on these two URLs. -/
def sampleParse : UrlParser := fun s =>
  match [driveUrl, plainUrl].find? fun url => url.text = s with
  | some url => .ok url
  | none => .error "relative URL without a base"

def redirectTo (url : Url) : DownloadResponse :=
  ⟨302, some (url.text.toList.map fun c => UInt8.ofNat c.toNat), .ok []⟩

def fileBody : Bytes := [0x68, 0x69]

/-- So many redirects to an address without TLS, then the file. -/
def redirectsThen (n hop : Nat) : HopEnv :=
  ⟨.ok "t", .ok (if hop < n then redirectTo plainUrl else ⟨200, none, .ok fileBody⟩)⟩

theorem redirectsThen_chain (n : Nat) : RedirectChain sampleParse (redirectsThen n) n fileBody := by
  refine ⟨fun i => ⟨"t", rfl⟩, ?_, ?_⟩
  · intro i hi
    refine ⟨redirectTo plainUrl, plainUrl, ?_, by decide, by decide⟩
    unfold redirectsThen
    rw [if_pos hi]
  · refine ⟨⟨200, none, .ok fileBody⟩, ?_, by decide, rfl⟩
    unfold redirectsThen
    rw [if_neg (Nat.lt_irrefl n)]

/-- **A token without TLS.** The redirect leads to a trusted host under `http`, and the request
there carries the token. -/
theorem token_over_http :
    (download sampleParse (redirectsThen 1) "f1").1
      = [⟨driveUrl, some "Zoho-oauthtoken t"⟩, ⟨plainUrl, some "Zoho-oauthtoken t"⟩] ∧
    plainUrl.scheme ≠ "https" := by
  decide

/-- The second request of that download. -/
theorem plain_request_trusted :
    (⟨plainUrl, some "Zoho-oauthtoken t"⟩ : DownloadRequest).authorization.isSome = true ↔
      1 = 0 ∨ TrustedHost (plainUrl.hostStr.getD "") :=
  auth_iff sampleParse (redirectsThen 1) driveUrl 1 ⟨plainUrl, some "Zoho-oauthtoken t"⟩ (by decide)

/-- Four redirects are followed. -/
theorem four_redirects_followed :
    (downloadWithTrustedAuth sampleParse (redirectsThen 4) driveUrl).2 = .ok fileBody :=
  ((redirect_budget_iff (redirectsThen_chain 4) driveUrl).1.mpr (by decide)).1 (by decide)

/-- **The fifth redirect is one too many.** -/
theorem five_redirects_refused :
    maxRedirects = 5 ∧ RedirectChain sampleParse (redirectsThen 5) 5 fileBody ∧
    (download sampleParse (redirectsThen 5) "f1").2 = .error (.other "too many redirects") :=
  ⟨rfl, redirectsThen_chain 5, by decide⟩

end McpGateway.Zoho
