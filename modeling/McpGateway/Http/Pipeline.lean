import Mathlib.Logic.Function.Basic
import McpGateway.Gateway.Effects
import McpGateway.Gateway.RateLimit
import McpGateway.Keys.Routes

/-! # The way of a request

A request stays on one thread: through `RateLimiterFilter`, `ApiKeyFilter` and the rules of
`SecurityConfig` to its handler. The steps of `http` are the stages of the requests in flight, and
between them the key table, its cache and the clock change.

* `doFilterInternal_outcome` — the filter on whole rows is the one on what authentication reads. -/

namespace McpGateway.Http

open Foundation Gateway Keys

/-! ## Requests -/

/-- `jakarta.servlet.DispatcherType`, as far as the container uses it here. -/
inductive DispatcherType where
  | request | async | error
  deriving DecidableEq, Repr

/-- A request. The filters read the URI as it was sent; the matchers and the handler mapping read
the path, and nothing says that the two agree. -/
structure HttpRequest where
  dispatcherType : DispatcherType
  remoteAddr : String
  requestUri : String
  path : String
  credentials : FilterRequest
  /-- the call in the body, as the MCP endpoint reads it, and what the outside decides during it -/
  toolCall : Option (Env × ToolCall)

/-- The URI begins with the text. -/
def HttpRequest.uriStartsWith (request : HttpRequest) (start : String) : Bool :=
  start.toList.isPrefixOf request.requestUri.toList

/-! ## `ApiKeyService` -/

/-- The entity `ApiKey`. -/
structure ApiKeyEntity where
  row : KeyRow
  allowedTools : Option (List String)
  id_version : row.id.version = 4

/-- What the tools and aspects read of it. -/
def ApiKeyEntity.apiKey (e : ApiKeyEntity) : ApiKey :=
  ⟨e.row.id, e.row.role, e.allowedTools, e.id_version⟩

/-- The table, the cached list with the time it was loaded, and the clock. -/
structure KeyRepository where
  table : List ApiKeyEntity
  cache : Option (List ApiKeyEntity × Nat)
  now : Nat

namespace KeyRepository

variable (s : KeyRepository)

def liveCache : Option (List ApiKeyEntity × Nat) := s.cache.filter fun c => s.now < c.2 + keyCacheTtl

/-- `keyCache.get("all", k -> repository.findAll())`. -/
def cachedKeys : List ApiKeyEntity :=
  match s.liveCache with
  | some c => c.1
  | none => s.table

/-- The repository after it. -/
def load : KeyRepository :=
  match s.liveCache with
  | some _ => s
  | none => { s with cache := some (s.table, s.now) }

/-- The rows alone. -/
def view : KeyStore :=
  ⟨s.table.map ApiKeyEntity.row, s.cache.map fun c => ⟨c.1.map ApiKeyEntity.row, c.2⟩, s.now⟩

theorem view_liveCache :
    s.view.liveCache = s.liveCache.map fun c => ⟨c.1.map ApiKeyEntity.row, c.2⟩ := by
  unfold KeyStore.liveCache liveCache view
  rw [Option.filter_map]
  rfl

theorem view_cachedKeys : s.view.cachedKeys = s.cachedKeys.map ApiKeyEntity.row := by
  unfold KeyStore.cachedKeys cachedKeys
  rw [view_liveCache]
  cases s.liveCache <;> rfl

theorem view_load : s.load.view = s.view.load := by
  unfold KeyStore.load load
  rw [view_liveCache]
  cases s.liveCache <;> rfl

@[simp] theorem load_table : s.load.table = s.table := by
  unfold load
  cases s.liveCache <;> rfl

@[simp] theorem load_now : s.load.now = s.now := by
  unfold load
  cases s.liveCache <;> rfl

end KeyRepository

/-! ## `ApiKeyFilter` -/

/-- `shouldNotFilter` -/
def apiKeyFilterSkips (request : HttpRequest) : Bool :=
  ["/actuator/health", "/actuator/prometheus", "/.well-known/", "/oauth/"].any request.uriStartsWith

/-- The reason that is recorded and the message that is sent. -/
abbrev Refusal := String × String

/-- The row of the list that is usable and satisfies the test. -/
def findKey (s : KeyRepository) (test : KeyRow → Bool) : Option ApiKeyEntity :=
  s.cachedKeys.find? fun e => usable s.now e.row && test e.row

/-- `doFilterInternal` up to `setAuthentication`, and the repository after it. -/
def doFilterInternal (server : Server) (s : KeyRepository) (request : FilterRequest) :
    Except Refusal ApiKeyEntity × KeyRepository :=
  match (notBlank request.apiKeyHeader).or (notBlank request.apiKeyParameter) with
  | some rawKey =>
      match findKey s fun key => server.hasher.matchesHash rawKey key.keyHash with
      | some e => (.ok e, s.load)
      | none => (.error ("invalid_key", "Invalid API key"), s.load)
  | none =>
      match request.authorization.filter fun header => bearerPrefix.isPrefixOf header with
      | some authHeader =>
          match OAuth.validate server.hmacSha256 server.jwtSecret
              (some (authHeader.drop bearerPrefix.length)) (s.now / nanosPerSecond) with
          | some claims =>
              match findKey s fun key => getBytes claims.keyHash = getBytes (jstr key.keyHash) with
              | some e => (.ok e, s.load)
              | none => (.error ("invalid_bearer", "Invalid Bearer token"), s.load)
          | none => (.error ("invalid_bearer", "Invalid Bearer token"), s)
      | none => (.error ("missing_credentials", "Authentication required"), s)

/-- Without what authentication does not read. -/
def outcomeOf : Except Refusal ApiKeyEntity → Keys.FilterOutcome
  | .ok e => .authenticated e.row
  | .error (reason, message) => .unauthorized reason message

theorem findKey_row (s : KeyRepository) (test : KeyRow → Bool) :
    (findKey s test).map ApiKeyEntity.row
      = s.view.cachedKeys.find? fun key => usable s.now key && test key := by
  rw [KeyRepository.view_cachedKeys, List.find?_map]
  rfl

/-- The filter does what it does on the rows. -/
theorem doFilterInternal_outcome (server : Server) (s : KeyRepository) (request : FilterRequest) :
    outcomeOf (doFilterInternal server s request).1
      = server.doFilterInternal s.view.cachedKeys s.now request := by
  unfold doFilterInternal Server.doFilterInternal
  cases (notBlank request.apiKeyHeader).or (notBlank request.apiKeyParameter) with
  | some rawKey =>
      have hrow := findKey_row s fun key => server.hasher.matchesHash rawKey key.keyHash
      dsimp only
      unfold authenticate
      rw [← hrow]
      cases findKey s fun key => server.hasher.matchesHash rawKey key.keyHash <;> rfl
  | none =>
      cases request.authorization.filter fun header => bearerPrefix.isPrefixOf header with
      | none => rfl
      | some authHeader =>
          dsimp only
          cases OAuth.validate server.hmacSha256 server.jwtSecret
              (some (authHeader.drop bearerPrefix.length)) (s.now / nanosPerSecond) with
          | none => rfl
          | some claims =>
              have hrow := findKey_row s fun key =>
                getBytes claims.keyHash = getBytes (jstr key.keyHash)
              dsimp only [Option.bind]
              unfold authenticateByHash
              rw [← hrow]
              cases findKey s fun key => getBytes claims.keyHash = getBytes (jstr key.keyHash) <;> rfl

/-- What a credential shows: the key of a row, or a JWT with its hash. -/
def Presents (server : Server) (request : FilterRequest) (now : Nat) (key : KeyRow) : Prop :=
  (∃ rawKey, (notBlank request.apiKeyHeader).or (notBlank request.apiKeyParameter) = some rawKey ∧
    server.hasher.hash rawKey = key.keyHash) ∨
  ∃ jwt claims, request.authorization = some (bearerPrefix ++ jwt) ∧
    OAuth.validate server.hmacSha256 server.jwtSecret (some jwt) (now / nanosPerSecond)
      = some claims ∧ getBytes claims.keyHash = getBytes (jstr key.keyHash)

theorem findKey_eq_some {s : KeyRepository} {test : KeyRow → Bool} {e : ApiKeyEntity}
    (h : findKey s test = some e) :
    e ∈ s.cachedKeys ∧ usable s.now e.row = true ∧ test e.row = true := by
  have hfound := List.find?_some h
  rw [Bool.and_eq_true] at hfound
  exact ⟨List.mem_of_find?_eq_some h, hfound⟩

/-- **Who passes the filter** has shown the credential of a usable row of the list. -/
theorem doFilterInternal_ok {server : Server} {s s' : KeyRepository} {request : FilterRequest}
    {e : ApiKeyEntity} (h : doFilterInternal server s request = (.ok e, s')) :
    s' = s.load ∧ e ∈ s.cachedKeys ∧ usable s.now e.row = true ∧
      Presents server request s.now e.row := by
  unfold doFilterInternal at h
  split at h
  · next rawKey hraw =>
    split at h
    · next e' hkey =>
      cases h
      obtain ⟨hmem, husable, htest⟩ := findKey_eq_some hkey
      exact ⟨rfl, hmem, husable, Or.inl ⟨rawKey, hraw, matchesHash_iff.mp htest⟩⟩
    · cases h
  · split at h
    · next authHeader hheader =>
      split at h
      · next claims hclaims =>
        split at h
        · next e' hkey =>
          cases h
          obtain ⟨hmem, husable, htest⟩ := findKey_eq_some hkey
          obtain ⟨hauthorization, hprefix⟩ := Option.filter_eq_some_iff.mp hheader
          obtain ⟨jwt, rfl⟩ := List.isPrefixOf_iff_prefix.mp hprefix
          rw [List.drop_left] at hclaims
          exact ⟨rfl, hmem, husable, Or.inr ⟨jwt, claims, hauthorization, hclaims,
            of_decide_eq_true htest⟩⟩
        · cases h
      · cases h
    · cases h

/-- Whoever asks, the repository at most loads its list. -/
theorem doFilterInternal_keys {server : Server} {s s' : KeyRepository} {request : FilterRequest}
    {out : Except Refusal ApiKeyEntity} (h : doFilterInternal server s request = (out, s')) :
    s' = s ∨ s' = s.load := by
  unfold doFilterInternal at h
  split at h
  · split at h <;> cases h <;> exact Or.inr rfl
  · split at h
    · split at h
      · split at h <;> cases h <;> exact Or.inr rfl
      · cases h
        exact Or.inl rfl
    · cases h
      exact Or.inl rfl

/-- The entry of a failed authentication. -/
def failureEntry (remoteAddr reason : String) : AuditEntry :=
  ⟨"authentication_failure", none,
    [("reason", .text (jstr reason)), ("ip", .text (jstr remoteAddr))], jstr "rejected"⟩

/-- `recordFailure` -/
def recordFailure (env : Env) (request : HttpRequest) (reason : String) : GatewayM Unit :=
  log env (failureEntry request.remoteAddr reason)

/-! ## `SecurityConfig` -/

/-- What a rule is about: `under p` is `p/**`. -/
inductive Matcher where
  | dispatcherTypeMatchers (dispatcherType : DispatcherType)
  | requestMatchers (path : String)
  | under (path : String)
  | anyRequest

def Matcher.matches (request : HttpRequest) : Matcher → Bool
  | .dispatcherTypeMatchers dispatcherType => request.dispatcherType = dispatcherType
  | .requestMatchers path => request.path = path
  | .under path => request.path = path || (path ++ "/").toList.isPrefixOf request.path.toList
  | .anyRequest => true

inductive Access where
  | permitAll
  | hasRole (role : String)
  | authenticated

/-- The authority is `ROLE_` with the name of the role of the key. -/
def Access.granted (auth : Authentication) : Access → Bool
  | .permitAll => true
  | .hasRole role => auth.key?.any fun key => "ROLE_" ++ key.role.name = "ROLE_" ++ role
  | .authenticated => auth.key?.isSome

/-- `authorizeHttpRequests` -/
def authorizeHttpRequests : List (Matcher × Access) := [
  (.dispatcherTypeMatchers .async, .permitAll),
  (.requestMatchers "/actuator/health", .permitAll),
  (.requestMatchers "/actuator/prometheus", .permitAll),
  (.requestMatchers "/error", .permitAll),
  (.requestMatchers "/.well-known/oauth-authorization-server", .permitAll),
  (.requestMatchers "/.well-known/oauth-protected-resource", .permitAll),
  (.requestMatchers "/oauth/authorize", .permitAll),
  (.requestMatchers "/oauth/token", .permitAll),
  (.requestMatchers "/oauth/register", .permitAll),
  (.under "/actuator", .hasRole "ADMIN"),
  (.anyRequest, .authenticated)]

/-- The first rule that matches decides. -/
def permitted (request : HttpRequest) (auth : Authentication) : Bool :=
  match authorizeHttpRequests.find? fun rule => rule.1.matches request with
  | some rule => rule.2.granted auth
  | none => false

/-! ## Handlers -/

/-- The endpoint of the MCP server. -/
def mcpEndpoint : String := "/mcp"

/-- The call a request gets to run; an `ASYNC` or `ERROR` dispatch completes another request. -/
def HttpRequest.dispatched (request : HttpRequest) : Option (Env × ToolCall) :=
  if request.dispatcherType = .request ∧ request.path = mcpEndpoint then request.toolCall else none

/-! ## Requests in flight -/

/-- Where a request is. In the first stage it has read the clock and is still to enter the
`synchronized` block. -/
inductive Stage where
  | rateLimiter (now : Int)
  | apiKeyFilter
  | authorization
  | handler

/-- A request on its thread. `lookedUp` is not part of the program: the row its principal is from,
and when it was looked up. -/
structure InFlight where
  request : HttpRequest
  stage : Stage
  lookedUp : Option (ApiKeyEntity × Nat)

/-- A call that ran. -/
structure ToolRun where
  request : HttpRequest
  inv : Invocation
  lookedUp : Option (ApiKeyEntity × Nat)

/-- The gateway, with the `SecurityContext` and the request of each thread. `toolRuns` and `refusals`
are not part of the program: the calls that ran, and the entries of the refused requests that could
be written. -/
structure State where
  keys : KeyRepository
  requestLog : String → List Int
  gateway : GatewayState
  context : Nat → Authentication
  threads : Nat → Option InFlight
  toolRuns : List ToolRun
  refusals : List AuditEntry

inductive Action where
  | arrive (t : Nat) (request : HttpRequest)
  /-- the `synchronized` block of `RateLimiterFilter` -/
  | limit (t : Nat)
  /-- `ApiKeyFilter` -/
  | check (t : Nat) (env : Env)
  | authorize (t : Nat)
  | handle (t : Nat)
  | change (table : List ApiKeyEntity)
  | invalidateCache
  | advance (elapsed : Nat)
  /-- the deque of an address leaves the cache -/
  | evict (remoteAddr : String)

/-- `System.currentTimeMillis()` -/
def KeyRepository.currentTimeMillis (s : KeyRepository) : Int := s.now / 1000000

/-- `OncePerRequestFilter` leaves the other dispatches alone. -/
def limited (request : HttpRequest) : Bool :=
  request.dispatcherType = .request && !Gateway.shouldNotFilter request.requestUri

def checked (request : HttpRequest) : Bool :=
  request.dispatcherType = .request && !apiKeyFilterSkips request

/-- `AnonymousAuthenticationFilter` -/
def orAnonymous : Authentication → Authentication
  | .absent => .otherPrincipal
  | auth => auth

namespace State

variable (s : State)

/-- The request goes on. -/
def goOn (t : Nat) (request : HttpRequest) (stage : Stage)
    (lookedUp : Option (ApiKeyEntity × Nat)) : State :=
  { s with threads := Function.update s.threads t (some ⟨request, stage, lookedUp⟩) }

/-- The response is complete: `finally` clears the context. -/
def finish (t : Nat) : State :=
  { s with
    threads := Function.update s.threads t none
    context := Function.update s.context t .absent }

def limit (maxRequestsPerWindow : Int) (t : Nat) (request : HttpRequest) (now : Int) : State :=
  let (times, outcome) := enterWindow maxRequestsPerWindow now (s.requestLog request.remoteAddr)
  let s := { s with requestLog := Function.update s.requestLog request.remoteAddr times }
  match outcome with
  | .passed => s.goOn t request .apiKeyFilter none
  | .tooManyRequests => s.finish t

/-- `recordFailure` and the `401`, or an exception of the audit. -/
def refuse (env : Env) (t : Nat) (request : HttpRequest) (reason : String) : State :=
  let (out, session) := recordFailure env request reason s.gateway.session
  State.finish { s with
    gateway := ⟨session.store, session.conn⟩
    refusals := s.refusals ++ if out.isOk then [failureEntry request.remoteAddr reason] else [] } t

/-- `setAuthentication` -/
def authenticate (t : Nat) (request : HttpRequest) (e : ApiKeyEntity) : State :=
  State.goOn { s with context := Function.update s.context t (.apiKey e.apiKey) } t request
    .authorization (some (e, s.keys.now))

def check (server : Server) (env : Env) (t : Nat) (request : HttpRequest) : State :=
  if checked request then
    let (out, keys) := doFilterInternal server s.keys request.credentials
    match out with
    | .ok e => State.authenticate { s with keys := keys } t request e
    | .error (reason, _) => State.refuse { s with keys := keys } env t request reason
  else s.goOn t request .authorization none

/-- A denied request gets a `403`. -/
def authorize (t : Nat) (f : InFlight) : State :=
  let auth := orAnonymous (s.context t)
  if permitted f.request auth then
    State.goOn { s with context := Function.update s.context t auth } t f.request .handler
      f.lookedUp
  else s.finish t

def handle (p : Platform) (t : Nat) (f : InFlight) : State :=
  match f.request.dispatched with
  | some (env, call) =>
      let inv : Invocation := ⟨env, s.context t, call⟩
      State.finish { s with
        gateway := after p inv s.gateway
        toolRuns := s.toolRuns ++ [⟨f.request, inv, f.lookedUp⟩] } t
  | none => s.finish t

end State

/-- The deployment: the server, the platform of the tools, and
`mcp.security.rate-limit.max-requests`. -/
structure Deployment where
  server : Server
  platform : Platform
  maxRequestsPerWindow : Int

/-- The stages of the requests, and what changes between them. -/
def http (d : Deployment) : System State Action where
  init s := s.keys.cache = none ∧ s.gateway.conn.IsUnset ∧
    (∀ t, s.threads t = none ∧ s.context t = .absent) ∧ s.toolRuns = [] ∧ s.refusals = []
  step s
    | .arrive t request =>
        match s.threads t with
        | some _ => none
        | none => some (s.goOn t request
            (if limited request then .rateLimiter s.keys.currentTimeMillis else .apiKeyFilter) none)
    | .limit t =>
        match s.threads t with
        | some ⟨request, .rateLimiter now, _⟩ =>
            some (s.limit d.maxRequestsPerWindow t request now)
        | _ => none
    | .check t env =>
        match s.threads t with
        | some ⟨request, .apiKeyFilter, _⟩ => some (s.check d.server env t request)
        | _ => none
    | .authorize t =>
        match s.threads t with
        | some ⟨request, .authorization, lookedUp⟩ =>
            some (s.authorize t ⟨request, .authorization, lookedUp⟩)
        | _ => none
    | .handle t =>
        match s.threads t with
        | some ⟨request, .handler, lookedUp⟩ =>
            some (s.handle d.platform t ⟨request, .handler, lookedUp⟩)
        | _ => none
    | .change table => some { s with keys := { s.keys with table := table } }
    | .invalidateCache => some { s with keys := { s.keys with cache := none } }
    | .advance elapsed => some { s with keys := { s.keys with now := s.keys.now + elapsed } }
    | .evict remoteAddr =>
        some { s with requestLog := Function.update s.requestLog remoteAddr [] }

end McpGateway.Http
