import McpGateway.Foundation.Transition
import McpGateway.Ingestion.RunCycle

/-! # `ZohoTokenCache`

Concurrent callers of `refresh_if_needed`: a load without a lock, the gate, a second load under it,
and the refresh. The safety margin is subtracted from the expiry that is stored and added again in
the freshness test.

* `single_flight_iff` — in a complete run against a server that grants, exactly one request is sent
  and every caller gets its token, if and only if every load under the gate after the grant comes
  earlier than `expires_in` less twice the margin.
* `margin_counts_twice` — a token for 600 seconds is fetched again at once. -/

namespace McpGateway.Zoho

open Foundation Ingestion

/-! ## The refresh -/

def accessTokenTtlSafetySecs : Nat := 300

/-- `Instant`s are nanoseconds on the monotonic clock. Adding to one panics past the last `Instant`
there is; a caller that panics does not finish. -/
structure CachedToken where
  accessToken : String
  expiresAt : Nat
  deriving DecidableEq, Repr

/-- `classify_oauth_error` -/
def classifyOauthError (code : String) : AuthErrorKind :=
  if code = "invalid_code" then .invalidCode
  else if code = "access_denied" then .accessDenied
  else if code = "invalid_client" ∨ code = "invalid_client_secret" then .invalidClient
  else .unexpected

/-- What comes back from the token endpoint. -/
inductive OauthReply where
  | sendError (e : String)
  | undecodable
  | response (status : Nat) (accessToken : Option String) (expiresIn : Option Nat)
      (error : Option String)
  deriving DecidableEq, Repr

def isSuccess (status : Nat) : Bool := 200 ≤ status && status < 300

/-- `body.expires_in.unwrap_or(3600)` -/
def OauthReply.expiresIn : OauthReply → Nat
  | .response _ _ expiresIn _ => expiresIn.getD 3600
  | _ => 0

/-- `call_oauth_refresh`, once the reply is there. -/
def callOauthRefresh (now : Nat) (reply : OauthReply) : Except ConnectorError CachedToken :=
  match reply with
  | .sendError e => .error (.other ("OAuth token request failed: " ++ e))
  | .undecodable => .error (.auth .unexpected)
  | .response status accessToken _ error =>
      match error with
      | some code => .error (.auth (classifyOauthError code))
      | none =>
          if !isSuccess status then .error (.auth .unexpected)
          else match accessToken with
            | none => .error (.other "OAuth response missing access_token")
            | some accessToken => .ok ⟨accessToken,
                now + (reply.expiresIn - accessTokenTtlSafetySecs) * nanosPerSecond⟩

/-- `t.expires_at > Instant::now() + Duration::from_secs(ACCESS_TOKEN_TTL_SAFETY_SECS)` -/
def CachedToken.isFresh (now : Nat) (t : CachedToken) : Bool :=
  t.expiresAt > now + accessTokenTtlSafetySecs * nanosPerSecond

/-- The token a load returns with. -/
def freshToken (now : Nat) (cached : Option CachedToken) : Option String :=
  (cached.filter (CachedToken.isFresh now)).map CachedToken.accessToken

/-! ## Concurrent callers -/

/-- Where a caller of `refresh_if_needed` is; from `locked` to `unlocking` it holds the gate. -/
inductive Caller where
  | start
  | waiting
  | locked
  | stale
  | calling
  | storing (token : CachedToken)
  | unlocking (result : Except ConnectorError String)
  | done (result : Except ConnectorError String)

/-- A grant: not part of the program. -/
structure Grant where
  token : String
  expiresIn : Nat
  time : Nat

/-- `requests` and `grants` are not part of the program: how many requests have been sent to the
token endpoint, and what it has granted. -/
structure CacheState where
  now : Nat
  cached : Option CachedToken
  gate : Option Nat
  callers : List Caller
  requests : Nat
  grants : List Grant

inductive CacheAction where
  | tick (elapsed : Nat)
  | load (i : Nat)
  | lock (i : Nat)
  | loadLocked (i : Nat)
  | send (i : Nat)
  | receive (i : Nat) (reply : OauthReply)
  | store (i : Nat)
  | unlock (i : Nat)

def CacheState.setCaller (s : CacheState) (i : Nat) (c : Caller) : CacheState :=
  { s with callers := s.callers.set i c }

/-- The reply makes the caller store a token, or leave with the error. -/
def CacheState.receive (s : CacheState) (i : Nat) (reply : OauthReply) : CacheState :=
  match callOauthRefresh s.now reply with
  | .error e => s.setCaller i (.unlocking (.error e))
  | .ok token =>
      let grant : Grant := ⟨token.accessToken, reply.expiresIn, s.now⟩
      { s with grants := s.grants ++ [grant] }.setCaller i (.storing token)

def CacheState.stepCaller (s : CacheState) (i : Nat) : Caller → CacheAction → Option CacheState
  | .start, .load _ =>
      match freshToken s.now s.cached with
      | some token => some (s.setCaller i (.done (.ok token)))
      | none => some (s.setCaller i .waiting)
  | .waiting, .lock _ =>
      -- `gate.lock().await`: possible only while nobody holds it
      if s.gate = none then some ({ s with gate := some i }.setCaller i .locked) else none
  | .locked, .loadLocked _ =>
      match freshToken s.now s.cached with
      | some token => some (s.setCaller i (.unlocking (.ok token)))
      | none => some (s.setCaller i .stale)
  | .stale, .send _ => some ({ s with requests := s.requests + 1 }.setCaller i .calling)
  | .calling, .receive _ reply => some (s.receive i reply)
  | .storing token, .store _ =>
      some ({ s with cached := some token }.setCaller i (.unlocking (.ok token.accessToken)))
  | .unlocking result, .unlock _ => some ({ s with gate := none }.setCaller i (.done result))
  | _, _ => none

/-- The caller an action is of. -/
def CacheAction.caller? : CacheAction → Option Nat
  | .tick _ => none
  | .load i | .lock i | .loadLocked i | .send i | .receive i _ | .store i | .unlock i => some i

def CacheState.step (s : CacheState) (a : CacheAction) : Option CacheState :=
  match a with
  | .tick elapsed => some { s with now := s.now + elapsed }
  | a => do
      let i ← a.caller?
      let c ← s.callers[i]?
      s.stepCaller i c a

/-- Any number of callers of one cache that is empty or stale. -/
def tokenCache : System CacheState CacheAction where
  init s := freshToken s.now s.cached = none ∧ s.gate = none ∧ (∀ c ∈ s.callers, c = .start) ∧
    s.requests = 0 ∧ s.grants = []
  step := CacheState.step

/-- The token endpoint grants. -/
def grantsToken (s : CacheState) : CacheAction → Bool
  | .receive _ reply => (callOauthRefresh s.now reply).isOk
  | _ => true

/-- A load under the gate comes earlier than `expires_in` less twice the margin after the grant. -/
def readsEarly (s : CacheState) : CacheAction → Bool
  | .loadLocked _ => s.grants.all fun g =>
      s.now + 2 * accessTokenTtlSafetySecs * nanosPerSecond < g.time + g.expiresIn * nanosPerSecond
  | _ => true

/-- Every caller has returned. -/
def CacheState.complete (s : CacheState) : Prop :=
  ∀ c ∈ s.callers, ∃ result, c = .done result

/-! ## Freshness -/

/-- The token a grant makes. -/
def Grant.cached (g : Grant) : CachedToken :=
  ⟨g.token, g.time + (g.expiresIn - accessTokenTtlSafetySecs) * nanosPerSecond⟩

/-- **The margin counts twice.** -/
theorem freshToken_granted {g : Grant} {now : Nat} (h : g.time ≤ now) :
    freshToken now (some g.cached) =
      if now + 2 * accessTokenTtlSafetySecs * nanosPerSecond < g.time + g.expiresIn * nanosPerSecond
      then some g.token else none := by
  have hfresh : g.cached.isFresh now = true ↔
      now + 2 * accessTokenTtlSafetySecs * nanosPerSecond
        < g.time + g.expiresIn * nanosPerSecond := by
    unfold CachedToken.isFresh
    rw [decide_eq_true_eq]
    show now + 300 * 1000000000 < g.time + (g.expiresIn - 300) * 1000000000 ↔
      now + 2 * 300 * 1000000000 < g.time + g.expiresIn * 1000000000
    -- natural subtraction: an expiry below the margin is stored as the time of the grant
    omega
  unfold freshToken
  by_cases hc : g.cached.isFresh now = true
  · rw [if_pos (hfresh.mp hc), Option.filter_some, if_pos hc]
    rfl
  · rw [if_neg (fun h => hc (hfresh.mpr h)), Option.filter_some, if_neg hc]
    rfl

/-- What is stale stays stale. -/
theorem freshToken_later {now later : Nat} {cached : Option CachedToken} (h : now ≤ later)
    (hstale : freshToken now cached = none) : freshToken later cached = none := by
  cases cached with
  | none => rfl
  | some t =>
      have hnot : ¬ t.isFresh now = true := by
        intro hf
        unfold freshToken at hstale
        rw [Option.filter_some, if_pos hf] at hstale
        cases hstale
      have hlater : ¬ t.isFresh later = true := by
        intro hf
        apply hnot
        unfold CachedToken.isFresh at hf ⊢
        rw [decide_eq_true_eq] at hf ⊢
        omega
      unfold freshToken
      rw [Option.filter_some, if_neg hlater]
      rfl

/-- What a granting reply makes the caller store. -/
theorem callOauthRefresh_ok {now : Nat} {reply : OauthReply} {token : CachedToken}
    (h : callOauthRefresh now reply = .ok token) :
    token = Grant.cached ⟨token.accessToken, reply.expiresIn, now⟩ := by
  cases reply with
  | sendError e => cases h
  | undecodable => cases h
  | response status accessToken expiresIn error =>
      unfold callOauthRefresh at h
      cases error with
      | some code => cases h
      | none =>
          dsimp only at h
          split_ifs at h
          cases accessToken with
          | none => cases h
          | some t =>
              cases h
              rfl

/-! ## What a caller can do -/

/-- The moves of a caller. -/
inductive Move (s : CacheState) (i : Nat) : Caller → CacheAction → CacheState → Prop where
  | loadFresh {j : Nat} {token : String} : freshToken s.now s.cached = some token →
      Move s i .start (.load j) (s.setCaller i (.done (.ok token)))
  | loadStale {j : Nat} : freshToken s.now s.cached = none →
      Move s i .start (.load j) (s.setCaller i .waiting)
  | lock {j : Nat} : s.gate = none →
      Move s i .waiting (.lock j) ({ s with gate := some i }.setCaller i .locked)
  | lockedFresh {j : Nat} {token : String} : freshToken s.now s.cached = some token →
      Move s i .locked (.loadLocked j) (s.setCaller i (.unlocking (.ok token)))
  | lockedStale {j : Nat} : freshToken s.now s.cached = none →
      Move s i .locked (.loadLocked j) (s.setCaller i .stale)
  | send {j : Nat} :
      Move s i .stale (.send j) ({ s with requests := s.requests + 1 }.setCaller i .calling)
  | receive {j : Nat} {reply : OauthReply} :
      Move s i .calling (.receive j reply) (s.receive i reply)
  | store {j : Nat} {token : CachedToken} : Move s i (.storing token) (.store j)
      ({ s with cached := some token }.setCaller i (.unlocking (.ok token.accessToken)))
  | unlock {j : Nat} {result : Except ConnectorError String} :
      Move s i (.unlocking result) (.unlock j) ({ s with gate := none }.setCaller i (.done result))

variable {s s' : CacheState} {a : CacheAction} {i : Nat} {c : Caller}

theorem move_of_stepCaller (h : s.stepCaller i c a = some s') : Move s i c a s' := by
  unfold CacheState.stepCaller at h
  split at h
  · split at h
    · cases h
      exact .loadFresh ‹_›
    · cases h
      exact .loadStale ‹_›
  · split_ifs at h with hgate
    cases h
    exact .lock hgate
  · split at h
    · cases h
      exact .lockedFresh ‹_›
    · cases h
      exact .lockedStale ‹_›
  · cases h
    exact .send
  · cases h
    exact .receive
  · cases h
    exact .store
  · cases h
    exact .unlock
  · cases h

/-- **A step.** Time passes, or one caller moves. -/
theorem step_cases (h : s.step a = some s') :
    (∃ elapsed, a = .tick elapsed ∧ s' = { s with now := s.now + elapsed }) ∨
    ∃ i c, s.callers[i]? = some c ∧ Move s i c a s' := by
  cases a with
  | tick elapsed =>
      cases h
      exact Or.inl ⟨elapsed, rfl, rfl⟩
  | _ =>
      obtain ⟨c, hc, h⟩ := Option.bind_eq_some_iff.mp h
      exact Or.inr ⟨_, c, hc, move_of_stepCaller h⟩

/-- Who is where after one caller has moved. -/
theorem getElem?_setCaller {j : Nat} {c' d : Caller} (h : (s.setCaller i c').callers[j]? = some d) :
    (j = i ∧ d = c') ∨ (j ≠ i ∧ s.callers[j]? = some d) := by
  unfold CacheState.setCaller at h
  rw [List.getElem?_set] at h
  by_cases hij : i = j
  · rw [if_pos hij] at h
    split_ifs at h
    cases h
    exact Or.inl ⟨hij.symm, rfl⟩
  · rw [if_neg hij] at h
    exact Or.inr ⟨fun hji => hij hji.symm, h⟩

theorem mem_setCaller {c' d : Caller} (h : d ∈ (s.setCaller i c').callers) :
    d = c' ∨ d ∈ s.callers := by
  rcases List.mem_or_eq_of_mem_set h with h | h
  · exact Or.inr h
  · exact Or.inl h

theorem getElem?_setCaller_self (c' : Caller) (h : s.callers[i]? = some c) :
    (s.setCaller i c').callers[i]? = some c' := by
  unfold CacheState.setCaller
  obtain ⟨hlt, -⟩ := List.getElem?_eq_some_iff.mp h
  rw [List.getElem?_set_self hlt]

theorem getElem?_setCaller_of_ne {j : Nat} (c' : Caller) (h : j ≠ i) :
    (s.setCaller i c').callers[j]? = s.callers[j]? := by
  unfold CacheState.setCaller
  rw [List.getElem?_set_ne h.symm]

/-! ## The gate -/

def Caller.holdsGate : Caller → Bool
  | .start | .waiting | .done _ => false
  | .locked | .stale | .calling | .storing _ | .unlocking _ => true

/-- Who holds the gate is in it. -/
def GateHeld (s : CacheState) : Prop :=
  ∀ i c, s.callers[i]? = some c → c.holdsGate = true → s.gate = some i

/-- A caller that does not take the gate with its move. -/
theorem GateHeld.setCaller {c' : Caller} (hgate : GateHeld s) (hi : s.callers[i]? = some c)
    (h : c'.holdsGate = true → c.holdsGate = true) : GateHeld (s.setCaller i c') := by
  intro j d hj hd
  rcases getElem?_setCaller hj with ⟨rfl, rfl⟩ | ⟨-, hj⟩
  · exact hgate j c hi (h hd)
  · exact hgate j d hj hd

theorem GateHeld.step (hgate : GateHeld s) (h : s.step a = some s') : GateHeld s' := by
  rcases step_cases h with ⟨elapsed, rfl, rfl⟩ | ⟨i, c, hi, hmove⟩
  · exact hgate
  · cases hmove with
    | loadFresh _ => exact hgate.setCaller hi (by simp [Caller.holdsGate])
    | loadStale _ => exact hgate.setCaller hi (by simp [Caller.holdsGate])
    | lock hfree =>
        intro j d hj hd
        rcases getElem?_setCaller hj with ⟨rfl, -⟩ | ⟨-, hj⟩
        · rfl
        · have hheld := hgate j d hj hd
          rw [hfree] at hheld
          cases hheld
    | lockedFresh _ => exact hgate.setCaller hi fun _ => rfl
    | lockedStale _ => exact hgate.setCaller hi fun _ => rfl
    | send => exact hgate.setCaller hi fun _ => rfl
    | receive =>
        unfold CacheState.receive
        split
        · exact hgate.setCaller hi fun _ => rfl
        · exact hgate.setCaller hi fun _ => rfl
    | store => exact hgate.setCaller hi fun _ => rfl
    | unlock =>
        intro j d hj hd
        rcases getElem?_setCaller hj with ⟨-, rfl⟩ | ⟨hne, hj⟩
        · cases hd
        · have hself := hgate i _ hi rfl
          rw [hgate j d hj hd] at hself
          cases hself
          exact absurd rfl hne

/-- Two callers in the gate are one. -/
theorem GateHeld.eq_of_holds {j : Nat} {d : Caller} (hgate : GateHeld s)
    (hi : s.callers[i]? = some c) (hj : s.callers[j]? = some d) (hc : c.holdsGate = true)
    (hd : d.holdsGate = true) : c = d := by
  have hij : i = j := Option.some.inj ((hgate i c hi hc).symm.trans (hgate j d hj hd))
  subst hij
  rw [hi] at hj
  exact Option.some.inj hj

/-! ## One flight -/

/-- Before the grant: at most one caller is on its way to the token endpoint. -/
structure Before (s : CacheState) : Prop where
  grants : s.grants = []
  stale : freshToken s.now s.cached = none
  early : ∀ c ∈ s.callers, c = .start ∨ c = .waiting ∨ c = .locked ∨ c = .stale ∨ c = .calling
  requests : (s.requests = 0 ∧ .calling ∉ s.callers) ∨ (s.requests = 1 ∧ .calling ∈ s.callers)

/-- Where a caller may be after the grant. -/
def Served (g : Grant) : Caller → Prop
  | .start | .waiting | .locked => True
  | .stale | .calling => False
  | .storing token => token = g.cached
  | .unlocking result | .done result => result = .ok g.token

/-- After the grant, as long as the cache is read early: the token is in the cache, or about to be
stored. -/
structure After (g : Grant) (s : CacheState) : Prop where
  grants : s.grants = [g]
  time : g.time ≤ s.now
  requests : s.requests = 1
  served : ∀ c ∈ s.callers, Served g c
  cached : s.cached = some g.cached ∨
    (freshToken s.now s.cached = none ∧ .storing g.cached ∈ s.callers)

theorem Before.start (h : tokenCache.init s) : Before s := by
  obtain ⟨hstale, -, hcallers, hrequests, hgrants⟩ := h
  refine ⟨hgrants, hstale, fun c hc => Or.inl (hcallers c hc), Or.inl ⟨hrequests, ?_⟩⟩
  intro hcalling
  cases hcallers _ hcalling

/-- A caller that neither starts nor ends its call, before the grant. -/
theorem Before.setCaller {c' : Caller} (hb : Before s) (hi : s.callers[i]? = some c)
    (hc : c ≠ .calling) (hc' : c' = .waiting ∨ c' = .locked ∨ c' = .stale) :
    Before (s.setCaller i c') := by
  refine ⟨hb.grants, hb.stale, ?_, ?_⟩
  · intro d hd
    rcases mem_setCaller hd with rfl | hd
    · rcases hc' with rfl | rfl | rfl <;> simp
    · exact hb.early d hd
  · have hcalling : .calling ∈ (s.setCaller i c').callers ↔ .calling ∈ s.callers := by
      constructor
      · intro h
        rcases mem_setCaller h with h | h
        · rcases hc' with rfl | rfl | rfl <;> cases h
        · exact h
      · intro h
        obtain ⟨j, hj⟩ := List.getElem?_of_mem h
        have hne : j ≠ i := by
          rintro rfl
          rw [hi] at hj
          exact hc (Option.some.inj hj)
        exact List.mem_of_getElem? ((getElem?_setCaller_of_ne c' hne).trans hj)
    rw [hcalling]
    exact hb.requests

/-- The grant arrives. -/
theorem Before.receive {reply : OauthReply} (hb : Before s) (hgate : GateHeld s)
    (hi : s.callers[i]? = some .calling) (hgrants : (callOauthRefresh s.now reply).isOk = true) :
    ∃ g, After g (s.receive i reply) := by
  cases hreply : callOauthRefresh s.now reply with
  | error e =>
      rw [hreply] at hgrants
      cases hgrants
  | ok token =>
      have htoken := callOauthRefresh_ok hreply
      refine ⟨⟨token.accessToken, reply.expiresIn, s.now⟩, ?_⟩
      unfold CacheState.receive
      rw [hreply]
      dsimp only
      constructor
      · show s.grants ++ _ = _
        rw [hb.grants]
        rfl
      · exact Nat.le_refl _
      · rcases hb.requests with ⟨-, hnone⟩ | ⟨hone, -⟩
        · exact absurd (List.mem_of_getElem? hi) hnone
        · exact hone
      · intro d hd
        obtain ⟨j, hj⟩ := List.getElem?_of_mem hd
        rcases getElem?_setCaller hj with ⟨-, rfl⟩ | ⟨hne, hj⟩
        · exact htoken
        · -- nobody else is on the way to the token endpoint, for one caller holds the gate
          have halone : d.holdsGate = true → False := by
            intro hd
            have hself := hgate i _ hi rfl
            rw [hgate j d hj hd] at hself
            exact hne (Option.some.inj hself)
          rcases hb.early d (List.mem_of_getElem? hj) with rfl | rfl | rfl | rfl | rfl
          · trivial
          · trivial
          · trivial
          · exact absurd rfl halone
          · exact absurd rfl halone
      · right
        refine ⟨hb.stale, ?_⟩
        rw [← htoken]
        exact List.mem_of_getElem? (getElem?_setCaller_self _ hi)

/-- **One step before the grant.** -/
theorem Before.step (hb : Before s) (hgate : GateHeld s) (hgrants : grantsToken s a = true)
    (h : s.step a = some s') : Before s' ∨ ∃ g, After g s' := by
  rcases step_cases h with ⟨elapsed, rfl, rfl⟩ | ⟨i, c, hi, hmove⟩
  · exact Or.inl ⟨hb.grants, freshToken_later (Nat.le_add_right _ _) hb.stale, hb.early, hb.requests⟩
  · cases hmove with
    | loadFresh hfresh =>
        rw [hb.stale] at hfresh
        cases hfresh
    | loadStale _ => exact Or.inl (hb.setCaller hi (by simp) (by simp))
    | lock hfree =>
        left
        have hb' : Before { s with gate := some i } := ⟨hb.grants, hb.stale, hb.early, hb.requests⟩
        exact hb'.setCaller hi (by simp) (by simp)
    | lockedFresh hfresh =>
        rw [hb.stale] at hfresh
        cases hfresh
    | lockedStale _ => exact Or.inl (hb.setCaller hi (by simp) (by simp))
    | send =>
        left
        refine ⟨hb.grants, hb.stale, ?_, Or.inr ⟨?_, ?_⟩⟩
        · intro d hd
          rcases mem_setCaller hd with rfl | hd
          · simp
          · exact hb.early d hd
        · rcases hb.requests with ⟨hzero, -⟩ | ⟨-, hcalling⟩
          · show s.requests + 1 = 1
            rw [hzero]
          · obtain ⟨j, hj⟩ := List.getElem?_of_mem hcalling
            cases hgate.eq_of_holds hi hj rfl rfl
        · exact List.mem_of_getElem? (getElem?_setCaller_self _ hi)
    | receive => exact Or.inr (hb.receive hgate hi hgrants)
    | store =>
        rcases hb.early _ (List.mem_of_getElem? hi) with h | h | h | h | h <;> cases h
    | unlock =>
        rcases hb.early _ (List.mem_of_getElem? hi) with h | h | h | h | h <;> cases h

/-- A load after the grant that finds a fresh token finds the granted one. -/
theorem After.fresh_eq {g : Grant} {token : String} (ha : After g s)
    (hfresh : freshToken s.now s.cached = some token) : token = g.token := by
  rcases ha.cached with hcached | ⟨hstale, -⟩
  · rw [hcached, freshToken_granted ha.time] at hfresh
    split_ifs at hfresh
    exact (Option.some.inj hfresh).symm
  · rw [hstale] at hfresh
    cases hfresh

/-- Under the gate the granted token is in the cache. -/
theorem After.cached_eq {g : Grant} (ha : After g s) (hgate : GateHeld s)
    (hi : s.callers[i]? = some .locked) : s.cached = some g.cached := by
  rcases ha.cached with hcached | ⟨-, hstoring⟩
  · exact hcached
  · obtain ⟨j, hj⟩ := List.getElem?_of_mem hstoring
    cases hgate.eq_of_holds hi hj rfl rfl

/-- A caller that stores nothing, after the grant. -/
theorem After.setCaller {g : Grant} {c' : Caller} (ha : After g s) (hi : s.callers[i]? = some c)
    (hc : ∀ token, c ≠ .storing token) (hc' : Served g c') : After g (s.setCaller i c') := by
  refine ⟨ha.grants, ha.time, ha.requests, ?_, ?_⟩
  · intro d hd
    rcases mem_setCaller hd with rfl | hd
    · exact hc'
    · exact ha.served d hd
  · rcases ha.cached with hcached | ⟨hstale, hstoring⟩
    · exact Or.inl hcached
    · obtain ⟨j, hj⟩ := List.getElem?_of_mem hstoring
      have hne : j ≠ i := by
        rintro rfl
        rw [hi] at hj
        exact hc _ (Option.some.inj hj)
      exact Or.inr ⟨hstale,
        List.mem_of_getElem? ((getElem?_setCaller_of_ne c' hne).trans hj)⟩

/-- **One step after the grant.** -/
theorem After.step {g : Grant} (ha : After g s) (hgate : GateHeld s)
    (hearly : readsEarly s a = true) (h : s.step a = some s') : After g s' := by
  rcases step_cases h with ⟨elapsed, rfl, rfl⟩ | ⟨i, c, hi, hmove⟩
  · refine ⟨ha.grants, Nat.le_trans ha.time (Nat.le_add_right _ _), ha.requests, ha.served, ?_⟩
    rcases ha.cached with hcached | ⟨hstale, hstoring⟩
    · exact Or.inl hcached
    · exact Or.inr ⟨freshToken_later (Nat.le_add_right _ _) hstale, hstoring⟩
  · have hserved := ha.served _ (List.mem_of_getElem? hi)
    cases hmove with
    | loadFresh hfresh =>
        rw [ha.fresh_eq hfresh]
        exact ha.setCaller hi (by simp) rfl
    | loadStale _ => exact ha.setCaller hi (by simp) trivial
    | lock hfree =>
        have ha' : After g { s with gate := some i } :=
          ⟨ha.grants, ha.time, ha.requests, ha.served, ha.cached⟩
        exact ha'.setCaller hi (by simp) trivial
    | lockedFresh hfresh =>
        rw [ha.fresh_eq hfresh]
        exact ha.setCaller hi (by simp) rfl
    -- under the gate the cache holds the granted token, and an early load finds it fresh
    | lockedStale hstale =>
        simp only [readsEarly, ha.grants, List.all_cons, List.all_nil, Bool.and_true,
          decide_eq_true_eq] at hearly
        rw [ha.cached_eq hgate hi, freshToken_granted ha.time, if_pos hearly] at hstale
        cases hstale
    | send => exact hserved.elim
    | receive => exact hserved.elim
    | store =>
        cases hserved
        refine ⟨ha.grants, ha.time, ha.requests, ?_, Or.inl rfl⟩
        intro d hd
        rcases mem_setCaller hd with rfl | hd
        · rfl
        · exact ha.served d hd
    | unlock =>
        have ha' : After g { s with gate := none } :=
          ⟨ha.grants, ha.time, ha.requests, ha.served, ha.cached⟩
        exact ha'.setCaller hi (by simp) hserved

/-- At most one request so far, and at most one grant. -/
structure Flight (s : CacheState) : Prop where
  gate : GateHeld s
  phase : Before s ∨ ∃ g, After g s

theorem Flight.start (h : tokenCache.init s) : Flight s := by
  refine ⟨?_, Or.inl (Before.start h)⟩
  intro i c hi hc
  rw [h.2.2.1 c (List.mem_of_getElem? hi)] at hc
  cases hc

theorem Flight.step (hf : Flight s) (hgrants : grantsToken s a = true) (hearly : readsEarly s a = true)
    (h : s.step a = some s') : Flight s' := by
  refine ⟨hf.gate.step h, ?_⟩
  rcases hf.phase with hb | ⟨g, ha⟩
  · exact hb.step hf.gate hgrants h
  · exact Or.inr ⟨g, ha.step hf.gate hearly h⟩

/-! ## A second flight -/

/-- A second request has been sent, or is bound to be. -/
def Again (s : CacheState) : Prop := 2 ≤ s.requests ∨ (1 ≤ s.requests ∧ .stale ∈ s.callers)

theorem Again.setCaller {c' : Caller} (h : Again s) (hi : s.callers[i]? = some c) (hc : c ≠ .stale) :
    Again (s.setCaller i c') := by
  rcases h with h | ⟨hone, hstale⟩
  · exact Or.inl h
  · obtain ⟨j, hj⟩ := List.getElem?_of_mem hstale
    have hne : j ≠ i := by
      rintro rfl
      rw [hi] at hj
      exact hc (Option.some.inj hj)
    exact Or.inr ⟨hone, List.mem_of_getElem? ((getElem?_setCaller_of_ne c' hne).trans hj)⟩

theorem Again.step (hagain : Again s) (h : s.step a = some s') : Again s' := by
  rcases step_cases h with ⟨elapsed, rfl, rfl⟩ | ⟨i, c, hi, hmove⟩
  · exact hagain
  · cases hmove with
    | loadFresh _ => exact hagain.setCaller hi (by simp)
    | loadStale _ => exact hagain.setCaller hi (by simp)
    | lock _ =>
        have hagain' : Again { s with gate := some i } := hagain
        exact hagain'.setCaller hi (by simp)
    | lockedFresh _ => exact hagain.setCaller hi (by simp)
    | lockedStale _ => exact hagain.setCaller hi (by simp)
    | send =>
        left
        show 2 ≤ s.requests + 1
        rcases hagain with h | ⟨h, -⟩ <;> omega
    | @receive j reply =>
        unfold CacheState.receive
        split
        · exact hagain.setCaller hi (by simp)
        · rename_i token _
          have hagain' : Again { s with
              grants := s.grants ++ [⟨token.accessToken, reply.expiresIn, s.now⟩] } := hagain
          exact hagain'.setCaller hi (by simp)
    | @store j token =>
        have hagain' : Again { s with cached := some token } := hagain
        exact hagain'.setCaller hi (by simp)
    | unlock =>
        have hagain' : Again { s with gate := none } := hagain
        exact hagain'.setCaller hi (by simp)

/-- A load that comes too late makes its caller refresh again. -/
theorem Flight.again (hf : Flight s) (hlate : ¬ readsEarly s a = true) (h : s.step a = some s') :
    Again s' := by
  have hgrant : ∃ g, After g s := by
    rcases hf.phase with hb | ha
    · exfalso
      apply hlate
      cases a <;> simp [readsEarly, hb.grants]
    · exact ha
  obtain ⟨g, ha⟩ := hgrant
  rcases step_cases h with ⟨elapsed, rfl, rfl⟩ | ⟨i, c, hi, hmove⟩
  · exact absurd rfl hlate
  · cases hmove with
    | lockedFresh hfresh =>
        -- the cache holds the granted token, and it is too old
        simp only [readsEarly, ha.grants, List.all_cons, List.all_nil, Bool.and_true,
          decide_eq_true_eq] at hlate
        rw [ha.cached_eq hf.gate hi, freshToken_granted ha.time, if_neg hlate] at hfresh
        cases hfresh
    | lockedStale _ =>
        exact Or.inr ⟨Nat.le_of_eq ha.requests.symm,
          List.mem_of_getElem? (getElem?_setCaller_self _ hi)⟩
    | _ => exact absurd rfl hlate

/-! ## Single flight -/

theorem callers_length (h : s.step a = some s') : s'.callers.length = s.callers.length := by
  rcases step_cases h with ⟨elapsed, rfl, rfl⟩ | ⟨i, c, -, hmove⟩
  · rfl
  · cases hmove with
    | receive =>
        unfold CacheState.receive
        split <;> simp [CacheState.setCaller]
    | _ => simp [CacheState.setCaller]

/-- **Single flight.** In a complete run against a token endpoint that grants, one request is sent
and every caller gets its token exactly if every load under the gate comes early. -/
theorem single_flight_iff {s₀ : CacheState} {as : List CacheAction} (hinit : tokenCache.init s₀)
    (hcallers : s₀.callers ≠ [])
    (hrun : tokenCache.Steps (fun s a => grantsToken s a = true) s₀ as s) (hcomplete : s.complete) :
    tokenCache.Steps (fun s a => grantsToken s a = true ∧ readsEarly s a = true) s₀ as s ↔
      s.requests = 1 ∧ ∃ token, s.grants.map Grant.token = [token] ∧
        ∀ c ∈ s.callers, c = .done (.ok token) := by
  constructor
  · intro hearly
    have hend : Flight s := hearly.preserves (P := Flight)
      (fun _ _ _ hf hc hst => hf.step hc.1 hc.2 hst) (.start hinit)
    have hlength : s.callers.length = s₀.callers.length :=
      hrun.preserves (P := fun t => t.callers.length = s₀.callers.length)
        (fun _ _ _ hlen _ hst => (callers_length hst).trans hlen) rfl
    -- before the grant nobody has returned, and some caller has
    rcases hend.phase with hb | ⟨g, ha⟩
    · obtain ⟨c, hc⟩ : ∃ c, c ∈ s.callers := by
        apply List.exists_mem_of_length_pos
        rw [hlength]
        exact List.length_pos_of_ne_nil hcallers
      obtain ⟨result, rfl⟩ := hcomplete c hc
      rcases hb.early _ hc with h | h | h | h | h <;> cases h
    · refine ⟨ha.requests, g.token, by rw [ha.grants]; rfl, ?_⟩
      intro c hc
      obtain ⟨result, rfl⟩ := hcomplete c hc
      rw [show result = .ok g.token from ha.served _ hc]
  · rintro ⟨hone, -⟩
    -- after the first late load a second request is bound to be sent
    rcases hrun.keeps_or_breaks (C := fun s a => readsEarly s a = true) with
      hkeeps | ⟨bs, b, cs, t, t', -, hpre, -, hlate, hst, hpost⟩
    · exact hkeeps
    · have hf : Flight t := hpre.preserves (P := Flight)
        (fun _ _ _ hf hc hst => hf.step hc.1 hc.2 hst) (.start hinit)
      have hagain : Again s := hpost.preserves (P := Again)
        (fun _ _ _ hag _ hst => hag.step hst) (hf.again hlate hst)
      rcases hagain with htwo | ⟨-, hstale⟩
      · omega
      · obtain ⟨result, h⟩ := hcomplete _ hstale
        cases h

/-! ## A token for ten minutes -/

def cacheStart (callers : Nat) : CacheState := ⟨0, none, none, List.replicate callers .start, 0, []⟩

/-- One caller refreshes, alone. -/
def refreshBy (i expiresIn : Nat) : List CacheAction := [
  .load i, .lock i, .loadLocked i, .send i,
  .receive i (.response 200 (some "token") (some expiresIn) none), .store i, .unlock i]

theorem cacheStart_init (callers : Nat) : tokenCache.init (cacheStart callers) :=
  ⟨rfl, rfl, fun _ hc => List.eq_of_mem_replicate hc, rfl, rfl⟩

/-- The callers of a state have all returned. -/
def CacheState.isComplete (s : CacheState) : Bool := s.callers.all fun
  | .done _ => true
  | _ => false

theorem complete_of_isComplete (h : s.isComplete = true) : s.complete := by
  intro c hc
  have := List.all_eq_true.mp h c hc
  cases c <;> first | exact ⟨_, rfl⟩ | cases this

/-- Two callers of an empty cache share a token for an hour. -/
theorem token_shared :
    ∃ s, tokenCache.Steps (fun s a => grantsToken s a = true ∧ readsEarly s a = true) (cacheStart 2)
        (.load 1 :: refreshBy 0 3600 ++ [.lock 1, .loadLocked 1, .unlock 1]) s ∧
      s.requests = 1 ∧ ∃ token, s.grants.map Grant.token = [token] ∧
        ∀ c ∈ s.callers, c = .done (.ok token) := by
  obtain ⟨s, hs, hcomplete⟩ := Option.map_eq_some_iff.mp (show (tokenCache.runWhere
      (fun s a => grantsToken s a && readsEarly s a) (cacheStart 2)
      (.load 1 :: refreshBy 0 3600 ++ [.lock 1, .loadLocked 1, .unlock 1])).map
      CacheState.isComplete = some true by decide)
  have hrun := (System.steps_of_runWhere hs).mono fun _ _ h => Bool.and_eq_true_iff.mp h
  exact ⟨s, hrun, (single_flight_iff (cacheStart_init 2) (by simp [cacheStart])
    (hrun.mono fun _ _ h => h.1) (complete_of_isComplete hcomplete)).mp hrun⟩

/-- **A second request.** All the reads come at the instant of the grant. -/
theorem margin_counts_twice :
    ∃ s, tokenCache.init (cacheStart 2) ∧ (cacheStart 2).callers ≠ [] ∧
      tokenCache.Steps (fun s a => grantsToken s a = true) (cacheStart 2)
        (refreshBy 0 600 ++ refreshBy 1 600) s ∧ s.complete ∧
      s.grants.map Grant.expiresIn = [600, 600] ∧ s.now = 0 ∧ s.requests = 2 := by
  obtain ⟨s, hs, hend⟩ := Option.map_eq_some_iff.mp (show (tokenCache.runWhere grantsToken
      (cacheStart 2) (refreshBy 0 600 ++ refreshBy 1 600)).map
      (fun s => (s.isComplete, s.grants.map Grant.expiresIn, s.now, s.requests))
      = some (true, [600, 600], 0, 2) by decide)
  simp only [Prod.mk.injEq] at hend
  obtain ⟨hcomplete, hgrants, hnow, hrequests⟩ := hend
  exact ⟨s, cacheStart_init 2, by simp [cacheStart], System.steps_of_runWhere hs,
    complete_of_isComplete hcomplete, hgrants, hnow, hrequests⟩

end McpGateway.Zoho
