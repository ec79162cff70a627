import McpGateway.OAuth.Pkce

/-! # Submissions and exchanges at the same time

Any number of `authorizeSubmit` and `token` calls, cut at every operation of the concurrent map: the
purge removes one entry at a time, a code is put, a code is removed. Every reading of the clock is a
value of the step that uses it, so that nothing is assumed about the clocks.

* `taken_once` — no two token calls get the entry of one code.
* `exchange_earned` — every access token returned was earned by a submission, no two come from one
  code, and a code that was presented is spent. -/

namespace McpGateway.OAuth

open Foundation Gateway

/-! ## Calls -/

/-- A submission whose API key authenticated. -/
structure Submission (T : Type) where
  rawKey : T
  /-- When it authenticated. -/
  moment : Nat
  key : Identity
  request : SubmitRequest T

/-- The entry made for it. -/
def Submission.entry {T : Type} (sub : Submission T) (now : Nat) : AuthCodeEntry T :=
  AuthCodeStore.newEntry sub.key.keyHash sub.key.role sub.request.redirectUri
    sub.request.codeChallenge sub.request.codeChallengeMethod now

/-- How far an `authorizeSubmit` call is. -/
inductive SubmitPhase (T : Type) where
  | idle
  | refused (response : SubmitResponse T)
  /-- Inside `issue`, before the code is put. -/
  | purging (sub : Submission T)
  | issued (sub : Submission T) (code : T) (issuedAt : Nat)

/-- How far a `token` call is. -/
inductive TokenPhase (T : Type) where
  | idle
  | unsupported
  /-- The code was removed, with what it was mapped to. -/
  | consumed (request : TokenRequest T) (entry : Option (AuthCodeEntry T))
  | answered (request : TokenRequest T) (entry : Option (AuthCodeEntry T)) (now jwtNow : Nat)
      (jti : Uuid)

structure Exchange (T : Type) where
  codes : AuthCodeStore T
  /-- The call that drew a code. -/
  drawnBy : T → Option Nat
  submits : Nat → SubmitPhase T
  tokens : Nat → TokenPhase T

inductive ExchangeAction (T : Type) where
  | submit (i : Nat) (rawKey : T) (moment : Nat) (request : SubmitRequest T)
  /-- The purge visits one entry. -/
  | purge (i : Nat) (code : T) (now : Nat)
  /-- The code drawn is put. -/
  | issue (i : Nat) (code : Uuid) (now : Nat)
  | consume (j : Nat) (request : TokenRequest T)
  /-- The rest of a token call; `jwtNow` is when the token is made. -/
  | answer (j : Nat) (now jwtNow : Nat) (jti : Uuid)

/-- The code a token call removed, with its entry. -/
def TokenPhase.taken {T : Type} : TokenPhase T → Option (T × AuthCodeEntry T)
  | .consumed request (some entry) => some (request.code, entry)
  | .answered request (some entry) _ _ _ => some (request.code, entry)
  | _ => none

/-! ## Steps -/

section Steps

variable {T : Type} [DecidableEq T]

def AuthCodeStore.purgeOne (now : Nat) (code : T) (store : AuthCodeStore T) : AuthCodeStore T :=
  fun c => if c = code then ifAlive now (store c) else store c

namespace Exchange

def initial : Exchange T := ⟨AuthCodeStore.empty, fun _ => none, fun _ => .idle, fun _ => .idle⟩

def setSubmit (s : Exchange T) (i : Nat) (phase : SubmitPhase T) : Exchange T :=
  { s with submits := fun k => if k = i then phase else s.submits k }

def setToken (s : Exchange T) (j : Nat) (phase : TokenPhase T) : Exchange T :=
  { s with tokens := fun k => if k = j then phase else s.tokens k }

end Exchange

/-- What a submission does before `issue`. -/
def beginSubmit (cfg : Config T) (identity : Option Identity) (rawKey : T) (moment : Nat)
    (request : SubmitRequest T) : SubmitPhase T :=
  if !cfg.isAllowed request.redirectUri then .refused .badRequest
  else match identity with
    | none => .refused .unauthorized
    | some key => .purging ⟨rawKey, moment, key, request⟩

def exchangeStep (cfg : Config T) (authenticate : Nat → T → Option Identity) (s : Exchange T) :
    ExchangeAction T → Option (Exchange T)
  | .submit i rawKey moment request =>
      match s.submits i with
      | .idle => some (s.setSubmit i
          (beginSubmit cfg (authenticate moment rawKey) rawKey moment request))
      | _ => none
  | .purge i code now =>
      match s.submits i with
      | .purging _ => some { s with codes := s.codes.purgeOne now code }
      | _ => none
  | .issue i code now =>
      match s.submits i, s.drawnBy (codeText cfg code) with
      | .purging sub, none => some
          { s.setSubmit i (.issued sub (codeText cfg code) now) with
            codes := s.codes.put (codeText cfg code) (sub.entry now)
            drawnBy := fun c => if c = codeText cfg code then some i else s.drawnBy c }
      | _, _ => none
  | .consume j request =>
      match s.tokens j with
      | .idle =>
          if request.grantType ≠ cfg.ofJava (jstr "authorization_code") then
            some (s.setToken j .unsupported)
          else some { s.setToken j (.consumed request (s.codes request.code)) with
            codes := s.codes.remove request.code }
      | _ => none
  | .answer j now jwtNow jti =>
      match s.tokens j with
      | .consumed request entry => some (s.setToken j (.answered request entry now jwtNow jti))
      | _ => none

/-- `authenticate` says what `ApiKeyService.authenticate` answers at each moment. -/
def exchange (cfg : Config T) (authenticate : Nat → T → Option Identity) :
    System (Exchange T) (ExchangeAction T) where
  init s := s = Exchange.initial
  step := exchangeStep cfg authenticate

/-- What a token call has returned. -/
def TokenPhase.response (cfg : Config T) : TokenPhase T → Option (TokenResponse T)
  | .unsupported => some (.error "unsupported_grant_type")
  | .answered request entry now jwtNow jti =>
      some (redeem cfg request (AuthCodeStore.ifAlive now entry) jwtNow jti)
  | _ => none

variable {cfg : Config T} {authenticate : Nat → T → Option Identity} {s s' : Exchange T}

/-- What a step can do. -/
theorem exchange_cases {a : ExchangeAction T} (h : (exchange cfg authenticate).step s a = some s') :
    (∃ i rawKey moment request, s.submits i = .idle ∧
      s' = s.setSubmit i (beginSubmit cfg (authenticate moment rawKey) rawKey moment request)) ∨
    (∃ code now, s' = { s with codes := s.codes.purgeOne now code }) ∨
    (∃ i sub code now, s.submits i = .purging sub ∧ s.drawnBy code = none ∧
      s' = { s.setSubmit i (.issued sub code now) with
        codes := s.codes.put code (sub.entry now)
        drawnBy := fun c => if c = code then some i else s.drawnBy c }) ∨
    (∃ j, s.tokens j = .idle ∧ s' = s.setToken j .unsupported) ∨
    (∃ j request, s.tokens j = .idle ∧
      s' = { s.setToken j (.consumed request (s.codes request.code)) with
        codes := s.codes.remove request.code }) ∨
    ∃ j request entry now jwtNow jti, s.tokens j = .consumed request entry ∧
      s' = s.setToken j (.answered request entry now jwtNow jti) := by
  cases a with
  | submit i rawKey moment request =>
      -- here and below: a thread in another phase cannot take the step
      replace h : (match s.submits i with
        | .idle => some _
        | _ => none) = some s' := h
      split at h
      case h_1 hi =>
        cases h
        exact Or.inl ⟨i, rawKey, moment, request, hi, rfl⟩
      case h_2 => cases h
  | purge i code now =>
      replace h : (match s.submits i with
        | .purging _ => some _
        | _ => none) = some s' := h
      split at h
      · cases h
        exact Or.inr (Or.inl ⟨code, now, rfl⟩)
      · cases h
  | issue i code now =>
      replace h : (match s.submits i, s.drawnBy (codeText cfg code) with
        | .purging sub, none => some _
        | _, _ => none) = some s' := h
      split at h
      case h_1 sub hi hdrawn =>
        cases h
        exact Or.inr (Or.inr (Or.inl ⟨i, sub, codeText cfg code, now, hi, hdrawn, rfl⟩))
      case h_2 => cases h
  | consume j request =>
      replace h : (match s.tokens j with
        | .idle => if request.grantType ≠ cfg.ofJava (jstr "authorization_code") then some _
            else some _
        | _ => none) = some s' := h
      split at h
      case h_1 hj =>
        split_ifs at h
        · cases h
          exact Or.inr (Or.inr (Or.inr (Or.inl ⟨j, hj, rfl⟩)))
        · cases h
          exact Or.inr (Or.inr (Or.inr (Or.inr (Or.inl ⟨j, request, hj, rfl⟩))))
      case h_2 => cases h
  | answer j now jwtNow jti =>
      replace h : (match s.tokens j with
        | .consumed request entry => some _
        | _ => none) = some s' := h
      split at h
      case h_1 request entry hj =>
        cases h
        exact Or.inr (Or.inr (Or.inr (Or.inr (Or.inr
          ⟨j, request, entry, now, jwtNow, jti, hj, rfl⟩))))
      case h_2 => cases h

/-- Taken together, the two steps of a token call are `token`. -/
theorem token_of_steps {s₁ s₂ : Exchange T} {j now : Nat} {jti : Uuid} {request : TokenRequest T}
    (h₁ : (exchange cfg authenticate).step s (.consume j request) = some s₁)
    (h₂ : (exchange cfg authenticate).step s₁ (.answer j now now jti) = some s₂) :
    (s₂.tokens j).response cfg = some (token cfg request now jti s.codes).1 ∧
      s₂.codes = (token cfg request now jti s.codes).2 := by
  replace h₁ : (match s.tokens j with
    | .idle => if request.grantType ≠ cfg.ofJava (jstr "authorization_code") then some _
        else some _
    | _ => none) = some s₁ := h₁
  split at h₁
  case h_1 =>
    unfold token
    split_ifs at h₁ with hgrant
    · cases h₁
      simp [exchange, exchangeStep, Exchange.setToken] at h₂
    · cases h₁
      rw [if_neg hgrant]
      simp only [exchange, exchangeStep, Exchange.setToken, if_true, Option.some.injEq] at h₂
      subst h₂
      exact ⟨by simp [TokenPhase.response, AuthCodeStore.consume], rfl⟩
  case h_2 => cases h₁

/-! ## Where codes come from and where they go -/

/-- The entry was made for a submission whose key authenticated. -/
def IssuedAs (authenticate : Nat → T → Option Identity) (s : Exchange T) (code : T)
    (entry : AuthCodeEntry T) : Prop :=
  ∃ i sub issuedAt, s.drawnBy code = some i ∧ s.submits i = .issued sub code issuedAt ∧
    authenticate sub.moment sub.rawKey = some sub.key ∧ entry = sub.entry issuedAt

/-- A code is in the map or was taken, by one call. -/
structure Accounted (authenticate : Nat → T → Option Identity) (s : Exchange T) : Prop where
  authenticated : ∀ i sub, s.submits i = .purging sub →
    authenticate sub.moment sub.rawKey = some sub.key
  stored : ∀ c e, s.codes c = some e → IssuedAs authenticate s c e
  taken : ∀ j c e, (s.tokens j).taken = some (c, e) →
    IssuedAs authenticate s c e ∧ s.codes c = none
  once : ∀ j k c e e', (s.tokens j).taken = some (c, e) → (s.tokens k).taken = some (c, e') → j = k

omit [DecidableEq T] in
/-- What was issued stays issued. -/
theorem issuedAs_setSubmit {i : Nat} {p : SubmitPhase T} {c : T} {e : AuthCodeEntry T}
    (hi : ∀ sub code issuedAt, s.submits i ≠ .issued sub code issuedAt)
    (h : IssuedAs authenticate s c e) : IssuedAs authenticate (s.setSubmit i p) c e := by
  obtain ⟨k, sub, issuedAt, hdrawn, hk, hauth, he⟩ := h
  have hne : k ≠ i := by
    rintro rfl
    exact hi _ _ _ hk
  exact ⟨k, sub, issuedAt, hdrawn, (if_neg hne).trans hk, hauth, he⟩

omit [DecidableEq T] in
theorem accounted_initial : Accounted authenticate (Exchange.initial : Exchange T) where
  authenticated _ _ h := by cases h
  stored _ _ h := by cases h
  taken _ _ _ h := by cases h
  once _ _ _ _ _ h := by cases h

omit [DecidableEq T] in
/-- A step that only changes one token call. -/
theorem Accounted.setToken (h : Accounted authenticate s) {j : Nat} {phase : TokenPhase T}
    (hphase : phase.taken = (s.tokens j).taken) : Accounted authenticate (s.setToken j phase) := by
  have hsame : ∀ k, ((s.setToken j phase).tokens k).taken = (s.tokens k).taken := by
    intro k
    show (if k = j then phase else s.tokens k).taken = _
    split_ifs with hk
    · rw [hk, hphase]
    · rfl
  constructor
  · exact h.authenticated
  · exact h.stored
  · intro k c e hk
    rw [hsame] at hk
    exact h.taken k c e hk
  · intro k l c e e' hk hl
    rw [hsame] at hk hl
    exact h.once k l c e e' hk hl

omit [DecidableEq T] in
/-- A submission that begins has a key that authenticated, or none. -/
theorem Accounted.begin (h : Accounted authenticate s) {i moment : Nat} {rawKey : T}
    {request : SubmitRequest T} (hi : s.submits i = .idle) :
    Accounted authenticate
      (s.setSubmit i (beginSubmit cfg (authenticate moment rawKey) rawKey moment request)) := by
  have hnot : ∀ sub code issuedAt, s.submits i ≠ .issued sub code issuedAt := by
    intro sub code issuedAt
    rw [hi]
    exact nofun
  refine ⟨?_, fun c e hc => issuedAs_setSubmit hnot (h.stored c e hc), ?_, h.once⟩
  · intro k sub hk
    replace hk : (if k = i then _ else s.submits k) = .purging sub := hk
    split_ifs at hk
    · unfold beginSubmit at hk
      split_ifs at hk
      cases hauth : authenticate moment rawKey with
      | none =>
          rw [hauth] at hk
          cases hk
      | some key =>
          rw [hauth] at hk
          cases hk
          exact hauth
    · exact h.authenticated k sub hk
  · intro j c e hj
    obtain ⟨hissued, hnone⟩ := h.taken j c e hj
    exact ⟨issuedAs_setSubmit hnot hissued, hnone⟩

/-- Removing entries is harmless. -/
theorem Accounted.purge (h : Accounted authenticate s) (now : Nat) (code : T) :
    Accounted authenticate { s with codes := s.codes.purgeOne now code } := by
  have hsub : ∀ {c e}, s.codes.purgeOne now code c = some e → s.codes c = some e := by
    intro c e hc
    replace hc : (if c = code then AuthCodeStore.ifAlive now (s.codes c) else s.codes c) = some e :=
      hc
    split_ifs at hc
    · exact (AuthCodeStore.ifAlive_eq_some.mp hc).1
    · exact hc
  refine ⟨h.authenticated, fun c e hc => h.stored c e (hsub hc), ?_, h.once⟩
  intro j c e hj
  obtain ⟨hissued, hnone⟩ := h.taken j c e hj
  refine ⟨hissued, ?_⟩
  cases hc : s.codes.purgeOne now code c with
  | none => exact hc
  | some e' =>
      rw [hsub hc] at hnone
      cases hnone

/-- The code issued is fresh, so nobody has taken it. -/
theorem Accounted.issue (h : Accounted authenticate s) {i : Nat} {sub : Submission T} {code : T}
    {now : Nat} (hi : s.submits i = .purging sub) (hdrawn : s.drawnBy code = none) :
    Accounted authenticate { s.setSubmit i (.issued sub code now) with
      codes := s.codes.put code (sub.entry now)
      drawnBy := fun c => if c = code then some i else s.drawnBy c } := by
  -- a code drawn before is another one
  have hkeep : ∀ {c e}, IssuedAs authenticate s c e → IssuedAs authenticate
      { s.setSubmit i (.issued sub code now) with
        codes := s.codes.put code (sub.entry now)
        drawnBy := fun c => if c = code then some i else s.drawnBy c } c e ∧ c ≠ code := by
    intro c e hc
    have hne : c ≠ code := by
      rintro rfl
      obtain ⟨_, _, _, hc, -⟩ := hc
      rw [hdrawn] at hc
      cases hc
    have hnot : ∀ sub' code' issuedAt, s.submits i ≠ .issued sub' code' issuedAt := by
      intro sub' code' issuedAt
      rw [hi]
      exact nofun
    obtain ⟨k, sub', issuedAt, hk, hrest⟩ :=
      issuedAs_setSubmit (p := .issued sub code now) hnot hc
    exact ⟨⟨k, sub', issuedAt, (if_neg hne).trans hk, hrest⟩, hne⟩
  constructor
  · intro k sub' hk
    replace hk : (if k = i then _ else s.submits k) = .purging sub' := hk
    split_ifs at hk
    exact h.authenticated k sub' hk
  · intro c e hc
    rcases AuthCodeStore.put_eq_some.mp hc with ⟨rfl, rfl⟩ | ⟨-, hc⟩
    · exact ⟨i, sub, now, if_pos rfl, if_pos rfl, h.authenticated i sub hi, rfl⟩
    · exact (hkeep (h.stored c e hc)).1
  · intro j c e hj
    obtain ⟨hissued, hnone⟩ := h.taken j c e hj
    obtain ⟨hissued', hne⟩ := hkeep hissued
    exact ⟨hissued', (if_neg hne).trans hnone⟩
  · exact h.once

/-- Taking an entry removes it from the map. -/
theorem Accounted.consume (h : Accounted authenticate s) {j : Nat} {request : TokenRequest T}
    (hj : s.tokens j = .idle) :
    Accounted authenticate { s.setToken j (.consumed request (s.codes request.code)) with
      codes := s.codes.remove request.code } := by
  -- only this call has what was in the map under its code
  have hother : ∀ {k c e}, ((if k = j then .consumed request (s.codes request.code)
      else s.tokens k : TokenPhase T)).taken = some (c, e) →
      (k = j ∧ c = request.code ∧ s.codes c = some e) ∨ k ≠ j ∧ (s.tokens k).taken = some (c, e) := by
    intro k c e hk
    split_ifs at hk with hkj
    · cases hcode : s.codes request.code with
      | none =>
          rw [hcode] at hk
          cases hk
      | some entry =>
          rw [hcode] at hk
          cases hk
          exact Or.inl ⟨hkj, rfl, hcode⟩
    · exact Or.inr ⟨hkj, hk⟩
  constructor
  · exact h.authenticated
  · intro c e hc
    exact h.stored c e (AuthCodeStore.remove_eq_some.mp hc).2
  · intro k c e hk
    rcases hother hk with ⟨-, rfl, hc⟩ | ⟨-, hk⟩
    · exact ⟨h.stored _ e hc, AuthCodeStore.remove_self⟩
    · obtain ⟨hissued, hnone⟩ := h.taken k c e hk
      refine ⟨hissued, ?_⟩
      show (if c = request.code then none else s.codes c) = none
      rw [hnone, ite_self]
  · intro k l c e e' hk hl
    rcases hother hk with ⟨rfl, rfl, hc⟩ | ⟨-, hk'⟩
    · rcases hother hl with ⟨rfl, -, -⟩ | ⟨-, hl'⟩
      · rfl
      · rw [(h.taken l _ e' hl').2] at hc
        cases hc
    · rcases hother hl with ⟨rfl, rfl, hc⟩ | ⟨-, hl'⟩
      · rw [(h.taken k _ e hk').2] at hc
        cases hc
      · exact h.once k l c e e' hk' hl'

/-- **Every step keeps the books.** -/
theorem accounted_step {a : ExchangeAction T} (h : Accounted authenticate s)
    (hstep : (exchange cfg authenticate).step s a = some s') : Accounted authenticate s' := by
  rcases exchange_cases hstep with ⟨i, rawKey, moment, request, hi, rfl⟩ | ⟨code, now, rfl⟩ |
    ⟨i, sub, code, now, hi, hdrawn, rfl⟩ | ⟨j, hj, rfl⟩ | ⟨j, request, hj, rfl⟩ |
    ⟨j, request, entry, now, jwtNow, jti, hj, rfl⟩
  · exact h.begin hi
  · exact h.purge now code
  · exact h.issue hi hdrawn
  · apply h.setToken
    rw [hj]
    rfl
  · exact h.consume hj
  · apply h.setToken
    rw [hj]
    cases entry with
    | none => rfl
    | some entry => rfl

/-! ## What calls keep -/

/-- An answer does not change. -/
theorem answered_step {a : ExchangeAction T} {j now jwtNow : Nat} {request : TokenRequest T}
    {entry : Option (AuthCodeEntry T)} {jti : Uuid}
    (hj : s.tokens j = .answered request entry now jwtNow jti)
    (hstep : (exchange cfg authenticate).step s a = some s') :
    s'.tokens j = .answered request entry now jwtNow jti := by
  have hkeep : ∀ {k phase}, (∀ now jwtNow jti request entry,
      s.tokens k ≠ .answered request entry now jwtNow jti) →
      (if j = k then phase else s.tokens j) = .answered request entry now jwtNow jti := by
    intro k phase hk
    rw [if_neg]
    · exact hj
    · rintro rfl
      exact hk _ _ _ _ _ hj
  rcases exchange_cases hstep with ⟨i, rawKey, moment, request, hi, rfl⟩ | ⟨code, now, rfl⟩ |
    ⟨i, sub, code, now, hi, hdrawn, rfl⟩ | ⟨k, hk, rfl⟩ | ⟨k, request, hk, rfl⟩ |
    ⟨k, request, entry, now, jwtNow, jti, hk, rfl⟩
  · exact hj
  · exact hj
  · exact hj
  · exact hkeep (by simp [hk])
  · exact hkeep (by simp [hk])
  · exact hkeep (by simp [hk])

/-- A returned token took a live entry. -/
theorem answered_token {j now jwtNow : Nat} {request : TokenRequest T}
    {entry : Option (AuthCodeEntry T)} {jti : Uuid} {jwt : T}
    (hj : s.tokens j = .answered request entry now jwtNow jti)
    (hresponse : (s.tokens j).response cfg = some (.accessToken jwt)) :
    ∃ e, entry = some e ∧ now ≤ e.expiresAt ∧ e.redirectUri = request.redirectUri ∧
      issueJwt cfg.toStrings e.keyHash e.role jwtNow jti = jwt := by
  rw [hj] at hresponse
  obtain ⟨e, he, huri, -, hjwt⟩ := (redeem_eq_accessToken cfg).mp (Option.some.inj hresponse)
  obtain ⟨hentry, hlive⟩ := AuthCodeStore.ifAlive_eq_some.mp he
  exact ⟨e, hentry, hlive, huri, hjwt⟩

theorem accounted_of_reachable (hs : (exchange cfg authenticate).Reachable s) :
    Accounted authenticate s := by
  refine hs.invariant ?_ fun _ _ _ h hstep => accounted_step h hstep
  rintro _ rfl
  exact accounted_initial

theorem Accounted.earned (hinv : Accounted authenticate s) {j now jwtNow : Nat}
    {request : TokenRequest T} {entry : Option (AuthCodeEntry T)} {jti : Uuid} {jwt : T}
    (hj : s.tokens j = .answered request entry now jwtNow jti)
    (hresponse : (s.tokens j).response cfg = some (.accessToken jwt)) :
    ∃ i sub issuedAt, s.submits i = .issued sub request.code issuedAt ∧
      authenticate sub.moment sub.rawKey = some sub.key ∧
      jwt = issueJwt cfg.toStrings sub.key.keyHash sub.key.role jwtNow jti ∧
      request.redirectUri = sub.request.redirectUri ∧
      now ≤ issuedAt + codeTtlSeconds * nanosPerSecond := by
  obtain ⟨e, rfl, hlive, huri, hjwt⟩ := answered_token hj hresponse
  have htaken : (s.tokens j).taken = some (request.code, e) := by
    rw [hj]
    rfl
  obtain ⟨i, sub, issuedAt, -, hi, hauth, rfl⟩ := (hinv.taken j _ e htaken).1
  exact ⟨i, sub, issuedAt, hi, hauth, hjwt.symm, huri.symm, hlive⟩

theorem Accounted.spent_once (hinv : Accounted authenticate s) {j k now now' jwtNow jwtNow' : Nat}
    {request request' : TokenRequest T} {e : AuthCodeEntry T} {entry' : Option (AuthCodeEntry T)}
    {jti jti' : Uuid} {jwt : T} (hj : s.tokens j = .answered request (some e) now jwtNow jti)
    (hk : s.tokens k = .answered request' entry' now' jwtNow' jti')
    (hresponse : (s.tokens k).response cfg = some (.accessToken jwt))
    (hcode : request.code = request'.code) : j = k := by
  obtain ⟨e', rfl, -⟩ := answered_token hk hresponse
  refine hinv.once j k request.code e e' ?_ ?_
  · rw [hj]
    rfl
  · rw [hk, hcode]
    rfl

/-- **Every token is earned and every code is spent once.** In every reachable state: an access token
returned comes from a submission whose key authenticated, carries its hash and role, and was
exchanged with its redirect URI within 60 seconds; no two come from one code; and a token call that
failed after it removed a code leaves no token from that code, and the code out of the map, in every
state that follows. -/
theorem exchange_earned (hs : (exchange cfg authenticate).Reachable s) :
    (∀ j request entry now jwtNow jti jwt, s.tokens j = .answered request entry now jwtNow jti →
      (s.tokens j).response cfg = some (.accessToken jwt) →
      ∃ i sub issuedAt, s.submits i = .issued sub request.code issuedAt ∧
        authenticate sub.moment sub.rawKey = some sub.key ∧
        jwt = issueJwt cfg.toStrings sub.key.keyHash sub.key.role jwtNow jti ∧
        request.redirectUri = sub.request.redirectUri ∧
        now ≤ issuedAt + codeTtlSeconds * nanosPerSecond) ∧
    (∀ j k request request' entry entry' now now' jwtNow jwtNow' jti jti' jwt jwt',
      s.tokens j = .answered request entry now jwtNow jti →
      s.tokens k = .answered request' entry' now' jwtNow' jti' →
      (s.tokens j).response cfg = some (.accessToken jwt) →
      (s.tokens k).response cfg = some (.accessToken jwt') →
      request.code = request'.code → j = k) ∧
    (∀ j request entry now jwtNow jti name,
      s.tokens j = .answered request (some entry) now jwtNow jti →
      (s.tokens j).response cfg = some (.error name) →
      ∀ as s', (exchange cfg authenticate).Steps System.anyStep s as s' →
        s'.codes request.code = none ∧
        ∀ k request' entry' now' jwtNow' jti' jwt,
          s'.tokens k = .answered request' entry' now' jwtNow' jti' →
          (s'.tokens k).response cfg = some (.accessToken jwt) → request'.code ≠ request.code) := by
  have hinv := accounted_of_reachable hs
  refine ⟨fun _ _ _ _ _ _ _ hj hresponse => hinv.earned hj hresponse, ?_, ?_⟩
  · intro j k request request' entry entry' now now' jwtNow jwtNow' jti jti' jwt jwt' hj hk
      hresponse hresponse' hcode
    obtain ⟨e, rfl, -⟩ := answered_token hj hresponse
    exact hinv.spent_once hj hk hresponse' hcode
  · intro j request entry now jwtNow jti name hj hresponse as s' hrun
    have hj' : s'.tokens j = .answered request (some entry) now jwtNow jti :=
      hrun.preserves (fun _ _ _ h _ hstep => answered_step h hstep) hj
    have hinv' := accounted_of_reachable (hs.trans hrun)
    have htaken : (s'.tokens j).taken = some (request.code, entry) := by
      rw [hj']
      rfl
    refine ⟨(hinv'.taken j _ entry htaken).2, ?_⟩
    intro k request' entry' now' jwtNow' jti' jwt hk hresponse' hcode
    -- Only the failed call took the code, and its answer was an error.
    obtain rfl := hinv'.spent_once hj' hk hresponse' hcode.symm
    rw [hj'] at hresponse'
    rw [hj] at hresponse
    rw [hresponse] at hresponse'
    cases hresponse'

/-! ## One exchange -/

/-- A submission whose key authenticates, then a token request for its code. -/
theorem code_taken (cfg : Config T) (authenticate : Nat → T → Option Identity) {rawKey : T}
    {key : Identity} (code : Uuid) (request : SubmitRequest T) (treq : TokenRequest T)
    (hallowed : cfg.isAllowed request.redirectUri = true) (hauth : authenticate 0 rawKey = some key)
    (hgrant : treq.grantType = cfg.ofJava (jstr "authorization_code"))
    (hcode : treq.code = codeText cfg code) (now jwtNow : Nat) (jti : Uuid) :
    ∃ s, (exchange cfg authenticate).Reachable s ∧ s.tokens 0 = .answered treq
      (some (Submission.entry ⟨rawKey, 0, key, request⟩ 0)) now jwtNow jti := by
  let sub : Submission T := ⟨rawKey, 0, key, request⟩
  let s₁ : Exchange T := Exchange.initial.setSubmit 0 (.purging sub)
  let s₂ : Exchange T := { s₁.setSubmit 0 (.issued sub (codeText cfg code) 0) with
    codes := s₁.codes.put (codeText cfg code) (sub.entry 0)
    drawnBy := fun c => if c = codeText cfg code then some 0 else s₁.drawnBy c }
  let s₃ : Exchange T := { s₂.setToken 0 (.consumed treq (s₂.codes treq.code)) with
    codes := s₂.codes.remove treq.code }
  have h₁ : (exchange cfg authenticate).step Exchange.initial (.submit 0 rawKey 0 request)
      = some s₁ := by
    have hbegin : beginSubmit cfg (authenticate 0 rawKey) rawKey 0 request = .purging sub := by
      simp [beginSubmit, hallowed, hauth, sub]
    show some (Exchange.initial.setSubmit 0 (beginSubmit cfg _ rawKey 0 request)) = _
    rw [hbegin]
  have h₂ : (exchange cfg authenticate).step s₁ (.issue 0 code 0) = some s₂ := rfl
  have h₃ : (exchange cfg authenticate).step s₂ (.consume 0 treq) = some s₃ := by
    show (if treq.grantType ≠ cfg.ofJava (jstr "authorization_code") then _ else some s₃) = some s₃
    rw [if_neg (by simpa using hgrant)]
  have hentry : s₂.codes treq.code = some (sub.entry 0) := by
    rw [hcode]
    exact if_pos rfl
  refine ⟨s₃.setToken 0 (.answered treq (s₂.codes treq.code) now jwtNow jti),
    ⟨_, _, rfl, .cons trivial h₁ (.cons trivial h₂
      (.cons trivial h₃ (.cons trivial (a := .answer 0 now jwtNow jti) rfl (.nil _))))⟩, ?_⟩
  rw [hentry]
  rfl

end Steps

def sampleAuthenticate (_moment : Nat) (rawKey : SymbolicString) : Option Identity :=
  if rawKey = text "key" then some ⟨"00", .readOnly⟩ else none

/-- The code of a user who submitted the key `key`, exchanged 60 seconds later. -/
theorem exchanged_after_a_minute : ∃ s i sub issuedAt,
    (exchange sampleDeployment.config sampleAuthenticate).Reachable s ∧
      s.submits i = .issued sub sampleCode issuedAt ∧
      sampleAuthenticate sub.moment sub.rawKey = some sub.key ∧
      60 * nanosPerSecond ≤ issuedAt + codeTtlSeconds * nanosPerSecond := by
  have hauth : sampleAuthenticate 0 (text "key") = some ⟨"00", .readOnly⟩ := if_pos rfl
  obtain ⟨s, hs, hj⟩ := code_taken sampleDeployment.config sampleAuthenticate (Uuid.ofDigit 3)
    (samplePage (text "client")).submission
    (sampleTokenRequest sampleCode (some sampleVerifier) none none) rfl hauth rfl rfl
    (60 * nanosPerSecond) (60 * nanosPerSecond) (Uuid.ofDigit 4)
  have hpkce : pkceOk sampleDeployment.config
      (sampleTokenRequest sampleCode (some sampleVerifier) none none)
      (Submission.entry ⟨text "key", 0, ⟨"00", .readOnly⟩,
        (samplePage (text "client")).submission⟩ 0) = true :=
    (pkceOk_iff _).mpr ⟨sampleVerifier, rfl, rfl, rfl⟩
  have hresponse : (s.tokens 0).response sampleDeployment.config = some (.accessToken
      (issueJwt sampleDeployment.config.toStrings "00" .readOnly (60 * nanosPerSecond)
        (Uuid.ofDigit 4))) := by
    rw [hj]
    refine congrArg some ((redeem_eq_accessToken _).mpr ⟨_, ?_, rfl, Or.inl hpkce, rfl⟩)
    exact AuthCodeStore.ifAlive_eq_some.mpr ⟨rfl, Nat.le_of_eq rfl⟩
  obtain ⟨i, sub, issuedAt, hi, hkey, -, -, hlive⟩ :=
    (exchange_earned hs).1 0 _ _ _ _ _ _ hj hresponse
  exact ⟨s, i, sub, issuedAt, hs, hi, hkey, hlive⟩

end McpGateway.OAuth
