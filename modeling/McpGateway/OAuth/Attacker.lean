import McpGateway.Foundation.Transition
import McpGateway.OAuth.Controller

/-! # The authorization server under attack

`authServer` runs the endpoints on symbolic strings, for any number of parties. The attacker learns
every page, every `Location` (hence every code) and every challenge, registers clients of its own,
and sends what it can derive. It does not see what honest parties send to the token endpoint, nor
what they get from it.

* `Secure` — the attacker's knowledge exposes no random string and no client secret but its own. It
  holds in every state of every run (`secure_step`). -/

namespace McpGateway.OAuth

open Foundation Gateway

/-! ## Parties and their steps -/

/-- What an operator chooses; `jwtSecret` names the random string in `mcp.oauth.jwt-secret`. -/
structure Deployment where
  jwtSecret : Nat
  issuer : JString
  isAllowed : SymbolicString → Bool

def Deployment.config (d : Deployment) : Config SymbolicString where
  toStrings := symbolicStrings d.jwtSecret
  issuer := d.issuer
  isAllowed := d.isAllowed

inductive Party where
  | attacker | honest

/-- The server with what its surroundings remember. -/
structure World where
  server : OAuthState SymbolicString
  /-- What the attacker has seen. -/
  knowledge : List SymbolicString
  /-- The clients the attacker registered. -/
  ownClients : List SymbolicString
  /-- The pages shown so far. -/
  pages : List (AuthorizeForm SymbolicString)
  /-- The client a code was requested for: the one on the page that was submitted. -/
  requestedFor : SymbolicString → Option SymbolicString

def World.initial : World := ⟨⟨AuthCodeStore.empty, fun _ => none⟩, [], [], [], fun _ => none⟩

inductive Action where
  /-- The `client_id` is drawn by the server. -/
  | register (sender : Party) (clientId : Uuid)
  /-- A client draws a `code_verifier` and publishes its challenge. -/
  | newVerifier (verifier : SymbolicString)
  /-- `values` is what iterating over the pending forms yields. -/
  | authorizeForm (request : FormRequest SymbolicString)
      (values : List (AuthorizeParams SymbolicString)) (now : Nat)
  /-- A submission of a page, or one made without a page. -/
  | authorizeSubmit (page : Option (AuthorizeForm SymbolicString))
      (request : SubmitRequest SymbolicString) (identity : Option Identity) (code : Uuid) (now : Nat)
  | token (sender : Party) (request : TokenRequest SymbolicString) (now : Nat) (jti : Uuid)

def AuthorizeForm.fields {T : Type} (f : AuthorizeForm T) : List T :=
  [f.clientId, f.redirectUri, f.codeChallenge, f.codeChallengeMethod, f.state]

/-- What a browser sends when the page is submitted. -/
def AuthorizeForm.submission {T : Type} (f : AuthorizeForm T) : SubmitRequest T :=
  ⟨f.redirectUri, f.codeChallenge, f.codeChallengeMethod, f.state⟩

def FormResponse.pages {T : Type} : FormResponse T → List (AuthorizeForm T)
  | .form page => [page]
  | _ => []

/-- The attacker sees some strings. -/
def World.learn (w : World) (seen : List SymbolicString) : World :=
  { w with knowledge := seen ++ w.knowledge }

def World.withCodes (w : World) (codes : AuthCodeStore SymbolicString) : World :=
  { w with server := { w.server with codes := codes } }

def World.withForms (w : World) (forms : PendingForms SymbolicString) : World :=
  { w with server := { w.server with pendingForms := forms } }

def World.registerOwn (w : World) (clientId : SymbolicString) : World :=
  { w with ownClients := clientId :: w.ownClients }

def World.display (w : World) (pages : List (AuthorizeForm SymbolicString)) : World :=
  { w with pages := pages ++ w.pages }

def World.request (w : World) (code : SymbolicString) (client : Option SymbolicString) : World :=
  { w with requestedFor := fun c => if c = code then client else w.requestedFor c }

theorem World.requestedFor_request (w : World) (code : SymbolicString)
    (client : Option SymbolicString) : (w.request code client).requestedFor code = client :=
  if_pos rfl

def step (d : Deployment) (w : World) : Action → Option World
  | .register sender id =>
      let (clientId, clientSecret) := register d.config id
      match sender with
      | .attacker => some ((w.registerOwn clientId).learn [clientId, clientSecret])
      | .honest => some (w.learn [clientId])
  | .newVerifier verifier => some (w.learn [d.config.sha256 verifier])
  | .authorizeForm request values now =>
      if ∀ p ∈ values, livePending w.server.pendingForms now p.clientId = some p then
        let (response, forms) := authorizeForm d.config request values now w.server.pendingForms
        some (((w.withForms forms).display response.pages).learn
          (response.pages.flatMap AuthorizeForm.fields))
      else none
  | .authorizeSubmit page request identity code now =>
      if ∀ f ∈ page, f ∈ w.pages ∧ request = f.submission then
        match authorizeSubmit d.config identity request code now w.server.codes with
        | (.found redirectUri code issuer state, codes) =>
            some (((w.withCodes codes).request code (page.map AuthorizeForm.clientId)).learn
              [redirectUri, code, issuer, state])
        | (_, codes) => some (w.withCodes codes)
      else none
  | .token sender request now jti =>
      let (response, codes) := token d.config request now jti w.server.codes
      match sender, response with
      | .attacker, .accessToken jwt => some ((w.withCodes codes).learn [jwt])
      | _, _ => some (w.withCodes codes)

/-- The authorization server, from its start. -/
def authServer (d : Deployment) : System World Action where
  init w := w = World.initial
  step := step d

theorem step_register (d : Deployment) (w : World) (sender : Party) (id : Uuid) :
    (authServer d).step w (.register sender id) =
      match sender with
      | .attacker => some ((w.registerOwn (d.config.ofJava (jstr id.toText))).learn
          [d.config.ofJava (jstr id.toText),
            deriveClientSecret d.config.toStrings (d.config.ofJava (jstr id.toText))])
      | .honest => some (w.learn [d.config.ofJava (jstr id.toText)]) := rfl

theorem step_authorizeForm (d : Deployment) (w : World) (request : FormRequest SymbolicString)
    (values : List (AuthorizeParams SymbolicString)) (now : Nat) :
    (authServer d).step w (.authorizeForm request values now) =
      if ∀ p ∈ values, livePending w.server.pendingForms now p.clientId = some p then
        some (((w.withForms (authorizeForm d.config request values now w.server.pendingForms).2).display
          (authorizeForm d.config request values now w.server.pendingForms).1.pages).learn
          ((authorizeForm d.config request values now
            w.server.pendingForms).1.pages.flatMap AuthorizeForm.fields))
      else none := rfl

theorem step_authorizeSubmit (d : Deployment) (w : World)
    (page : Option (AuthorizeForm SymbolicString)) (request : SubmitRequest SymbolicString)
    (identity : Option Identity) (code : Uuid) (now : Nat) :
    (authServer d).step w (.authorizeSubmit page request identity code now) =
      if ∀ f ∈ page, f ∈ w.pages ∧ request = f.submission then
        match authorizeSubmit d.config identity request code now w.server.codes with
        | (.found redirectUri code issuer state, codes) =>
            some (((w.withCodes codes).request code (page.map AuthorizeForm.clientId)).learn
              [redirectUri, code, issuer, state])
        | (_, codes) => some (w.withCodes codes)
      else none := rfl

theorem step_token (d : Deployment) (w : World) (sender : Party)
    (request : TokenRequest SymbolicString) (now : Nat) (jti : Uuid) :
    (authServer d).step w (.token sender request now jti) =
      match sender, (token d.config request now jti w.server.codes).1 with
      | .attacker, .accessToken jwt =>
          some ((w.withCodes (token d.config request now jti w.server.codes).2).learn [jwt])
      | _, _ => some (w.withCodes (token d.config request now jti w.server.codes).2) := rfl

/-- A token request is always answered. -/
theorem token_enabled (d : Deployment) (w : World) (sender : Party)
    (request : TokenRequest SymbolicString) (now : Nat) (jti : Uuid) :
    ∃ w', (authServer d).step w (.token sender request now jti) = some w' := by
  rw [step_token]
  split
  · exact ⟨_, rfl⟩
  · exact ⟨_, rfl⟩

/-! ## What the attacker can send -/

def FormRequest.parameters {T : Type} (r : FormRequest T) : List T :=
  r.responseType.toList ++ r.clientId.toList ++ r.redirectUri.toList ++ r.codeChallenge.toList ++
    r.codeChallengeMethod.toList ++ [r.state]

def SubmitRequest.parameters {T : Type} (r : SubmitRequest T) : List T :=
  [r.redirectUri, r.codeChallenge, r.codeChallengeMethod, r.state]

def TokenRequest.parameters {T : Type} (r : TokenRequest T) : List T :=
  [r.grantType, r.code, r.redirectUri] ++ r.codeVerifier.toList ++ r.clientId.toList ++
    r.clientSecret.toList

/-- Requests to `/oauth/authorize` are public, whoever sends them; only what an honest party sends
to the token endpoint is its own. -/
def Admissible (w : World) : Action → Prop
  | .authorizeForm request _ _ => ∀ s ∈ request.parameters, Derives w.knowledge s
  | .authorizeSubmit _ request _ _ _ => ∀ s ∈ request.parameters, Derives w.knowledge s
  | .token .attacker request _ _ => ∀ s ∈ request.parameters, Derives w.knowledge s
  | _ => True

/-! ## Secrets -/

/-- Random strings, and the secrets of the clients the attacker has not registered. -/
def Secret (d : Deployment) (own : List SymbolicString) : Symbol → Prop
  | .fresh _ => True
  | .mac key s => key = [.fresh d.jwtSecret] ∧
      ∃ clientId, s = clientSecretInput d.config.toStrings clientId ∧ clientId ∉ own
  | _ => False

variable {d : Deployment} {own : List SymbolicString}

theorem unforgeable_secret : Unforgeable (Secret d own) where
  unit _ h := h
  hash _ h := h
  mac key s h := by
    obtain ⟨rfl, -⟩ := h
    simp [Secret]

theorem secret_mono {own' : List SymbolicString} (hsub : ∀ c ∈ own, c ∈ own') (a : Symbol)
    (h : Secret d own' a) : Secret d own a := by
  cases a with
  | unit u => exact h
  | fresh n => trivial
  | hash s => exact h
  | mac key s =>
      obtain ⟨hkey, clientId, hs, hnot⟩ := h
      exact ⟨hkey, clientId, hs, fun hmem => hnot (hsub _ hmem)⟩

theorem avoids_ofJava (s : JString) : Avoids (Secret d own) (d.config.ofJava s) :=
  avoids_text unforgeable_secret s

theorem avoids_codeText (code : Uuid) : Avoids (Secret d own) (codeText d.config code) :=
  avoids_ofJava _

theorem clientSecretInput_injective {a b : SymbolicString}
    (h : clientSecretInput d.config.toStrings a = clientSecretInput d.config.toStrings b) : a = b :=
  List.append_cancel_left h

/-- A client secret is a secret, unless it is the attacker's own. -/
theorem avoids_clientSecret {clientId : SymbolicString} :
    Avoids (Secret d own) (deriveClientSecret d.config.toStrings clientId) ↔ clientId ∈ own := by
  show Avoids (Secret d own) [.mac [.fresh d.jwtSecret] _] ↔ _
  rw [avoids_cons]
  constructor
  · rintro ⟨hnot, -⟩
    by_contra hown
    exact hnot ⟨rfl, clientId, rfl, hown⟩
  · intro hown
    refine ⟨?_, avoids_nil⟩
    rintro ⟨-, other, hinput, hother⟩
    rw [clientSecretInput_injective hinput] at hown
    exact hother hown

/-- What is signed does not start like what a client secret is made from, so that a token tells
nothing about the secrets. -/
theorem avoids_issueJwt (keyHash : String) (role : AccessRole) (now : Nat) (jti : Uuid) :
    Avoids (Secret d own) (issueJwt d.config.toStrings keyHash role now jti) := by
  obtain ⟨rest, hrest⟩ := signing_head keyHash role (now / nanosPerSecond) jti
  unfold issueJwt
  rw [hrest]
  refine avoids_append.mpr ⟨avoids_append.mpr ⟨avoids_ofJava _, avoids_ofJava _⟩, ?_⟩
  refine avoids_cons.mpr ⟨?_, avoids_nil⟩
  rintro ⟨-, clientId, hinput, -⟩
  have hhead : Symbol.unit 101 = Symbol.unit 99 := congrArg (List.headD · (.unit 0)) hinput
  cases hhead

/-! ## Secrecy -/

/-- The attacker has seen no secret, and no pending form holds one. -/
structure Secure (d : Deployment) (w : World) : Prop where
  knowledge : ∀ s ∈ w.knowledge, Avoids (Secret d w.ownClients) s
  pending : ∀ c f, w.server.pendingForms c = some f →
    ∀ s ∈ f.params.form.fields, Avoids (Secret d w.ownClients) s

theorem secure_initial : Secure d World.initial where
  knowledge _ hs := by cases hs
  pending _ _ hf := by cases hf

variable {w w' : World}

theorem Secure.derives (h : Secure d w) {s : SymbolicString} (hs : Derives w.knowledge s) :
    Avoids (Secret d w.ownClients) s :=
  hs.avoids unforgeable_secret h.knowledge

/-- The attacker makes no string with a random part. -/
theorem Secure.fresh (h : Secure d w) {s : SymbolicString} (hs : Derives w.knowledge s) (n : Nat) :
    Symbol.fresh n ∉ s :=
  fun hn => h.derives hs _ hn trivial

/-- The only client secrets it makes are those of its own clients. -/
theorem Secure.clientSecret (h : Secure d w) {clientId : SymbolicString}
    (hs : Derives w.knowledge (deriveClientSecret d.config.toStrings clientId)) :
    clientId ∈ w.ownClients :=
  avoids_clientSecret.mp (h.derives hs)

/-- Learning strings without secrets is harmless. -/
theorem Secure.learn (h : Secure d w) {seen : List SymbolicString}
    (hseen : ∀ s ∈ seen, Avoids (Secret d w.ownClients) s) : Secure d (w.learn seen) where
  knowledge s hs := by
    rcases List.mem_append.mp hs with hs | hs
    · exact hseen s hs
    · exact h.knowledge s hs
  pending := h.pending

/-- Registering a client makes its secret one of the attacker's own. -/
theorem Secure.registerOwn (h : Secure d w) (clientId : SymbolicString) :
    Secure d (w.registerOwn clientId) where
  knowledge s hs := (h.knowledge s hs).mono (secret_mono fun _ => List.mem_cons_of_mem _)
  pending c f hf s hs := (h.pending c f hf s hs).mono (secret_mono fun _ => List.mem_cons_of_mem _)

/-- Pending forms without secrets are harmless. -/
theorem Secure.withForms (h : Secure d w) {forms : PendingForms SymbolicString}
    (hforms : ∀ c f, forms c = some f →
      ∀ s ∈ f.params.form.fields, Avoids (Secret d w.ownClients) s) : Secure d (w.withForms forms) :=
  ⟨h.knowledge, hforms⟩

theorem Secure.display (h : Secure d w) (pages : List (AuthorizeForm SymbolicString)) :
    Secure d (w.display pages) :=
  ⟨h.knowledge, h.pending⟩

theorem Secure.request (h : Secure d w) (code : SymbolicString) (client : Option SymbolicString) :
    Secure d (w.request code client) :=
  ⟨h.knowledge, h.pending⟩

theorem Secure.withCodes (h : Secure d w) (codes : AuthCodeStore SymbolicString) :
    Secure d (w.withCodes codes) :=
  ⟨h.knowledge, h.pending⟩

theorem livePending_eq_some {T : Type} {forms : PendingForms T} {now : Nat} {c : T}
    {p : AuthorizeParams T} (h : livePending forms now c = some p) :
    ∃ f, forms c = some f ∧ f.params = p ∧ now < f.writtenAt + pendingTtl := by
  obtain ⟨f, hf, hp⟩ := Option.bind_eq_some_iff.mp h
  split_ifs at hp with hlive
  cases hp
  exact ⟨f, hf, rfl, hlive⟩

/-- A page shows the parameters of the request or a pending form; the pending forms change by the
page that is shown. -/
theorem authorizeForm_cases {T : Type} [DecidableEq T] (cfg : Config T) (request : FormRequest T)
    (values : List (AuthorizeParams T)) (now : Nat) (forms : PendingForms T) :
    ((authorizeForm cfg request values now forms).2 = forms ∧
      (∀ page ∈ (authorizeForm cfg request values now forms).1.pages,
        ∃ p ∈ values, page = p.form)) ∨
    ∃ p : AuthorizeParams T, (∀ s ∈ p.form.fields, s ∈ request.parameters) ∧
      (authorizeForm cfg request values now forms).1 = .form p.form ∧
      (authorizeForm cfg request values now forms).2
        = fun c => if c = p.clientId then some ⟨p, now⟩ else forms c := by
  -- a missing parameter: the page is made from a form that is pending
  have hrecover : ∀ page ∈ (recoverForm cfg values request.clientId).pages,
      ∃ p ∈ values, page = p.form := by
    unfold recoverForm
    cases hfind : (present cfg request.clientId).bind fun id =>
        values.find? fun p => cfg.startsWith p.clientId id with
    | none =>
        intro page hpage
        cases hpage
    | some p =>
        intro page hpage
        obtain ⟨id, -, hp⟩ := Option.bind_eq_some_iff.mp hfind
        exact ⟨p, List.mem_of_find?_eq_some hp, List.mem_singleton.mp hpage⟩
  unfold authorizeForm
  cases hid : present cfg request.clientId with
  | none => exact Or.inl ⟨rfl, hrecover⟩
  | some clientId =>
    cases huri : present cfg request.redirectUri with
    | none => exact Or.inl ⟨rfl, hrecover⟩
    | some redirectUri =>
      cases hchallenge : present cfg request.codeChallenge with
      | none => exact Or.inl ⟨rfl, hrecover⟩
      | some codeChallenge =>
        cases hmethod : present cfg request.codeChallengeMethod with
        | none => exact Or.inl ⟨rfl, hrecover⟩
        | some codeChallengeMethod =>
          dsimp only
          split_ifs
          · exact Or.inl ⟨rfl, fun _ h => by cases h⟩
          · exact Or.inl ⟨rfl, fun _ h => by cases h⟩
          · -- all four are there, and the form shows what the request said
            refine Or.inr ⟨_, ?_, rfl, rfl⟩
            have hsome : ∀ {o : Option T} {v : T}, present cfg o = some v → o = some v :=
              fun h => (Option.filter_eq_some_iff.mp h).1
            simp only [AuthorizeForm.fields, AuthorizeParams.form, FormRequest.parameters,
              hsome hid, hsome huri, hsome hchallenge, hsome hmethod]
            simp

theorem secure_register {sender : Party} {id : Uuid} (h : Secure d w)
    (hstep : (authServer d).step w (.register sender id) = some w') : Secure d w' := by
  rw [step_register] at hstep
  have hid : ∀ own, Avoids (Secret d own) (d.config.ofJava (jstr id.toText)) :=
    fun own => avoids_ofJava (jstr id.toText)
  generalize d.config.ofJava (jstr id.toText) = clientId at hstep hid
  cases sender with
  | honest =>
      cases hstep
      exact h.learn (List.forall_mem_singleton.mpr (hid _))
  | attacker =>
      cases hstep
      apply (h.registerOwn _).learn
      refine List.forall_mem_cons.mpr ⟨hid _, List.forall_mem_singleton.mpr ?_⟩
      exact avoids_clientSecret.mpr List.mem_cons_self

theorem secure_authorizeForm {request : FormRequest SymbolicString}
    {values : List (AuthorizeParams SymbolicString)} {now : Nat} (h : Secure d w)
    (hrequest : ∀ s ∈ request.parameters, Derives w.knowledge s)
    (hstep : (authServer d).step w (.authorizeForm request values now) = some w') :
    Secure d w' := by
  rw [step_authorizeForm] at hstep
  split_ifs at hstep with hvalues
  cases hstep
  rcases authorizeForm_cases d.config request values now w.server.pendingForms with
    ⟨hforms, hpages⟩ | ⟨p, hp, hpage, hforms⟩
  · rw [hforms]
    apply ((h.withForms h.pending).display _).learn
    intro s hs
    obtain ⟨page, hpage, hs⟩ := List.mem_flatMap.mp hs
    obtain ⟨p, hp, rfl⟩ := hpages page hpage
    obtain ⟨f, hf, rfl, -⟩ := livePending_eq_some (hvalues p hp)
    exact h.pending _ f hf s hs
  · -- The page shows what the request says, and that could be derived.
    have havoids : ∀ s ∈ p.form.fields, Avoids (Secret d w.ownClients) s :=
      fun s hs => h.derives (hrequest s (hp s hs))
    rw [hforms, hpage]
    refine ((h.withForms ?_).display _).learn ?_
    · intro c f hf
      split_ifs at hf with hc
      · cases hf
        exact havoids
      · exact h.pending c f hf
    · intro s hs
      obtain ⟨page, hpage, hs⟩ := List.mem_flatMap.mp hs
      rw [List.mem_singleton.mp hpage] at hs
      exact havoids s hs

theorem secure_authorizeSubmit {page : Option (AuthorizeForm SymbolicString)}
    {request : SubmitRequest SymbolicString} {identity : Option Identity} {code : Uuid} {now : Nat}
    (h : Secure d w) (hrequest : ∀ s ∈ request.parameters, Derives w.knowledge s)
    (hstep : (authServer d).step w (.authorizeSubmit page request identity code now) = some w') :
    Secure d w' := by
  rw [step_authorizeSubmit] at hstep
  split_ifs at hstep
  cases hresult : authorizeSubmit d.config identity request code now w.server.codes with
  | mk response codes =>
      rw [hresult] at hstep
      cases response with
      | badRequest =>
          cases hstep
          exact h.withCodes _
      | unauthorized =>
          cases hstep
          exact h.withCodes _
      | found redirectUri code' issuer state =>
          cases hstep
          obtain ⟨-, key, -, huri, hcode, hissuer, hstate, -⟩ := authorizeSubmit_found hresult
          -- the redirect tells the attacker four texts; none of them has a secret in it
          apply ((h.withCodes _).request _ _).learn
          have hparam : ∀ s ∈ request.parameters, Avoids (Secret d w.ownClients) s :=
            fun s hs => h.derives (hrequest s hs)
          have huri' : Avoids (Secret d w.ownClients) redirectUri := by
            rw [huri]
            exact hparam _ List.mem_cons_self
          have hcode' : Avoids (Secret d w.ownClients) code' := by
            rw [hcode]
            exact avoids_codeText code
          have hissuer' : Avoids (Secret d w.ownClients) issuer := by
            rw [hissuer]
            exact avoids_ofJava _
          have hstate' : Avoids (Secret d w.ownClients) state := by
            rw [hstate]
            exact hparam _ (by simp [SubmitRequest.parameters])
          intro s hs
          simp only [List.mem_cons, List.not_mem_nil, or_false] at hs
          rcases hs with rfl | rfl | rfl | rfl
          · exact huri'
          · exact hcode'
          · exact hissuer'
          · exact hstate'

theorem secure_token {sender : Party} {request : TokenRequest SymbolicString} {now : Nat}
    {jti : Uuid} (h : Secure d w)
    (hstep : (authServer d).step w (.token sender request now jti) = some w') : Secure d w' := by
  cases sender with
  | honest =>
      cases hstep
      exact h.withCodes _
  | attacker =>
      rw [step_token] at hstep
      cases hresponse : (token d.config request now jti w.server.codes).1 with
      | error name =>
          rw [hresponse] at hstep
          cases hstep
          exact h.withCodes _
      | accessToken jwt =>
          rw [hresponse] at hstep
          cases hstep
          obtain ⟨-, e, -, -, -, -, rfl⟩ := (token_eq_accessToken d.config).mp hresponse
          exact (h.withCodes _).learn (List.forall_mem_singleton.mpr (avoids_issueJwt _ _ _ _))

/-- **Secrecy is kept by every step.** -/
theorem secure_step {a : Action} (h : Secure d w) (ha : Admissible w a)
    (hstep : (authServer d).step w a = some w') : Secure d w' := by
  cases a with
  | register sender id => exact secure_register h hstep
  | newVerifier verifier =>
      cases hstep
      apply h.learn
      exact List.forall_mem_singleton.mpr (avoids_cons.mpr ⟨fun h => h, avoids_nil⟩)
  | authorizeForm request values now => exact secure_authorizeForm h ha hstep
  | authorizeSubmit page request identity code now => exact secure_authorizeSubmit h ha hstep
  | token sender request now jti => exact secure_token h hstep

end McpGateway.OAuth
