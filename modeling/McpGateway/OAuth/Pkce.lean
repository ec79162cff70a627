import McpGateway.OAuth.Attacker

/-! # What a code is bound to

* `pkce_binding_iff` — in a run of the server under attack, every exchange is made by the holder of
  the verifier or of the secret of the very client, and none by the attacker for a code it can prove
  nothing about, exactly when no exchange relies on the secret of another client.
* `foreign_client_redeems` — the server does accept the secret of another client. -/

namespace McpGateway.OAuth

open Foundation Gateway

/-! ## The property -/

section

variable (d : Deployment) (w : World)

/-- The request presents a string whose digest is the challenge. -/
def VerifierMatches (request : TokenRequest SymbolicString) (entry : AuthCodeEntry SymbolicString) :
    Prop :=
  ∃ v, request.codeVerifier = some v ∧ d.config.sha256 v = entry.codeChallenge

/-- The request presents the secret of the very client the code was requested for. -/
def PresentsSecret (request : TokenRequest SymbolicString) : Prop :=
  ∃ client, w.requestedFor request.code = some client ∧
    request.clientSecret = some (deriveClientSecret d.config.toStrings client)

/-- The verifier of the authorization is random, and its client is not one of the attacker's. -/
def Protected (code : SymbolicString) (entry : AuthCodeEntry SymbolicString) : Prop :=
  (∀ v, d.config.sha256 v = entry.codeChallenge → ∃ n, Symbol.fresh n ∈ v) ∧
    ∀ client, w.requestedFor code = some client → client ∉ w.ownClients

/-- An exchange is bound to the verifier or to the client, and is not the attacker's if the
authorization is protected. -/
def Bound : Action → Prop
  | .token sender request now jti =>
      ∀ jwt, (token d.config request now jti w.server.codes).1 = .accessToken jwt →
        ∃ entry, w.server.codes request.code = some entry ∧
          (VerifierMatches d request entry ∨ PresentsSecret d w request) ∧
          (match sender with
            | .attacker => ¬ Protected d w request.code entry
            | .honest => True)
  | _ => True

/-- A request for a live code that relies on the secret of another client. -/
def ForeignSecret : Action → Prop
  | .token _ request now _ =>
      request.grantType = d.config.ofJava (jstr "authorization_code") ∧
      ∃ entry id, w.server.codes request.code = some entry ∧ now ≤ entry.expiresAt ∧
        entry.redirectUri = request.redirectUri ∧ ¬ VerifierMatches d request entry ∧
        request.clientId = some id ∧
        request.clientSecret = some (deriveClientSecret d.config.toStrings id) ∧
        w.requestedFor request.code ≠ some id
  | _ => False

end

/-! ## One exchange -/

variable {d : Deployment} {w : World}

/-- The client secret determines the client. -/
theorem deriveClientSecret_injective {a b : SymbolicString}
    (h : deriveClientSecret d.config.toStrings a = deriveClientSecret d.config.toStrings b) :
    a = b := by
  have hmac : Symbol.mac [.fresh d.jwtSecret] (clientSecretInput d.config.toStrings a)
      = Symbol.mac [.fresh d.jwtSecret] (clientSecretInput d.config.toStrings b) :=
    (List.cons.inj h).1
  exact clientSecretInput_injective (Symbol.mac.inj hmac).2

/-- The attacker can neither match the challenge of a protected authorization nor present the secret
of its client. -/
theorem not_protected (h : Secure d w) {request : TokenRequest SymbolicString}
    {entry : AuthCodeEntry SymbolicString}
    (hrequest : ∀ s ∈ request.parameters, Derives w.knowledge s)
    (hproof : VerifierMatches d request entry ∨ PresentsSecret d w request) :
    ¬ Protected d w request.code entry := by
  rintro ⟨hrandom, hclient⟩
  rcases hproof with ⟨v, hv, hchallenge⟩ | ⟨client, hfor, hsecret⟩
  · obtain ⟨n, hn⟩ := hrandom v hchallenge
    have hderives : Derives w.knowledge v := hrequest v (by simp [TokenRequest.parameters, hv])
    exact h.fresh hderives n hn
  · have hderives : Derives w.knowledge (deriveClientSecret d.config.toStrings client) :=
      hrequest _ (by simp [TokenRequest.parameters, hsecret])
    exact hclient client hfor (h.clientSecret hderives)

/-- A granted request has one of the two proofs, unless it relies on a foreign secret. -/
theorem proof_of_granted {sender : Party} {request : TokenRequest SymbolicString} {now : Nat}
    {jti : Uuid} {jwt : SymbolicString}
    (hgranted : (token d.config request now jti w.server.codes).1 = .accessToken jwt)
    (hforeign : ¬ ForeignSecret d w (.token sender request now jti)) :
    ∃ entry, w.server.codes request.code = some entry ∧
      (VerifierMatches d request entry ∨ PresentsSecret d w request) := by
  obtain ⟨hgrant, entry, hentry, hlive, huri, hproof, -⟩ :=
    (token_eq_accessToken d.config).mp hgranted
  refine ⟨entry, hentry, ?_⟩
  by_cases hverifier : VerifierMatches d request entry
  · exact Or.inl hverifier
  · right
    rcases hproof with hpkce | hsecret
    · obtain ⟨v, hv, -, hchallenge⟩ := (pkceOk_iff d.config).mp hpkce
      exact absurd ⟨v, hv, hchallenge⟩ hverifier
    · obtain ⟨id, hid, hsecret⟩ := (secretOk_iff d.config).mp hsecret
      by_cases hfor : w.requestedFor request.code = some id
      · exact ⟨id, hfor, hsecret⟩
      · exact absurd
          ⟨hgrant, entry, id, hentry, hlive, huri, hverifier, hid, hsecret, hfor⟩ hforeign

/-- **One step is bound exactly when it does not rely on a foreign secret.** -/
theorem bound_iff (h : Secure d w) {a : Action} (ha : Admissible w a) :
    Bound d w a ↔ ¬ ForeignSecret d w a := by
  cases a with
  | token sender request now jti =>
      constructor
      · rintro hbound ⟨hgrant, entry, id, hentry, hlive, huri, hverifier, hid, hsecret, hfor⟩
        have hgranted : (token d.config request now jti w.server.codes).1 = .accessToken
            (issueJwt d.config.toStrings entry.keyHash entry.role now jti) :=
          (token_eq_accessToken d.config).mpr ⟨hgrant, entry, hentry, hlive, huri,
            Or.inr ((secretOk_iff d.config).mpr ⟨id, hid, hsecret⟩), rfl⟩
        obtain ⟨entry', hentry', hproof, -⟩ := hbound _ hgranted
        rw [hentry] at hentry'
        cases hentry'
        rcases hproof with hmatches | ⟨client, hclient, hsecret'⟩
        · exact hverifier hmatches
        · rw [hsecret, Option.some.injEq] at hsecret'
          rw [deriveClientSecret_injective hsecret'] at hfor
          exact hfor hclient
      · intro hforeign jwt hgranted
        obtain ⟨entry, hentry, hproof⟩ := proof_of_granted hgranted hforeign
        refine ⟨entry, hentry, hproof, ?_⟩
        cases sender with
        | attacker => exact not_protected h ha hproof
        | honest => trivial
  | register sender id => exact ⟨fun _ h => h, fun _ => trivial⟩
  | newVerifier verifier => exact ⟨fun _ h => h, fun _ => trivial⟩
  | authorizeForm request values now => exact ⟨fun _ h => h, fun _ => trivial⟩
  | authorizeSubmit page request identity code now => exact ⟨fun _ h => h, fun _ => trivial⟩

/-! ## Runs -/

/-- **PKCE binding.** Every step of a run is bound exactly when none relies on the secret of another
client. -/
theorem pkce_binding_iff (d : Deployment) {w : World} {as : List Action}
    (hrun : (authServer d).Steps Admissible World.initial as w) :
    (authServer d).Steps (Bound d) World.initial as w ↔
      (authServer d).Steps (fun w a => ¬ ForeignSecret d w a) World.initial as w := by
  refine hrun.congr (P := Secure d) ?_ secure_initial
  intro w a w' hsecure ha hstep
  exact ⟨secure_step hsecure ha hstep, bound_iff hsecure ha⟩

/-! ## Two runs -/

def sampleDeployment : Deployment := ⟨0, jstr "https://gateway", fun _ => true⟩

def text (s : String) : SymbolicString := sampleDeployment.config.ofJava (jstr s)

/-- The client id drawn for the honest client (`1`) or for the attacker's (`2`). -/
def sampleClient (n : Nat) : SymbolicString := text (Uuid.ofDigit n).toText

def sampleVerifier : SymbolicString := [.fresh 7]

def sampleCode : SymbolicString := codeText sampleDeployment.config (Uuid.ofDigit 3)

/-- The page of a client. -/
def samplePage (client : SymbolicString) : AuthorizeForm SymbolicString :=
  ⟨client, text "http://localhost/cb", [.hash sampleVerifier], text "S256", []⟩

/-- The request that shows it. -/
def samplePageRequest (client : SymbolicString) : FormRequest SymbolicString :=
  ⟨some (text "code"), some client, some (samplePage client).redirectUri,
    some (samplePage client).codeChallenge, some (samplePage client).codeChallengeMethod, []⟩

/-- A client registers, draws a verifier and shows its page, and the user submits it. -/
def authorization : List Action :=
  [.register .honest (Uuid.ofDigit 1), .newVerifier sampleVerifier,
    .authorizeForm (samplePageRequest (sampleClient 1)) [] 0,
    .authorizeSubmit (some (samplePage (sampleClient 1))) (samplePage (sampleClient 1)).submission
      (some ⟨"00", .readOnly⟩) (Uuid.ofDigit 3) 0]

/-- Before the submission. -/
def shown (client : SymbolicString) : World :=
  ((((World.initial.learn [client]).learn [[.hash sampleVerifier]]).withForms
    (fun c => if c = client then
      some ⟨⟨text "code", client, (samplePage client).redirectUri,
        (samplePage client).codeChallenge, (samplePage client).codeChallengeMethod, []⟩, 0⟩
      else none)).display [samplePage client]).learn (samplePage client).fields

/-- After it. -/
def authorized (client code : SymbolicString) : World :=
  (((shown client).withCodes (AuthCodeStore.empty.issue "00" .readOnly
      (samplePage client).redirectUri (samplePage client).codeChallenge
      (samplePage client).codeChallengeMethod code 0)).request code (some client)).learn
    [(samplePage client).redirectUri, code, text "https://gateway", []]

theorem derives_text (K : List SymbolicString) (s : String) : Derives K (text s) :=
  Derives.text (jstr s)

/-- The page is derived from its challenge. -/
theorem derives_page {K : List SymbolicString} {client : SymbolicString} (hclient : Derives K client)
    (h : [.hash sampleVerifier] ∈ K) : ∀ s ∈ (samplePage client).fields, Derives K s := by
  intro s hs
  simp only [AuthorizeForm.fields, samplePage, List.mem_cons, List.not_mem_nil, or_false] at hs
  rcases hs with rfl | rfl | rfl | rfl | rfl
  · exact hclient
  · exact derives_text K _
  · exact .known h
  · exact derives_text K _
  · exact .nil

theorem step_shown (client : SymbolicString)
    (hclient : sampleDeployment.config.isBlank client = false) :
    (authServer sampleDeployment).step
      ((World.initial.learn [client]).learn [[.hash sampleVerifier]])
      (.authorizeForm (samplePageRequest client) [] 0) = some (shown client) := by
  have huri : sampleDeployment.config.isBlank (text "http://localhost/cb") = false := by decide
  have hchallenge : sampleDeployment.config.isBlank [.hash sampleVerifier] = false := by decide
  have hmethod : sampleDeployment.config.isBlank (text "S256") = false := by decide
  have hform : authorizeForm sampleDeployment.config (samplePageRequest client) [] 0
      ((World.initial.learn [client]).learn [[.hash sampleVerifier]]).server.pendingForms = _ :=
    authorizeForm_complete sampleDeployment.config (samplePage client) [] 0 _ hclient huri
      hchallenge hmethod rfl rfl
  rw [step_authorizeForm, if_pos (by simp), hform]
  rfl

theorem authorization_steps : (authServer sampleDeployment).Steps Admissible World.initial
    authorization (authorized (sampleClient 1) sampleCode) := by
  have hauthorized : (authServer sampleDeployment).step (shown (sampleClient 1))
      (.authorizeSubmit (some (samplePage (sampleClient 1)))
        (samplePage (sampleClient 1)).submission (some ⟨"00", .readOnly⟩) (Uuid.ofDigit 3) 0)
      = some (authorized (sampleClient 1) sampleCode) := by
    rw [step_authorizeSubmit, if_pos]
    · rfl
    · intro f hf
      cases hf
      exact ⟨List.mem_append_left _ List.mem_cons_self, rfl⟩
  have hclient : ∀ K, Derives K (sampleClient 1) := fun K => derives_text K _
  refine .cons trivial rfl (.cons trivial rfl (.cons ?_ (step_shown (sampleClient 1) (by decide))
    (.cons ?_ hauthorized (.nil _))))
  · intro s hs
    have hK : [.hash sampleVerifier] ∈
        ((World.initial.learn [sampleClient 1]).learn [[.hash sampleVerifier]]).knowledge :=
      List.mem_cons_self
    rcases List.mem_cons.mp hs with rfl | hs
    · exact derives_text _ _
    · exact derives_page (hclient _) hK s hs
  · intro s hs
    have hK : [.hash sampleVerifier] ∈ (shown (sampleClient 1)).knowledge := by
      apply List.mem_append_left
      simp [AuthorizeForm.fields, samplePage]
    exact derives_page (hclient _) hK s (List.mem_cons_of_mem _ hs)

/-- A request for the sample code. -/
def sampleTokenRequest (code : SymbolicString)
    (codeVerifier clientId clientSecret : Option SymbolicString) : TokenRequest SymbolicString :=
  ⟨text "authorization_code", code, text "http://localhost/cb", codeVerifier, clientId,
    clientSecret⟩

/-- The client exchanges its code with its verifier; every step is bound. -/
theorem verifier_redeems : ∃ w, (authServer sampleDeployment).Steps (Bound sampleDeployment)
    World.initial (authorization ++ [.token .honest (sampleTokenRequest sampleCode
      (some sampleVerifier) none none) 0 (Uuid.ofDigit 4)]) w := by
  let exchange : Action :=
    .token .honest (sampleTokenRequest sampleCode (some sampleVerifier) none none) 0
      (Uuid.ofDigit 4)
  obtain ⟨w, hw⟩ : ∃ w, (authServer sampleDeployment).step
      (authorized (sampleClient 1) sampleCode) exchange = some w := token_enabled _ _ _ _ _ _
  have hexchange : (authServer sampleDeployment).Steps Admissible
      (authorized (sampleClient 1) sampleCode) [exchange] w := System.Steps.single trivial hw
  have hrun := authorization_steps.append hexchange
  refine ⟨w, (pkce_binding_iff sampleDeployment hrun).mpr (hrun.restrict ?_)⟩
  intro a ha w'
  simp only [authorization, List.cons_append, List.nil_append, List.mem_cons, List.not_mem_nil,
    or_false] at ha
  rcases ha with rfl | rfl | rfl | rfl | rfl
  · exact fun h => h
  · exact fun h => h
  · exact fun h => h
  · exact fun h => h
  · rintro ⟨-, entry, id, -, -, -, -, hid, -⟩
    cases hid

theorem derives_request {K : List SymbolicString} {code other secret : SymbolicString}
    (hcode : Derives K code) (hother : Derives K other) (hsecret : Derives K secret) :
    ∀ s ∈ (sampleTokenRequest code none (some other) (some secret)).parameters, Derives K s := by
  intro s hs
  simp only [TokenRequest.parameters, sampleTokenRequest, Option.toList, List.append_nil,
    List.cons_append, List.nil_append, List.mem_cons, List.not_mem_nil, or_false] at hs
  rcases hs with rfl | rfl | rfl | rfl | rfl
  · exact derives_text K _
  · exact hcode
  · exact derives_text K _
  · exact hother
  · exact hsecret

/-- The secret of any client redeems the code. -/
theorem redeemed_by {w : World} {client code other : SymbolicString} (jti : Uuid)
    (hw : w.server.codes = (authorized client code).server.codes) :
    (token sampleDeployment.config (sampleTokenRequest code none (some other)
        (some (deriveClientSecret sampleDeployment.config.toStrings other))) 0 jti
        w.server.codes).1
      = .accessToken (issueJwt sampleDeployment.config.toStrings "00" .readOnly 0 jti) := by
  have hentry : w.server.codes code = some (AuthCodeStore.newEntry "00" .readOnly
      (samplePage client).redirectUri (samplePage client).codeChallenge
      (samplePage client).codeChallengeMethod 0) := by
    rw [hw]
    exact AuthCodeStore.issue_self
  have hsecret : secretOk sampleDeployment.config (sampleTokenRequest code none (some other)
      (some (deriveClientSecret sampleDeployment.config.toStrings other))) = true :=
    (secretOk_iff _).mpr ⟨other, rfl, rfl⟩
  exact (token_eq_accessToken _).mpr ⟨rfl, _, hentry, Nat.zero_le _, rfl, Or.inr hsecret, rfl⟩

/-- Such an exchange is not bound. -/
theorem redemption_not_bound {w : World} {client code other : SymbolicString} {jti : Uuid}
    (hw : w.server.codes = (authorized client code).server.codes)
    (hfor : w.requestedFor = (authorized client code).requestedFor) (hne : other ≠ client) :
    ¬ Bound sampleDeployment w (.token .attacker (sampleTokenRequest code none (some other)
      (some (deriveClientSecret sampleDeployment.config.toStrings other))) 0 jti) := by
  intro hbound
  obtain ⟨entry, -, hproof, -⟩ := hbound _ (redeemed_by jti hw)
  rcases hproof with ⟨v, hv, -⟩ | ⟨client', hclient, hsecret⟩
  · cases hv
  · replace hclient : w.requestedFor code = some client' := hclient
    have hown : (authorized client code).requestedFor code = some client :=
      World.requestedFor_request _ code _
    rw [hfor, hown, Option.some.injEq] at hclient
    rw [← hclient] at hsecret
    exact hne (deriveClientSecret_injective (Option.some.inj hsecret))

/-- A client of its own, with its secret, is all the attacker gets out of a registration. -/
theorem own_client_same (w : World) (clientId : SymbolicString) (seen : List SymbolicString) :
    ((w.registerOwn clientId).learn seen).server.codes = w.server.codes ∧
      ((w.registerOwn clientId).learn seen).requestedFor = w.requestedFor :=
  ⟨rfl, rfl⟩

/-- The attacker registers a client of its own and exchanges the code of the other client with the
secret of its own client. -/
theorem foreign_client_redeems : ¬ ∀ (d : Deployment) (as : List Action) (w : World),
    (authServer d).Steps Admissible World.initial as w →
      (authServer d).Steps (Bound d) World.initial as w := by
  intro hclaim
  let other := sampleClient 2
  let secret := deriveClientSecret sampleDeployment.config.toStrings other
  let before := authorized (sampleClient 1) sampleCode
  let w := (before.registerOwn other).learn [other, secret]
  let exchange : Action := .token .attacker
    (sampleTokenRequest sampleCode none (some other) (some secret)) 0 (Uuid.ofDigit 4)
  have hregister : (authServer sampleDeployment).Steps Admissible before
      [.register .attacker (Uuid.ofDigit 2)] w :=
    System.Steps.single trivial (step_register _ _ _ _)
  have hderives : Admissible w exchange :=
    derives_request (Derives.text _) (Derives.text _)
      (.known (List.mem_cons_of_mem _ List.mem_cons_self))
  have hbefore := authorization_steps.append hregister
  obtain ⟨after, hafter⟩ : ∃ after, (authServer sampleDeployment).step w exchange = some after :=
    token_enabled _ _ _ _ _ _
  obtain ⟨w', hw', hlast⟩ :=
    (hclaim _ _ _ (hbefore.append (System.Steps.single hderives hafter))).split
  rw [hw'.det hbefore] at hlast
  cases hlast with
  | cons hbound _ _ =>
      have hne : sampleClient 2 ≠ sampleClient 1 := by decide +kernel
      obtain ⟨hcodes, hfor⟩ := own_client_same before other [other, secret]
      exact redemption_not_bound hcodes hfor hne hbound

end McpGateway.OAuth
