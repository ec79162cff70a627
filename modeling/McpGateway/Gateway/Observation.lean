import McpGateway.Gateway.Effects

/-! # What an invocation observes

Two databases are `Indistinct` to a key when every statement a tool runs for it answers the same on
both. Then every computation of a tool keeps two runs in step, and `answer_eq` says so for whole
invocations. The two claims about who sees what instantiate it: once with the row-level policies
enforced and once without. -/

namespace McpGateway.Gateway

open Foundation

/-- Databases related by `D` answer alike to the statements of `key`; the searches only find rows
that are `seen`, and those can be fetched alike. -/
structure Indistinct (p : Platform) (key : ApiKey) (seen : DocumentChunk → Prop)
    (D : Database → Database → Prop) : Prop where
  apply : ∀ d₁ d₂ w, D d₁ d₂ → D (applyWrite d₁ w) (applyWrite d₂ w)
  rate : ∀ d₁ d₂ window count, D d₁ d₂ →
    upsertTotal d₁ key.id window count = upsertTotal d₂ key.id window count
  byText : ∀ d₁ d₂ q limit, D d₁ d₂ →
    selectByText p q (allowedClassifications key.role) limit d₁ (settingsOf key)
        = selectByText p q (allowedClassifications key.role) limit d₂ (settingsOf key) ∧
      ∀ rows, selectByText p q (allowedClassifications key.role) limit d₁ (settingsOf key)
        = some rows → ∀ row ∈ rows, seen row
  byVector : ∀ d₁ d₂ v limit, D d₁ d₂ →
    selectByVector p v (allowedClassifications key.role) limit d₁ (settingsOf key)
        = selectByVector p v (allowedClassifications key.role) limit d₂ (settingsOf key) ∧
      ∀ rows, selectByVector p v (allowedClassifications key.role) limit d₁ (settingsOf key)
        = some rows → ∀ row ∈ rows, seen row
  fetch : ∀ d₁ d₂ row, D d₁ d₂ → seen row →
    (visibleRows p.rlsEnforced d₁ (settingsOf key)).map (·.find? fun r => r.id = row.id)
      = (visibleRows p.rlsEnforced d₂ (settingsOf key)).map (·.find? fun r => r.id = row.id)

section Statements

variable {D : Database → Database → Prop} {σ : Settings} {env : Env} {α : Type}

theorem rel_statement {fails : Bool} {run : Database → Settings → Option α} {V : α → Prop}
    (h : ∀ d₁ d₂, D d₁ d₂ → run d₁ σ = run d₂ σ ∧ ∀ a, run d₁ σ = some a → V a) :
    Act.Rel (Session.Alike D σ) (statement fails run) V := by
  unfold statement
  apply Act.Rel.bind (V := fun ans => ∀ a, ans = some a → V a)
  · apply Act.Rel.gets
    intro s₁ s₂ hs
    obtain ⟨t, h₁, h₂, rfl⟩ := hs.tx
    obtain ⟨heq, hV⟩ := h s₁.store s₂.store hs.store
    simp only [statementAnswer, Session.isAborted, Session.settings, h₁, h₂, Option.map_some, Option.getD_some]
    rw [heq]
    refine ⟨rfl, ?_⟩
    intro a ha
    by_cases hf : (t.aborted || fails) = true
    · rw [if_pos hf] at ha
      cases ha
    · rw [if_neg hf, ← heq] at ha
      exact hV a ha
  · intro ans hans
    cases ans with
    | some a => exact Act.Rel.pure (hans a rfl)
    | none =>
        dsimp only
        unfold abort
        apply Act.Rel.bind
        · exact Session.rel_onTx fun _ => rfl
        · intro _ _
          exact Act.Rel.throw

theorem rel_log (entry : AuditEntry) :
    Act.Rel (Session.Alike D σ) (log env entry) fun _ => True := by
  unfold log
  apply Act.Rel.ite
  · intro _
    apply Act.Rel.bind (Session.rel_failWrite _)
    intro _ _
    exact Act.Rel.throw
  · intro _
    exact Session.rel_write _

/-! ## The guard -/

variable {p : Platform} {auth : Authentication}

theorem rel_auditReject (pattern : String) (metric : Option Int) :
    Act.Rel (Session.Alike D σ) (auditReject env auth pattern metric) fun _ => True :=
  Act.Rel.tryCatch (rel_log _) fun _ => Act.Rel.pure trivial

theorem rel_auditFlag (pattern : String) :
    Act.Rel (Session.Alike D σ) (auditFlag env auth pattern) fun _ => True :=
  Act.Rel.tryCatch (rel_log _) fun _ => Act.Rel.pure trivial

theorem rel_validate (rawQuery : Option JString) :
    Act.Rel (Session.Alike D σ) (validate p env auth rawQuery) fun _ => True := by
  unfold validate
  cases rawQuery with
  | none => exact Act.Rel.throw
  | some raw =>
      dsimp only
      apply Act.Rel.ite
      · intro _
        apply Act.Rel.bind (rel_auditReject _ _)
        intro _ _
        exact Act.Rel.throw
      · intro _
        cases (rejectTiers p).find? fun tier => tier.1.find raw with
        | some tier =>
            apply Act.Rel.bind (rel_auditReject _ _)
            intro _ _
            exact Act.Rel.throw
        | none =>
            dsimp only
            apply Act.Rel.bind (Act.Rel.when (rel_auditReject _ _))
            intro _ _
            apply Act.Rel.bind (Act.Rel.when (rel_auditFlag _))
            intro _ _
            exact Act.Rel.pure trivial

theorem rel_guardQuery (q : JString) :
    Act.Rel (Session.Alike D σ) (guardQuery p env auth q) fun _ => True := by
  apply Act.Rel.tryCatch
  · apply Act.Rel.bind (rel_validate _)
    intro _ _
    exact Act.Rel.pure trivial
  · intro e
    cases e
    case toolInputRejected reason => exact Act.Rel.pure trivial
    all_goals exact Act.Rel.throw

end Statements

/-! ## The tools -/

section Tools

variable {p : Platform} {env : Env} {key : ApiKey} {seen : DocumentChunk → Prop}
  {D : Database → Database → Prop}

theorem rel_fetchChunk (hD : Indistinct p key seen D) {row : DocumentChunk} (hrow : seen row) :
    Act.Rel (Session.Alike D (settingsOf key)) (fetchChunk p env row.id) fun _ => True := by
  unfold fetchChunk
  apply Act.Rel.tryCatch
  · apply Act.Rel.bind (V := fun _ => True)
    · apply rel_statement
      intro d₁ d₂ hd
      exact ⟨hD.fetch d₁ d₂ row hd hrow, fun _ _ => trivial⟩
    · intro found _
      cases found with
      | none => exact Act.Rel.throw
      | some row =>
          dsimp only
          cases chunkText p row with
          | ok text => exact Act.Rel.pure trivial
          | error e => exact Act.Rel.throw
  · intro _
    exact Act.Rel.pure trivial

theorem rel_fetchFragments (hD : Indistinct p key seen D) {rows : List DocumentChunk}
    (hrows : ∀ row ∈ rows, seen row) :
    Act.Rel (Session.Alike D (settingsOf key)) (fetchFragments p env rows) fun _ => True := by
  induction rows with
  | nil => exact Act.Rel.pure trivial
  | cons row rows ih =>
      unfold fetchFragments
      apply Act.Rel.bind (rel_fetchChunk hD (hrows row List.mem_cons_self))
      intro _ _
      apply Act.Rel.bind (ih fun r hr => hrows r (List.mem_cons_of_mem _ hr))
      intro _ _
      exact Act.Rel.pure trivial

/-- The budget only reads `rate_limit_state`. -/
theorem rel_commitChunks_of (happly : ∀ d₁ d₂ w, D d₁ d₂ → D (applyWrite d₁ w) (applyWrite d₂ w))
    {apiKeyId : Uuid} (hrate : ∀ d₁ d₂ window count, D d₁ d₂ →
      upsertTotal d₁ apiKeyId window count = upsertTotal d₂ apiKeyId window count)
    (chunkCount : Int) {σ : Settings} :
    Act.Rel (Session.Alike D σ) (commitChunks p env (some apiKeyId) chunkCount) fun _ => True := by
  unfold commitChunks
  apply Session.rel_requiresNew (V := fun _ => True) happly
  unfold recordChunks upsert
  apply Act.Rel.bind (V := fun _ => True)
  · apply Act.Rel.bind (V := fun _ => True)
    · apply rel_statement
      intro d₁ d₂ hd
      exact ⟨hrate d₁ d₂ _ _ hd, fun _ _ => trivial⟩
    · intro _ _
      apply Act.Rel.bind (Session.rel_write _)
      intro _ _
      exact Act.Rel.pure trivial
  · intro newTotal _
    apply Act.Rel.ite
    · intro _
      apply Act.Rel.bind (rel_log _)
      intro _ _
      exact Act.Rel.throw
    · intro _
      exact Act.Rel.pure trivial

theorem rel_spendBudget_of (happly : ∀ d₁ d₂ w, D d₁ d₂ → D (applyWrite d₁ w) (applyWrite d₂ w))
    {apiKeyId : Uuid} (hrate : ∀ d₁ d₂ window count, D d₁ d₂ →
      upsertTotal d₁ apiKeyId window count = upsertTotal d₂ apiKeyId window count)
    (count : Nat) {σ : Settings} :
    Act.Rel (Session.Alike D σ) (spendBudget p env apiKeyId count) fun _ => True := by
  apply Act.Rel.tryCatch
  · apply Act.Rel.bind (rel_commitChunks_of happly hrate _)
    intro _ _
    exact Act.Rel.pure trivial
  · intro e
    cases e
    case budgetExceeded retryAfterSeconds => exact Act.Rel.pure trivial
    all_goals exact Act.Rel.throw

theorem rel_spendBudget (hD : Indistinct p key seen D) (count : Nat) {σ : Settings} :
    Act.Rel (Session.Alike D σ) (spendBudget p env key.id count) fun _ => True :=
  rel_spendBudget_of hD.apply hD.rate count

theorem rel_answerWith (hD : Indistinct p key seen D) (toolName : String) (q : JString)
    (limit : Int) (flagged : Bool) {rows : List DocumentChunk} (hrows : ∀ row ∈ rows, seen row) :
    Act.Rel (Session.Alike D (settingsOf key))
      (answerWith p env toolName key q limit flagged rows) fun _ => True := by
  unfold answerWith
  apply Act.Rel.bind (rel_fetchFragments hD hrows)
  intro fragments _
  apply Act.Rel.bind (rel_spendBudget hD _)
  intro exceeded _
  cases exceeded with
  | some retryAfterSeconds => exact Act.Rel.pure trivial
  | none =>
      apply Act.Rel.bind (rel_log _)
      intro _ _
      exact Act.Rel.pure trivial

/-- A search stays in step when it does from the sanitized query on. -/
theorem rel_searchTool_of {auth : Authentication} {σ : Settings} {toolName : String}
    {retrieve : Retrieval} {maxResults : Option Int}
    (haccepted : ∀ q result, Act.Rel (Session.Alike D σ)
      (searchAccepted p env auth toolName retrieve q maxResults result) fun _ => True)
    (q : Option JString) :
    Act.Rel (Session.Alike D σ) (searchTool p env auth toolName retrieve q maxResults)
      fun _ => True := by
  unfold searchTool
  cases acceptedQuery q with
  | none => exact Act.Rel.throw
  | some q =>
      dsimp only
      apply Act.Rel.bind (rel_guardQuery q)
      intro guardResult _
      cases guardResult with
      | error reason => exact Act.Rel.pure trivial
      | ok result => exact haccepted q result

/-- A search stays in step when its retrieval does and only finds `seen` rows. -/
theorem rel_searchTool (hD : Indistinct p key seen D) (toolName : String) {retrieve : Retrieval}
    (hretrieve : ∀ q limit, Act.Rel (Session.Alike D (settingsOf key))
      (retrieve key.role q limit) fun rows => ∀ row ∈ rows, seen row)
    (q : Option JString) (maxResults : Option Int) :
    Act.Rel (Session.Alike D (settingsOf key))
      (searchTool p env (.apiKey key) toolName retrieve q maxResults) fun _ => True := by
  apply rel_searchTool_of
  intro q result
  unfold searchAccepted currentApiKey
  apply Act.Rel.bind (V := fun k => k = key) (Act.Rel.pure rfl)
  rintro _ rfl
  apply Act.Rel.bind (hretrieve _ _)
  intro rows hrows
  exact rel_answerWith hD toolName q _ _ hrows

theorem rel_searchDocuments (hD : Indistinct p key seen D) (q : Option JString)
    (maxResults : Option Int) :
    Act.Rel (Session.Alike D (settingsOf key))
      (searchDocuments p env (.apiKey key) q maxResults) fun _ => True := by
  apply rel_searchTool hD
  intro q limit
  apply rel_statement
  intro d₁ d₂ hd
  exact hD.byText d₁ d₂ q limit hd

theorem rel_semanticSearchDocuments (hD : Indistinct p key seen D) (q : Option JString)
    (maxResults : Option Int) :
    Act.Rel (Session.Alike D (settingsOf key))
      (semanticSearchDocuments p env (.apiKey key) q maxResults) fun _ => True := by
  apply rel_searchTool hD
  intro q limit
  apply Act.Rel.bind (V := fun _ => True)
  · unfold embed
    apply Act.Rel.ite
    · intro _
      exact Act.Rel.throw
    · intro _
      cases p.embed q with
      | some v => exact Act.Rel.pure trivial
      | none => exact Act.Rel.throw
  · intro v _
    apply rel_statement
    intro d₁ d₂ hd
    exact hD.byVector d₁ d₂ v limit hd

/-- A structured query stays in step when the statements it may send do. -/
theorem rel_query {table : Option JString} {filters : Option Filters} {maxRows : Nat}
    (hselect : ∀ name t conds, table = some name →
      (allowedTables.find? fun t => jstr t.name = name) = some t →
      conditions (buildColumnList t key.role) filters = some conds →
      ∀ d₁ d₂, D d₁ d₂ →
        selectRows p t (buildColumnList t key.role) conds maxRows d₁ (settingsOf key)
          = selectRows p t (buildColumnList t key.role) conds maxRows d₂ (settingsOf key)) :
    Act.Rel (Session.Alike D (settingsOf key)) (query p env table filters key.role maxRows)
      fun _ => True := by
  unfold query
  cases htable : table with
  | none => exact Act.Rel.throw
  | some name =>
      dsimp only
      cases hfind : allowedTables.find? fun t => jstr t.name = name with
      | none => exact Act.Rel.throw
      | some t =>
          dsimp only
          cases hconds : conditions (buildColumnList t key.role) filters with
          | none => exact Act.Rel.throw
          | some conds =>
              apply rel_statement
              intro d₁ d₂ hd
              exact ⟨hselect name t conds htable hfind hconds d₁ d₂ hd, fun _ _ => trivial⟩

/-- The structured query stays in step when its own statement does. -/
theorem rel_queryDatabase {table : Option JString} {filters : Option Filters}
    {maxRows : Option Int}
    (hquery : Act.Rel (Session.Alike D (settingsOf key))
      (query p env table filters key.role (rowLimit maxRows)) fun _ => True) :
    Act.Rel (Session.Alike D (settingsOf key))
      (queryDatabase p env (.apiKey key) table filters maxRows) fun _ => True := by
  unfold queryDatabase currentApiKey
  apply Act.Rel.bind (V := fun k => k = key) (Act.Rel.pure rfl)
  rintro _ rfl
  apply Act.Rel.bind (V := fun _ => True)
  · apply Act.Rel.tryCatch hquery
    intro e
    cases e
    case security message =>
      apply Act.Rel.bind (rel_log _)
      intro _ _
      exact Act.Rel.throw
    all_goals exact Act.Rel.throw
  · intro results _
    apply Act.Rel.bind (rel_log _)
    intro _ _
    exact Act.Rel.pure trivial

theorem rel_listSources :
    Act.Rel (Session.Alike D (settingsOf key)) (listSources env (.apiKey key)) fun _ => True := by
  unfold listSources currentApiKey
  apply Act.Rel.bind (V := fun k => k = key) (Act.Rel.pure rfl)
  rintro _ rfl
  apply Act.Rel.bind (rel_log _)
  intro _ _
  exact Act.Rel.pure trivial

end Tools

/-! ## Whole invocations -/

/-- **What a tool cannot tell apart, its caller cannot.** -/
theorem answer_eq {p : Platform} {inv : Invocation} {D : Database → Database → Prop}
    (happly : ∀ d₁ d₂ w, D d₁ d₂ → D (applyWrite d₁ w) (applyWrite d₂ w))
    (hbody : allowlistRejects inv.auth inv.call.toolName = none →
      Act.Rel (Session.Alike D (rlsSettings inv.auth)) (toolBody p inv.env inv.auth inv.call)
        fun _ => True)
    {g₁ g₂ : GatewayState} (hdb : D g₁.db g₂.db) : answer p inv g₁ = answer p inv g₂ := by
  unfold answer
  cases hallow : allowlistRejects inv.auth inv.call.toolName with
  | some key =>
      obtain ⟨e, he⟩ := invoke_rejected (p := p) hallow
      rw [he, he]
  | none =>
      cases hstart : startError inv.env with
      | some e => rw [invoke_unreached hallow hstart, invoke_unreached hallow hstart]
      | none =>
          obtain ⟨out₁, s₁, hrun₁, -, -, hinv₁⟩ := invoke_reached p inv hallow hstart g₁
          obtain ⟨out₂, s₂, hrun₂, -, -, hinv₂⟩ := invoke_reached p inv hallow hstart g₂
          have halike : Session.Alike D (rlsSettings inv.auth) (inContext inv.auth g₁.session)
              (inContext inv.auth g₂.session) := ⟨hdb, rfl, _, rfl, rfl, rfl⟩
          obtain ⟨hout, hrel, -⟩ := hbody hallow _ _ halike
          rw [hrun₁, hrun₂] at hout hrel
          have hrules : ∀ d₁ d₂ w, D d₁ d₂ → D (rules.apply d₁ w) (rules.apply d₂ w) := happly
          obtain ⟨hres, -, -⟩ := Session.finish_alike hrules inv.env.outer.fate out₁ hrel
          rw [hinv₁, hinv₂, hres]
          exact congrArg (fun out => (Session.finish rules inv.env.outer.fate out s₂).1) hout

end McpGateway.Gateway
