import McpGateway.Gateway.Effects

/-! # Exactly what a call leaves pending

When the inserts themselves succeed, the state of a call is determined by a few facts: which audit
entries wait in its transaction, which were lost with the transaction of the budget, and whether
the transaction is aborted. `Pending` states them, and there is one lemma for each operation. -/

namespace McpGateway.Gateway

open Foundation Foundation.Act

/-- In a call of `auth` over the tables `db`: `es` wait to be committed with the call, `lost` were
logged in a transaction that rolled back. -/
structure Pending (auth : Authentication) (db : Database) (es lost : List AuditEntry)
    (aborted : Bool) (s : GatewaySession) : Prop where
  store : s.store = db
  issued : auditsOf s.issued = es ++ lost
  tx : s.tx = some ⟨rlsSettings auth, es.map Write.audit, aborted, false, false⟩

section Operations

variable {p : Platform} {env : Env} {auth : Authentication} {db : Database}
  {es lost : List AuditEntry} {aborted : Bool} {s : GatewaySession} {α : Type}

theorem pending_inContext (auth : Authentication) (g : GatewayState) :
    Pending auth g.db [] [] false (inContext auth g.session) :=
  ⟨rfl, rfl, rfl⟩

theorem Pending.log_ok (h : Pending auth db es [] aborted s) {entry : AuditEntry}
    (haudit : env.auditFails entry = false) :
    ∃ s', log env entry s = (.ok (), s') ∧ Pending auth db (es ++ [entry]) [] aborted s' := by
  refine ⟨s.write rules (.audit entry), ?_, ?_⟩
  · unfold log
    rw [haudit]
    rfl
  · have hstep : s.write rules (.audit entry) = { s with
        tx := some ⟨rlsSettings auth, es.map Write.audit ++ [.audit entry], aborted, false, false⟩
        issued := s.issued ++ [.audit entry] } := by
      simp [Session.write, h.tx]
    rw [hstep]
    refine ⟨h.store, ?_, by simp⟩
    simp [h.issued]

/-- What a statement answers in the call. -/
theorem Pending.statementAnswer_eq (h : Pending auth db es lost aborted s) (fails : Bool)
    (run : Database → Settings → Option α) :
    statementAnswer fails run s = if aborted || fails then none else run db (rlsSettings auth) := by
  simp [statementAnswer, Session.isAborted, Session.settings, h.tx, h.store]

theorem Pending.abort (h : Pending auth db es lost aborted s) :
    Pending auth db es lost true (s.onTx fun t => { t with aborted := true }) :=
  ⟨h.store, h.issued, by simp [Session.onTx, h.tx]⟩

theorem Pending.statement_ok (h : Pending auth db es lost aborted s) (fails : Bool)
    (run : Database → Settings → Option α) {a : α}
    (ha : (if aborted || fails then none else run db (rlsSettings auth)) = some a) :
    statement fails run s = (.ok a, s) := by
  apply statement_some
  rw [h.statementAnswer_eq]
  exact ha

theorem Pending.statement_error (h : Pending auth db es lost aborted s) (fails : Bool)
    (run : Database → Settings → Option α)
    (hnone : (if aborted || fails then none else run db (rlsSettings auth)) = none) :
    ∃ s', statement fails run s = (.error .dataAccess, s') ∧ Pending auth db es lost true s' := by
  refine ⟨_, statement_none ?_, h.abort⟩
  rw [h.statementAnswer_eq]
  exact hnone

/-! ## The guard -/

variable (haudit : ∀ entry, env.auditFails entry = false)

include haudit

theorem Pending.auditReject_ok (h : Pending auth db es [] aborted s) (pattern : String)
    (metric : Option Int) :
    ∃ s', auditReject env auth pattern metric s = (.ok (), s') ∧
      Pending auth db (es ++ [rejectEntry auth pattern metric]) [] aborted s' := by
  obtain ⟨s', hlog, h'⟩ := h.log_ok (haudit (rejectEntry auth pattern metric))
  exact ⟨s', tryCatch_ok hlog, h'⟩

theorem Pending.auditFlag_ok (h : Pending auth db es [] aborted s) (pattern : String) :
    ∃ s', auditFlag env auth pattern s = (.ok (), s') ∧
      Pending auth db (es ++ [flagEntry auth pattern]) [] aborted s' := by
  obtain ⟨s', hlog, h'⟩ := h.log_ok (haudit (flagEntry auth pattern))
  exact ⟨s', tryCatch_ok hlog, h'⟩

/-- A rejected query leaves one entry. -/
theorem Pending.validate_rejects (h : Pending auth db [] [] false s) {raw : JString}
    {reason : String} (hreject : rejection p raw = some reason) :
    ∃ s' entry, validate p env auth (some raw) s = (.error (.toolInputRejected reason), s') ∧
      Pending auth db [entry] [] false s' := by
  obtain ⟨pattern, metric, hvalidate⟩ := validate_rejected env auth hreject
  obtain ⟨s', hrun, h'⟩ := h.auditReject_ok haudit pattern metric
  exact ⟨s', _, by rw [hvalidate, bind_ok hrun]; rfl, h'⟩

/-- An accepted query leaves an entry when tags were stripped or a phrase was flagged. -/
theorem Pending.validate_accepts (h : Pending auth db [] [] false s) {raw : JString}
    (haccept : rejection p raw = none) :
    ∃ s' es, validate p env auth (some raw) s
        = (.ok ⟨true, sanitize raw, (instructionOverride p).find (sanitize raw), none⟩, s') ∧
      Pending auth db es [] false s' ∧ (es = [] ↔ isAudited p raw = false) := by
  rw [validate_accepted env auth haccept]
  unfold isAudited
  have hstrip : ∃ s' es, Act.when (unicodeTags.find raw)
      (auditReject env auth "unicode_tags_stripped" none) s = (.ok (), s') ∧
      Pending auth db es [] false s' ∧ (es = [] ↔ unicodeTags.find raw = false) := by
    cases htags : unicodeTags.find raw with
    | false => exact ⟨s, [], rfl, h, by simp⟩
    | true =>
        obtain ⟨s', hrun, h'⟩ := h.auditReject_ok haudit "unicode_tags_stripped" none
        exact ⟨s', _, hrun, h', by simp⟩
  obtain ⟨s₁, es₁, hrun₁, h₁, hes₁⟩ := hstrip
  rw [bind_ok hrun₁]
  cases hflag : (instructionOverride p).find (sanitize raw) with
  | false => exact ⟨s₁, es₁, rfl, h₁, by simpa using hes₁⟩
  | true =>
      obtain ⟨s₂, hrun₂, h₂⟩ := h₁.auditFlag_ok haudit "instruction_override"
      have hwhen : Act.when true (auditFlag env auth "instruction_override") s₁ = (.ok (), s₂) :=
        hrun₂
      refine ⟨s₂, _, ?_, h₂, by simp⟩
      rw [bind_ok hwhen]
      rfl

omit haudit

/-! ## Reading -/

variable {key : ApiKey}

/-- The settings of a key raise no error in the policies. -/
theorem visibleRows_key (rlsEnforced : Bool) (db : Database) (key : ApiKey) :
    ∃ rows, visibleRows rlsEnforced db (settingsOf key) = some rows := by
  cases rlsEnforced with
  | true => exact ⟨_, visibleRows_settingsOf db key⟩
  | false => exact ⟨_, rfl⟩

/-- Fetching a chunk always gives a text; a failure leaves the transaction aborted. -/
theorem Pending.fetchChunk_ok (h : Pending (.apiKey key) db es lost aborted s) (p : Platform)
    (env : Env) (chunkId : Uuid) :
    ∃ text s', fetchChunk p env chunkId s = (.ok text, s') ∧
      Pending (.apiKey key) db es lost (aborted || env.fetchFails chunkId) s' := by
  obtain ⟨rows, hrows⟩ := visibleRows_key p.rlsEnforced db key
  unfold fetchChunk
  cases hfails : (aborted || env.fetchFails chunkId) with
  | true =>
      obtain ⟨s', hrun, h'⟩ := h.statement_error (env.fetchFails chunkId)
        (fun db s => (visibleRows p.rlsEnforced db s).map (·.find? fun row => row.id = chunkId))
        (by rw [hfails, if_pos rfl])
      exact ⟨[], s', tryCatch_error (bind_error hrun), h'⟩
  | false =>
      have hfound : (if (aborted || env.fetchFails chunkId) = true then none
          else (visibleRows p.rlsEnforced db (rlsSettings (.apiKey key))).map
            (·.find? fun row => row.id = chunkId)) = some (rows.find? fun row => row.id = chunkId) := by
        rw [hfails, if_neg Bool.false_ne_true]
        exact congrArg (Option.map _) hrows
      have hrun := h.statement_ok (env.fetchFails chunkId)
        (fun db s => (visibleRows p.rlsEnforced db s).map (·.find? fun row => row.id = chunkId))
        hfound
      have hsame : Pending (.apiKey key) db es lost false s := by
        have haborted : aborted = false := by
          cases aborted
          · rfl
          · cases hfails
        rw [← haborted]
        exact h
      rw [tryCatch_apply, bind_ok hrun]
      cases rows.find? fun row => row.id = chunkId with
      | none => exact ⟨[], s, rfl, hsame⟩
      | some row =>
          dsimp only
          cases chunkText p row with
          | ok text => exact ⟨text, s, rfl, hsame⟩
          | error e => exact ⟨[], s, rfl, hsame⟩

theorem Pending.fetchFragments_ok (h : Pending (.apiKey key) db es lost aborted s) (p : Platform)
    (env : Env) (rows : List DocumentChunk) :
    ∃ fragments s', fetchFragments p env rows s = (.ok fragments, s') ∧
      fragments.length = rows.length ∧
      Pending (.apiKey key) db es lost (aborted || rows.any fun row => env.fetchFails row.id) s' := by
  induction rows generalizing aborted s with
  | nil => exact ⟨[], s, rfl, rfl, by simpa using h⟩
  | cons row rows ih =>
      obtain ⟨text, s₁, hrun₁, h₁⟩ := h.fetchChunk_ok p env row.id
      obtain ⟨fragments, s₂, hrun₂, hlength, h₂⟩ := ih h₁
      refine ⟨fragmentOf row text :: fragments, s₂, ?_, ?_, ?_⟩
      · unfold fetchFragments
        rw [bind_ok hrun₁, bind_ok hrun₂]
        rfl
      · rw [List.length_cons, List.length_cons, hlength]
      · rw [List.any_cons, ← Bool.or_assoc]
        exact h₂

/-! ## Tools -/

/-- `query_database` refuses the table or a column. -/
def accessDenied (role : AccessRole) (name : JString) (filters : Option Filters) : Bool :=
  match allowedTables.find? fun t => jstr t.name = name with
  | none => true
  | some t => (conditions (buildColumnList t role) filters).isNone

/-- What the statement of `query_database` answers. -/
def queryAnswer (p : Platform) (env : Env) (key : ApiKey) (name : JString)
    (filters : Option Filters) (maxRows : Option Int) (db : Database) : Option (List SqlRow) := do
  let t ← allowedTables.find? fun t => jstr t.name = name
  let conds ← conditions (buildColumnList t key.role) filters
  if env.selectFails then none
  else selectRows p t (buildColumnList t key.role) conds (rowLimit maxRows) db (settingsOf key)

/-- With table and columns allowed, `query` is its statement. -/
theorem query_allowed {role : AccessRole} {name : JString} {filters : Option Filters} {t : Table}
    {conds : List (Column × Option JString)}
    (hfind : (allowedTables.find? fun t => jstr t.name = name) = some t)
    (hconds : conditions (buildColumnList t role) filters = some conds) (maxRows : Nat) :
    query p env (some name) filters role maxRows
      = statement env.selectFails (selectRows p t (buildColumnList t role) conds maxRows) := by
  simp only [query, hfind, hconds]

theorem query_denied {role : AccessRole} {name : JString} {filters : Option Filters}
    (h : accessDenied role name filters = true) (maxRows : Nat) (s : GatewaySession) :
    query p env (some name) filters role maxRows s = (.error (.security "Access denied"), s) := by
  unfold accessDenied at h
  cases hfind : allowedTables.find? fun t => jstr t.name = name with
  | none => simp [query, hfind]
  | some t =>
      rw [hfind] at h
      simp [query, hfind, Option.isNone_iff_eq_none.mp h]

/-- Where access is not denied, the statement is sent. -/
theorem accessDenied_eq_false {role : AccessRole} {name : JString} {filters : Option Filters}
    (h : accessDenied role name filters = false) :
    ∃ t conds, (allowedTables.find? fun t => jstr t.name = name) = some t ∧
      conditions (buildColumnList t role) filters = some conds := by
  unfold accessDenied at h
  cases hfind : allowedTables.find? fun t => jstr t.name = name with
  | none => simp [hfind] at h
  | some t =>
      rw [hfind] at h
      cases hconds : conditions (buildColumnList t role) filters with
      | none => simp [hconds] at h
      | some conds => exact ⟨t, conds, rfl, hconds⟩

theorem queryAnswer_allowed {name : JString} {filters : Option Filters} {t : Table}
    {conds : List (Column × Option JString)}
    (hfind : (allowedTables.find? fun t => jstr t.name = name) = some t)
    (hconds : conditions (buildColumnList t key.role) filters = some conds)
    (maxRows : Option Int) :
    queryAnswer p env key name filters maxRows db = if env.selectFails then none
      else selectRows p t (buildColumnList t key.role) conds (rowLimit maxRows) db
        (settingsOf key) := by
  simp only [queryAnswer, hfind, hconds, Option.bind_eq_bind, Option.bind_some]

theorem Pending.query_error (h : Pending (.apiKey key) db es lost false s) {name : JString}
    {filters : Option Filters} {maxRows : Option Int}
    (hallowed : accessDenied key.role name filters = false)
    (hnone : queryAnswer p env key name filters maxRows db = none) :
    ∃ s', query p env (some name) filters key.role (rowLimit maxRows) s
      = (.error .dataAccess, s') ∧ Pending (.apiKey key) db es lost true s' := by
  obtain ⟨t, conds, hfind, hconds⟩ := accessDenied_eq_false hallowed
  rw [queryAnswer_allowed hfind hconds] at hnone
  rw [query_allowed hfind hconds]
  exact h.statement_error env.selectFails _ hnone

theorem Pending.query_ok (h : Pending (.apiKey key) db es lost false s) {name : JString}
    {filters : Option Filters} {maxRows : Option Int} {rows : List SqlRow}
    (hallowed : accessDenied key.role name filters = false)
    (hsome : queryAnswer p env key name filters maxRows db = some rows) :
    query p env (some name) filters key.role (rowLimit maxRows) s = (.ok rows, s) := by
  obtain ⟨t, conds, hfind, hconds⟩ := accessDenied_eq_false hallowed
  rw [queryAnswer_allowed hfind hconds] at hsome
  rw [query_allowed hfind hconds]
  exact h.statement_ok env.selectFails _ hsome

/-- `query_database` with an answer: its entry waits. -/
theorem Pending.queryDatabase_ok (h : Pending (.apiKey key) db [] [] false s)
    (haudit : ∀ entry, env.auditFails entry = false) {name : JString} {filters : Option Filters}
    {maxRows : Option Int} {rows : List SqlRow}
    (hallowed : accessDenied key.role name filters = false)
    (hsome : queryAnswer p env key name filters maxRows db = some rows) :
    ∃ s' entry, queryDatabase p env (.apiKey key) (some name) filters maxRows s
        = (.ok (.rows rows), s') ∧ Pending (.apiKey key) db [entry] [] false s' := by
  obtain ⟨s', hlog, h'⟩ := h.log_ok (haudit ⟨"query_database", some key.id, queryParams name filters,
    jstr "returned " ++ jstr rows.length.repr ++ jstr " rows from " ++ name⟩)
  refine ⟨s', _, ?_, h'⟩
  unfold queryDatabase currentApiKey
  rw [bind_ok (show (pure key : GatewayM ApiKey) s = (.ok key, s) from rfl),
    bind_ok (tryCatch_ok (h.query_ok hallowed hsome))]
  exact bind_ok hlog

/-- A denied one: its entry waits in a transaction that the exception rolls back. -/
theorem Pending.queryDatabase_denied (h : Pending (.apiKey key) db [] [] false s)
    (haudit : ∀ entry, env.auditFails entry = false) {name : JString} {filters : Option Filters}
    (hdenied : accessDenied key.role name filters = true) (maxRows : Option Int) :
    ∃ s' entry, queryDatabase p env (.apiKey key) (some name) filters maxRows s
        = (.error (.security "Access denied"), s') ∧
      Pending (.apiKey key) db [entry] [] false s' := by
  obtain ⟨s', hlog, h'⟩ := h.log_ok (haudit ⟨"authz_denial", some key.id, queryParams name filters,
    jstr "DENIED: " ++ name⟩)
  refine ⟨s', _, ?_, h'⟩
  unfold queryDatabase currentApiKey
  rw [bind_ok (show (pure key : GatewayM ApiKey) s = (.ok key, s) from rfl)]
  apply bind_error
  rw [tryCatch_error (query_denied hdenied _ s)]
  exact bind_ok hlog

end Operations

end McpGateway.Gateway
