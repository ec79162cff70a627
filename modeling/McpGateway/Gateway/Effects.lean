import McpGateway.Gateway.Aspects

/-! # What a call leaves behind

While a tool runs, the committed tables change only by the caller's count in `rate_limit_state`:
everything else it writes waits in the transaction of the call (`InCall`). Each computation of a
tool keeps that, however it ends (`Keeps`), and a tool that answers with anything but a lone denial
fragment has its entry waiting in the transaction (`keeps_toolBody`). -/

namespace McpGateway.Gateway

open Foundation Foundation.Act

/-! ## During a call -/

/-- A session during a call of `caller` that began in the state `g`. -/
structure InCall (caller : Option Uuid) (g : GatewayState) (s : GatewaySession) : Prop where
  chunks : s.store.chunks = g.db.chunks
  employees : s.store.employees = g.db.employees
  grants : s.store.grants = g.db.grants
  auditLogs : s.store.auditLogs = g.db.auditLogs
  rateLimit : ∀ k window, some k ≠ caller →
    s.store.rateLimit k window = g.db.rateLimit k window
  conn : s.conn = g.conn
  tx : ∃ t, ∃ es : List AuditEntry,
    s.tx = some t ∧ t.localRollbackOnly = false ∧ t.work = es.map Write.audit

/-- A computation that leaves the session in the call, however it ends. -/
def Keeps {α : Type} (caller : Option Uuid) (g : GatewayState) (m : GatewayM α) : Prop :=
  Triple (InCall caller g) m (fun _ => InCall caller g) (fun _ => InCall caller g)

/-- The entry waits in the transaction. -/
def Waiting (entry : AuditEntry) (s : GatewaySession) : Prop :=
  ∃ t, s.tx = some t ∧ Write.audit entry ∈ t.work

section Operations

variable {caller : Option Uuid} {g : GatewayState} {env : Env} {α β : Type}

theorem Keeps.bind {m : GatewayM α} {f : α → GatewayM β} (hm : Keeps caller g m)
    (hf : ∀ a, Keeps caller g (f a)) : Keeps caller g (m >>= f) :=
  Triple.bind hm hf

theorem Keeps.tryCatch {m : GatewayM α} {h : Throwable → GatewayM α} (hm : Keeps caller g m)
    (hh : ∀ e, Keeps caller g (h e)) : Keeps caller g (tryCatch m h) :=
  Triple.tryCatch hm hh

theorem keeps_pure (a : α) : Keeps caller g (pure a : GatewayM α) :=
  Triple.pure fun _ hs => hs

theorem keeps_throw (e : Throwable) : Keeps caller g (throw e : GatewayM α) :=
  Triple.throw fun _ hs => hs

theorem keeps_statement (fails : Bool) (run : Database → Settings → Option α) :
    Keeps caller g (statement fails run) := by
  intro s hs
  cases hans : statementAnswer fails run s with
  | some a =>
      rw [statement_some hans]
      exact hs
  | none =>
      rw [statement_none hans]
      obtain ⟨t, es, ht, hlocal, hwork⟩ := hs.tx
      refine ⟨hs.chunks, hs.employees, hs.grants, hs.auditLogs, hs.rateLimit, hs.conn, ?_⟩
      refine ⟨{ t with aborted := true }, es, ?_, hlocal, hwork⟩
      simp [Session.onTx, ht]

/-- A logged entry waits in the transaction of the call. -/
theorem log_waiting (entry : AuditEntry) :
    Triple (InCall caller g) (log env entry)
      (fun _ s => InCall caller g s ∧ Waiting entry s) (fun _ => InCall caller g) := by
  intro s hs
  obtain ⟨t, es, ht, hlocal, hwork⟩ := hs.tx
  unfold log
  by_cases haudit : env.auditFails entry = true
  · rw [if_pos haudit]
    refine ⟨hs.chunks, hs.employees, hs.grants, hs.auditLogs, hs.rateLimit, hs.conn, ?_⟩
    refine ⟨{ t with rollbackOnly := true }, es, ?_, hlocal, hwork⟩
    simp [Session.failWrite, ht]
  · rw [if_neg haudit]
    have hstep : s.write rules (.audit entry) = { s with
        tx := some { t with work := t.work ++ [.audit entry] }
        issued := s.issued ++ [.audit entry] } := by
      simp [Session.write, ht]
    show InCall caller g (s.write rules (.audit entry)) ∧ Waiting entry (s.write rules (.audit entry))
    rw [hstep]
    constructor
    · refine ⟨hs.chunks, hs.employees, hs.grants, hs.auditLogs, hs.rateLimit, hs.conn, ?_⟩
      refine ⟨_, es ++ [entry], rfl, hlocal, ?_⟩
      simp [hwork]
    · exact ⟨_, rfl, by simp⟩

theorem keeps_log (entry : AuditEntry) : Keeps caller g (log env entry) := by
  apply Triple.mono (log_waiting entry)
  · exact fun _ hs => hs
  · exact fun _ _ hs => hs.1
  · exact fun _ _ hs => hs

/-! ## The guard -/

variable {p : Platform} {auth : Authentication}

theorem keeps_auditReject (pattern : String) (metric : Option Int) :
    Keeps caller g (auditReject env auth pattern metric) :=
  (keeps_log _).tryCatch fun _ => keeps_pure ()

theorem keeps_auditFlag (pattern : String) : Keeps caller g (auditFlag env auth pattern) :=
  (keeps_log _).tryCatch fun _ => keeps_pure ()

theorem keeps_when {c : Bool} {m : GatewayM Unit} (hm : Keeps caller g m) :
    Keeps caller g (Act.when c m) :=
  Triple.when (fun _ => hm) fun _ _ hs => hs

theorem keeps_validate (rawQuery : Option JString) :
    Keeps caller g (validate p env auth rawQuery) := by
  unfold validate
  cases rawQuery with
  | none => exact keeps_throw _
  | some raw =>
      apply Triple.ite
      · intro _
        exact (keeps_auditReject _ _).bind fun _ => keeps_throw _
      · intro _
        cases (rejectTiers p).find? fun tier => tier.1.find raw with
        | some tier => exact (keeps_auditReject _ _).bind fun _ => keeps_throw _
        | none =>
            apply (keeps_when (keeps_auditReject _ _)).bind
            intro _
            apply (keeps_when (keeps_auditFlag _)).bind
            intro _
            exact keeps_pure _

theorem keeps_guardQuery (q : JString) : Keeps caller g (guardQuery p env auth q) := by
  apply Keeps.tryCatch
  · exact (keeps_validate _).bind fun _ => keeps_pure _
  · intro e
    cases e
    case toolInputRejected reason => exact keeps_pure _
    all_goals exact keeps_throw _

/-! ## Reading and counting -/

theorem keeps_fetchChunk (chunkId : Uuid) : Keeps caller g (fetchChunk p env chunkId) := by
  unfold fetchChunk
  apply Keeps.tryCatch
  · apply (keeps_statement _ _).bind
    intro found
    cases found with
    | none => exact keeps_throw _
    | some row =>
        dsimp only
        cases chunkText p row with
        | ok text => exact keeps_pure _
        | error e => exact keeps_throw _
  · intro _
    exact keeps_pure _

theorem keeps_query {table : Option JString} {filters : Option Filters} {role : AccessRole}
    {maxRows : Nat} : Keeps caller g (query p env table filters role maxRows) := by
  unfold query
  cases table with
  | none => exact keeps_throw _
  | some name =>
      dsimp only
      cases allowedTables.find? fun t => jstr t.name = name with
      | none => exact keeps_throw _
      | some t =>
          dsimp only
          cases conditions (buildColumnList t role) filters with
          | none => exact keeps_throw _
          | some conds => exact keeps_statement _ _

theorem keeps_commitChunks (apiKeyId : Uuid) (chunkCount : Int) :
    Keeps (some apiKeyId) g (commitChunks p env (some apiKeyId) chunkCount) := by
  intro s hs
  rw [commitChunks_apply]
  by_cases hbegin : env.inner.beginFails = true
  · rw [if_pos hbegin]
    exact hs
  · rw [if_neg hbegin]
    cases budgetTotal env s.store apiKeyId chunkCount with
    | none => exact hs
    | some total =>
        dsimp only
        by_cases hcap : (total : Int) > p.hourlyCap
        · rw [if_pos hcap]
          exact ⟨hs.chunks, hs.employees, hs.grants, hs.auditLogs, hs.rateLimit, hs.conn, hs.tx⟩
        · rw [if_neg hcap]
          by_cases hcommit : env.inner.commitFails = true
          · rw [if_pos hcommit]
            exact ⟨hs.chunks, hs.employees, hs.grants, hs.auditLogs, hs.rateLimit, hs.conn, hs.tx⟩
          · rw [if_neg hcommit]
            refine ⟨hs.chunks, hs.employees, hs.grants, hs.auditLogs, ?_, hs.conn, hs.tx⟩
            intro k window hk
            have hother : k ≠ apiKeyId := by
              intro h
              exact hk (congrArg some h)
            show (if k = apiKeyId ∧ window = windowStart env.now then some total
              else s.store.rateLimit k window) = g.db.rateLimit k window
            rw [if_neg (fun h => hother h.1)]
            exact hs.rateLimit k window hk

theorem keeps_spendBudget (apiKeyId : Uuid) (count : Nat) :
    Keeps (some apiKeyId) g (spendBudget p env apiKeyId count) := by
  apply Keeps.tryCatch
  · exact (keeps_commitChunks apiKeyId _).bind fun _ => keeps_pure _
  · intro e
    cases e
    case budgetExceeded retryAfterSeconds => exact keeps_pure _
    all_goals exact keeps_throw _

end Operations

/-! ## The tools -/

/-- A summary that names what the caller got. -/
def Reports (result : ToolResult) (summary : JString) : Prop :=
  match result with
  | .sources role sources => summary = jstr "role=" ++ jstr role ++ jstr ", listed " ++
      jstr sources.length.repr ++ jstr " sources"
  | .rows rows => ∃ table,
      summary = jstr "returned " ++ jstr rows.length.repr ++ jstr " rows from " ++ table
  | .fragments fragments =>
      summary = jstr "returned " ++ jstr fragments.length.repr ++ jstr " fragments"

/-- A lone denial fragment. -/
def ToolResult.IsDenial (result : ToolResult) : Prop :=
  ∃ d, result = .fragments [d] ∧ d.sourceId = "denial"

/-- The answer is a denial, or its entry waits in the transaction. -/
def Accounted (auth : Authentication) (toolName : String) (result : ToolResult)
    (s : GatewaySession) : Prop :=
  result.IsDenial ∨ ∃ key entry, auth = .apiKey key ∧ Waiting entry s ∧
    entry.apiKeyId = some key.id ∧ entry.toolName = toolName ∧ Reports result entry.resultSummary

/-- What a tool body does: it keeps the session in the call, and accounts for its answer. -/
def Accounts (auth : Authentication) (g : GatewayState) (toolName : String)
    (m : GatewayM ToolResult) : Prop :=
  Triple (InCall (auth.key?.map ApiKey.id) g) m
    (fun r s => InCall (auth.key?.map ApiKey.id) g s ∧ Accounted auth toolName r s)
    (fun _ => InCall (auth.key?.map ApiKey.id) g)

section Tools

variable {g : GatewayState} {env : Env} {p : Platform} {auth : Authentication} {key : ApiKey}

/-- The end of a tool: log the entry and return what it reports. -/
theorem accounts_of_log {toolName : String} {entry : AuditEntry} {result : ToolResult}
    (hkey : entry.apiKeyId = some key.id) (hname : entry.toolName = toolName)
    (hreport : Reports result entry.resultSummary) :
    Accounts (.apiKey key) g toolName
      (do
        log env entry
        pure result) := by
  apply Triple.bind (log_waiting entry)
  intro _
  apply Triple.pure
  rintro s ⟨hs, hwaiting⟩
  exact ⟨hs, Or.inr ⟨key, entry, rfl, hwaiting, hkey, hname, hreport⟩⟩

/-- A step before the rest of a tool. -/
theorem Accounts.bind {α : Type} {toolName : String} {m : GatewayM α} {f : α → GatewayM ToolResult}
    (hm : Keeps (auth.key?.map ApiKey.id) g m) (hf : ∀ a, Accounts auth g toolName (f a)) :
    Accounts auth g toolName (m >>= f) :=
  Triple.bind hm hf

theorem accounts_throw {toolName : String} (e : Throwable) :
    Accounts auth g toolName (throw e) :=
  Triple.throw fun _ hs => hs

theorem accounts_denial {toolName : String} {d : DataFragment} (hd : d.sourceId = "denial") :
    Accounts auth g toolName (pure (.fragments [d])) :=
  Triple.pure fun _ hs => ⟨hs, Or.inl ⟨d, rfl, hd⟩⟩

/-- The tools need a key. -/
theorem accounts_currentApiKey {toolName : String} {f : ApiKey → GatewayM ToolResult}
    (hf : ∀ key, auth = .apiKey key → Accounts (.apiKey key) g toolName (f key)) :
    Accounts auth g toolName (do
      let apiKey ← currentApiKey auth
      f apiKey) := by
  cases auth with
  | apiKey key => exact hf key rfl
  | absent => exact accounts_throw .nullPointer
  | otherPrincipal => exact accounts_throw .classCast

theorem accounts_listSources : Accounts auth g "list_sources" (listSources env auth) := by
  apply accounts_currentApiKey
  intro key _
  exact accounts_of_log rfl rfl rfl

theorem accounts_queryDatabase (table : Option JString) (filters : Option Filters)
    (maxRows : Option Int) :
    Accounts auth g "query_database" (queryDatabase p env auth table filters maxRows) := by
  apply accounts_currentApiKey
  intro key _
  apply Accounts.bind
  · apply keeps_query.tryCatch
    intro e
    cases e
    case security message => exact (keeps_log _).bind fun _ => keeps_throw _
    all_goals exact keeps_throw _
  · intro results
    exact accounts_of_log rfl rfl ⟨table.getD [], rfl⟩

theorem keeps_fetchFragments {caller : Option Uuid} (rows : List DocumentChunk) :
    Keeps caller g (fetchFragments p env rows) := by
  induction rows with
  | nil => exact keeps_pure _
  | cons row rows ih =>
      unfold fetchFragments
      apply (keeps_fetchChunk row.id).bind
      intro _
      apply ih.bind
      intro _
      exact keeps_pure _

theorem accounts_answerWith (toolName : String) (q : JString) (limit : Int) (flagged : Bool)
    (rows : List DocumentChunk) :
    Accounts (.apiKey key) g toolName (answerWith p env toolName key q limit flagged rows) := by
  unfold answerWith
  apply Accounts.bind (keeps_fetchFragments rows)
  intro fragments
  apply Accounts.bind
  · exact keeps_spendBudget key.id _
  · intro exceeded
    cases exceeded with
    | some retryAfterSeconds => exact accounts_denial rfl
    | none => exact accounts_of_log rfl rfl rfl

theorem accounts_searchTool (toolName : String) {retrieve : Retrieval}
    (hretrieve : ∀ role q limit, Keeps (auth.key?.map ApiKey.id) g (retrieve role q limit))
    (q : Option JString) (maxResults : Option Int) :
    Accounts auth g toolName (searchTool p env auth toolName retrieve q maxResults) := by
  unfold searchTool
  cases acceptedQuery q with
  | none => exact accounts_throw _
  | some q =>
      apply Accounts.bind (keeps_guardQuery q)
      intro guardResult
      cases guardResult with
      | error reason => exact accounts_denial rfl
      | ok result =>
          apply accounts_currentApiKey
          rintro key rfl
          apply Accounts.bind (hretrieve _ _ _)
          intro rows
          exact accounts_answerWith toolName q _ _ rows

theorem keeps_embed {caller : Option Uuid} (text : JString) : Keeps caller g (embed p env text) := by
  unfold embed
  apply Triple.ite
  · intro _
    exact keeps_throw _
  · intro _
    cases p.embed text with
    | some v => exact keeps_pure _
    | none => exact keeps_throw _

/-- **Every tool accounts for its answer.** -/
theorem accounts_toolBody (p : Platform) (env : Env) (call : ToolCall) :
    Accounts auth g call.toolName (toolBody p env auth call) := by
  cases call with
  | listSources => exact accounts_listSources
  | queryDatabase table filters maxRows => exact accounts_queryDatabase table filters maxRows
  | searchDocuments q maxResults =>
      apply accounts_searchTool
      intro role q limit
      exact keeps_statement _ _
  | semanticSearchDocuments q maxResults =>
      apply accounts_searchTool
      intro role q limit
      apply (keeps_embed _).bind
      intro v
      exact keeps_statement _ _

end Tools

/-! ## Whole calls -/

/-- The key id of the caller. -/
def Invocation.caller (inv : Invocation) : Option Uuid := inv.auth.key?.map ApiKey.id

/-- The session an invocation begins with. -/
def GatewayState.session (g : GatewayState) : GatewaySession := ⟨g.db, g.conn, none, []⟩

/-- A tool the key may not call is not reached, and its denial is committed at once. -/
theorem invoke_rejected {p : Platform} {inv : Invocation} {key : ApiKey}
    (h : allowlistRejects inv.auth inv.call.toolName = some key) :
    ∃ e, ∀ g, invoke p inv g = (.error e,
      if inv.env.auditFails (deniedEntry key inv.call.toolName) then
        g.session.failWrite (.audit (deniedEntry key inv.call.toolName))
      else g.session.write rules (.audit (deniedEntry key inv.call.toolName))) := by
  unfold invoke callTool enforceAllowlist log
  rw [h]
  dsimp only
  split_ifs
  · exact ⟨.dataAccess, fun _ => rfl⟩
  · exact ⟨_, fun _ => rfl⟩

theorem invoke_unreached {p : Platform} {inv : Invocation} {e : Throwable}
    (hallow : allowlistRejects inv.auth inv.call.toolName = none)
    (hstart : startError inv.env = some e) (g : GatewayState) :
    invoke p inv g = (.error e, if inv.env.outer.beginFails then g.session
      else g.session.rollback inv.env.outer.fate) := by
  unfold invoke callTool enforceAllowlist
  rw [hallow]
  exact applyRlsRole_unreached hstart _

/-- **An invocation that reaches its tool** ends its transaction with what the tool left in it. -/
theorem invoke_reached (p : Platform) (inv : Invocation)
    (hallow : allowlistRejects inv.auth inv.call.toolName = none)
    (hstart : startError inv.env = none) (g : GatewayState) :
    ∃ out s, toolBody p inv.env inv.auth inv.call (inContext inv.auth g.session) = (out, s) ∧
      InCall inv.caller g s ∧
      (∀ r, out = .ok r → Accounted inv.auth inv.call.toolName r s) ∧
      invoke p inv g = Session.finish rules inv.env.outer.fate out s := by
  have hbegin : InCall inv.caller g (inContext inv.auth g.session) :=
    ⟨rfl, rfl, rfl, rfl, fun _ _ _ => rfl, rfl, _, [], rfl, rfl, rfl⟩
  have hbody := accounts_toolBody p inv.env inv.call _ hbegin
  obtain ⟨out, s, hrun⟩ : ∃ out s,
      toolBody p inv.env inv.auth inv.call (inContext inv.auth g.session) = (out, s) := ⟨_, _, rfl⟩
  rw [hrun] at hbody
  have hin : InCall inv.caller g s := by
    cases out with
    | ok r => exact hbody.1
    | error e => exact hbody
  refine ⟨out, s, hrun, hin, ?_, ?_⟩
  · rintro r rfl
    exact hbody.2
  · obtain ⟨t, -, ht, -⟩ := hin.tx
    unfold invoke callTool enforceAllowlist
    rw [hallow]
    exact applyRlsRole_apply hstart hrun (by rw [ht]; rfl)

/-- **An invocation that answers** has run its tool without a failed statement. -/
theorem answer_ran {p : Platform} {inv : Invocation} {g : GatewayState} {r : ToolResult}
    (h : answer p inv g = .ok r) :
    ∃ s, toolBody p inv.env inv.auth inv.call (inContext inv.auth g.session) = (.ok r, s) ∧
      s.isAborted = false := by
  unfold answer at h
  cases hallow : allowlistRejects inv.auth inv.call.toolName with
  | some key =>
      obtain ⟨e, he⟩ := invoke_rejected (p := p) hallow
      rw [he] at h
      cases h
  | none =>
      cases hstart : startError inv.env with
      | some e =>
          rw [invoke_unreached hallow hstart] at h
          cases h
      | none =>
          obtain ⟨out, s, hrun, hin, -, hinv⟩ := invoke_reached p inv hallow hstart g
          obtain ⟨t, -, ht, hlocal, -⟩ := hin.tx
          rw [hinv] at h
          obtain ⟨s', hs'⟩ : ∃ s', Session.finish rules inv.env.outer.fate out s = (.ok r, s') :=
            ⟨_, Prod.ext h rfl⟩
          obtain ⟨rfl, ⟨-, -, haborted, -⟩, -⟩ := Session.finish_ok ht hlocal hs'
          refine ⟨s, hrun, ?_⟩
          simp [Session.isAborted, ht, haborted]

/-- What no invocation changes: the tables but for `audit_logs`, which only grows, and the caller's
own row of `rate_limit_state`; and that the settings of the connection are unset. -/
structure Frame (caller : Option Uuid) (g g' : GatewayState) : Prop where
  chunks : g'.db.chunks = g.db.chunks
  employees : g'.db.employees = g.db.employees
  grants : g'.db.grants = g.db.grants
  rateLimit : ∀ k window, some k ≠ caller → g'.db.rateLimit k window = g.db.rateLimit k window
  auditLogs : ∃ added, g'.db.auditLogs = g.db.auditLogs ++ added
  conn : g.conn.IsUnset → g'.conn.IsUnset

/-- Audit entries change nothing but `audit_logs`. -/
theorem foldl_applyWrite_audits (es : List AuditEntry) (db : Database) :
    (es.map Write.audit).foldl applyWrite db = { db with auditLogs := db.auditLogs ++ es } := by
  induction es generalizing db with
  | nil => simp
  | cons e es ih =>
      rw [List.map_cons, List.foldl_cons, ih]
      simp [applyWrite]

theorem Frame.of_unchanged {caller : Option Uuid} {g g' : GatewayState} (hdb : g'.db = g.db)
    (hconn : g.conn.IsUnset → g'.conn.IsUnset) : Frame caller g g' := by
  refine ⟨?_, ?_, ?_, ?_, ⟨[], ?_⟩, hconn⟩
  · rw [hdb]
  · rw [hdb]
  · rw [hdb]
  · intro k window _
    rw [hdb]
  · rw [hdb, List.append_nil]

/-- **The frame of an invocation.** -/
theorem after_frame (p : Platform) (inv : Invocation) (g : GatewayState) :
    Frame inv.caller g (after p inv g) := by
  unfold after
  cases hallow : allowlistRejects inv.auth inv.call.toolName with
  | some key =>
      obtain ⟨e, he⟩ := invoke_rejected (p := p) hallow
      rw [he]
      dsimp only
      split_ifs
      · exact Frame.of_unchanged rfl fun h => h
      · exact ⟨rfl, rfl, rfl, fun _ _ _ => rfl, ⟨_, rfl⟩, fun h => h⟩
  | none =>
      cases hstart : startError inv.env with
      | some e =>
          rw [invoke_unreached hallow hstart]
          dsimp only
          split_ifs
          · exact Frame.of_unchanged rfl fun h => h
          · exact Frame.of_unchanged rfl fun h => inv.env.outer.revert_isUnset h
      | none =>
          obtain ⟨out, s, -, hin, -, hinv⟩ := invoke_reached p inv hallow hstart g
          obtain ⟨t, es, ht, -, hwork⟩ := hin.tx
          have hconn : g.conn.IsUnset → (inv.env.outer.fate.revert s.conn).IsUnset := by
            rw [hin.conn]
            exact fun h => inv.env.outer.revert_isUnset h
          rw [hinv]
          -- a commit adds the audit entries of the transaction, a rollback nothing
          rcases Session.finish_cases rules ht with h | h
          · have hstore : (s.commit rules inv.env.outer.fate t.work).store
                = { s.store with auditLogs := s.store.auditLogs ++ es } := by
              rw [hwork]
              exact foldl_applyWrite_audits es s.store
            rw [h]
            refine ⟨?_, ?_, ?_, ?_, ⟨es, ?_⟩, hconn⟩
            · rw [hstore]
              exact hin.chunks
            · rw [hstore]
              exact hin.employees
            · rw [hstore]
              exact hin.grants
            · rw [hstore]
              exact hin.rateLimit
            · rw [hstore]
              exact congrArg (· ++ es) hin.auditLogs
          · rw [h]
            exact ⟨hin.chunks, hin.employees, hin.grants, hin.rateLimit,
              ⟨[], hin.auditLogs.trans (List.append_nil _).symm⟩, hconn⟩

/-- **Nobody's settings stay on the connection**, whatever was called on it. -/
theorem settings_unset {p : Platform} {g : GatewayState} (h : (gateway p).Reachable g) :
    g.conn.IsUnset := by
  apply h.invariant
  · exact fun _ hinit => hinit
  · intro g inv g' hg hstep
    cases hstep
    exact (after_frame p inv g).conn hg

end McpGateway.Gateway
