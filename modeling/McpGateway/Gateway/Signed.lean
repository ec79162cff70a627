import McpGateway.Gateway.Effects

/-! # Who an audit entry names

Whatever a call logs names its caller and one of the gateway's own events (`SignedBy`). While a tool
runs its entries wait in the transaction of the call, so this is an invariant of what waits
(`Signs`), which every computation of a tool keeps.

* `after_signed` — what a call adds to `audit_logs` is signed by its caller. -/

namespace McpGateway.Gateway

open Foundation Foundation.Act

/-- The events the tools, the guard, the budget and the aspects log. -/
def callEvents : List String :=
  ["list_sources", "query_database", "search_documents", "semantic_search_documents",
    "authz_denial", "tool_denied", "query_guard_reject", "query_guard_flag",
    "chunk_budget_exceeded"]

theorem toolName_mem_callEvents (call : ToolCall) : call.toolName ∈ callEvents := by
  cases call <;> simp [ToolCall.toolName, callEvents]

structure SignedBy (caller : Option Uuid) (entry : AuditEntry) : Prop where
  apiKeyId : entry.apiKeyId = caller
  event : entry.toolName ∈ callEvents

/-- What waits in the transaction is signed. -/
def WaitsSigned (caller : Option Uuid) (s : GatewaySession) : Prop :=
  ∀ entry, Waiting entry s → SignedBy caller entry

/-- A computation that only logs signed entries, however it ends. -/
def Signs {α : Type} (caller : Option Uuid) (m : GatewayM α) : Prop :=
  Triple (WaitsSigned caller) m (fun _ => WaitsSigned caller) (fun _ => WaitsSigned caller)

section Operations

variable {caller : Option Uuid} {env : Env} {p : Platform} {auth : Authentication} {α β : Type}

theorem Signs.bind {m : GatewayM α} {f : α → GatewayM β} (hm : Signs caller m)
    (hf : ∀ a, Signs caller (f a)) : Signs caller (m >>= f) :=
  Triple.bind hm hf

theorem Signs.tryCatch {m : GatewayM α} {h : Throwable → GatewayM α} (hm : Signs caller m)
    (hh : ∀ e, Signs caller (h e)) : Signs caller (tryCatch m h) :=
  Triple.tryCatch hm hh

theorem signs_pure (a : α) : Signs caller (pure a : GatewayM α) :=
  Triple.pure fun _ hs => hs

theorem signs_throw (e : Throwable) : Signs caller (throw e : GatewayM α) :=
  Triple.throw fun _ hs => hs

theorem signs_when {c : Bool} {m : GatewayM Unit} (hm : Signs caller m) :
    Signs caller (Act.when c m) :=
  Triple.when (fun _ => hm) fun _ _ hs => hs

/-- Marking the transaction changes nothing of what waits in it. -/
theorem waitsSigned_mark {s s' : GatewaySession} (hs : WaitsSigned caller s)
    {mark : Tx Write Settings → Tx Write Settings} (hmark : ∀ t, (mark t).work = t.work)
    (htx : s'.tx = s.tx.map mark) : WaitsSigned caller s' := by
  rintro entry ⟨t, ht, hmem⟩
  rw [htx] at ht
  obtain ⟨t', ht', rfl⟩ := Option.map_eq_some_iff.mp ht
  rw [hmark] at hmem
  exact hs entry ⟨t', ht', hmem⟩

theorem signs_statement (fails : Bool) (run : Database → Settings → Option α) :
    Signs caller (statement fails run) := by
  intro s hs
  cases hans : statementAnswer fails run s with
  | some a =>
      rw [statement_some hans]
      exact hs
  | none =>
      rw [statement_none hans]
      have hmark : ∀ t : Tx Write Settings, ({ t with aborted := true } : Tx Write Settings).work
          = t.work := fun _ => rfl
      exact waitsSigned_mark hs hmark rfl

theorem signs_log {entry : AuditEntry} (h : SignedBy caller entry) : Signs caller (log env entry) := by
  intro s hs
  unfold log
  by_cases haudit : env.auditFails entry = true
  · rw [if_pos haudit]
    have hmark : ∀ t : Tx Write Settings, ({ t with rollbackOnly := true } : Tx Write Settings).work
        = t.work := fun _ => rfl
    exact waitsSigned_mark hs hmark rfl
  · rw [if_neg haudit]
    show WaitsSigned caller (s.write rules (.audit entry))
    rintro other ⟨t, ht, hmem⟩
    unfold Session.write at ht
    cases hopen : s.tx with
    | none =>
        rw [hopen] at ht
        cases ht
    | some t₀ =>
        rw [hopen] at ht
        cases ht
        rcases List.mem_append.mp hmem with hold | hnew
        · exact hs other ⟨t₀, hopen, hold⟩
        · rw [List.mem_singleton] at hnew
          cases hnew
          exact h

theorem callEvents_reject : "query_guard_reject" ∈ callEvents := by decide
theorem callEvents_flag : "query_guard_flag" ∈ callEvents := by decide

theorem signs_auditReject (pattern : String) (metric : Option Int) :
    Signs (auth.key?.map ApiKey.id) (auditReject env auth pattern metric) :=
  have hlog : Signs (auth.key?.map ApiKey.id) (log env (rejectEntry auth pattern metric)) :=
    signs_log ⟨rfl, callEvents_reject⟩
  hlog.tryCatch fun _ => signs_pure ()

theorem signs_auditFlag (pattern : String) :
    Signs (auth.key?.map ApiKey.id) (auditFlag env auth pattern) :=
  have hlog : Signs (auth.key?.map ApiKey.id) (log env (flagEntry auth pattern)) :=
    signs_log ⟨rfl, callEvents_flag⟩
  hlog.tryCatch fun _ => signs_pure ()

theorem signs_validate (rawQuery : Option JString) :
    Signs (auth.key?.map ApiKey.id) (validate p env auth rawQuery) := by
  unfold validate
  cases rawQuery with
  | none => exact signs_throw _
  | some raw =>
      apply Triple.ite
      · intro _
        exact (signs_auditReject _ _).bind fun _ => signs_throw _
      · intro _
        cases (rejectTiers p).find? fun tier => tier.1.find raw with
        | some tier => exact (signs_auditReject _ _).bind fun _ => signs_throw _
        | none =>
            apply (signs_when (signs_auditReject _ _)).bind
            intro _
            apply (signs_when (signs_auditFlag _)).bind
            intro _
            exact signs_pure _

theorem signs_guardQuery (q : JString) :
    Signs (auth.key?.map ApiKey.id) (guardQuery p env auth q) := by
  apply Signs.tryCatch
  · exact (signs_validate _).bind fun _ => signs_pure _
  · intro e
    cases e
    case toolInputRejected reason => exact signs_pure _
    all_goals exact signs_throw _

theorem signs_fetchChunk (chunkId : Uuid) : Signs caller (fetchChunk p env chunkId) := by
  unfold fetchChunk
  apply Signs.tryCatch
  · apply (signs_statement _ _).bind
    intro found
    cases found with
    | none => exact signs_throw _
    | some row =>
        dsimp only
        cases chunkText p row with
        | ok text => exact signs_pure _
        | error e => exact signs_throw _
  · intro _
    exact signs_pure _

theorem signs_query {table : Option JString} {filters : Option Filters} {role : AccessRole}
    {maxRows : Nat} : Signs caller (query p env table filters role maxRows) := by
  unfold query
  cases table with
  | none => exact signs_throw _
  | some name =>
      dsimp only
      cases allowedTables.find? fun t => jstr t.name = name with
      | none => exact signs_throw _
      | some t =>
          dsimp only
          cases conditions (buildColumnList t role) filters with
          | none => exact signs_throw _
          | some conds => exact signs_statement _ _

/-- The budget has a transaction of its own, and what it logs there goes down with it. -/
theorem signs_commitChunks (apiKeyId : Uuid) (chunkCount : Int) :
    Signs caller (commitChunks p env (some apiKeyId) chunkCount) := by
  intro s hs
  rw [commitChunks_apply]
  by_cases hbegin : env.inner.beginFails = true
  · rw [if_pos hbegin]
    exact hs
  · rw [if_neg hbegin]
    cases budgetTotal env s.store apiKeyId chunkCount with
    | none => exact hs
    | some total =>
        dsimp only
        by_cases hcap : (total : Int) > p.hourlyCap
        · rw [if_pos hcap]
          exact hs
        · rw [if_neg hcap]
          by_cases hcommit : env.inner.commitFails = true
          · rw [if_pos hcommit]
            exact hs
          · rw [if_neg hcommit]
            exact hs

theorem signs_spendBudget (apiKeyId : Uuid) (count : Nat) :
    Signs caller (spendBudget p env apiKeyId count) := by
  apply Signs.tryCatch
  · exact (signs_commitChunks apiKeyId _).bind fun _ => signs_pure _
  · intro e
    cases e
    case budgetExceeded retryAfterSeconds => exact signs_pure _
    all_goals exact signs_throw _

theorem signs_fetchFragments (rows : List DocumentChunk) :
    Signs caller (fetchFragments p env rows) := by
  induction rows with
  | nil => exact signs_pure _
  | cons row rows ih =>
      unfold fetchFragments
      apply (signs_fetchChunk row.id).bind
      intro _
      apply ih.bind
      intro _
      exact signs_pure _

theorem signs_embed (text : JString) : Signs caller (embed p env text) := by
  unfold embed
  apply Triple.ite
  · intro _
    exact signs_throw _
  · intro _
    cases p.embed text with
    | some v => exact signs_pure _
    | none => exact signs_throw _

end Operations

/-! ## The tools -/

section Tools

variable {env : Env} {p : Platform} {auth : Authentication} {key : ApiKey} {α : Type}

/-- The tools log under the key they act for. -/
theorem signs_currentApiKey {f : ApiKey → GatewayM α}
    (hf : ∀ key, auth = .apiKey key → Signs (some key.id) (f key)) :
    Signs (auth.key?.map ApiKey.id) (do
      let apiKey ← currentApiKey auth
      f apiKey) := by
  cases auth with
  | apiKey key => exact hf key rfl
  | absent => exact signs_throw .nullPointer
  | otherPrincipal => exact signs_throw .classCast

/-- The end of a tool. -/
theorem signs_report {entry : AuditEntry} (hevent : entry.toolName ∈ callEvents)
    (hkey : entry.apiKeyId = some key.id) (result : ToolResult) :
    Signs (some key.id) (do
      log env entry
      pure result) :=
  (signs_log ⟨hkey, hevent⟩).bind fun _ => signs_pure result

theorem signs_listSources : Signs (auth.key?.map ApiKey.id) (listSources env auth) := by
  apply signs_currentApiKey
  intro key _
  exact signs_report (toolName_mem_callEvents .listSources) rfl _

theorem signs_queryDatabase (table : Option JString) (filters : Option Filters)
    (maxRows : Option Int) :
    Signs (auth.key?.map ApiKey.id) (queryDatabase p env auth table filters maxRows) := by
  apply signs_currentApiKey
  intro key _
  apply Signs.bind
  · apply signs_query.tryCatch
    intro e
    cases e
    case security message =>
      have hdenial : "authz_denial" ∈ callEvents := by decide
      apply Signs.bind
      · exact signs_log ⟨rfl, hdenial⟩
      · intro _
        exact signs_throw _
    all_goals exact signs_throw _
  · intro results
    exact signs_report (toolName_mem_callEvents (.queryDatabase table filters maxRows)) rfl _

theorem signs_searchTool {toolName : String} (hevent : toolName ∈ callEvents)
    {retrieve : Retrieval}
    (hretrieve : ∀ caller role q limit, Signs caller (retrieve role q limit))
    (q : Option JString) (maxResults : Option Int) :
    Signs (auth.key?.map ApiKey.id)
      (searchTool p env auth toolName retrieve q maxResults) := by
  unfold searchTool
  cases acceptedQuery q with
  | none => exact signs_throw _
  | some q =>
      apply (signs_guardQuery q).bind
      intro guardResult
      cases guardResult with
      | error reason => exact signs_pure _
      | ok result =>
          apply signs_currentApiKey
          intro key _
          apply (hretrieve _ _ _ _).bind
          intro rows
          apply (signs_fetchFragments rows).bind
          intro fragments
          apply (signs_spendBudget key.id _).bind
          intro exceeded
          cases exceeded with
          | some retryAfterSeconds => exact signs_pure _
          | none => exact signs_report hevent rfl _

theorem signs_toolBody (p : Platform) (env : Env) (auth : Authentication) (call : ToolCall) :
    Signs (auth.key?.map ApiKey.id) (toolBody p env auth call) := by
  cases call with
  | listSources => exact signs_listSources
  | queryDatabase table filters maxRows => exact signs_queryDatabase table filters maxRows
  | searchDocuments q maxResults =>
      apply signs_searchTool (toolName_mem_callEvents (.searchDocuments q maxResults))
      intro caller role q limit
      exact signs_statement _ _
  | semanticSearchDocuments q maxResults =>
      apply signs_searchTool (toolName_mem_callEvents (.semanticSearchDocuments q maxResults))
      intro caller role q limit
      apply (signs_embed _).bind
      intro v
      exact signs_statement _ _

end Tools

/-! ## Whole calls -/

/-- A transaction that ends adds what waited in it, or nothing. -/
theorem finish_audits {fate : TxFate Settings} {out : Except Throwable ToolResult}
    {s : GatewaySession} {t : Tx Write Settings} {es : List AuditEntry} (ht : s.tx = some t)
    (hwork : t.work = es.map Write.audit) :
    (Session.finish rules fate out s).2.store.auditLogs = s.store.auditLogs ∨
      (Session.finish rules fate out s).2.store.auditLogs = s.store.auditLogs ++ es := by
  cases out with
  | error e => exact Or.inl rfl
  | ok r =>
      unfold Session.finish
      rw [ht]
      dsimp only
      split_ifs
      · exact Or.inl rfl
      · exact Or.inl rfl
      · exact Or.inl rfl
      · right
        rw [hwork]
        exact congrArg Database.auditLogs (foldl_applyWrite_audits _ _)

/-- **What a call adds to `audit_logs`** is signed by its caller. -/
theorem after_signed (p : Platform) (inv : Invocation) (g : GatewayState) :
    ∃ added, (after p inv g).db.auditLogs = g.db.auditLogs ++ added ∧
      ∀ entry ∈ added, SignedBy inv.caller entry := by
  unfold after
  cases hallow : allowlistRejects inv.auth inv.call.toolName with
  | some key =>
      obtain ⟨e, he⟩ := invoke_rejected (p := p) hallow
      rw [he]
      dsimp only
      split_ifs
      · exact ⟨[], (List.append_nil _).symm, nofun⟩
      · -- turned away at the allowlist, which writes its entry before any transaction
        refine ⟨[deniedEntry key inv.call.toolName], rfl, ?_⟩
        intro entry hentry
        rw [List.mem_singleton] at hentry
        subst hentry
        obtain ⟨hkey, -⟩ := Option.filter_eq_some_iff.mp hallow
        have hdenied : "tool_denied" ∈ callEvents := by decide
        refine ⟨?_, hdenied⟩
        unfold Invocation.caller
        rw [hkey]
        rfl
  | none =>
      cases hstart : startError inv.env with
      | some e =>
          rw [invoke_unreached hallow hstart]
          dsimp only
          split_ifs <;> exact ⟨[], (List.append_nil _).symm, nofun⟩
      | none =>
          -- the entries of the body wait in its transaction, and are all kept or all lost
          obtain ⟨out, s, hbody, hin, -, hinv⟩ := invoke_reached p inv hallow hstart g
          obtain ⟨t, es, ht, -, hwork⟩ := hin.tx
          have hsigned : WaitsSigned inv.caller s := by
            have hbegin : WaitsSigned inv.caller (inContext inv.auth g.session) := by
              rintro entry ⟨t, ht, hmem⟩
              cases ht
              cases hmem
            have hafter := signs_toolBody p inv.env inv.auth inv.call _ hbegin
            rw [hbody] at hafter
            cases out <;> exact hafter
          have hends := @finish_audits inv.env.outer.fate out s t es ht hwork
          rw [hinv]
          rcases hends with hend | hend
          · refine ⟨[], ?_, nofun⟩
            rw [hend, hin.auditLogs, List.append_nil]
          · refine ⟨es, ?_, ?_⟩
            · rw [hend, hin.auditLogs]
            · intro entry hentry
              refine hsigned entry ⟨t, ht, ?_⟩
              rw [hwork]
              exact List.mem_map_of_mem hentry

end McpGateway.Gateway
