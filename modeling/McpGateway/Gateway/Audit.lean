import McpGateway.Gateway.Pending

/-! # The audit trail

* `disclosure_audited` — what returns to the caller, apart from a lone denial, has its committed row
  in `audit_logs`.
* `audits_durable_iff` — the entries a call logs are committed rows afterwards exactly when the
  call is `AuditSafe`: a table over the exit paths of the tools.
* `denial_lost` — the entry of an authorization denial is not. -/

namespace McpGateway.Gateway

open Foundation Foundation.Act

/-! ## No unaudited disclosure -/

/-- **No unaudited disclosure.** A result that is not a lone denial comes with a row of the call in
`audit_logs`: the caller's key, the tool, and the number of rows or fragments. -/
theorem disclosure_audited {p : Platform} {inv : Invocation} {g : GatewayState} {r : ToolResult}
    (hanswer : answer p inv g = .ok r) (hdata : ¬ r.IsDenial) :
    ∃ key added entry, inv.auth = .apiKey key ∧
      (after p inv g).db.auditLogs = g.db.auditLogs ++ added ∧ entry ∈ added ∧
      entry.apiKeyId = some key.id ∧ entry.toolName = inv.call.toolName ∧
      Reports r entry.resultSummary := by
  unfold answer at hanswer
  cases hallow : allowlistRejects inv.auth inv.call.toolName with
  | some key =>
      obtain ⟨e, he⟩ := invoke_rejected (p := p) hallow
      rw [he] at hanswer
      cases hanswer
  | none =>
      cases hstart : startError inv.env with
      | some e =>
          rw [invoke_unreached hallow hstart] at hanswer
          cases hanswer
      | none =>
          obtain ⟨out, s, -, hin, hacc, hinv⟩ := invoke_reached p inv hallow hstart g
          obtain ⟨t, es, ht, hlocal, hwork⟩ := hin.tx
          rw [hinv] at hanswer
          obtain ⟨s', hs'⟩ : ∃ s', Session.finish rules inv.env.outer.fate out s = (.ok r, s') :=
            ⟨_, Prod.ext hanswer rfl⟩
          obtain ⟨hout, -, hcommit⟩ := Session.finish_ok ht hlocal hs'
          rcases hacc r hout with hdenial | ⟨key, entry, hkey, hwaiting, hid, hname, hreport⟩
          · exact absurd hdenial hdata
          · refine ⟨key, es, entry, hkey, ?_, ?_, hid, hname, hreport⟩
            · unfold after
              rw [hinv, hs', hcommit, hwork]
              show ((es.map Write.audit).foldl applyWrite s.store).auditLogs = _
              rw [foldl_applyWrite_audits, hin.auditLogs]
            · obtain ⟨t', ht', hmem⟩ := hwaiting
              rw [ht] at ht'
              cases ht'
              rw [hwork] at hmem
              simpa using hmem

/-- What the administrator of the sample workspace gets. -/
def planRead : ToolResult :=
  .rows [[("id", .uuid (sampleId 9)), ("doc_name", .text "plan.txt"),
    ("classification", .text "CONFIDENTIAL"), ("chunk_index", .int 0),
    ("text_preview", .text "the plan"), ("created_at", .timestamp 0),
    ("workspace_id", .uuid defaultWorkspace)]]

/-- It comes with its row. -/
theorem plan_read_audited : ∃ key added entry,
    Authentication.apiKey (sampleKey .admin 2) = .apiKey key ∧
    (after (samplePlatform true) ⟨calmEnv, .apiKey (sampleKey .admin 2), documentsQuery⟩
      (oneDocument planRow planRow_fits)).db.auditLogs
        = (oneDocument planRow planRow_fits).db.auditLogs ++ added ∧ entry ∈ added ∧
    entry.apiKeyId = some key.id ∧ entry.toolName = "query_database" ∧
    Reports planRead entry.resultSummary := by
  have hanswer : answer (samplePlatform true)
      ⟨calmEnv, .apiKey (sampleKey .admin 2), documentsQuery⟩ (oneDocument planRow planRow_fits)
      = .ok planRead := rfl
  have hdata : ¬ planRead.IsDenial := by
    rintro ⟨_, h, -⟩
    cases h
  exact disclosure_audited hanswer hdata

/-! ## Which calls keep their audit entries -/

/-- The entries logged during the invocation are what it adds to `audit_logs`. -/
def Durable (p : Platform) (inv : Invocation) (g : GatewayState) : Prop :=
  (after p inv g).db.auditLogs = g.db.auditLogs ++ auditsOf (invoke p inv g).2.issued

/-- How the budget of a search ends. -/
inductive BudgetVerdict where
  | failed | exceeded | counted

def budgetVerdict (p : Platform) (env : Env) (db : Database) (apiKeyId : Uuid) (count : Nat) :
    BudgetVerdict :=
  if env.inner.beginFails then .failed
  else match budgetTotal env db apiKeyId count with
    | none => .failed
    | some total =>
        if (total : Int) > p.hourlyCap then .exceeded
        else if env.inner.commitFails then .failed
        else .counted

/-- `list_sources` logs before it returns. -/
def ListSafe (env : Env) (auth : Authentication) : Prop :=
  match auth.key? with
  | none => True
  | some _ => env.outer.commitFails = false

/-- `query_database`: a denial is logged and then thrown. -/
def QuerySafe (p : Platform) (env : Env) (auth : Authentication) (table : Option JString)
    (filters : Option Filters) (maxRows : Option Int) (db : Database) : Prop :=
  match auth.key?, table with
  | some key, some name =>
      accessDenied key.role name filters = false ∧
        (queryAnswer p env key name filters maxRows db = none ∨ env.outer.commitFails = false)
  | _, _ => True

/-- The rows a search finds for a key: `none` when the embedding or the statement fails. -/
abbrev Found := ApiKey → JString → Option (List DocumentChunk)

/-- The searches: what the guard logged about an accepted query is lost when anything fails later,
and the entry of an exceeded budget always is. -/
def SearchSafe (p : Platform) (env : Env) (auth : Authentication) (found : Found)
    (query : Option JString) (db : Database) : Prop :=
  match acceptedQuery query with
  | none => True
  | some q =>
      match rejection p q with
      | some _ => env.outer.commitFails = false
      | none =>
          match auth.key?.bind fun key => (found key (sanitize q)).map fun rows => (key, rows) with
          | none => isAudited p q = false
          | some (key, rows) =>
              match budgetVerdict p env db key.id rows.length with
              | .failed => isAudited p q = false
              | .exceeded => False
              | .counted =>
                  (∀ row ∈ rows, env.fetchFails row.id = false) ∧ env.outer.commitFails = false

def foundByText (p : Platform) (env : Env) (maxResults : Option Int) (db : Database) : Found :=
  fun key q => if env.selectFails then none
    else selectByText p q (allowedClassifications key.role) (searchLimit maxResults) db
      (settingsOf key)

def foundByVector (p : Platform) (env : Env) (maxResults : Option Int) (db : Database) : Found :=
  fun key q => if env.embedFails then none
    else (p.embed q).bind fun v => if env.selectFails then none
      else selectByVector p v (allowedClassifications key.role) (searchLimit maxResults) db
        (settingsOf key)

def ToolSafe (p : Platform) (env : Env) (auth : Authentication) (call : ToolCall) (db : Database) :
    Prop :=
  match call with
  | .listSources => ListSafe env auth
  | .queryDatabase table filters maxRows => QuerySafe p env auth table filters maxRows db
  | .searchDocuments q maxResults => SearchSafe p env auth (foundByText p env maxResults db) q db
  | .semanticSearchDocuments q maxResults =>
      SearchSafe p env auth (foundByVector p env maxResults db) q db

/-- A call whose audit entries are kept. A call stopped before its tool keeps what it logged. -/
def AuditSafe (p : Platform) (inv : Invocation) (db : Database) : Prop :=
  allowlistRejects inv.auth inv.call.toolName = none → startError inv.env = none →
    ToolSafe p inv.env inv.auth inv.call db

/-! ## How the tools end -/

/-- What the end of the transaction makes of the entries. -/
def Kept (env : Env) (out : Except Throwable ToolResult) (es lost : List AuditEntry)
    (aborted : Bool) : Prop :=
  es ++ lost = [] ∨
    lost = [] ∧ (∃ r, out = .ok r) ∧ aborted = false ∧ env.outer.commitFails = false

/-- The tool body ends in a known state, in which the entries are kept exactly when `safe`. -/
def EndsWith (env : Env) (auth : Authentication) (db : Database) (m : GatewayM ToolResult)
    (s : GatewaySession) (safe : Prop) : Prop :=
  ∃ out s' db' es lost aborted, m s = (out, s') ∧ Pending auth db' es lost aborted s' ∧
    db'.auditLogs = db.auditLogs ∧ (Kept env out es lost aborted ↔ safe)

section Ends

variable {p : Platform} {env : Env} {auth : Authentication} {db : Database} {s : GatewaySession}
  {es : List AuditEntry} {aborted : Bool} {safe : Prop} {m : GatewayM ToolResult}

theorem EndsWith.of_eq {m' : GatewayM ToolResult} {s' : GatewaySession} (hrun : m s = m' s')
    (h : EndsWith env auth db m' s' safe) : EndsWith env auth db m s safe := by
  unfold EndsWith
  rw [hrun]
  exact h

/-- An exception keeps the entries only if there are none. -/
theorem ends_error {e : Throwable} {s' : GatewaySession} (hrun : m s = (.error e, s'))
    (h : Pending auth db es [] aborted s') (hsafe : es = [] ↔ safe) :
    EndsWith env auth db m s safe := by
  refine ⟨.error e, s', db, es, [], aborted, hrun, h, rfl, ?_⟩
  rw [← hsafe]
  simp [Kept]

/-- A result keeps the entries if the commit succeeds. -/
theorem ends_ok {r : ToolResult} {s' : GatewaySession} {db' : Database}
    (hrun : m s = (.ok r, s')) (h : Pending auth db' es [] aborted s')
    (hdb : db'.auditLogs = db.auditLogs) (hes : es ≠ [])
    (hsafe : (aborted = false ∧ env.outer.commitFails = false) ↔ safe) :
    EndsWith env auth db m s safe := by
  refine ⟨.ok r, s', db', es, [], aborted, hrun, h, hdb, ?_⟩
  rw [← hsafe]
  simp [Kept, hes]

/-- A call that ends as known is durable exactly when it is safe. -/
theorem durable_iff_safe {inv : Invocation} {g : GatewayState}
    (hallow : allowlistRejects inv.auth inv.call.toolName = none)
    (hstart : startError inv.env = none)
    (hends : EndsWith inv.env inv.auth g.db (toolBody p inv.env inv.auth inv.call)
      (inContext inv.auth g.session) safe) : Durable p inv g ↔ safe := by
  obtain ⟨out, s, db', es, lost, aborted, hrun, hpending, hdb, hkept⟩ := hends
  obtain ⟨out', s', hrun', -, -, hinv⟩ := invoke_reached p inv hallow hstart g
  rw [hrun] at hrun'
  cases hrun'
  rw [← hkept]
  -- a rollback takes what the transaction had enqueued with it
  have hrollback : (Session.finish rules inv.env.outer.fate out s).2
      = s.rollback inv.env.outer.fate → (Durable p inv g ↔ es ++ lost = []) := by
    intro h
    unfold Durable after
    rw [hinv, h]
    show s.store.auditLogs = g.db.auditLogs ++ auditsOf s.issued ↔ _
    rw [hpending.store, hpending.issued, hdb, List.self_eq_append_right]
  -- it commits when the tool returned, no statement aborted it and the commit succeeds
  by_cases hok : (∃ r, out = .ok r) ∧ aborted = false ∧ inv.env.outer.commitFails = false
  · obtain ⟨⟨r, rfl⟩, rfl, hcommit⟩ := hok
    have hcommits := Session.finish_commit rules (a := r) hpending.tx
      (⟨rfl, rfl, rfl, hcommit⟩ : Session.Committable inv.env.outer.fate _)
    unfold Durable after
    rw [hinv, hcommits]
    show ((es.map Write.audit).foldl applyWrite s.store).auditLogs
      = g.db.auditLogs ++ auditsOf s.issued ↔ _
    rw [foldl_applyWrite_audits, hpending.store, hpending.issued, ← List.append_assoc]
    show db'.auditLogs ++ es = _ ↔ _
    rw [hdb, List.self_eq_append_right]
    unfold Kept
    constructor
    · intro h
      exact Or.inr ⟨h, ⟨r, rfl⟩, rfl, hcommit⟩
    · rintro (h | ⟨h, -⟩)
      · exact (List.append_eq_nil_iff.mp h).2
      · exact h
  · have hnot : (Session.finish rules inv.env.outer.fate out s).2
        = s.rollback inv.env.outer.fate := by
      apply Session.finish_rollback hpending.tx
      by_contra hboth
      push Not at hboth
      obtain ⟨hr, hc⟩ := hboth
      exact hok ⟨hr, hc.2.2.1, hc.2.2.2⟩
    rw [hrollback hnot]
    unfold Kept
    constructor
    · exact Or.inl
    · rintro (h | ⟨-, h⟩)
      · exact h
      · exact absurd h hok

variable {key : ApiKey}

/-- Without a key, a tool ends at `currentApiKey`. -/
theorem currentApiKey_error {α : Type} (hkey : auth.key? = none) (f : ApiKey → GatewayM α)
    (s : GatewaySession) : ∃ e, (do
      let apiKey ← currentApiKey auth
      f apiKey) s = (.error e, s) := by
  cases auth with
  | apiKey key => cases hkey
  | absent => exact ⟨_, rfl⟩
  | otherPrincipal => exact ⟨_, rfl⟩

theorem currentApiKey_ok {α : Type} (f : ApiKey → GatewayM α) (s : GatewaySession) : (do
      let apiKey ← currentApiKey (.apiKey key)
      f apiKey) s = f key s :=
  rfl

theorem key?_eq_some (h : auth.key? = some key) : auth = .apiKey key := by
  cases auth with
  | apiKey k =>
      cases h
      rfl
  | absent => cases h
  | otherPrincipal => cases h

variable (haudit : ∀ entry, env.auditFails entry = false)

include haudit

theorem ends_listSources (h : Pending auth db [] [] false s) :
    EndsWith env auth db (listSources env auth) s (ListSafe env auth) := by
  unfold ListSafe
  cases hkey : auth.key? with
  | none =>
      obtain ⟨e, hrun⟩ := currentApiKey_error hkey _ s
      exact ends_error hrun h (by simp)
  | some key =>
      rw [key?_eq_some hkey] at h ⊢
      obtain ⟨s', hlog, h'⟩ := h.log_ok (haudit ⟨"list_sources", some key.id, [],
        jstr "role=" ++ jstr key.role.name ++ jstr ", listed " ++
          jstr (sourcesFor key.role).length.repr ++ jstr " sources"⟩)
      have hrun : listSources env (.apiKey key) s
          = (.ok (.sources key.role.name (sourcesFor key.role)), s') := bind_ok hlog
      exact ends_ok hrun h' rfl (by simp) (by simp)

theorem ends_queryDatabase (h : Pending auth db [] [] false s) (table : Option JString)
    (filters : Option Filters) (maxRows : Option Int) :
    EndsWith env auth db (queryDatabase p env auth table filters maxRows) s
      (QuerySafe p env auth table filters maxRows db) := by
  unfold QuerySafe
  cases hkey : auth.key? with
  | none =>
      obtain ⟨e, hrun⟩ := currentApiKey_error hkey _ s
      exact ends_error hrun h (by simp)
  | some key =>
      rw [key?_eq_some hkey] at h ⊢
      cases table with
      | none =>
          have hrun : queryDatabase p env (.apiKey key) none filters maxRows s
              = (.error .nullPointer, s) := rfl
          exact ends_error hrun h (by simp)
      | some name =>
          dsimp only
          cases hdenied : accessDenied key.role name filters with
          | true =>
              obtain ⟨s', entry, hrun, h'⟩ := h.queryDatabase_denied haudit hdenied maxRows (p := p)
              exact ends_error hrun h' (by simp)
          | false =>
              cases hans : queryAnswer p env key name filters maxRows db with
              | none =>
                  obtain ⟨s', hquery, h'⟩ := h.query_error hdenied hans
                  have hrun : queryDatabase p env (.apiKey key) (some name) filters maxRows s
                      = (.error .dataAccess, s') := by
                    unfold queryDatabase
                    rw [currentApiKey_ok]
                    apply bind_error
                    rw [tryCatch_error hquery]
                    rfl
                  exact ends_error hrun h' (by simp)
              | some rows =>
                  obtain ⟨s', entry, hrun, h'⟩ := h.queryDatabase_ok haudit hdenied hans
                  exact ends_ok hrun h' rfl (by simp) (by simp)

/-- How `commitChunks` leaves the call, by its verdict. -/
theorem Pending.commitChunks_cases (h : Pending auth db es [] aborted s) (apiKeyId : Uuid)
    (count : Nat) :
    match budgetVerdict p env db apiKeyId count with
    | .failed => ∃ e s', commitChunks p env (some apiKeyId) count s = (.error e, s') ∧
        (∀ retryAfter, e ≠ .budgetExceeded retryAfter) ∧ Pending auth db es [] aborted s'
    | .exceeded => ∃ retryAfter s' entry, commitChunks p env (some apiKeyId) count s
        = (.error (.budgetExceeded retryAfter), s') ∧ Pending auth db es [entry] aborted s'
    | .counted => ∃ s' db', commitChunks p env (some apiKeyId) count s = (.ok (), s') ∧
        Pending auth db' es [] aborted s' ∧ db'.auditLogs = db.auditLogs := by
  have hissued : auditsOf s.issued = es := by simpa using h.issued
  unfold budgetVerdict
  rw [commitChunks_apply, h.store]
  by_cases hbegin : env.inner.beginFails = true
  · rw [if_pos hbegin, if_pos hbegin]
    exact ⟨_, s, rfl, fun _ => by simp, h⟩
  · rw [if_neg hbegin, if_neg hbegin]
    cases budgetTotal env db apiKeyId count with
    | none => exact ⟨_, s, rfl, fun _ => by simp, h⟩
    | some total =>
        dsimp only
        by_cases hcap : (total : Int) > p.hourlyCap
        · rw [if_pos hcap, if_pos hcap, haudit, if_neg Bool.false_ne_true]
          refine ⟨_, _, exceededEntry p env apiKeyId total, rfl, rfl, ?_, h.tx⟩
          rw [auditsOf_append, auditsOf_append, hissued]
          simp
        · rw [if_neg hcap, if_neg hcap]
          by_cases hcommit : env.inner.commitFails = true
          · rw [if_pos hcommit, if_pos hcommit]
            exact ⟨_, _, rfl, fun _ => by simp, rfl, by simp [hissued], h.tx⟩
          · rw [if_neg hcommit, if_neg hcommit]
            exact ⟨_, _, rfl, ⟨rfl, by simp [hissued], h.tx⟩, rfl⟩

/-- From the rows on. -/
theorem ends_answerWith (h : Pending (.apiKey key) db es [] false s) (toolName : String)
    (q : JString) (limit : Int) (flagged : Bool) (rows : List DocumentChunk) :
    EndsWith env (.apiKey key) db (answerWith p env toolName key q limit flagged rows) s
      (match budgetVerdict p env db key.id rows.length with
        | .failed => es = []
        | .exceeded => False
        | .counted =>
            (∀ row ∈ rows, env.fetchFails row.id = false) ∧ env.outer.commitFails = false) := by
  obtain ⟨fragments, s₁, hrun₁, hlength, h₁⟩ := h.fetchFragments_ok p env rows
  have hcases := h₁.commitChunks_cases (p := p) haudit key.id rows.length
  cases hverdict : budgetVerdict p env db key.id rows.length with
  | failed =>
      rw [hverdict] at hcases
      obtain ⟨e, s₂, hrun₂, hne, h₂⟩ := hcases
      have hrun : answerWith p env toolName key q limit flagged rows s = (.error e, s₂) := by
        have hspent : spendBudget p env key.id rows.length s₁ = (.error e, s₂) := by
          unfold spendBudget
          rw [tryCatch_error (bind_error hrun₂)]
          cases e
          case budgetExceeded retryAfter => exact absurd rfl (hne retryAfter)
          all_goals rfl
        unfold answerWith
        rw [bind_ok hrun₁, hlength, bind_error hspent]
      exact ends_error hrun h₂ Iff.rfl
  | exceeded =>
      rw [hverdict] at hcases
      -- the denial is logged inside the inner transaction, and the exception rolls that back
      obtain ⟨retryAfter, s₂, entry, hrun₂, h₂⟩ := hcases
      have hrun : answerWith p env toolName key q limit flagged rows s
          = (.ok (.fragments [budgetExceeded retryAfter]), s₂) := by
        have hspent : spendBudget p env key.id rows.length s₁ = (.ok (some retryAfter), s₂) :=
          tryCatch_error (bind_error hrun₂)
        unfold answerWith
        rw [bind_ok hrun₁, hlength]
        exact bind_ok hspent
      exact ⟨_, s₂, db, es, [entry], _, hrun, h₂, rfl, by simp [Kept]⟩
  | counted =>
      rw [hverdict] at hcases
      obtain ⟨s₂, db', hrun₂, h₂, hdb⟩ := hcases
      obtain ⟨s₃, hlog, h₃⟩ := h₂.log_ok (haudit ⟨toolName, some key.id,
        [("query", .text q), ("maxResults", .number limit), ("flagged", .flag flagged)],
        jstr "returned " ++ jstr fragments.length.repr ++ jstr " fragments"⟩)
      have hrun : answerWith p env toolName key q limit flagged rows s
          = (.ok (.fragments fragments), s₃) := by
        have hspent : spendBudget p env key.id rows.length s₁ = (.ok none, s₂) :=
          tryCatch_ok (bind_ok hrun₂)
        unfold answerWith
        rw [bind_ok hrun₁, hlength, bind_ok hspent, ← hlength]
        exact bind_ok hlog
      apply ends_ok hrun h₃ hdb (by simp)
      simp [List.any_eq_false]

/-- A retrieval finds the rows `found` says, or throws. -/
def Retrieves (retrieve : Retrieval) (found : Found) (limit : Int) (db : Database) : Prop :=
  ∀ key q es s, Pending (.apiKey key) db es [] false s →
    match found key q with
    | some rows => retrieve key.role q limit s = (.ok rows, s)
    | none => ∃ e s' aborted, retrieve key.role q limit s = (.error e, s') ∧
        Pending (.apiKey key) db es [] aborted s'

/-- From the sanitized query on. -/
theorem ends_searchAccepted (h : Pending auth db es [] false s) (toolName : String)
    {retrieve : Retrieval} {found : Found} {maxResults : Option Int}
    (hretrieve : Retrieves retrieve found (searchLimit maxResults) db) (q : JString)
    (result : ValidationResult) :
    EndsWith env auth db (searchAccepted p env auth toolName retrieve q maxResults result) s
      (match auth.key?.bind fun key =>
          (found key result.sanitizedQuery).map fun rows => (key, rows) with
        | none => es = []
        | some (key, rows) =>
            match budgetVerdict p env db key.id rows.length with
            | .failed => es = []
            | .exceeded => False
            | .counted =>
                (∀ row ∈ rows, env.fetchFails row.id = false) ∧ env.outer.commitFails = false) := by
  cases hkey : auth.key? with
  | none =>
      obtain ⟨e, hrun⟩ := currentApiKey_error hkey _ s
      exact ends_error hrun h Iff.rfl
  | some key =>
      rw [key?_eq_some hkey] at h ⊢
      have hfound := hretrieve key result.sanitizedQuery es s h
      rw [Option.bind_some]
      cases hrows : found key result.sanitizedQuery with
      | none =>
          -- the statement of the search failed, and the call with it
          rw [hrows] at hfound
          obtain ⟨e, s', aborted, hrun, h'⟩ := hfound
          have hthrown : searchAccepted p env (.apiKey key) toolName retrieve q maxResults result s
              = (.error e, s') := by
            unfold searchAccepted
            rw [currentApiKey_ok]
            exact bind_error hrun
          exact ends_error hthrown h' Iff.rfl
      | some rows =>
          rw [hrows] at hfound
          have hgoes : searchAccepted p env (.apiKey key) toolName retrieve q maxResults result s
              = answerWith p env toolName key q (searchLimit maxResults) result.flagged rows s := by
            unfold searchAccepted
            rw [currentApiKey_ok]
            exact bind_ok hfound
          exact (ends_answerWith haudit h toolName q _ _ rows).of_eq hgoes

theorem ends_searchTool (h : Pending auth db [] [] false s) (toolName : String)
    {retrieve : Retrieval} {found : Found} {maxResults : Option Int}
    (hretrieve : Retrieves retrieve found (searchLimit maxResults) db) (query : Option JString) :
    EndsWith env auth db (searchTool p env auth toolName retrieve query maxResults) s
      (SearchSafe p env auth found query db) := by
  unfold SearchSafe searchTool
  cases acceptedQuery query with
  | none => exact ends_error rfl h (by simp)
  | some q =>
      dsimp only
      cases hreject : rejection p q with
      | some reason =>
          obtain ⟨s₁, entry, hrun₁, h₁⟩ := h.validate_rejects haudit hreject
          have hguard : guardQuery p env auth q s = (.ok (.error reason), s₁) :=
            tryCatch_error (bind_error hrun₁)
          exact ends_ok (bind_ok hguard) h₁ rfl (by simp) (by simp)
      | none =>
          obtain ⟨s₁, es, hrun₁, h₁, hes⟩ := h.validate_accepts haudit hreject
          have hguard : guardQuery p env auth q s = (.ok (.ok _), s₁) :=
            tryCatch_ok (bind_ok hrun₁)
          apply EndsWith.of_eq (bind_ok hguard)
          have hends := ends_searchAccepted haudit h₁ toolName hretrieve q
            ⟨true, sanitize q, (instructionOverride p).find (sanitize q), none⟩ (p := p)
          rw [hes] at hends
          exact hends

omit haudit

theorem retrieves_byText (p : Platform) (env : Env) (maxResults : Option Int) (db : Database) :
    Retrieves (retrieveByText p env) (foundByText p env maxResults db) (searchLimit maxResults)
      db := by
  intro key q es s h
  cases hfound : foundByText p env maxResults db key q with
  | some rows => exact h.statement_ok env.selectFails _ hfound
  | none =>
      obtain ⟨s', hrun, h'⟩ := h.statement_error env.selectFails
        (selectByText p q (allowedClassifications key.role) (searchLimit maxResults)) hfound
      exact ⟨_, s', true, hrun, h'⟩

theorem retrieves_byVector (p : Platform) (env : Env) (maxResults : Option Int) (db : Database) :
    Retrieves (retrieveByVector p env) (foundByVector p env maxResults db) (searchLimit maxResults)
      db := by
  intro key q es s h
  unfold foundByVector retrieveByVector
  by_cases hfails : env.embedFails = true
  · rw [if_pos hfails]
    have hembed : embed p env q s = (.error .embedding, s) := by
      unfold embed
      rw [if_pos hfails]
      rfl
    exact ⟨_, s, false, bind_error hembed, h⟩
  · rw [if_neg hfails]
    cases hv : p.embed q with
    | none =>
        have hembed : embed p env q s = (.error .nullPointer, s) := by
          unfold embed
          rw [if_neg hfails, hv]
          rfl
        exact ⟨_, s, false, bind_error hembed, h⟩
    | some v =>
        have hembed : embed p env q s = (.ok v, s) := by
          unfold embed
          rw [if_neg hfails, hv]
          rfl
        rw [Option.bind_some]
        cases hfound : (if env.selectFails = true then none
            else selectByVector p v (allowedClassifications key.role) (searchLimit maxResults) db
              (settingsOf key)) with
        | some rows =>
            dsimp only
            rw [bind_ok hembed]
            exact h.statement_ok env.selectFails _ hfound
        | none =>
            obtain ⟨s', hrun, h'⟩ := h.statement_error env.selectFails
              (selectByVector p v (allowedClassifications key.role) (searchLimit maxResults)) hfound
            exact ⟨.dataAccess, s', true, (bind_ok hembed).trans hrun, h'⟩

end Ends

/-! ## The theorem -/

/-- **When the audit entries of a call are durable.** -/
theorem audits_durable_iff {p : Platform} {inv : Invocation}
    (haudit : ∀ entry, inv.env.auditFails entry = false) (g : GatewayState) :
    Durable p inv g ↔ AuditSafe p inv g.db := by
  unfold AuditSafe
  cases hallow : allowlistRejects inv.auth inv.call.toolName with
  | some key =>
      obtain ⟨e, he⟩ := invoke_rejected (p := p) hallow
      have hdurable : Durable p inv g := by
        unfold Durable after
        rw [he, haudit, if_neg Bool.false_ne_true]
        rfl
      simp [hdurable]
  | none =>
      cases hstart : startError inv.env with
      | some e =>
          have hdurable : Durable p inv g := by
            unfold Durable after
            rw [invoke_unreached hallow hstart]
            split_ifs
            · exact (List.append_nil _).symm
            · exact (List.append_nil _).symm
          simp [hdurable]
      | none =>
          have hbegin := pending_inContext inv.auth g
          have hiff : Durable p inv g ↔ ToolSafe p inv.env inv.auth inv.call g.db := by
            apply durable_iff_safe hallow hstart
            unfold ToolSafe
            cases inv.call with
            | listSources => exact ends_listSources haudit hbegin
            | queryDatabase table filters maxRows =>
                exact ends_queryDatabase haudit hbegin table filters maxRows
            | searchDocuments q maxResults =>
                exact ends_searchTool haudit hbegin _ (retrieves_byText p inv.env maxResults g.db) q
            | semanticSearchDocuments q maxResults =>
                exact ends_searchTool haudit hbegin _ (retrieves_byVector p inv.env maxResults g.db)
                  q
          rw [hiff]
          simp

/-- An undisturbed `list_sources` keeps its entry. -/
theorem sources_durable : Durable (samplePlatform true)
    ⟨calmEnv, .apiKey (sampleKey .readOnly 1), .listSources⟩ noDocuments :=
  (audits_durable_iff (fun _ => rfl) noDocuments).mpr fun _ _ => rfl

/-- A key asks for a table that is not in the allowlist: the call ends with a `SecurityException`,
and the entry `DENIED: salaries` is not in `audit_logs`. -/
theorem denial_lost :
    (invoke (samplePlatform true) ⟨calmEnv, .apiKey (sampleKey .readOnly 1),
        .queryDatabase (some (jstr "salaries")) none none⟩ noDocuments).1
      = .error (.security "Access denied") ∧
    auditsOf (invoke (samplePlatform true) ⟨calmEnv, .apiKey (sampleKey .readOnly 1),
        .queryDatabase (some (jstr "salaries")) none none⟩ noDocuments).2.issued
      = [⟨"authz_denial", some (sampleId 1),
          [("table", .text (jstr "salaries")), ("filters", .filters Filters.empty)],
          jstr "DENIED: salaries"⟩] ∧
    (after (samplePlatform true) ⟨calmEnv, .apiKey (sampleKey .readOnly 1),
        .queryDatabase (some (jstr "salaries")) none none⟩ noDocuments).db.auditLogs = [] :=
  ⟨rfl, rfl, rfl⟩

end McpGateway.Gateway
