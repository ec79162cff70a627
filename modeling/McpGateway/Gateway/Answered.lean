import McpGateway.Gateway.Audit
import McpGateway.Gateway.Meaning

/-! # Which calls are answered

An undisturbed gateway answers the calls it allows that have a right result, and no others
(`answered_iff`). -/

namespace McpGateway.Gateway

open Foundation Foundation.Act

/-- Nothing fails during the call. -/
structure Env.Undisturbed (env : Env) : Prop where
  outerBegins : env.outer.beginFails = false
  outerCommits : env.outer.commitFails = false
  innerBegins : env.inner.beginFails = false
  innerCommits : env.inner.commitFails = false
  sets : ∀ key, env.setConfigFails key = false
  audits : ∀ entry, env.auditFails entry = false
  embeds : env.embedFails = false
  selects : env.selectFails = false
  fetches : ∀ chunkId, env.fetchFails chunkId = false
  upserts : env.upsertFails = false

/-- From a pending session the body returns, and its transaction can commit. -/
def Returns (key : ApiKey) (m : GatewayM ToolResult) (s : GatewaySession) : Prop :=
  ∃ r s' db es lost, m s = (.ok r, s') ∧ Pending (.apiKey key) db es lost false s'

section Calls

variable {p : Platform} {env : Env} {key : ApiKey} {db : Database} {es : List AuditEntry}
  {s : GatewaySession}

/-! ## The searches -/

/-- With a count that fits, the budget has its verdict. -/
theorem budgetVerdict_ne_failed (henv : env.Undisturbed) {count : Nat}
    (hcount : storedCount db key.id (windowStart env.now) + count ≤ bigintMax) :
    budgetVerdict p env db key.id count ≠ .failed := by
  have htotal : budgetTotal env db key.id count
      = some (storedCount db key.id (windowStart env.now) + count) := by
    have hmax : (max 0 (count : Int)).toNat = count := by omega
    unfold budgetTotal upsertTotal
    rw [henv.upserts, if_neg Bool.false_ne_true, hmax]
    exact if_pos hcount
  unfold budgetVerdict
  rw [henv.innerBegins, if_neg Bool.false_ne_true, htotal]
  dsimp only
  split_ifs with hcap hcommit
  · simp
  · rw [henv.innerCommits] at hcommit
    cases hcommit
  · simp

theorem returns_answerWith (henv : env.Undisturbed)
    (h : Pending (.apiKey key) db es [] false s) (toolName : String) (q : JString) (limit : Int)
    (flagged : Bool) {rows : List DocumentChunk}
    (hcount : countWith db env.now key rows ≤ bigintMax) :
    Returns key (answerWith p env toolName key q limit flagged rows) s := by
  obtain ⟨fragments, s₁, hrun₁, hlength, h₁⟩ := h.fetchFragments_ok p env rows
  have hfetched : (false || rows.any fun row => env.fetchFails row.id) = false := by
    simp [henv.fetches]
  rw [hfetched] at h₁
  have hcases := h₁.commitChunks_cases (p := p) henv.audits key.id rows.length
  have hverdict := budgetVerdict_ne_failed (p := p) henv hcount
  unfold answerWith
  cases hv : budgetVerdict p env db key.id rows.length with
  | failed => exact absurd hv hverdict
  | exceeded =>
      rw [hv] at hcases
      obtain ⟨retryAfter, s₂, entry, hrun₂, h₂⟩ := hcases
      have hspent : spendBudget p env key.id fragments.length s₁ = (.ok (some retryAfter), s₂) := by
        rw [hlength]
        exact tryCatch_error (bind_error hrun₂)
      refine ⟨.fragments [budgetExceeded retryAfter], s₂, db, es, [entry], ?_, h₂⟩
      rw [bind_ok hrun₁, bind_ok hspent]
      rfl
  | counted =>
      rw [hv] at hcases
      obtain ⟨s₂, db', hrun₂, h₂, -⟩ := hcases
      have hspent : spendBudget p env key.id fragments.length s₁ = (.ok none, s₂) := by
        rw [hlength]
        exact tryCatch_ok (bind_ok hrun₂)
      obtain ⟨s₃, hlog, h₃⟩ := h₂.log_ok (henv.audits ⟨toolName, some key.id,
        [("query", .text q), ("maxResults", .number limit), ("flagged", .flag flagged)],
        jstr "returned " ++ jstr fragments.length.repr ++ jstr " fragments"⟩)
      refine ⟨.fragments fragments, s₃, db', _, [], ?_, h₃⟩
      rw [bind_ok hrun₁, bind_ok hspent]
      exact bind_ok hlog

/-- A search returns when its retrieval finds as many rows as are meant. -/
theorem returns_searchTool (henv : env.Undisturbed) (h : Pending (.apiKey key) db [] [] false s)
    (toolName : String) {retrieve : Retrieval} {found : Found} {meaning : SearchMeaning}
    {query : Option JString} {maxResults : Option Int} {r : ToolResult}
    (hretrieve : Retrieves retrieve found (searchLimit maxResults) db)
    (hfound : ∀ q rows, meaning q (searchLimit maxResults) rows →
      ∃ rows', found key q = some rows' ∧ rows'.length = rows.length)
    (hright : SearchAnswers p env.now db key meaning query maxResults r) :
    Returns key (searchTool p env (.apiKey key) toolName retrieve query maxResults) s := by
  -- a budget denial and the fragments come out of the same steps
  have haccepted : ∀ q rows, acceptedQuery query = some q → rejection p q = none →
      meaning (sanitize q) (searchLimit maxResults) rows →
      countWith db env.now key rows ≤ bigintMax →
      Returns key (searchTool p env (.apiKey key) toolName retrieve query maxResults) s := by
    intro q rows hquery haccept hrows hcount
    obtain ⟨s₁, es, hrun₁, h₁, -⟩ := h.validate_accepts henv.audits haccept
    have hguard : guardQuery p env (.apiKey key) q s = (.ok (.ok _), s₁) :=
      tryCatch_ok (bind_ok hrun₁)
    obtain ⟨rows', hrows', hlength⟩ := hfound _ rows hrows
    have hretrieved := hretrieve key (sanitize q) es s₁ h₁
    rw [hrows'] at hretrieved
    have hcount' : countWith db env.now key rows' ≤ bigintMax := by
      unfold countWith at hcount ⊢
      rw [hlength]
      exact hcount
    obtain ⟨r, s₂, db', es', lost, hrun₂, h₂⟩ := returns_answerWith (p := p) henv h₁ toolName q
      (searchLimit maxResults) ((instructionOverride p).find (sanitize q)) hcount'
    refine ⟨r, s₂, db', es', lost, ?_, h₂⟩
    unfold searchTool
    rw [hquery]
    dsimp only
    rw [bind_ok hguard]
    dsimp only
    unfold searchAccepted
    rw [currentApiKey_ok]
    exact (bind_ok hretrieved).trans hrun₂
  cases hright with
  | @rejected q reason hquery hreject =>
      obtain ⟨s₁, entry, hrun₁, h₁⟩ := h.validate_rejects henv.audits hreject
      have hguard : guardQuery p env (.apiKey key) q s = (.ok (.error reason), s₁) :=
        tryCatch_error (bind_error hrun₁)
      refine ⟨.fragments [queryRejected reason], s₁, db, _, [], ?_, h₁⟩
      unfold searchTool
      rw [hquery]
      exact bind_ok hguard
  | exceeded hquery haccept hrows hcount _ => exact haccepted _ _ hquery haccept hrows hcount
  | found hquery haccept hrows hcount _ => exact haccepted _ _ hquery haccept hrows hcount

theorem foundByText_some (henv : env.Undisturbed) {maxResults : Option Int} {q : JString}
    {rows : List DocumentChunk} (h : MatchesText p db key q (searchLimit maxResults) rows) :
    ∃ rows', foundByText p env maxResults db key q = some rows' ∧ rows'.length = rows.length := by
  obtain ⟨hlimit, text, htext, hrows⟩ := h
  refine ⟨((findableRows p db key).filter fun row =>
    p.matchesFrench (row.textPreview.getD "") text).take (searchLimit maxResults).toNat, ?_, ?_⟩
  · unfold foundByText selectByText
    rw [henv.selects, if_neg Bool.false_ne_true, htext, visibleRows_readable]
    simp only [Option.bind_eq_bind, Option.bind_some]
    rw [filter_findable (fun row => p.matchesFrench (row.textPreview.getD "") text)]
    exact if_neg (Int.not_lt.mpr hlimit)
  · rw [List.length_take, hrows.length]

theorem foundByVector_some (henv : env.Undisturbed) {maxResults : Option Int} {q : JString}
    {rows : List DocumentChunk} (h : NearestByVector p db key q (searchLimit maxResults) rows) :
    ∃ rows', foundByVector p env maxResults db key q = some rows' ∧ rows'.length = rows.length := by
  obtain ⟨hlimit, v, hv, haccepts, hdimensions, hrows⟩ := h
  refine ⟨((embeddedRows p db key).mergeSort fun row row' =>
    p.closer v (vectorOf row) (vectorOf row')).take (searchLimit maxResults).toNat, ?_, ?_⟩
  · have hall : (embeddedRows p db key).all
        (fun row => decide ((row.embedding.getD []).length = v.length)) = true :=
      List.all_eq_true.mpr fun row hrow => decide_eq_true (hdimensions row hrow)
    unfold foundByVector selectByVector
    rw [henv.embeds, henv.selects, if_neg Bool.false_ne_true, hv, Option.bind_some,
      if_neg Bool.false_ne_true, if_pos haccepts, visibleRows_readable]
    simp only [Option.bind_eq_bind, Option.bind_some]
    rw [filter_findable (fun row => row.embedding.isSome)]
    show (if (embeddedRows p db key).all _ = true then _ else none) = _
    rw [if_pos hall]
    exact if_neg (Int.not_lt.mpr hlimit)
  · rw [List.length_take, List.length_mergeSort, hrows.length]

/-! ## The structured query -/

theorem queryAnswer_some (henv : env.Undisturbed) {t : Table} {filters : Option Filters}
    (maxRows : Option Int)
    (hfilters : ∀ f ∈ filterEntries filters, Askable (buildColumnList t key.role) f) :
    accessDenied key.role (jstr t.name) filters = false ∧
      ∃ rows, queryAnswer p env key (jstr t.name) filters maxRows db = some rows := by
  have hfind : (allowedTables.find? fun t' => jstr t'.name = jstr t.name) = some t := by
    cases t <;> decide
  obtain ⟨conds, hconds, himages⟩ := mapM_of_images
    (f := fun f : Option JString × Option JString =>
      ((buildColumnList t key.role).find? fun c => f.1 = some (jstr c.sqlName)).map fun c => (c, f.2))
    fun f hf => by
      obtain ⟨c, hc, -⟩ := hfilters f hf
      exact ⟨(c, f.2), by rw [hc]; rfl⟩
  obtain ⟨bound, hbound, -⟩ := mapM_of_images (f := bindCondition) (l := conds) fun cond hcond => by
    obtain ⟨f, hf, himage⟩ := himages cond hcond
    obtain ⟨c, hc, hvalue⟩ := hfilters f hf
    rw [hc, Option.map_some, Option.some.injEq] at himage
    rw [← himage]
    cases hv : f.2 with
    | none => exact ⟨_, rfl⟩
    | some value =>
        obtain ⟨htext, hbind⟩ := hvalue value hv
        obtain ⟨text, htext'⟩ := Option.isSome_iff_exists.mp hbind
        exact ⟨(c, some text), by simp [bindCondition, htext, htext']⟩
  have hconds' : conditions (buildColumnList t key.role) filters = some conds := hconds
  constructor
  · simp [accessDenied, hfind, hconds']
  · rw [queryAnswer_allowed hfind hconds', henv.selects, if_neg Bool.false_ne_true]
    unfold selectRows
    rw [hbound, tableRows_records]
    exact ⟨_, rfl⟩

/-! ## Every tool -/

theorem returns_toolBody (henv : env.Undisturbed) (h : Pending (.apiKey key) db [] [] false s)
    {call : ToolCall} {r : ToolResult} (hright : Answers p env.now db key call r) :
    Returns key (toolBody p env (.apiKey key) call) s := by
  cases call with
  | listSources =>
      obtain ⟨s', hlog, h'⟩ := h.log_ok (henv.audits ⟨"list_sources", some key.id, [],
        jstr "role=" ++ jstr key.role.name ++ jstr ", listed " ++
          jstr (sourcesFor key.role).length.repr ++ jstr " sources"⟩)
      exact ⟨_, s', db, _, [], bind_ok hlog, h'⟩
  | queryDatabase table filters maxRows =>
      cases hright with
      | rows htable hfilters _ =>
          obtain ⟨hallowed, rows, hrows⟩ := queryAnswer_some henv maxRows hfilters
          obtain ⟨s', entry, hrun, h'⟩ := h.queryDatabase_ok henv.audits hallowed hrows
          rw [htable]
          exact ⟨_, s', db, _, [], hrun, h'⟩
  | searchDocuments query maxResults =>
      exact returns_searchTool henv h "search_documents" (retrieves_byText p env maxResults db)
        (fun _ _ => foundByText_some henv) hright
  | semanticSearchDocuments query maxResults =>
      exact returns_searchTool henv h "semantic_search_documents"
        (retrieves_byVector p env maxResults db) (fun _ _ => foundByVector_some henv) hright

end Calls

/-! ## Whole calls -/

/-- **Which calls are answered.** With nothing failing, a call that the key may make is answered
exactly when it has a right result. -/
theorem answered_iff {p : Platform} (hdistance : p.OrdersDistances) {env : Env}
    (henv : env.Undisturbed) {key : ApiKey} {call : ToolCall}
    (hallow : allowlistRejects (.apiKey key) call.toolName = none) (g : GatewayState) :
    (∃ r, answer p ⟨env, .apiKey key, call⟩ g = .ok r) ↔ ∃ r, Answers p env.now g.db key call r := by
  constructor
  · rintro ⟨r, h⟩
    exact ⟨r, answers_exactly hdistance rfl h⟩
  · rintro ⟨r, hright⟩
    have hstart : startError env = none := by
      unfold startError
      rw [henv.outerBegins, henv.sets, henv.sets]
      rfl
    obtain ⟨r', s', db, es, lost, hrun, hpending⟩ :=
      returns_toolBody henv (pending_inContext (.apiKey key) g) hright
    obtain ⟨out, s, hrun', -, -, hinvoke⟩ :=
      invoke_reached p ⟨env, .apiKey key, call⟩ hallow hstart g
    rw [show toolBody p env (.apiKey key) call (inContext (.apiKey key) g.session) = _ from hrun]
      at hrun'
    cases hrun'
    refine ⟨r', ?_⟩
    unfold answer
    rw [hinvoke, Session.finish_commit rules hpending.tx ⟨rfl, rfl, rfl, henv.outerCommits⟩]

/-- The administrator's query for the plan is answered. -/
theorem plan_answered : ∃ r, answer (samplePlatform true)
    ⟨calmEnv, .apiKey (sampleKey .admin 2), documentsQuery⟩ (oneDocument planRow planRow_fits)
      = .ok r := by
  have henv : calmEnv.Undisturbed :=
    ⟨rfl, rfl, rfl, rfl, fun _ => rfl, fun _ => rfl, rfl, rfl, fun _ => rfl, rfl⟩
  refine (answered_iff (sample_orders true) henv rfl _).mpr
    ⟨_, .rows (t := .documentChunks) rfl ?_ (limited_take _ _)⟩
  intro f hf
  cases hf

end McpGateway.Gateway
