import McpGateway.Foundation.Keyed
import McpGateway.Foundation.Selection
import McpGateway.Gateway.Audit
import McpGateway.Gateway.Contents
import McpGateway.Gateway.Counted

/-! # What the tools mean

A call has a meaning in terms of the tables alone, with no transaction, statement or aspect in it:
`Answers` says which results are right for a key.

* `answers_exactly` — what the gateway answers is right, whatever fails during the call. Where a
  chunk cannot be fetched it puts an empty text in its place and goes on, but the failed statement
  has aborted the transaction, and the fragments never leave. -/

namespace McpGateway.Gateway

open Foundation Foundation.Act

/-! ## The meaning of a call -/

/-- The rows of `document_chunks` a key may see. -/
def readableRows (p : Platform) (db : Database) (key : ApiKey) : List DocumentChunk :=
  if p.rlsEnforced then db.chunks.filter (mayRead db.grants key) else db.chunks

/-- Those a search may find. -/
def findableRows (p : Platform) (db : Database) (key : ApiKey) : List DocumentChunk :=
  (readableRows p db key).filter fun row =>
    key.role.canAccessConfidential || row.classification ≠ .confidential

/-- The rows of a table a key may query. -/
def records (p : Platform) (db : Database) (key : ApiKey) : Table → List TableRow
  | .employees => db.employees.map Employee.row
  | .documentChunks => (readableRows p db key).map chunkRow

/-- The row has, in the column each filter names, the filter's text. -/
def satisfies (cols : List Column) (filters : Option Filters) (row : TableRow) : Bool :=
  (filterEntries filters).all fun f => (cols.find? fun c => f.1 = some (jstr c.sqlName)).any fun c =>
    (f.2.bind bindText).any fun t => row c = .text t

/-- The filter names a column of the list and can be asked of it: it is null, or a text for a column
of texts. -/
def Askable (cols : List Column) (filter : Option JString × Option JString) : Prop :=
  ∃ c, (cols.find? fun c => filter.1 = some (jstr c.sqlName)) = some c ∧
    ∀ value, filter.2 = some value → c.isText = true ∧ (bindText value).isSome = true

/-- `<=>` compares distances. -/
structure Platform.OrdersDistances (p : Platform) : Prop where
  trans : ∀ q u v w, p.closer q u v = true → p.closer q v w = true → p.closer q u w = true
  total : ∀ q v w, (p.closer q v w || p.closer q w v) = true

def vectorOf (row : DocumentChunk) : Vector32 := row.embedding.getD []

/-- `rows` are what a search with this sanitized query and limit is for. -/
abbrev SearchMeaning := (q : JString) → (limit : Int) → (rows : List DocumentChunk) → Prop

/-- The rows with the words of the query. That they come in the order of the table is assumed: the
`SELECT` has no `ORDER BY`. -/
def MatchesText (p : Platform) (db : Database) (key : ApiKey) : SearchMeaning :=
  fun q limit rows => 0 ≤ limit ∧ ∃ text, bindText q = some text ∧
    Limited limit.toNat
      ((findableRows p db key).filter fun row => p.matchesFrench (row.textPreview.getD "") text) rows

/-- The rows that have a vector. -/
def embeddedRows (p : Platform) (db : Database) (key : ApiKey) : List DocumentChunk :=
  (findableRows p db key).filter fun row => row.embedding.isSome

/-- The rows nearest to the query; all must have its dimension. -/
def NearestByVector (p : Platform) (db : Database) (key : ApiKey) : SearchMeaning :=
  fun q limit rows => 0 ≤ limit ∧ ∃ v, p.embed q = some v ∧ p.acceptsVector v = true ∧
    (∀ row ∈ embeddedRows p db key, (vectorOf row).length = v.length) ∧
    Nearest (fun row row' => p.closer v (vectorOf row) (vectorOf row') = true) limit.toNat
      (embeddedRows p db key) rows

/-- The fragment of a row. -/
def fragmentFor (p : Platform) (row : DocumentChunk) : DataFragment := fragmentOf row (textOf p row)

/-- The key's count in the hour with these rows. -/
def countWith (db : Database) (now : Nat) (key : ApiKey) (rows : List DocumentChunk) : Nat :=
  storedCount db key.id (windowStart now) + rows.length

/-- The right results of a search: its query is refused, its rows are too many for the hour, or
their fragments. -/
inductive SearchAnswers (p : Platform) (now : Nat) (db : Database) (key : ApiKey)
    (meaning : SearchMeaning) (query : Option JString) (maxResults : Option Int) :
    ToolResult → Prop
  | rejected {q : JString} {reason : String} (hquery : acceptedQuery query = some q)
      (hreject : rejection p q = some reason) :
      SearchAnswers p now db key meaning query maxResults (.fragments [queryRejected reason])
  | exceeded {q : JString} {rows : List DocumentChunk} (hquery : acceptedQuery query = some q)
      (haccept : rejection p q = none) (hrows : meaning (sanitize q) (searchLimit maxResults) rows)
      (hcount : countWith db now key rows ≤ bigintMax)
      (hcap : p.hourlyCap < countWith db now key rows) :
      SearchAnswers p now db key meaning query maxResults
        (.fragments [budgetExceeded (secondsUntilNextHour now)])
  | found {q : JString} {rows : List DocumentChunk} (hquery : acceptedQuery query = some q)
      (haccept : rejection p q = none) (hrows : meaning (sanitize q) (searchLimit maxResults) rows)
      (hcount : countWith db now key rows ≤ bigintMax)
      (hcap : countWith db now key rows ≤ p.hourlyCap) :
      SearchAnswers p now db key meaning query maxResults (.fragments (rows.map (fragmentFor p)))

/-- The right results of a structured query: the visible columns of the rows that satisfy its
filters. -/
inductive QueryAnswers (p : Platform) (db : Database) (key : ApiKey) (table : Option JString)
    (filters : Option Filters) (maxRows : Option Int) : ToolResult → Prop
  | rows {t : Table} {found : List TableRow} (htable : table = some (jstr t.name))
      (hfilters : ∀ f ∈ filterEntries filters, Askable (buildColumnList t key.role) f)
      (hfound : Limited (rowLimit maxRows)
        ((records p db key t).filter (satisfies (buildColumnList t key.role) filters)) found) :
      QueryAnswers p db key table filters maxRows (.rows (found.map fun row =>
        (buildColumnList t key.role).map fun c => (c.sqlName, row c)))

/-- `r` is a right result of the call. -/
def Answers (p : Platform) (now : Nat) (db : Database) (key : ApiKey) (call : ToolCall)
    (r : ToolResult) : Prop :=
  match call with
  | .listSources => r = .sources key.role.name (sourcesFor key.role)
  | .queryDatabase table filters maxRows => QueryAnswers p db key table filters maxRows r
  | .searchDocuments query maxResults =>
      SearchAnswers p now db key (MatchesText p db key) query maxResults r
  | .semanticSearchDocuments query maxResults =>
      SearchAnswers p now db key (NearestByVector p db key) query maxResults r

/-! ## What the statements find -/

section Statements

variable {p : Platform} {db : Database} {key : ApiKey}

theorem visibleRows_readable :
    visibleRows p.rlsEnforced db (settingsOf key) = some (readableRows p db key) := by
  unfold readableRows
  cases p.rlsEnforced with
  | true => exact visibleRows_settingsOf db key
  | false => rfl

theorem readableRows_subset : readableRows p db key ⊆ db.chunks :=
  visibleRows_subset visibleRows_readable

/-- The `IN` list is the rank of the role. -/
theorem allowed_iff (role : AccessRole) (row : DocumentChunk) :
    row.classification ∈ allowedClassifications role ↔
      (role.canAccessConfidential || row.classification ≠ .confidential) = true := by
  cases role <;> cases row.classification <;> decide

theorem filter_findable (test : DocumentChunk → Bool) :
    (readableRows p db key).filter (fun row =>
        row.classification ∈ allowedClassifications key.role ∧ test row = true)
      = (findableRows p db key).filter test := by
  unfold findableRows
  rw [List.filter_filter]
  apply List.filter_congr
  intro row _
  simp only [allowed_iff]
  cases test row <;> simp

theorem selectByText_finds {q : JString} {limit : Int} {rows : List DocumentChunk}
    (h : selectByText p q (allowedClassifications key.role) limit db (settingsOf key) = some rows) :
    MatchesText p db key q limit rows := by
  obtain ⟨text, htext, h⟩ := Option.bind_eq_some_iff.mp h
  obtain ⟨visible, hvisible, h⟩ := Option.bind_eq_some_iff.mp h
  rw [visibleRows_readable] at hvisible
  cases hvisible
  rw [filter_findable (fun row => p.matchesFrench (row.textPreview.getD "") text)] at h
  unfold limitRows at h
  split_ifs at h with hlimit
  cases h
  exact ⟨Int.not_lt.mp hlimit, text, htext, limited_take _ _⟩

theorem selectByVector_finds (hdistance : p.OrdersDistances) {q : JString} {v : Vector32}
    (hv : p.embed q = some v) {limit : Int} {rows : List DocumentChunk}
    (h : selectByVector p v (allowedClassifications key.role) limit db (settingsOf key) = some rows) :
    NearestByVector p db key q limit rows := by
  unfold selectByVector at h
  rw [visibleRows_readable] at h
  split_ifs at h with haccepts
  simp only [Option.bind_eq_bind, Option.bind_some] at h
  rw [filter_findable (fun row => row.embedding.isSome)] at h
  split_ifs at h with hdimensions
  unfold limitRows at h
  split_ifs at h with hlimit
  cases h
  refine ⟨Int.not_lt.mp hlimit, v, hv, haccepts, ?_, nearest_take_mergeSort ?_ ?_ _ _⟩
  · intro row hrow
    exact of_decide_eq_true (List.all_eq_true.mp hdimensions row hrow)
  · exact fun a b c => hdistance.trans v _ _ _
  · exact fun a b => hdistance.total v _ _

/-- Binding the filters is satisfying them. -/
theorem rowMatches_eq {cols : List Column} {filters : Option Filters}
    {conds : List (Column × Option JString)} {bound : List (Column × Option String)}
    (hconds : conditions cols filters = some conds) (hbound : conds.mapM bindCondition = some bound)
    (row : TableRow) : rowMatches bound row = satisfies cols filters row := by
  have hcond : rowMatches bound row
      = conds.all fun cond => (cond.2.bind bindText).any fun t => row cond.1 = .text t := by
    unfold rowMatches
    apply all_of_mapM hbound
    rintro ⟨c, v⟩ b hb
    cases v with
    | none =>
        cases hb
        rfl
    | some v =>
        unfold bindCondition at hb
        dsimp only at hb
        split_ifs at hb
        obtain ⟨t, ht, rfl⟩ := Option.map_eq_some_iff.mp hb
        simp [ht]
  have hentry : conds.all (fun cond => (cond.2.bind bindText).any fun t => row cond.1 = .text t)
      = satisfies cols filters row := by
    unfold satisfies
    apply all_of_mapM hconds
    rintro ⟨k, v⟩ cond hfind
    obtain ⟨c, hc, rfl⟩ := Option.map_eq_some_iff.mp hfind
    simp [hc]
  exact hcond.trans hentry

theorem askable_of_bound {cols : List Column} {filters : Option Filters}
    {conds : List (Column × Option JString)} {bound : List (Column × Option String)}
    (hconds : conditions cols filters = some conds) (hbound : conds.mapM bindCondition = some bound) :
    ∀ f ∈ filterEntries filters, Askable cols f := by
  rintro ⟨k, v⟩ hf
  obtain ⟨cond, hcond, hfind⟩ := image_of_mapM hconds hf
  obtain ⟨c, hc, rfl⟩ := Option.map_eq_some_iff.mp hfind
  obtain ⟨b, -, hbind⟩ := image_of_mapM hbound hcond
  refine ⟨c, hc, ?_⟩
  rintro value rfl
  unfold bindCondition at hbind
  dsimp only at hbind
  split_ifs at hbind with htext
  obtain ⟨t, ht, -⟩ := Option.map_eq_some_iff.mp hbind
  exact ⟨htext, by rw [ht]; rfl⟩

theorem tableRows_records (t : Table) :
    tableRows p t db (settingsOf key) = some (records p db key t) := by
  cases t with
  | employees => rfl
  | documentChunks =>
      unfold tableRows
      dsimp only
      rw [visibleRows_readable]
      rfl

theorem selectRows_finds {t : Table} {filters : Option Filters} {maxRows : Option Int}
    {conds : List (Column × Option JString)} {rows : List SqlRow}
    (hconds : conditions (buildColumnList t key.role) filters = some conds)
    (h : selectRows p t (buildColumnList t key.role) conds (rowLimit maxRows) db (settingsOf key)
      = some rows) :
    QueryAnswers p db key (some (jstr t.name)) filters maxRows (.rows rows) := by
  obtain ⟨bound, hbound, h⟩ := Option.bind_eq_some_iff.mp h
  rw [tableRows_records] at h
  have hmatch : rowMatches bound = satisfies (buildColumnList t key.role) filters := by
    funext row
    exact rowMatches_eq hconds hbound row
  simp only [Option.bind_eq_bind, Option.bind_some, hmatch, Option.some.injEq] at h
  cases h
  exact .rows rfl (askable_of_bound hconds hbound) (limited_take _ _)

end Statements

/-! ## During the call -/

/-- A session in a call over the tables `db`, before anything is counted. -/
structure Reading (db : Database) (σ : Settings) (s : GatewaySession) : Prop where
  store : s.store = db
  tx : ∃ t, s.tx = some t ∧ t.settings = σ

/-- The fact holds of what comes, unless a statement has failed. -/
def Unless (φ : Prop) (s : GatewaySession) : Prop := s.isAborted = true ∨ φ

theorem Unless.imp {φ ψ : Prop} {s : GatewaySession} (h : Unless φ s) (himp : φ → ψ) :
    Unless ψ s :=
  Or.imp_right himp h

section Operations

variable {p : Platform} {env : Env} {auth : Authentication} {key : ApiKey} {db : Database}
  {σ : Settings} {α : Type}

/-- What keeps two sessions over the same tables in step keeps one reading them. -/
theorem reading_of_rel {m : GatewayM α} {V : α → Prop}
    (h : Act.Rel (Session.Alike (fun d₁ d₂ => d₁ = db ∧ d₂ = db) σ) m V) :
    Triple (Reading db σ) m (fun a s => Reading db σ s ∧ V a) (fun _ => Reading db σ) := by
  intro s hs
  obtain ⟨t, ht, hσ⟩ := hs.tx
  obtain ⟨-, hrel, hV⟩ := h s s ⟨⟨hs.store, hs.store⟩, rfl, t, ht, ht, hσ⟩
  have hreading : Reading db σ (m s).2 := by
    obtain ⟨t', ht', -, hσ'⟩ := hrel.tx
    exact ⟨hrel.store.1, t', ht', hσ'⟩
  cases hms : m s with
  | mk out s' =>
      rw [hms] at hreading hV
      cases out with
      | ok a => exact ⟨hreading, hV a rfl⟩
      | error e => exact hreading

theorem reading_statement (fails : Bool) (run : Database → Settings → Option α) :
    Triple (Reading db σ) (statement fails run) (fun a s => Reading db σ s ∧ run db σ = some a)
      (fun _ => Reading db σ) := by
  apply reading_of_rel
  apply rel_statement
  rintro d₁ d₂ ⟨rfl, rfl⟩
  exact ⟨rfl, fun _ h => h⟩

/-! ### The guard -/

/-- An audit that fails is passed over. -/
theorem reading_audit {entry : AuditEntry} {E : Throwable → GatewaySession → Prop} :
    Triple (Reading db σ) (tryCatch (log env entry) fun _ => pure ()) (fun _ => Reading db σ) E := by
  have hlog : Triple (Reading db σ) (log env entry) (fun _ => Reading db σ) (fun _ => Reading db σ) := by
    apply (reading_of_rel (rel_log entry)).mono
    · exact fun _ hs => hs
    · exact fun _ _ hs => hs.1
    · exact fun _ _ hs => hs
  exact hlog.tryCatch fun _ => Triple.pure fun _ hs => hs

/-- What the guard makes of a query. -/
def Guards (p : Platform) (q : JString) : Except String ValidationResult → Prop
  | .error reason => rejection p q = some reason
  | .ok result => rejection p q = none ∧ result.sanitizedQuery = sanitize q

theorem reading_rejected {q : JString} {reason : String} (hreject : rejection p q = some reason) :
    Triple (Reading db σ) (validate p env auth (some q)) (fun _ _ => False)
      (fun e s => e = .toolInputRejected reason ∧ Reading db σ s) := by
  obtain ⟨pattern, metric, hvalidate⟩ := validate_rejected env auth hreject
  rw [hvalidate]
  apply Triple.bind reading_audit
  intro _
  exact Triple.throw fun _ hs => ⟨rfl, hs⟩

theorem reading_accepted {q : JString} (haccept : rejection p q = none) :
    Triple (Reading db σ) (validate p env auth (some q))
      (fun result s => Reading db σ s ∧ result.sanitizedQuery = sanitize q) (fun _ _ => False) := by
  rw [validate_accepted env auth haccept]
  apply Triple.bind (Q := fun _ => Reading db σ)
  · exact Triple.when (fun _ => reading_audit) fun _ _ hs => hs
  intro _
  apply Triple.bind (Q := fun _ => Reading db σ)
  · exact Triple.when (fun _ => reading_audit) fun _ _ hs => hs
  intro _
  exact Triple.pure fun _ hs => ⟨hs, rfl⟩

theorem reading_guardQuery (q : JString) {E : Throwable → GatewaySession → Prop} :
    Triple (Reading db σ) (guardQuery p env auth q)
      (fun out s => Reading db σ s ∧ Guards p q out) E := by
  unfold guardQuery
  cases hreject : rejection p q with
  | some reason =>
      apply Triple.tryCatch
      · apply Triple.bind (reading_rejected hreject)
        exact fun _ s hs => hs.elim
      · intro e
        rintro s ⟨rfl, hs⟩
        exact ⟨hs, hreject⟩
  | none =>
      apply Triple.tryCatch
      · apply Triple.bind (reading_accepted hreject)
        intro result
        exact Triple.pure fun _ hs => ⟨hs.1, hreject, hs.2⟩
      · exact fun _ _ hs => hs.elim

/-! ### The fragments -/

/-- A chunk that was found is fetched with its text, or its statement fails. -/
theorem reading_fetchChunk {row : DocumentChunk} (hrow : row ∈ readableRows p db key) (φ : Prop)
    {E : Throwable → GatewaySession → Prop} :
    Triple (fun s => Reading db (settingsOf key) s ∧ Unless φ s) (fetchChunk p env row.id)
      (fun text s => Reading db (settingsOf key) s ∧ Unless (φ ∧ text = textOf p row) s) E := by
  rw [fetchChunk_eq]
  rintro s ⟨hs, hφ⟩
  obtain ⟨t, ht, hσ⟩ := hs.tx
  rw [tryCatch_apply, bind_apply]
  cases hans : statementAnswer (env.fetchFails row.id) (fun db s =>
      (visibleRows p.rlsEnforced db s).map (·.find? fun r => r.id = row.id)) s with
  | none =>
      rw [statement_none hans]
      refine ⟨⟨hs.store, { t with aborted := true }, ?_, hσ⟩, Or.inl ?_⟩
      · simp [Session.onTx, ht]
      · simp [Session.isAborted, Session.onTx, ht]
  | some found =>
      rw [statement_some hans]
      refine ⟨hs, hφ.imp fun h => ⟨h, ?_⟩⟩
      have hrun : (visibleRows p.rlsEnforced db (settingsOf key)).map
          (·.find? fun r => r.id = row.id) = some found := by
        unfold statementAnswer at hans
        split_ifs at hans
        rw [hs.store] at hans
        simpa [Session.settings, ht, hσ] using hans
      have hfind : (readableRows p db key).find? (fun r => r.id = row.id) = some row := by
        have hsub : (readableRows p db key).Sublist db.chunks := by
          unfold readableRows
          split_ifs
          · exact List.filter_sublist
          · exact List.Sublist.refl _
        exact find?_of_nodup (db.chunks_pk.sublist (hsub.map _)) hrow
      rw [visibleRows_readable, Option.map_some, hfind, Option.some.injEq] at hrun
      rw [← hrun]
      rfl

theorem reading_fetchFragments {rows : List DocumentChunk}
    (hrows : ∀ row ∈ rows, row ∈ readableRows p db key) (φ : Prop)
    {E : Throwable → GatewaySession → Prop} :
    Triple (fun s => Reading db (settingsOf key) s ∧ Unless φ s) (fetchFragments p env rows)
      (fun fragments s => Reading db (settingsOf key) s ∧ fragments.length = rows.length ∧
        Unless (φ ∧ fragments = rows.map (fragmentFor p)) s) E := by
  induction rows generalizing φ with
  | nil => exact Triple.pure fun _ hs => ⟨hs.1, rfl, hs.2.imp fun h => ⟨h, rfl⟩⟩
  | cons row rows ih =>
      unfold fetchFragments
      apply Triple.bind (reading_fetchChunk (hrows row List.mem_cons_self) φ)
      intro text
      apply Triple.bind
        (ih (fun r hr => hrows r (List.mem_cons_of_mem _ hr)) (φ ∧ text = textOf p row))
      intro fragments
      apply Triple.pure
      rintro s ⟨hs, hlength, hφ⟩
      refine ⟨hs, congrArg Nat.succ hlength, hφ.imp ?_⟩
      rintro ⟨⟨h, rfl⟩, rfl⟩
      exact ⟨h, rfl⟩

/-! ### The budget -/

/-- What the budget says of a count. -/
def Spends (p : Platform) (env : Env) (db : Database) (key : ApiKey) (count : Nat) :
    Option Nat → Prop
  | none => storedCount db key.id (windowStart env.now) + count ≤ bigintMax ∧
      ((storedCount db key.id (windowStart env.now) + count : Nat) : Int) ≤ p.hourlyCap
  | some retryAfterSeconds => storedCount db key.id (windowStart env.now) + count ≤ bigintMax ∧
      p.hourlyCap < ((storedCount db key.id (windowStart env.now) + count : Nat) : Int) ∧
      retryAfterSeconds = secondsUntilNextHour env.now

/-- The total there is, is the count with the chunks. -/
theorem budgetTotal_some {count total : Nat}
    (h : budgetTotal env db key.id count = some total) :
    total = storedCount db key.id (windowStart env.now) + count ∧ total ≤ bigintMax := by
  unfold budgetTotal upsertTotal at h
  dsimp only at h
  split_ifs at h with _ hmax
  cases h
  have hcount : (max 0 (count : Int)).toNat = count := by omega
  rw [hcount] at hmax ⊢
  exact ⟨rfl, hmax⟩

/-- The budget leaves the transaction of the call alone. -/
theorem reading_commitChunks (φ : Prop) (count : Nat) :
    Triple (fun s => Reading db σ s ∧ Unless φ s) (commitChunks p env (some key.id) count)
      (fun _ s => Unless (φ ∧ Spends p env db key count none) s)
      (fun e s => ∀ retryAfterSeconds, e = .budgetExceeded retryAfterSeconds →
        Unless (φ ∧ Spends p env db key count (some retryAfterSeconds)) s) := by
  rintro s ⟨hs, hφ⟩
  rw [commitChunks_apply, hs.store]
  by_cases hbegin : env.inner.beginFails = true
  · rw [if_pos hbegin]
    rintro _ ⟨⟩
  rw [if_neg hbegin]
  cases htotal : budgetTotal env db key.id count with
  | none => rintro _ ⟨⟩
  | some total =>
      obtain ⟨rfl, hmax⟩ := budgetTotal_some htotal
      dsimp only
      by_cases hcap : ((storedCount db key.id (windowStart env.now) + count : Nat) : Int)
          > p.hourlyCap
      · rw [if_pos hcap]
        intro retryAfterSeconds hretry
        split_ifs at hretry
        cases hretry
        exact hφ.imp fun h => ⟨h, hmax, hcap, rfl⟩
      · rw [if_neg hcap]
        by_cases hcommit : env.inner.commitFails = true
        · rw [if_pos hcommit]
          rintro _ ⟨⟩
        · rw [if_neg hcommit]
          exact hφ.imp fun h => ⟨h, hmax, Int.not_lt.mp hcap⟩

theorem reading_spendBudget (φ : Prop) (count : Nat) :
    Triple (fun s => Reading db σ s ∧ Unless φ s) (spendBudget p env key.id count)
      (fun exceeded s => Unless (φ ∧ Spends p env db key count exceeded) s) (fun _ _ => True) := by
  unfold spendBudget
  apply Triple.tryCatch
  · apply Triple.bind (reading_commitChunks φ count)
    exact fun _ => Triple.pure fun _ hs => hs
  · intro e
    cases e
    case budgetExceeded retryAfterSeconds => exact Triple.pure fun _ hs => hs _ rfl
    all_goals exact Triple.throw fun _ _ => trivial

theorem unless_log (φ : Prop) (entry : AuditEntry) :
    Triple (Unless φ) (log env entry) (fun _ => Unless φ) (fun _ _ => True) := by
  intro s hs
  unfold log
  split_ifs
  · trivial
  · have haborted : (s.write rules (.audit entry)).isAborted = s.isAborted := by
      unfold Session.write Session.isAborted
      cases s.tx <;> rfl
    show Unless φ (s.write rules (.audit entry))
    unfold Unless
    rw [haborted]
    exact hs

/-! ### The tools -/

/-- From a reading session the body has a right result, unless a statement has failed. -/
def Means (db : Database) (key : ApiKey) (m : GatewayM ToolResult) (R : ToolResult → Prop) :
    Prop :=
  Triple (Reading db (settingsOf key)) m (fun r s => Unless (R r) s) (fun _ _ => True)

theorem means_throw {R : ToolResult → Prop} (e : Throwable) :
    Means db key (throw e) R :=
  Triple.throw fun _ _ => trivial

/-- The end of a tool. -/
theorem means_log {R : ToolResult → Prop} {r : ToolResult} (φ : Prop) (h : φ → R r)
    (entry : AuditEntry) :
    Triple (Unless φ)
      (do
        log env entry
        pure r)
      (fun r s => Unless (R r) s) (fun _ _ => True) := by
  apply Triple.bind (unless_log φ entry)
  intro _
  exact Triple.pure fun _ hs => hs.imp h

theorem means_answerWith {R : ToolResult → Prop} (toolName : String) (q : JString)
    (limit : Int) (flagged : Bool) {rows : List DocumentChunk}
    (hrows : ∀ row ∈ rows, row ∈ readableRows p db key)
    (hfound : Spends p env db key rows.length none → R (.fragments (rows.map (fragmentFor p))))
    (hexceeded : ∀ n, Spends p env db key rows.length (some n) →
      R (.fragments [budgetExceeded n])) :
    Means db key (answerWith p env toolName key q limit flagged rows) R := by
  unfold answerWith
  apply Triple.bind (Q := fun fragments s => Reading db (settingsOf key) s ∧
    fragments.length = rows.length ∧ Unless (True ∧ fragments = rows.map (fragmentFor p)) s)
  · apply (reading_fetchFragments hrows True (E := fun _ _ => True)).mono
    · exact fun _ hs => ⟨hs, Or.inr trivial⟩
    · exact fun _ _ hs => hs
    · exact fun _ _ _ => trivial
  intro fragments
  rintro s ⟨hs, hlength, hfragments⟩
  rw [hlength]
  refine Triple.bind (reading_spendBudget _ rows.length) ?_ s ⟨hs, hfragments⟩
  intro exceeded
  cases exceeded with
  | some n => exact Triple.pure fun _ hs => hs.imp fun h => hexceeded n h.2
  | none =>
      apply means_log
      rintro ⟨⟨-, rfl⟩, hspends⟩
      exact hfound hspends

/-- A search whose retrieval finds what is meant. -/
theorem means_searchTool (toolName : String) {retrieve : Retrieval} {meaning : SearchMeaning}
    (hretrieve : ∀ q limit, Triple (Reading db (settingsOf key)) (retrieve key.role q limit)
      (fun rows s => Reading db (settingsOf key) s ∧ meaning q limit rows) (fun _ _ => True))
    (hmeaning : ∀ q limit rows, meaning q limit rows → ∀ row ∈ rows, row ∈ readableRows p db key)
    (query : Option JString) (maxResults : Option Int) :
    Means db key (searchTool p env (.apiKey key) toolName retrieve query maxResults)
      (SearchAnswers p env.now db key meaning query maxResults) := by
  unfold searchTool
  cases hquery : acceptedQuery query with
  | none => exact means_throw _
  | some q =>
      apply Triple.bind (reading_guardQuery q)
      intro out
      cases out with
      | error reason =>
          apply Triple.pure
          rintro s ⟨-, hreject⟩
          exact Or.inr (.rejected hquery hreject)
      | ok result =>
          rintro s ⟨hs, haccept, hsanitized⟩
          dsimp only
          unfold searchAccepted currentApiKey
          rw [bind_ok (show (pure key : GatewayM ApiKey) s = (.ok key, s) from rfl), hsanitized]
          refine Triple.bind (hretrieve _ _) ?_ s hs
          intro rows
          rintro s ⟨hs, hrows⟩
          apply means_answerWith toolName q _ _ (hmeaning _ _ _ hrows) ?_ ?_ s hs
          · exact fun h => .found hquery haccept hrows h.1 h.2
          · rintro _ ⟨hmax, hcap, rfl⟩
            exact .exceeded hquery haccept hrows hmax hcap

theorem findable_readable {row : DocumentChunk} {test : DocumentChunk → Bool}
    (h : row ∈ (findableRows p db key).filter test) : row ∈ readableRows p db key :=
  List.mem_of_mem_filter (List.mem_of_mem_filter h)

theorem means_searchDocuments (query : Option JString) (maxResults : Option Int) :
    Means db key (searchDocuments p env (.apiKey key) query maxResults)
      (SearchAnswers p env.now db key (MatchesText p db key) query maxResults) := by
  apply means_searchTool
  · intro q limit
    apply (reading_statement _ _).mono
    · exact fun _ hs => hs
    · exact fun _ _ hs => ⟨hs.1, selectByText_finds hs.2⟩
    · exact fun _ _ _ => trivial
  · rintro q limit rows ⟨-, text, -, hrows⟩ row hrow
    exact findable_readable (hrows.sublist.subset hrow)

theorem means_semanticSearchDocuments (hdistance : p.OrdersDistances) (query : Option JString)
    (maxResults : Option Int) :
    Means db key (semanticSearchDocuments p env (.apiKey key) query maxResults)
      (SearchAnswers p env.now db key (NearestByVector p db key) query maxResults) := by
  apply means_searchTool
  · intro q limit
    apply Triple.bind (Q := fun v s => Reading db (settingsOf key) s ∧ p.embed q = some v)
    · unfold embed
      apply Triple.ite
      · exact fun _ => Triple.throw fun _ _ => trivial
      · intro _
        cases p.embed q with
        | some v => exact Triple.pure fun _ hs => ⟨hs, rfl⟩
        | none => exact Triple.throw fun _ _ => trivial
    · intro v
      apply Triple.assume
      intro hv
      apply (reading_statement _ _).mono
      · exact fun _ hs => hs
      · exact fun _ _ hs => ⟨hs.1, selectByVector_finds hdistance hv hs.2⟩
      · exact fun _ _ _ => trivial
  · rintro q limit rows ⟨-, v, -, -, -, hrows⟩ row hrow
    exact findable_readable (hrows.subperm.subset hrow)

theorem means_query (table : Option JString) (filters : Option Filters) (maxRows : Option Int) :
    Triple (Reading db (settingsOf key)) (query p env table filters key.role (rowLimit maxRows))
      (fun results => Unless (QueryAnswers p db key table filters maxRows (.rows results)))
      (fun _ _ => True) := by
  unfold query
  cases table with
  | none => exact Triple.throw fun _ _ => trivial
  | some name =>
      dsimp only
      cases hfind : allowedTables.find? fun t => jstr t.name = name with
      | none => exact Triple.throw fun _ _ => trivial
      | some t =>
          have hfound := List.find?_some hfind
          have hname : jstr t.name = name := of_decide_eq_true hfound
          dsimp only
          cases hconds : conditions (buildColumnList t key.role) filters with
          | none => exact Triple.throw fun _ _ => trivial
          | some conds =>
              apply (reading_statement _ _).mono
              · exact fun _ hs => hs
              · rw [← hname]
                exact fun _ _ hs => Or.inr (selectRows_finds hconds hs.2)
              · exact fun _ _ _ => trivial

theorem means_queryDatabase (table : Option JString) (filters : Option Filters)
    (maxRows : Option Int) :
    Means db key (queryDatabase p env (.apiKey key) table filters maxRows)
      (QueryAnswers p db key table filters maxRows) := by
  unfold queryDatabase currentApiKey
  intro s hs
  rw [bind_ok (show (pure key : GatewayM ApiKey) s = (.ok key, s) from rfl)]
  refine Triple.bind (Triple.tryCatch (means_query table filters maxRows) ?_) ?_ s hs
  · intro e
    cases e
    case security message =>
      apply Triple.bind (Q := fun _ _ => True)
      · intro s _
        cases log env _ s with
        | mk out s' => cases out <;> trivial
      · exact fun _ => Triple.throw fun _ _ => trivial
    all_goals exact Triple.throw fun _ _ => trivial
  · intro results
    exact means_log _ (fun h => h) _

theorem means_listSources :
    Means db key (listSources env (.apiKey key))
      fun r => r = .sources key.role.name (sourcesFor key.role) := by
  unfold listSources currentApiKey
  intro s hs
  rw [bind_ok (show (pure key : GatewayM ApiKey) s = (.ok key, s) from rfl)]
  exact means_log (R := fun r => r = .sources key.role.name (sourcesFor key.role)) True
    (fun _ => rfl) _ s (Or.inr trivial)

/-- **Every tool has its meaning.** -/
theorem means_toolBody (env : Env) (hdistance : p.OrdersDistances) (call : ToolCall) :
    Means db key (toolBody p env (.apiKey key) call) (Answers p env.now db key call) := by
  cases call with
  | listSources => exact means_listSources
  | queryDatabase table filters maxRows => exact means_queryDatabase table filters maxRows
  | searchDocuments query maxResults => exact means_searchDocuments query maxResults
  | semanticSearchDocuments query maxResults =>
      exact means_semanticSearchDocuments hdistance query maxResults

end Operations

/-! ## Whole calls -/

/-- What the body of a tool means is what its calls answer: a call that has answered has committed,
so no statement of it has failed. -/
theorem Means.answer {p : Platform} {inv : Invocation} {key : ApiKey}
    (hkey : inv.auth = .apiKey key) {g : GatewayState} {R : ToolResult → Prop}
    (hmeans : Means g.db key (toolBody p inv.env (.apiKey key) inv.call) R) {r : ToolResult}
    (h : Gateway.answer p inv g = .ok r) : R r := by
  obtain ⟨s, hrun, haborted⟩ := answer_ran h
  have hreading : Reading g.db (settingsOf key) (inContext inv.auth g.session) := by
    rw [hkey]
    exact ⟨rfl, _, rfl, rfl⟩
  have hbody := hmeans _ hreading
  rw [← hkey, hrun] at hbody
  rcases hbody with hfailed | hright
  · rw [haborted] at hfailed
    cases hfailed
  · exact hright

/-- **Every answer is right.** What the gateway answers a key is a right result of the call over the
tables as they are, whatever fails during it. -/
theorem answers_exactly {p : Platform} (hdistance : p.OrdersDistances) {inv : Invocation}
    {key : ApiKey} (hkey : inv.auth = .apiKey key) {g : GatewayState} {r : ToolResult}
    (h : answer p inv g = .ok r) : Answers p inv.env.now g.db key inv.call r :=
  (means_toolBody inv.env hdistance inv.call).answer hkey h

/-- All distances of the sample platform are equal. -/
theorem sample_orders (rlsEnforced : Bool) : (samplePlatform rlsEnforced).OrdersDistances :=
  ⟨fun _ _ _ _ _ _ => rfl, fun _ _ _ => rfl⟩

/-- The plan is what the administrator's query means. -/
theorem plan_rightly_read : Answers (samplePlatform true) 0 (oneDocument planRow planRow_fits).db
    (sampleKey .admin 2) documentsQuery planRead := by
  have hkey : (Invocation.mk calmEnv (.apiKey (sampleKey .admin 2)) documentsQuery).auth
      = .apiKey (sampleKey .admin 2) := rfl
  have hanswer : answer (samplePlatform true)
      ⟨calmEnv, .apiKey (sampleKey .admin 2), documentsQuery⟩ (oneDocument planRow planRow_fits)
      = .ok planRead := rfl
  exact answers_exactly (sample_orders true) hkey hanswer

end McpGateway.Gateway
