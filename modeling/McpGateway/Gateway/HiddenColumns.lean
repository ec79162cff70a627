import McpGateway.Foundation.Separator
import McpGateway.Gateway.Aspects
import McpGateway.Gateway.PostgresQuery

/-! # Hidden columns

The server reads the text of `PostgresConnector.query`, binds the arguments to its placeholders by
position and runs the statement.

* `connectorQuery_natCast` — running the text is the structured `query`.
* `rel_connectorQuery` — a `READ_ONLY` query cannot tell databases apart that differ in salaries.
* `query_hides_salary` — with that, what the text of every query is made of. -/

namespace McpGateway.Gateway

open Foundation

/-! ## Running the text -/

def SqlArg.value : SqlArg → Option (Option JString)
  | .text value => some value
  | .limit _ => none

/-- The statement with its arguments bound by position. The last placeholder takes a number, the
others take texts. -/
def Select.run (p : Platform) (s : Select) (args : List SqlArg) (db : Database)
    (settings : Settings) : Option (List SqlRow) :=
  match args.getLast? with
  | some (.limit maxRows) => do
      let values ← args.dropLast.mapM SqlArg.value
      if values.length = s.conds.length then
        let bound ← (s.conds.zip values).mapM bindCondition
        let rows ← tableRows p s.table db settings
        let found ← limitRows maxRows (rows.filter (rowMatches bound))
        some (found.map fun row => s.cols.map fun c => (c.sqlName, row c))
      else none
  | _ => none

/-- `queryForList` on the server's side. -/
def runStatement (p : Platform) (stmt : SqlStatement) (db : Database) (settings : Settings) :
    Option (List SqlRow) :=
  (readSelect stmt.sql).bind fun s => s.run p stmt.args db settings

/-- `PostgresConnector.query`. -/
def connectorQuery (p : Platform) (env : Env) (table : Option JString) (filters : Option Filters)
    (role : AccessRole) (maxRows : Int) : GatewayM (List SqlRow) :=
  match queryText table filters role maxRows with
  | .error e => throw e
  | .ok stmt => statement env.selectFails (runStatement p stmt)

theorem buildColumnList_subset (t : Table) (role : AccessRole) :
    ∀ c ∈ buildColumnList t role, c ∈ allColumns t := by
  intro c hc
  cases role with
  | readOnly => exact List.mem_of_mem_filter hc
  | admin => exact hc

/-- The statements of the query are on columns of their table. -/
theorem conds_subset {t : Table} {role : AccessRole} {conds : List (Column × Option JString)}
    (hconds : ∀ c ∈ conds, c.1 ∈ buildColumnList t role) :
    ∀ c ∈ conds.map Prod.fst, c ∈ allColumns t := by
  intro c hc
  obtain ⟨d, hd, rfl⟩ := List.mem_map.mp hc
  exact buildColumnList_subset t role d.1 (hconds d hd)

theorem buildColumnList_ne_nil (t : Table) (role : AccessRole) : buildColumnList t role ≠ [] := by
  cases t <;> cases role <;> decide

theorem mapM_value (values : List (Option JString)) :
    (values.map SqlArg.text).mapM SqlArg.value = some values := by
  induction values with
  | nil => rfl
  | cons v values ih =>
      rw [List.map_cons, List.mapM_cons, ih]
      rfl

/-- What the text of conditions on visible columns selects. -/
theorem runStatement_of_conds (p : Platform) {t : Table} (ht : t ∈ allowedTables) (role : AccessRole)
    {conds : List (Column × Option JString)} (hconds : ∀ c ∈ conds, c.1 ∈ buildColumnList t role)
    (maxRows : Int) (db : Database) (settings : Settings) :
    runStatement p ⟨Select.text ⟨t, buildColumnList t role, conds.map Prod.fst⟩,
        conds.map (fun c => .text c.2) ++ [.limit maxRows]⟩ db settings =
      (conds.mapM bindCondition).bind fun bound => (tableRows p t db settings).bind fun rows =>
        (limitRows maxRows (rows.filter (rowMatches bound))).map fun found =>
          found.map fun row => (buildColumnList t role).map fun c => (c.sqlName, row c) := by
  have hread := readSelect_selectText (s := ⟨t, buildColumnList t role, conds.map Prod.fst⟩) ht
    (buildColumnList_ne_nil t role) (buildColumnList_subset t role) (conds_subset hconds)
  have hvalues : (conds.map fun c => SqlArg.text c.2).mapM SqlArg.value =
      some (conds.map Prod.snd) := by
    rw [← mapM_value (conds.map Prod.snd), List.map_map]
    rfl
  have hzip : (conds.map Prod.fst).zip (conds.map Prod.snd) = conds := by
    rw [List.zip_map']
    exact List.map_id conds
  unfold runStatement
  dsimp only
  rw [hread, Option.bind_some, Select.run, List.getLast?_concat]
  dsimp only
  rw [List.dropLast_concat, hvalues, Option.bind_eq_bind, Option.bind_some, if_pos (by simp), hzip]
  simp only [Option.bind_eq_bind, Option.map_eq_bind]
  rfl

/-! ## The structured query -/

theorem find?_visible {t : Table} {role : AccessRole} {c : Column} (hc : c ∈ buildColumnList t role) :
    ((buildColumnList t role).find? fun c' => some (jstr c.sqlName) = some (jstr c'.sqlName)) =
      some c := by
  have hall : ∀ t ∈ allowedTables, ∀ role ∈ [AccessRole.readOnly, .admin],
      ∀ c ∈ buildColumnList t role, ((buildColumnList t role).find? fun c' =>
        some (jstr c.sqlName) = some (jstr c'.sqlName)) = some c := by
    decide
  cases t <;> cases role <;> exact hall _ (by decide) _ (by decide) c hc

/-- The conditions of the structured query are those of the text. -/
theorem conditions_eq_some_iff {t : Table} {role : AccessRole} {filters : Option Filters}
    {conds : List (Column × Option JString)} :
    conditions (buildColumnList t role) filters = some conds ↔
      filterEntries filters = conds.map (fun c => (some (jstr c.1.sqlName), c.2)) ∧
        ∀ c ∈ conds, c.1 ∈ buildColumnList t role := by
  unfold conditions
  show List.mapM _ (filterEntries filters) = some conds ↔ _
  generalize filterEntries filters = entries
  constructor
  · intro h
    induction entries generalizing conds with
    | nil =>
        cases h
        exact ⟨rfl, by simp⟩
    | cons entry entries ih =>
        obtain ⟨key, value⟩ := entry
        rw [List.mapM_cons] at h
        obtain ⟨cond, hcond, h⟩ := Option.bind_eq_some_iff.mp h
        obtain ⟨rest, hrest, h⟩ := Option.bind_eq_some_iff.mp h
        cases h
        obtain ⟨c, hfind, rfl⟩ := Option.map_eq_some_iff.mp hcond
        obtain ⟨rfl, hvisible⟩ := ih hrest
        have hkey : key = some (jstr c.sqlName) := by simpa using List.find?_some hfind
        refine ⟨by rw [hkey]; rfl, ?_⟩
        intro d hd
        rcases List.mem_cons.mp hd with rfl | hd
        · exact List.mem_of_find?_eq_some hfind
        · exact hvisible d hd
  · rintro ⟨rfl, hvisible⟩
    induction conds with
    | nil => rfl
    | cons c conds ih =>
        have hrest := ih fun d hd => hvisible d (List.mem_cons_of_mem c hd)
        have hfind := find?_visible (hvisible c List.mem_cons_self)
        rw [List.map_cons, List.mapM_cons, hrest]
        dsimp only
        rw [hfind]
        rfl

/-- **The text does what the structured query does.** -/
theorem connectorQuery_natCast (p : Platform) (env : Env) (table : Option JString)
    (filters : Option Filters) (role : AccessRole) (maxRows : Nat) :
    connectorQuery p env table filters role maxRows = query p env table filters role maxRows := by
  unfold connectorQuery query
  rcases queryText_cases table filters role maxRows with
    ⟨t, ht, conds, rfl, hentries, hconds, htext⟩ | ⟨rfl, htext⟩ | ⟨hsome, htext⟩
  · have hconditions := conditions_eq_some_iff.mpr ⟨hentries, hconds⟩
    have hlimit : ∀ rows : List TableRow, limitRows maxRows rows = some (rows.take maxRows) :=
      fun rows => if_neg (by omega)
    rw [htext]
    dsimp only
    rw [find?_allowedTables ht]
    dsimp only
    rw [hconditions]
    congr 1
    funext db settings
    rw [runStatement_of_conds p ht role hconds, selectRows]
    simp only [hlimit, Option.bind_eq_bind, Option.map_some]
  · rw [htext]
  · obtain ⟨name, rfl⟩ := Option.isSome_iff_exists.mp hsome
    rw [htext]
    dsimp only
    cases hfind : allowedTables.find? fun t => jstr t.name = name with
    | none => rfl
    | some t =>
        dsimp only
        cases hconditions : conditions (buildColumnList t role) filters with
        | none => rfl
        | some conds =>
            -- the text would not have been rejected
            obtain ⟨hentries, hconds⟩ := conditions_eq_some_iff.mp hconditions
            have ht := List.mem_of_find?_eq_some hfind
            have hname : jstr t.name = name := by simpa using List.find?_some hfind
            rw [← hname, queryText_of_conds ht hentries hconds] at htext
            cases htext

/-! ## Salaries -/

def Employee.withoutSalary (e : Employee) : Employee := { e with salary := none }

/-- Databases that differ only in `employees.salary`. -/
structure SameButSalary (d₁ d₂ : Database) : Prop where
  employees : d₁.employees.map Employee.withoutSalary = d₂.employees.map Employee.withoutSalary
  chunks : d₁.chunks = d₂.chunks
  grants : d₁.grants = d₂.grants
  rateLimit : d₁.rateLimit = d₂.rateLimit
  auditLogs : d₁.auditLogs = d₂.auditLogs

/-- Sessions in the same state over such databases. -/
structure AlikeButSalary (s₁ s₂ : GatewaySession) : Prop where
  store : SameButSalary s₁.store s₂.store
  conn : s₁.conn = s₂.conn
  tx : s₁.tx = s₂.tx
  issued : s₁.issued = s₂.issued

theorem salary_hidden (t : Table) {c : Column} (hc : c ∈ buildColumnList t .readOnly) :
    c ≠ .salary := by
  have hall : ∀ t ∈ allowedTables, Column.salary ∉ buildColumnList t .readOnly := by decide
  rintro rfl
  cases t <;> exact hall _ (by decide) hc

theorem Employee.row_withoutSalary (e : Employee) {c : Column} (hc : c ≠ .salary) :
    e.withoutSalary.row c = e.row c := by
  cases c <;> first | rfl | exact absurd rfl hc

/-- A row of a table as a statement on visible columns sees it. -/
theorem rowMatches_withoutSalary {bound : List (Column × Option String)}
    (hbound : ∀ b ∈ bound, b.1 ≠ .salary) (e : Employee) :
    rowMatches bound e.withoutSalary.row = rowMatches bound e.row := by
  unfold rowMatches
  rw [Bool.eq_iff_iff, List.all_eq_true, List.all_eq_true]
  refine forall₂_congr ?_
  rintro ⟨c, v⟩ hb
  cases v with
  | none => rfl
  | some v =>
      have hrow : e.withoutSalary.row c = e.row c := e.row_withoutSalary (hbound _ hb)
      dsimp only
      rw [hrow]

/-- The columns of the conditions are those the parameters are bound for. -/
theorem column_of_bound {conds : List (Column × Option JString)}
    {bound : List (Column × Option String)} (h : conds.mapM bindCondition = some bound) :
    ∀ b ∈ bound, ∃ c ∈ conds, c.1 = b.1 := by
  induction conds generalizing bound with
  | nil =>
      cases h
      simp
  | cons cond conds ih =>
      rw [List.mapM_cons] at h
      obtain ⟨b, hb, h⟩ := Option.bind_eq_some_iff.mp h
      obtain ⟨rest, hrest, h⟩ := Option.bind_eq_some_iff.mp h
      cases h
      intro b' hb'
      rcases List.mem_cons.mp hb' with rfl | hb'
      · refine ⟨cond, List.mem_cons_self, ?_⟩
        obtain ⟨c, value⟩ := cond
        cases value with
        | none =>
            cases hb
            rfl
        | some v =>
            unfold bindCondition at hb
            dsimp only at hb
            split_ifs at hb
            obtain ⟨text, -, rfl⟩ := Option.map_eq_some_iff.mp hb
            rfl
      · obtain ⟨c, hc, heq⟩ := ih hrest b' hb'
        exact ⟨c, List.mem_cons_of_mem cond hc, heq⟩

/-- Salaries do not reach a selection of other columns by other columns. -/
theorem select_withoutSalary {bound : List (Column × Option String)}
    (hbound : ∀ b ∈ bound, b.1 ≠ .salary) {cols : List Column} (hcols : ∀ c ∈ cols, c ≠ .salary)
    (maxRows : Int) (employees : List Employee) :
    ((limitRows maxRows ((employees.map Employee.row).filter (rowMatches bound))).map fun found =>
        found.map fun row => cols.map fun c => (c.sqlName, row c)) =
      (limitRows maxRows (((employees.map Employee.withoutSalary).map Employee.row).filter
        (rowMatches bound))).map fun found =>
          found.map fun row => cols.map fun c => (c.sqlName, row c) := by
  have hmatches : (rowMatches bound ∘ fun e => Employee.row (Employee.withoutSalary e)) =
      rowMatches bound ∘ Employee.row :=
    funext fun e => rowMatches_withoutSalary hbound e
  have hshown : ∀ e : Employee, (cols.map fun c => (c.sqlName, e.withoutSalary.row c)) =
      cols.map fun c => (c.sqlName, e.row c) := by
    intro e
    apply List.map_congr_left
    intro c hc
    rw [e.row_withoutSalary (hcols c hc)]
  rw [List.map_map, List.filter_map, List.filter_map]
  unfold limitRows
  split_ifs with hneg
  · rfl
  · simp only [Option.map_some, ← List.map_take, List.map_map, Function.comp_def, hshown]
    simp only [Function.comp_def] at hmatches
    rw [hmatches]

/-- **A statement on visible columns** answers alike on databases that differ in salaries. -/
theorem runStatement_same (p : Platform) {t : Table} (ht : t ∈ allowedTables)
    {conds : List (Column × Option JString)}
    (hconds : ∀ c ∈ conds, c.1 ∈ buildColumnList t .readOnly) (maxRows : Int) (settings : Settings)
    {d₁ d₂ : Database} (h : SameButSalary d₁ d₂) :
    runStatement p ⟨Select.text ⟨t, buildColumnList t .readOnly, conds.map Prod.fst⟩,
        conds.map (fun c => .text c.2) ++ [.limit maxRows]⟩ d₁ settings =
      runStatement p ⟨Select.text ⟨t, buildColumnList t .readOnly, conds.map Prod.fst⟩,
        conds.map (fun c => .text c.2) ++ [.limit maxRows]⟩ d₂ settings := by
  rw [runStatement_of_conds p ht .readOnly hconds, runStatement_of_conds p ht .readOnly hconds]
  cases hbind : conds.mapM bindCondition with
  | none => rfl
  | some bound =>
      rw [Option.bind_some, Option.bind_some]
      cases t with
      | documentChunks => rw [tableRows, tableRows, visibleRows, visibleRows, h.chunks, h.grants]
      | employees =>
          have hbound : ∀ b ∈ bound, b.1 ≠ .salary := by
            intro b hb
            obtain ⟨c, hc, heq⟩ := column_of_bound hbind b hb
            rw [← heq]
            exact salary_hidden .employees (hconds c hc)
          have hcols : ∀ c ∈ buildColumnList .employees .readOnly, c ≠ .salary :=
            fun c hc => salary_hidden .employees hc
          rw [tableRows, tableRows, Option.bind_some, Option.bind_some,
            select_withoutSalary hbound hcols, h.employees, ← select_withoutSalary hbound hcols]

theorem rel_statement_salary {α : Type} {fails : Bool} {run : Database → Settings → Option α}
    (h : ∀ d₁ d₂ settings, SameButSalary d₁ d₂ → run d₁ settings = run d₂ settings) :
    Act.Rel AlikeButSalary (statement fails run) fun _ => True := by
  unfold statement
  apply Act.Rel.bind (V := fun _ => True)
  · apply Act.Rel.gets
    intro s₁ s₂ hs
    refine ⟨?_, trivial⟩
    unfold statementAnswer Session.isAborted Session.settings
    rw [hs.tx, hs.conn, h _ _ _ hs.store]
  · intro answer _
    cases answer with
    | some a => exact Act.Rel.pure trivial
    | none =>
        dsimp only
        unfold abort
        apply Act.Rel.bind (V := fun _ => True)
        · apply Act.Rel.modify
          · intro s₁ s₂ hs
            exact ⟨hs.store, hs.conn, congrArg (Option.map _) hs.tx, hs.issued⟩
          · trivial
        · intro _ _
          exact Act.Rel.throw

/-- **Two runs** of a `READ_ONLY` query stay in step. -/
theorem rel_connectorQuery (p : Platform) (env : Env) (table : Option JString)
    (filters : Option Filters) (maxRows : Int) :
    Act.Rel AlikeButSalary (connectorQuery p env table filters .readOnly maxRows)
      fun _ => True := by
  unfold connectorQuery
  rcases queryText_cases table filters .readOnly maxRows with
    ⟨t, ht, conds, -, -, hconds, htext⟩ | ⟨-, htext⟩ | ⟨-, htext⟩
  · rw [htext]
    apply rel_statement_salary
    intro d₁ d₂ settings h
    exact runStatement_same p ht hconds maxRows settings h
  · rw [htext]
    exact Act.Rel.throw
  · rw [htext]
    exact Act.Rel.throw

/-! ## What a query is made of -/

/-- The statement is `SELECT` on the table with the conditions `conds`. The text is put together from
the names of the table and of visible columns; everything else that came in is an argument. -/
structure Assembled (t : Table) (conds : List (Column × Option JString)) (filters : Option Filters)
    (role : AccessRole) (maxRows : Int) (stmt : SqlStatement) : Prop where
  /-- The conditions are the filters, in the order of the map. -/
  entries : filterEntries filters = conds.map fun c => (some (jstr c.1.sqlName), c.2)
  visible : ∀ c ∈ conds, c.1 ∈ buildColumnList t role
  sql : stmt.sql = Select.text ⟨t, buildColumnList t role, conds.map Prod.fst⟩
  read : readSelect stmt.sql = some ⟨t, buildColumnList t role, conds.map Prod.fst⟩
  /-- The values in the order of the conditions, and the limit behind them. -/
  args : stmt.args = conds.map (fun c => .text c.2) ++ [.limit maxRows]
  placeholders : stmt.sql.count 63 = stmt.args.length
  /-- A placeholder for each condition, behind the name of its column, and one behind `LIMIT`. -/
  pieces : ∃ front limit, stmt.sql.splitOn 63 = front ++ [limit, []] ∧
    List.Forall₂ AsksFor front (conds.map Prod.fst) ∧ jstr " LIMIT " <:+ limit

theorem assembled_of_ok {table : Option JString} {filters : Option Filters} {role : AccessRole}
    {maxRows : Int} {stmt : SqlStatement} (h : queryText table filters role maxRows = .ok stmt) :
    ∃ t ∈ allowedTables, table = some (jstr t.name) ∧
      ∃ conds, Assembled t conds filters role maxRows stmt := by
  rcases queryText_cases table filters role maxRows with
    ⟨t, ht, conds, htable, hentries, hconds, htext⟩ | ⟨-, htext⟩ | ⟨-, htext⟩
  · rw [htext] at h
    cases h
    obtain ⟨front, limit, hsplit, hfront, hlimit⟩ :=
      splitOn_selectText ⟨t, buildColumnList t role, conds.map Prod.fst⟩
    refine ⟨t, ht, htable, conds, hentries, hconds, rfl, ?_, rfl, ?_, front, limit, hsplit, hfront,
      hlimit⟩
    · exact readSelect_selectText ht (buildColumnList_ne_nil t role) (buildColumnList_subset t role)
        (conds_subset hconds)
    · have hlength := congrArg List.length hsplit
      have hconditions := hfront.length_eq
      rw [length_splitOn, List.length_append] at hlength
      simp only [List.length_map, List.length_cons, List.length_nil] at hlength hconditions
      simp only [List.length_append, List.length_map, List.length_cons, List.length_nil]
      omega
  · rw [htext] at h
    cases h
  · rw [htext] at h
    cases h

/-- **Hidden columns and input.** A `READ_ONLY` query gives the same rows or the same exception on
databases that agree on everything but `employees.salary`. Whatever the role, a query that is not
rejected is a statement on an allowlisted table and the columns visible to the role, with one
placeholder for each argument. -/
theorem query_hides_salary :
    (∀ (p : Platform) (env : Env) (table : Option JString) (filters : Option Filters)
      (maxRows : Int) (s₁ s₂ : GatewaySession), AlikeButSalary s₁ s₂ →
      (connectorQuery p env table filters .readOnly maxRows s₁).1 =
        (connectorQuery p env table filters .readOnly maxRows s₂).1) ∧
    ∀ (table : Option JString) (filters : Option Filters) (role : AccessRole) (maxRows : Int)
      (stmt : SqlStatement), queryText table filters role maxRows = .ok stmt →
      ∃ t ∈ allowedTables, table = some (jstr t.name) ∧
        ∃ conds, Assembled t conds filters role maxRows stmt :=
  ⟨fun p env table filters maxRows s₁ s₂ h =>
      (rel_connectorQuery p env table filters maxRows s₁ s₂ h).1,
    fun _ _ _ _ _ h => assembled_of_ok h⟩

/-- A filter value with SQL in it. -/
def quotedFilter : Filters := ⟨[(some (jstr "department"), some (jstr "IT' OR 'a' = 'a"))], by simp⟩

/-- One employee with a salary. -/
def paidSession (salary : Int) : GatewaySession :=
  ⟨{ noDocuments.db with employees := [⟨1, "Ana", some "IT", none, some salary⟩] }, ⟨none, none⟩,
    none, []⟩

theorem department_query :
    (connectorQuery (samplePlatform true) calmEnv (some (jstr "employees")) (some quotedFilter)
        .readOnly 10 (paidSession 100)).1 =
      (connectorQuery (samplePlatform true) calmEnv (some (jstr "employees")) (some quotedFilter)
        .readOnly 10 (paidSession 200)).1 ∧
    ∃ t conds, Assembled t conds (some quotedFilter) .readOnly 10
      ⟨jstr "SELECT id, name, department, email FROM employees WHERE department = ? LIMIT ?",
        [.text (some (jstr "IT' OR 'a' = 'a")), .limit 10]⟩ := by
  obtain ⟨hsame, htext⟩ := query_hides_salary
  constructor
  · exact hsame _ _ _ _ _ _ _ ⟨⟨rfl, rfl, rfl, rfl, rfl⟩, rfl, rfl, rfl⟩
  · obtain ⟨t, -, -, conds, hassembled⟩ :=
      htext (some (jstr "employees")) (some quotedFilter) .readOnly 10 _ rfl
    exact ⟨t, conds, hassembled⟩

end McpGateway.Gateway
