import McpGateway.Foundation.Words
import McpGateway.Gateway.Connectors

/-! # The SQL of `PostgresConnector`

`PostgresConnector.query` puts a statement together as text, with a placeholder for every value.

* `queryText_cases` — the text is that of a statement on allowlisted names, and the input is in the
  arguments only; or the call is rejected.
* `readSelect_selectText` — the text is read as the statement it was put together from.
* `splitOn_selectText` — its placeholders are those of the conditions, in order, and of the limit. -/

namespace McpGateway.Gateway

open Foundation

/-! ## The text -/

/-- An argument of `queryForList`: a filter value, which may be null, or the row limit. -/
inductive SqlArg where
  | text (value : Option JString)
  | limit (maxRows : Int)
  deriving DecidableEq, Repr

structure SqlStatement where
  sql : JString
  args : List SqlArg
  deriving DecidableEq, Repr

/-- `String.join` -/
def joinStrings (delimiter : JString) (parts : List JString) : JString :=
  delimiter.intercalate parts

/-- `getVisibleColumns`, which is `buildColumnList`: `ALL_COLUMNS.getOrDefault(table, List.of())`
without the hidden columns. -/
def getVisibleColumns (table : JString) (role : AccessRole) : List JString :=
  match allowedTables.find? fun t => jstr t.name = table with
  | some t => (buildColumnList t role).map fun c => jstr c.sqlName
  | none => []

/-- The loop over the entries: the conditions and their arguments, or `none` when a key is not a
visible column. -/
def whereClause (allowedCols : List JString) :
    List (Option JString × Option JString) → Option (List JString × List SqlArg)
  | [] => some ([], [])
  | (none, _) :: _ => none
  | (some col, value) :: rest =>
      if col ∈ allowedCols then
        (whereClause allowedCols rest).map fun clause =>
          ((col ++ jstr " = ?") :: clause.1, .text value :: clause.2)
      else none

/-- `PostgresConnector.query` up to the call of `queryForList`. -/
def queryText (table : Option JString) (filters : Option Filters) (role : AccessRole)
    (maxRows : Int) : Except Throwable SqlStatement :=
  match table with
  | none => .error .nullPointer  -- `Set.of(..).contains(null)`
  | some table =>
      if table ∈ allowedTables.map fun t => jstr t.name then
        let allowedCols := getVisibleColumns table role
        let cols := joinStrings (jstr ", ") allowedCols
        if filterEntries filters = [] then
          .ok ⟨jstr "SELECT " ++ cols ++ jstr " FROM " ++ table ++ jstr " LIMIT ?",
            [.limit maxRows]⟩
        else
          match whereClause allowedCols (filterEntries filters) with
          | none => .error (.security "Access denied")
          | some (conditions, args) =>
              .ok ⟨jstr "SELECT " ++ cols ++ jstr " FROM " ++ table ++ jstr " WHERE " ++
                joinStrings (jstr " AND ") conditions ++ jstr " LIMIT ?", args ++ [.limit maxRows]⟩
      else .error (.security "Access denied")

/-! ## The statement -/

/-- `SELECT cols FROM table WHERE c = ? AND … LIMIT ?` -/
structure Select where
  table : Table
  cols : List Column
  conds : List Column
  deriving DecidableEq, Repr

/-- The text of a statement, from the names of the allowlists. -/
def Select.text (s : Select) : JString :=
  jstr "SELECT " ++ joinStrings (jstr ", ") (s.cols.map fun c => jstr c.sqlName) ++ jstr " FROM " ++
    jstr s.table.name ++
    (if s.conds = [] then []
      else jstr " WHERE " ++
        joinStrings (jstr " AND ") (s.conds.map fun c => jstr c.sqlName ++ jstr " = ?")) ++
    jstr " LIMIT ?"

theorem whereClause_map {allowed : List Column} (conds : List (Column × Option JString))
    (h : ∀ c ∈ conds, c.1 ∈ allowed) :
    whereClause (allowed.map fun c => jstr c.sqlName)
        (conds.map fun c => (some (jstr c.1.sqlName), c.2)) =
      some (conds.map fun c => jstr c.1.sqlName ++ jstr " = ?", conds.map fun c => .text c.2) := by
  induction conds with
  | nil => rfl
  | cons c conds ih =>
      have hmem : jstr c.1.sqlName ∈ allowed.map fun c => jstr c.sqlName :=
        List.mem_map.mpr ⟨c.1, h c List.mem_cons_self, rfl⟩
      rw [List.map_cons, whereClause, if_pos hmem,
        ih fun d hd => h d (List.mem_cons_of_mem c hd)]
      rfl

/-- The entries that pass the loop are conditions on visible columns. -/
theorem exists_conds_of_whereClause {allowed : List Column}
    {entries : List (Option JString × Option JString)} {clause : List JString × List SqlArg}
    (h : whereClause (allowed.map fun c => jstr c.sqlName) entries = some clause) :
    ∃ conds : List (Column × Option JString),
      entries = conds.map (fun c => (some (jstr c.1.sqlName), c.2)) ∧
        ∀ c ∈ conds, c.1 ∈ allowed := by
  induction entries generalizing clause with
  | nil => exact ⟨[], rfl, by simp⟩
  | cons entry rest ih =>
      obtain ⟨key, value⟩ := entry
      cases key with
      | none => cases h
      | some col =>
          unfold whereClause at h
          split_ifs at h with hmem
          obtain ⟨clause', hclause, -⟩ := Option.map_eq_some_iff.mp h
          obtain ⟨conds, rfl, hconds⟩ := ih hclause
          obtain ⟨c, hc, rfl⟩ := List.mem_map.mp hmem
          refine ⟨(c, value) :: conds, rfl, ?_⟩
          intro d hd
          rcases List.mem_cons.mp hd with rfl | hd
          · exact hc
          · exact hconds d hd

theorem find?_allowedTables {t : Table} (ht : t ∈ allowedTables) :
    (allowedTables.find? fun t' => jstr t'.name = jstr t.name) = some t := by
  have hall : ∀ t ∈ allowedTables,
      (allowedTables.find? fun t' => jstr t'.name = jstr t.name) = some t := by
    decide
  exact hall t ht

theorem getVisibleColumns_name {t : Table} (ht : t ∈ allowedTables) (role : AccessRole) :
    getVisibleColumns (jstr t.name) role =
      (buildColumnList t role).map fun c => jstr c.sqlName := by
  rw [getVisibleColumns, find?_allowedTables ht]

/-- What `queryText` gives for an allowlisted table and conditions on visible columns. -/
theorem queryText_of_conds {t : Table} (ht : t ∈ allowedTables) {role : AccessRole}
    {filters : Option Filters} {conds : List (Column × Option JString)}
    (hentries : filterEntries filters = conds.map fun c => (some (jstr c.1.sqlName), c.2))
    (hconds : ∀ c ∈ conds, c.1 ∈ buildColumnList t role) (maxRows : Int) :
    queryText (some (jstr t.name)) filters role maxRows =
      .ok ⟨Select.text ⟨t, buildColumnList t role, conds.map Prod.fst⟩,
        conds.map (fun c => .text c.2) ++ [.limit maxRows]⟩ := by
  have hmem : jstr t.name ∈ allowedTables.map fun t => jstr t.name := List.mem_map_of_mem ht
  unfold queryText
  dsimp only
  rw [if_pos hmem, getVisibleColumns_name ht, hentries]
  cases conds with
  | nil =>
      rw [List.map_nil, if_pos rfl, Select.text, List.map_nil, if_pos rfl, List.append_nil]
      rfl
  | cons c conds =>
      rw [if_neg (by simp), whereClause_map _ hconds, Select.text, if_neg (by simp), List.map_map]
      simp only [List.append_assoc]
      rfl

/-- The rejections and the texts of `queryText`. -/
theorem queryText_cases (table : Option JString) (filters : Option Filters) (role : AccessRole)
    (maxRows : Int) :
    (∃ t ∈ allowedTables, ∃ conds : List (Column × Option JString), table = some (jstr t.name) ∧
      filterEntries filters = conds.map (fun c => (some (jstr c.1.sqlName), c.2)) ∧
      (∀ c ∈ conds, c.1 ∈ buildColumnList t role) ∧
      queryText table filters role maxRows =
        .ok ⟨Select.text ⟨t, buildColumnList t role, conds.map Prod.fst⟩,
          conds.map (fun c => .text c.2) ++ [.limit maxRows]⟩) ∨
    table = none ∧ queryText table filters role maxRows = .error .nullPointer ∨
    table.isSome = true ∧ queryText table filters role maxRows = .error (.security "Access denied") := by
  cases table with
  | none => exact Or.inr (Or.inl ⟨rfl, rfl⟩)
  | some name =>
      by_cases hname : name ∈ allowedTables.map fun t => jstr t.name
      · obtain ⟨t, ht, rfl⟩ := List.mem_map.mp hname
        cases hclause : whereClause ((buildColumnList t role).map fun c => jstr c.sqlName)
            (filterEntries filters) with
        | some clause =>
            obtain ⟨conds, hentries, hconds⟩ := exists_conds_of_whereClause hclause
            exact Or.inl ⟨t, ht, conds, rfl, hentries, hconds,
              queryText_of_conds ht hentries hconds maxRows⟩
        | none =>
            refine Or.inr (Or.inr ⟨rfl, ?_⟩)
            have hsome : filterEntries filters ≠ [] := by
              intro hnil
              rw [hnil] at hclause
              cases hclause
            unfold queryText
            dsimp only
            rw [if_pos hname, if_neg hsome, getVisibleColumns_name ht, hclause]
      · refine Or.inr (Or.inr ⟨rfl, ?_⟩)
        unfold queryText
        exact if_neg hname

/-! ## Reading the text -/

def isSpaceUnit (u : UInt16) : Bool := u == 32

/-- The columns of a `SELECT`: every token but the last ends in a comma. -/
def readColumns : List JString → Option (List JString × List JString)
  | [] => none
  | token :: rest =>
      if token.getLast? = some 44 then
        (readColumns rest).map fun r => (token.dropLast :: r.1, r.2)
      else some ([token], rest)

/-- The columns of `c = ? AND … LIMIT ?`. -/
def readConditions : List JString → Option (List JString)
  | col :: equals :: mark :: next :: rest =>
      if equals = jstr "=" ∧ mark = jstr "?" then
        if next = jstr "AND" then (readConditions rest).map (col :: ·)
        else if next = jstr "LIMIT" ∧ rest = [jstr "?"] then some [col]
        else none
      else none
  | _ => none

def columnNamed (t : Table) (name : JString) : Option Column :=
  (allColumns t).find? fun c => jstr c.sqlName = name

/-- The server's reading of a statement of the form `SELECT … FROM … [WHERE …] LIMIT ?`. -/
def readSelect (sql : JString) : Option Select :=
  match words isSpaceUnit sql with
  | [] => none
  | select :: tokens =>
      if select = jstr "SELECT" then
        match readColumns tokens with
        | some (cols, keyword :: name :: next :: rest) => do
            let t ← allowedTables.find? fun t => jstr t.name = name
            let conds ←
              if keyword ≠ jstr "FROM" then none
              else if next = jstr "LIMIT" ∧ rest = [jstr "?"] then some []
              else if next = jstr "WHERE" then readConditions rest
              else none
            let cols ← cols.mapM (columnNamed t)
            let conds ← conds.mapM (columnNamed t)
            some ⟨t, cols, conds⟩
        | _ => none
      else none

/-- The tokens of the columns. -/
def columnTokens : List JString → List JString
  | [] => []
  | [name] => [name]
  | name :: names => (name ++ [44]) :: columnTokens names

/-- The tokens of the conditions. -/
def conditionTokens : List JString → List JString
  | [] => []
  | [name] => [name, jstr "=", jstr "?"]
  | name :: names => name :: jstr "=" :: jstr "?" :: jstr "AND" :: conditionTokens names

/-- Text without a space, which is one token. -/
structure Token (w : JString) : Prop where
  ne_nil : w ≠ []
  space : 32 ∉ w

theorem Token.words {w : JString} (h : Token w) : words isSpaceUnit w = [w] := by
  apply words_of_plain _ h.ne_nil
  intro u hu
  rw [isSpaceUnit, beq_eq_false_iff_ne]
  rintro rfl
  exact h.space hu

theorem words_space (a b : JString) :
    words isSpaceUnit (a ++ 32 :: b) = words isSpaceUnit a ++ words isSpaceUnit b :=
  words_append_cons rfl a b

/-- A token and what follows it. -/
theorem Token.words_cons {w : JString} (h : Token w) (rest : JString) :
    Foundation.words isSpaceUnit (w ++ 32 :: rest) = w :: Foundation.words isSpaceUnit rest := by
  rw [words_space, h.words]
  rfl

theorem words_columns {names : List JString} (h : ∀ name ∈ names, Token name) :
    words isSpaceUnit (joinStrings (jstr ", ") names) = columnTokens names := by
  induction names with
  | nil => rfl
  | cons name names ih =>
      have hname := h name List.mem_cons_self
      have hrest := ih fun n hn => h n (List.mem_cons_of_mem name hn)
      cases names with
      | nil =>
          rw [joinStrings, List.intercalate_singleton]
          exact hname.words
      | cons next names =>
          have hcomma : Token (name ++ [44]) :=
            ⟨by simp, by simpa using hname.space⟩
          have hjoin : joinStrings (jstr ", ") (name :: next :: names) =
              (name ++ [44]) ++ 32 :: joinStrings (jstr ", ") (next :: names) := by
            rw [joinStrings, List.intercalate_cons_cons, List.append_assoc, List.append_assoc]
            rfl
          rw [hjoin, hcomma.words_cons, hrest]
          rfl

theorem words_conditions {names : List JString} (h : ∀ name ∈ names, Token name) :
    words isSpaceUnit (joinStrings (jstr " AND ") (names.map fun name => name ++ jstr " = ?")) =
      conditionTokens names := by
  have hequals : Token (jstr "=") := ⟨by decide, by decide⟩
  have hmark : Token (jstr "?") := ⟨by decide, by decide⟩
  have hand : Token (jstr "AND") := ⟨by decide, by decide⟩
  induction names with
  | nil => rfl
  | cons name names ih =>
      have hname := h name List.mem_cons_self
      have hrest := ih fun n hn => h n (List.mem_cons_of_mem name hn)
      cases names with
      | nil =>
          have htext : name ++ jstr " = ?" = name ++ 32 :: (jstr "=" ++ 32 :: jstr "?") := rfl
          rw [joinStrings, List.map_singleton, List.intercalate_singleton, htext,
            hname.words_cons, hequals.words_cons, hmark.words]
          rfl
      | cons next names =>
          have hjoin : joinStrings (jstr " AND ")
                ((name :: next :: names).map fun name => name ++ jstr " = ?") =
              name ++ 32 :: (jstr "=" ++ 32 :: (jstr "?" ++ 32 :: (jstr "AND" ++ 32 ::
                joinStrings (jstr " AND ")
                  ((next :: names).map fun name => name ++ jstr " = ?")))) := by
            rw [joinStrings, List.map_cons, List.map_cons, List.intercalate_cons_cons,
              List.append_assoc, List.append_assoc]
            rfl
          rw [hjoin, hname.words_cons, hequals.words_cons, hmark.words_cons, hand.words_cons, hrest]
          rfl

theorem readColumns_columnTokens {names : List JString} (hne : names ≠ [])
    (h : ∀ name ∈ names, 44 ∉ name) (rest : List JString) :
    readColumns (columnTokens names ++ rest) = some (names, rest) := by
  induction names with
  | nil => exact absurd rfl hne
  | cons name names ih =>
      cases names with
      | nil =>
          have hlast : name.getLast? ≠ some 44 :=
            fun hlast => h name List.mem_cons_self (List.mem_of_getLast? hlast)
          rw [columnTokens, List.singleton_append, readColumns, if_neg hlast]
      | cons next names =>
          have hrest := ih (by simp) fun n hn => h n (List.mem_cons_of_mem name hn)
          rw [columnTokens, List.cons_append, readColumns, if_pos List.getLast?_concat, hrest,
            List.dropLast_concat]
          · rfl
          · simp

theorem readConditions_conditionTokens {names : List JString} (hne : names ≠ []) :
    readConditions (conditionTokens names ++ [jstr "LIMIT", jstr "?"]) = some names := by
  induction names with
  | nil => exact absurd rfl hne
  | cons name names ih =>
      cases names with
      | nil => rfl
      | cons next names =>
          have hrest := ih (by simp)
          rw [conditionTokens, List.cons_append, List.cons_append, List.cons_append,
            List.cons_append, readConditions, if_pos ⟨rfl, rfl⟩, if_pos rfl, hrest]
          · rfl
          · simp

/-- A column name is a token without a comma or a placeholder. -/
theorem sqlName_units (c : Column) :
    jstr c.sqlName ≠ [] ∧ 32 ∉ jstr c.sqlName ∧ 44 ∉ jstr c.sqlName ∧ 63 ∉ jstr c.sqlName := by
  cases c <;> decide

theorem sqlName_token (c : Column) : Token (jstr c.sqlName) :=
  ⟨(sqlName_units c).1, (sqlName_units c).2.1⟩

theorem tableName_units (t : Table) :
    jstr t.name ≠ [] ∧ 32 ∉ jstr t.name ∧ 63 ∉ jstr t.name := by
  cases t <;> decide

theorem columnNamed_sqlName {t : Table} {c : Column} (h : c ∈ allColumns t) :
    columnNamed t (jstr c.sqlName) = some c := by
  have hall : ∀ t ∈ allowedTables, ∀ c ∈ allColumns t,
      columnNamed t (jstr c.sqlName) = some c := by
    decide
  cases t with
  | employees => exact hall _ (by decide) c h
  | documentChunks => exact hall _ (by decide) c h

theorem columnNamed_mapM {t : Table} {cs : List Column} (h : ∀ c ∈ cs, c ∈ allColumns t) :
    (cs.map fun c => jstr c.sqlName).mapM (columnNamed t) = some cs := by
  induction cs with
  | nil => rfl
  | cons c cs ih =>
      rw [List.map_cons, List.mapM_cons, columnNamed_sqlName (h c List.mem_cons_self),
        ih fun d hd => h d (List.mem_cons_of_mem c hd)]
      rfl

/-- The text behind the table. -/
def Select.tail (s : Select) : JString :=
  if s.conds = [] then jstr "LIMIT" ++ 32 :: jstr "?"
  else jstr "WHERE" ++ 32 :: (joinStrings (jstr " AND ")
    ((s.conds.map fun c => jstr c.sqlName).map fun name => name ++ jstr " = ?") ++
      32 :: (jstr "LIMIT" ++ 32 :: jstr "?"))

theorem Select.text_eq (s : Select) :
    s.text = jstr "SELECT" ++ 32 :: (joinStrings (jstr ", ") (s.cols.map fun c => jstr c.sqlName) ++
      32 :: (jstr "FROM" ++ 32 :: (jstr s.table.name ++ 32 :: s.tail))) := by
  unfold Select.text Select.tail
  by_cases hempty : s.conds = []
  · rw [if_pos hempty, if_pos hempty]
    simp only [List.append_assoc, List.nil_append]
    rfl
  · rw [if_neg hempty, if_neg hempty, List.map_map]
    simp only [List.append_assoc]
    rfl

theorem sqlNames_token (cs : List Column) :
    ∀ name ∈ cs.map fun c => jstr c.sqlName, Token name := by
  intro name hname
  obtain ⟨c, -, rfl⟩ := List.mem_map.mp hname
  exact sqlName_token c

theorem words_tail (s : Select) :
    words isSpaceUnit s.tail =
      (if s.conds = [] then []
        else jstr "WHERE" :: conditionTokens (s.conds.map fun c => jstr c.sqlName)) ++
      [jstr "LIMIT", jstr "?"] := by
  have hwhere : Token (jstr "WHERE") := ⟨by decide, by decide⟩
  have hlimit : Token (jstr "LIMIT") := ⟨by decide, by decide⟩
  have hmark : Token (jstr "?") := ⟨by decide, by decide⟩
  unfold Select.tail
  by_cases hempty : s.conds = []
  · rw [if_pos hempty, if_pos hempty, hlimit.words_cons, hmark.words]
    rfl
  · rw [if_neg hempty, if_neg hempty, hwhere.words_cons, words_space,
      words_conditions (sqlNames_token s.conds), hlimit.words_cons, hmark.words]
    rfl

/-- The tokens of a statement. -/
theorem words_selectText (s : Select) :
    words isSpaceUnit s.text = jstr "SELECT" ::
      (columnTokens (s.cols.map fun c => jstr c.sqlName) ++ jstr "FROM" :: jstr s.table.name ::
        ((if s.conds = [] then []
          else jstr "WHERE" :: conditionTokens (s.conds.map fun c => jstr c.sqlName)) ++
        [jstr "LIMIT", jstr "?"])) := by
  have hselect : Token (jstr "SELECT") := ⟨by decide, by decide⟩
  have hkeyword : Token (jstr "FROM") := ⟨by decide, by decide⟩
  have htable : Token (jstr s.table.name) :=
    ⟨(tableName_units s.table).1, (tableName_units s.table).2.1⟩
  rw [s.text_eq, hselect.words_cons, words_space, words_columns (sqlNames_token s.cols),
    hkeyword.words_cons, htable.words_cons, words_tail]

/-- **The text is read as the statement it was put together from.** -/
theorem readSelect_selectText {s : Select} (ht : s.table ∈ allowedTables) (hne : s.cols ≠ [])
    (hcols : ∀ c ∈ s.cols, c ∈ allColumns s.table)
    (hconds : ∀ c ∈ s.conds, c ∈ allColumns s.table) : readSelect s.text = some s := by
  have hnames : ∀ name ∈ s.cols.map fun c => jstr c.sqlName, 44 ∉ name := by
    intro name hname
    obtain ⟨c, -, rfl⟩ := List.mem_map.mp hname
    exact (sqlName_units c).2.2.1
  have hread := readColumns_columnTokens (mt List.map_eq_nil_iff.mp hne) hnames
  unfold readSelect
  rw [words_selectText]
  dsimp only
  rw [if_pos rfl, hread]
  by_cases hempty : s.conds = []
  · rw [if_pos hempty]
    simp only [List.nil_append, find?_allowedTables ht, Option.bind_eq_bind, Option.bind_some,
      columnNamed_mapM hcols]
    obtain ⟨t, cols, conds⟩ := s
    cases hempty
    rfl
  · have hnonempty : (s.conds.map fun c => jstr c.sqlName) ≠ [] := mt List.map_eq_nil_iff.mp hempty
    have hwhere := readConditions_conditionTokens hnonempty
    have hkeyword : ¬ (jstr "WHERE" = jstr "LIMIT" ∧
        conditionTokens (s.conds.map fun c => jstr c.sqlName) ++ [jstr "LIMIT", jstr "?"] =
          [jstr "?"]) := fun h => absurd h.1 (by decide)
    rw [if_neg hempty, List.cons_append]
    simp only [find?_allowedTables ht, Option.bind_eq_bind, Option.bind_some, ne_eq,
      not_true_eq_false, if_false, if_neg hkeyword, if_true, hwhere, columnNamed_mapM hcols,
      columnNamed_mapM hconds]

/-! ## The placeholders -/

/-- The text between two placeholders ends by naming the column of the second. -/
def AsksFor (piece : JString) (c : Column) : Prop :=
  32 :: (jstr c.sqlName ++ jstr " = ") <:+ piece

/-- A piece that asks for a column has no placeholder of its own. -/
theorem not_mem_piece {head : JString} (hhead : 63 ∉ head) (c : Column) :
    63 ∉ head ++ 32 :: (jstr c.sqlName ++ jstr " = ") := by
  intro hmem
  rcases List.mem_append.mp hmem with hmem | hmem
  · exact hhead hmem
  · rcases List.mem_cons.mp hmem with hmem | hmem
    · exact absurd hmem (by decide)
    · rcases List.mem_append.mp hmem with hmem | hmem
      · exact (sqlName_units c).2.2.2 hmem
      · exact absurd hmem (by decide)

/-- The conditions, and what stands behind them. -/
def conditionsText (cs : List Column) : JString :=
  joinStrings (jstr " AND ") (cs.map fun c => jstr c.sqlName ++ jstr " = ?") ++ jstr " LIMIT ?"

/-- The last condition, cut at its placeholder. -/
theorem conditionsText_last (head : JString) (c : Column) :
    head ++ 32 :: conditionsText [c] =
      (head ++ 32 :: (jstr c.sqlName ++ jstr " = ")) ++ 63 :: (jstr " LIMIT " ++ [63]) := by
  rw [conditionsText, joinStrings, List.map_singleton, List.intercalate_singleton]
  simp only [List.append_assoc, List.cons_append]
  rfl

/-- Another condition, cut at its placeholder. -/
theorem conditionsText_cons (head : JString) (c d : Column) (cs : List Column) :
    head ++ 32 :: conditionsText (c :: d :: cs) =
      (head ++ 32 :: (jstr c.sqlName ++ jstr " = ")) ++
        63 :: (jstr " AND" ++ 32 :: conditionsText (d :: cs)) := by
  rw [conditionsText, joinStrings, List.map_cons, List.map_cons, List.intercalate_cons_cons]
  simp only [List.append_assoc, List.cons_append]
  rfl

theorem splitOn_conditions (head : JString) (hhead : 63 ∉ head) {cs : List Column} (hne : cs ≠ []) :
    ∃ front limit, (head ++ 32 :: conditionsText cs).splitOn 63 = front ++ [limit, []] ∧
      List.Forall₂ AsksFor front cs ∧ jstr " LIMIT " <:+ limit := by
  induction cs generalizing head with
  | nil => exact absurd rfl hne
  | cons c cs ih =>
      have hasks : AsksFor (head ++ 32 :: (jstr c.sqlName ++ jstr " = ")) c :=
        List.suffix_append head _
      cases cs with
      | nil =>
          refine ⟨[head ++ 32 :: (jstr c.sqlName ++ jstr " = ")], jstr " LIMIT ", ?_,
            List.Forall₂.cons hasks List.Forall₂.nil, List.suffix_refl _⟩
          rw [conditionsText_last,
            List.splitOn_append_cons_self_of_not_mem (not_mem_piece hhead c),
            List.splitOn_append_cons_self_of_not_mem (by decide)]
          rfl
      | cons d cs =>
          obtain ⟨front, limit, hsplit, hfront, hlimit⟩ :=
            ih (jstr " AND") (by decide) (List.cons_ne_nil d cs)
          refine ⟨(head ++ 32 :: (jstr c.sqlName ++ jstr " = ")) :: front, limit, ?_,
            List.Forall₂.cons hasks hfront, hlimit⟩
          rw [conditionsText_cons,
            List.splitOn_append_cons_self_of_not_mem (not_mem_piece hhead c), hsplit]
          rfl

theorem joinStrings_units {u : UInt16} {delimiter : JString} (hdelimiter : u ∉ delimiter)
    {parts : List JString} (hparts : ∀ part ∈ parts, u ∉ part) :
    u ∉ joinStrings delimiter parts := by
  induction parts with
  | nil => exact List.not_mem_nil
  | cons part parts ih =>
      have hrest := ih fun q hq => hparts q (List.mem_cons_of_mem part hq)
      cases parts with
      | nil =>
          rw [joinStrings, List.intercalate_singleton]
          exact hparts part List.mem_cons_self
      | cons next parts =>
          rw [joinStrings, List.intercalate_cons_cons, List.mem_append, List.mem_append]
          rintro ((h | h) | h)
          · exact hparts part List.mem_cons_self h
          · exact hdelimiter h
          · exact hrest h

/-- **The placeholders** of a statement: one for each condition, in order, and one for the limit. -/
theorem splitOn_selectText (s : Select) : ∃ front limit, s.text.splitOn 63 = front ++ [limit, []] ∧
    List.Forall₂ AsksFor front s.conds ∧ jstr " LIMIT " <:+ limit := by
  have hhead : 63 ∉ jstr "SELECT " ++ joinStrings (jstr ", ") (s.cols.map fun c => jstr c.sqlName) ++
      jstr " FROM " ++ jstr s.table.name := by
    have hcols : 63 ∉ joinStrings (jstr ", ") (s.cols.map fun c => jstr c.sqlName) := by
      apply joinStrings_units (by decide)
      intro name hname
      obtain ⟨c, -, rfl⟩ := List.mem_map.mp hname
      exact (sqlName_units c).2.2.2
    simp only [List.mem_append, not_or]
    exact ⟨⟨⟨by decide, hcols⟩, by decide⟩, (tableName_units s.table).2.2⟩
  unfold Select.text
  generalize jstr "SELECT " ++ joinStrings (jstr ", ") (s.cols.map fun c => jstr c.sqlName) ++
    jstr " FROM " ++ jstr s.table.name = head at hhead
  by_cases hempty : s.conds = []
  · have hlimit : 63 ∉ head ++ jstr " LIMIT " := by
      rw [List.mem_append, not_or]
      exact ⟨hhead, by decide⟩
    have htext : head ++ [] ++ jstr " LIMIT ?" = (head ++ jstr " LIMIT ") ++ 63 :: [] := by
      rw [List.append_nil, List.append_assoc]
      rfl
    rw [if_pos hempty, htext, List.splitOn_append_cons_self_of_not_mem hlimit, hempty]
    exact ⟨[], head ++ jstr " LIMIT ", rfl, List.Forall₂.nil, List.suffix_append head _⟩
  · have hwhere : 63 ∉ head ++ jstr " WHERE" := by
      rw [List.mem_append, not_or]
      exact ⟨hhead, by decide⟩
    have htext : head ++ (jstr " WHERE " ++ joinStrings (jstr " AND ")
          (s.conds.map fun c => jstr c.sqlName ++ jstr " = ?")) ++ jstr " LIMIT ?" =
        (head ++ jstr " WHERE") ++ 32 :: conditionsText s.conds := by
      simp only [conditionsText, List.append_assoc]
      rfl
    rw [if_neg hempty, htext]
    exact splitOn_conditions _ hwhere hempty

end McpGateway.Gateway
