import McpGateway.Foundation.Keyed
import McpGateway.Gateway.Observation
import McpGateway.Gateway.Pending

/-! # The classification layer on its own

Without the row-level policies, the classification of a row is checked by the two searches only.
`query_database` selects from `document_chunks` whatever the filters admit.

* `classification_layer` — a `READ_ONLY` call is independent of the confidential rows exactly when
  it is not a `query_database` on `document_chunks` whose filters admit a confidential row.
* `plan_disclosed` — the call without filters. -/

namespace McpGateway.Gateway

open Foundation

/-! ## Databases and calls -/

def notConfidential (row : DocumentChunk) : Bool := row.classification ≠ .confidential

/-- Databases that differ only in confidential rows of `document_chunks`; `shared` are the others. -/
structure SameButConfidential (shared : List DocumentChunk) (d₁ d₂ : Database) : Prop where
  left : d₁.chunks.filter notConfidential = shared
  right : d₂.chunks.filter notConfidential = shared
  employees : d₁.employees = d₂.employees
  grants : d₁.grants = d₂.grants
  rateLimit : d₁.rateLimit = d₂.rateLimit
  auditLogs : d₁.auditLogs = d₂.auditLogs

/-- A filter some confidential row passes: a bindable text, on a text column, that such a row can
hold there. -/
def Passable (filter : Option JString × Option JString) : Prop :=
  ∃ c text, filter.1 = some (jstr (Column.sqlName c)) ∧ filter.2.bind bindText = some text ∧
    (c = .classification ∧ text = "CONFIDENTIAL" ∨ c = .docName ∧ text.length ≤ 255 ∨
      c = .textPreview ∧ text.length ≤ 500)

/-- The calls that reach confidential rows: `query_database` on `document_chunks`, allowed to the
key, each filter of which some confidential row passes. -/
def Leaks (key : ApiKey) (call : ToolCall) : Prop :=
  allowlistRejects (.apiKey key) call.toolName = none ∧
    ∃ filters maxRows, call = .queryDatabase (some (jstr "document_chunks")) filters maxRows ∧
      ∀ f ∈ filterEntries filters, Passable f

section Layer

variable {p : Platform} {key : ApiKey} {shared : List DocumentChunk}

/-! ## The searches -/

theorem SameButConfidential.applyWrite {d₁ d₂ : Database} (w : Write)
    (h : SameButConfidential shared d₁ d₂) :
    SameButConfidential shared (applyWrite d₁ w) (applyWrite d₂ w) := by
  cases w with
  | audit entry =>
      exact ⟨h.left, h.right, h.employees, h.grants, h.rateLimit,
        congrArg (· ++ [entry]) h.auditLogs⟩
  | setRate apiKeyId window count =>
      refine ⟨h.left, h.right, h.employees, h.grants, ?_, h.auditLogs⟩
      show (fun k w => if k = apiKeyId ∧ w = window then some count else d₁.rateLimit k w)
        = fun k w => if k = apiKeyId ∧ w = window then some count else d₂.rateLimit k w
      rw [h.rateLimit]

/-- The `IN` list of a `READ_ONLY` key keeps confidential rows out. -/
theorem allowed_notConfidential (hrole : key.role = .readOnly) (row : DocumentChunk) :
    row.classification ∈ allowedClassifications key.role ↔ notConfidential row = true := by
  rw [hrole]
  cases hc : row.classification <;>
    simp [allowedClassifications, AccessRole.canAccessConfidential, notConfidential, hc]

/-- So a search only filters the shared rows. -/
theorem filter_allowed (hrole : key.role = .readOnly) (rows : List DocumentChunk)
    (test : DocumentChunk → Prop) [DecidablePred test] :
    rows.filter (fun row => row.classification ∈ allowedClassifications key.role ∧ test row)
      = (rows.filter notConfidential).filter test := by
  rw [List.filter_filter]
  apply List.filter_congr
  intro row _
  by_cases hc : notConfidential row = true
  · simp [hc, (allowed_notConfidential hrole row).mpr hc]
  · have hnot := mt (allowed_notConfidential hrole row).mp hc
    simp [hc, hnot]

theorem mem_of_limitRows {α : Type} {limit : Int} {rows found : List α}
    (h : limitRows limit rows = some found) {a : α} (ha : a ∈ found) : a ∈ rows := by
  unfold limitRows at h
  split_ifs at h
  cases h
  exact List.mem_of_mem_take ha

/-- For a `READ_ONLY` key the searches cannot tell such databases apart. -/
theorem indistinct_of_filter (hrls : p.rlsEnforced = false) (hrole : key.role = .readOnly) :
    Indistinct p key (· ∈ shared) (SameButConfidential shared) where
  apply _ _ w h := h.applyWrite w
  rate d₁ d₂ window count h := by
    unfold upsertTotal
    rw [h.rateLimit]
  byText d₁ d₂ q limit h := by
    unfold selectByText visibleRows
    simp only [hrls, Bool.false_eq_true, if_false, filter_allowed hrole, h.left, h.right,
      Option.bind_eq_bind, Option.bind_some]
    refine ⟨trivial, ?_⟩
    intro rows hrows row hrow
    cases hq : bindText q with
    | none => simp [hq] at hrows
    | some q =>
        simp only [hq, Option.bind_some] at hrows
        exact List.mem_of_mem_filter (mem_of_limitRows hrows hrow)
  byVector d₁ d₂ v limit h := by
    unfold selectByVector visibleRows
    simp only [hrls, Bool.false_eq_true, if_false, filter_allowed hrole, h.left, h.right,
      Option.bind_eq_bind, Option.bind_some]
    refine ⟨trivial, ?_⟩
    intro rows hrows row hrow
    split_ifs at hrows with haccepts hdim
    have hsorted := mem_of_limitRows hrows hrow
    exact List.mem_of_mem_filter (List.mem_mergeSort.mp hsorted)
  fetch d₁ d₂ row h hrow := by
    unfold visibleRows
    simp only [hrls, Bool.false_eq_true, if_false, Option.map_some]
    have h₁ : row ∈ d₁.chunks := List.mem_of_mem_filter (by rw [h.left]; exact hrow)
    have h₂ : row ∈ d₂.chunks := List.mem_of_mem_filter (by rw [h.right]; exact hrow)
    rw [find?_of_nodup d₁.chunks_pk h₁, find?_of_nodup d₂.chunks_pk h₂]

/-! ## `query_database` -/

/-- A confidential row that matches the bound filters shows each of them passable. -/
theorem passable_of_match {cols : List Column} {filters : Option Filters}
    {conds : List (Column × Option JString)} {bound : List (Column × Option String)}
    (hconds : conditions cols filters = some conds) (hbound : conds.mapM bindCondition = some bound)
    {row : DocumentChunk} (hfit : ChunkFits row) (hconf : notConfidential row = false)
    (hmatch : rowMatches bound (chunkRow row) = true) :
    ∀ f ∈ filterEntries filters, Passable f := by
  rintro ⟨k, v⟩ hf
  obtain ⟨cond, hcond, hfind⟩ := image_of_mapM hconds hf
  obtain ⟨c, hcol, rfl⟩ := Option.map_eq_some_iff.mp hfind
  have hk : k = some (jstr c.sqlName) := by simpa using List.find?_some hcol
  obtain ⟨b, hb, hbind⟩ := image_of_mapM hbound hcond
  have hpass := List.all_eq_true.mp hmatch b hb
  -- a filter on `NULL` matches no row, so it has a value that the column takes
  cases v with
  | none =>
      cases hbind
      exact absurd hpass (by simp)
  | some v =>
      have htext : c.isText = true ∧ ∃ text, bindText v = some text ∧ b = (c, some text) := by
        unfold bindCondition at hbind
        dsimp only at hbind
        split_ifs at hbind with hc
        obtain ⟨text, htext, rfl⟩ := Option.map_eq_some_iff.mp hbind
        exact ⟨hc, text, htext, rfl⟩
      obtain ⟨hc, text, hv, rfl⟩ := htext
      have hrow : chunkRow row c = .text text := by simpa using hpass
      refine ⟨c, text, hk, hv, ?_⟩
      -- a document row has text in three columns
      cases c
      case docName =>
        cases hrow
        exact Or.inr (Or.inl ⟨rfl, hfit.1⟩)
      case classification =>
        have hclass : row.classification = .confidential := by
          simpa [notConfidential] using hconf
        simp only [chunkRow, hclass, SqlValue.text.injEq] at hrow
        exact Or.inl ⟨rfl, hrow.symm⟩
      case textPreview =>
        have hpreview : row.textPreview = some text := by
          cases ht : row.textPreview with
          | none => simp [chunkRow, textOrNull, ht] at hrow
          | some t => simpa [chunkRow, textOrNull, ht] using hrow
        have hlength := hfit.2
        rw [hpreview] at hlength
        exact Or.inr (Or.inr ⟨rfl, hlength⟩)
      all_goals cases hrow

/-- Where no confidential row matches, the statement only filters the shared rows. -/
theorem filter_matching {db : Database} (hleft : db.chunks.filter notConfidential = shared)
    {test : TableRow → Bool}
    (hnone : ∀ row ∈ db.chunks, notConfidential row = false → test (chunkRow row) = false) :
    (db.chunks.map chunkRow).filter test = (shared.map chunkRow).filter test := by
  rw [← hleft, List.filter_map, List.filter_map, List.filter_filter]
  congr 1
  apply List.filter_congr
  intro row hrow
  cases hconf : notConfidential row with
  | true => simp
  | false => simp [hnone row hrow hconf]

/-- Filters that no confidential row passes select from the shared rows. -/
theorem selectRows_documents (hrls : p.rlsEnforced = false) {cols : List Column}
    {filters : Option Filters} {conds : List (Column × Option JString)}
    (hconds : conditions cols filters = some conds)
    (hnot : ¬ ∀ f ∈ filterEntries filters, Passable f) (maxRows : Nat) (σ : Settings)
    {d₁ d₂ : Database} (h : SameButConfidential shared d₁ d₂) :
    selectRows p .documentChunks cols conds maxRows d₁ σ
      = selectRows p .documentChunks cols conds maxRows d₂ σ := by
  cases hbound : conds.mapM bindCondition with
  | none => simp [selectRows, hbound]
  | some bound =>
      have hnone : ∀ db : Database, ∀ row ∈ db.chunks, notConfidential row = false →
          rowMatches bound (chunkRow row) = false := by
        intro db row hrow hconf
        by_contra hmatch
        apply hnot
        exact passable_of_match hconds hbound (db.chunks_fit row hrow) hconf (by simpa using hmatch)
      have hrows : ∀ db : Database, db.chunks.filter notConfidential = shared →
          selectRows p .documentChunks cols conds maxRows db σ
            = some ((((shared.map chunkRow).filter (rowMatches bound)).take maxRows).map fun row =>
              cols.map fun c => (c.sqlName, row c)) := by
        intro db hleft
        rw [← filter_matching hleft (hnone db)]
        simp [selectRows, hbound, tableRows, visibleRows, hrls]
      rw [hrows d₁ h.left, hrows d₂ h.right]

/-- **The layer holds** for every call that does not leak. -/
theorem answer_same_of_not_leaks (hrls : p.rlsEnforced = false) (hrole : key.role = .readOnly)
    {call : ToolCall} (hleak : ¬ Leaks key call) (env : Env) {g₁ g₂ : GatewayState}
    (h : SameButConfidential shared g₁.db g₂.db) :
    answer p ⟨env, .apiKey key, call⟩ g₁ = answer p ⟨env, .apiKey key, call⟩ g₂ := by
  have hD : Indistinct p key (· ∈ shared) (SameButConfidential shared) :=
    indistinct_of_filter hrls hrole
  apply answer_eq hD.apply
  · intro hallow
    show Act.Rel (Session.Alike (SameButConfidential shared) (settingsOf key))
      (toolBody p env (.apiKey key) call) _
    cases call with
    | listSources => exact rel_listSources
    | searchDocuments q maxResults => exact rel_searchDocuments hD q maxResults
    | semanticSearchDocuments q maxResults => exact rel_semanticSearchDocuments hD q maxResults
    | queryDatabase table filters maxRows =>
        apply rel_queryDatabase
        apply rel_query
        intro name t conds htable hfind hconds d₁ d₂ hd
        cases t with
        | employees => simp [selectRows, tableRows, hd.employees]
        | documentChunks =>
            have hfound := List.find?_some hfind
            have hname : name = jstr "document_chunks" := (of_decide_eq_true hfound).symm
            apply selectRows_documents hrls hconds ?_ _ _ hd
            intro hpass
            apply hleak
            rw [htable, hname]
            exact ⟨hallow, filters, maxRows, rfl, hpass⟩
  · exact h

end Layer

/-! ## A row that leaks -/

/-- The columns a confidential row can be asked for by. -/
def textColumns : List Column := [.docName, .classification, .textPreview]

theorem find_textColumn {c : Column} (hc : c ∈ textColumns) :
    (buildColumnList .documentChunks .readOnly).find? (fun c' =>
      some (jstr c.sqlName) = some (jstr c'.sqlName)) = some c := by
  simp only [textColumns, List.mem_cons, List.not_mem_nil, or_false] at hc
  rcases hc with rfl | rfl | rfl
  · decide
  · decide
  · decide

theorem textColumn_inj {c c' : Column} (hc : c ∈ textColumns) (hc' : c' ∈ textColumns)
    (h : jstr c.sqlName = jstr c'.sqlName) : c = c' := by
  have hfind := find_textColumn hc
  rw [h, find_textColumn hc'] at hfind
  exact (Option.some.inj hfind).symm

theorem Passable.column {f : Option JString × Option JString} (hf : Passable f) :
    ∃ c ∈ textColumns, f.1 = some (jstr c.sqlName) := by
  obtain ⟨c, text, hc, -, hcases⟩ := hf
  refine ⟨c, ?_, hc⟩
  rcases hcases with ⟨rfl, -⟩ | ⟨rfl, -⟩ | ⟨rfl, -⟩
  · decide
  · decide
  · decide

/-- What a passable filter on a column asks for. -/
theorem Passable.text {f : Option JString × Option JString} (hf : Passable f) {c : Column}
    (hcol : c ∈ textColumns) (hc : f.1 = some (jstr c.sqlName)) :
    ∃ text, f.2.bind bindText = some text ∧ (c = .classification ∧ text = "CONFIDENTIAL" ∨
      c = .docName ∧ text.length ≤ 255 ∨ c = .textPreview ∧ text.length ≤ 500) := by
  obtain ⟨c', text, hc', htext, hcases⟩ := hf
  have hcol' : c' ∈ textColumns := by
    rcases hcases with ⟨rfl, -⟩ | ⟨rfl, -⟩ | ⟨rfl, -⟩ <;> decide
  have heq : c = c' := textColumn_inj hcol hcol' (Option.some.inj (hc.symm.trans hc'))
  rw [heq]
  exact ⟨text, htext, hcases⟩

/-- The text the filters ask for in a column. -/
def textFor (entries : List (Option JString × Option JString)) (c : Column) (otherwise : String) :
    String :=
  ((entries.find? fun f => f.1 = some (jstr c.sqlName)).bind fun f => f.2.bind bindText).getD
    otherwise

theorem textFor_of_mem {entries : List (Option JString × Option JString)}
    (hnodup : (entries.map Prod.fst).Nodup) {f : Option JString × Option JString} (hf : f ∈ entries)
    {c : Column} (hc : f.1 = some (jstr c.sqlName)) {text : String}
    (htext : f.2.bind bindText = some text) (otherwise : String) :
    textFor entries c otherwise = text := by
  have hfind := find?_of_nodup hnodup hf
  rw [hc] at hfind
  simp [textFor, hfind, htext]

/-- It is one that a row can hold. -/
theorem textFor_length {entries : List (Option JString × Option JString)}
    (hpass : ∀ f ∈ entries, Passable f) {c : Column} {otherwise : String} {bound : Nat}
    (hcol : c = .docName ∧ bound = 255 ∨ c = .textPreview ∧ bound = 500)
    (hotherwise : otherwise.length ≤ bound) : (textFor entries c otherwise).length ≤ bound := by
  unfold textFor
  cases hfind : entries.find? fun f => f.1 = some (jstr c.sqlName) with
  | none => exact hotherwise
  | some f =>
      have hc : f.1 = some (jstr c.sqlName) := by simpa using List.find?_some hfind
      have hmem : c ∈ textColumns := by
        rcases hcol with ⟨rfl, -⟩ | ⟨rfl, -⟩
        · decide
        · decide
      obtain ⟨text, htext, hcases⟩ :=
        (hpass f (List.mem_of_find?_eq_some hfind)).text hmem hc
      show ((f.2.bind bindText).getD otherwise).length ≤ bound
      rw [htext]
      rcases hcol with ⟨rfl, rfl⟩ | ⟨rfl, rfl⟩
      · simpa using hcases
      · simpa using hcases

/-- A confidential row with the texts the filters ask for. -/
def askedRow (entries : List (Option JString × Option JString)) : DocumentChunk :=
  { planRow with
    docName := textFor entries .docName "plan.txt"
    textPreview := some (textFor entries .textPreview "the plan") }

theorem askedRow_fits {entries : List (Option JString × Option JString)}
    (hpass : ∀ f ∈ entries, Passable f) : ChunkFits (askedRow entries) :=
  ⟨textFor_length hpass (Or.inl ⟨rfl, rfl⟩) (by decide),
    textFor_length hpass (Or.inr ⟨rfl, rfl⟩) (by decide)⟩

theorem filterEntries_nodup (filters : Option Filters) :
    ((filterEntries filters).map Prod.fst).Nodup := by
  cases filters with
  | none => exact List.nodup_nil
  | some f => exact f.keys_nodup

/-- Passable filters are sent, and the row they ask for matches them. -/
theorem askedRow_matches {filters : Option Filters} (hpass : ∀ f ∈ filterEntries filters, Passable f) :
    ∃ conds bound, conditions (buildColumnList .documentChunks .readOnly) filters = some conds ∧
      conds.mapM bindCondition = some bound ∧
      rowMatches bound (chunkRow (askedRow (filterEntries filters))) = true := by
  have hsent : ∀ f ∈ filterEntries filters, ∃ cond,
      (((buildColumnList .documentChunks .readOnly).find? fun c => f.1 = some (jstr c.sqlName)).map
        fun c => (c, f.2)) = some cond := by
    intro f hf
    obtain ⟨c, hcol, hc⟩ := (hpass f hf).column
    rw [hc, find_textColumn hcol]
    exact ⟨_, rfl⟩
  obtain ⟨conds, hconds, himages⟩ := mapM_of_images hsent
  -- every condition that was sent asks for the text the row holds
  have hasks : ∀ cond ∈ conds, ∃ c text, bindCondition cond = some (c, some text) ∧
      chunkRow (askedRow (filterEntries filters)) c = .text text := by
    intro cond hcond
    obtain ⟨f, hf, hfcond⟩ := himages cond hcond
    obtain ⟨c, hcol, hc⟩ := (hpass f hf).column
    rw [hc, find_textColumn hcol, Option.map_some, Option.some.injEq] at hfcond
    obtain ⟨text, htext, hcases⟩ := (hpass f hf).text hcol hc
    obtain ⟨v, hv, hbind⟩ := Option.bind_eq_some_iff.mp htext
    have hheld := textFor_of_mem (filterEntries_nodup filters) hf hc htext
    refine ⟨c, text, ?_, ?_⟩
    · rw [← hfcond, hv]
      have htextual : c.isText = true := by
        rcases hcases with ⟨rfl, -⟩ | ⟨rfl, -⟩ | ⟨rfl, -⟩ <;> rfl
      simp [bindCondition, htextual, hbind]
    · rcases hcases with ⟨rfl, rfl⟩ | ⟨rfl, -⟩ | ⟨rfl, -⟩
      · rfl
      · exact congrArg SqlValue.text (hheld "plan.txt")
      · exact congrArg SqlValue.text (hheld "the plan")
  obtain ⟨bound, hbound, hboundImages⟩ := mapM_of_images fun cond hcond => by
    obtain ⟨c, text, hbind, -⟩ := hasks cond hcond
    exact ⟨_, hbind⟩
  refine ⟨conds, bound, hconds, hbound, ?_⟩
  apply List.all_eq_true.mpr
  intro b hb
  obtain ⟨cond, hcond, hcb⟩ := hboundImages b hb
  obtain ⟨c, text, hbind, hrow⟩ := hasks cond hcond
  rw [hbind, Option.some.injEq] at hcb
  rw [← hcb]
  simpa using hrow

/-! ## The theorem -/

/-- What an undisturbed `query_database` answers. -/
theorem answer_calm {p : Platform} {key : ApiKey} {name : JString} {filters : Option Filters}
    {maxRows : Option Int} (hallow : allowlistRejects (.apiKey key) "query_database" = none)
    {g : GatewayState} {rows : List SqlRow}
    (hallowed : accessDenied key.role name filters = false)
    (hsome : queryAnswer p calmEnv key name filters maxRows g.db = some rows) :
    answer p ⟨calmEnv, .apiKey key, .queryDatabase (some name) filters maxRows⟩ g
      = .ok (.rows rows) := by
  obtain ⟨s, entry, hrun, hpending⟩ := (pending_inContext (.apiKey key) g).queryDatabase_ok (p := p)
    (fun _ => rfl) hallowed hsome
  obtain ⟨out, s', hrun', -, -, hinvoke⟩ := invoke_reached p
    ⟨calmEnv, .apiKey key, .queryDatabase (some name) filters maxRows⟩ hallow rfl g
  rw [show toolBody p calmEnv (.apiKey key) (.queryDatabase (some name) filters maxRows)
      (inContext (.apiKey key) g.session) = _ from hrun] at hrun'
  cases hrun'
  unfold answer
  rw [hinvoke, Session.finish_commit rules hpending.tx ⟨rfl, rfl, rfl, rfl⟩]

/-- **The classification layer.** With the policies not enforced, the answer to a `READ_ONLY` call
is independent of the confidential rows exactly when the call does not leak. -/
theorem classification_layer {p : Platform} (hrls : p.rlsEnforced = false) {key : ApiKey}
    (hrole : key.role = .readOnly) (call : ToolCall) :
    (∀ env shared (g₁ g₂ : GatewayState), SameButConfidential shared g₁.db g₂.db →
      answer p ⟨env, .apiKey key, call⟩ g₁ = answer p ⟨env, .apiKey key, call⟩ g₂) ↔
    ¬ Leaks key call := by
  constructor
  · rintro hsame ⟨hallow, filters, maxRows, rfl, hpass⟩
    obtain ⟨conds, bound, hconds, hbound, hmatch⟩ := askedRow_matches hpass
    have hfind : (allowedTables.find? fun t => jstr t.name = jstr "document_chunks")
        = some .documentChunks := by decide
    rw [← hrole] at hconds
    have hallowed : accessDenied key.role (jstr "document_chunks") filters = false := by
      simp [accessDenied, hfind, hconds]
    have hquery : ∀ (g : GatewayState) (chunks : List DocumentChunk), g.db.chunks = chunks →
        queryAnswer p calmEnv key (jstr "document_chunks") filters maxRows g.db
          = some ((((chunks.map chunkRow).filter (rowMatches bound)).take (rowLimit maxRows)).map
            fun row => (buildColumnList .documentChunks key.role).map fun c =>
              (c.sqlName, row c)) := by
      intro g chunks hchunks
      rw [queryAnswer_allowed hfind hconds]
      simp [calmEnv, selectRows, hbound, tableRows, visibleRows, hrls, hchunks]
    -- the row that is asked for is in one answer and not in the other
    have hempty := answer_calm hallow hallowed (hquery noDocuments [] rfl)
    have hone := answer_calm hallow hallowed
      (hquery (oneDocument (askedRow (filterEntries filters)) (askedRow_fits hpass)) _ rfl)
    have heq := hsame calmEnv [] noDocuments
      (oneDocument (askedRow (filterEntries filters)) (askedRow_fits hpass))
      ⟨rfl, rfl, rfl, rfl, rfl, rfl⟩
    have hmatch' : ([askedRow (filterEntries filters)].map chunkRow).filter (rowMatches bound)
        = [chunkRow (askedRow (filterEntries filters))] := by
      simp [hmatch]
    obtain ⟨n, hn⟩ := Nat.exists_eq_succ_of_ne_zero (rowLimit_pos maxRows).ne'
    rw [hempty, hone, show (oneDocument _ (askedRow_fits hpass)).db.chunks
      = [askedRow (filterEntries filters)] from rfl, hmatch', hn] at heq
    cases heq
  · intro hleak env shared g₁ g₂ h
    exact answer_same_of_not_leaks hrls hrole hleak env h

/-- A search for the plan answers the same, whether the plan is there or not. -/
theorem search_ignores_plan :
    answer (samplePlatform false) ⟨calmEnv, .apiKey (sampleKey .readOnly 1),
        .searchDocuments (some (jstr "the plan")) none⟩ noDocuments
      = answer (samplePlatform false) ⟨calmEnv, .apiKey (sampleKey .readOnly 1),
        .searchDocuments (some (jstr "the plan")) none⟩ (oneDocument planRow planRow_fits) := by
  have hnot : ¬ Leaks (sampleKey .readOnly 1) (.searchDocuments (some (jstr "the plan")) none) := by
    rintro ⟨-, _, _, h, -⟩
    cases h
  exact (classification_layer rfl rfl _).mpr hnot calmEnv [] _ _ ⟨rfl, rfl, rfl, rfl, rfl, rfl⟩

/-- `query_database` without filters returns the plan to a `READ_ONLY` key. -/
theorem plan_disclosed :
    SameButConfidential [] noDocuments.db (oneDocument planRow planRow_fits).db ∧
      answer (samplePlatform false) ⟨calmEnv, .apiKey (sampleKey .readOnly 1), documentsQuery⟩
        noDocuments = .ok (.rows []) ∧
      answer (samplePlatform false) ⟨calmEnv, .apiKey (sampleKey .readOnly 1), documentsQuery⟩
        (oneDocument planRow planRow_fits) = .ok (.rows [[("id", .uuid (sampleId 9)),
          ("doc_name", .text "plan.txt"), ("classification", .text "CONFIDENTIAL"),
          ("chunk_index", .int 0), ("text_preview", .text "the plan"), ("created_at", .timestamp 0),
          ("workspace_id", .uuid defaultWorkspace)]]) :=
  ⟨⟨rfl, rfl, rfl, rfl, rfl, rfl⟩, rfl, rfl⟩

end McpGateway.Gateway
