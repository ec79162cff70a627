import McpGateway.Gateway.Budget
import McpGateway.Gateway.Connectors
import McpGateway.Gateway.Guard

/-! # The four tools

The bodies of the `@Tool` methods. The two searches share their text but for the statement that
finds the rows, so they are one definition. -/

namespace McpGateway.Gateway

open Foundation

/-! ## `list_sources` -/

def columnNames (table : Table) (role : AccessRole) : List String :=
  (buildColumnList table role).map Column.sqlName

/-- The `sources` list for a role. -/
def sourcesFor (role : AccessRole) : List SourceInfo := [
  ⟨"employees", "structured", none, columnNames .employees role⟩,
  ⟨"document_chunks", "encrypted-documents",
    some ((allowedClassifications role).map Classification.text), columnNames .documentChunks role⟩]

/-- `SourceListTool.listSources`. -/
def listSources (env : Env) (auth : Authentication) : GatewayM ToolResult := do
  let apiKey ← currentApiKey auth
  let role := apiKey.role
  let sources := sourcesFor role
  log env ⟨"list_sources", some apiKey.id, [],
    jstr "role=" ++ jstr role.name ++ jstr ", listed " ++ jstr sources.length.repr ++
      jstr " sources"⟩
  pure (.sources role.name sources)

/-! ## `query_database` -/

def defaultMaxRows : Nat := 100
def hardMaxRows : Nat := 500

def rowLimit (maxRows : Option Int) : Nat :=
  match maxRows with
  | some n => (min (max n 1) (hardMaxRows : Int)).toNat
  | none => defaultMaxRows

theorem rowLimit_pos (maxRows : Option Int) : 0 < rowLimit maxRows := by
  unfold rowLimit defaultMaxRows hardMaxRows
  cases maxRows with
  | none => decide
  | some n =>
      show 0 < (min (max n 1) (500 : Int)).toNat
      omega

/-- The `params` of the two entries; the table is not null where they are made. -/
def queryParams (table : JString) (filters : Option Filters) : List (String × ParamValue) :=
  [("table", .text table), ("filters", .filters (filters.getD Filters.empty))]

/-- `DatabaseQueryTool.queryDatabase`. -/
def queryDatabase (p : Platform) (env : Env) (auth : Authentication) (table : Option JString)
    (filters : Option Filters) (maxRows : Option Int) : GatewayM ToolResult := do
  let apiKey ← currentApiKey auth
  let limit := rowLimit maxRows
  let results ← tryCatch (query p env table filters apiKey.role limit) fun
    | .security message => do
        log env ⟨"authz_denial", some apiKey.id, queryParams (table.getD []) filters,
          jstr "DENIED: " ++ table.getD []⟩
        throw (.security message)
    | e => throw e
  log env ⟨"query_database", some apiKey.id, queryParams (table.getD []) filters,
    jstr "returned " ++ jstr results.length.repr ++ jstr " rows from " ++ table.getD []⟩
  pure (.rows results)

/-! ## The searches -/

/-- `MAX_QUERY_LENGTH` of the search tools. -/
def maxQueryLength : Nat := 500

/-- The arguments the searches accept: `SEC-018`. -/
def acceptedQuery (query : Option JString) : Option JString :=
  query.filter fun q => !isBlank q && q.length ≤ maxQueryLength

def searchLimit (maxResults : Option Int) : Int := min (maxResults.getD 5) 10

/-- The text of a fragment between its trust boundary markers. -/
def framed (rawText : JString) : JString :=
  jstr "[EXTERNAL_CONTENT_START]\n" ++ rawText ++ jstr "\n[EXTERNAL_CONTENT_END]"

def fragmentOf (row : DocumentChunk) (rawText : JString) : DataFragment :=
  ⟨row.id.toText, row.docName, row.classification.text, framed rawText, row.chunkIndex⟩

/-- The loop over the rows found. -/
def fetchFragments (p : Platform) (env : Env) : List DocumentChunk → GatewayM (List DataFragment)
  | [] => pure []
  | row :: rows => do
      let rawText ← fetchChunk p env row.id
      let rest ← fetchFragments p env rows
      pure (fragmentOf row rawText :: rest)

/-- How a search finds its rows: from the caller's role, the sanitized query and the limit. -/
abbrev Retrieval := AccessRole → JString → Int → GatewayM (List DocumentChunk)

/-- The chunks are counted after retrieval; an exceeded budget is caught. -/
def spendBudget (p : Platform) (env : Env) (apiKeyId : Uuid) (count : Nat) :
    GatewayM (Option Nat) :=
  tryCatch
    (do
      commitChunks p env (some apiKeyId) count
      pure none)
    fun
      | .budgetExceeded retryAfterSeconds => pure (some retryAfterSeconds)
      | e => throw e

/-- From the rows on: fragments, budget, audit. -/
def answerWith (p : Platform) (env : Env) (toolName : String) (apiKey : ApiKey) (query : JString)
    (limit : Int) (flagged : Bool) (rows : List DocumentChunk) : GatewayM ToolResult := do
  let fragments ← fetchFragments p env rows
  let exceeded ← spendBudget p env apiKey.id fragments.length
  match exceeded with
  | some retryAfterSeconds => pure (.fragments [budgetExceeded retryAfterSeconds])
  | none => do
      log env ⟨toolName, some apiKey.id,
        [("query", .text query), ("maxResults", .number limit), ("flagged", .flag flagged)],
        jstr "returned " ++ jstr fragments.length.repr ++ jstr " fragments"⟩
      pure (.fragments fragments)

/-- From the sanitized query on. -/
def searchAccepted (p : Platform) (env : Env) (auth : Authentication) (toolName : String)
    (retrieve : Retrieval) (query : JString) (maxResults : Option Int)
    (guardResult : ValidationResult) : GatewayM ToolResult := do
  let apiKey ← currentApiKey auth
  let limit := searchLimit maxResults
  let rows ← retrieve apiKey.role guardResult.sanitizedQuery limit
  answerWith p env toolName apiKey query limit guardResult.flagged rows

/-- The guard; a rejection is caught. -/
def guardQuery (p : Platform) (env : Env) (auth : Authentication) (query : JString) :
    GatewayM (Except String ValidationResult) :=
  tryCatch
    (do
      let result ← validate p env auth (some query)
      pure (.ok result))
    fun
      | .toolInputRejected reason => pure (.error reason)
      | e => throw e

/-- The body shared by the two search tools. -/
def searchTool (p : Platform) (env : Env) (auth : Authentication) (toolName : String)
    (retrieve : Retrieval) (query : Option JString) (maxResults : Option Int) :
    GatewayM ToolResult :=
  match acceptedQuery query with
  | none => throw (.illegalArgument ("Search query must be between 1 and " ++ maxQueryLength.repr ++
      " characters"))
  | some q => do
      let guardResult ← guardQuery p env auth q
      match guardResult with
      | .error reason => pure (.fragments [queryRejected reason])
      | .ok result => searchAccepted p env auth toolName retrieve q maxResults result

def retrieveByText (p : Platform) (env : Env) : Retrieval := fun role sanitizedQuery limit =>
  statement env.selectFails (selectByText p sanitizedQuery (allowedClassifications role) limit)

def retrieveByVector (p : Platform) (env : Env) : Retrieval := fun role sanitizedQuery limit => do
  let queryVector ← embed p env sanitizedQuery
  statement env.selectFails (selectByVector p queryVector (allowedClassifications role) limit)

/-- `DocumentSearchTool.searchDocuments`. -/
def searchDocuments (p : Platform) (env : Env) (auth : Authentication) (query : Option JString)
    (maxResults : Option Int) : GatewayM ToolResult :=
  searchTool p env auth "search_documents" (retrieveByText p env) query maxResults

/-- `SemanticSearchTool.semanticSearchDocuments`. -/
def semanticSearchDocuments (p : Platform) (env : Env) (auth : Authentication)
    (query : Option JString) (maxResults : Option Int) : GatewayM ToolResult :=
  searchTool p env auth "semantic_search_documents" (retrieveByVector p env) query maxResults

/-- The method behind a call. -/
def toolBody (p : Platform) (env : Env) (auth : Authentication) : ToolCall → GatewayM ToolResult
  | .listSources => listSources env auth
  | .queryDatabase table filters maxRows => queryDatabase p env auth table filters maxRows
  | .searchDocuments q maxResults => searchDocuments p env auth q maxResults
  | .semanticSearchDocuments q maxResults => semanticSearchDocuments p env auth q maxResults

end McpGateway.Gateway
