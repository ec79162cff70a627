import McpGateway.Gateway.Session
import McpGateway.Text

/-! # Connectors

The three ways a tool reads the tables: `PostgresConnector.query` over an allowlist of tables and
columns, the keyword and vector searches over `document_chunks`, and `DbContentStore.fetchChunk`,
which decrypts one chunk. -/

namespace McpGateway.Gateway

open Foundation

/-! ## `PostgresConnector` -/

inductive Table where
  | employees | documentChunks
  deriving DecidableEq, Repr

def Table.name : Table → String
  | .employees      => "employees"
  | .documentChunks => "document_chunks"

/-- `ALLOWED_TABLES`. -/
def allowedTables : List Table := [.employees, .documentChunks]

inductive Column where
  | id | name | department | email | salary
  | docName | classification | chunkIndex | textPreview | createdAt | workspaceId
  deriving DecidableEq, Repr

def Column.sqlName : Column → String
  | .id             => "id"
  | .name           => "name"
  | .department     => "department"
  | .email          => "email"
  | .salary         => "salary"
  | .docName        => "doc_name"
  | .classification => "classification"
  | .chunkIndex     => "chunk_index"
  | .textPreview    => "text_preview"
  | .createdAt      => "created_at"
  | .workspaceId    => "workspace_id"

/-- A `VARCHAR` column, in either table. -/
def Column.isText : Column → Bool
  | .name | .department | .email | .docName | .classification | .textPreview => true
  | .id | .salary | .chunkIndex | .createdAt | .workspaceId => false

/-- `ALL_COLUMNS`. -/
def allColumns : Table → List Column
  | .employees => [.id, .name, .department, .email, .salary]
  | .documentChunks =>
      [.id, .docName, .classification, .chunkIndex, .textPreview, .createdAt, .workspaceId]

/-- `ROLE_HIDDEN_COLUMNS`. -/
def roleHiddenColumns : Table → List Column
  | .employees => [.salary]
  | .documentChunks => []

def buildColumnList (table : Table) (role : AccessRole) : List Column :=
  match role with
  | .readOnly => (allColumns table).filter (· ∉ roleHiddenColumns table)
  | .admin => allColumns table

/-- A row, by column. -/
abbrev TableRow := Column → SqlValue

def textOrNull : Option String → SqlValue
  | some s => .text s
  | none => .null

def Employee.row (e : Employee) : TableRow
  | .id => .int e.id
  | .name => .text e.name
  | .department => textOrNull e.department
  | .email => textOrNull e.email
  | .salary => match e.salary with
      | some n => .numeric n
      | none => .null
  | _ => .null

def chunkRow (c : DocumentChunk) : TableRow
  | .id => .uuid c.id
  | .docName => .text c.docName
  | .classification => .text c.classification.text
  | .chunkIndex => .int c.chunkIndex
  | .textPreview => textOrNull c.textPreview
  | .createdAt => .timestamp c.createdAt
  | .workspaceId => .uuid c.workspaceId
  | _ => .null

/-- The rows a `SELECT` on the table sees. The policy on `employees` is `USING (true)`. -/
def tableRows (p : Platform) (table : Table) (db : Database) (s : Settings) :
    Option (List TableRow) :=
  match table with
  | .employees => some (db.employees.map Employee.row)
  | .documentChunks => (visibleRows p.rlsEnforced db s).map (·.map chunkRow)

/-- The entries of a filter map that may be null. -/
def filterEntries (filters : Option Filters) : List (Option JString × Option JString) :=
  (filters.map Filters.entries).getD []

/-- The column conditions of a filter map, or `none` when one is not on a visible column. -/
def conditions (allowedCols : List Column) (filters : Option Filters) :
    Option (List (Column × Option JString)) :=
  ((filters.map Filters.entries).getD []).mapM fun (key, value) =>
    (allowedCols.find? fun c => key = some (jstr c.sqlName)).map fun c => (c, value)

/-- What a condition's parameter is bound to. It is sent as text, and no other column type compares
with text; a null has no type. -/
def bindCondition (condition : Column × Option JString) : Option (Column × Option String) :=
  match condition with
  | (c, none) => some (c, none)
  | (c, some v) => if c.isText then (bindText v).map fun t => (c, some t) else none

/-- `col = ? AND …` on a row; comparing with null is never true. -/
def rowMatches (bound : List (Column × Option String)) (row : TableRow) : Bool :=
  bound.all fun (c, v) => match v with
    | some t => row c = .text t
    | none => false

/-- `SELECT cols FROM table WHERE … LIMIT maxRows`. -/
def selectRows (p : Platform) (table : Table) (cols : List Column)
    (conds : List (Column × Option JString)) (maxRows : Nat) (db : Database) (s : Settings) :
    Option (List SqlRow) := do
  let bound ← conds.mapM bindCondition
  let rows ← tableRows p table db s
  some (((rows.filter (rowMatches bound)).take maxRows).map fun row =>
    cols.map fun c => (c.sqlName, row c))

/-- `PostgresConnector.query`. -/
def query (p : Platform) (env : Env) (table : Option JString) (filters : Option Filters)
    (role : AccessRole) (maxRows : Nat) : GatewayM (List SqlRow) :=
  match table with
  | none => throw .nullPointer
  | some name =>
      match allowedTables.find? fun t => jstr t.name = name with
      | none => throw (.security "Access denied")
      | some t =>
          match conditions (buildColumnList t role) filters with
          | none => throw (.security "Access denied")
          | some conds =>
              statement env.selectFails
                (selectRows p t (buildColumnList t role) conds maxRows)

/-! ## The searches -/

/-- The `IN` list of the search tools. -/
def allowedClassifications (role : AccessRole) : List Classification :=
  if role.canAccessConfidential then [.publicLevel, .internal, .confidential]
  else [.publicLevel, .internal]

/-- `LIMIT limit`; a negative one is an error. -/
def limitRows {α : Type} (limit : Int) (rows : List α) : Option (List α) :=
  if limit < 0 then none else some (rows.take limit.toNat)

/-- The statement of `DocumentSearchTool`. -/
def selectByText (p : Platform) (sanitizedQuery : JString) (allowed : List Classification)
    (limit : Int) (db : Database) (s : Settings) : Option (List DocumentChunk) := do
  let q ← bindText sanitizedQuery
  let rows ← visibleRows p.rlsEnforced db s
  limitRows limit (rows.filter fun row =>
    row.classification ∈ allowed ∧ p.matchesFrench (row.textPreview.getD "") q = true)

/-- The statement of `VectorSearchConnector`. Distances between vectors of different dimensions
raise. -/
def selectByVector (p : Platform) (queryVector : Vector32) (allowed : List Classification)
    (limit : Int) (db : Database) (s : Settings) : Option (List DocumentChunk) := do
  if p.acceptsVector queryVector then
    let rows ← visibleRows p.rlsEnforced db s
    let candidates := rows.filter fun row =>
      row.classification ∈ allowed ∧ row.embedding.isSome = true
    if candidates.all fun row => (row.embedding.getD []).length = queryVector.length then
      limitRows limit (candidates.mergeSort fun row row' =>
        p.closer queryVector (row.embedding.getD []) (row'.embedding.getD []))
    else none
  else none

/-- `EmbeddingService.embed`, followed by the null check of `formatVector`. -/
def embed (p : Platform) (env : Env) (text : JString) : GatewayM Vector32 :=
  if env.embedFails then throw .embedding
  else match p.embed text with
    | some v => pure v
    | none => throw .nullPointer

/-! ## `DbContentStore` -/

/-- `ContentEncryptor.IV_LENGTH_BYTES`. -/
def ivLengthBytes : Nat := 12

/-- `DbContentStore.MAX_FRAGMENT_CHARS`. -/
def maxFragmentChars : Nat := 500

/-- `new String(bytes, UTF_8)`. -/
def decodeUtf8 (bytes : Bytes) : JString :=
  (utf8Decode 0xBF none bytes).flatMap fun c => jstr (String.singleton (c.getD (Char.ofNat 0xFFFD)))

/-- `ContentEncryptor.decrypt`. -/
def decrypt (p : Platform) (encryptedBytes : Bytes) : Except Throwable JString :=
  if encryptedBytes.length < ivLengthBytes then
    .error (.illegalState "Decryption failed")  -- copyOfRange: 12 is past the end
  else
    match p.aesGcmDecrypt p.contentKey (encryptedBytes.take ivLengthBytes)
        (encryptedBytes.drop ivLengthBytes) with
    | none => .error (.security "Content authentication failed — data may be tampered")
    | some plaintext => .ok (decodeUtf8 plaintext)

/-- The text of a stored chunk, before any error is caught. -/
def chunkText (p : Platform) (row : DocumentChunk) : Except Throwable JString :=
  match row.encryptedContent with
  | none => .ok (jstr (row.textPreview.getD ""))
  | some encrypted => (decrypt p encrypted).map (·.take maxFragmentChars)

/-- `DbContentStore.fetchChunk`. -/
def fetchChunk (p : Platform) (env : Env) (chunkId : Uuid) : GatewayM JString :=
  tryCatch
    (do
      let found ← statement (env.fetchFails chunkId) fun db s =>
        (visibleRows p.rlsEnforced db s).map (·.find? fun row => row.id = chunkId)
      match found with
      | none => throw .dataAccess  -- EmptyResultDataAccessException
      | some row =>
          match chunkText p row with
          | .ok text => pure text
          | .error e => throw e)
    fun _ => pure []

end McpGateway.Gateway
