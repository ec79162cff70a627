import McpGateway.Foundation.Transition
import McpGateway.Schema
import McpGateway.Ingestion.Extract
import McpGateway.Ingestion.Chunker

/-! # One poll cycle

`run_cycle` of `ingestion/src/main.rs` and what it calls. Everything the daemon gets from outside in
one cycle (the connector's answers, random IVs and ids, the replies of the embedding service,
whether a database call succeeds) is the data of the `Cycle`, so every pattern of failures is some
cycle. The daemon's database role is not subject to row-level security.

An `anyhow` error only ends up in the log, so `none` stands for it here. -/

namespace McpGateway.Ingestion

open Foundation

/-! ## What the connector reports -/

inductive AuthErrorKind where
  | invalidCode | accessDenied | invalidClient | unexpected
  deriving DecidableEq, Repr

inductive ConnectorError where
  | http (status : Nat)
  | auth (kind : AuthErrorKind)
  | cursorInvalid
  | throttled (retryAfterSecs : Nat)
  | other (msg : String)
  deriving DecidableEq, Repr

/-- `ChangeItem`, without the `raw` envelope kept for debugging. -/
structure ChangeItem where
  remoteId : String
  parentId : Option String
  name : String
  isFolder : Bool
  modifiedAt : Option String
  deleted : Bool
  deriving DecidableEq, Repr

structure DeltaResult where
  nextCursor : Option String
  changes : List ChangeItem
  more : Bool

/-! ## What the outside does -/

/-- A database call that takes effect and says so, one that fails without effect, and one whose
effect is committed although the caller sees an error. -/
inductive DbOutcome where
  | done | failed | lost
  deriving DecidableEq, Repr

/-- An entry of the embedding service's reply. -/
structure EmbedData where
  index : Nat
  embedding : Vector32

/-- The outside world while one item is processed. `chunkerFails` stands for the error branch the
loop has for a chunker that, as it is now, never errs. -/
structure ItemEnv where
  delete : DbOutcome
  download : Except ConnectorError Bytes
  chunkerFails : Bool
  iv : Nat → Option Bytes
  tei : Nat → Option (List EmbedData)
  upsert : DbOutcome
  newId : Nat → Uuid
  now : Nat

/-- A change and what the outside does while it is processed. -/
abbrev Report := ChangeItem × ItemEnv

/-- The outside world during one cycle. -/
structure Cycle where
  loadFails : Bool
  listChanges : Option String → Except ConnectorError DeltaResult
  items : Nat → ItemEnv
  save : DbOutcome

/-- The daemon's settings. -/
structure Config where
  unicode : UnicodeTables
  /-- AES-256-GCM under a key and IV; `none` when sealing fails -/
  aesGcm : (key iv plaintext : Bytes) → Option Bytes
  contentKey : Bytes
  contentKey_length : contentKey.length = 32
  classification : Classification
  batchSize : Nat
  connectorId : String

/-! ## Encryption and embedding -/

/-- `crypto::encrypt`: `[12B IV][ciphertext + tag]`; `none` for the IV is a failing RNG. -/
def encrypt (cfg : Config) (iv : Option Bytes) (plaintext : Bytes) : Option Bytes := do
  let iv ← iv
  let sealed ← cfg.aesGcm cfg.contentKey iv plaintext
  some (iv ++ sealed)

/-- The `encrypted` of the loop: every chunk from the `i`-th on, or an error at the first failure. -/
def encryptFrom (cfg : Config) (env : ItemEnv) : Nat → List String → Option (List Bytes)
  | _, [] => some []
  | i, c :: cs => do
      let e ← encrypt cfg (env.iv i) (asBytes c)
      let es ← encryptFrom cfg env (i + 1) cs
      some (e :: es)

/-- `texts.chunks(batch_size)`; the client raises a batch size of zero to one. -/
def batches (batchSize : Nat) (texts : List String) : List (List String) :=
  match texts with
  | [] => []
  | t :: ts =>
      (t :: ts).take (max batchSize 1) :: batches batchSize ((t :: ts).drop (max batchSize 1))
termination_by texts.length
decreasing_by
  simp only [List.length_drop, List.length_cons]
  omega

/-- `embed_one_batch`: the reply must have one entry for each text, and is sorted by index. -/
def embedOneBatch (reply : Option (List EmbedData)) (texts : List String) :
    Option (List Vector32) := do
  let data ← reply
  if data.length ≠ texts.length then none
  else some ((data.mergeSort fun a b => a.index ≤ b.index).map EmbedData.embedding)

/-- The loop of `embed_batch`; `k` counts the requests. -/
def embedFrom (tei : Nat → Option (List EmbedData)) : Nat → List (List String) →
    Option (List Vector32)
  | _, [] => some []
  | k, b :: bs => do
      let batchResult ← embedOneBatch (tei k) b
      let rest ← embedFrom tei (k + 1) bs
      some (batchResult ++ rest)

/-- `embed_batch`. -/
def embedBatch (cfg : Config) (env : ItemEnv) (texts : List String) : Option (List Vector32) :=
  embedFrom env.tei 0 (batches cfg.batchSize texts)

/-! ## `document_chunks` -/

/-- `DELETE FROM document_chunks WHERE source_item_id = $1`. -/
def deleteChunks (rows : List DocumentChunk) (sourceItemId : String) : List DocumentChunk :=
  rows.filter fun r => r.sourceItemId ≠ some sourceItemId

/-- `i as i32`. -/
def asI32 (i : Nat) : Int := Int.bmod i 4294967296

/-- The row of the `i`-th chunk. The columns the `INSERT` does not name get their defaults. -/
def newRow (cfg : Config) (x : Report) (i : Nat) (enc : Bytes) (emb : Vector32) : DocumentChunk where
  id := x.2.newId i
  docName := x.1.name
  classification := cfg.classification
  chunkIndex := asI32 i
  textPreview := none
  createdAt := x.2.now
  workspaceId := defaultWorkspace
  encryptedContent := some enc
  embedding := some emb
  sourceItemId := some x.1.remoteId

/-- The `INSERT`s from the `i`-th chunk on; an id that is taken violates the primary key. -/
def insertFrom (cfg : Config) (x : Report) : Nat → List (Bytes × Vector32) → List DocumentChunk →
    Option (List DocumentChunk)
  | _, [], rows => some rows
  | i, (enc, emb) :: more, rows =>
      if rows.any fun r => r.id = x.2.newId i then none
      else insertFrom cfg x (i + 1) more (rows ++ [newRow cfg x i enc emb])

/-- `upsert_chunks`: delete and insert in one transaction. -/
def upsertChunks (cfg : Config) (rows : List DocumentChunk) (x : Report) (encrypted : List Bytes)
    (embeddings : List Vector32) : Option (List DocumentChunk) :=
  insertFrom cfg x 0 (encrypted.zip embeddings) (deleteChunks rows x.1.remoteId)

/-! ## The item loop -/

/-- Where the body of the loop was left. -/
inductive ItemOutcome where
  | deleted | deleteFailed | downloadFailed | emptyText | noChunks | chunkingFailed
  | encryptionFailed | embeddingFailed | upsertFailed | processed
  deriving DecidableEq, Repr

/-- The body of `for item in &delta.changes`. -/
def processItem (cfg : Config) (rows : List DocumentChunk) (x : Report) :
    List DocumentChunk × ItemOutcome :=
  let (item, env) := x
  if item.deleted then
    match env.delete with
    | .done => (deleteChunks rows item.remoteId, .deleted)
    | .lost => (deleteChunks rows item.remoteId, .deleteFailed)
    | .failed => (rows, .deleteFailed)
  else
    match env.download with
    | .error _ => (rows, .downloadFailed)
    | .ok content =>
        let text := extractText cfg.unicode content item.name
        if text = "" then (rows, .emptyText)
        else if env.chunkerFails then (rows, .chunkingFailed)
        else if chunk text = [] then (rows, .noChunks)
        else
          match encryptFrom cfg env 0 (chunk text) with
          | none => (rows, .encryptionFailed)
          | some encrypted =>
              match embedBatch cfg env (chunk text) with
              | none => (rows, .embeddingFailed)
              | some embeddings =>
                  match upsertChunks cfg rows x encrypted embeddings with
                  | none => (rows, .upsertFailed)
                  | some rows' =>
                      match env.upsert with
                      | .done => (rows', .processed)
                      | .lost => (rows', .upsertFailed)
                      | .failed => (rows, .upsertFailed)

def runItems (cfg : Config) : List DocumentChunk → List Report →
    List DocumentChunk × List ItemOutcome
  | rows, [] => (rows, [])
  | rows, x :: xs =>
      let (rows, outcome) := processItem cfg rows x
      let (rows, outcomes) := runItems cfg rows xs
      (rows, outcome :: outcomes)

/-! ## The cycle -/

/-- The two tables; `cursors` is `ingestion_state.delta_token` by `connector_id`. -/
structure Db where
  chunks : List DocumentChunk
  cursors : String → Option String

/-- `save_cursor`. -/
def saveCursor (cursors : String → Option String) (connectorId token : String) :
    String → Option String :=
  fun id => if id = connectorId then some token else cursors id

inductive CycleError where
  | loadCursor
  | listChanges (e : ConnectorError)
  | saveCursor
  deriving DecidableEq, Repr

/-- The items of a cycle, each with its own piece of the outside world. -/
def Cycle.batch (a : Cycle) (delta : DeltaResult) : List Report :=
  delta.changes.mapIdx fun i item => (item, a.items i)

/-- `run_cycle`. -/
def runCycle (cfg : Config) (db : Db) (a : Cycle) : Except CycleError Nat × Db :=
  if a.loadFails then (.error .loadCursor, db)
  else
    match a.listChanges (db.cursors cfg.connectorId) with
    | .error e => (.error (.listChanges e), db)
    | .ok delta =>
        let (chunks, outcomes) := runItems cfg db.chunks (a.batch delta)
        let processed := outcomes.count .processed
        match delta.nextCursor with
        | none => (.ok processed, ⟨chunks, db.cursors⟩)
        | some token =>
            match a.save with
            | .done => (.ok processed, ⟨chunks, saveCursor db.cursors cfg.connectorId token⟩)
            | .lost =>
                (.error .saveCursor, ⟨chunks, saveCursor db.cursors cfg.connectorId token⟩)
            | .failed => (.error .saveCursor, ⟨chunks, db.cursors⟩)

/-- The poll loop of one connector: cycle after cycle, whatever each of them returns. -/
def daemon (cfg : Config) : System Db Cycle where
  init db := db = ⟨[], fun _ => none⟩
  step db a := some (runCycle cfg db a).2

/-! ## A concrete daemon

Concrete runs use one document, `a.txt`, whose text is `hello`, later `world`, or nothing. The
cipher is AES-256-GCM on these texts under the key `02 … 02` and the IVs `05 … 05` and `06 … 06`. -/

theorem sampleKey_length : (List.replicate 32 (2 : UInt8)).length = 32 := by decide

def sampleConfig : Config where
  unicode := ⟨id, id⟩
  aesGcm := fun _ iv plaintext =>
    if iv = List.replicate 12 5 ∧ plaintext = asBytes "hello" then
      some (bytesBE 21 0x40350261cf2550a268d96d667db2692fa1ed80d76f)
    else if iv = List.replicate 12 6 ∧ plaintext = asBytes "world" then
      some (bytesBE 21 0xb99fb6745da9fa421b3a19aae146bad02d37cdcaeb)
    else none
  contentKey := List.replicate 32 2
  contentKey_length := sampleKey_length
  classification := .internal
  batchSize := 32
  connectorId := "drive"

def sampleItem (deleted : Bool) : ChangeItem :=
  ⟨"item-1", none, "a.txt", false, none, deleted⟩

/-- A vector of ones. -/
def sampleVector : Vector32 := List.replicate 768 0x3F800000

/-- Nothing fails, and a download returns the given text. -/
def sampleEnv (text : String) : ItemEnv where
  delete := .done
  download := .ok (asBytes text)
  chunkerFails := false
  iv := fun _ => some (List.replicate 12 5)
  tei := fun _ => some [⟨0, sampleVector⟩]
  upsert := .done
  newId := fun i => Uuid.ofDigit (i + 1)
  now := 0

/-- A cycle that reports these changes and stores the cursor. -/
def sampleCycle (changes : List ChangeItem) (items : Nat → ItemEnv) (token : String) : Cycle where
  loadFails := false
  listChanges := fun _ => .ok ⟨some token, changes, false⟩
  items := items
  save := .done

end McpGateway.Ingestion
