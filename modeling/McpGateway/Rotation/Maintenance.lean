import McpGateway.Gateway.Aspects
import McpGateway.Ingestion.Rows
import McpGateway.Rotation.Scan

/-! # The maintenance programs under row-level security

Three programs work on `document_chunks` beside the gateway's tools: the key rotation, the
initializer of missing embeddings and the ingestion daemon. None of them sets `app.mcp_client_id`, so
on a connection the policies bind they reach the rows of the workspaces granted to the nil id, which
no key has.

* `policies_reach` — what the policies leave to a connection without a client id.
* `maintenance_iff` — when each program does its work. -/

namespace McpGateway.Rotation

open Foundation Gateway Ingestion

/-! ## The policies of the writing statements -/

/-- The `WITH CHECK` expression of a policy in force; without one, `USING` serves. -/
def checkExpr (p : Policy) : PolicyExpr :=
  match p.command with
  | .insert => .classification
  | _ => p.usingExpr

def commandPolicies (kind : PolicyKind) (command : PolicyCommand) : List Policy :=
  policies.filter fun p => p.kind = kind ∧ (p.command = command ∨ p.command = .all)

/-- Some permissive policy of the command and every restrictive one lets the row pass. -/
def passes (expr : Policy → PolicyExpr) (grants : List Grant) (s : Settings)
    (command : PolicyCommand) (row : DocumentChunk) : Option Bool := do
  let permitted ← (commandPolicies .permissive command).mapM fun p => (expr p).eval grants s row
  let unrestricted ← (commandPolicies .restrictive command).mapM fun p => (expr p).eval grants s row
  some (permitted.any id && unrestricted.all id)

/-- Whether an `UPDATE` or `DELETE` with a `WHERE` clause reaches the row: it must also be visible. -/
def reached (grants : List Grant) (s : Settings) (command : PolicyCommand) (row : DocumentChunk) :
    Option Bool := do
  let visible ← rowVisible grants s row
  let passed ← passes Policy.usingExpr grants s command row
  some (visible && passed)

/-- Whether a row an `INSERT` or `UPDATE` writes is accepted. -/
def accepted (grants : List Grant) (s : Settings) (command : PolicyCommand) (row : DocumentChunk) :
    Option Bool :=
  passes checkExpr grants s command row

/-- What is left to a connection that has set no client id. -/
def accessOf (grants : List Grant) (s : Settings) : Access where
  reaches classification workspaceId :=
    (decide ((appSetting s.role).getD "READ_ONLY" = "ADMIN") ||
      decide (classification ≠ .confidential)) &&
    grants.any fun g => g.apiKeyId = Uuid.nil ∧ g.workspaceId = workspaceId

/-- `SET LOCAL app.mcp_role = 'ADMIN'`. -/
def initializerSettings : Settings := ⟨some "ADMIN", none⟩

/-! ## `EmbeddingInitializer` -/

/-- What the column `embedding vector(768)` takes: 768 finite numbers. -/
def fitsColumn (v : Vector32) : Bool :=
  v.length = 768 && v.all fun f => f.toNat / 8388608 % 256 ≠ 255

/-- A preview the initializer does not skip. -/
def hasText (row : DocumentChunk) : Bool :=
  match row.textPreview with
  | none => false
  | some preview => !isBlank (jstr preview)

/-- `UPDATE document_chunks SET embedding = ?::vector WHERE id = ?`. -/
def setEmbedding (access : Access) (id : Uuid) (v : Vector32) (row : DocumentChunk) : DocumentChunk :=
  if row.id = id ∧ access.reach row = true then { row with embedding := some v } else row

/-- The loop over the pending rows; `embed` is `none` for a null result, and the result is `none`
when the server refuses a vector. -/
def backfill (access : Access) (embed : String → Option Vector32) :
    List DocumentChunk → Table → Option Table
  | [], table => some table
  | row :: rows, table =>
      match row.textPreview with
      | none => backfill access embed rows table
      | some preview =>
          if isBlank (jstr preview) then backfill access embed rows table
          else
            match embed preview with
            | none => backfill access embed rows table
            | some [] => backfill access embed rows table
            | some v =>
                if fitsColumn v then
                  backfill access embed rows (table.map (setEmbedding access row.id v))
                else none

/-- `onApplicationEvent`: the table it commits. -/
def onApplicationEvent (access : Access) (embed : String → Option Vector32) (table : Table) :
    Option Table :=
  backfill access embed (table.filter fun row => access.reach row && row.embedding.isNone) table

/-- The model answers every text with a vector of the column's type. -/
def Answers (embed : String → Option Vector32) : Prop :=
  ∀ text, ∃ v, embed text = some v ∧ fitsColumn v = true

/-- What the loop makes of a row: nothing where it does not reach, and otherwise an embedding if a
pending row with text has its id. -/
structure Backfilled (access : Access) (pending : List DocumentChunk)
    (f : DocumentChunk → DocumentChunk) (row : DocumentChunk) : Prop where
  id : (f row).id = row.id
  text : (f row).textPreview = row.textPreview
  reach : access.reach (f row) = access.reach row
  same : access.reach row = false → f row = row
  kept : row.embedding.isSome = true → (f row).embedding.isSome = true
  filled : access.reach row = true → (∃ p ∈ pending, p.id = row.id ∧ hasText p = true) →
    (f row).embedding.isSome = true

theorem Backfilled.skip {access : Access} {p row : DocumentChunk} {pending : List DocumentChunk}
    {f : DocumentChunk → DocumentChunk} (h : Backfilled access pending f row)
    (hp : hasText p = false) : Backfilled access (p :: pending) f row := by
  refine ⟨h.id, h.text, h.reach, h.same, h.kept, ?_⟩
  rintro hreach ⟨q, hq, hid, htext⟩
  rcases List.mem_cons.mp hq with rfl | hq
  · rw [hp] at htext
    cases htext
  · exact h.filled hreach ⟨q, hq, hid, htext⟩

/-- The `INSERT`s from the `i`-th chunk on: a row the policies do not accept fails like one whose id
is taken. -/
def insertUnder (access : Access) (cfg : Config) (x : Report) : Nat → List (Bytes × Vector32) →
    Table → Option Table
  | _, [], rows => some rows
  | i, (enc, emb) :: more, rows =>
      if rows.any fun r => r.id = x.2.newId i then none
      else if access.reach (newRow cfg x i enc emb) then
        insertUnder access cfg x (i + 1) more (rows ++ [newRow cfg x i enc emb])
      else none

/-- `upsert_chunks`, whose `DELETE` removes the rows of the item it reaches. -/
def upsertUnder (access : Access) (cfg : Config) (rows : Table) (x : Report)
    (encrypted : List Bytes) (embeddings : List Vector32) : Option Table :=
  insertUnder access cfg x 0 (encrypted.zip embeddings)
    (rows.filter fun r => !(decide (r.sourceItemId = some x.1.remoteId) && access.reach r))

/-- Where the policies do not bind, it is the daemon's `upsert_chunks`. -/
theorem upsertUnder_all (cfg : Config) (rows : Table) (x : Report) (encrypted : List Bytes)
    (embeddings : List Vector32) :
    upsertUnder Access.all cfg rows x encrypted embeddings
      = upsertChunks cfg rows x encrypted embeddings := by
  have hinsert : ∀ pairs i (t : Table),
      insertUnder Access.all cfg x i pairs t = insertFrom cfg x i pairs t := by
    intro pairs
    induction pairs with
    | nil => exact fun i t => rfl
    | cons pair pairs ih =>
        intro i t
        unfold insertUnder insertFrom
        rw [ih]
        rfl
  unfold upsertUnder upsertChunks deleteChunks
  rw [hinsert]
  simp [Access.all, Access.reach]

/-- The rows of the chunks from the `i`-th on. -/
def newRows (cfg : Config) (x : Report) : Nat → List (Bytes × Vector32) → List DocumentChunk
  | _, [] => []
  | i, (enc, emb) :: more => newRow cfg x i enc emb :: newRows cfg x (i + 1) more

end McpGateway.Rotation
