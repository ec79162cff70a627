import Mathlib.Data.List.Forall2
import Mathlib.Data.List.Sort
import McpGateway.Rotation.Crypto
import McpGateway.Schema
import McpGateway.Text

/-! # One run of the key rotation

`main.rs` and `db.rs` of `tools/key-rotation`, one step for each statement the program sends. What
the database's policies let the connection see and write is the `Access` of the run; without
row-level security it is `Access.all`. The progress bar is left out.

* `commit_row` — what the commit of a batch does to one row.
* `Run.Moves` — what a step can do.
* `page_map` — the page order survives every rewrite of contents.
* `Run.Moves.prepared` — what a batch has in hand when it is committed. -/

namespace McpGateway.Rotation

/-! ## Statements -/

abbrev Table := List DocumentChunk

/-- The rows the statements of a connection reach, by the two columns the policies read. -/
structure Access where
  reaches : Classification → Uuid → Bool

def Access.all : Access := ⟨fun _ _ => true⟩

def Access.reach (access : Access) (row : DocumentChunk) : Bool :=
  access.reaches row.classification row.workspaceId

/-- One row from `document_chunks` that needs re-encryption. -/
structure Chunk where
  id : Uuid
  encryptedContent : Bytes
  deriving DecidableEq, Repr

/-- A row of `SELECT id, encrypted_content … WHERE encrypted_content IS NOT NULL`. -/
def Access.target (access : Access) (row : DocumentChunk) : Option Chunk :=
  if access.reach row then row.encryptedContent.map fun content => ⟨row.id, content⟩ else none

def targets (access : Access) (table : Table) : List Chunk := table.filterMap access.target

/-- A UUID as a number, the first digit being the most significant one. -/
def idValue (u : Uuid) : Nat := u.digits.foldl (fun v d => 16 * v + d.val) 0

/-- The order of `uuid`: byte by byte. -/
def idLe (a b : Uuid) : Prop := idValue a ≤ idValue b

instance : DecidableRel idLe := fun a b => Nat.decLe (idValue a) (idValue b)

/-- `ORDER BY id`. -/
def ordered (access : Access) (table : Table) : List Chunk :=
  (targets access table).insertionSort fun a b => idLe a.id b.id

def countPending (access : Access) (table : Table) : Nat := (targets access table).length

/-- `LIMIT $1 OFFSET $2`. -/
def fetchBatch (access : Access) (table : Table) (offset limit : Nat) : List Chunk :=
  ((ordered access table).drop offset).take limit

/-- An `UPDATE` waiting for the commit: `update_content`, or `update_content_and_embedding`. -/
structure Update where
  id : Uuid
  newContent : Bytes
  embedding : Option Vector32
  deriving DecidableEq, Repr

def Update.onRow (access : Access) (u : Update) (row : DocumentChunk) : DocumentChunk :=
  if row.id = u.id ∧ access.reach row = true then
    { row with
      encryptedContent := some u.newContent
      embedding := match u.embedding with
        | some e => some e
        | none => row.embedding }
  else row

/-- What the updates of a transaction, in order, make of a row. -/
def rewriteRow (access : Access) (us : List Update) (row : DocumentChunk) : DocumentChunk :=
  us.foldl (fun r u => u.onRow access r) row

def applyUpdates (access : Access) (table : Table) (us : List Update) : Table :=
  table.map (rewriteRow access us)

/-! ## One chunk -/

/-- The options of a run. A `--batch-size` below zero is none: the first `SELECT` fails on it. -/
structure Args where
  dryRun : Bool
  reembed : Bool
  batchSize : Nat

/-- What the outside contributes while one chunk is rotated: the IV, and the embedding service. -/
structure ChunkEnv where
  iv : Option Iv
  embed : String → Except String Vector32

/-- What stays the same over all runs. -/
structure Job where
  aead : Aead
  keys : Keys
  access : Access

/-- The body of `for chunk in &batch`: the `UPDATE` to send, or none for a row that is skipped. -/
def rotateChunk (job : Job) (args : Args) (chunk : Chunk) (env : ChunkEnv) :
    Except String (Option Update) :=
  match decrypt job.aead job.keys.old chunk.encryptedContent with
  | .error _ =>
      -- Maybe already rotated on a previous (interrupted) run.
      match decrypt job.aead job.keys.new chunk.encryptedContent with
      | .ok _ => .ok none
      | .error _ => .error ("Row " ++ chunk.id.toText ++ " cannot be decrypted with either key — " ++
          "data may be corrupted or a third key is in use")
  | .ok plain =>
      match encrypt job.aead job.keys.new env.iv plain with
      | .error e => .error e
      | .ok newEnc =>
          if args.reembed then
            match env.embed (fromUtf8Lossy plain) with
            | .error e => .error e
            | .ok embedding => .ok (some ⟨chunk.id, newEnc, some embedding⟩)
          else .ok (some ⟨chunk.id, newEnc, none⟩)

/-! ## The program -/

/-- `offset`, `rotated` and `skipped`. -/
structure Progress where
  offset : Nat
  rotated : Nat
  skipped : Nat
  deriving DecidableEq, Repr

/-- Where a run is between two statements. -/
inductive Phase where
  | connected
  | fetching (p : Progress)
  | fetched (p : Progress) (batch : List Chunk)
  | rotating (p : Progress) (batch todo : List Chunk) (pending : List Update)
  | dryRunDone (total : Nat)
  | complete (p : Progress)
  | failed (error : String)
  deriving DecidableEq, Repr

def Phase.running : Phase → Bool
  | .dryRunDone _ | .complete _ | .failed _ => false
  | _ => true

/-- A statement that succeeds, a `COMMIT` that takes effect although the program sees an error, or
the end of the run: a statement that fails, or a process that is killed. -/
inductive Statement where
  | count
  | fetch
  | begin
  | chunk (env : ChunkEnv)
  | commit
  | commitLost (error : String)
  | stop (error : String)

/-- After a chunk: the run fails, skips the row, or has one more update pending. -/
def afterChunk (p : Progress) (batch todo : List Chunk) (pending : List Update) :
    Except String (Option Update) → Phase
  | .error e => .failed e
  | .ok none => .rotating { p with skipped := p.skipped + 1 } batch todo pending
  | .ok (some u) => .rotating { p with rotated := p.rotated + 1 } batch todo (pending ++ [u])

/-- One statement, on the committed table and the phase of the run. An open transaction of a run
that stops is rolled back. -/
def Run.step (job : Job) (args : Args) (table : Table) :
    Phase → Statement → Option (Table × Phase)
  | .connected, .count =>
      let total := countPending job.access table
      some (table, if args.dryRun then .dryRunDone total else .fetching ⟨0, 0, 0⟩)
  | .fetching p, .fetch =>
      let batch := fetchBatch job.access table p.offset args.batchSize
      some (table, if batch.isEmpty then .complete p else .fetched p batch)
  | .fetched p batch, .begin => some (table, .rotating p batch batch [])
  | .rotating p batch (chunk :: todo) pending, .chunk env =>
      some (table, afterChunk p batch todo pending (rotateChunk job args chunk env))
  | .rotating p batch [] pending, .commit =>
      some (applyUpdates job.access table pending,
        .fetching { p with offset := p.offset + batch.length })
  | .rotating _ _ [] pending, .commitLost e =>
      some (applyUpdates job.access table pending, .failed e)
  | phase, .stop e => if phase.running then some (table, .failed e) else none
  | _, _ => none

/-! ## What a commit does to a row -/

theorem Update.onRow_cases (access : Access) (u : Update) (row : DocumentChunk) :
    u.onRow access row = row ∨ (u.id = row.id ∧ access.reach row = true ∧
      ∃ e, u.onRow access row
        = { row with encryptedContent := some u.newContent, embedding := e }) := by
  unfold Update.onRow
  split_ifs with h
  · exact Or.inr ⟨h.1.symm, h.2, _, rfl⟩
  · exact Or.inl rfl

/-- A row keeps what it is, or takes its content from an update with its id. -/
theorem rewriteRow_cases (access : Access) (us : List Update) (row : DocumentChunk) :
    rewriteRow access us row = row ∨ ∃ u ∈ us, u.id = row.id ∧ access.reach row = true ∧
      ∃ e, rewriteRow access us row
        = { row with encryptedContent := some u.newContent, embedding := e } := by
  induction us generalizing row with
  | nil => exact Or.inl rfl
  | cons u us ih =>
      show rewriteRow access us (u.onRow access row) = row ∨ _
      rcases u.onRow_cases access row with h | ⟨hid, hreach, e, h⟩
      · rcases ih (u.onRow access row) with hr | ⟨v, hv, hvid, hvreach, e, hr⟩
        · exact Or.inl (hr.trans h)
        · rw [h] at hvid hvreach hr
          refine Or.inr ⟨v, List.mem_cons_of_mem _ hv, hvid, hvreach, e, ?_⟩
          show rewriteRow access us (u.onRow access row) = _
          rw [h]
          exact hr
      · right
        rcases ih (u.onRow access row) with hr | ⟨v, hv, hvid, hvreach, e', hr⟩
        · exact ⟨u, List.mem_cons_self, hid, hreach, e, hr.trans h⟩
        · rw [h] at hvid hr
          refine ⟨v, List.mem_cons_of_mem _ hv, hvid, hreach, e', ?_⟩
          show rewriteRow access us (u.onRow access row) = _
          rw [h]
          exact hr

@[simp] theorem rewriteRow_id (access : Access) (us : List Update) (row : DocumentChunk) :
    (rewriteRow access us row).id = row.id := by
  rcases rewriteRow_cases access us row with h | ⟨u, -, -, -, e, h⟩ <;> rw [h]

theorem applyUpdates_ids (access : Access) (table : Table) (us : List Update) :
    (applyUpdates access table us).map DocumentChunk.id = table.map DocumentChunk.id := by
  unfold applyUpdates
  rw [List.map_map]
  exact List.map_congr_left fun row _ => rewriteRow_id access us row

/-- A row that some update names takes its content from one of them. -/
theorem rewriteRow_hit {access : Access} {us : List Update} {row : DocumentChunk} {u : Update}
    (hu : u ∈ us) (hid : u.id = row.id) (hreach : access.reach row = true) :
    ∃ v ∈ us, v.id = row.id ∧ (rewriteRow access us row).encryptedContent = some v.newContent := by
  induction us generalizing row with
  | nil => cases hu
  | cons w us ih =>
      show ∃ v ∈ w :: us, v.id = row.id ∧
        (rewriteRow access us (w.onRow access row)).encryptedContent = some v.newContent
      have hwid : (w.onRow access row).id = row.id := by
        rcases w.onRow_cases access row with h | ⟨-, -, e, h⟩ <;> rw [h]
      have hwreach : access.reach (w.onRow access row) = true := by
        rcases w.onRow_cases access row with h | ⟨-, -, e, h⟩ <;> rw [h]
        · exact hreach
        · exact hreach
      rcases List.mem_cons.mp hu with rfl | hu
      · -- what this update writes stays, unless a later one overwrites it
        have hw : (u.onRow access row).encryptedContent = some u.newContent := by
          unfold Update.onRow
          rw [if_pos ⟨hid.symm, hreach⟩]
        rcases rewriteRow_cases access us (u.onRow access row) with h | ⟨v, hv, hvid, -, e, h⟩
        · exact ⟨u, List.mem_cons_self, hid, by rw [h, hw]⟩
        · exact ⟨v, List.mem_cons_of_mem _ hv, hvid.trans hwid, by rw [h]⟩
      · obtain ⟨v, hv, hvid, hcontent⟩ := ih hu (hid.trans hwid.symm) hwreach
        exact ⟨v, List.mem_cons_of_mem _ hv, hvid.trans hwid, hcontent⟩

/-! ## What a batch prepares -/

theorem rotateChunk_update {job : Job} {args : Args} {chunk : Chunk} {env : ChunkEnv} {u : Update}
    (h : rotateChunk job args chunk env = .ok (some u)) :
    u.id = chunk.id ∧ ∃ plain, opens job.aead job.keys.old chunk.encryptedContent = some plain ∧
      Encrypts job.aead job.keys.new plain u.newContent := by
  unfold rotateChunk at h
  cases hold : decrypt job.aead job.keys.old chunk.encryptedContent with
  | error e =>
      rw [hold] at h
      dsimp only at h
      cases hnew : decrypt job.aead job.keys.new chunk.encryptedContent <;> rw [hnew] at h <;> cases h
  | ok plain =>
      rw [hold] at h
      dsimp only at h
      have hplain : opens job.aead job.keys.old chunk.encryptedContent = some plain := by
        unfold opens
        rw [hold]
        rfl
      cases henc : encrypt job.aead job.keys.new env.iv plain with
      | error e =>
          rw [henc] at h
          cases h
      | ok newEnc =>
          rw [henc] at h
          dsimp only at h
          have hnew : Encrypts job.aead job.keys.new plain newEnc := ⟨env.iv, henc⟩
          split_ifs at h
          · cases hemb : env.embed (fromUtf8Lossy plain) <;> rw [hemb] at h <;> cases h
            exact ⟨rfl, plain, hplain, hnew⟩
          · cases h
            exact ⟨rfl, plain, hplain, hnew⟩

theorem rotateChunk_skip {job : Job} {args : Args} {chunk : Chunk} {env : ChunkEnv}
    (h : rotateChunk job args chunk env = .ok none) :
    UnderNew job.aead job.keys chunk.encryptedContent := by
  unfold rotateChunk at h
  cases hold : decrypt job.aead job.keys.old chunk.encryptedContent with
  | error e =>
      rw [hold] at h
      dsimp only at h
      cases hnew : decrypt job.aead job.keys.new chunk.encryptedContent with
      | error e =>
          rw [hnew] at h
          cases h
      | ok plain => exact ⟨plain, by unfold opens; rw [hnew]; rfl⟩
  | ok plain =>
      rw [hold] at h
      dsimp only at h
      cases henc : encrypt job.aead job.keys.new env.iv plain with
      | error e =>
          rw [henc] at h
          cases h
      | ok newEnc =>
          rw [henc] at h
          dsimp only at h
          split_ifs at h
          · cases hemb : env.embed (fromUtf8Lossy plain) <;> rw [hemb] at h <;> cases h
          · cases h

/-- What holds of a batch whose chunks from `todo` on are still to come: every pending update
re-encrypts a chunk of the batch, and every chunk that is done has one or was under the new key. -/
structure Prepared (job : Job) (batch todo : List Chunk) (pending : List Update) : Prop where
  todo_subset : ∀ chunk ∈ todo, chunk ∈ batch
  updates : ∀ u ∈ pending, ∃ chunk ∈ batch, chunk.id = u.id ∧
    ∃ plain, opens job.aead job.keys.old chunk.encryptedContent = some plain ∧
      Encrypts job.aead job.keys.new plain u.newContent
  covered : ∀ chunk ∈ batch, chunk ∈ todo ∨
    UnderNew job.aead job.keys chunk.encryptedContent ∨ ∃ u ∈ pending, u.id = chunk.id

theorem Prepared.start (job : Job) (batch : List Chunk) : Prepared job batch batch [] where
  todo_subset := fun _ h => h
  updates := fun _ h => by cases h
  covered := fun _ h => Or.inl h

theorem Prepared.skip {job : Job} {args : Args} {env : ChunkEnv} {batch todo : List Chunk}
    {pending : List Update} {chunk : Chunk} (h : Prepared job batch (chunk :: todo) pending)
    (hr : rotateChunk job args chunk env = .ok none) : Prepared job batch todo pending where
  todo_subset := fun c hc => h.todo_subset c (List.mem_cons_of_mem _ hc)
  updates := h.updates
  covered := by
    intro c hc
    rcases h.covered c hc with hmem | hdone
    · rcases List.mem_cons.mp hmem with rfl | hmem
      · exact Or.inr (Or.inl (rotateChunk_skip hr))
      · exact Or.inl hmem
    · exact Or.inr hdone

theorem Prepared.update {job : Job} {args : Args} {env : ChunkEnv} {batch todo : List Chunk}
    {pending : List Update} {chunk : Chunk} {u : Update}
    (h : Prepared job batch (chunk :: todo) pending)
    (hr : rotateChunk job args chunk env = .ok (some u)) :
    Prepared job batch todo (pending ++ [u]) where
  todo_subset := fun c hc => h.todo_subset c (List.mem_cons_of_mem _ hc)
  updates := by
    intro v hv
    rcases List.mem_append.mp hv with hv | hv
    · exact h.updates v hv
    · rw [List.mem_singleton.mp hv]
      obtain ⟨hid, hplain⟩ := rotateChunk_update hr
      exact ⟨chunk, h.todo_subset chunk List.mem_cons_self, hid.symm, hplain⟩
  covered := by
    intro c hc
    rcases h.covered c hc with hmem | hnew | ⟨v, hv, hid⟩
    · rcases List.mem_cons.mp hmem with rfl | hmem
      · exact Or.inr (Or.inr ⟨u, by simp, (rotateChunk_update hr).1⟩)
      · exact Or.inl hmem
    · exact Or.inr (Or.inl hnew)
    · exact Or.inr (Or.inr ⟨v, List.mem_append_left _ hv, hid⟩)

/-- The row afterwards is the row before, its content decrypted and encrypted again. -/
def Reencrypted (job : Job) (row row' : DocumentChunk) : Prop :=
  ∃ wire plain content embedding, row.encryptedContent = some wire ∧
    opens job.aead job.keys.old wire = some plain ∧ Encrypts job.aead job.keys.new plain content ∧
    row' = { row with encryptedContent := some content, embedding := embedding }

/-- The content of the row, if it has one, is under the new key. -/
def RowUnderNew (job : Job) (row : DocumentChunk) : Prop :=
  ∀ wire, row.encryptedContent = some wire → UnderNew job.aead job.keys wire

theorem underNew_of_encrypts {job : Job} (hc : job.aead.Correct job.keys) {plain wire : Bytes}
    (h : Encrypts job.aead job.keys.new plain wire) : UnderNew job.aead job.keys wire :=
  ⟨plain, opens_of_encrypts hc h⟩

/-- **A row at the commit of a batch** that has not changed since the batch was fetched. -/
theorem commit_row {job : Job} {batch todo : List Chunk} {pending : List Update}
    (h : Prepared job batch todo pending) {row : DocumentChunk}
    (hcurrent : ∀ chunk ∈ batch, chunk.id = row.id →
      row.encryptedContent = some chunk.encryptedContent) :
    rewriteRow job.access pending row = row ∨
      (job.access.reach row = true ∧ Reencrypted job row (rewriteRow job.access pending row)) := by
  rcases rewriteRow_cases job.access pending row with heq | ⟨u, hu, hid, hreach, e, heq⟩
  · exact Or.inl heq
  · obtain ⟨chunk, hchunk, hcid, plain, hold, hnew⟩ := h.updates u hu
    exact Or.inr ⟨hreach, chunk.encryptedContent, plain, u.newContent, e,
      hcurrent chunk hchunk (hcid.trans hid), hold, hnew, heq⟩

theorem commit_keeps_new {job : Job} (hc : job.aead.Correct job.keys) {batch todo : List Chunk}
    {pending : List Update} (h : Prepared job batch todo pending) {row : DocumentChunk}
    (hrow : RowUnderNew job row) : RowUnderNew job (rewriteRow job.access pending row) := by
  intro wire hwire
  rcases rewriteRow_cases job.access pending row with heq | ⟨u, hu, -, -, e, heq⟩
  · rw [heq] at hwire
    exact hrow wire hwire
  · rw [heq] at hwire
    cases hwire
    obtain ⟨-, -, -, plain, -, hnew⟩ := h.updates u hu
    exact underNew_of_encrypts hc hnew

/-- **The rows of a batch are under the new key** once it is committed. -/
theorem commit_under_new {job : Job} (hc : job.aead.Correct job.keys) {batch : List Chunk}
    {pending : List Update} (h : Prepared job batch [] pending) {row : DocumentChunk} {chunk : Chunk}
    (hchunk : chunk ∈ batch) (hid : chunk.id = row.id)
    (hcurrent : row.encryptedContent = some chunk.encryptedContent)
    (hreach : job.access.reach row = true) :
    RowUnderNew job (rewriteRow job.access pending row) := by
  rcases h.covered chunk hchunk with hmem | hnew | ⟨u, hu, huid⟩
  · cases hmem
  · apply commit_keeps_new hc h
    intro wire hwire
    rw [hcurrent] at hwire
    cases hwire
    exact hnew
  · obtain ⟨v, hv, -, hcontent⟩ := rewriteRow_hit hu (huid.trans hid) hreach
    intro wire hwire
    rw [hcontent] at hwire
    cases hwire
    obtain ⟨-, -, -, plain, -, hnew⟩ := h.updates v hv
    exact underNew_of_encrypts hc hnew

/-! ## What a step can do -/

/-- The batch a run has in hand. -/
def Phase.batch? : Phase → Option (Progress × List Chunk)
  | .fetched p batch | .rotating p batch _ _ => some (p, batch)
  | _ => none

/-- The invariant of the phase alone. -/
def Phase.Prepared (job : Job) : Phase → Prop
  | .rotating _ batch todo pending => Rotation.Prepared job batch todo pending
  | _ => True

/-- What a step can do: the table changes only when the last chunk of a batch is done and the batch
is committed. -/
inductive Run.Moves (job : Job) (args : Args) (table : Table) : Phase → Table → Phase → Prop
  | dryRun (total : Nat) : args.dryRun = true →
      Moves job args table .connected table (.dryRunDone total)
  | count : args.dryRun = false → Moves job args table .connected table (.fetching ⟨0, 0, 0⟩)
  | finish (p : Progress) : fetchBatch job.access table p.offset args.batchSize = [] →
      Moves job args table (.fetching p) table (.complete p)
  | fetch (p : Progress) : fetchBatch job.access table p.offset args.batchSize ≠ [] →
      Moves job args table (.fetching p) table
        (.fetched p (fetchBatch job.access table p.offset args.batchSize))
  | begin (p : Progress) (batch : List Chunk) :
      Moves job args table (.fetched p batch) table (.rotating p batch batch [])
  | chunk {p p' : Progress} {batch todo : List Chunk} {pending pending' : List Update}
      (chunk : Chunk) : p'.offset = p.offset →
      (Rotation.Prepared job batch (chunk :: todo) pending →
        Rotation.Prepared job batch todo pending') →
      Moves job args table (.rotating p batch (chunk :: todo) pending) table
        (.rotating p' batch todo pending')
  | commit (p : Progress) (batch : List Chunk) (pending : List Update) :
      Moves job args table (.rotating p batch [] pending)
        (applyUpdates job.access table pending)
        (.fetching { p with offset := p.offset + batch.length })
  | commitLost (p : Progress) (batch : List Chunk) (pending : List Update) (e : String) :
      Moves job args table (.rotating p batch [] pending)
        (applyUpdates job.access table pending) (.failed e)
  | stop (phase : Phase) (e : String) : Moves job args table phase table (.failed e)

theorem afterChunk_moves {job : Job} {args : Args} {table : Table} {p : Progress}
    {batch todo : List Chunk} {pending : List Update} {chunk : Chunk} (env : ChunkEnv) :
    Run.Moves job args table (.rotating p batch (chunk :: todo) pending) table
      (afterChunk p batch todo pending (rotateChunk job args chunk env)) := by
  cases hr : rotateChunk job args chunk env with
  | error e => exact .stop _ e
  | ok u =>
      cases u with
      | none => exact .chunk chunk rfl fun hprep => hprep.skip hr
      | some u => exact .chunk chunk rfl fun hprep => hprep.update hr

theorem Run.step_moves {job : Job} {args : Args} {table table' : Table} {phase phase' : Phase}
    {a : Statement} (h : Run.step job args table phase a = some (table', phase')) :
    Run.Moves job args table phase table' phase' := by
  cases phase with
  | connected =>
      cases a with
      | count =>
          cases h
          split_ifs with hdry
          · exact .dryRun _ hdry
          · exact .count (Bool.eq_false_iff.mpr hdry)
      | stop e => cases h; exact .stop _ e
      | _ => cases h
  | fetching p =>
      cases a with
      | fetch =>
          cases h
          split_ifs with hb
          · exact .finish p (List.isEmpty_iff.mp hb)
          · exact .fetch p (mt List.isEmpty_iff.mpr hb)
      | stop e => cases h; exact .stop _ e
      | _ => cases h
  | fetched p batch =>
      cases a with
      | begin => cases h; exact .begin p batch
      | stop e => cases h; exact .stop _ e
      | _ => cases h
  | rotating p batch todo pending =>
      cases todo with
      | nil =>
          cases a with
          | commit => cases h; exact .commit p batch pending
          | commitLost e => cases h; exact .commitLost p batch pending e
          | stop e => cases h; exact .stop _ e
          | _ => cases h
      | cons chunk todo =>
          cases a with
          | chunk env => cases h; exact afterChunk_moves env
          | stop e => cases h; exact .stop _ e
          | _ => cases h
  | dryRunDone total => cases a <;> cases h
  | complete p => cases a <;> cases h
  | failed e => cases a <;> cases h

theorem Run.Moves.prepared {job : Job} {args : Args} {table table' : Table} {phase phase' : Phase}
    (h : Run.Moves job args table phase table' phase') (hp : phase.Prepared job) :
    phase'.Prepared job := by
  cases h with
  | begin p batch => exact Rotation.Prepared.start job batch
  | chunk chunk _ hprep => exact hprep hp
  | _ => trivial

theorem Run.Moves.ids {job : Job} {args : Args} {table table' : Table} {phase phase' : Phase}
    (h : Run.Moves job args table phase table' phase') :
    table'.map DocumentChunk.id = table.map DocumentChunk.id := by
  cases h with
  | commit p batch pending => exact applyUpdates_ids _ _ _
  | commitLost p batch pending e => exact applyUpdates_ids _ _ _
  | _ => rfl

/-! ## Pages -/

theorem mem_fetchBatch {access : Access} {table : Table} {offset limit : Nat} {chunk : Chunk}
    (h : chunk ∈ fetchBatch access table offset limit) :
    ∃ row ∈ table, access.reach row = true ∧ row.id = chunk.id ∧
      row.encryptedContent = some chunk.encryptedContent := by
  have hmem : chunk ∈ targets access table :=
    (List.mem_insertionSort _).mp (List.mem_of_mem_drop (List.mem_of_mem_take h))
  obtain ⟨row, hrow, htarget⟩ := List.mem_filterMap.mp hmem
  unfold Access.target at htarget
  split_ifs at htarget with hreach
  obtain ⟨content, hcontent, rfl⟩ := Option.map_eq_some_iff.mp htarget
  exact ⟨row, hrow, hreach, rfl, hcontent⟩

theorem mem_targets {access : Access} {table : Table} {row : DocumentChunk} {wire : Bytes}
    (hrow : row ∈ table) (hreach : access.reach row = true)
    (hwire : row.encryptedContent = some wire) : (⟨row.id, wire⟩ : Chunk) ∈ targets access table := by
  refine List.mem_filterMap.mpr ⟨row, hrow, ?_⟩
  unfold Access.target
  rw [if_pos hreach, hwire]
  rfl

/-- A rewrite that the queries do not notice, but for the contents. -/
structure SameTarget (access : Access) (row row' : DocumentChunk) : Prop where
  id : row'.id = row.id
  reach : access.reach row' = access.reach row
  encrypted : row'.encryptedContent.isSome = row.encryptedContent.isSome

theorem SameTarget.target_id {access : Access} {row row' : DocumentChunk}
    (h : SameTarget access row row') :
    (access.target row').map Chunk.id = (access.target row).map Chunk.id := by
  unfold Access.target
  rw [h.reach]
  have henc := h.encrypted
  cases hc : row.encryptedContent <;> cases hc' : row'.encryptedContent <;>
    rw [hc, hc'] at henc <;> try cases henc
  · rfl
  · split_ifs
    · exact congrArg some h.id
    · rfl

/-- **The page order survives the rewrite.** -/
theorem page_map {access : Access} {table : Table} {f : DocumentChunk → DocumentChunk}
    (h : ∀ row ∈ table, SameTarget access row (f row)) :
    (ordered access (table.map f)).map Chunk.id = (ordered access table).map Chunk.id := by
  have htargets : (targets access (table.map f)).map Chunk.id
      = (targets access table).map Chunk.id := by
    unfold targets
    induction table with
    | nil => rfl
    | cons row rows ih =>
        have hrow := (h row List.mem_cons_self).target_id
        have hrows := ih fun r hr => h r (List.mem_cons_of_mem _ hr)
        rw [List.map_cons]
        cases hf : access.target (f row) <;> cases hr : access.target row <;> rw [hf, hr] at hrow
        · simp only [List.filterMap_cons, hf, hr]
          exact hrows
        · cases hrow
        · cases hrow
        · simp only [List.filterMap_cons, hf, hr, List.map_cons, hrows]
          rw [Option.some.inj hrow]
  have hsort : ∀ t : Table, (ordered access t).map Chunk.id
      = ((targets access t).map Chunk.id).insertionSort idLe :=
    fun t => List.map_insertionSort _ _ _ _ fun _ _ _ _ => Iff.rfl
  rw [hsort, hsort, htargets]

/-! ## Concrete data -/

/-- An item's row, with `hello` under the old key. -/
def sampleRow (d : Nat) (item : String) : DocumentChunk where
  id := Uuid.ofDigit d
  docName := "a.txt"
  classification := .internal
  chunkIndex := 0
  textPreview := none
  createdAt := 0
  workspaceId := defaultWorkspace
  encryptedContent := some sampleWire
  embedding := none
  sourceItemId := some item

def sampleArgs : Args := ⟨false, false, 1⟩

def sampleChunkEnv (b : UInt8) : ChunkEnv := ⟨some (sampleIv b), fun _ => .error "unreachable"⟩

end McpGateway.Rotation
