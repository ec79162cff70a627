import McpGateway.Foundation.Transition
import McpGateway.Rotation.Scan

/-! # Restart safety

Run after run of the key rotation on one table, each with its own arguments and each of which may be
killed or fail at any statement. Nobody else writes.

* `restart_safe` — at every moment every row decrypts to its original plaintext under exactly one of
  the keys; batches are written whole; after one run that completes, all rows are under the new
  key. -/

namespace McpGateway.Rotation

open Foundation

/-! ## The system -/

/-- `run` is the run under way, or the last one. -/
structure RotationState where
  table : Table
  run : Option (Args × Phase)
  /-- whether some run has exited `Ok` after its scan; a dry run does not scan -/
  rotated : Bool

inductive RotationAction where
  | start (args : Args)
  | statement (a : Statement)

/-- No run is under way. -/
def RotationState.idle (s : RotationState) : Bool :=
  match s.run with
  | none => true
  | some (_, phase) => !phase.running

def Phase.isComplete : Phase → Bool
  | .complete _ => true
  | _ => false

def RotationState.step (job : Job) (s : RotationState) : RotationAction → Option RotationState
  | .start args =>
      if s.idle && 1 ≤ args.batchSize then some { s with run := some (args, .connected) } else none
  | .statement a => do
      let (args, phase) ← s.run
      let (table, phase') ← Run.step job args s.table phase a
      some ⟨table, some (args, phase'), s.rotated || phase'.isComplete⟩

/-- The runs of a job, from a given table on. -/
def rotations (job : Job) (table₀ : Table) : System RotationState RotationAction where
  init s := s = ⟨table₀, none, false⟩
  step := RotationState.step job

/-- A job whose connection reaches every row. -/
def unrestricted (aead : Aead) (keys : Keys) : Job := ⟨aead, keys, .all⟩

/-! ## What holds -/

/-- The plaintext of a row, by the encryption it holds. -/
def Holds (aead : Aead) (keys : Keys) (row : DocumentChunk) (plain : Bytes) : Prop :=
  ∃ wire, row.encryptedContent = some wire ∧
    (Encrypts aead keys.old plain wire ∨ Encrypts aead keys.new plain wire)

/-- Every content is an encryption under one of the keys; `id` is the primary key. -/
structure EncryptedTable (aead : Aead) (keys : Keys) (table : Table) : Prop where
  nodup : (table.map DocumentChunk.id).Nodup
  encrypted : ∀ row ∈ table, row.encryptedContent.isSome = true → ∃ plain, Holds aead keys row plain

/-- A row and what has become of it: still the row of that id, and what the content opens to under
exactly one key is the original plaintext. -/
structure KeepsPlaintext (aead : Aead) (keys : Keys) (row₀ row : DocumentChunk) : Prop where
  id : row.id = row₀.id
  encrypted : row.encryptedContent.isSome = row₀.encryptedContent.isSome
  plain : ∀ plain, Holds aead keys row₀ plain →
    ∃ wire, row.encryptedContent = some wire ∧ UnderOneKey aead keys plain wire

/-- The rows of the batch are under the new key, and no other row has changed. -/
def BatchWritten (job : Job) (batch : List Chunk) (table table' : Table) : Prop :=
  List.Forall₂ (fun row row' => if row.id ∈ batch.map Chunk.id then RowUnderNew job row' else row' = row)
    table table'

/-- The step leaves the table as it is, or writes the whole page the run has fetched. -/
def WholeBatch (job : Job) (s s' : RotationState) : Prop :=
  s'.table = s.table ∨ ∃ args p batch pending,
    s.run = some (args, .rotating p batch [] pending) ∧
    batch = fetchBatch job.access s.table p.offset args.batchSize ∧
    BatchWritten job batch s.table s'.table

/-- The row opens to its original plaintext under the new key. -/
def Rotated (aead : Aead) (keys : Keys) (row₀ row : DocumentChunk) : Prop :=
  ∀ plain, Holds aead keys row₀ plain →
    ∃ wire, row.encryptedContent = some wire ∧ opens aead keys.new wire = some plain

/-! ## The invariant -/

theorem keepsPlaintext_refl {aead : Aead} {keys : Keys} (hc : aead.Correct keys)
    (row : DocumentChunk) : KeepsPlaintext aead keys row row where
  id := rfl
  encrypted := rfl
  plain := by
    rintro plain ⟨wire, hwire, henc⟩
    exact ⟨wire, hwire, underOneKey_of_encrypts hc henc⟩

/-- Encrypting the content again keeps the plaintext. -/
theorem KeepsPlaintext.reencrypted {job : Job} (hc : job.aead.Correct job.keys)
    {row₀ row row' : DocumentChunk} (h : KeepsPlaintext job.aead job.keys row₀ row)
    (hre : Reencrypted job row row') : KeepsPlaintext job.aead job.keys row₀ row' := by
  obtain ⟨wire, plain', content, embedding, hwire, hopen, henc, rfl⟩ := hre
  refine ⟨h.id, ?_, ?_⟩
  · rw [← h.encrypted, hwire]
    rfl
  · intro plain hplain
    obtain ⟨wire', hwire', hone⟩ := h.plain plain hplain
    rw [hwire] at hwire'
    cases hwire'
    -- the old key opened the wire, so it opened it to the original plaintext
    have heq : plain' = plain := hone.plain_eq (Or.inl hopen)
    rw [heq] at henc
    exact ⟨content, rfl, underOneKey_of_encrypts hc (Or.inr henc)⟩

structure RotationInv (job : Job) (table₀ : Table) (s : RotationState) : Prop where
  rows : List.Forall₂ (KeepsPlaintext job.aead job.keys) table₀ s.table
  nodup : (s.table.map DocumentChunk.id).Nodup
  scan : ∀ args phase, s.run = some (args, phase) →
    ScanInv job args s.table phase ∧ 1 ≤ args.batchSize
  rotated : s.rotated = true → ∀ row ∈ s.table, RowUnderNew job row

/-- What a statement of the run does to the rest of the state. -/
theorem statement_cases {job : Job} {s s' : RotationState} {a : Statement}
    (h : s.step job (.statement a) = some s') : ∃ args phase phase', s.run = some (args, phase) ∧
      Run.Moves job args s.table phase s'.table phase' ∧ s'.run = some (args, phase') ∧
      s'.rotated = (s.rotated || phase'.isComplete) := by
  obtain ⟨⟨args, phase⟩, hrun, h⟩ := Option.bind_eq_some_iff.mp h
  obtain ⟨⟨table, phase'⟩, hstep, h⟩ := Option.bind_eq_some_iff.mp h
  cases h
  exact ⟨args, phase, phase', hrun, Run.step_moves hstep, rfl, rfl⟩

/-- **One step.** -/
theorem RotationInv.step {job : Job} (hc : job.aead.Correct job.keys)
    (hall : ∀ row, job.access.reach row = true) {table₀ : Table} {s s' : RotationState}
    {a : RotationAction} (h : RotationInv job table₀ s) (hs : s.step job a = some s') :
    RotationInv job table₀ s' := by
  cases a with
  | start args =>
      unfold RotationState.step at hs
      dsimp only at hs
      split_ifs at hs with hstart
      cases hs
      rw [Bool.and_eq_true, decide_eq_true_eq] at hstart
      refine ⟨h.rows, h.nodup, ?_, h.rotated⟩
      intro args' phase hrun
      cases hrun
      exact ⟨.init h.nodup, hstart.2⟩
  | statement a =>
      obtain ⟨args, phase, phase', hrun, hmoves, hrun', hrot⟩ := statement_cases hs
      obtain ⟨hscan, hbatch⟩ := h.scan args phase hrun
      have hscan' := hmoves.scanInv hc hscan
      obtain ⟨f, htable, hrows⟩ := hmoves.rows hscan
      refine ⟨?_, hscan'.nodup, ?_, ?_⟩
      · rw [htable]
        refine forall₂_map h.rows ?_
        intro row₀ row hrow hkeeps
        rcases hrows row hrow with heq | ⟨-, hre⟩
        · rw [heq]
          exact hkeeps
        · exact hkeeps.reencrypted hc hre
      · intro args' phase'' hrun''
        rw [hrun'] at hrun''
        cases hrun''
        exact ⟨hscan', hbatch⟩
      · intro hrotated row' hrow'
        rw [hrot, Bool.or_eq_true] at hrotated
        rcases hrotated with hbefore | hcomplete
        · -- an earlier run has rotated every row, and re-encryption is under the new key
          rw [htable] at hrow'
          obtain ⟨row, hrow, rfl⟩ := List.mem_map.mp hrow'
          rcases hrows row hrow with heq | ⟨-, wire, plain, content, embedding, -, -, henc, heq⟩
          · rw [heq]
            exact h.rotated hbefore row hrow
          · rw [heq]
            intro wire' hwire'
            cases hwire'
            exact underNew_of_encrypts hc henc
        · -- this run is complete
          cases phase' with
          | complete p => exact hscan'.complete hbatch hrow' (hall row')
          | _ => cases hcomplete

/-! ## Restart safety -/

theorem reach_unrestricted (aead : Aead) (keys : Keys) (row : DocumentChunk) :
    (unrestricted aead keys).access.reach row = true := rfl

theorem rotationInv_of_reachable {aead : Aead} {keys : Keys} (hc : aead.Correct keys)
    {table₀ : Table} (h₀ : EncryptedTable aead keys table₀) {s : RotationState}
    (h : (rotations (unrestricted aead keys) table₀).Reachable s) :
    RotationInv (unrestricted aead keys) table₀ s := by
  refine h.invariant ?_ fun s a s' hs hst => hs.step hc (reach_unrestricted aead keys) hst
  rintro s rfl
  refine ⟨?_, h₀.nodup, fun _ _ h => (by cases h), fun h => (by cases h)⟩
  exact List.forall₂_same.mpr fun row _ => keepsPlaintext_refl hc row

/-- Every update of a batch is for a row of it. -/
theorem batchWritten_of_commit {job : Job} (hc : job.aead.Correct job.keys) {args : Args}
    {table : Table} {p : Progress} {batch : List Chunk} {pending : List Update}
    (h : ScanInv job args table (.rotating p batch [] pending)) :
    BatchWritten job batch table (applyUpdates job.access table pending) := by
  unfold BatchWritten applyUpdates
  rw [List.forall₂_map_right_iff, List.forall₂_same]
  intro row hrow
  split_ifs with hmem
  · obtain ⟨chunk, hchunk, hid⟩ := List.mem_map.mp hmem
    obtain ⟨hcontent, hreach⟩ := h.batch_row hchunk hrow hid
    exact commit_under_new hc h.prepared hchunk hid hcontent hreach
  · rcases rewriteRow_cases job.access pending row with heq | ⟨u, hu, hid, -⟩
    · exact heq
    · obtain ⟨chunk, hchunk, hcid, -⟩ := h.prepared.updates u hu
      exact absurd (List.mem_map.mpr ⟨chunk, hchunk, hcid.trans hid⟩) hmem

theorem RotationInv.wholeBatch {job : Job} (hc : job.aead.Correct job.keys) {table₀ : Table}
    {s s' : RotationState} {a : RotationAction} (h : RotationInv job table₀ s)
    (hs : s.step job a = some s') : WholeBatch job s s' := by
  cases a with
  | start args =>
      unfold RotationState.step at hs
      dsimp only at hs
      split_ifs at hs
      cases hs
      exact Or.inl rfl
  | statement a =>
      obtain ⟨args, phase, phase', hrun, hmoves, -⟩ := statement_cases hs
      obtain ⟨hscan, -⟩ := h.scan args phase hrun
      generalize htable : s'.table = table' at hmoves
      unfold WholeBatch
      rw [htable]
      cases hmoves with
      | commit p batch pending =>
          exact Or.inr ⟨args, p, batch, pending, hrun, hscan.current p batch rfl,
            batchWritten_of_commit hc hscan⟩
      | commitLost p batch pending e =>
          exact Or.inr ⟨args, p, batch, pending, hrun, hscan.current p batch rfl,
            batchWritten_of_commit hc hscan⟩
      | _ => exact Or.inl rfl

theorem RotationInv.rotated_rows {aead : Aead} {keys : Keys} {table₀ : Table} {s : RotationState}
    (h : RotationInv (unrestricted aead keys) table₀ s) (hrot : s.rotated = true) :
    List.Forall₂ (Rotated aead keys) table₀ s.table := by
  have hnew := h.rotated hrot
  rw [← List.map_id s.table]
  refine forall₂_map h.rows ?_
  intro row₀ row hrow hkeeps plain hplain
  obtain ⟨wire, hwire, hone⟩ := hkeeps.plain plain hplain
  obtain ⟨plain', hopen⟩ := hnew row hrow wire hwire
  have heq : plain' = plain := hone.plain_eq (Or.inr hopen)
  rw [heq] at hopen
  exact ⟨wire, hwire, hopen⟩

/-- **Restart safety.** Whatever runs have been started, killed or failed: the ids are the original
ones and every row opens to its original plaintext under exactly one key, every step writes a batch
whole or nothing, and once a run has completed, every row opens to its original plaintext under the
new key. -/
theorem restart_safe {aead : Aead} {keys : Keys} (hc : aead.Correct keys) {table₀ : Table}
    (h₀ : EncryptedTable aead keys table₀) {s : RotationState}
    (h : (rotations (unrestricted aead keys) table₀).Reachable s) :
    s.table.map DocumentChunk.id = table₀.map DocumentChunk.id ∧
    List.Forall₂ (KeepsPlaintext aead keys) table₀ s.table ∧
    (∀ a s', s.step (unrestricted aead keys) a = some s' →
      WholeBatch (unrestricted aead keys) s s') ∧
    (s.rotated = true → List.Forall₂ (Rotated aead keys) table₀ s.table) := by
  have hinv := rotationInv_of_reachable hc h₀ h
  refine ⟨?_, hinv.rows, fun a s' hs => hinv.wholeBatch hc hs, hinv.rotated_rows⟩
  have hids : List.Forall₂ (fun row₀ row => row₀.id = row.id) table₀ s.table :=
    hinv.rows.imp fun _ _ hk => hk.id.symm
  have heq := List.forall₂_map_left_iff.mpr (List.forall₂_map_right_iff.mpr hids)
  exact (List.forall₂_eq_eq_eq ▸ heq : table₀.map DocumentChunk.id = _).symm

/-! ## A concrete history -/

def sampleTable : Table := [sampleRow 2 "item-2", sampleRow 1 "item-1"]

theorem sampleTable_encrypted : EncryptedTable sampleAead sampleKeys sampleTable where
  nodup := by decide
  encrypted := by
    intro row hrow _
    refine ⟨asBytes "hello", sampleWire, ?_, Or.inl encrypts_sampleWire⟩
    rcases List.mem_cons.mp hrow with rfl | hrow
    · rfl
    · rw [List.mem_singleton.mp hrow]
      rfl

/-- A batch of one row, from fetch to commit. -/
def sampleBatch (b : UInt8) : List RotationAction :=
  [.statement .fetch, .statement .begin, .statement (.chunk (sampleChunkEnv b)), .statement .commit]

/-- A run that is killed after its first batch, and one that completes. -/
def sampleHistory : List RotationAction :=
  [.start ⟨false, false, 1⟩, .statement .count] ++ sampleBatch 6 ++
  [.statement .fetch, .statement .begin, .statement (.stop "killed")] ++
  [.start ⟨false, false, 1⟩, .statement .count] ++ sampleBatch 7 ++ sampleBatch 7 ++
  [.statement .fetch]

theorem restart_safe_sample :
    ∃ s, (rotations (unrestricted sampleAead sampleKeys) sampleTable).Reachable s ∧
      s.rotated = true ∧ List.Forall₂ (Rotated sampleAead sampleKeys) sampleTable s.table := by
  have hrun : ((rotations (unrestricted sampleAead sampleKeys) sampleTable).run
      ⟨sampleTable, none, false⟩ sampleHistory).map RotationState.rotated = some true := by decide
  obtain ⟨s, hs, hrot⟩ := Option.map_eq_some_iff.mp hrun
  have hreach : (rotations (unrestricted sampleAead sampleKeys) sampleTable).Reachable s :=
    ⟨_, sampleHistory, rfl, System.steps_of_run hs⟩
  exact ⟨s, hreach, hrot,
    (restart_safe sampleAead_correct sampleTable_encrypted hreach).2.2.2 hrot⟩

end McpGateway.Rotation
