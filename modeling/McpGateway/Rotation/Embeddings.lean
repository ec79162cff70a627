import McpGateway.Gateway.Contents
import McpGateway.Rotation.Maintenance
import McpGateway.Rotation.Restart

/-! # Contents and embeddings

A rotation without `--reembed` writes contents, `EmbeddingInitializer` writes embeddings, and neither
writes anything else.

* `RotationState.step_rest` — what such a rotation leaves alone.
* `onApplicationEvent_map` — the initializer does not look at contents.
* `RotationInv.embedded` — it may run between any two statements of the rotation. -/

namespace McpGateway.Rotation

open Foundation Gateway

/-! ## A rotation without `--reembed` -/

theorem rotateChunk_embedding {job : Job} {args : Args} {chunk : Chunk} {env : ChunkEnv}
    {u : Update} (hargs : args.reembed = false)
    (h : rotateChunk job args chunk env = .ok (some u)) : u.embedding = none := by
  unfold rotateChunk at h
  cases hold : decrypt job.aead job.keys.old chunk.encryptedContent with
  | error e =>
      rw [hold] at h
      dsimp only at h
      cases hnew : decrypt job.aead job.keys.new chunk.encryptedContent <;> rw [hnew] at h <;> cases h
  | ok plain =>
      rw [hold] at h
      dsimp only at h
      cases henc : encrypt job.aead job.keys.new env.iv plain with
      | error e =>
          rw [henc] at h
          cases h
      | ok newEnc =>
          rw [henc] at h
          dsimp only at h
          rw [if_neg (by rw [hargs]; exact Bool.false_ne_true)] at h
          cases h
          rfl

/-- No pending update has an embedding. -/
def Phase.NoEmbeddings : Phase → Prop
  | .rotating _ _ _ pending => ∀ u ∈ pending, u.embedding = none
  | _ => True

theorem afterChunk_noEmbeddings {job : Job} {args : Args} {chunk : Chunk} {env : ChunkEnv}
    (hargs : args.reembed = false) (p : Progress) (batch todo : List Chunk) {pending : List Update}
    (h : ∀ u ∈ pending, u.embedding = none) :
    (afterChunk p batch todo pending (rotateChunk job args chunk env)).NoEmbeddings := by
  cases hr : rotateChunk job args chunk env with
  | error e => trivial
  | ok u =>
      cases u with
      | none => exact h
      | some u =>
          intro v hv
          rcases List.mem_append.mp hv with hv | hv
          · exact h v hv
          · rw [List.mem_singleton.mp hv]
            exact rotateChunk_embedding hargs hr

theorem withoutContent_rewriteRow {access : Access} {us : List Update}
    (h : ∀ u ∈ us, u.embedding = none) (row : DocumentChunk) :
    withoutContent (rewriteRow access us row) = withoutContent row := by
  induction us generalizing row with
  | nil => rfl
  | cons u us ih =>
      have hu : withoutContent (u.onRow access row) = withoutContent row := by
        unfold Update.onRow
        rw [h u List.mem_cons_self]
        split_ifs <;> rfl
      show withoutContent (rewriteRow access us (u.onRow access row)) = _
      rw [ih fun v hv => h v (List.mem_cons_of_mem _ hv), hu]

theorem withoutContent_applyUpdates {access : Access} {us : List Update}
    (h : ∀ u ∈ us, u.embedding = none) (table : Table) :
    (applyUpdates access table us).map withoutContent = table.map withoutContent := by
  unfold applyUpdates
  rw [List.map_map]
  exact List.map_congr_left fun row _ => withoutContent_rewriteRow h row

theorem Run.step_rest {job : Job} {args : Args} {table table' : Table} {phase phase' : Phase}
    {a : Statement} (hargs : args.reembed = false) (hp : phase.NoEmbeddings)
    (h : Run.step job args table phase a = some (table', phase')) :
    phase'.NoEmbeddings ∧ table'.map withoutContent = table.map withoutContent := by
  cases phase with
  | connected =>
      cases a with
      | count =>
          cases h
          exact ⟨by split_ifs <;> trivial, rfl⟩
      | stop e => cases h; exact ⟨trivial, rfl⟩
      | _ => cases h
  | fetching p =>
      cases a with
      | fetch =>
          cases h
          exact ⟨by split_ifs <;> trivial, rfl⟩
      | stop e => cases h; exact ⟨trivial, rfl⟩
      | _ => cases h
  | fetched p batch =>
      cases a with
      | begin =>
          cases h
          refine ⟨?_, rfl⟩
          intro u hu
          cases hu
      | stop e => cases h; exact ⟨trivial, rfl⟩
      | _ => cases h
  | rotating p batch todo pending =>
      cases todo with
      | nil =>
          cases a with
          | commit => cases h; exact ⟨trivial, withoutContent_applyUpdates hp table⟩
          | commitLost e => cases h; exact ⟨trivial, withoutContent_applyUpdates hp table⟩
          | stop e => cases h; exact ⟨trivial, rfl⟩
          | _ => cases h
      | cons chunk todo =>
          cases a with
          | chunk env => cases h; exact ⟨afterChunk_noEmbeddings hargs p batch todo hp, rfl⟩
          | stop e => cases h; exact ⟨trivial, rfl⟩
          | _ => cases h
  | dryRunDone total => cases a <;> cases h
  | complete p => cases a <;> cases h
  | failed e => cases a <;> cases h

/-- The run under way writes contents only. -/
def RotationState.ContentsOnly (s : RotationState) : Prop :=
  ∀ args phase, s.run = some (args, phase) → args.reembed = false ∧ phase.NoEmbeddings

theorem RotationState.step_rest {job : Job} {s s' : RotationState} {a : RotationAction}
    (hs : s.ContentsOnly) (ha : ∀ args, a = .start args → args.reembed = false)
    (h : s.step job a = some s') :
    s'.ContentsOnly ∧ s'.table.map withoutContent = s.table.map withoutContent := by
  cases a with
  | start args =>
      unfold RotationState.step at h
      dsimp only at h
      split_ifs at h
      cases h
      refine ⟨?_, rfl⟩
      intro args' phase hrun
      cases hrun
      exact ⟨ha args rfl, trivial⟩
  | statement a =>
      obtain ⟨⟨args, phase⟩, hrun, h⟩ := Option.bind_eq_some_iff.mp h
      obtain ⟨⟨table, phase'⟩, hstep, h⟩ := Option.bind_eq_some_iff.mp h
      cases h
      obtain ⟨hargs, hphase⟩ := hs args phase hrun
      obtain ⟨hphase', hrest⟩ := Run.step_rest hargs hphase hstep
      refine ⟨?_, hrest⟩
      intro args' phase'' hrun'
      cases hrun'
      exact ⟨hargs, hphase'⟩

/-- A rotation that has written something has been started. -/
theorem RotationState.step_started {job : Job} {s s' : RotationState} {a : RotationAction}
    (h : s.step job a = some s') : s'.run.isSome = true := by
  cases a with
  | start args =>
      unfold RotationState.step at h
      dsimp only at h
      split_ifs at h
      cases h
      rfl
  | statement a =>
      obtain ⟨_, _, _, _, _, hrun, -⟩ := statement_cases h
      rw [hrun]
      rfl

/-! ## The initializer -/

/-- The row afterwards has another embedding, at most. -/
def OnlyEmbedding (row row' : DocumentChunk) : Prop := ∃ e, row' = { row with embedding := e }

theorem onlyEmbedding_setEmbedding (access : Access) (id : Uuid) (v : Vector32)
    (row : DocumentChunk) : OnlyEmbedding row (setEmbedding access id v row) := by
  unfold setEmbedding
  split_ifs
  · exact ⟨some v, rfl⟩
  · exact ⟨row.embedding, rfl⟩

theorem backfill_onlyEmbedding {access : Access} {embed : String → Option Vector32}
    {pending : List DocumentChunk} {table table' : Table}
    (h : backfill access embed pending table = some table') :
    ∃ f, table' = table.map f ∧ ∀ row, OnlyEmbedding row (f row) := by
  induction pending generalizing table with
  | nil =>
      cases h
      exact ⟨id, by simp, fun row => ⟨row.embedding, rfl⟩⟩
  | cons row pending ih =>
      unfold backfill at h
      split at h
      · exact ih h
      · split_ifs at h
        · exact ih h
        · split at h
          · exact ih h
          · exact ih h
          · rename_i v _ _
            split_ifs at h
            obtain ⟨f, rfl, hf⟩ := ih h
            refine ⟨f ∘ setEmbedding access row.id v, by rw [List.map_map], ?_⟩
            intro r
            obtain ⟨e, he⟩ := onlyEmbedding_setEmbedding access row.id v r
            obtain ⟨e', he'⟩ := hf (setEmbedding access row.id v r)
            exact ⟨e', by rw [Function.comp_apply, he', he]⟩

theorem setEmbedding_withoutContent (access : Access) (id : Uuid) (v : Vector32)
    (row : DocumentChunk) : withoutContent (setEmbedding access id v row)
      = setEmbedding access id v (withoutContent row) := by
  have hreach : access.reach (withoutContent row) = access.reach row := rfl
  unfold setEmbedding
  rw [hreach, show (withoutContent row).id = row.id from rfl]
  split_ifs <;> rfl

theorem backfill_map (access : Access) (embed : String → Option Vector32)
    (pending : List DocumentChunk) (table : Table) :
    (backfill access embed pending table).map (List.map withoutContent)
      = backfill access embed (pending.map withoutContent) (table.map withoutContent) := by
  induction pending generalizing table with
  | nil => rfl
  | cons row pending ih =>
      have hset : ∀ v, (table.map (setEmbedding access row.id v)).map withoutContent
          = (table.map withoutContent).map (setEmbedding access row.id v) := by
        intro v
        rw [List.map_map, List.map_map]
        exact List.map_congr_left fun r _ => setEmbedding_withoutContent access row.id v r
      rw [List.map_cons]
      unfold backfill
      rw [show (withoutContent row).textPreview = row.textPreview from rfl,
        show (withoutContent row).id = row.id from rfl]
      split
      · exact ih table
      · split_ifs
        · exact ih table
        · split
          · exact ih table
          · exact ih table
          · split_ifs
            · rw [ih, hset]
            · rfl

/-- **The initializer does not look at contents.** -/
theorem onApplicationEvent_map (access : Access) (embed : String → Option Vector32)
    (table : Table) : (onApplicationEvent access embed table).map (List.map withoutContent)
      = onApplicationEvent access embed (table.map withoutContent) := by
  unfold onApplicationEvent
  rw [backfill_map, List.filter_map]
  rfl

/-! ## Between two statements -/

theorem OnlyEmbedding.target {access : Access} {row row' : DocumentChunk}
    (h : OnlyEmbedding row row') : access.target row' = access.target row := by
  obtain ⟨e, rfl⟩ := h
  rfl

theorem targets_embedded {access : Access} {f : DocumentChunk → DocumentChunk}
    (hf : ∀ row, OnlyEmbedding row (f row)) (table : Table) :
    targets access (table.map f) = targets access table := by
  unfold targets
  rw [List.filterMap_map]
  exact List.filterMap_congr fun row _ => (hf row).target

theorem ids_embedded {f : DocumentChunk → DocumentChunk} (hf : ∀ row, OnlyEmbedding row (f row))
    (table : Table) : (table.map f).map DocumentChunk.id = table.map DocumentChunk.id := by
  rw [List.map_map]
  apply List.map_congr_left
  intro row _
  obtain ⟨e, he⟩ := hf row
  rw [Function.comp_apply, he]

theorem OnlyEmbedding.rowUnderNew {job : Job} {row row' : DocumentChunk}
    (h : OnlyEmbedding row row') (hrow : RowUnderNew job row) : RowUnderNew job row' := by
  obtain ⟨e, rfl⟩ := h
  exact hrow

theorem ScanInv.embedded {job : Job} {args : Args} {table : Table} {phase : Phase}
    {f : DocumentChunk → DocumentChunk} (hf : ∀ row, OnlyEmbedding row (f row))
    (h : ScanInv job args table phase) : ScanInv job args (table.map f) phase := by
  have hordered : ordered job.access (table.map f) = ordered job.access table := by
    unfold ordered
    rw [targets_embedded hf]
  have hfetch : ∀ offset limit, fetchBatch job.access (table.map f) offset limit
      = fetchBatch job.access table offset limit := by
    intro offset limit
    unfold fetchBatch
    rw [hordered]
  refine ⟨?_, h.prepared, ?_, ?_, ?_⟩
  · rw [ids_embedded hf]
    exact h.nodup
  · intro p batch hbatch
    rw [hfetch]
    exact h.current p batch hbatch
  · intro p hp id hid row' hrow' hrid
    rw [hordered] at hid
    obtain ⟨row, hrow, rfl⟩ := List.mem_map.mp hrow'
    obtain ⟨e, he⟩ := hf row
    apply (hf row).rowUnderNew
    exact h.scanned p hp id hid row hrow (by rw [← hrid, he])
  · intro p hp
    rw [hfetch]
    exact h.finished p hp

theorem KeepsPlaintext.embedded {aead : Aead} {keys : Keys} {row₀ row₀' row row' : DocumentChunk}
    (h : KeepsPlaintext aead keys row₀ row) (h₀ : OnlyEmbedding row₀ row₀')
    (h' : OnlyEmbedding row row') : KeepsPlaintext aead keys row₀' row' := by
  obtain ⟨e₀, rfl⟩ := h₀
  obtain ⟨e, rfl⟩ := h'
  exact ⟨h.id, h.encrypted, h.plain⟩

/-- **The initializer may run between any two statements of a rotation.** -/
theorem RotationInv.embedded {job : Job} {table₀ : Table} {s : RotationState}
    {f₀ f : DocumentChunk → DocumentChunk} (hf₀ : ∀ row, OnlyEmbedding row (f₀ row))
    (hf : ∀ row, OnlyEmbedding row (f row)) (h : RotationInv job table₀ s) :
    RotationInv job (table₀.map f₀) { s with table := s.table.map f } := by
  refine ⟨?_, ?_, ?_, ?_⟩
  · rw [List.forall₂_map_left_iff, List.forall₂_map_right_iff]
    exact h.rows.imp fun row₀ row hkeeps => hkeeps.embedded (hf₀ row₀) (hf row)
  · rw [ids_embedded hf]
    exact h.nodup
  · intro args phase hrun
    obtain ⟨hscan, hbatch⟩ := h.scan args phase hrun
    exact ⟨hscan.embedded hf, hbatch⟩
  · intro hrotated row' hrow'
    obtain ⟨row, hrow, rfl⟩ := List.mem_map.mp hrow'
    exact (hf row).rowUnderNew (h.rotated hrotated row hrow)

end McpGateway.Rotation
