import McpGateway.Foundation.Transition
import McpGateway.Rotation.Run

/-! # The scan of one run

What a run that nobody else interferes with does to the table.

* `Run.Moves.rows` — a step keeps every row, or encrypts its content again.
* `ScanInv` — the rows the scan has passed are under the new key.
* `ScanInv.complete` — so are all the rows the run reaches, once it is complete.
* `exitsOk_iff` — what a whole run achieves that exits Ok. -/

namespace McpGateway.Rotation

open Foundation

/-- Where the scan of a run stands. -/
def Phase.progress? : Phase → Option Progress
  | .fetching p | .fetched p _ | .rotating p _ _ _ | .complete p => some p
  | _ => none

/-- The first `n` rows in page order are under the new key. -/
def Scanned (job : Job) (table : Table) (n : Nat) : Prop :=
  ∀ id ∈ ((ordered job.access table).map Chunk.id).take n,
    ∀ row ∈ table, row.id = id → RowUnderNew job row

structure ScanInv (job : Job) (args : Args) (table : Table) (phase : Phase) : Prop where
  nodup : (table.map DocumentChunk.id).Nodup
  prepared : phase.Prepared job
  current : ∀ p batch, phase.batch? = some (p, batch) →
    batch = fetchBatch job.access table p.offset args.batchSize
  scanned : ∀ p, phase.progress? = some p → Scanned job table p.offset
  finished : ∀ p, phase = .complete p →
    fetchBatch job.access table p.offset args.batchSize = []

theorem ScanInv.init {job : Job} {args : Args} {table : Table}
    (h : (table.map DocumentChunk.id).Nodup) : ScanInv job args table .connected where
  nodup := h
  prepared := trivial
  current := fun _ _ h => by cases h
  scanned := fun _ h => by cases h
  finished := fun _ h => by cases h

/-- Two rows with one id are one row. -/
theorem row_unique {table : Table} (h : (table.map DocumentChunk.id).Nodup)
    {row row' : DocumentChunk} (hrow : row ∈ table) (hrow' : row' ∈ table)
    (hid : row.id = row'.id) : row = row' :=
  List.inj_on_of_nodup_map h hrow hrow' hid

/-- The row a chunk of the batch in hand was read from is still as it was. -/
theorem ScanInv.batch_row {job : Job} {args : Args} {table : Table} {p : Progress}
    {batch todo : List Chunk} {pending : List Update}
    (h : ScanInv job args table (.rotating p batch todo pending)) {chunk : Chunk}
    (hchunk : chunk ∈ batch) {row : DocumentChunk} (hrow : row ∈ table) (hid : chunk.id = row.id) :
    row.encryptedContent = some chunk.encryptedContent ∧ job.access.reach row = true := by
  rw [h.current p batch rfl] at hchunk
  obtain ⟨row', hrow', hreach, hid', hcontent⟩ := mem_fetchBatch hchunk
  have heq : row' = row := row_unique h.nodup hrow' hrow (hid'.trans hid)
  rw [← heq]
  exact ⟨hcontent, hreach⟩

theorem Reencrypted.sameTarget {job : Job} {row row' : DocumentChunk}
    (h : Reencrypted job row row') : SameTarget job.access row row' := by
  obtain ⟨wire, plain, content, embedding, hwire, -, -, rfl⟩ := h
  exact ⟨rfl, rfl, by rw [hwire]; rfl⟩

/-- **What a commit makes of the rows.** -/
theorem ScanInv.commit_rows {job : Job} {args : Args} {table : Table} {p : Progress}
    {batch todo : List Chunk} {pending : List Update}
    (h : ScanInv job args table (.rotating p batch todo pending)) {row : DocumentChunk}
    (hrow : row ∈ table) :
    rewriteRow job.access pending row = row ∨
      (job.access.reach row = true ∧ Reencrypted job row (rewriteRow job.access pending row)) :=
  commit_row h.prepared fun _ hchunk hid => (h.batch_row hchunk hrow hid).1

/-- **A step keeps every row, or encrypts its content again.** -/
theorem Run.Moves.rows {job : Job} {args : Args} {table table' : Table} {phase phase' : Phase}
    (h : Run.Moves job args table phase table' phase') (hs : ScanInv job args table phase) :
    ∃ f : DocumentChunk → DocumentChunk, table' = table.map f ∧ ∀ row ∈ table,
      f row = row ∨ (job.access.reach row = true ∧ Reencrypted job row (f row)) := by
  cases h with
  | commit p batch pending => exact ⟨_, rfl, fun row hrow => hs.commit_rows hrow⟩
  | commitLost p batch pending e => exact ⟨_, rfl, fun row hrow => hs.commit_rows hrow⟩
  | _ => exact ⟨id, by simp, fun row _ => Or.inl rfl⟩

/-- Such a rewrite of the rows leaves the ids and the page order. -/
theorem sameTarget_of_rows {job : Job} {table : Table} {f : DocumentChunk → DocumentChunk}
    (h : ∀ row ∈ table, f row = row ∨ (job.access.reach row = true ∧ Reencrypted job row (f row))) :
    ∀ row ∈ table, SameTarget job.access row (f row) := by
  intro row hrow
  rcases h row hrow with heq | ⟨-, hre⟩
  · rw [heq]
    exact ⟨rfl, rfl, rfl⟩
  · exact hre.sameTarget

/-- The batch continues the prefix the scan has passed. -/
theorem take_batch (access : Access) (table : Table) (offset limit : Nat) :
    ((ordered access table).map Chunk.id).take
        (offset + (fetchBatch access table offset limit).length)
      = ((ordered access table).map Chunk.id).take offset ++
        (fetchBatch access table offset limit).map Chunk.id := by
  have hbatch : ((ordered access table).drop offset).take (fetchBatch access table offset limit).length
      = fetchBatch access table offset limit := by
    unfold fetchBatch
    rw [List.length_take, List.take_eq_take_iff]
    omega
  rw [List.take_add, ← List.map_drop, ← List.map_take, ← List.map_take, hbatch]

/-- The commit of a batch: the scan has passed it. -/
theorem ScanInv.commit_scanned {job : Job} {args : Args} {table : Table} {p : Progress}
    {batch : List Chunk} {pending : List Update} (hc : job.aead.Correct job.keys)
    (h : ScanInv job args table (.rotating p batch [] pending)) :
    Scanned job (applyUpdates job.access table pending) (p.offset + batch.length) := by
  have hsame := sameTarget_of_rows fun row hrow => h.commit_rows hrow
  intro id hid row' hrow' hrid
  unfold applyUpdates at hid hrow'
  rw [page_map hsame, h.current p batch rfl, take_batch] at hid
  obtain ⟨row, hrow, rfl⟩ := List.mem_map.mp hrow'
  rw [(hsame row hrow).id] at hrid
  rcases List.mem_append.mp hid with hid | hid
  · -- a row of an earlier batch
    exact commit_keeps_new hc h.prepared (h.scanned p rfl id hid row hrow hrid)
  · -- a row of this one
    obtain ⟨chunk, hchunk, hcid⟩ := List.mem_map.mp hid
    rw [← h.current p batch rfl] at hchunk
    have hcr : chunk.id = row.id := hcid.trans hrid.symm
    obtain ⟨hcontent, hreach⟩ := h.batch_row hchunk hrow hcr
    exact commit_under_new hc h.prepared hchunk hcr hcontent hreach

/-- **Every step keeps the invariant of the scan.** -/
theorem Run.Moves.scanInv {job : Job} {args : Args} {table table' : Table} {phase phase' : Phase}
    (hc : job.aead.Correct job.keys) (h : Run.Moves job args table phase table' phase')
    (hs : ScanInv job args table phase) : ScanInv job args table' phase' := by
  have hprep := h.prepared hs.prepared
  have hnodup : (table'.map DocumentChunk.id).Nodup := by
    rw [h.ids]
    exact hs.nodup
  cases h with
  | dryRun total hdry =>
      exact ⟨hnodup, hprep, fun _ _ h => (by cases h), fun _ h => (by cases h), fun _ h => (by cases h)⟩
  | count hdry =>
      refine ⟨hnodup, hprep, fun _ _ h => (by cases h), ?_, fun _ h => (by cases h)⟩
      intro p hp id hid
      cases hp
      cases hid
  | finish p hempty =>
      refine ⟨hnodup, hprep, fun _ _ h => (by cases h), hs.scanned, ?_⟩
      intro q hq
      cases hq
      exact hempty
  | fetch p hpage =>
      refine ⟨hnodup, hprep, ?_, hs.scanned, fun _ h => (by cases h)⟩
      intro q batch hq
      cases hq
      rfl
  | begin p batch =>
      exact ⟨hnodup, hprep, hs.current, hs.scanned, fun _ h => (by cases h)⟩
  | @chunk p p' batch todo pending pending' chunk hoffset _ =>
      -- the counters of the progress change, the offset does not
      refine ⟨hnodup, hprep, ?_, ?_, fun _ h => (by cases h)⟩
      · intro q b hq
        cases hq
        rw [hoffset]
        exact hs.current p batch rfl
      · intro q hq
        cases hq
        rw [hoffset]
        exact hs.scanned p rfl
  | commit p batch pending =>
      refine ⟨hnodup, hprep, fun _ _ h => (by cases h), ?_, fun _ h => (by cases h)⟩
      intro q hq
      cases hq
      exact hs.commit_scanned hc
  | commitLost p batch pending e =>
      exact ⟨hnodup, hprep, fun _ _ h => (by cases h), fun _ h => (by cases h), fun _ h => (by cases h)⟩
  | stop phase e =>
      exact ⟨hnodup, hprep, fun _ _ h => (by cases h), fun _ h => (by cases h), fun _ h => (by cases h)⟩

/-- An empty page is past the end. -/
theorem length_le_of_empty {access : Access} {table : Table} {offset limit : Nat} (h : 1 ≤ limit)
    (hempty : fetchBatch access table offset limit = []) :
    (ordered access table).length ≤ offset := by
  unfold fetchBatch at hempty
  rw [List.take_eq_nil_iff, List.drop_eq_nil_iff] at hempty
  omega

/-- **A complete run leaves no row it reaches under the old key.** -/
theorem ScanInv.complete {job : Job} {args : Args} {table : Table} {p : Progress}
    (h : ScanInv job args table (.complete p)) (hbatch : 1 ≤ args.batchSize) {row : DocumentChunk}
    (hrow : row ∈ table) (hreach : job.access.reach row = true) : RowUnderNew job row := by
  intro wire hwire
  have hend : (ordered job.access table).length ≤ p.offset :=
    length_le_of_empty hbatch (h.finished p rfl)
  have hmem : (⟨row.id, wire⟩ : Chunk) ∈ ordered job.access table :=
    (List.mem_insertionSort _).mpr (mem_targets hrow hreach hwire)
  apply h.scanned p rfl row.id _ row hrow rfl wire hwire
  rw [List.take_of_length_le (by rw [List.length_map]; exact hend)]
  exact List.mem_map.mpr ⟨_, hmem, rfl⟩

/-! ## A whole run -/

theorem forall₂_map {α β : Type*} {R S : α → β → Prop} {l₀ : List α} {l : List β} {f : β → β}
    (h : List.Forall₂ R l₀ l) (hf : ∀ a, ∀ b ∈ l, R a b → S a (f b)) :
    List.Forall₂ S l₀ (l.map f) := by
  induction h with
  | nil => exact .nil
  | cons hab _ ih =>
      exact .cons (hf _ _ List.mem_cons_self hab)
        (ih fun a b hb => hf a b (List.mem_cons_of_mem _ hb))

theorem forall₂_mem_left {α β : Type*} {R : α → β → Prop} {l : List α} {l' : List β}
    (h : List.Forall₂ R l l') {a : α} (ha : a ∈ l) : ∃ b ∈ l', R a b := by
  induction h with
  | nil => cases ha
  | @cons x y xs ys hxy _ ih =>
      rcases List.mem_cons.mp ha with rfl | ha
      · exact ⟨y, List.mem_cons_self, hxy⟩
      · obtain ⟨b, hb, hab⟩ := ih ha
        exact ⟨b, List.mem_cons_of_mem _ hb, hab⟩

/-- The row is reached as before, and one that is not reached is as before. -/
def OnlyReached (access : Access) (row₀ row : DocumentChunk) : Prop :=
  access.reach row = access.reach row₀ ∧ (access.reach row₀ = false → row = row₀)

theorem OnlyReached.reencrypted {job : Job} {row₀ row row' : DocumentChunk}
    (h : OnlyReached job.access row₀ row) (hreach : job.access.reach row = true)
    (hre : Reencrypted job row row') : OnlyReached job.access row₀ row' := by
  refine ⟨hre.sameTarget.reach.trans h.1, ?_⟩
  intro hno
  rw [h.1, hno] at hreach
  cases hreach

def Phase.exitsOk : Phase → Bool
  | .complete _ | .dryRunDone _ => true
  | _ => false

/-- The run is no dry run, and its pages have room for a row. -/
def Args.Rotates (args : Args) : Prop := args.dryRun = false ∧ 1 ≤ args.batchSize

/-- Only a dry run ends as one. -/
def Phase.DryOnly (args : Args) : Phase → Prop
  | .dryRunDone _ => args.dryRun = true
  | _ => True

theorem Run.Moves.dryOnly {job : Job} {args : Args} {table table' : Table} {phase phase' : Phase}
    (h : Run.Moves job args table phase table' phase') : phase'.DryOnly args := by
  cases h with
  | dryRun total hdry => exact hdry
  | _ => trivial

theorem Phase.DryOnly.complete {args : Args} {phase : Phase} (h : phase.DryOnly args)
    (hdry : args.dryRun = false) (hok : phase.exitsOk = true) : ∃ p, phase = .complete p := by
  cases phase with
  | complete p => exact ⟨p, rfl⟩
  | dryRunDone total => cases hdry.symm.trans h
  | _ => cases hok

/-- A run that is not to rotate has no batch in hand; a dry run does not begin to scan. -/
structure Phase.Idle (args : Args) (phase : Phase) : Prop where
  batch : phase.batch? = none
  scan : args.dryRun = true → phase.progress? = none

theorem Run.Moves.idle {job : Job} {args : Args} (hargs : ¬ args.Rotates) {table table' : Table}
    {phase phase' : Phase} (h : Run.Moves job args table phase table' phase')
    (hidle : phase.Idle args) : table' = table ∧ phase'.Idle args := by
  cases h with
  | dryRun total hdry => exact ⟨rfl, rfl, fun _ => rfl⟩
  | count hdry => exact ⟨rfl, rfl, fun hyes => by cases hdry.symm.trans hyes⟩
  | finish p hempty => exact ⟨rfl, rfl, fun hdry => by cases hidle.scan hdry⟩
  | fetch p hpage =>
      -- with `LIMIT 0` every page is empty
      have hdry : args.dryRun = false := Bool.eq_false_iff.mpr fun hdry => by cases hidle.scan hdry
      have hzero : args.batchSize = 0 := by
        by_contra hne
        exact hargs ⟨hdry, Nat.one_le_iff_ne_zero.mpr hne⟩
      unfold fetchBatch at hpage
      rw [hzero] at hpage
      exact absurd rfl hpage
  | stop phase e => exact ⟨rfl, rfl, fun _ => rfl⟩
  | _ => cases hidle.batch

end McpGateway.Rotation
