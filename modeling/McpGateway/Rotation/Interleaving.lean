import McpGateway.Foundation.Selection
import McpGateway.Ingestion.RunCycle
import McpGateway.Rotation.Scan

/-! # Rotation beside the ingestion daemon

One run of the key rotation, statement by statement, with any number of `delete_chunks` statements
and `upsert_chunks` transactions in between. A page is found by `OFFSET`, so a row deleted behind the
scan moves the rows ahead of it: one of them may pass the offset without being read.

Row locks only take interleavings away, so none are modelled.

* `keepsAhead` — no commit of the daemon moves an original row from ahead of the scan behind it.
* `misses_no_row` — as long as that holds, a run that exits Ok has rotated every original row left.
* `deleted_row_hides_one` — a run that misses a row. -/

namespace McpGateway.Rotation

open Foundation Ingestion

/-! ## The system -/

/-- A transaction of `upsert_chunks`: the chunks still to insert, the number of the next one, what
its `DELETE` has removed (`none` before that) and what its `INSERT`s have added. -/
structure IngestTx where
  report : Report
  todo : List (Bytes × Vector32)
  next : Nat
  deleted : Option (List Uuid)
  inserted : List DocumentChunk

/-- `original` is not part of the programs: the rows that were there when the run started and still
are. -/
structure SharedState where
  table : Table
  phase : Phase
  txs : Nat → Option IngestTx
  original : List Uuid

inductive SharedAction where
  | rotate (a : Statement)
  | deleteChunks (sourceItemId : String)
  | beginUpsert (i : Nat) (report : Report) (chunks : List (Bytes × Vector32))
  | deleteStale (i : Nat)
  | insert (i : Nat)
  | commit (i : Nat)
  | abort (i : Nat)

def SharedState.setTx (s : SharedState) (i : Nat) (tx : Option IngestTx) : SharedState :=
  { s with txs := fun j => if j = i then tx else s.txs j }

/-- The committed table keeps some of its rows and gets others. -/
def SharedState.setTable (s : SharedState) (kept added : Table) : SharedState :=
  { s with
    table := kept ++ added
    original := s.original.filter fun id => id ∈ kept.map DocumentChunk.id }

/-- The rows the transaction has not removed. -/
def IngestTx.kept (tx : IngestTx) (table : Table) : Table :=
  table.filter fun row => row.id ∉ tx.deleted.getD []

def SharedState.step (job : Job) (args : Args) (cfg : Config) (s : SharedState) :
    SharedAction → Option SharedState
  | .rotate a => do
      let (table, phase) ← Run.step job args s.table s.phase a
      some { s with table := table, phase := phase }
  | .deleteChunks sourceItemId => some (s.setTable (deleteChunks s.table sourceItemId) [])
  | .beginUpsert i report chunks =>
      match s.txs i with
      | some _ => none
      | none => some (s.setTx i (some ⟨report, chunks, 0, none, []⟩))
  | .deleteStale i => do
      let tx ← s.txs i
      let stale := s.table.filter fun r => r.sourceItemId = some tx.report.1.remoteId
      some (s.setTx i (some { tx with deleted := some (stale.map DocumentChunk.id) }))
  | .insert i => do
      let tx ← s.txs i
      match tx.deleted, tx.todo with
      | some _, (enc, emb) :: todo =>
          let row := newRow cfg tx.report tx.next enc emb
          some (s.setTx i (some
            { tx with todo := todo, next := tx.next + 1, inserted := tx.inserted ++ [row] }))
      | _, _ => none
  | .commit i => do
      let tx ← s.txs i
      -- a transaction that violates the primary key can only end with `abort`
      if ((tx.kept s.table ++ tx.inserted).map DocumentChunk.id).Nodup then
        some ((s.setTx i none).setTable (tx.kept s.table) tx.inserted)
      else none
  | .abort i => some (s.setTx i none)

/-- A run on a table of `document_chunks`, whatever transactions are open when it starts. -/
def sharedTable (job : Job) (args : Args) (cfg : Config) : System SharedState SharedAction where
  init s := (s.table.map DocumentChunk.id).Nodup ∧ s.phase = .connected ∧
    s.original = s.table.map DocumentChunk.id
  step := SharedState.step job args cfg

/-! ## The place of a row in the scan -/

/-- The rows before `id` in page order. -/
def rowsBefore (access : Access) (table : Table) (id : Uuid) : Nat :=
  rank (fun chunk => idValue chunk.id) (targets access table) (idValue id)

theorem digits_injective {ds es : List (Fin 16)} {v w : Nat} (hlength : ds.length = es.length)
    (h : ds.foldl (fun v d => 16 * v + d.val) v = es.foldl (fun v d => 16 * v + d.val) w) :
    v = w ∧ ds = es := by
  induction ds generalizing es v w with
  | nil =>
      cases es with
      | nil => exact ⟨h, rfl⟩
      | cons e es => cases hlength
  | cons d ds ih =>
      cases es with
      | nil => cases hlength
      | cons e es =>
          obtain ⟨hhead, rfl⟩ := ih (Nat.succ.inj hlength) h
          have hhead : 16 * v + d.val = 16 * w + e.val := hhead
          have hd := d.isLt
          have he := e.isLt
          have hde : d = e := Fin.ext (by omega)
          exact ⟨by omega, by rw [hde]⟩

theorem idValue_injective : Function.Injective idValue := by
  rintro ⟨ds, hds⟩ ⟨es, hes⟩ h
  obtain ⟨-, rfl⟩ := digits_injective (hds.trans hes.symm) h
  rfl

theorem target_id {access : Access} {row : DocumentChunk} {chunk : Chunk}
    (h : access.target row = some chunk) : chunk.id = row.id := by
  unfold Access.target at h
  split_ifs at h
  obtain ⟨content, -, rfl⟩ := Option.map_eq_some_iff.mp h
  rfl

theorem targets_nodup {access : Access} {table : Table}
    (h : (table.map DocumentChunk.id).Nodup) : ((targets access table).map Chunk.id).Nodup := by
  refine List.Nodup.sublist ?_ h
  unfold targets
  clear h
  induction table with
  | nil => exact .slnil
  | cons row rows ih =>
      rw [List.filterMap_cons, List.map_cons]
      cases htarget : access.target row with
      | none => exact ih.cons _
      | some chunk =>
          dsimp only
          rw [List.map_cons, target_id htarget]
          exact ih.cons_cons _

/-- The pages are in the order of the ids, and no id is there twice. -/
theorem ordered_sorted {access : Access} {table : Table} (h : (table.map DocumentChunk.id).Nodup) :
    (ordered access table).Pairwise fun a b => idValue a.id < idValue b.id := by
  have : Std.Total fun a b : Chunk => idLe a.id b.id := ⟨fun a b => Nat.le_total _ _⟩
  have : IsTrans Chunk fun a b => idLe a.id b.id := ⟨fun a b c => Nat.le_trans⟩
  have hle : (ordered access table).Pairwise fun a b => idLe a.id b.id :=
    List.pairwise_insertionSort _ _
  have hne : (ordered access table).Pairwise fun a b => a.id ≠ b.id := by
    have hperm := (List.perm_insertionSort (fun a b : Chunk => idLe a.id b.id)
      (targets access table)).map Chunk.id
    exact List.pairwise_map.mp (hperm.nodup_iff.mpr (targets_nodup h))
  refine (hle.and hne).imp ?_
  rintro a b ⟨hab, hne⟩
  exact lt_of_le_of_ne hab fun heq => hne (idValue_injective heq)

/-- **The first `n` rows in page order** are those with fewer than `n` rows before them. -/
theorem mem_take_ordered {access : Access} {table : Table}
    (h : (table.map DocumentChunk.id).Nodup) {chunk : Chunk} (hmem : chunk ∈ targets access table)
    (n : Nat) : chunk ∈ (ordered access table).take n ↔ rowsBefore access table chunk.id < n := by
  have hperm : (ordered access table).Perm (targets access table) := List.perm_insertionSort _ _
  rw [mem_take_iff_rank (ordered_sorted h) (hperm.mem_iff.mpr hmem), rank_perm hperm]
  rfl

theorem rowsBefore_append (access : Access) (table table' : Table) (id : Uuid) :
    rowsBefore access (table ++ table') id
      = rowsBefore access table id + rowsBefore access table' id := by
  unfold rowsBefore targets
  rw [List.filterMap_append, rank_append]

theorem rowsBefore_perm {access : Access} {table table' : Table} (h : table.Perm table')
    (id : Uuid) : rowsBefore access table id = rowsBefore access table' id :=
  rank_perm (h.filterMap _) _

/-- An `UPDATE` hides no row from the scan. -/
theorem target_rewriteRow {access : Access} (us : List Update) {row : DocumentChunk} {chunk : Chunk}
    (h : access.target row = some chunk) :
    ∃ content, access.target (rewriteRow access us row) = some ⟨chunk.id, content⟩ := by
  rcases rewriteRow_cases access us row with heq | ⟨u, -, -, hreach, e, heq⟩
  · exact ⟨chunk.encryptedContent, by rw [heq, h]⟩
  · refine ⟨u.newContent, ?_⟩
    rw [heq, target_id h]
    exact if_pos hreach

theorem rowsBefore_applyUpdates (access : Access) (table : Table) (us : List Update) (id : Uuid) :
    rowsBefore access table id ≤ rowsBefore access (applyUpdates access table us) id := by
  unfold rowsBefore rank targets applyUpdates
  rw [List.countP_filterMap, List.countP_filterMap, List.countP_map]
  refine List.countP_mono_left ?_
  intro row _ hrow
  cases htarget : access.target row with
  | none =>
      rw [htarget] at hrow
      cases hrow
  | some chunk =>
      obtain ⟨content, hcontent⟩ := target_rewriteRow us htarget
      rw [htarget] at hrow
      rw [Function.comp_apply, hcontent]
      exact hrow

/-! ## The condition -/

/-- The scan has passed the rows before this place, or has them in hand. -/
def Phase.place : Phase → Nat
  | .fetching p => p.offset
  | .fetched p batch | .rotating p batch _ _ => p.offset + batch.length
  | _ => 0

/-- The page that has been read and is not committed. -/
def Phase.inHand : Phase → List Uuid
  | .fetched _ batch | .rotating _ batch _ _ => batch.map Chunk.id
  | _ => []

def needsRotation (job : Job) (row : DocumentChunk) : Bool :=
  row.encryptedContent.any fun wire => (opens job.aead job.keys.new wire).isNone

theorem needsRotation_iff {job : Job} {row : DocumentChunk} :
    needsRotation job row = true ↔ ¬ RowUnderNew job row := by
  unfold needsRotation RowUnderNew UnderNew
  cases row.encryptedContent with
  | none => simp
  | some wire => simp [Option.eq_none_iff_forall_ne_some]

/-- The rows the daemon's action removes from the committed table, and those it adds. -/
def SharedState.change (s : SharedState) : SharedAction → Table × Table
  | .deleteChunks sourceItemId =>
      (s.table.filter fun row => row.sourceItemId = some sourceItemId, [])
  | .commit i =>
      match s.txs i with
      | some tx => (s.table.filter fun row => row.id ∈ tx.deleted.getD [], tx.inserted)
      | none => ([], [])
  | _ => ([], [])

/-- An original row that stays, is still to be read and is ahead of the scan is ahead of it
afterwards: not more rows go from before it than come before it, or lie between the scan and it. -/
def keepsAhead (job : Job) (s : SharedState) (a : SharedAction) : Bool :=
  s.table.all fun row => decide (row.id ∈ s.original → needsRotation job row = true →
    row.id ∉ s.phase.inHand → row.id ∉ (s.change a).1.map DocumentChunk.id →
    s.phase.place ≤ rowsBefore job.access s.table row.id →
    s.phase.place + rowsBefore job.access (s.change a).1 row.id
      ≤ rowsBefore job.access s.table row.id + rowsBefore job.access (s.change a).2 row.id)

/-! ## What the daemon's statements do -/

/-- The original rows that are left are as they were, and none that is still to be read has come
behind the scan. -/
structure Shrinks (job : Job) (s s' : SharedState) : Prop where
  phase : s'.phase = s.phase
  nodup : (s'.table.map DocumentChunk.id).Nodup
  rows : ∀ row ∈ s'.table, row.id ∈ s'.original → row ∈ s.table ∧ row.id ∈ s.original
  ahead : ∀ row ∈ s'.table, row.id ∈ s'.original → ¬ RowUnderNew job row →
    row.id ∉ s.phase.inHand → rowsBefore job.access s'.table row.id < s.phase.place →
    rowsBefore job.access s.table row.id < s.phase.place

theorem Shrinks.setTx (job : Job) {s : SharedState} (i : Nat) (tx : Option IngestTx)
    (hs : (s.table.map DocumentChunk.id).Nodup) : Shrinks job s (s.setTx i tx) where
  phase := rfl
  nodup := hs
  rows := fun _ hrow hid => ⟨hrow, hid⟩
  ahead := fun _ _ _ _ _ h => h

/-- A row that is added has none of the ids that stay. -/
theorem setTable_rows {s : SharedState} {kept added : Table} (hkept : kept.Sublist s.table)
    (hnodup : ((kept ++ added).map DocumentChunk.id).Nodup) {row : DocumentChunk}
    (hrow : row ∈ (s.setTable kept added).table) (hid : row.id ∈ (s.setTable kept added).original) :
    row ∈ kept ∧ row ∈ s.table ∧ row.id ∈ s.original := by
  obtain ⟨horiginal, hmem⟩ := List.mem_filter.mp hid
  rw [decide_eq_true_eq] at hmem
  rcases List.mem_append.mp hrow with hrow | hrow
  · exact ⟨hrow, hkept.subset hrow, horiginal⟩
  · rw [List.map_append, List.nodup_append] at hnodup
    exact absurd rfl (hnodup.2.2 row.id hmem row.id (List.mem_map_of_mem hrow))

/-- A statement of the daemon that takes effect, and meets the condition. -/
theorem Shrinks.setTable {job : Job} {s : SharedState} {a : SharedAction}
    {removes : DocumentChunk → Bool} {added : Table}
    (hchange : s.change a = (s.table.filter removes, added))
    (hnodup : (((s.table.filter fun row => !removes row) ++ added).map DocumentChunk.id).Nodup)
    (hs : (s.table.map DocumentChunk.id).Nodup) (hkeeps : keepsAhead job s a = true) :
    Shrinks job s (s.setTable (s.table.filter fun row => !removes row) added) where
  phase := rfl
  nodup := hnodup
  rows := fun row hrow hid => (setTable_rows List.filter_sublist hnodup hrow hid).2
  ahead := by
    intro row hrow hid hold hhand hbehind
    obtain ⟨hkept, hmem, horiginal⟩ := setTable_rows List.filter_sublist hnodup hrow hid
    by_contra hahead
    have hstays : row.id ∉ (s.table.filter removes).map DocumentChunk.id := by
      intro hremoved
      obtain ⟨row', hrow', hid'⟩ := List.mem_map.mp hremoved
      obtain ⟨hmem', hremoves⟩ := List.mem_filter.mp hrow'
      rw [row_unique hs hmem' hmem hid'] at hremoves
      have hnot := (List.mem_filter.mp hkept).2
      rw [hremoves] at hnot
      cases hnot
    have hcond := decide_eq_true_eq.mp (List.all_eq_true.mp hkeeps row hmem)
    rw [hchange] at hcond
    have hmargin := hcond horiginal (needsRotation_iff.mpr hold) hhand hstays
      (Nat.le_of_not_lt hahead)
    -- what is removed and what is kept make up the table
    have hsplit : rowsBefore job.access _ row.id = rowsBefore job.access s.table row.id :=
      rowsBefore_perm (List.filter_append_perm removes s.table) row.id
    rw [rowsBefore_append] at hsplit
    unfold SharedState.setTable at hbehind
    dsimp only at hbehind hmargin
    rw [rowsBefore_append] at hbehind
    omega

/-- **What an action does**: a statement of the run, or one of the daemon. -/
theorem SharedState.step_cases {job : Job} {args : Args} {cfg : Config} {s s' : SharedState}
    {a : SharedAction} (hs : (s.table.map DocumentChunk.id).Nodup)
    (hkeeps : keepsAhead job s a = true) (h : s.step job args cfg a = some s') :
    (Run.Moves job args s.table s.phase s'.table s'.phase ∧ s'.original = s.original) ∨
    Shrinks job s s' := by
  cases a with
  | rotate b =>
      obtain ⟨⟨table, phase⟩, hstep, h⟩ := Option.bind_eq_some_iff.mp h
      cases h
      exact Or.inl ⟨Run.step_moves hstep, rfl⟩
  | deleteChunks sourceItemId =>
      cases h
      have hkept : deleteChunks s.table sourceItemId
          = s.table.filter fun row => !decide (row.sourceItemId = some sourceItemId) :=
        List.filter_congr fun row _ => decide_not
      rw [hkept]
      refine Or.inr (Shrinks.setTable rfl ?_ hs hkeeps)
      rw [List.append_nil]
      exact hs.sublist (List.filter_sublist.map _)
  | beginUpsert i report chunks =>
      unfold SharedState.step at h
      dsimp only at h
      cases htx : s.txs i <;> rw [htx] at h <;> cases h
      exact Or.inr (Shrinks.setTx job i _ hs)
  | deleteStale i =>
      obtain ⟨tx, -, h⟩ := Option.bind_eq_some_iff.mp h
      cases h
      exact Or.inr (Shrinks.setTx job i _ hs)
  | insert i =>
      obtain ⟨tx, -, h⟩ := Option.bind_eq_some_iff.mp h
      split at h
      · cases h
        exact Or.inr (Shrinks.setTx job i _ hs)
      · cases h
  | commit i =>
      obtain ⟨tx, htx, h⟩ := Option.bind_eq_some_iff.mp h
      split_ifs at h with hnodup
      cases h
      -- the rows it deletes may be gone already, and those it inserts are new
      have hkept : tx.kept s.table
          = s.table.filter fun row => !decide (row.id ∈ tx.deleted.getD []) :=
        List.filter_congr fun row _ => decide_not
      have hchange : s.change (.commit i)
          = (s.table.filter fun row => decide (row.id ∈ tx.deleted.getD []), tx.inserted) := by
        unfold SharedState.change
        dsimp only
        rw [htx]
      rw [hkept] at hnodup ⊢
      have hshrink := Shrinks.setTable hchange hnodup hs hkeeps
      exact Or.inr ⟨hshrink.phase, hshrink.nodup, hshrink.rows, hshrink.ahead⟩
  | abort i =>
      cases h
      exact Or.inr (Shrinks.setTx job i none hs)

/-! ## The invariant -/

structure SharedInv (job : Job) (s : SharedState) : Prop where
  nodup : (s.table.map DocumentChunk.id).Nodup
  prepared : s.phase.Prepared job
  /-- an original row of the batch in hand is as it was read -/
  current : ∀ p batch, s.phase.batch? = some (p, batch) → ∀ chunk ∈ batch,
    ∀ row ∈ s.table, row.id ∈ s.original → chunk.id = row.id →
      row.encryptedContent = some chunk.encryptedContent
  /-- an original row behind the scan is under the new key, unless it is in hand -/
  behind : ∀ row ∈ s.table, row.id ∈ s.original →
    rowsBefore job.access s.table row.id < s.phase.place →
    RowUnderNew job row ∨ row.id ∈ s.phase.inHand
  finished : ∀ p, s.phase = .complete p → ∀ row ∈ s.table, row.id ∈ s.original →
    RowUnderNew job row

theorem SharedInv.shrinks {job : Job} {s s' : SharedState} (h : SharedInv job s)
    (hs : Shrinks job s s') : SharedInv job s' where
  nodup := hs.nodup
  prepared := by
    rw [hs.phase]
    exact h.prepared
  current := by
    rw [hs.phase]
    intro p batch hp chunk hchunk row hrow hid
    obtain ⟨hrow', hid'⟩ := hs.rows row hrow hid
    exact h.current p batch hp chunk hchunk row hrow' hid'
  behind := by
    rw [hs.phase]
    intro row hrow hid hplace
    obtain ⟨hrow', hid'⟩ := hs.rows row hrow hid
    by_cases hnew : RowUnderNew job row
    · exact Or.inl hnew
    by_cases hhand : row.id ∈ s.phase.inHand
    · exact Or.inr hhand
    exact h.behind row hrow' hid' (hs.ahead row hrow hid hnew hhand hplace)
  finished := by
    rw [hs.phase]
    intro p hp row hrow hid
    obtain ⟨hrow', hid'⟩ := hs.rows row hrow hid
    exact h.finished p hp row hrow' hid'

/-- Before the first page, and after a run that ends without a complete scan. -/
theorem SharedInv.idle {job : Job} {s : SharedState} (hnodup : (s.table.map DocumentChunk.id).Nodup)
    (hprepared : s.phase.Prepared job) (hbatch : s.phase.batch? = none) (hplace : s.phase.place = 0)
    (hcomplete : ∀ p, s.phase ≠ .complete p) : SharedInv job s where
  nodup := hnodup
  prepared := hprepared
  current := by
    rw [hbatch]
    nofun
  behind := by
    rw [hplace]
    intro row _ _ hlt
    exact absurd hlt (Nat.not_lt_zero _)
  finished := fun p hp => absurd hp (hcomplete p)

theorem place_of_batch {phase : Phase} {p : Progress} {batch : List Chunk}
    (h : phase.batch? = some (p, batch)) :
    phase.place = p.offset + batch.length ∧ phase.inHand = batch.map Chunk.id := by
  cases phase <;> cases h <;> exact ⟨rfl, rfl⟩

/-- A statement within a batch. -/
theorem SharedInv.within {job : Job} {s s' : SharedState} (h : SharedInv job s)
    (htable : s'.table = s.table) (horiginal : s'.original = s.original)
    (hprep : s'.phase.Prepared job) {p q : Progress} {batch : List Chunk}
    (hoffset : q.offset = p.offset) (hp : s.phase.batch? = some (p, batch))
    (hq : s'.phase.batch? = some (q, batch)) : SharedInv job s' where
  nodup := by
    rw [htable]
    exact h.nodup
  prepared := hprep
  current := by
    rw [htable, horiginal, hq]
    intro r b hr
    cases hr
    exact h.current p batch hp
  behind := by
    obtain ⟨hplace, hhand⟩ := place_of_batch hp
    obtain ⟨hplace', hhand'⟩ := place_of_batch hq
    rw [htable, horiginal, hplace', hhand', hoffset, ← hplace, ← hhand]
    exact h.behind
  finished := by
    intro r hr
    rw [hr] at hq
    cases hq

/-- Between two pages a row behind the scan is under the new key. -/
theorem SharedInv.passed {job : Job} {s : SharedState} (h : SharedInv job s) {p : Progress}
    (hphase : s.phase = .fetching p) {row : DocumentChunk} (hrow : row ∈ s.table)
    (hid : row.id ∈ s.original) (hplace : rowsBefore job.access s.table row.id < p.offset) :
    RowUnderNew job row := by
  have hbehind := h.behind row hrow hid
  rw [hphase] at hbehind
  rcases hbehind hplace with hnew | hhand
  · exact hnew
  · cases hhand

/-- A page is read: the rows before its end are on it, or were behind the scan. -/
theorem SharedInv.fetch {job : Job} {s s' : SharedState} (h : SharedInv job s)
    (hall : ∀ row, job.access.reach row = true) {p : Progress} {limit : Nat}
    (hphase : s.phase = .fetching p)
    (hphase' : s'.phase = .fetched p (fetchBatch job.access s.table p.offset limit))
    (htable : s'.table = s.table) (horiginal : s'.original = s.original) : SharedInv job s' where
  nodup := by
    rw [htable]
    exact h.nodup
  prepared := by
    rw [hphase']
    trivial
  current := by
    rw [htable, hphase']
    intro q batch hq chunk hchunk row hrow _ hid
    cases hq
    obtain ⟨row', hrow', -, hid', hcontent⟩ := mem_fetchBatch hchunk
    have heq : row' = row := row_unique h.nodup hrow' hrow (hid'.trans hid)
    rw [← heq]
    exact hcontent
  behind := by
    rw [htable, horiginal, hphase']
    intro row hrow hid hplace
    cases hcontent : row.encryptedContent with
    | none =>
        left
        intro wire hwire
        rw [hcontent] at hwire
        cases hwire
    | some wire =>
        -- in the order of the ids: the rows before the offset, and then the page
        have hmem := mem_targets hrow (hall row) hcontent
        have htake := List.mem_map_of_mem (f := Chunk.id)
          ((mem_take_ordered h.nodup hmem _).mpr hplace)
        unfold Phase.place at htake
        rw [List.map_take, take_batch] at htake
        rcases List.mem_append.mp htake with hearlier | hpage
        · left
          rw [← List.map_take] at hearlier
          obtain ⟨chunk, hchunk, hcid⟩ := List.mem_map.mp hearlier
          have hmem' : chunk ∈ targets job.access s.table :=
            (List.mem_insertionSort _).mp (List.mem_of_mem_take hchunk)
          have hlt := (mem_take_ordered h.nodup hmem' _).mp hchunk
          rw [hcid] at hlt
          exact h.passed hphase hrow hid hlt
        · exact Or.inr hpage
  finished := by
    rw [hphase']
    nofun

/-- The page is empty: the scan is past the end, and every row it can see is behind it. -/
theorem SharedInv.finish {job : Job} {args : Args} {s s' : SharedState} (h : SharedInv job s)
    (hall : ∀ row, job.access.reach row = true) (hbatch : 1 ≤ args.batchSize) {p : Progress}
    (hphase : s.phase = .fetching p) (hphase' : s'.phase = .complete p)
    (hempty : fetchBatch job.access s.table p.offset args.batchSize = [])
    (htable : s'.table = s.table) (horiginal : s'.original = s.original) : SharedInv job s' where
  nodup := by
    rw [htable]
    exact h.nodup
  prepared := by
    rw [hphase']
    trivial
  current := by
    rw [hphase']
    nofun
  behind := by
    rw [hphase']
    intro row _ _ hlt
    exact absurd hlt (Nat.not_lt_zero _)
  finished := by
    rw [htable, horiginal]
    intro q _ row hrow hid wire hwire
    -- there is no place at or behind the offset, so the row's is before it
    have hend : (ordered job.access s.table).length ≤ p.offset := length_le_of_empty hbatch hempty
    have hlt : rowsBefore job.access s.table row.id < p.offset := by
      have hrank : rowsBefore job.access s.table row.id < (targets job.access s.table).length :=
        rank_lt_length (mem_targets hrow (hall row) hwire)
      unfold ordered at hend
      rw [List.length_insertionSort] at hend
      exact hrank.trans_le hend
    exact h.passed hphase hrow hid hlt wire hwire

/-- A batch is committed. -/
theorem SharedInv.commit {job : Job} (hc : job.aead.Correct job.keys) {s s' : SharedState}
    (h : SharedInv job s) (hall : ∀ row, job.access.reach row = true) {p q : Progress}
    {batch : List Chunk} {pending : List Update} (hphase : s.phase = .rotating p batch [] pending)
    (hphase' : s'.phase = .fetching q) (hoffset : q.offset = p.offset + batch.length)
    (htable : s'.table = applyUpdates job.access s.table pending)
    (horiginal : s'.original = s.original) : SharedInv job s' := by
  have hprep := h.prepared
  have hbehind := h.behind
  rw [hphase] at hprep hbehind
  refine ⟨?_, ?_, ?_, ?_, ?_⟩
  · rw [htable, applyUpdates_ids]
    exact h.nodup
  · rw [hphase']
    trivial
  · rw [hphase']
    nofun
  · rw [htable, horiginal, hphase']
    intro row' hrow' hid hplace
    obtain ⟨row, hrow, rfl⟩ := List.mem_map.mp hrow'
    rw [rewriteRow_id] at hid hplace
    -- the commit moves no row forward
    have hlt : rowsBefore job.access s.table row.id < p.offset + batch.length := by
      rw [← hoffset]
      exact (rowsBefore_applyUpdates job.access s.table pending row.id).trans_lt hplace
    left
    rcases hbehind row hrow hid hlt with hnew | hhand
    · exact commit_keeps_new hc hprep hnew
    · -- a row of the batch that is still there is as it was read: the others only delete and insert
      obtain ⟨chunk, hchunk, hcid⟩ := List.mem_map.mp hhand
      have hcontent := h.current p batch (by rw [hphase]; rfl) chunk hchunk row hrow hid hcid
      exact commit_under_new hc hprep hchunk hcid hcontent (hall row)
  · rw [hphase']
    nofun

/-- **One action.** -/
theorem SharedInv.step {job : Job} (hc : job.aead.Correct job.keys)
    (hall : ∀ row, job.access.reach row = true) {args : Args} (hbatch : 1 ≤ args.batchSize)
    {cfg : Config} {s s' : SharedState} {a : SharedAction} (h : SharedInv job s)
    (hkeeps : keepsAhead job s a = true) (hs : s.step job args cfg a = some s') :
    SharedInv job s' := by
  rcases SharedState.step_cases h.nodup hkeeps hs with ⟨hmoves, horiginal⟩ | hshrink
  · have hprep := hmoves.prepared h.prepared
    have hnodup : (s'.table.map DocumentChunk.id).Nodup := by
      rw [hmoves.ids]
      exact h.nodup
    generalize hphase : s.phase = phase at hmoves
    generalize hphase' : s'.phase = phase' at hmoves
    generalize htable : s'.table = table at hmoves
    cases hmoves with
    | finish p hempty => exact h.finish hall hbatch hphase hphase' hempty htable horiginal
    | fetch p _ => exact h.fetch hall hphase hphase' htable horiginal
    | begin p batch =>
        exact h.within htable horiginal hprep rfl (by rw [hphase]; rfl) (by rw [hphase']; rfl)
    | chunk chunk hoffset _ =>
        exact h.within htable horiginal hprep hoffset (by rw [hphase]; rfl) (by rw [hphase']; rfl)
    | commit p batch pending => exact h.commit hc hall hphase hphase' rfl htable horiginal
    | _ =>
        -- the scan has not begun, or the run has ended
        refine .idle hnodup hprep ?_ ?_ ?_ <;> rw [hphase']
        · rfl
        · rfl
        · nofun
  · exact h.shrinks hshrink

/-! ## No row is missed -/

/-- **No row is missed** in a run that rotates and beside which no commit moves a row from ahead of
the scan behind it: once it has exited Ok, every original row that is left is under the new key. -/
theorem misses_no_row {aead : Aead} {keys : Keys} (hc : aead.Correct keys) {args : Args}
    (hargs : args.Rotates) (cfg : Config) {s₀ s : SharedState} {as : List SharedAction}
    (h₀ : (sharedTable ⟨aead, keys, .all⟩ args cfg).init s₀)
    (h : (sharedTable ⟨aead, keys, .all⟩ args cfg).Steps
      (fun s a => keepsAhead ⟨aead, keys, .all⟩ s a = true) s₀ as s)
    (hok : s.phase.exitsOk = true) {row : DocumentChunk} (hrow : row ∈ s.table)
    (hid : row.id ∈ s.original) {wire : Bytes} (hwire : row.encryptedContent = some wire) :
    UnderNew aead keys wire := by
  obtain ⟨hnodup, hphase, horiginal⟩ := h₀
  have hinit : SharedInv ⟨aead, keys, .all⟩ s₀ := by
    refine .idle hnodup ?_ ?_ ?_ ?_ <;> rw [hphase]
    · trivial
    · rfl
    · rfl
    · nofun
  have hdry : s₀.phase.DryOnly args := by
    rw [hphase]
    trivial
  have hinv : SharedInv ⟨aead, keys, .all⟩ s ∧ s.phase.DryOnly args := by
    refine h.preserves (P := fun s => SharedInv ⟨aead, keys, .all⟩ s ∧ s.phase.DryOnly args) ?_
      ⟨hinit, hdry⟩
    rintro s a s' ⟨hs, hdry⟩ hk hst
    refine ⟨hs.step hc (fun _ => rfl) hargs.2 hk hst, ?_⟩
    rcases SharedState.step_cases hs.nodup hk hst with ⟨hmoves, -⟩ | hshrink
    · exact hmoves.dryOnly
    · rw [hshrink.phase]
      exact hdry
  obtain ⟨p, hcomplete⟩ := hinv.2.complete hargs.1 hok
  exact hinv.1.finished p hcomplete row hrow hid wire hwire

/-! ## Concrete interleavings -/

def sampleJob : Job := ⟨sampleAead, sampleKeys, .all⟩

/-- Three items of one chunk each, when the run starts. -/
def sampleStart : SharedState where
  table := [sampleRow 2 "item-1", sampleRow 4 "item-2", sampleRow 6 "item-3"]
  phase := .connected
  txs := fun _ => none
  original := [Uuid.ofDigit 2, Uuid.ofDigit 4, Uuid.ofDigit 6]

theorem sampleStart_init (cfg : Config) : (sharedTable sampleJob sampleArgs cfg).init sampleStart :=
  ⟨by decide, rfl, by decide⟩

/-- A page of one row, from fetch to commit. -/
def samplePage (b : UInt8) : List SharedAction :=
  [.rotate .fetch, .rotate .begin, .rotate (.chunk (sampleChunkEnv b)), .rotate .commit]

/-- A new version of the first item. -/
def sampleReport : Report :=
  (⟨"item-1", none, "a.txt", false, none, false⟩,
    { sampleEnv "hello" with newId := fun i => Uuid.ofDigit (i + 3) })

/-- The third item's row, under the new key. -/
def sampleRotatedRow : DocumentChunk :=
  { sampleRow 6 "item-3" with
    encryptedContent := some ((sampleIv 7).bytes ++
      bytesBE 21 0x7c48a8cf7b7fde8489eec8a994bcb1e284eaf34e51) }

/-- A run beside a transaction that replaces a row behind the scan: the new row is behind it too,
and the last row keeps its place. -/
theorem replaced_row_is_harmless :
    ∃ as s, (sharedTable sampleJob sampleArgs sampleConfig).Steps
        (fun s a => keepsAhead sampleJob s a = true) sampleStart as s ∧
      s.phase.exitsOk = true ∧ ∃ row ∈ s.table, row.id ∈ s.original ∧
        ∃ wire, row.encryptedContent = some wire ∧ UnderNew sampleAead sampleKeys wire := by
  let as : List SharedAction := [.rotate .count] ++ samplePage 6 ++
    [.beginUpsert 0 sampleReport [(sampleWire, sampleVector)], .deleteStale 0] ++
    samplePage 6 ++ [.insert 0, .commit 0] ++ samplePage 7 ++ [.rotate .fetch]
  have hrun : ((sharedTable sampleJob sampleArgs sampleConfig).runWhere
        (keepsAhead sampleJob) sampleStart as).map
      (fun s => (s.phase.exitsOk, decide (sampleRotatedRow ∈ s.table),
        decide (sampleRotatedRow.id ∈ s.original))) = some (true, true, true) := by
    decide
  obtain ⟨s, hs, hend⟩ := Option.map_eq_some_iff.mp hrun
  simp only [Prod.mk.injEq, decide_eq_true_eq] at hend
  obtain ⟨hok, hrow, hid⟩ := hend
  have hsteps := System.steps_of_runWhere hs
  exact ⟨as, s, hsteps, hok, _, hrow, hid, _, rfl,
    misses_no_row sampleAead_correct ⟨rfl, by decide⟩ sampleConfig (sampleStart_init _) hsteps hok
      hrow hid rfl⟩

/-- **A row is missed**: `delete_chunks` removes a row the scan has passed, the next row moves into
its place before the offset, and the run completes without having read it. -/
theorem deleted_row_hides_one :
    ∃ s₀ as s, (sharedTable sampleJob sampleArgs sampleConfig).init s₀ ∧
      (sharedTable sampleJob sampleArgs sampleConfig).Steps System.anyStep s₀ as s ∧
      s.phase.exitsOk = true ∧ ∃ row ∈ s.table, row.id ∈ s.original ∧
        ∃ wire, row.encryptedContent = some wire ∧ ¬ UnderNew sampleAead sampleKeys wire := by
  let as : List SharedAction := [.rotate .count] ++ samplePage 6 ++ [.deleteChunks "item-1"] ++
    samplePage 7 ++ [.rotate .fetch]
  have hrun : ((sharedTable sampleJob sampleArgs sampleConfig).run sampleStart as).map
      (fun s => (s.phase.exitsOk, decide (sampleRow 4 "item-2" ∈ s.table),
        decide (Uuid.ofDigit 4 ∈ s.original))) = some (true, true, true) := by
    decide
  obtain ⟨s, hs, hend⟩ := Option.map_eq_some_iff.mp hrun
  simp only [Prod.mk.injEq, decide_eq_true_eq] at hend
  obtain ⟨hok, hrow, hid⟩ := hend
  refine ⟨sampleStart, as, s, sampleStart_init _, System.steps_of_run hs, hok, _, hrow, hid,
    sampleWire, rfl, ?_⟩
  rintro ⟨plain, hopen⟩
  rw [opens_new_of_encrypts_old sampleAead_correct encrypts_sampleWire] at hopen
  cases hopen

end McpGateway.Rotation
