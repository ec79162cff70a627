import McpGateway.Ingestion.Mirror

/-! # Several connectors

The daemon runs a cycle of each of its connectors in turn, and all of them write to one table. A
`remote_id` identifies an item within its connector's namespace; `delete_chunks` and `upsert_chunks`
go by the `remote_id` alone.

* `ingest_rows` — the table with the connector noted beside each row is the table.
* `connectors_ingest` — a run of the daemon processes its changes one after the other.
* `others_unchanged_iff` — the runs in which no connector touches the rows of another. -/

namespace McpGateway.Ingestion

open Foundation

/-! ## Whose rows -/

/-- A table and the connector each row was ingested through: the connectors are not part of the
program. -/
abbrev OwnedTable := List (String × DocumentChunk)

def OwnedTable.rows (table : OwnedTable) : List DocumentChunk := table.map Prod.snd

/-- The rows ingested through one connector. -/
def OwnedTable.through (table : OwnedTable) (connectorId : String) : List DocumentChunk :=
  OwnedTable.rows (table.filter fun r => r.1 = connectorId)

/-- The change gets as far as to a committed `DELETE`, alone or before the `INSERT`s. -/
def replaces (cfg : Config) (rows : List DocumentChunk) (x : Report) : Bool :=
  if x.1.deleted then x.2.delete != .failed
  else match x.2.download with
    | .error _ => false
    | .ok content =>
        let chunks := chunk (extractText cfg.unicode content x.1.name)
        !x.2.chunkerFails && !chunks.isEmpty && x.2.upsert != .failed &&
          match encryptFrom cfg x.2 0 chunks, embedBatch cfg x.2 chunks with
          | some encrypted, some embeddings =>
              (upsertChunks cfg rows x encrypted embeddings).isSome
          | _, _ => false

/-- One change of one connector: the rows that are added are its rows. -/
def ingest (cfg : Config) (table : OwnedTable) (connectorId : String) (x : Report) : OwnedTable :=
  if replaces cfg table.rows x then
    let kept := table.filter fun r => r.2.sourceItemId ≠ some x.1.remoteId
    kept ++ ((processItem cfg table.rows x).1.drop kept.length).map (connectorId, ·)
  else table

/-- The daemon's settings with the id of one of its connectors. -/
def Config.at (cfg : Config) (connectorId : String) : Config :=
  { cfg with connectorId := connectorId }

/-- Changes of several connectors, one after the other. -/
def ingesting (cfg : Config) : System OwnedTable (String × Report) where
  init table := table = []
  step table c := some (ingest (cfg.at c.1) table c.1 c.2)

/-- The poll loop over several connectors. -/
def connectors (cfg : Config) : System Db (String × Cycle) where
  init db := db = ⟨[], fun _ => none⟩
  step db c := some (runCycle (cfg.at c.1) db c.2).2

/-- All changes of a run, in the order they are processed. -/
def changes (cfg : Config) : Db → List (String × Cycle) → List (String × Report)
  | _, [] => []
  | db, (connectorId, a) :: as =>
      (batchAt (cfg.at connectorId) db a).map (connectorId, ·) ++
        changes cfg (runCycle (cfg.at connectorId) db a).2 as

/-! ## What a change does -/

theorem insertFrom_append {cfg : Config} {x : Report} {pairs : List (Bytes × Vector32)} {i : Nat}
    {rows rows' : List DocumentChunk} (h : insertFrom cfg x i pairs rows = some rows') :
    ∃ added, rows' = rows ++ added := by
  induction pairs generalizing i rows with
  | nil =>
      cases h
      exact ⟨[], by simp⟩
  | cons pair pairs ih =>
      simp only [insertFrom] at h
      split at h
      · cases h
      · obtain ⟨added, rfl⟩ := ih h
        exact ⟨_, List.append_assoc ..⟩

/-- **The rows of the item are replaced**, or the table stays as it is. -/
theorem processItem_replaces (cfg : Config) (rows : List DocumentChunk) (x : Report) :
    (replaces cfg rows x = true →
      ∃ added, (processItem cfg rows x).1 = deleteChunks rows x.1.remoteId ++ added) ∧
    (replaces cfg rows x = false → (processItem cfg rows x).1 = rows) := by
  obtain ⟨item, env⟩ := x
  unfold replaces processItem
  by_cases hdel : item.deleted
  · simp only [hdel, if_true]
    cases env.delete with
    | done => exact ⟨fun _ => ⟨[], by simp⟩, by simp⟩
    | lost => exact ⟨fun _ => ⟨[], by simp⟩, by simp⟩
    | failed => exact ⟨by simp, fun _ => rfl⟩
  · simp only [hdel, if_false, Bool.false_eq_true]
    cases env.download with
    | error e => exact ⟨by simp, fun _ => rfl⟩
    | ok content =>
        dsimp only
        by_cases htext : extractText cfg.unicode content item.name = ""
        · simp [htext, chunk_empty]
        by_cases hchunker : env.chunkerFails
        · simp [htext, hchunker]
        by_cases hchunks : chunk (extractText cfg.unicode content item.name) = []
        · simp [htext, hchunker, hchunks]
        simp only [htext, hchunker, hchunks, if_false, Bool.false_eq_true]
        -- the old rows are deleted only after every chunk is encrypted and embedded
        cases henc : encryptFrom cfg env 0 (chunk (extractText cfg.unicode content item.name)) with
        | none => simp
        | some encrypted =>
            cases hemb : embedBatch cfg env (chunk (extractText cfg.unicode content item.name)) with
            | none => simp
            | some embeddings =>
                dsimp only
                cases hup : upsertChunks cfg rows (item, env) encrypted embeddings with
                | none => simp
                | some rows' =>
                    obtain ⟨added, hadded⟩ := insertFrom_append hup
                    cases env.upsert with
                    | done => simpa [hchunks] using ⟨added, hadded⟩
                    | lost => simpa [hchunks] using ⟨added, hadded⟩
                    | failed => simp

@[simp] theorem OwnedTable.rows_append (table table' : OwnedTable) :
    OwnedTable.rows (table ++ table') = table.rows ++ table'.rows :=
  List.map_append ..

@[simp] theorem OwnedTable.rows_map (rows : List DocumentChunk) (connectorId : String) :
    OwnedTable.rows (rows.map (connectorId, ·)) = rows := by
  simp [OwnedTable.rows, Function.comp_def]

theorem rows_filter (table : OwnedTable) (p : DocumentChunk → Bool) :
    OwnedTable.rows (table.filter fun r => p r.2) = table.rows.filter p := by
  simp [OwnedTable.rows, List.filter_map, Function.comp_def]

theorem rows_kept (table : OwnedTable) (id : String) :
    OwnedTable.rows (table.filter fun r => r.2.sourceItemId ≠ some id) =
      deleteChunks table.rows id :=
  rows_filter table fun r => r.sourceItemId ≠ some id

/-- **The owners are noted beside the table.** -/
theorem ingest_rows (cfg : Config) (table : OwnedTable) (connectorId : String) (x : Report) :
    (ingest cfg table connectorId x).rows = (processItem cfg table.rows x).1 := by
  obtain ⟨hyes, hno⟩ := processItem_replaces cfg table.rows x
  unfold ingest
  cases hreplaces : replaces cfg table.rows x with
  | false =>
      rw [hno hreplaces]
      rfl
  | true =>
      obtain ⟨added, hadded⟩ := hyes hreplaces
      have hkept := rows_kept table x.1.remoteId
      have hlength : (table.filter fun r => r.2.sourceItemId ≠ some x.1.remoteId).length =
          (deleteChunks table.rows x.1.remoteId).length := by
        rw [← hkept, OwnedTable.rows, List.length_map]
      rw [if_pos rfl, OwnedTable.rows_append, hkept, OwnedTable.rows_map, hadded, hlength,
        List.drop_left]

/-- **The rows of another connector**: those of the item are gone. -/
theorem through_ingest {cfg : Config} {table : OwnedTable} {connectorId other : String} {x : Report}
    (hother : other ≠ connectorId) :
    (ingest cfg table connectorId x).through other =
      if replaces cfg table.rows x then
        (table.through other).filter fun r => r.sourceItemId ≠ some x.1.remoteId
      else table.through other := by
  unfold ingest
  split
  · have hadded : ∀ rows : List DocumentChunk,
        (rows.map (connectorId, ·)).filter (fun r => decide (r.1 = other)) = [] := by
      intro rows
      refine List.filter_eq_nil_iff.mpr ?_
      intro r hr
      obtain ⟨row, -, rfl⟩ := List.mem_map.mp hr
      simpa using hother.symm
    unfold OwnedTable.through
    dsimp only
    rw [List.filter_append, hadded, List.append_nil, ← rows_filter, List.filter_filter,
      List.filter_filter]
    congr 1
    refine List.filter_congr ?_
    intro r _
    exact Bool.and_comm _ _
  · rfl

/-! ## Runs -/

/-- The change leaves the rows of the other connectors as they are. -/
def LeavesOthers (cfg : Config) (table : OwnedTable) (c : String × Report) : Prop :=
  ∀ other, other ≠ c.1 →
    (ingest (cfg.at c.1) table c.1 c.2).through other = table.through other

/-- If the change gets as far as to a committed `DELETE`, no row of another connector has its
`remote_id`. -/
def NoForeignRow (cfg : Config) (table : OwnedTable) (c : String × Report) : Prop :=
  replaces (cfg.at c.1) table.rows c.2 = true → ∀ other, other ≠ c.1 →
    ∀ r ∈ table.through other, r.sourceItemId ≠ some c.2.1.remoteId

/-- **One change.** -/
theorem leavesOthers_iff (cfg : Config) (table : OwnedTable) (c : String × Report) :
    LeavesOthers cfg table c ↔ NoForeignRow cfg table c := by
  unfold LeavesOthers NoForeignRow
  cases hreplaces : replaces (cfg.at c.1) table.rows c.2 with
  | false =>
      constructor
      · intro _ hfalse
        cases hfalse
      · intro _ other hother
        rw [through_ingest hother, hreplaces]
        rfl
  | true =>
      constructor
      · intro hleaves _ other hother r hr
        have hsame := hleaves other hother
        rw [through_ingest hother, hreplaces, if_pos rfl] at hsame
        simpa using List.filter_eq_self.mp hsame r hr
      · intro hforeign other hother
        rw [through_ingest hother, hreplaces, if_pos rfl]
        refine List.filter_eq_self.mpr ?_
        intro r hr
        simpa using hforeign rfl other hother r hr

theorem ingesting_items {cfg : Config} {connectorId : String} (xs : List Report)
    (table : OwnedTable) :
    ∃ table', (ingesting cfg).Steps System.anyStep table (xs.map (connectorId, ·)) table' ∧
      table'.rows = itemsTable (cfg.at connectorId) table.rows xs := by
  induction xs generalizing table with
  | nil => exact ⟨table, .nil _, rfl⟩
  | cons x xs ih =>
      obtain ⟨table', hsteps, hrows⟩ := ih (ingest (cfg.at connectorId) table connectorId x)
      refine ⟨table', .cons trivial rfl hsteps, ?_⟩
      rw [hrows, itemsTable_cons, ingest_rows]

/-- **A run of the daemon** processes its changes one after the other. -/
theorem connectors_ingest {cfg : Config} {db₀ db : Db} {as : List (String × Cycle)}
    (hrun : (connectors cfg).Steps System.anyStep db₀ as db) {table : OwnedTable}
    (htable : table.rows = db₀.chunks) :
    ∃ table', (ingesting cfg).Steps System.anyStep table (changes cfg db₀ as) table' ∧
      table'.rows = db.chunks := by
  induction hrun generalizing table with
  | nil => exact ⟨table, .nil _, htable⟩
  | @cons db db' db'' a as _ hstep _ ih =>
      obtain ⟨connectorId, a⟩ := a
      cases hstep
      obtain ⟨mid, hitems, hmid⟩ := @ingesting_items cfg connectorId
        (batchAt (cfg.at connectorId) db a) table
      have hchunks : mid.rows = (runCycle (cfg.at connectorId) db a).2.chunks := by
        rw [hmid, htable, (runCycle_db _ _ _).1]
      obtain ⟨table', hrest, hrows⟩ := ih hchunks
      exact ⟨table', hitems.append hrest, hrows⟩

/-- **The other connectors' rows stay** throughout a run if and only if no change that is carried
out has the `remote_id` of one of them. -/
theorem others_unchanged_iff {cfg : Config} {db₀ db : Db} {as : List (String × Cycle)}
    (hrun : (connectors cfg).Steps System.anyStep db₀ as db) {table : OwnedTable}
    (htable : table.rows = db₀.chunks) :
    ∃ table', (ingesting cfg).Steps System.anyStep table (changes cfg db₀ as) table' ∧
      table'.rows = db.chunks ∧
      ((ingesting cfg).Steps (LeavesOthers cfg) table (changes cfg db₀ as) table' ↔
        (ingesting cfg).Steps (NoForeignRow cfg) table (changes cfg db₀ as) table') := by
  obtain ⟨table', hsteps, hrows⟩ := connectors_ingest hrun htable
  refine ⟨table', hsteps, hrows, ?_⟩
  exact hsteps.congr (P := fun _ => True)
    (fun t c _ _ _ _ => ⟨trivial, leavesOthers_iff cfg t c⟩) trivial

/-! ## Two connectors -/

def deletedItem (remoteId : String) : ChangeItem := ⟨remoteId, none, "b.txt", false, none, true⟩

/-- `drive` ingests its `item-1`, then `zoho` reports that an item of its own is deleted. -/
def twoConnectors (remoteId : String) : List (String × Cycle) := [
  ("drive", sampleCycle [sampleItem false] (fun _ => sampleEnv "hello") "1"),
  ("zoho", sampleCycle [deletedItem remoteId] (fun _ => sampleEnv "") "1")]

theorem twoConnectors_changes (remoteId : String) :
    changes sampleConfig ⟨[], fun _ => none⟩ (twoConnectors remoteId) =
      [("drive", (sampleItem false, sampleEnv "hello")),
        ("zoho", (deletedItem remoteId, sampleEnv ""))] := rfl

theorem twoConnectors_steps (remoteId : String) :
    ∃ db, (connectors sampleConfig).Steps System.anyStep ⟨[], fun _ => none⟩
      (twoConnectors remoteId) db :=
  ⟨_, .cons trivial rfl (.cons trivial rfl (.nil _))⟩

/-- The table after the first of the two. -/
theorem drive_rows :
    ∃ rows : List DocumentChunk, ingest (sampleConfig.at "drive") [] "drive" (sampleItem false, sampleEnv "hello") =
        rows.map ("drive", ·) ∧ (∃ r ∈ rows, r.sourceItemId = some "item-1") ∧
      ∀ id, id ≠ "item-1" → ∀ r ∈ rows, r.sourceItemId ≠ some id := by
  let x : Report := (sampleItem false, sampleEnv "hello")
  have hexpected : expected (sampleConfig.at "drive") x = some ["hello"] := sample_expected
  have hblank : ¬ Blank (sampleConfig.at "drive") x := by
    intro h
    rw [Blank, hexpected] at h
    cases h.2
  have hsucceeds : Succeeds (sampleConfig.at "drive") [] x := sample_succeeds
  obtain ⟨⟨chunks, hchunks, hmirrors⟩, hothers⟩ := processItem_effective hsucceeds hblank
  rw [hexpected] at hchunks
  cases hchunks
  obtain ⟨r, rest, hrows, -, -⟩ := hmirrors
  refine ⟨(processItem (sampleConfig.at "drive") [] x).1, ?_, ⟨r, ?_⟩, ?_⟩
  · cases hreplaces : replaces (sampleConfig.at "drive") [] x with
    | true => simp [ingest, OwnedTable.rows, hreplaces, x]
    | false =>
        have hsame := (processItem_replaces _ _ _).2 hreplaces
        rw [hsame] at hrows
        cases hrows
  · have hr : r ∈ rowsOf (processItem (sampleConfig.at "drive") [] x).1 "item-1" := by
      rw [show "item-1" = x.1.remoteId from rfl, hrows]
      exact List.mem_cons_self
    simpa [rowsOf] using hr
  · intro id hid r' hr' hsource
    have hmem : r' ∈ rowsOf (processItem (sampleConfig.at "drive") [] x).1 id :=
      List.mem_filter.mpr ⟨hr', by simpa using hsource⟩
    rw [hothers id hid] at hmem
    cases hmem

theorem through_map_self (rows : List DocumentChunk) (connectorId : String) :
    OwnedTable.through (rows.map (connectorId, ·)) connectorId = rows := by
  simp [OwnedTable.through, OwnedTable.rows, List.filter_map, Function.comp_def]

theorem through_map_ne (rows : List DocumentChunk) {connectorId other : String}
    (h : other ≠ connectorId) : OwnedTable.through (rows.map (connectorId, ·)) other = [] := by
  simp [OwnedTable.through, OwnedTable.rows, List.filter_map, Function.comp_def, h.symm]

theorem other_item_deleted :
    ∃ table db, (connectors sampleConfig).Steps System.anyStep ⟨[], fun _ => none⟩
        (twoConnectors "item-2") db ∧
      OwnedTable.rows table = db.chunks ∧
      (ingesting sampleConfig).Steps (LeavesOthers sampleConfig) []
        (changes sampleConfig ⟨[], fun _ => none⟩ (twoConnectors "item-2")) table := by
  obtain ⟨db, hrun⟩ := twoConnectors_steps "item-2"
  have hempty : OwnedTable.rows [] = ([] : List DocumentChunk) := rfl
  obtain ⟨table, hsteps, hrows, hiff⟩ := others_unchanged_iff hrun hempty
  refine ⟨table, db, hrun, hrows, hiff.mpr ?_⟩
  rw [twoConnectors_changes] at hsteps ⊢
  obtain ⟨rows, hrows, -, hsources⟩ := drive_rows
  cases hsteps with
  | cons _ hfirst hrest =>
      cases hrest with
      | cons _ hsecond hrest =>
          refine .cons ?_ hfirst (.cons ?_ hsecond (hrest.restrict (by simp)))
          · intro _ other _ r hr
            cases hr
          · intro _ other hother r hr
            cases hfirst
            dsimp only at hr
            rw [hrows] at hr
            by_cases hdrive : other = "drive"
            · rw [hdrive, through_map_self] at hr
              exact hsources "item-2" (by decide) r hr
            · rw [through_map_ne rows hdrive] at hr
              cases hr

/-- The two connectors have an item of the same id: the deletion of one removes the rows of the
other. -/
theorem same_id_removes_rows : ¬ ∀ (cfg : Config) (db₀ db : Db) (as : List (String × Cycle)),
    (connectors cfg).init db₀ → (connectors cfg).Steps System.anyStep db₀ as db →
      ∃ table, OwnedTable.rows table = db.chunks ∧
        (ingesting cfg).Steps (LeavesOthers cfg) [] (changes cfg db₀ as) table := by
  intro hclaim
  obtain ⟨db, hrun⟩ := twoConnectors_steps "item-1"
  obtain ⟨table, -, hsteps⟩ := hclaim sampleConfig _ db _ rfl hrun
  rw [twoConnectors_changes] at hsteps
  obtain ⟨rows, hrows, ⟨r, hr, hsource⟩, -⟩ := drive_rows
  cases hsteps with
  | cons _ hfirst hrest =>
      cases hrest with
      | cons hleaves _ _ =>
          cases hfirst
          have hforeign := (leavesOthers_iff _ _ _).mp hleaves rfl "drive" (by decide) r
          dsimp only at hforeign
          rw [hrows, through_map_self] at hforeign
          exact hforeign hr hsource

end McpGateway.Ingestion
