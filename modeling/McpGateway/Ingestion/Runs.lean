import McpGateway.Ingestion.Rows

/-! # Runs of the daemon

A run of cycles does to the table what the item loop does to the concatenation of all the batches
(`steps_chunks`), so most facts about runs are facts about one list of reports.

* `applied_lasts` — an applied change stays applied until a later report of the same item replaces
  it by its own version.
* `batchAt`, `storedToken` — what a cycle works on and which cursor it stores. -/

namespace McpGateway.Ingestion

open Foundation

/-! ## The item loop over a list of reports -/

/-- The table after the item loop. -/
def itemsTable (cfg : Config) (rows : List DocumentChunk) (xs : List Report) :
    List DocumentChunk :=
  (runItems cfg rows xs).1

@[simp] theorem itemsTable_nil (cfg : Config) (rows : List DocumentChunk) :
    itemsTable cfg rows [] = rows := rfl

@[simp] theorem itemsTable_cons (cfg : Config) (rows : List DocumentChunk) (x : Report)
    (xs : List Report) :
    itemsTable cfg rows (x :: xs) = itemsTable cfg (processItem cfg rows x).1 xs := rfl

theorem itemsTable_append (cfg : Config) (rows : List DocumentChunk) (xs ys : List Report) :
    itemsTable cfg rows (xs ++ ys) = itemsTable cfg (itemsTable cfg rows xs) ys := by
  induction xs generalizing rows with
  | nil => rfl
  | cons x xs ih => rw [List.cons_append, itemsTable_cons, itemsTable_cons, ih]

/-- Only the rows of the item matter for whether a change is applied. -/
theorem Applied.of_rowsOf {cfg : Config} {rows rows' : List DocumentChunk} {x : Report}
    (h : Applied cfg rows x) (hrows : rowsOf rows' x.1.remoteId = rowsOf rows x.1.remoteId) :
    Applied cfg rows' x := by
  obtain ⟨chunks, hx, hm⟩ := h
  refine ⟨chunks, hx, ?_⟩
  unfold Mirrors
  rw [hrows]
  exact hm

/-- **What is applied lasts.** -/
theorem applied_lasts {cfg : Config} {rows : List DocumentChunk} {x : Report}
    (h : Applied cfg rows x) (xs : List Report) :
    ∃ y ∈ x :: xs, y.1.remoteId = x.1.remoteId ∧ Applied cfg (itemsTable cfg rows xs) y := by
  induction xs generalizing rows x with
  | nil => exact ⟨x, List.mem_cons_self, rfl, h⟩
  | cons z zs ih =>
      have hkeep : rowsOf (processItem cfg rows z).1 x.1.remoteId = rowsOf rows x.1.remoteId →
          ∃ y ∈ x :: z :: zs, y.1.remoteId = x.1.remoteId ∧
            Applied cfg (itemsTable cfg rows (z :: zs)) y := by
        intro hrows
        obtain ⟨y, hy, hid, happ⟩ := ih (h.of_rowsOf hrows)
        rcases List.mem_cons.mp hy with rfl | hy
        · exact ⟨y, List.mem_cons_self, hid, happ⟩
        · exact ⟨y, List.mem_cons_of_mem _ (List.mem_cons_of_mem _ hy), hid, happ⟩
      rcases processItem_cases cfg rows z with hsame | ⟨happ, hother⟩
      · exact hkeep (by rw [hsame])
      · by_cases hid : x.1.remoteId = z.1.remoteId
        · -- the same item again: its own version takes over
          obtain ⟨y, hy, hyid, hyapp⟩ := ih happ
          exact ⟨y, List.mem_cons_of_mem _ hy, hyid.trans hid.symm, hyapp⟩
        · exact hkeep (hother _ hid)

/-! ## Cycles -/

/-- The reports a cycle works on. -/
def batchAt (cfg : Config) (db : Db) (a : Cycle) : List Report :=
  if a.loadFails then []
  else match a.listChanges (db.cursors cfg.connectorId) with
    | .error _ => []
    | .ok delta => a.batch delta

/-- A change comes with the outside world of its place in the batch. -/
theorem batchAt_env {cfg : Config} {db : Db} {a : Cycle} {x : Report} (h : x ∈ batchAt cfg db a) :
    ∃ i, x.2 = a.items i := by
  unfold batchAt at h
  split_ifs at h
  · cases h
  · cases hlist : a.listChanges (db.cursors cfg.connectorId) with
    | error e =>
        rw [hlist] at h
        cases h
    | ok delta =>
        rw [hlist] at h
        obtain ⟨i, -, rfl⟩ := List.mem_mapIdx.mp h
        exact ⟨i, rfl⟩

/-- The cursor `save_cursor` stores in a cycle, if any. -/
def storedToken (cfg : Config) (db : Db) (a : Cycle) : Option String :=
  if a.loadFails then none
  else match a.listChanges (db.cursors cfg.connectorId) with
    | .error _ => none
    | .ok delta => if a.save = .failed then none else delta.nextCursor

/-- What a cycle does to the two tables. -/
theorem runCycle_db (cfg : Config) (db : Db) (a : Cycle) :
    (runCycle cfg db a).2.chunks = itemsTable cfg db.chunks (batchAt cfg db a) ∧
    (runCycle cfg db a).2.cursors cfg.connectorId
      = (storedToken cfg db a).or (db.cursors cfg.connectorId) := by
  unfold runCycle batchAt storedToken
  by_cases hload : a.loadFails
  · simp [hload]
  · simp only [hload, if_false, Bool.false_eq_true]
    cases hlist : a.listChanges (db.cursors cfg.connectorId) with
    | error e => simp
    | ok delta =>
        dsimp only
        cases hnext : delta.nextCursor with
        | none => simp [itemsTable]
        | some token => cases a.save <;> simp [itemsTable, saveCursor]

/-- All reports of a run, in the order they are processed. -/
def reports (cfg : Config) : Db → List Cycle → List Report
  | _, [] => []
  | db, a :: as => batchAt cfg db a ++ reports cfg (runCycle cfg db a).2 as

theorem daemon_step {cfg : Config} {db db' : Db} {a : Cycle}
    (h : (daemon cfg).step db a = some db') : db' = (runCycle cfg db a).2 :=
  (Option.some.inj h).symm

/-- **A run is one item loop over all its reports.** -/
theorem steps_chunks {cfg : Config} {C : Db → Cycle → Prop} {db db' : Db} {as : List Cycle}
    (h : (daemon cfg).Steps C db as db') :
    db'.chunks = itemsTable cfg db.chunks (reports cfg db as) := by
  induction h with
  | nil => rfl
  | cons _ hst _ ih =>
      cases daemon_step hst
      rw [ih, (runCycle_db cfg _ _).1, reports, itemsTable_append]

end McpGateway.Ingestion
