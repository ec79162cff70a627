import McpGateway.Ingestion.RunCycle

/-! # What an item leaves in the table

* `Mirrors` — the rows of an item are exactly the rows of a list of chunks.
* `processItem_cases` — an item either leaves the table alone, or has its own rows mirror its
  reported version and leaves every other item's rows alone.
* `Succeeds` — every call made for the item returns `Ok`. Then only blank text leaves the table
  alone (`processItem_blank`); anything else is applied (`processItem_effective`). -/

namespace McpGateway.Ingestion

/-! ## Versions and their rows -/

/-- The rows of one source item. -/
def rowsOf (rows : List DocumentChunk) (sourceItemId : String) : List DocumentChunk :=
  rows.filter fun r => r.sourceItemId = some sourceItemId

/-- The row holds this chunk of the item, encrypted, at this index. -/
structure ChunkRow (cfg : Config) (item : ChangeItem) (c : String) (index : Int)
    (r : DocumentChunk) : Prop where
  sourceItemId : r.sourceItemId = some item.remoteId
  docName : r.docName = item.name
  classification : r.classification = cfg.classification
  chunkIndex : r.chunkIndex = index
  encrypted : ∃ iv ct, encrypt cfg (some iv) (asBytes c) = some ct ∧ r.encryptedContent = some ct

/-- The rows are those of these chunks, in order, the first one with index `index i`. -/
def RowsFrom (cfg : Config) (item : ChangeItem) (index : Nat → Int) :
    Nat → List String → List DocumentChunk → Prop
  | _, [], rows => rows = []
  | i, c :: cs, rows => ∃ r rest, rows = r :: rest ∧ ChunkRow cfg item c (index i) r ∧
      RowsFrom cfg item index (i + 1) cs rest

/-- The rows of the item are exactly the rows of its chunks. -/
def Mirrors (cfg : Config) (index : Nat → Int) (rows : List DocumentChunk) (item : ChangeItem)
    (chunks : List String) : Prop :=
  RowsFrom cfg item index 0 chunks (rowsOf rows item.remoteId)

/-- The chunks of the version a report is about; unknown when the download failed. -/
def expected (cfg : Config) (x : Report) : Option (List String) :=
  if x.1.deleted then some []
  else match x.2.download with
    | .error _ => none
    | .ok content => some (chunk (extractText cfg.unicode content x.1.name))

/-- The change has been applied: the rows of the item are those of the reported version, with the
index the code stores. -/
def Applied (cfg : Config) (rows : List DocumentChunk) (x : Report) : Prop :=
  ∃ chunks, expected cfg x = some chunks ∧ Mirrors cfg asI32 rows x.1 chunks

theorem RowsFrom.mono {cfg cfg' : Config} {item item' : ChangeItem} {index : Nat → Int} {i : Nat}
    {chunks : List String} {rows : List DocumentChunk} (h : RowsFrom cfg item index i chunks rows)
    (himp : ∀ c j r, ChunkRow cfg item c j r → ChunkRow cfg' item' c j r) :
    RowsFrom cfg' item' index i chunks rows := by
  induction chunks generalizing i rows with
  | nil => exact h
  | cons c cs ih =>
      obtain ⟨r, rest, rfl, hr, hrest⟩ := h
      exact ⟨r, rest, rfl, himp c _ r hr, ih hrest⟩

/-- Only the name and the id of an item go into its rows. -/
theorem Mirrors.congr {cfg : Config} {item item' : ChangeItem} {index : Nat → Int}
    {rows : List DocumentChunk} {chunks : List String} (h : Mirrors cfg index rows item chunks)
    (hid : item.remoteId = item'.remoteId) (hname : item.name = item'.name) :
    Mirrors cfg index rows item' chunks := by
  unfold Mirrors at h ⊢
  rw [← hid]
  apply h.mono
  intro c j r hr
  exact ⟨hid ▸ hr.sourceItemId, hname ▸ hr.docName, hr.classification, hr.chunkIndex, hr.encrypted⟩

/-- A version that is not a deletion and yields no chunk. -/
def Blank (cfg : Config) (x : Report) : Prop :=
  x.1.deleted = false ∧ expected cfg x = some []

/-- Every call made for the item returns `Ok`. -/
def Succeeds (cfg : Config) (rows : List DocumentChunk) (x : Report) : Prop :=
  if x.1.deleted then x.2.delete = .done
  else ∃ content, x.2.download = .ok content ∧
    (extractText cfg.unicode content x.1.name ≠ "" → x.2.chunkerFails = false) ∧
    (chunk (extractText cfg.unicode content x.1.name) ≠ [] →
      ∃ encrypted embeddings rows',
        encryptFrom cfg x.2 0 (chunk (extractText cfg.unicode content x.1.name)) = some encrypted ∧
        embedBatch cfg x.2 (chunk (extractText cfg.unicode content x.1.name)) = some embeddings ∧
        upsertChunks cfg rows x encrypted embeddings = some rows' ∧ x.2.upsert = .done)

theorem chunk_empty : chunk "" = [] := by decide

/-- The chunks of a version whose download worked. -/
theorem expected_of_download {cfg : Config} {x : Report} {content : Bytes}
    (hdel : x.1.deleted = false) (hdown : x.2.download = .ok content) :
    expected cfg x = some (chunk (extractText cfg.unicode content x.1.name)) := by
  simp [expected, hdel, hdown]

theorem Succeeds.of_download {cfg : Config} {rows : List DocumentChunk} {x : Report}
    {content : Bytes} {chunks : List String} (hdel : x.1.deleted = false)
    (hdown : x.2.download = .ok content) (hchunker : x.2.chunkerFails = false)
    (hchunks : expected cfg x = some chunks)
    (hsteps : chunks ≠ [] → ∃ encrypted embeddings rows',
      encryptFrom cfg x.2 0 chunks = some encrypted ∧ embedBatch cfg x.2 chunks = some embeddings ∧
      upsertChunks cfg rows x encrypted embeddings = some rows' ∧ x.2.upsert = .done) :
    Succeeds cfg rows x := by
  rw [expected_of_download hdel hdown] at hchunks
  cases hchunks
  unfold Succeeds
  simp only [hdel, Bool.false_eq_true, if_false]
  exact ⟨content, hdown, fun _ => hchunker, hsteps⟩

/-! ## The database calls -/

theorem rowsOf_deleteChunks_self (rows : List DocumentChunk) (id : String) :
    rowsOf (deleteChunks rows id) id = [] := by
  simp [rowsOf, deleteChunks, List.filter_filter]

theorem rowsOf_deleteChunks_of_ne (rows : List DocumentChunk) {id id' : String} (h : id' ≠ id) :
    rowsOf (deleteChunks rows id) id' = rowsOf rows id' := by
  unfold rowsOf deleteChunks
  rw [List.filter_filter]
  apply List.filter_congr
  intro r _
  by_cases hr : r.sourceItemId = some id'
  · simp [hr, h]
  · simp [hr]

@[simp] theorem rowsOf_append (rows rows' : List DocumentChunk) (id : String) :
    rowsOf (rows ++ rows') id = rowsOf rows id ++ rowsOf rows' id :=
  List.filter_append ..

theorem newRow_chunkRow {cfg : Config} {x : Report} {i : Nat} {c : String} {iv ct : Bytes}
    {emb : Vector32} (h : encrypt cfg (some iv) (asBytes c) = some ct) :
    ChunkRow cfg x.1 c (asI32 i) (newRow cfg x i ct emb) where
  sourceItemId := by simp only [newRow]
  docName := by simp only [newRow]
  classification := by simp only [newRow]
  chunkIndex := by simp only [newRow]
  encrypted := ⟨iv, ct, h, by simp only [newRow]⟩

/-- What the `INSERT`s add is the rows of the chunks, one for each pair. -/
theorem insertFrom_rows {cfg : Config} {x : Report} {i : Nat} {chunks : List String}
    {encrypted : List Bytes} {embeddings : List Vector32} {rows rows' : List DocumentChunk}
    (henc : encryptFrom cfg x.2 i chunks = some encrypted)
    (hlen : embeddings.length = chunks.length)
    (h : insertFrom cfg x i (encrypted.zip embeddings) rows = some rows') :
    ∃ added, rows' = rows ++ added ∧ (∀ r ∈ added, r.sourceItemId = some x.1.remoteId) ∧
      RowsFrom cfg x.1 asI32 i chunks added := by
  induction chunks generalizing i encrypted embeddings rows with
  | nil =>
      cases henc
      simp only [List.zip_nil_left, insertFrom, Option.some.injEq] at h
      exact ⟨[], by simp [h], by simp, rfl⟩
  | cons c cs ih =>
      obtain ⟨e, he, henc⟩ := Option.bind_eq_some_iff.mp henc
      obtain ⟨es, hes, henc⟩ := Option.bind_eq_some_iff.mp henc
      cases henc
      obtain ⟨iv, hiv, hseal⟩ := Option.bind_eq_some_iff.mp he
      cases embeddings with
      | nil => simp at hlen
      | cons v vs =>
          simp only [List.zip_cons_cons, insertFrom] at h
          split at h
          · cases h
          · obtain ⟨added, rfl, hsrc, hrows⟩ := ih hes (by simpa using hlen) h
            refine ⟨newRow cfg x i e v :: added, by simp, ?_, ?_⟩
            · intro r hr
              rcases List.mem_cons.mp hr with rfl | hr
              · rfl
              · exact hsrc r hr
            · have hct : encrypt cfg (some iv) (asBytes c) = some e := by rw [← he, hiv]
              exact ⟨_, added, rfl, newRow_chunkRow hct, hrows⟩

/-! ## The embedding service -/

theorem embedOneBatch_length {reply : Option (List EmbedData)} {texts : List String}
    {out : List Vector32} (h : embedOneBatch reply texts = some out) : out.length = texts.length := by
  obtain ⟨data, -, h⟩ := Option.bind_eq_some_iff.mp h
  split at h
  · cases h
  · rename_i hlen
    cases h
    simpa using hlen

theorem embedFrom_length {tei : Nat → Option (List EmbedData)} {k : Nat} {bs : List (List String)}
    {out : List Vector32} (h : embedFrom tei k bs = some out) :
    out.length = bs.flatten.length := by
  induction bs generalizing k out with
  | nil =>
      cases h
      rfl
  | cons b bs ih =>
      obtain ⟨r, hr, h⟩ := Option.bind_eq_some_iff.mp h
      obtain ⟨rest, hrest, h⟩ := Option.bind_eq_some_iff.mp h
      cases h
      rw [List.length_append, embedOneBatch_length hr, ih hrest, List.flatten_cons,
        List.length_append]

theorem batches_flatten (batchSize : Nat) (texts : List String) :
    (batches batchSize texts).flatten = texts := by
  induction texts using batches.induct batchSize with
  | case1 => simp [batches]
  | case2 t ts ih => rw [batches, List.flatten_cons, ih, List.take_append_drop]

/-- **One embedding for each chunk.** -/
theorem embedBatch_length {cfg : Config} {env : ItemEnv} {texts : List String}
    {out : List Vector32} (h : embedBatch cfg env texts = some out) :
    out.length = texts.length := by
  rw [embedFrom_length h, batches_flatten]

/-! ## The body of the loop -/

/-- `upsert_chunks` makes the rows of the item mirror its chunks. -/
theorem upsertChunks_applied {cfg : Config} {rows rows' : List DocumentChunk} {x : Report}
    {encrypted : List Bytes} {embeddings : List Vector32} {chunks : List String}
    (hx : expected cfg x = some chunks) (henc : encryptFrom cfg x.2 0 chunks = some encrypted)
    (hemb : embedBatch cfg x.2 chunks = some embeddings)
    (h : upsertChunks cfg rows x encrypted embeddings = some rows') :
    Applied cfg rows' x ∧ ∀ id, id ≠ x.1.remoteId → rowsOf rows' id = rowsOf rows id := by
  obtain ⟨added, rfl, hsrc, hrows⟩ := insertFrom_rows henc (embedBatch_length hemb) h
  constructor
  · refine ⟨chunks, hx, ?_⟩
    have hself : rowsOf added x.1.remoteId = added := by
      apply List.filter_eq_self.mpr
      intro r hr
      simp [hsrc r hr]
    unfold Mirrors
    rw [rowsOf_append, rowsOf_deleteChunks_self, hself]
    exact hrows
  · intro id hid
    have hnone : rowsOf added id = [] := by
      apply List.filter_eq_nil_iff.mpr
      intro r hr
      simp only [hsrc r hr, Option.some.injEq, decide_eq_true_eq]
      exact fun heq => hid heq.symm
    rw [rowsOf_append, hnone, List.append_nil, rowsOf_deleteChunks_of_ne rows hid]

theorem deleteChunks_applied {cfg : Config} (rows : List DocumentChunk) {x : Report}
    (hx : x.1.deleted = true) :
    Applied cfg (deleteChunks rows x.1.remoteId) x ∧
      ∀ id, id ≠ x.1.remoteId → rowsOf (deleteChunks rows x.1.remoteId) id = rowsOf rows id :=
  ⟨⟨[], by simp [expected, hx], rowsOf_deleteChunks_self _ _⟩,
    fun _ hid => rowsOf_deleteChunks_of_ne rows hid⟩

/-- **What an item can do.** -/
theorem processItem_cases (cfg : Config) (rows : List DocumentChunk) (x : Report) :
    (processItem cfg rows x).1 = rows ∨
    (Applied cfg (processItem cfg rows x).1 x ∧
      ∀ id, id ≠ x.1.remoteId → rowsOf (processItem cfg rows x).1 id = rowsOf rows id) := by
  obtain ⟨item, env⟩ := x
  unfold processItem
  by_cases hdel : item.deleted
  · simp only [hdel, if_true]
    cases env.delete with
    | done => exact .inr (deleteChunks_applied rows hdel)
    | lost => exact .inr (deleteChunks_applied rows hdel)
    | failed => exact .inl rfl
  · simp only [hdel, if_false, Bool.false_eq_true]
    cases hdown : env.download with
    | error e => exact .inl rfl
    | ok content =>
        have hx : expected cfg (item, env)
            = some (chunk (extractText cfg.unicode content item.name)) :=
          expected_of_download (by simpa using hdel) hdown
        simp only
        split_ifs
        · exact .inl rfl
        · exact .inl rfl
        · exact .inl rfl
        · -- an error of these steps comes before the transaction, which writes all or nothing
          cases henc : encryptFrom cfg env 0 (chunk (extractText cfg.unicode content item.name)) with
          | none => exact .inl rfl
          | some encrypted =>
              dsimp only
              cases hemb : embedBatch cfg env (chunk (extractText cfg.unicode content item.name)) with
              | none => exact .inl rfl
              | some embeddings =>
                  dsimp only
                  cases hup : upsertChunks cfg rows (item, env) encrypted embeddings with
                  | none => exact .inl rfl
                  | some rows' =>
                      dsimp only
                      have happ := upsertChunks_applied hx henc hemb hup
                      cases env.upsert with
                      | done => exact .inr happ
                      | lost => exact .inr happ
                      | failed => exact .inl rfl

/-- A blank version leaves the table as it is. -/
theorem processItem_blank {cfg : Config} {rows : List DocumentChunk} {x : Report}
    (hb : Blank cfg x) : (processItem cfg rows x).1 = rows := by
  obtain ⟨item, env⟩ := x
  have hdel : item.deleted = false := hb.1
  have hx := hb.2
  simp only [expected, hdel, Bool.false_eq_true, if_false] at hx
  unfold processItem
  simp only [hdel, Bool.false_eq_true, if_false]
  cases hdown : env.download with
  | error e => rfl
  | ok content =>
      simp only [hdown, Option.some.injEq] at hx
      simp only [hx]
      split_ifs <;> rfl

/-- When every call succeeds, any other report is applied. -/
theorem processItem_effective {cfg : Config} {rows : List DocumentChunk} {x : Report}
    (hs : Succeeds cfg rows x) (hb : ¬ Blank cfg x) :
    Applied cfg (processItem cfg rows x).1 x ∧
      ∀ id, id ≠ x.1.remoteId → rowsOf (processItem cfg rows x).1 id = rowsOf rows id := by
  obtain ⟨item, env⟩ := x
  unfold Succeeds at hs
  unfold processItem
  by_cases hdel : item.deleted
  · simp only [hdel, if_true] at hs ⊢
    simp only [hs]
    exact deleteChunks_applied rows hdel
  · simp only [hdel, if_false, Bool.false_eq_true] at hs ⊢
    obtain ⟨content, hdown, hchunker, hsteps⟩ := hs
    have hx : expected cfg (item, env)
        = some (chunk (extractText cfg.unicode content item.name)) :=
      expected_of_download (by simpa using hdel) hdown
    have hne : chunk (extractText cfg.unicode content item.name) ≠ [] := by
      intro h
      exact hb ⟨by simpa using hdel, by rw [hx, h]⟩
    have htext : extractText cfg.unicode content item.name ≠ "" := by
      intro h
      rw [h] at hne
      exact hne chunk_empty
    obtain ⟨encrypted, embeddings, rows', henc, hemb, hup, hdone⟩ := hsteps hne
    simp only [hdown, htext, hchunker htext, hne, henc, hemb, hup, hdone, if_false,
      Bool.false_eq_true]
    exact upsertChunks_applied hx henc hemb hup

end McpGateway.Ingestion
