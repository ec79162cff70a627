import Mathlib.Algebra.Ring.Nat
import Mathlib.Data.List.Sort
import McpGateway.Ingestion.Mirror

/-! # Text, ciphertext and embedding of a chunk

A chunk's text goes two ways: encrypted in place, and in batches through the embedding service.
`upsert_chunks` zips the two lists and numbers the pairs.

* `embedBatch_vectors` — whatever the batch size and the order inside the replies, the `i`-th vector
  is the service's answer to the `i`-th text.
* `ingestChunks_rows` — the rows written are those of the texts, the `i`-th one numbered `i as i32`.
* `chunks_aligned` — so a row is found under its own number as long as an `i32` can hold it. -/

namespace McpGateway.Ingestion

/-! ## The embedding service -/

/-- The service answers every batch with one entry for each index, in any order. -/
def Answers (cfg : Config) (env : ItemEnv) (texts : List String) : Prop :=
  ∀ k batch, (batches cfg.batchSize texts)[k]? = some batch →
    ∃ data, env.tei k = some data ∧
      (data.map EmbedData.index).Perm (List.range batch.length)

/-- The service answers some batch with a wrong number of entries. -/
def WrongCount (cfg : Config) (env : ItemEnv) (texts : List String) : Prop :=
  ∃ k batch data, (batches cfg.batchSize texts)[k]? = some batch ∧ env.tei k = some data ∧
    data.length ≠ batch.length

/-- `v` is the service's vector for the `i`-th text of requests of `size` texts each: the entry for
its place in its own batch. -/
def IsVectorOf (size : Nat) (tei : Nat → Option (List EmbedData)) (i : Nat) (v : Vector32) : Prop :=
  ∃ data, tei (i / size) = some data ∧ ⟨i % size, v⟩ ∈ data

section Service

variable {tei : Nat → Option (List EmbedData)} {batchSize k : Nat}

/-- Sorted by index, the entry at place `j` is the one for index `j`. -/
theorem embedOneBatch_of_perm {data : List EmbedData} {texts : List String}
    (h : (data.map EmbedData.index).Perm (List.range texts.length)) :
    ∃ vs, embedOneBatch (some data) texts = some vs ∧ vs.length = texts.length ∧
      ∀ j v, vs[j]? = some v → ⟨j, v⟩ ∈ data := by
  have hlen : data.length = texts.length := by simpa using h.length_eq
  let sorted := data.mergeSort fun a b => a.index ≤ b.index
  have hperm : sorted.Perm data := List.mergeSort_perm ..
  have hsorted : sorted.Pairwise fun a b => a.index ≤ b.index := by
    have hmerge : sorted.Pairwise fun a b => decide (a.index ≤ b.index) = true :=
      List.pairwise_mergeSort (fun a b c => by simp only [decide_eq_true_eq]; omega)
        (fun a b => by simp only [Bool.or_eq_true, decide_eq_true_eq]; omega) data
    simpa only [decide_eq_true_eq] using hmerge
  have hindex : sorted.map EmbedData.index = List.range texts.length :=
    List.Perm.eq_of_pairwise (fun a b _ _ hab hba => Nat.le_antisymm hab hba)
      (List.pairwise_map.mpr hsorted) List.pairwise_le_range ((hperm.map _).trans h)
  refine ⟨sorted.map EmbedData.embedding, ?_, ?_, ?_⟩
  · simp [embedOneBatch, hlen, sorted]
  · rw [List.length_map, hperm.length_eq, hlen]
  · intro j v hv
    rw [List.getElem?_map, Option.map_eq_some_iff] at hv
    obtain ⟨d, hd, rfl⟩ := hv
    have hj : (sorted.map EmbedData.index)[j]? = some d.index := by
      rw [List.getElem?_map, hd]
      rfl
    rw [hindex] at hj
    obtain ⟨hlt, hj⟩ := List.getElem?_eq_some_iff.mp hj
    rw [List.getElem_range] at hj
    rw [hj]
    exact hperm.subset (List.mem_of_getElem? hd)

/-- The first batch has `max batchSize 1` texts unless it is the last one. -/
theorem batches_cons (t : String) (ts : List String) :
    batches batchSize (t :: ts) = (t :: ts).take (max batchSize 1) ::
      batches batchSize ((t :: ts).drop (max batchSize 1)) := by
  rw [batches]

/-- The vectors of the first batch. -/
theorem isVectorOf_first {size i : Nat} {data : List EmbedData} {v : Vector32} (hi : i < size)
    (hdata : tei k = some data) (hv : ⟨i, v⟩ ∈ data) :
    IsVectorOf size (fun j => tei (k + j)) i v := by
  refine ⟨data, ?_, ?_⟩
  · rw [Nat.div_eq_of_lt hi]
    exact hdata
  · rw [Nat.mod_eq_of_lt hi]
    exact hv

/-- Behind a full batch the texts and the requests are numbered on. -/
theorem isVectorOf_later {size i : Nat} {v : Vector32} (hpos : 0 < size) (hi : size ≤ i)
    (h : IsVectorOf size (fun j => tei (k + 1 + j)) (i - size) v) :
    IsVectorOf size (fun j => tei (k + j)) i v := by
  obtain ⟨data, hdata, hmem⟩ := h
  refine ⟨data, ?_, ?_⟩
  · have hnext : k + i / size = k + 1 + (i - size) / size := by
      rw [Nat.div_eq_sub_div hpos hi]
      omega
    show tei (k + i / size) = some data
    rw [hnext]
    exact hdata
  · rw [Nat.mod_eq_sub_mod hi]
    exact hmem

/-- **One vector for each text.** The requests are numbered from `k`. -/
theorem embedFrom_vectors {texts : List String}
    (h : ∀ j batch, (batches batchSize texts)[j]? = some batch → ∃ data, tei (k + j) = some data ∧
      (data.map EmbedData.index).Perm (List.range batch.length)) :
    ∃ vs, embedFrom tei k (batches batchSize texts) = some vs ∧ vs.length = texts.length ∧
      ∀ i v, vs[i]? = some v →
        IsVectorOf (max batchSize 1) (fun j => tei (k + j)) i v := by
  induction texts using batches.induct batchSize generalizing k with
  | case1 => exact ⟨[], by simp [batches, embedFrom], rfl, by simp⟩
  | case2 t ts ih =>
      rw [batches_cons] at h ⊢
      obtain ⟨data, hdata, hperm⟩ := h 0 _ rfl
      rw [Nat.add_zero] at hdata
      obtain ⟨first, hfirst, hlen, hvec⟩ := embedOneBatch_of_perm hperm
      obtain ⟨rest, hrest, hlenrest, hvecrest⟩ := ih (k := k + 1) (by
        intro j batch hj
        rw [Nat.add_right_comm]
        exact h (j + 1) batch hj)
      refine ⟨first ++ rest, ?_, ?_, ?_⟩
      · rw [embedFrom, hdata, hfirst, hrest]
        rfl
      · rw [List.length_append, hlen, hlenrest, List.length_take, List.length_drop]
        omega
      · intro i v hv
        rw [List.length_take] at hlen
        by_cases hi : i < first.length
        · rw [List.getElem?_append_left hi] at hv
          exact isVectorOf_first (by omega) hdata (hvec i v hv)
        · -- there is a text after the first batch, so the batch is full
          rw [List.getElem?_append_right (Nat.not_lt.mp hi)] at hv
          have hirest := (List.getElem?_eq_some_iff.mp hv).1
          rw [hlenrest, List.length_drop] at hirest
          have hfull : first.length = max batchSize 1 := by omega
          rw [hfull] at hi hv
          exact isVectorOf_later (by omega) (Nat.not_lt.mp hi) (hvecrest _ v hv)

/-- A batch answered with a wrong number of entries fails the whole call. -/
theorem embedFrom_wrongCount {bs : List (List String)} {j : Nat} {batch : List String}
    {data : List EmbedData} (hbatch : bs[j]? = some batch) (hdata : tei (k + j) = some data)
    (hwrong : data.length ≠ batch.length) : embedFrom tei k bs = none := by
  induction bs generalizing j k with
  | nil => cases hbatch
  | cons b bs ih =>
      rw [embedFrom]
      cases j with
      | zero =>
          cases hbatch
          rw [Nat.add_zero] at hdata
          simp [embedOneBatch, hdata, hwrong]
      | succ j =>
          have hrest : embedFrom tei (k + 1) bs = none := by
            apply ih hbatch
            rw [← hdata]
            congr 1
            omega
          simp [hrest]

end Service

/-- **One vector for each text**, the `i`-th one the service's answer to the `i`-th text. -/
theorem embedBatch_vectors {cfg : Config} {env : ItemEnv} {texts : List String}
    (h : Answers cfg env texts) :
    ∃ vs, embedBatch cfg env texts = some vs ∧ vs.length = texts.length ∧
      ∀ i v, vs[i]? = some v → IsVectorOf (max cfg.batchSize 1) env.tei i v := by
  have hfrom : ∀ j batch, (batches cfg.batchSize texts)[j]? = some batch →
      ∃ data, env.tei (0 + j) = some data ∧
        (data.map EmbedData.index).Perm (List.range batch.length) := by
    intro j batch hj
    rw [Nat.zero_add]
    exact h j batch hj
  obtain ⟨vs, hvs, hlen, hvec⟩ := embedFrom_vectors hfrom
  simp only [Nat.zero_add] at hvec
  exact ⟨vs, hvs, hlen, hvec⟩

/-! ## The rows -/

/-- The body of the loop of `run_cycle` from the encryption of the chunks on. -/
def ingestChunks (cfg : Config) (rows : List DocumentChunk) (x : Report) (texts : List String) :
    List DocumentChunk × ItemOutcome :=
  match encryptFrom cfg x.2 0 texts with
  | none => (rows, .encryptionFailed)
  | some encrypted =>
      match embedBatch cfg x.2 texts with
      | none => (rows, .embeddingFailed)
      | some embeddings =>
          match upsertChunks cfg rows x encrypted embeddings with
          | none => (rows, .upsertFailed)
          | some rows' =>
              match x.2.upsert with
              | .done => (rows', .processed)
              | .lost => (rows', .upsertFailed)
              | .failed => (rows, .upsertFailed)

/-- An item whose text has chunks is ingested chunk by chunk. -/
theorem processItem_eq_ingestChunks {cfg : Config} {rows : List DocumentChunk} {x : Report}
    {content : Bytes} {texts : List String} (hdel : x.1.deleted = false)
    (hdown : x.2.download = .ok content) (hchunker : x.2.chunkerFails = false)
    (htexts : chunk (extractText cfg.unicode content x.1.name) = texts) (hne : texts ≠ []) :
    processItem cfg rows x = ingestChunks cfg rows x texts := by
  have htext : extractText cfg.unicode content x.1.name ≠ "" := by
    intro h
    rw [h, chunk_empty] at htexts
    exact hne htexts.symm
  obtain ⟨item, env⟩ := x
  dsimp only at hdel hdown hchunker htexts htext
  unfold processItem
  simp only [hdel, hdown, hchunker, htext, htexts, hne, Bool.false_eq_true, if_false]
  rfl

/-- The row holds the encryption of the `i`-th text and the service's vector for it. -/
structure HoldsText (cfg : Config) (x : Report) (i : Nat) (text : String) (r : DocumentChunk) :
    Prop where
  docName : r.docName = x.1.name
  encrypted : ∃ e, encrypt cfg (x.2.iv i) (asBytes text) = some e ∧ r.encryptedContent = some e
  embedding : ∃ v, IsVectorOf (max cfg.batchSize 1) x.2.tei i v ∧ r.embedding = some v

/-- The item has as many rows as texts, and the row numbered `i` is one, with the `i`-th text. -/
def Aligned (cfg : Config) (x : Report) (texts : List String) (rows : List DocumentChunk) : Prop :=
  (rowsOf rows x.1.remoteId).length = texts.length ∧
    ∀ (i : Nat) (text : String), texts[i]? = some text →
      ∃ r, (rowsOf rows x.1.remoteId).filter (fun r => r.chunkIndex = (i : Int)) = [r] ∧
        HoldsText cfg x i text r

section Rows

variable {cfg : Config} {x : Report}

/-- The ciphertexts are those of the texts, in order. -/
theorem encryptFrom_getElem {env : ItemEnv} {i : Nat} {texts : List String}
    {encrypted : List Bytes} (h : encryptFrom cfg env i texts = some encrypted) :
    encrypted.length = texts.length ∧
      ∀ (j : Nat) (e : Bytes), encrypted[j]? = some e →
        ∃ text, texts[j]? = some text ∧ encrypt cfg (env.iv (i + j)) (asBytes text) = some e := by
  induction texts generalizing i encrypted with
  | nil =>
      cases h
      exact ⟨rfl, by simp⟩
  | cons t ts ih =>
      obtain ⟨e, he, h⟩ := Option.bind_eq_some_iff.mp h
      obtain ⟨es, hes, h⟩ := Option.bind_eq_some_iff.mp h
      cases h
      obtain ⟨hlen, hget⟩ := ih hes
      refine ⟨by simp [hlen], ?_⟩
      intro j e' hj
      cases j with
      | zero =>
          cases hj
          exact ⟨t, rfl, he⟩
      | succ j =>
          obtain ⟨text, htext, henc⟩ := hget j e' hj
          refine ⟨text, htext, ?_⟩
          rw [← henc]
          congr 2
          omega

/-- The rows the `INSERT`s add, the first one as the `i`-th. -/
def newRows (cfg : Config) (x : Report) (i : Nat) (pairs : List (Bytes × Vector32)) :
    List DocumentChunk :=
  pairs.mapIdx fun j p => newRow cfg x (i + j) p.1 p.2

theorem newRows_cons (i : Nat) (p : Bytes × Vector32) (pairs : List (Bytes × Vector32)) :
    newRows cfg x i (p :: pairs) = newRow cfg x i p.1 p.2 :: newRows cfg x (i + 1) pairs := by
  simp only [newRows, List.mapIdx_cons, Nat.add_zero, Nat.add_comm, Nat.add_left_comm]

theorem insertFrom_eq {i : Nat} {pairs : List (Bytes × Vector32)} {rows rows' : List DocumentChunk}
    (h : insertFrom cfg x i pairs rows = some rows') : rows' = rows ++ newRows cfg x i pairs := by
  induction pairs generalizing i rows with
  | nil =>
      simp only [insertFrom, Option.some.injEq] at h
      rw [← h]
      exact (List.append_nil rows).symm
  | cons p pairs ih =>
      simp only [insertFrom] at h
      split at h
      · cases h
      · rw [ih h, newRows_cons, List.append_assoc]
        rfl

/-- The new rows are the item's only rows. -/
theorem rowsOf_upsertChunks {rows rows' : List DocumentChunk} {encrypted : List Bytes}
    {embeddings : List Vector32} (h : upsertChunks cfg rows x encrypted embeddings = some rows') :
    rowsOf rows' x.1.remoteId = newRows cfg x 0 (encrypted.zip embeddings) := by
  have hnew : rowsOf (newRows cfg x 0 (encrypted.zip embeddings)) x.1.remoteId =
      newRows cfg x 0 (encrypted.zip embeddings) := by
    apply List.filter_eq_self.mpr
    intro r hr
    obtain ⟨j, hj, rfl⟩ := List.mem_mapIdx.mp hr
    simp [newRow]
  rw [insertFrom_eq h, rowsOf_append, rowsOf_deleteChunks_self, hnew, List.nil_append]

theorem ingestChunks_processed {rows rows' : List DocumentChunk} {texts : List String}
    (h : ingestChunks cfg rows x texts = (rows', .processed)) :
    ∃ encrypted embeddings, encryptFrom cfg x.2 0 texts = some encrypted ∧
      embedBatch cfg x.2 texts = some embeddings ∧
      upsertChunks cfg rows x encrypted embeddings = some rows' := by
  unfold ingestChunks at h
  split at h
  · cases h
  · rename_i encrypted henc
    split at h
    · cases h
    · rename_i embeddings hemb
      split at h
      · cases h
      · rename_i rows'' hups
        refine ⟨encrypted, embeddings, henc, hemb, ?_⟩
        split at h
        · cases h
          exact hups
        · cases h
        · cases h

/-- **The rows of the item**: one for each text, the `i`-th one numbered `i as i32`. -/
theorem ingestChunks_rows {rows rows' : List DocumentChunk} {texts : List String}
    (hans : Answers cfg x.2 texts) (h : ingestChunks cfg rows x texts = (rows', .processed)) :
    (rowsOf rows' x.1.remoteId).length = texts.length ∧
      ∀ i r, (rowsOf rows' x.1.remoteId)[i]? = some r →
        r.chunkIndex = asI32 i ∧ ∃ text, texts[i]? = some text ∧ HoldsText cfg x i text r := by
  obtain ⟨encrypted, embeddings, henc, hemb, hups⟩ := ingestChunks_processed h
  obtain ⟨hlen, hget⟩ := encryptFrom_getElem henc
  obtain ⟨vs, hvs, hlenvs, hvec⟩ := embedBatch_vectors hans
  rw [hemb] at hvs
  cases hvs
  rw [rowsOf_upsertChunks hups]
  refine ⟨?_, ?_⟩
  · rw [newRows, List.length_mapIdx, List.length_zip, hlen, hlenvs, Nat.min_self]
  · intro i r hr
    rw [newRows, List.getElem?_mapIdx, Option.map_eq_some_iff] at hr
    obtain ⟨⟨e, v⟩, hp, rfl⟩ := hr
    obtain ⟨he, hv⟩ := List.getElem?_zip_eq_some.mp hp
    obtain ⟨text, htext, hsealed⟩ := hget i e he
    rw [Nat.zero_add] at hsealed
    dsimp only
    rw [Nat.zero_add]
    exact ⟨by simp only [newRow], text, htext, ⟨rfl, ⟨e, hsealed, rfl⟩, ⟨v, hvec i v hv, rfl⟩⟩⟩

end Rows

/-! ## Rows by their number -/

/-- In a list numbered from `s` on, the entry with number `s + i` is the `i`-th. -/
theorem filter_numbered {α : Type*} {number : α → Int} {xs : List α} {s i : Nat} {a : α}
    (hnum : ∀ j b, xs[j]? = some b → number b = ((s + j : Nat) : Int)) (ha : xs[i]? = some a) :
    xs.filter (fun b => number b = ((s + i : Nat) : Int)) = [a] := by
  induction xs generalizing s i with
  | nil => cases ha
  | cons b bs ih =>
      have hb : number b = (s : Int) := hnum 0 b rfl
      have hrest : ∀ j c, bs[j]? = some c → number c = ((s + 1 + j : Nat) : Int) := by
        intro j c hc
        rw [hnum (j + 1) c hc]
        congr 1
        omega
      cases i with
      | zero =>
          cases ha
          have hlater : ∀ c ∈ bs, ¬ number c = ((s + 0 : Nat) : Int) := by
            intro c hc
            obtain ⟨j, hj⟩ := List.mem_iff_getElem?.mp hc
            rw [hrest j c hj]
            omega
          rw [List.filter_cons_of_pos (by simpa using hb), List.filter_eq_nil_iff.mpr]
          simpa using hlater
      | succ i =>
          have hne : ¬ number b = ((s + (i + 1) : Nat) : Int) := by
            rw [hb]
            omega
          rw [List.filter_cons_of_neg (by simpa using hne), ← ih hrest ha]
          congr 1
          funext c
          congr 2
          omega

theorem asI32_lt (i : Nat) : asI32 i < 2147483648 := by
  unfold asI32 Int.bmod
  dsimp only
  split <;> omega

/-- **Aligned exactly as long as an `i32` can number the rows.** -/
theorem aligned_of_rows {cfg : Config} {x : Report} {texts : List String}
    {rows : List DocumentChunk} (hlen : (rowsOf rows x.1.remoteId).length = texts.length)
    (hrow : ∀ i r, (rowsOf rows x.1.remoteId)[i]? = some r →
      r.chunkIndex = asI32 i ∧ ∃ text, texts[i]? = some text ∧ HoldsText cfg x i text r) :
    Aligned cfg x texts rows ↔ texts.length ≤ 2147483648 := by
  constructor
  · rintro ⟨-, hall⟩
    -- no `i32` is `2^31`, so no row is numbered so
    by_contra hlong
    obtain ⟨i, hi⟩ : ∃ i : Nat, i = 2147483648 := ⟨_, rfl⟩
    obtain ⟨r, hr, -⟩ := hall i _ (List.getElem?_eq_getElem (by omega))
    have hmem : r ∈ [r] := List.mem_singleton_self r
    rw [← hr] at hmem
    obtain ⟨hmem, hnum⟩ := List.mem_filter.mp hmem
    obtain ⟨j, hj⟩ := List.mem_iff_getElem?.mp hmem
    have hidx := (hrow j r hj).1
    have hlt := asI32_lt j
    rw [decide_eq_true_eq] at hnum
    omega
  · intro hshort
    refine ⟨hlen, ?_⟩
    intro i text htext
    obtain ⟨hi, -⟩ := List.getElem?_eq_some_iff.mp htext
    obtain ⟨r, hr⟩ : ∃ r, (rowsOf rows x.1.remoteId)[i]? = some r :=
      ⟨_, List.getElem?_eq_getElem (by omega)⟩
    have hnum : ∀ j b, (rowsOf rows x.1.remoteId)[j]? = some b →
        b.chunkIndex = ((0 + j : Nat) : Int) := by
      intro j b hb
      obtain ⟨hj, -⟩ := List.getElem?_eq_some_iff.mp hb
      rw [(hrow j b hb).1, Nat.zero_add]
      exact (asI32_eq_iff j).mpr (by omega)
    obtain ⟨-, text', htext', hholds⟩ := hrow i r hr
    rw [htext] at htext'
    cases htext'
    have hfilter := filter_numbered hnum hr
    rw [Nat.zero_add] at hfilter
    exact ⟨r, hfilter, hholds⟩

/-! ## Runs that succeed -/

section Succeed

variable {cfg : Config} {x : Report}

/-- Fresh ids violate no primary key. -/
theorem insertFrom_of_fresh {i : Nat} {pairs : List (Bytes × Vector32)} {rows : List DocumentChunk}
    (hnew : ∀ j k, i ≤ j → j < k → k < i + pairs.length → x.2.newId j ≠ x.2.newId k)
    (hold : ∀ r ∈ rows, ∀ j, i ≤ j → j < i + pairs.length → r.id ≠ x.2.newId j) :
    ∃ rows', insertFrom cfg x i pairs rows = some rows' := by
  induction pairs generalizing i rows with
  | nil => exact ⟨rows, rfl⟩
  | cons p pairs ih =>
      rw [List.length_cons] at hnew hold
      have hfree : ¬ (rows.any fun r => r.id = x.2.newId i) = true := by
        simp only [List.any_eq_true, decide_eq_true_eq, not_exists, not_and]
        intro r hr
        exact hold r hr i le_rfl (by omega)
      simp only [insertFrom, if_neg hfree]
      apply ih
      · intro j k hij hjk hk
        exact hnew j k (by omega) hjk (by omega)
      · intro r hr j hij hj
        rcases List.mem_append.mp hr with hr | hr
        · exact hold r hr j (by omega) (by omega)
        · rw [List.mem_singleton.mp hr]
          exact hnew i j le_rfl hij (by omega)

/-- With the texts encrypted, the replies well-formed and the ids fresh, the texts are ingested. -/
theorem ingestChunks_succeeds {texts : List String} {encrypted : List Bytes}
    (henc : encryptFrom cfg x.2 0 texts = some encrypted) (hans : Answers cfg x.2 texts)
    (hnew : ∀ k < texts.length, ∀ j < k, x.2.newId j ≠ x.2.newId k)
    (hups : x.2.upsert = .done) :
    ∃ rows', ingestChunks cfg [] x texts = (rows', .processed) := by
  obtain ⟨vs, hvs, hlen, -⟩ := embedBatch_vectors hans
  have hpairs : (encrypted.zip vs).length = texts.length := by
    rw [List.length_zip, (encryptFrom_getElem henc).1, hlen, Nat.min_self]
  obtain ⟨rows', hrows⟩ : ∃ rows', upsertChunks cfg [] x encrypted vs = some rows' := by
    apply insertFrom_of_fresh
    · intro j k _ hjk hk
      exact hnew k (by omega) j hjk
    · intro r hr
      cases hr
  refine ⟨rows', ?_⟩
  unfold ingestChunks
  simp only [henc, hvs, hrows, hups]

end Succeed

/-- A batch answered with a wrong number of entries leaves the table as it was. -/
theorem ingestChunks_wrongCount {cfg : Config} {x : Report} {texts : List String}
    (h : WrongCount cfg x.2 texts) (rows : List DocumentChunk) :
    (ingestChunks cfg rows x texts).1 = rows := by
  obtain ⟨k, batch, data, hbatch, hdata, hwrong⟩ := h
  have hnone : embedBatch cfg x.2 texts = none := by
    apply embedFrom_wrongCount hbatch ?_ hwrong
    rwa [Nat.zero_add]
  unfold ingestChunks
  rw [hnone]
  cases encryptFrom cfg x.2 0 texts with
  | none => rfl
  | some encrypted => rfl

/-- **Text, ciphertext and embedding stay aligned**, as long as the texts can be numbered by an
`i32`. The list of texts, the batch size and the order inside the replies are arbitrary; `run_cycle`
ingests the chunks of an item this way. -/
theorem chunks_aligned (cfg : Config) (rows : List DocumentChunk) (x : Report)
    (texts : List String) :
    (Answers cfg x.2 texts →
      (∃ vs, embedBatch cfg x.2 texts = some vs ∧ vs.length = texts.length ∧
        ∀ i v, vs[i]? = some v → IsVectorOf (max cfg.batchSize 1) x.2.tei i v) ∧
      ∀ rows', ingestChunks cfg rows x texts = (rows', .processed) →
        (Aligned cfg x texts rows' ↔ texts.length ≤ 2147483648)) ∧
    (WrongCount cfg x.2 texts → (ingestChunks cfg rows x texts).1 = rows) ∧
    (∀ content, x.1.deleted = false → x.2.download = .ok content → x.2.chunkerFails = false →
      chunk (extractText cfg.unicode content x.1.name) = texts → texts ≠ [] →
      processItem cfg rows x = ingestChunks cfg rows x texts) := by
  refine ⟨?_, ?_, ?_⟩
  · intro hans
    refine ⟨embedBatch_vectors hans, ?_⟩
    intro rows' h
    obtain ⟨hlen, hrow⟩ := ingestChunks_rows hans h
    exact aligned_of_rows hlen hrow
  · intro h
    exact ingestChunks_wrongCount h rows
  · intro content hdel hdown hchunker htexts hne
    exact processItem_eq_ingestChunks hdel hdown hchunker htexts hne

/-! ## Three texts, and too many -/

/-- AES-256-GCM under the key `02 … 02`, on the three texts under the IVs `05 … 05` to `07 … 07`. -/
def threeConfig : Config :=
  { sampleConfig with
    aesGcm := fun _ iv plaintext =>
      if iv = List.replicate 12 5 ∧ plaintext = asBytes "alpha" then
        some (bytesBE 21 0x493c1e65c1815c5c3d1fbb58e6b02b9d7d078b8d57)
      else if iv = List.replicate 12 6 ∧ plaintext = asBytes "beta" then
        some (bytesBE 20 0xac95b079b5effe598971ec85b7fd548a47f60047)
      else if iv = List.replicate 12 7 ∧ plaintext = asBytes "gamma" then
        some (bytesBE 21 0xe632b07d049a6810ad642cf4b7f9b1df949970658c)
      else none
    batchSize := 2 }

/-- The first batch is answered out of order. -/
def threeEnv : ItemEnv :=
  { sampleEnv "" with
    iv := fun i => some (List.replicate 12 (UInt8.ofNat (5 + i)))
    tei := fun k =>
      if k = 0 then
        some [⟨1, List.replicate 768 0x40000000⟩, ⟨0, List.replicate 768 0x3F800000⟩]
      else some [⟨0, List.replicate 768 0x40400000⟩] }

theorem three_batches : batches threeConfig.batchSize ["alpha", "beta", "gamma"] =
    [["alpha", "beta"], ["gamma"]] := by
  simp [threeConfig, batches]

theorem three_answers : Answers threeConfig threeEnv ["alpha", "beta", "gamma"] := by
  intro k batch hk
  rw [three_batches] at hk
  rcases k with _ | _ | k
  · cases hk
    exact ⟨_, rfl, by decide⟩
  · cases hk
    exact ⟨_, rfl, by decide⟩
  · cases hk

/-- The first batch is answered with one entry too few. -/
def shortEnv : ItemEnv :=
  { threeEnv with tei := fun _ => some [⟨0, sampleVector⟩] }

theorem three_wrongCount : WrongCount threeConfig shortEnv ["alpha", "beta", "gamma"] :=
  ⟨0, ["alpha", "beta"], [⟨0, sampleVector⟩], by rw [three_batches]; rfl, rfl, by decide⟩

/-- Three texts in batches of two: the first reply out of order, then too short; and the one chunk
of a document. -/
theorem three_texts_aligned :
    (∃ rows,
      ingestChunks threeConfig [] (sampleItem false, threeEnv) ["alpha", "beta", "gamma"] =
        (rows, .processed) ∧
      Aligned threeConfig (sampleItem false, threeEnv) ["alpha", "beta", "gamma"] rows) ∧
    (ingestChunks threeConfig [] (sampleItem false, shortEnv) ["alpha", "beta", "gamma"]).1 = [] ∧
    processItem sampleConfig [] (sampleItem false, sampleEnv "hello") =
      ingestChunks sampleConfig [] (sampleItem false, sampleEnv "hello") ["hello"] := by
  refine ⟨?_, ?_, ?_⟩
  · obtain ⟨rows, hrows⟩ : ∃ rows, ingestChunks threeConfig [] (sampleItem false, threeEnv)
        ["alpha", "beta", "gamma"] = (rows, .processed) :=
      ingestChunks_succeeds rfl three_answers (by decide) rfl
    have haligned := (chunks_aligned threeConfig [] (sampleItem false, threeEnv)
      ["alpha", "beta", "gamma"]).1 three_answers
    exact ⟨rows, hrows, (haligned.2 rows hrows).mpr (by decide)⟩
  · exact (chunks_aligned threeConfig [] (sampleItem false, shortEnv)
      ["alpha", "beta", "gamma"]).2.1 three_wrongCount
  · have htext : extractText sampleConfig.unicode (asBytes "hello") "a.txt" = "hello" := by decide
    apply (chunks_aligned sampleConfig [] (sampleItem false, sampleEnv "hello") ["hello"]).2.2
      (asBytes "hello") rfl rfl rfl
    · rw [← sample_chunk, ← htext]
      rfl
    · decide

/-- Version 4 UUIDs that begin with the digits of a number, the lowest first. -/
def numberedId (n : Nat) : Uuid :=
  ⟨(List.range 8).map (fun j => Uuid.lastDigit (n / 16 ^ j)) ++
    ([0, 0, 0, 0, 4, 0, 0, 0, 8] ++ List.replicate 15 0).map Uuid.lastDigit, by simp⟩

theorem numberedId_injective {m n : Nat} (hm : m < 4294967296) (hn : n < 4294967296)
    (h : numberedId m = numberedId n) : m = n := by
  have hdigits := congrArg Uuid.digits h
  simp only [numberedId, List.append_cancel_right_eq] at hdigits
  have hdigit : ∀ j < 8, m / 16 ^ j % 16 = n / 16 ^ j % 16 := by
    intro j hj
    exact Fin.val_eq_of_eq (List.map_inj_left.mp hdigits j (List.mem_range.mpr hj))
  have h0 := hdigit 0 (by decide)
  have h1 := hdigit 1 (by decide)
  have h2 := hdigit 2 (by decide)
  have h3 := hdigit 3 (by decide)
  have h4 := hdigit 4 (by decide)
  have h5 := hdigit 5 (by decide)
  have h6 := hdigit 6 (by decide)
  have h7 := hdigit 7 (by decide)
  norm_num at h0 h1 h2 h3 h4 h5 h6 h7
  omega

/-- `n` copies of one text, answered batch by batch. -/
def copiesEnv (n : Nat) : ItemEnv :=
  { sampleEnv "" with
    tei := fun k => (batches sampleConfig.batchSize (List.replicate n "hello"))[k]?.map fun batch =>
      (List.range batch.length).map fun j => ⟨j, sampleVector⟩
    newId := numberedId }

theorem copies_answers (n : Nat) :
    Answers sampleConfig (copiesEnv n) (List.replicate n "hello") := by
  intro k batch hk
  refine ⟨(List.range batch.length).map fun j => ⟨j, sampleVector⟩, ?_, ?_⟩
  · simp [copiesEnv, hk]
  · simp [Function.comp_def]

theorem copies_encrypted (n m i : Nat) :
    ∃ encrypted, encryptFrom sampleConfig (copiesEnv m) i (List.replicate n "hello") =
      some encrypted := by
  induction n generalizing i with
  | zero => exact ⟨[], rfl⟩
  | succ n ih =>
      obtain ⟨es, hes⟩ := ih (i + 1)
      obtain ⟨e, he⟩ : ∃ e, encrypt sampleConfig ((copiesEnv m).iv i) (asBytes "hello") = some e :=
        ⟨_, rfl⟩
      exact ⟨e :: es, by rw [List.replicate_succ, encryptFrom, he, hes]; rfl⟩

theorem copies_processed {n : Nat} (hn : n ≤ 4294967296) : ∃ rows,
    ingestChunks sampleConfig [] (sampleItem false, copiesEnv n) (List.replicate n "hello") =
      (rows, .processed) := by
  obtain ⟨encrypted, henc⟩ := copies_encrypted n n 0
  apply ingestChunks_succeeds henc (copies_answers n) ?_ rfl
  intro k hk j hjk heq
  rw [List.length_replicate] at hk
  have := numberedId_injective (by omega) (by omega) heq
  omega

/-- `2^31 + 1` texts: the last one's row is numbered `-2^31`. -/
theorem last_chunk_misnumbered : ¬ ∀ (cfg : Config) (rows rows' : List DocumentChunk) (x : Report)
    (texts : List String), Answers cfg x.2 texts →
      ingestChunks cfg rows x texts = (rows', .processed) → Aligned cfg x texts rows' := by
  intro hclaim
  obtain ⟨n, hn⟩ : ∃ n, n = 2147483649 := ⟨_, rfl⟩
  obtain ⟨rows, hrows⟩ := copies_processed (n := n) (by omega)
  have haligned := hclaim _ _ _ _ _ (copies_answers n) hrows
  obtain ⟨hlen, hrow⟩ := ingestChunks_rows (copies_answers n) hrows
  rw [aligned_of_rows hlen hrow, List.length_replicate] at haligned
  omega

end McpGateway.Ingestion
