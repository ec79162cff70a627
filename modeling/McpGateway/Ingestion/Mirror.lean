import McpGateway.Ingestion.Runs

/-! # Does the table mirror the source?

In a run without failures the rows of an item are those of the last report that had an effect
(`lastEffective_rows`). A blank version has none: the loop `continue`s before it reaches the table,
so the rows of the version before stay. `mirror_iff` says exactly when the table mirrors the last
report. -/

namespace McpGateway.Ingestion

open Foundation

/-! ## Runs without failures -/

/-- Every call made for every report returns `Ok`. -/
def AllSucceed (cfg : Config) : List DocumentChunk → List Report → Prop
  | _, [] => True
  | rows, x :: xs => Succeeds cfg rows x ∧ AllSucceed cfg (processItem cfg rows x).1 xs

/-- No step of the cycle fails. -/
def Clean (cfg : Config) (db : Db) (a : Cycle) : Prop :=
  a.loadFails = false ∧
    (∃ delta, a.listChanges (db.cursors cfg.connectorId) = .ok delta ∧
      (delta.nextCursor ≠ none → a.save = .done)) ∧
    AllSucceed cfg db.chunks (batchAt cfg db a)

theorem AllSucceed.append {cfg : Config} {rows : List DocumentChunk} {xs ys : List Report}
    (hxs : AllSucceed cfg rows xs) (hys : AllSucceed cfg (itemsTable cfg rows xs) ys) :
    AllSucceed cfg rows (xs ++ ys) := by
  induction xs generalizing rows with
  | nil => exact hys
  | cons x xs ih => exact ⟨hxs.1, ih hxs.2 hys⟩

theorem steps_allSucceed {cfg : Config} {db db' : Db} {as : List Cycle}
    (h : (daemon cfg).Steps (Clean cfg) db as db') :
    AllSucceed cfg db.chunks (reports cfg db as) := by
  induction h with
  | nil => trivial
  | cons hc hst _ ih =>
      cases daemon_step hst
      refine hc.2.2.append ?_
      rw [← (runCycle_db cfg _ _).1]
      exact ih

/-! ## The last report with an effect -/

instance (cfg : Config) (x : Report) : Decidable (Blank cfg x) :=
  inferInstanceAs (Decidable (_ ∧ _))

/-- The last report of an item. -/
def lastReport (id : String) (xs : List Report) : Option Report :=
  (xs.filter fun x => x.1.remoteId = id).getLast?

/-- The last report of an item that is not blank. -/
def lastEffective (cfg : Config) (id : String) (xs : List Report) : Option Report :=
  (xs.filter fun x => x.1.remoteId = id ∧ ¬ Blank cfg x).getLast?

theorem getLast?_filter_cons {α : Type*} (p : α → Bool) (x : α) (xs : List α) :
    ((x :: xs).filter p).getLast?
      = (xs.filter p).getLast?.or (if p x then some x else none) := by
  by_cases hp : p x
  · rw [List.filter_cons_of_pos hp, if_pos hp, List.getLast?_cons]
    cases (xs.filter p).getLast? <;> rfl
  · rw [List.filter_cons_of_neg hp, if_neg hp, Option.or_none]

/-- **The rows of an item** after reports that all succeed: those of the last report with an
effect, or the old ones. -/
theorem lastEffective_rows {cfg : Config} {rows : List DocumentChunk} {xs : List Report}
    (hs : AllSucceed cfg rows xs) (id : String) :
    match lastEffective cfg id xs with
    | some y => y.1.remoteId = id ∧ ¬ Blank cfg y ∧ Applied cfg (itemsTable cfg rows xs) y
    | none => rowsOf (itemsTable cfg rows xs) id = rowsOf rows id := by
  induction xs generalizing rows with
  | nil => rfl
  | cons x xs ih =>
      have hrest := ih hs.2
      unfold lastEffective at hrest ⊢
      rw [getLast?_filter_cons, itemsTable_cons]
      cases hl : (xs.filter fun x => x.1.remoteId = id ∧ ¬ Blank cfg x).getLast? with
      | some y =>
          rw [hl] at hrest
          exact hrest
      | none =>
          rw [hl] at hrest
          simp only [Option.none_or]
          by_cases hb : Blank cfg x
          · simp only [hb, not_true, and_false, decide_false, Bool.false_eq_true, if_false]
            rw [hrest, processItem_blank hb]
          · obtain ⟨happ, hother⟩ := processItem_effective hs.1 hb
            by_cases hid : x.1.remoteId = id
            · simp only [hid, hb, not_false_eq_true, and_self, decide_true, if_true]
              refine ⟨trivial, trivial, ?_⟩
              subst hid
              exact happ.of_rowsOf hrest
            · simp only [hid, false_and, decide_false, Bool.false_eq_true, if_false]
              rw [hrest, hother id (fun h => hid h.symm)]

/-- The last report, when it is not blank, is the last with an effect. -/
theorem lastReport_effective {cfg : Config} {id : String} {xs : List Report} {x : Report}
    (hx : lastReport id xs = some x) (hb : ¬ Blank cfg x) : lastEffective cfg id xs = some x := by
  obtain ⟨before, hsplit⟩ := List.getLast?_eq_some_iff.mp hx
  unfold lastEffective
  have hfilter : (xs.filter fun x => x.1.remoteId = id ∧ ¬ Blank cfg x)
      = (xs.filter fun x => x.1.remoteId = id).filter fun x => ¬ Blank cfg x := by
    rw [List.filter_filter]
    apply List.filter_congr
    intro y _
    simp [Bool.and_comm]
  rw [hfilter, hsplit, List.filter_append]
  simp [hb]

theorem lastReport_id {id : String} {xs : List Report} {x : Report}
    (hx : lastReport id xs = some x) : x.1.remoteId = id := by
  have := List.mem_of_getLast? hx
  simpa using (List.mem_filter.mp this).2

/-! ## Indices -/

theorem asI32_eq_iff (i : Nat) : asI32 i = (i : Int) ↔ i < 2147483648 := by
  unfold asI32 Int.bmod
  dsimp only
  split <;> omega

/-- The index a row stores is the chunk's own index as long as it fits an `i32`. -/
theorem rowsFrom_index {cfg : Config} {item : ChangeItem} {i : Nat} {chunks : List String}
    {rows : List DocumentChunk} (h : RowsFrom cfg item asI32 i chunks rows) :
    RowsFrom cfg item (fun j => (j : Int)) i chunks rows ↔
      ∀ j, i ≤ j → j < i + chunks.length → j < 2147483648 := by
  induction chunks generalizing i rows with
  | nil =>
      have hnil : rows = [] := h
      refine ⟨fun _ j hij hj => ?_, fun _ => hnil⟩
      simp only [List.length_nil] at hj
      omega
  | cons c cs ih =>
      obtain ⟨r, rest, rfl, hr, hrest⟩ := h
      constructor
      · rintro ⟨r', rest', heq, hr', hrest'⟩ j hij hj
        cases heq
        simp only [List.length_cons] at hj
        rcases Nat.eq_or_lt_of_le hij with rfl | hlt
        · exact (asI32_eq_iff i).mp (hr.chunkIndex.symm.trans hr'.chunkIndex)
        · exact (ih hrest).mp hrest' j hlt (by omega)
      · intro hall
        have hi : asI32 i = (i : Int) := by
          apply (asI32_eq_iff i).mpr
          apply hall i (Nat.le_refl i)
          simp
        rw [hi] at hr
        refine ⟨r, rest, rfl, hr, (ih hrest).mpr ?_⟩
        intro j hij hj
        apply hall j (by omega)
        simp only [List.length_cons]
        omega

theorem rowsFrom_nil_iff {cfg : Config} {item : ChangeItem} {index : Nat → Int} {i : Nat}
    {chunks : List String} {rows : List DocumentChunk} (h : RowsFrom cfg item index i chunks rows) :
    rows = [] ↔ chunks = [] := by
  cases chunks with
  | nil => exact ⟨fun _ => rfl, fun _ => h⟩
  | cons c cs =>
      obtain ⟨r, rest, rfl, -⟩ := h
      simp

/-! ## The table and the last report -/

/-- Nothing of the item was left in the table by the versions before: the last report with an
effect deleted it, or there was none and the item had no rows to begin with. -/
def NothingLeft (cfg : Config) (rows : List DocumentChunk) (id : String) (xs : List Report) : Prop :=
  match lastEffective cfg id xs with
  | some y => y.1.deleted = true
  | none => rowsOf rows id = []

theorem nothingLeft_iff {cfg : Config} {rows : List DocumentChunk} {xs : List Report}
    (hs : AllSucceed cfg rows xs) (id : String) :
    rowsOf (itemsTable cfg rows xs) id = [] ↔ NothingLeft cfg rows id xs := by
  have hrows := lastEffective_rows hs id
  unfold NothingLeft
  cases hl : lastEffective cfg id xs with
  | none =>
      rw [hl] at hrows
      dsimp only at hrows ⊢
      rw [hrows]
  | some y =>
      rw [hl] at hrows
      obtain ⟨rfl, hb, chunks, hy, hm⟩ := hrows
      rw [rowsFrom_nil_iff hm]
      by_cases hdel : y.1.deleted = true
      · simp only [expected, hdel, if_true, Option.some.injEq] at hy
        exact ⟨fun _ => hdel, fun _ => hy.symm⟩
      · refine ⟨?_, fun h => absurd h hdel⟩
        rintro rfl
        exact absurd ⟨by simpa using hdel, hy⟩ hb

/-- **When the table mirrors the source.** After a run of cycles in which no step fails, the rows of
an item are exactly the chunks of its last reported version, numbered from zero, if and only if a
blank last version found nothing left of the item, and the chunks can be numbered by an `i32`. -/
theorem mirror_iff (cfg : Config) {db db' : Db} {as : List Cycle}
    (hrun : (daemon cfg).Steps (Clean cfg) db as db') {id : String} {x : Report}
    (hx : lastReport id (reports cfg db as) = some x) :
    (∃ chunks, expected cfg x = some chunks ∧
      Mirrors cfg (fun i => (i : Int)) db'.chunks x.1 chunks) ↔
    (Blank cfg x → NothingLeft cfg db.chunks id (reports cfg db as)) ∧
      ∀ chunks, expected cfg x = some chunks → chunks.length ≤ 2147483648 := by
  have hs := steps_allSucceed hrun
  have hid := lastReport_id hx
  rw [steps_chunks hrun]
  by_cases hb : Blank cfg x
  · -- a blank version writes nothing: the rows are those that the reports before it have left
    rw [← nothingLeft_iff hs id, ← hid]
    constructor
    · rintro ⟨chunks, hchunks, hm⟩
      rw [hb.2] at hchunks
      cases hchunks
      refine ⟨fun _ => hm, ?_⟩
      intro chunks h
      rw [hb.2] at h
      cases h
      exact Nat.zero_le _
    · rintro ⟨hleft, -⟩
      exact ⟨[], hb.2, hleft hb⟩
  · have hrows := lastEffective_rows hs id
    rw [lastReport_effective hx hb] at hrows
    obtain ⟨-, -, chunks, hchunks, hm⟩ := hrows
    -- the rows are those of this report, and their index is an `i32`
    have hindex := rowsFrom_index hm
    constructor
    · rintro ⟨chunks', hchunks', hm'⟩
      rw [hchunks] at hchunks'
      cases hchunks'
      refine ⟨fun h => absurd h hb, ?_⟩
      intro chunks'' h
      rw [hchunks] at h
      cases h
      by_contra hlong
      have := hindex.mp hm' 2147483648 (Nat.zero_le _) (by omega)
      omega
    · rintro ⟨-, hlen⟩
      refine ⟨chunks, hchunks, hindex.mpr ?_⟩
      intro j _ hj
      have := hlen chunks hchunks
      omega

/-! ## One document, written and emptied -/

theorem sample_chunk : chunk "hello" = ["hello"] := chunk_short (by decide) (by decide)

theorem sample_expected : expected sampleConfig (sampleItem false, sampleEnv "hello")
    = some ["hello"] := by
  have htext : extractText sampleConfig.unicode (asBytes "hello") "a.txt" = "hello" := by decide
  rw [← sample_chunk, ← htext]
  rfl

theorem sample_expected_empty : expected sampleConfig (sampleItem false, sampleEnv "") = some [] := by
  decide

theorem sample_embedBatch :
    embedBatch sampleConfig (sampleEnv "hello") ["hello"] = some [sampleVector] := by
  simp [embedBatch, batches, embedFrom, embedOneBatch, sampleConfig, sampleEnv]

theorem sample_succeeds : Succeeds sampleConfig [] (sampleItem false, sampleEnv "hello") := by
  apply Succeeds.of_download rfl rfl rfl sample_expected
  intro _
  exact ⟨_, _, _, rfl, sample_embedBatch, rfl, rfl⟩

theorem sample_succeeds_empty (rows : List DocumentChunk) :
    Succeeds sampleConfig rows (sampleItem false, sampleEnv "") := by
  apply Succeeds.of_download rfl rfl rfl sample_expected_empty
  intro h
  exact absurd rfl h

/-- A document whose only version is `hello` is mirrored. -/
theorem hello_is_mirrored : ∃ db',
    (daemon sampleConfig).Steps (Clean sampleConfig) ⟨[], fun _ => none⟩
      [sampleCycle [sampleItem false] (fun _ => sampleEnv "hello") "1"] db' ∧
    Mirrors sampleConfig (fun i => (i : Int)) db'.chunks (sampleItem false) ["hello"] := by
  let a := sampleCycle [sampleItem false] (fun _ => sampleEnv "hello") "1"
  have hclean : Clean sampleConfig ⟨[], fun _ => none⟩ a :=
    ⟨rfl, ⟨_, rfl, fun _ => rfl⟩, sample_succeeds, trivial⟩
  have hrun := System.Steps.single (S := daemon sampleConfig) hclean rfl
  have hx : lastReport "item-1" (reports sampleConfig ⟨[], fun _ => none⟩ [a])
      = some (sampleItem false, sampleEnv "hello") := rfl
  obtain ⟨chunks, hchunks, hm⟩ := (mirror_iff sampleConfig hrun hx).mpr (by
    constructor
    · intro hb
      rw [Blank, sample_expected] at hb
      cases hb.2
    · intro chunks h
      rw [sample_expected] at h
      cases h
      decide)
  rw [sample_expected] at hchunks
  cases hchunks
  exact ⟨_, hrun, hm⟩

/-- The document is written once and then emptied: the rows of `hello` stay. -/
theorem emptied_document_stays : ¬ ∀ (cfg : Config) (db db' : Db) (as : List Cycle) (id : String)
    (x : Report), (daemon cfg).Steps (Clean cfg) db as db' →
      lastReport id (reports cfg db as) = some x →
      ∃ chunks, expected cfg x = some chunks ∧
        Mirrors cfg (fun i => (i : Int)) db'.chunks x.1 chunks := by
  intro hclaim
  let db₀ : Db := ⟨[], fun _ => none⟩
  let a := sampleCycle [sampleItem false] (fun _ => sampleEnv "hello") "1"
  let b := sampleCycle [sampleItem false] (fun _ => sampleEnv "") "2"
  have ha : Clean sampleConfig db₀ a := ⟨rfl, ⟨_, rfl, fun _ => rfl⟩, sample_succeeds, trivial⟩
  have hb : ∀ db, Clean sampleConfig db b := fun db =>
    ⟨rfl, ⟨_, rfl, fun _ => rfl⟩, sample_succeeds_empty db.chunks, trivial⟩
  have hrun : (daemon sampleConfig).Steps (Clean sampleConfig) db₀ [a, b]
      (runCycle sampleConfig (runCycle sampleConfig db₀ a).2 b).2 :=
    .cons ha rfl (.cons (hb _) rfl (.nil _))
  obtain ⟨chunks, hchunks, hm⟩ := hclaim sampleConfig db₀ _ [a, b] "item-1"
    (sampleItem false, sampleEnv "") hrun rfl
  rw [sample_expected_empty] at hchunks
  cases hchunks
  rw [steps_chunks hrun] at hm
  have hgone : rowsOf (itemsTable sampleConfig db₀.chunks (reports sampleConfig db₀ [a, b]))
      "item-1" = [] := hm
  rw [nothingLeft_iff (steps_allSucceed hrun)] at hgone
  have hreports : reports sampleConfig db₀ [a, b]
      = [(sampleItem false, sampleEnv "hello"), (sampleItem false, sampleEnv "")] := rfl
  have hlast : lastEffective sampleConfig "item-1" (reports sampleConfig db₀ [a, b])
      = some (sampleItem false, sampleEnv "hello") := by
    have hid : (sampleItem false).remoteId = "item-1" := rfl
    have hfirst : ¬ Blank sampleConfig (sampleItem false, sampleEnv "hello") := by
      intro h
      rw [Blank, sample_expected] at h
      cases h.2
    have hsecond : Blank sampleConfig (sampleItem false, sampleEnv "") :=
      ⟨rfl, sample_expected_empty⟩
    rw [hreports]
    simp [lastEffective, hid, hfirst, hsecond]
  simp only [NothingLeft, hlast] at hgone
  cases hgone

end McpGateway.Ingestion
