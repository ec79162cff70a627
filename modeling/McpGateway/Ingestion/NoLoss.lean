import McpGateway.Ingestion.Runs

/-! # Is a change ever lost?

`run_cycle` stores the next cursor once, after the whole batch, whatever happened to the items in
it; `state.rs` says it is stored *after a successful poll cycle*. `noLoss` gives the runs in which
the cursor and the table stay in step: those whose cursors never move past an item that is not
`Settled`. -/

namespace McpGateway.Ingestion

open Foundation

/-- A connector's change feed as a line: where a cursor stands on it, and where the `i`-th change
of a cycle stands. -/
structure Feed where
  pos : Option String → Nat
  place : Cycle → Nat → Nat

/-- The connector reports a change only to calls whose cursor precedes it. -/
def Honest (cfg : Config) (feed : Feed) (db : Db) (a : Cycle) : Prop :=
  ∀ i, i < (batchAt cfg db a).length → feed.pos (db.cursors cfg.connectorId) ≤ feed.place a i

/-- Nothing failed for the item, and if its version is blank then the table had no row of it, or a
later item of the batch (`later`) brings the next version. -/
def Settled (cfg : Config) (rows : List DocumentChunk) (x : Report) (later : List Report) : Prop :=
  Succeeds cfg rows x ∧
    (Blank cfg x → rowsOf rows x.1.remoteId = [] ∨ ∃ mid y rest, later = mid ++ y :: rest ∧
      y.1.remoteId = x.1.remoteId ∧ Succeeds cfg (itemsTable cfg rows (x :: mid)) y ∧ ¬ Blank cfg y)

/-- The stored cursor moves past settled items only. -/
def Safe (cfg : Config) (feed : Feed) (db : Db) (a : Cycle) : Prop :=
  ∀ token, storedToken cfg db a = some token →
    ∀ before x later, batchAt cfg db a = before ++ x :: later →
      feed.place a before.length < feed.pos (some token) →
      Settled cfg (itemsTable cfg db.chunks before) x later

/-- What one cycle owes: a change the stored cursor moves past is applied (or a later report of the
same item is), and a change that failed is still ahead of the persisted cursor. -/
structure NothingLost (cfg : Config) (feed : Feed) (db : Db) (a : Cycle) : Prop where
  applied : ∀ token, storedToken cfg db a = some token →
    ∀ before x later, batchAt cfg db a = before ++ x :: later →
      feed.place a before.length < feed.pos (some token) →
      ∃ y ∈ x :: later, y.1.remoteId = x.1.remoteId ∧ Applied cfg (runCycle cfg db a).2.chunks y
  ahead : ∀ before x later, batchAt cfg db a = before ++ x :: later →
    ¬ Succeeds cfg (itemsTable cfg db.chunks before) x →
    feed.pos ((runCycle cfg db a).2.cursors cfg.connectorId) ≤ feed.place a before.length

/-- A settled item is applied when the batch is done, or a later report of it is. -/
theorem Settled.applied {cfg : Config} {rows : List DocumentChunk} {x : Report}
    {later : List Report} (h : Settled cfg rows x later) :
    ∃ y ∈ x :: later, y.1.remoteId = x.1.remoteId ∧
      Applied cfg (itemsTable cfg rows (x :: later)) y := by
  obtain ⟨hs, hblank⟩ := h
  by_cases hb : Blank cfg x
  · rcases hblank hb with hnone | ⟨mid, y, rest, rfl, hid, hys, hyb⟩
    · have happ : Applied cfg (processItem cfg rows x).1 x := by
        rw [processItem_blank hb]
        exact ⟨[], hb.2, hnone⟩
      exact applied_lasts happ later
    · obtain ⟨happ, -⟩ := processItem_effective hys hyb
      obtain ⟨z, hz, hzid, hzapp⟩ := applied_lasts happ rest
      refine ⟨z, ?_, hzid.trans hid, ?_⟩
      · exact List.mem_cons_of_mem _ (List.mem_append_right _ hz)
      · rw [← List.cons_append, itemsTable_append, itemsTable_cons]
        exact hzapp
  · exact applied_lasts (processItem_effective hs hb).1 later

/-- **One cycle.** -/
theorem Safe.nothingLost {cfg : Config} {feed : Feed} {db : Db} {a : Cycle}
    (hhonest : Honest cfg feed db a) (hsafe : Safe cfg feed db a) :
    NothingLost cfg feed db a := by
  obtain ⟨hchunks, hcursor⟩ := runCycle_db cfg db a
  constructor
  · intro token htoken before x later hbatch hpast
    have hset := hsafe token htoken before x later hbatch hpast
    rw [hchunks, hbatch, itemsTable_append]
    exact hset.applied
  · intro before x later hbatch hfail
    rw [hcursor]
    cases htoken : storedToken cfg db a with
    | none =>
        apply hhonest
        rw [hbatch]
        simp
    | some token =>
        -- had the stored cursor moved past the item, it would have succeeded
        by_contra hpast
        have hlt : feed.place a before.length < feed.pos (some token) := by
          simpa using hpast
        exact hfail (hsafe token htoken before x later hbatch hlt).1

/-- **No change is lost** in a run whose cursors move past settled items only: every cycle of it
keeps its promise, and a change that was moved past is applied at the end of the run, in its own
version or in that of a later report of the same item. -/
theorem noLoss (cfg : Config) (feed : Feed) {db₀ db : Db} {as : List Cycle}
    (hrun : (daemon cfg).Steps (fun db a => Honest cfg feed db a ∧ Safe cfg feed db a) db₀ as db)
    {as₁ as₂ : List Cycle} {a : Cycle} (has : as = as₁ ++ a :: as₂) {db₁ : Db}
    (hreach : (daemon cfg).Steps System.anyStep db₀ as₁ db₁) :
    NothingLost cfg feed db₁ a ∧
    ∀ token, storedToken cfg db₁ a = some token →
      ∀ before x later, batchAt cfg db₁ a = before ++ x :: later →
        feed.place a before.length < feed.pos (some token) →
        ∃ y ∈ x :: later ++ reports cfg (runCycle cfg db₁ a).2 as₂,
          y.1.remoteId = x.1.remoteId ∧ Applied cfg db.chunks y := by
  subst has
  obtain ⟨db₁', hpre, hpost⟩ := hrun.split
  cases hreach.det hpre
  cases hpost with
  | cons hcond hst hrest =>
      cases daemon_step hst
      have hnl := hcond.2.nothingLost hcond.1
      refine ⟨hnl, ?_⟩
      intro token htoken before x later hbatch hpast
      obtain ⟨y, hy, hid, happ⟩ := hnl.applied token htoken before x later hbatch hpast
      obtain ⟨z, hz, hzid, hzapp⟩ := applied_lasts happ (reports cfg (runCycle cfg db₁ a).2 as₂)
      refine ⟨z, ?_, hzid.trans hid, ?_⟩
      · rcases List.mem_cons.mp hz with rfl | hz
        · exact List.mem_append_left _ hy
        · exact List.mem_append_right _ hz
      · rw [steps_chunks hrest]
        exact hzapp

/-! ## Two runs of one cycle -/

/-- A cursor stands at the number it spells, and changes stand in the order they are reported. -/
def sampleFeed : Feed where
  pos := fun c => match c with
    | some "1" => 1
    | _ => 0
  place := fun _ i => i

/-- The item is deleted and reported again; the second report fails, but the cursor stays before
it. -/
theorem cursor_before_failure : ∃ db,
    (daemon sampleConfig).Steps System.anyStep ⟨[], fun _ => none⟩
      [sampleCycle [sampleItem true, sampleItem false]
        (fun i => if i = 0 then sampleEnv "" else
          { sampleEnv "" with download := .error (.http 503) }) "1"] db ∧
    db.cursors "drive" = some "1" ∧
    ∃ y, y.1.remoteId = "item-1" ∧ Applied sampleConfig db.chunks y := by
  let a := sampleCycle [sampleItem true, sampleItem false]
    (fun i => if i = 0 then sampleEnv "" else
      { sampleEnv "" with download := .error (.http 503) }) "1"
  let db₀ : Db := ⟨[], fun _ => none⟩
  have hbatch : batchAt sampleConfig db₀ a = [(sampleItem true, sampleEnv ""),
      (sampleItem false, { sampleEnv "" with download := .error (.http 503) })] := rfl
  have hsafe : Safe sampleConfig sampleFeed db₀ a := by
    intro token htoken before x later hb hpast
    cases htoken
    have hlen : before.length = 0 := by
      have : before.length < 1 := hpast
      omega
    rw [List.length_eq_zero_iff.mp hlen, hbatch] at hb
    simp only [List.nil_append, List.cons.injEq] at hb
    obtain ⟨rfl, -⟩ := hb
    refine ⟨rfl, ?_⟩
    intro h
    cases h.1
  have hhonest : Honest sampleConfig sampleFeed db₀ a := by
    intro i _
    exact Nat.zero_le i
  have hrun : (daemon sampleConfig).Steps
      (fun db a => Honest sampleConfig sampleFeed db a ∧ Safe sampleConfig sampleFeed db a)
      db₀ [a] (runCycle sampleConfig db₀ a).2 :=
    System.Steps.single ⟨hhonest, hsafe⟩ rfl
  obtain ⟨-, happlied⟩ := noLoss sampleConfig sampleFeed hrun
    (show [a] = [] ++ a :: [] from rfl) (System.Steps.nil db₀)
  obtain ⟨y, -, hid, happ⟩ := happlied "1" rfl [] _ _ hbatch (by decide)
  exact ⟨_, hrun.anyStep, rfl, y, hid, happ⟩

/-- A download that fails in a batch whose cursor is stored: the change is behind the cursor and
nothing of it is in the table. -/
theorem failed_download_is_lost : ¬ ∀ (cfg : Config) (feed : Feed) (db₀ db : Db)
    (as : List Cycle), (daemon cfg).Steps (Honest cfg feed) db₀ as db →
      ∀ as₁ a as₂ db₁, as = as₁ ++ a :: as₂ →
        (daemon cfg).Steps System.anyStep db₀ as₁ db₁ → NothingLost cfg feed db₁ a := by
  intro hclaim
  let env : ItemEnv := { sampleEnv "" with download := .error (.http 503) }
  let a := sampleCycle [sampleItem false] (fun _ => env) "1"
  let db₀ : Db := ⟨[], fun _ => none⟩
  have hhonest : Honest sampleConfig sampleFeed db₀ a := by
    intro i _
    exact Nat.zero_le i
  have hnl := hclaim sampleConfig sampleFeed db₀ _ [a] (System.Steps.single hhonest rfl)
    [] a [] db₀ rfl (System.Steps.nil db₀)
  have hfail : ¬ Succeeds sampleConfig db₀.chunks (sampleItem false, env) := by
    rintro ⟨content, hdown, -⟩
    cases hdown
  have hahead := hnl.ahead [] (sampleItem false, env) [] rfl hfail
  exact absurd hahead (by decide)

end McpGateway.Ingestion
