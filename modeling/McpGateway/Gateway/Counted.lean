import McpGateway.Gateway.Effects

/-! # Which chunks are counted

`commitChunks` runs in a transaction of its own so that its count outlives the transaction around
it. Its own exception ends that transaction too, with the count in it.

* `chunks_counted_iff` — a call that returned or was over budget has counted its chunks exactly when
  the total is within the cap, whatever the transaction around it does.
* `InCall.chunks_counted` — so it is in the transactions of the tools. -/

namespace McpGateway.Gateway

open Foundation Foundation.Act

/-- `chunk_count` of a key's window; 0 if there is no row. -/
def storedCount (db : Database) (apiKeyId : Uuid) (window : Nat) : Nat :=
  (db.rateLimit apiKeyId window).getD 0

/-- `Math.max(0, chunkCount)` -/
def countedChunks (chunkCount : Int) : Nat := (max 0 chunkCount).toNat

/-- The call returned, or was over budget. -/
def Settled (out : Except Throwable Unit) : Prop :=
  out = .ok () ∨ ∃ retryAfterSeconds, out = .error (.budgetExceeded retryAfterSeconds)

/-- The transaction has not counted in the row itself. It could not have: it would hold the lock the
`UPSERT` waits for. -/
def Uncounted (apiKeyId : Uuid) (window : Nat) (t : Tx Write Settings) : Prop :=
  ∀ total, Write.setRate apiKeyId window total ∉ t.work

/-- The transaction around the call ends: from the state it is in by then, and as its fate and its
own result have it. -/
def outerEnds (fate : TxFate Settings) (out : Except Throwable ToolResult)
    (outer : Option (Tx Write Settings)) (s : GatewaySession) : GatewaySession :=
  (Session.finish rules fate out { s with tx := outer }).2

/-! ## The row -/

@[simp] theorem storedCount_setRate (db : Database) (apiKeyId : Uuid) (window total : Nat) :
    storedCount (applyWrite db (.setRate apiKeyId window total)) apiKeyId window = total := by
  simp [storedCount, applyWrite]

theorem storedCount_setRate_of_ne {k apiKeyId : Uuid} {w window : Nat}
    (h : ¬ (apiKeyId = k ∧ window = w)) (db : Database) (total : Nat) :
    storedCount (applyWrite db (.setRate k w total)) apiKeyId window
      = storedCount db apiKeyId window := by
  unfold storedCount applyWrite
  dsimp only
  rw [if_neg h]

/-- Writes to other rows leave the count. -/
theorem storedCount_foldl {apiKeyId : Uuid} {window : Nat} {ws : List Write}
    (h : ∀ total, Write.setRate apiKeyId window total ∉ ws) (db : Database) :
    storedCount (ws.foldl applyWrite db) apiKeyId window = storedCount db apiKeyId window := by
  induction ws generalizing db with
  | nil => rfl
  | cons w ws ih =>
      rw [List.foldl_cons, ih (fun total hmem => h total (List.mem_cons_of_mem _ hmem))]
      cases w with
      | audit entry => rfl
      | setRate k v total =>
          apply storedCount_setRate_of_ne
          rintro ⟨rfl, rfl⟩
          exact h total List.mem_cons_self

/-- **The transaction around the call does not matter.** Committed or rolled back, it leaves the
count. -/
theorem storedCount_outerEnds {apiKeyId : Uuid} {window : Nat} {outer : Option (Tx Write Settings)}
    (houter : ∀ t, outer = some t → Uncounted apiKeyId window t) (fate : TxFate Settings)
    (out : Except Throwable ToolResult) (s : GatewaySession) :
    storedCount (outerEnds fate out outer s).store apiKeyId window
      = storedCount s.store apiKeyId window := by
  unfold outerEnds
  cases outer with
  | none => cases out <;> rfl
  | some t =>
      have hopen : ({ s with tx := some t } : GatewaySession).tx = some t := rfl
      rcases @Session.finish_cases _ _ _ _ _ rules fate _ out t hopen with h | h
      · rw [h]
        exact storedCount_foldl (houter t rfl) s.store
      · rw [h]
        rfl

/-- The tools write nothing but audit entries in the transaction around `commitChunks`. -/
theorem InCall.uncounted {caller : Option Uuid} {g : GatewayState} {s : GatewaySession}
    (h : InCall caller g s) (apiKeyId : Uuid) (window : Nat) (t : Tx Write Settings)
    (ht : s.tx = some t) : Uncounted apiKeyId window t := by
  obtain ⟨t', es, ht', -, hwork⟩ := h.tx
  rw [ht] at ht'
  cases ht'
  intro total hmem
  rw [hwork] at hmem
  obtain ⟨entry, -, hentry⟩ := List.mem_map.mp hmem
  cases hentry

/-! ## The call -/

section Call

variable {p : Platform} {env : Env} {apiKeyId : Uuid} {chunkCount : Int} {s : GatewaySession}

theorem budgetTotal_eq {total : Nat} (h : budgetTotal env s.store apiKeyId chunkCount = some total) :
    total = storedCount s.store apiKeyId (windowStart env.now) + countedChunks chunkCount := by
  unfold budgetTotal upsertTotal at h
  dsimp only at h
  split_ifs at h
  exact (Option.some.inj h).symm

/-- A settled call had a total, and kept it if it is within the cap. -/
theorem settled_cases (h : Settled (commitChunks p env (some apiKeyId) chunkCount s).1) :
    ∃ total, budgetTotal env s.store apiKeyId chunkCount = some total ∧
      (commitChunks p env (some apiKeyId) chunkCount s).2.store
        = if (total : Int) > p.hourlyCap then s.store
          else applyWrite s.store (.setRate apiKeyId (windowStart env.now) total) := by
  rw [commitChunks_apply] at h ⊢
  by_cases hbegin : env.inner.beginFails = true
  · rw [if_pos hbegin] at h
    rcases h with h | ⟨r, h⟩ <;> cases h
  · rw [if_neg hbegin] at h ⊢
    cases htotal : budgetTotal env s.store apiKeyId chunkCount with
    | none =>
        rw [htotal] at h
        rcases h with h | ⟨r, h⟩ <;> cases h
    | some total =>
        rw [htotal] at h
        refine ⟨total, rfl, ?_⟩
        dsimp only at h ⊢
        by_cases hcap : (total : Int) > p.hourlyCap
        · rw [if_pos hcap, if_pos hcap]
        · rw [if_neg hcap] at h ⊢
          rw [if_neg hcap]
          by_cases hcommit : env.inner.commitFails = true
          · rw [if_pos hcommit] at h
            rcases h with h | ⟨r, h⟩ <;> cases h
          · rw [if_neg hcommit]

/-- The row after a settled call. -/
theorem storedCount_settled (h : Settled (commitChunks p env (some apiKeyId) chunkCount s).1) :
    storedCount (commitChunks p env (some apiKeyId) chunkCount s).2.store apiKeyId
        (windowStart env.now)
      = storedCount s.store apiKeyId (windowStart env.now) + countedChunks chunkCount ↔
    ((storedCount s.store apiKeyId (windowStart env.now) + countedChunks chunkCount : Nat) : Int)
        ≤ p.hourlyCap ∨ chunkCount ≤ 0 := by
  obtain ⟨total, htotal, hstore⟩ := settled_cases h
  have heq := budgetTotal_eq htotal
  rw [hstore, ← heq]
  by_cases hcap : (total : Int) > p.hourlyCap
  · rw [if_pos hcap]
    unfold countedChunks at heq
    constructor
    · intro hsame
      right
      omega
    · rintro (hle | hnone)
      · omega
      · omega
  · rw [if_neg hcap, storedCount_setRate]
    constructor
    · intro _
      left
      omega
    · intro _
      rfl

/-- **Counted chunks.** After a call that returned or was over budget, and after whatever the
transaction around it did, the count has grown by the chunks of the call exactly when the new total
is within the cap or there were none. -/
theorem chunks_counted_iff (h : Settled (commitChunks p env (some apiKeyId) chunkCount s).1)
    {outer : Option (Tx Write Settings)}
    (houter : ∀ t, outer = some t → Uncounted apiKeyId (windowStart env.now) t)
    (fate : TxFate Settings) (out : Except Throwable ToolResult) :
    storedCount (outerEnds fate out outer (commitChunks p env (some apiKeyId) chunkCount s).2).store
        apiKeyId (windowStart env.now)
      = storedCount s.store apiKeyId (windowStart env.now) + countedChunks chunkCount ↔
    ((storedCount s.store apiKeyId (windowStart env.now) + countedChunks chunkCount : Nat) : Int)
        ≤ p.hourlyCap ∨ chunkCount ≤ 0 := by
  rw [storedCount_outerEnds houter]
  exact storedCount_settled h

/-- **In a tool call** the transaction around is the tool's, as it is at some later point `s'`. -/
theorem InCall.chunks_counted {caller : Option Uuid} {g : GatewayState} {s' : GatewaySession}
    (hin : InCall caller g s')
    (h : Settled (commitChunks p env (some apiKeyId) chunkCount s).1) (fate : TxFate Settings)
    (out : Except Throwable ToolResult) :
    storedCount (outerEnds fate out s'.tx (commitChunks p env (some apiKeyId) chunkCount s).2).store
        apiKeyId (windowStart env.now)
      = storedCount s.store apiKeyId (windowStart env.now) + countedChunks chunkCount ↔
    ((storedCount s.store apiKeyId (windowStart env.now) + countedChunks chunkCount : Nat) : Int)
        ≤ p.hourlyCap ∨ chunkCount ≤ 0 := by
  rw [storedCount_outerEnds (hin.uncounted apiKeyId (windowStart env.now))]
  exact storedCount_settled h

end Call

/-! ## Under a cap of ten

Nine chunks are on the row when a call has two more. -/

def capTen : Platform := { samplePlatform true with hourlyCap := 10 }

def nineCounted : GatewaySession :=
  ⟨applyWrite noDocuments.db (.setRate (sampleId 1) 0 9), ⟨none, none⟩, none, []⟩

/-- The transaction around a call, before anything is written in it. -/
def emptyOuter : Tx Write Settings := ⟨⟨none, none⟩, [], false, false, false⟩

/-- One more chunk is within the cap, and its count survives the rollback of the transaction around
the call. -/
theorem tenth_chunk_counted :
    storedCount (outerEnds calmTx.fate (.error .nullPointer) (some emptyOuter)
        (commitChunks capTen calmEnv (some (sampleId 1)) 1 nineCounted).2).store (sampleId 1)
        (windowStart calmEnv.now)
      = storedCount nineCounted.store (sampleId 1) (windowStart calmEnv.now) + countedChunks 1 := by
  apply (chunks_counted_iff (Or.inl rfl) _ calmTx.fate (.error .nullPointer)).mpr
  · exact Or.inl (by decide)
  · rintro t ht total hmem
    cases ht
    cases hmem

/-- **Two chunks that are not counted.** The call is turned away at a total of eleven, and the row
still says nine. -/
theorem exceeding_chunks_uncounted :
    (commitChunks capTen calmEnv (some (sampleId 1)) 2 nineCounted).1
      = .error (.budgetExceeded (secondsUntilNextHour calmEnv.now)) ∧
    storedCount nineCounted.store (sampleId 1) (windowStart calmEnv.now) + countedChunks 2 = 11 ∧
    storedCount (commitChunks capTen calmEnv (some (sampleId 1)) 2 nineCounted).2.store
      (sampleId 1) (windowStart calmEnv.now) = 9 :=
  ⟨rfl, rfl, rfl⟩

end McpGateway.Gateway
