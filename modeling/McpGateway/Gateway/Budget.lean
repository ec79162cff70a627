import McpGateway.Gateway.Session

/-! # `ChunkBudgetEnforcer`

The hourly chunk budget of a key. `commitChunks` runs in a transaction of its own, whatever becomes
of the caller's. -/

namespace McpGateway.Gateway

open Foundation Foundation.Act

def nanosPerHour : Nat := 3600 * nanosPerSecond

/-- `now.truncatedTo(HOURS)`, as the number of the hour. -/
def windowStart (now : Nat) : Nat := now / nanosPerHour

def secondsUntilNextHour (now : Nat) : Nat :=
  max 1 (((windowStart now + 1) * nanosPerHour - now) / nanosPerSecond)

/-- The post-increment `chunk_count` of the `UPSERT`; `none` past the largest `BIGINT`. -/
def upsertTotal (db : Database) (apiKeyId : Uuid) (window count : Nat) : Option Nat :=
  let total := (db.rateLimit apiKeyId window).getD 0 + count
  if total ≤ bigintMax then some total else none

/-- `UPSERT_SQL`. -/
def upsert (env : Env) (apiKeyId : Uuid) (window count : Nat) : GatewayM Nat := do
  let total ← statement env.upsertFails fun db _ => upsertTotal db apiKeyId window count
  Act.modify (Session.write rules (.setRate apiKeyId window total))
  pure total

/-- The body of `commitChunks`. -/
def recordChunks (p : Platform) (env : Env) (apiKeyId : Option Uuid) (chunkCount : Int) :
    GatewayM Unit :=
  match apiKeyId with
  | none => throw (.budgetExceeded (secondsUntilNextHour env.now))
  | some apiKeyId => do
      let newTotal ← upsert env apiKeyId (windowStart env.now) (max 0 chunkCount).toNat
      if (newTotal : Int) > p.hourlyCap then
        let retryAfter := secondsUntilNextHour env.now
        log env ⟨"chunk_budget_exceeded", some apiKeyId,
          [("cap", .number p.hourlyCap), ("total", .number newTotal),
            ("retryAfterSeconds", .number retryAfter)],
          jstr "budget_exceeded"⟩
        throw (.budgetExceeded retryAfter)

/-- `commitChunks`, `@Transactional(REQUIRES_NEW)`. -/
def commitChunks (p : Platform) (env : Env) (apiKeyId : Option Uuid) (chunkCount : Int) :
    GatewayM Unit :=
  Session.requiresNew rules env.inner.fate env.innerConn (recordChunks p env apiKeyId chunkCount)

/-! ## What `commitChunks` does -/

/-- The entry made for a total over the cap. -/
def exceededEntry (p : Platform) (env : Env) (apiKeyId : Uuid) (total : Nat) : AuditEntry :=
  ⟨"chunk_budget_exceeded", some apiKeyId,
    [("cap", .number p.hourlyCap), ("total", .number total),
      ("retryAfterSeconds", .number (secondsUntilNextHour env.now))],
    jstr "budget_exceeded"⟩

/-- The new total, if the statement succeeds. -/
def budgetTotal (env : Env) (db : Database) (apiKeyId : Uuid) (chunkCount : Int) : Option Nat :=
  if env.upsertFails then none
  else upsertTotal db apiKeyId (windowStart env.now) (max 0 chunkCount).toNat

theorem upsert_some {env : Env} {apiKeyId : Uuid} {window count total : Nat} {s : GatewaySession}
    (h : statementAnswer env.upsertFails (fun db _ => upsertTotal db apiKeyId window count) s
      = some total) :
    upsert env apiKeyId window count s
      = (.ok total, s.write rules (.setRate apiKeyId window total)) := by
  unfold upsert
  rw [bind_ok (statement_some h)]
  rfl

theorem upsert_none {env : Env} {apiKeyId : Uuid} {window count : Nat} {s : GatewaySession}
    (h : statementAnswer env.upsertFails (fun db _ => upsertTotal db apiKeyId window count) s
      = none) :
    upsert env apiKeyId window count s
      = (.error .dataAccess, s.onTx fun t => { t with aborted := true }) := by
  unfold upsert
  rw [bind_error (statement_none h)]

/-- **`commitChunks`.** Over the cap its transaction rolls back, with the new count and the audit
entry. -/
theorem commitChunks_apply (p : Platform) (env : Env) (apiKeyId : Uuid) (chunkCount : Int)
    (s : GatewaySession) :
    commitChunks p env (some apiKeyId) chunkCount s =
      if env.inner.beginFails then (.error .cannotCreateTransaction, s)
      else match budgetTotal env s.store apiKeyId chunkCount with
        | none => (.error .dataAccess, s)
        | some total =>
            let counted := Write.setRate apiKeyId (windowStart env.now) total
            if (total : Int) > p.hourlyCap then
              (.error (if env.auditFails (exceededEntry p env apiKeyId total) then .dataAccess
                else .budgetExceeded (secondsUntilNextHour env.now)),
                { s with issued := s.issued ++ [counted] ++
                  [.audit (exceededEntry p env apiKeyId total)] })
            else if env.inner.commitFails then
              (.error .transactionSystem, { s with issued := s.issued ++ [counted] })
            else
              (.ok (), { s with
                store := applyWrite s.store counted
                issued := s.issued ++ [counted] }) := by
  unfold commitChunks Session.requiresNew Session.execute
  by_cases hbegin : env.inner.beginFails = true
  · simp [TxEnv.fate, hbegin, rules]
  · rw [if_neg hbegin]
    dsimp only
    rw [if_neg (show ¬ env.inner.fate.beginFails = true from hbegin)]
    -- the inner transaction sees what is committed, not the writes of the outer one
    have hanswer : statementAnswer env.upsertFails
        (fun db _ => upsertTotal db apiKeyId (windowStart env.now) (max 0 chunkCount).toNat)
        (Session.begin { s with tx := none, conn := env.innerConn })
        = budgetTotal env s.store apiKeyId chunkCount := by
      simp [statementAnswer, budgetTotal, Session.begin, Session.isAborted]
    unfold recordChunks
    cases htotal : budgetTotal env s.store apiKeyId chunkCount with
    | none =>
        rw [htotal] at hanswer
        dsimp only
        rw [bind_error (upsert_none hanswer)]
        rfl
    | some total =>
        rw [htotal] at hanswer
        dsimp only
        rw [bind_ok (upsert_some hanswer)]
        by_cases hcap : (total : Int) > p.hourlyCap
        · rw [if_pos hcap, if_pos hcap]
          unfold log exceededEntry
          split_ifs
          · rfl
          · rfl
        · rw [if_neg hcap, if_neg hcap]
          by_cases hcommit : env.inner.commitFails = true
          · simp [Session.begin, Session.write, Session.finish, Session.rollback, TxEnv.fate,
              hcommit, rules]
          · simp [Session.begin, Session.write, Session.finish, Session.commit, TxEnv.fate,
              hcommit, rules]

end McpGateway.Gateway
