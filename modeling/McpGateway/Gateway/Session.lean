import McpGateway.Foundation.Transaction
import McpGateway.Gateway.Database

/-! # Sessions of the gateway

A tool invocation is a computation on a session: the committed tables, the connection with its
settings, and the current transaction. What the outside decides during one invocation is its `Env`;
what it never changes (the crypto provider, the embedding model, PostgreSQL's text search, the
configuration) is the `Platform`. -/

namespace McpGateway.Gateway

open Foundation Foundation.Act

/-! ## Surroundings -/

/-- Code and configuration outside the repository. -/
structure Platform where
  /-- `Character.getType(ch) == NON_SPACING_MARK` -/
  isNonSpacingMark : Nat → Bool
  /-- `Character.isLetterOrDigit` -/
  isLetterOrDigit : Nat → Bool
  /-- `to_tsvector('french', preview) @@ plainto_tsquery('french', query)` -/
  matchesFrench : (preview query : String) → Bool
  /-- `EmbeddingModel.embed`; `none` is null -/
  embed : JString → Option Vector32
  /-- whether pgvector takes the text of the array as a `vector` -/
  acceptsVector : Vector32 → Bool
  /-- the first vector's `<=>` to the query is no greater than the second's -/
  closer : (query v w : Vector32) → Bool
  /-- AES-256-GCM under a key and IV; `none` is a tag mismatch -/
  aesGcmDecrypt : (key iv ciphertext : Bytes) → Option Bytes
  contentKey : Bytes
  /-- `gateway.chunk-budget.hourly-cap` -/
  hourlyCap : Int
  /-- the database user is not a superuser -/
  rlsEnforced : Bool

/-- What the outside decides about a transaction: whether it begins and commits, what the two
settings are when their local values have ended, and whether the `RESET`s after it run. -/
structure TxEnv where
  beginFails : Bool
  commitFails : Bool
  roleAfter : Unset
  clientIdAfter : Unset
  resetRuns : Bool

/-- What the outside decides about one invocation. -/
structure Env where
  /-- the transaction of `RlsContextAspect` -/
  outer : TxEnv
  /-- the transaction of `ChunkBudgetEnforcer` and the settings of its connection -/
  inner : TxEnv
  innerConn : Settings
  setConfigFails : String → Bool
  auditFails : AuditEntry → Bool
  embedFails : Bool
  selectFails : Bool
  fetchFails : Uuid → Bool
  upsertFails : Bool
  /-- `Instant.now()`, in nanoseconds -/
  now : Nat

/-! ## Settings after a transaction -/

/-- A setting after the transaction: an earlier value of the session is back, and otherwise it is
unset. `RESET` unsets it. -/
def settingAfter (resetRuns : Bool) (after : Unset) (v : Option String) : Option String :=
  if resetRuns || appSetting v = none then after.value else v

def TxEnv.fate (t : TxEnv) : TxFate Settings where
  beginFails := t.beginFails
  commitFails := t.commitFails
  revert s := ⟨settingAfter t.resetRuns t.roleAfter s.role,
    settingAfter t.resetRuns t.clientIdAfter s.clientId⟩

/-! ## Writes -/

/-- What a tool writes: a row of `audit_logs`, or its new count in `rate_limit_state`. -/
inductive Write where
  | audit (entry : AuditEntry)
  | setRate (apiKeyId : Uuid) (window count : Nat)
  deriving DecidableEq, Repr

def applyWrite (db : Database) : Write → Database
  | .audit entry => { db with auditLogs := db.auditLogs ++ [entry] }
  | .setRate apiKeyId window count =>
      { db with rateLimit := fun k w =>
          if k = apiKeyId ∧ w = window then some count else db.rateLimit k w }

abbrev GatewaySession := Session Database Write Settings

/-- `JpaTransactionManager`. -/
def rules : TxRules Database Write Settings Throwable where
  apply := applyWrite
  cannotBegin := .cannotCreateTransaction
  unexpectedRollback := .unexpectedRollback
  commitFailed := .transactionSystem

/-- A computation of the gateway. -/
abbrev GatewayM (α : Type) := Act GatewaySession Throwable α

/-! ## Statements -/

/-- Mark the transaction as aborted, as PostgreSQL does after an error. -/
def abort : GatewayM Unit := Act.modify (Session.onTx fun t => { t with aborted := true })

/-- The answer of a statement: there is none in an aborted transaction, by the outside's choice, or
when its evaluation raises. -/
def statementAnswer {α : Type} (fails : Bool) (run : Database → Settings → Option α)
    (s : GatewaySession) : Option α :=
  if s.isAborted || fails then none else run s.store s.settings

/-- A statement that reads. Without an answer it aborts the transaction. -/
def statement {α : Type} (fails : Bool) (run : Database → Settings → Option α) : GatewayM α := do
  let answer ← Act.gets (statementAnswer fails run)
  match answer with
  | some a => pure a
  | none => do
      abort
      throw .dataAccess

/-- The field of the settings a key names. -/
def Settings.set (s : Settings) (key value : String) : Settings :=
  if key = "app.mcp_role" then { s with role := some value }
  else if key = "app.mcp_client_id" then { s with clientId := some value }
  else s

/-- `RlsContextAspect.setConfig`: `set_config(key, value, true)`. -/
def setConfig (env : Env) (key value : String) : GatewayM Unit := do
  let _ ← statement (env.setConfigFails key) fun _ _ => some ()
  Act.modify (Session.onTx fun t => { t with settings := t.settings.set key value })

/-! ## `AuditService` -/

/-- `AuditService.log`. The row joins the transaction there is; without one, `repository.save`
commits it by itself. A `save` that throws dooms the transaction it joined. -/
def log (env : Env) (entry : AuditEntry) : GatewayM Unit :=
  if env.auditFails entry then do
    Act.modify (Session.failWrite (.audit entry))
    throw .dataAccess
  else
    Act.modify (Session.write rules (.audit entry))

/-- The audit entries among some writes. -/
def auditsOf (ws : List Write) : List AuditEntry :=
  ws.filterMap fun
    | .audit entry => some entry
    | .setRate .. => none

/-! ## The caller -/

/-- `currentApiKey()` of the tools. -/
def currentApiKey : Authentication → GatewayM ApiKey
  | .apiKey key => pure key
  | .absent => throw .nullPointer
  | .otherPrincipal => throw .classCast

/-- The key of the caller, if it has one. -/
def Authentication.key? : Authentication → Option ApiKey
  | .apiKey key => some key
  | .absent => none
  | .otherPrincipal => none

/-! ## What the operations do -/

theorem statement_some {α : Type} {fails : Bool} {run : Database → Settings → Option α}
    {s : GatewaySession} {a : α} (h : statementAnswer fails run s = some a) :
    statement fails run s = (.ok a, s) := by
  unfold statement
  rw [bind_apply, gets_apply, h]
  rfl

theorem statement_none {α : Type} {fails : Bool} {run : Database → Settings → Option α}
    {s : GatewaySession} (h : statementAnswer fails run s = none) :
    statement fails run s
      = (.error .dataAccess, s.onTx fun t => { t with aborted := true }) := by
  unfold statement
  rw [bind_apply, gets_apply, h]
  rfl

@[simp] theorem auditsOf_nil : auditsOf [] = [] := rfl

@[simp] theorem auditsOf_append (ws ws' : List Write) :
    auditsOf (ws ++ ws') = auditsOf ws ++ auditsOf ws' := by
  simp [auditsOf]

@[simp] theorem auditsOf_audit (entry : AuditEntry) : auditsOf [.audit entry] = [entry] := rfl

@[simp] theorem auditsOf_setRate (apiKeyId : Uuid) (window count : Nat) :
    auditsOf [.setRate apiKeyId window count] = [] := rfl

/-- After a transaction the settings are unset if they were before it. -/
theorem TxEnv.revert_isUnset (t : TxEnv) {s : Settings} (h : s.IsUnset) :
    (t.fate.revert s).IsUnset := by
  have hafter : ∀ (u : Unset) (v : Option String), appSetting v = none →
      appSetting (settingAfter t.resetRuns u v) = none := by
    intro u v hv
    unfold settingAfter
    rw [hv, if_pos (by simp)]
    cases u <;> rfl
  exact ⟨hafter _ _ h.1, hafter _ _ h.2⟩

end McpGateway.Gateway
