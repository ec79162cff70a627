import McpGateway.Foundation.Transition
import McpGateway.Gateway.Tools

/-! # The aspects around a tool

`ToolAllowlistAspect` comes first, then `RlsContextAspect`, which opens the transaction of the call
and sets its two settings. `gateway` is the system whose steps are whole invocations on one pooled
connection.

* `applyRlsRole_apply` — how a call ends, given what its tool does in the transaction. -/

namespace McpGateway.Gateway

open Foundation Foundation.Act

/-! ## `ToolAllowlistAspect` -/

/-- The key may not call the tool. -/
def allowlistRejects (auth : Authentication) (toolName : String) : Option ApiKey :=
  auth.key?.filter fun key => match key.allowedTools with
    | some allowed => !allowed.contains toolName
    | none => false

/-- The entry made for a denied call. -/
def deniedEntry (key : ApiKey) (toolName : String) : AuditEntry :=
  ⟨"tool_denied", some key.id,
    [("tool", .text (jstr toolName)), ("reason", .text (jstr "allowlist_reject"))], jstr "denied"⟩

/-- `enforceAllowlist`. -/
def enforceAllowlist (env : Env) (auth : Authentication) (toolName : String)
    (proceed : GatewayM ToolResult) : GatewayM ToolResult :=
  match allowlistRejects auth toolName with
  | some key => do
      log env (deniedEntry key toolName)
      throw (.toolInputRejected ("tool '" ++ toolName ++ "' not in API key allowlist"))
  | none => proceed

/-! ## `RlsContextAspect` -/

/-- `resolveRole`. -/
def resolveRole (auth : Authentication) : String :=
  match auth.key? with
  | some key => key.role.name
  | none => "READ_ONLY"

/-- `resolveClientId`. -/
def resolveClientId (auth : Authentication) : String :=
  match auth.key? with
  | some key => key.id.toText
  | none => Uuid.nil.toText

/-- `status.setRollbackOnly()`. -/
def setRollbackOnly : GatewayM Unit :=
  Act.modify (Session.onTx fun t => { t with localRollbackOnly := true })

/-- `pjp.proceed()`, with what the tool throws kept for after the transaction. -/
def proceedCapturing (proceed : GatewayM ToolResult) : GatewayM (Except Throwable ToolResult) :=
  tryCatch
    (do
      let result ← proceed
      pure (Except.ok result))
    fun toolException => do
      setRollbackOnly
      pure (Except.error toolException)

/-- The callback of `applyRlsRole`. -/
def inRlsContext (env : Env) (auth : Authentication) (proceed : GatewayM ToolResult) :
    GatewayM (Except Throwable ToolResult) := do
  setConfig env "app.mcp_role" (resolveRole auth)
  setConfig env "app.mcp_client_id" (resolveClientId auth)
  proceedCapturing proceed

/-- `applyRlsRole`. -/
def applyRlsRole (env : Env) (auth : Authentication) (proceed : GatewayM ToolResult) :
    GatewayM ToolResult := do
  let outcome ← Session.execute rules env.outer.fate (inRlsContext env auth proceed)
  match outcome with
  | .ok result => pure result
  | .error toolException => throw toolException

/-! ## Invocations -/

/-- One invocation: the caller, the call, and what the outside decides during it. -/
structure Invocation where
  env : Env
  auth : Authentication
  call : ToolCall

/-- A tool with its aspects. -/
def callTool (p : Platform) (inv : Invocation) : GatewayM ToolResult :=
  enforceAllowlist inv.env inv.auth inv.call.toolName
    (applyRlsRole inv.env inv.auth (toolBody p inv.env inv.auth inv.call))

/-- Between invocations: the committed tables, and the settings of the connection. -/
structure GatewayState where
  db : Database
  conn : Settings

/-- Run an invocation on the connection. -/
def invoke (p : Platform) (inv : Invocation) (g : GatewayState) :
    Except Throwable ToolResult × GatewaySession :=
  callTool p inv ⟨g.db, g.conn, none, []⟩

/-- What the caller gets. -/
def answer (p : Platform) (inv : Invocation) (g : GatewayState) : Except Throwable ToolResult :=
  (invoke p inv g).1

/-- What the invocation leaves behind. -/
def after (p : Platform) (inv : Invocation) (g : GatewayState) : GatewayState :=
  ⟨(invoke p inv g).2.store, (invoke p inv g).2.conn⟩

/-- Invocations one after another on one connection, which starts as `RESET ALL` leaves it. -/
def gateway (p : Platform) : System GatewayState Invocation where
  init g := g.conn.IsUnset
  step g inv := some (after p inv g)

/-! ## How a call begins and ends -/

/-- The settings of the transaction of a call. -/
def rlsSettings (auth : Authentication) : Settings :=
  ⟨some (resolveRole auth), some (resolveClientId auth)⟩

/-- The session in which the tool runs. -/
def inContext (auth : Authentication) (s : GatewaySession) : GatewaySession :=
  { s with tx := some ⟨rlsSettings auth, [], false, false, false⟩ }

/-- What keeps a call from reaching its tool. -/
def startError (env : Env) : Option Throwable :=
  if env.outer.beginFails then some .cannotCreateTransaction
  else if env.setConfigFails "app.mcp_role" || env.setConfigFails "app.mcp_client_id" then
    some .dataAccess
  else none

theorem setConfig_ok {env : Env} {key value : String} {s : GatewaySession}
    (hfails : env.setConfigFails key = false) (haborted : s.isAborted = false) :
    setConfig env key value s
      = (.ok (), s.onTx fun t => { t with settings := t.settings.set key value }) := by
  have hanswer : statementAnswer (env.setConfigFails key) (fun _ _ => some ()) s = some () := by
    simp [statementAnswer, hfails, haborted]
  unfold setConfig
  rw [bind_ok (statement_some hanswer)]
  rfl

theorem setConfig_error {env : Env} {key value : String} {s : GatewaySession}
    (hfails : env.setConfigFails key = true) :
    setConfig env key value s
      = (.error .dataAccess, s.onTx fun t => { t with aborted := true }) := by
  have hanswer : statementAnswer (env.setConfigFails key) (fun _ _ => some ()) s = none := by
    simp [statementAnswer, hfails]
  unfold setConfig
  rw [bind_error (statement_none hanswer)]

/-- A call that does not reach its tool leaves the store alone. -/
theorem applyRlsRole_unreached {env : Env} {auth : Authentication} {proceed : GatewayM ToolResult}
    {e : Throwable} (h : startError env = some e) (s : GatewaySession) :
    applyRlsRole env auth proceed s
      = (.error e, if env.outer.beginFails then s else s.rollback env.outer.fate) := by
  unfold startError at h
  by_cases hbegin : env.outer.beginFails = true
  · rw [if_pos hbegin] at h
    cases h
    rw [if_pos hbegin]
    have hbegins : env.outer.fate.beginFails = true := hbegin
    exact bind_error (Session.execute_cannotBegin rules hbegins s)
  · rw [if_neg hbegin] at h ⊢
    have hbegins : env.outer.fate.beginFails = false := by simpa [TxEnv.fate] using hbegin
    have hctx : ∃ s', inRlsContext env auth proceed s.begin = (.error .dataAccess, s') ∧
        s'.rollback env.outer.fate = s.rollback env.outer.fate := by
      unfold inRlsContext
      by_cases hrole : env.setConfigFails "app.mcp_role" = true
      · exact ⟨_, bind_error (setConfig_error hrole), rfl⟩
      · have hrole' : env.setConfigFails "app.mcp_role" = false := by simpa using hrole
        have hclient : env.setConfigFails "app.mcp_client_id" = true := by
          by_contra hclient
          simp [hrole', hclient] at h
        rw [bind_ok (setConfig_ok hrole' rfl)]
        exact ⟨_, bind_error (setConfig_error hclient), rfl⟩
    obtain ⟨s', hrun, hrollback⟩ := hctx
    have he : e = .dataAccess := by
      split_ifs at h
      exact (Option.some.inj h).symm
    have hexec := Session.execute_begins rules hbegins hrun
    rw [he, ← hrollback]
    exact bind_error hexec

/-- **A call that reaches its tool** runs it under the caller's settings; an exception of the tool
comes out after the rollback. -/
theorem applyRlsRole_apply {env : Env} {auth : Authentication} {proceed : GatewayM ToolResult}
    (h : startError env = none) {s s' : GatewaySession} {out : Except Throwable ToolResult}
    (hrun : proceed (inContext auth s) = (out, s')) (hopen : s'.tx.isSome = true) :
    applyRlsRole env auth proceed s = Session.finish rules env.outer.fate out s' := by
  have hstart : env.outer.beginFails = false ∧ env.setConfigFails "app.mcp_role" = false ∧
      env.setConfigFails "app.mcp_client_id" = false := by
    unfold startError at h
    split_ifs at h with hbegin hset
    simp only [Bool.or_eq_true, not_or, Bool.not_eq_true] at hbegin hset
    exact ⟨hbegin, hset.1, hset.2⟩
  obtain ⟨hbegin, hrole, hclient⟩ := hstart
  have hctx : inRlsContext env auth proceed s.begin
      = proceedCapturing proceed (inContext auth s) := by
    unfold inRlsContext
    rw [bind_ok (setConfig_ok hrole rfl), bind_ok (setConfig_ok hclient rfl)]
    rfl
  have hbegins : env.outer.fate.beginFails = false := hbegin
  obtain ⟨t, ht⟩ := Option.isSome_iff_exists.mp hopen
  -- the callback returns the exception of the tool as a value, and it is thrown after the template
  cases out with
  | error e =>
      have hcaught : inRlsContext env auth proceed s.begin
          = (.ok (.error e), s'.onTx fun t => { t with localRollbackOnly := true }) := by
        rw [hctx, proceedCapturing, tryCatch_apply, bind_error hrun]
        rfl
      have hexec := Session.execute_begins rules hbegins hcaught
      simp only [Session.finish, Session.onTx, ht, Option.map_some, if_true] at hexec
      exact bind_ok hexec
  | ok r =>
      have hcaught : inRlsContext env auth proceed s.begin = (.ok (.ok r), s') := by
        rw [hctx, proceedCapturing, tryCatch_apply, bind_ok hrun]
        rfl
      have hexec := Session.execute_begins rules hbegins hcaught
      unfold applyRlsRole
      rw [bind_apply, hexec]
      simp only [Session.finish, ht]
      split_ifs <;> rfl

/-! ## A small gateway

Concrete calls use at most one document, `plan.txt`, which is confidential and in the default
workspace; the key with the digit 2 has a grant there. -/

theorem four_lt_sixteen : 4 < 16 := by decide

theorem length_set_version (u : Uuid) :
    (u.digits.set 12 ⟨4, four_lt_sixteen⟩).length = 32 := by
  rw [List.length_set, u.length_digits]

/-- An id of version 4. -/
def sampleId (d : Nat) : Uuid := ⟨_, length_set_version (Uuid.ofDigit d)⟩

theorem sampleId_version (d : Nat) : (sampleId d).version = 4 := rfl

def sampleKey (role : AccessRole) (d : Nat) : ApiKey := ⟨sampleId d, role, none, sampleId_version d⟩

/-- `plan.txt`. -/
def planRow : DocumentChunk where
  id := sampleId 9
  docName := "plan.txt"
  classification := .confidential
  chunkIndex := 0
  textPreview := some "the plan"
  createdAt := 0
  workspaceId := defaultWorkspace
  encryptedContent := none
  embedding := none
  sourceItemId := none

theorem planRow_fits : ChunkFits planRow := by
  unfold ChunkFits
  decide

/-- Tables with some rows of `document_chunks` and one grant. -/
def databaseOf (rows : List DocumentChunk) (hpk : (rows.map DocumentChunk.id).Nodup)
    (hfit : ∀ row ∈ rows, ChunkFits row) : Database where
  chunks := rows
  chunks_pk := hpk
  chunks_fit := hfit
  employees := []
  grants := [⟨sampleId 2, defaultWorkspace⟩]
  grants_version := by
    intro g hg
    rw [List.mem_singleton.mp hg]
    exact sampleId_version 2
  rateLimit _ _ := none
  auditLogs := []

theorem nodup_nil_ids : ([].map DocumentChunk.id).Nodup := List.nodup_nil

theorem fits_nil : ∀ row ∈ ([] : List DocumentChunk), ChunkFits row := by simp

theorem nodup_single_id (row : DocumentChunk) : ([row].map DocumentChunk.id).Nodup :=
  List.nodup_singleton _

theorem fits_single {row : DocumentChunk} (h : ChunkFits row) : ∀ r ∈ [row], ChunkFits r := by
  intro r hr
  rw [List.mem_singleton.mp hr]
  exact h

/-- No documents. -/
def noDocuments : GatewayState := ⟨databaseOf [] nodup_nil_ids fits_nil, ⟨none, none⟩⟩

/-- One document. -/
def oneDocument (row : DocumentChunk) (h : ChunkFits row) : GatewayState :=
  ⟨databaseOf [row] (nodup_single_id row) (fits_single h), ⟨none, none⟩⟩

/-- Nothing fails. -/
def calmTx : TxEnv := ⟨false, false, .null, .null, true⟩

def calmEnv : Env where
  outer := calmTx
  inner := calmTx
  innerConn := ⟨none, none⟩
  setConfigFails _ := false
  auditFails _ := false
  embedFails := false
  selectFails := false
  fetchFails _ := false
  upsertFails := false
  now := 0

/-- A platform of which the structured queries only use whether the policies are enforced. -/
def samplePlatform (rlsEnforced : Bool) : Platform where
  isNonSpacingMark _ := false
  isLetterOrDigit n := isAsciiWord n && n != 95
  matchesFrench preview query := preview = query
  embed _ := none
  acceptsVector v := !v.isEmpty
  closer _ _ _ := true
  aesGcmDecrypt _ _ _ := none
  contentKey := []
  hourlyCap := 10000
  rlsEnforced := rlsEnforced

/-- `query_database` on `document_chunks`, without filters. -/
def documentsQuery : ToolCall := .queryDatabase (some (jstr "document_chunks")) none none

end McpGateway.Gateway
