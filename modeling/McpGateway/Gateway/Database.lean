import Mathlib.Data.List.Nodup
import McpGateway.Gateway.Types

/-! # The gateway's database

The tables the tools read and write, and row-level security on `document_chunks`: the policies the
migrations leave in force, and which rows a statement sees under the settings of its connection.

* `visibleRows_unset` — under settings nobody set, or those of an unauthenticated call, no row is
  visible.
* `visibleRows_settingsOf` — under the settings of a key, exactly the rows `mayRead` grants it. -/

namespace McpGateway.Gateway

/-! ## Tables -/

/-- A row of `employees`; the salary in hundredths. -/
structure Employee where
  id : Int
  name : String
  department : Option String
  email : Option String
  salary : Option Int
  deriving DecidableEq, Repr

/-- A row of `api_key_workspaces`. -/
structure Grant where
  apiKeyId : Uuid
  workspaceId : Uuid
  deriving DecidableEq, Repr

/-- What `VARCHAR(255)` and `VARCHAR(500)` hold. -/
def ChunkFits (row : DocumentChunk) : Prop :=
  row.docName.length ≤ 255 ∧ (row.textPreview.getD "").length ≤ 500

/-- The committed tables. `rateLimit` is `rate_limit_state.chunk_count` by key and window. Grants
refer to keys, whose ids are random. -/
structure Database where
  chunks : List DocumentChunk
  chunks_pk : (chunks.map DocumentChunk.id).Nodup
  chunks_fit : ∀ row ∈ chunks, ChunkFits row
  employees : List Employee
  grants : List Grant
  grants_version : ∀ g ∈ grants, g.apiKeyId.version = 4
  rateLimit : Uuid → Nat → Option Nat
  auditLogs : List AuditEntry

/-! ## Settings -/

/-- `app.mcp_role` and `app.mcp_client_id`, as `current_setting(…, true)` reads them. -/
structure Settings where
  role : Option String
  clientId : Option String
  deriving DecidableEq, Repr

/-- What a setting is when its last `SET LOCAL` has ended: `NULL`, or the empty string. -/
inductive Unset where
  | null | empty
  deriving DecidableEq, Repr

def Unset.value : Unset → Option String
  | .null  => none
  | .empty => some ""

/-- `app_setting(key)`: `NULLIF(current_setting(key, true), '')`. -/
def appSetting (v : Option String) : Option String := if v = some "" then none else v

/-- Neither setting has a value. -/
def Settings.IsUnset (s : Settings) : Prop :=
  appSetting s.role = none ∧ appSetting s.clientId = none

/-! ## Policies -/

inductive PolicyKind where
  | permissive | restrictive
  deriving DecidableEq, Repr

inductive PolicyCommand where
  | all | select | insert | update | delete
  deriving DecidableEq, Repr

/-- The `USING` expressions of the migrations. -/
inductive PolicyExpr where
  | always                    -- true
  | classificationRaw         -- V5
  | segmentation              -- V13
  | classification            -- V14
  | workspaceIsolation        -- V14
  | noExpr                    -- a policy FOR INSERT has none
  deriving DecidableEq, Repr

structure Policy where
  name : String
  kind : PolicyKind
  command : PolicyCommand
  usingExpr : PolicyExpr
  deriving DecidableEq, Repr

inductive PolicyChange where
  | create (p : Policy)
  | drop (name : String)

/-- The policy statements on `document_chunks`, in the order Flyway runs them. -/
def policyChanges : List PolicyChange := [
  -- V5
  .create ⟨"doc_chunks_classification_policy", .permissive, .select, .classificationRaw⟩,
  -- V9
  .create ⟨"doc_chunks_insert_policy", .permissive, .insert, .noExpr⟩,
  .create ⟨"doc_chunks_update_policy", .permissive, .update, .always⟩,
  -- V10
  .create ⟨"doc_chunks_delete_policy", .permissive, .delete, .always⟩,
  -- V13
  .drop "doc_chunks_classification_policy",
  .create ⟨"doc_chunks_segmentation_policy", .permissive, .select, .segmentation⟩,
  -- V14
  .drop "doc_chunks_segmentation_policy",
  .create ⟨"doc_chunks_classification", .permissive, .select, .classification⟩,
  .create ⟨"doc_chunks_workspace_isolation", .restrictive, .all, .workspaceIsolation⟩,
  .drop "doc_chunks_insert_policy",
  .drop "doc_chunks_update_policy",
  .create ⟨"doc_chunks_insert_policy", .permissive, .insert, .noExpr⟩,
  .create ⟨"doc_chunks_update_policy", .permissive, .update, .classification⟩]

def PolicyChange.apply (ps : List Policy) : PolicyChange → List Policy
  | .create p => ps ++ [p]
  | .drop name => ps.filter fun p => p.name ≠ name

/-- The policies in force after the migrations. -/
def policies : List Policy := policyChanges.foldl PolicyChange.apply []

/-! ## Evaluating the policies

An expression is `none` when evaluating it raises: the cast of the client id to `uuid`. -/

/-- `COALESCE(v, 'READ_ONLY') = 'ADMIN' OR classification != 'CONFIDENTIAL'`. -/
def classificationPasses (role : Option String) (row : DocumentChunk) : Bool :=
  role.getD "READ_ONLY" = "ADMIN" || row.classification ≠ .confidential

/-- `workspace_id IN (SELECT … WHERE akw.api_key_id = COALESCE(v, nil)::uuid)`. -/
def workspaceGranted (grants : List Grant) (clientId : Option String) (row : DocumentChunk) :
    Option Bool := do
  let client ← Uuid.parse (clientId.getD Uuid.nil.toText)
  some (grants.any fun g => g.apiKeyId = client ∧ g.workspaceId = row.workspaceId)

def PolicyExpr.eval (grants : List Grant) (s : Settings) (row : DocumentChunk) :
    PolicyExpr → Option Bool
  | .always => some true
  | .noExpr => some true
  | .classificationRaw => some (classificationPasses s.role row)
  | .classification => some (classificationPasses (appSetting s.role) row)
  | .workspaceIsolation => workspaceGranted grants (appSetting s.clientId) row
  | .segmentation => do
      let granted ← workspaceGranted grants s.clientId row
      some (classificationPasses s.role row && (s.role.getD "READ_ONLY" = "ADMIN" || granted))

/-- Evaluate some policies on a row and combine the answers. -/
def evalPolicies (grants : List Grant) (s : Settings) (row : DocumentChunk)
    (combine : List Bool → Bool) (ps : List Policy) : Option Bool := do
  let answers ← ps.mapM fun p => p.usingExpr.eval grants s row
  some (combine answers)

/-- The policies of a kind that apply to `SELECT`. -/
def selectPolicies (kind : PolicyKind) : List Policy :=
  policies.filter fun p => p.kind = kind ∧ (p.command = .select ∨ p.command = .all)

/-- Whether a `SELECT` sees the row: some permissive policy and every restrictive one lets it. -/
def rowVisible (grants : List Grant) (s : Settings) (row : DocumentChunk) : Option Bool := do
  let permitted ← evalPolicies grants s row (fun bs => bs.any id) (selectPolicies .permissive)
  let unrestricted ← evalPolicies grants s row (fun bs => bs.all id) (selectPolicies .restrictive)
  some (permitted && unrestricted)

/-- Filter by a test that may raise. -/
def filterRows (test : DocumentChunk → Option Bool) : List DocumentChunk →
    Option (List DocumentChunk)
  | [] => some []
  | row :: rows => do
      let keep ← test row
      let rest ← filterRows test rows
      some (if keep then row :: rest else rest)

/-- The rows of `document_chunks` a `SELECT` sees. A superuser's connection skips the policies. -/
def visibleRows (rlsEnforced : Bool) (db : Database) (s : Settings) : Option (List DocumentChunk) :=
  if rlsEnforced then filterRows (rowVisible db.grants s) db.chunks else some db.chunks

/-! ## What the policies amount to -/

theorem filterRows_total {test : DocumentChunk → Option Bool} {keep : DocumentChunk → Bool}
    (h : ∀ row, test row = some (keep row)) (rows : List DocumentChunk) :
    filterRows test rows = some (rows.filter keep) := by
  induction rows with
  | nil => rfl
  | cons row rows ih =>
      unfold filterRows
      rw [h row, ih]
      cases hk : keep row <;> simp [hk]

/-- The migrations leave one permissive and one restrictive policy for `SELECT`. -/
theorem rowVisible_eq (grants : List Grant) (s : Settings) (row : DocumentChunk) :
    rowVisible grants s row = (workspaceGranted grants (appSetting s.clientId) row).map
      fun granted => classificationPasses (appSetting s.role) row && granted := by
  have hperm : selectPolicies .permissive
      = [⟨"doc_chunks_classification", .permissive, .select, .classification⟩] := by decide
  have hrestr : selectPolicies .restrictive
      = [⟨"doc_chunks_workspace_isolation", .restrictive, .all, .workspaceIsolation⟩] := by decide
  unfold rowVisible evalPolicies
  rw [hperm, hrestr]
  simp only [List.mapM_cons, List.mapM_nil, PolicyExpr.eval]
  cases workspaceGranted grants (appSetting s.clientId) row <;> simp

/-- The settings `RlsContextAspect` makes for a key. -/
def settingsOf (key : ApiKey) : Settings := ⟨some key.role.name, some key.id.toText⟩

/-- What a key may read: rows of its workspaces, and confidential ones only as `ADMIN`. -/
def mayRead (grants : List Grant) (key : ApiKey) (row : DocumentChunk) : Bool :=
  (key.role.canAccessConfidential || row.classification ≠ .confidential) &&
    grants.any fun g => g.apiKeyId = key.id ∧ g.workspaceId = row.workspaceId

theorem toText_ne_empty (u : Uuid) : u.toText ≠ "" := by
  intro h
  have := congrArg String.toList h
  simp [Uuid.toText] at this

/-- **The rows a key sees.** -/
theorem visibleRows_settingsOf (db : Database) (key : ApiKey) :
    visibleRows true db (settingsOf key) = some (db.chunks.filter (mayRead db.grants key)) := by
  unfold visibleRows
  rw [if_pos rfl]
  apply filterRows_total
  intro row
  have hclient : appSetting (settingsOf key).clientId = some key.id.toText := by
    simp [appSetting, settingsOf, toText_ne_empty]
  have hrole : classificationPasses (appSetting (settingsOf key).role) row
      = (key.role.canAccessConfidential || row.classification ≠ .confidential) := by
    cases hr : key.role <;>
      simp [classificationPasses, appSetting, settingsOf, hr, AccessRole.name,
        AccessRole.canAccessConfidential]
  rw [rowVisible_eq, hclient, hrole]
  simp [workspaceGranted, Uuid.parse_toText, mayRead]

/-- Nobody has a grant under the nil id. -/
theorem nil_not_granted (db : Database) (row : DocumentChunk) :
    workspaceGranted db.grants (some Uuid.nil.toText) row = some false := by
  have hnone : (db.grants.any fun g => g.apiKeyId = Uuid.nil ∧ g.workspaceId = row.workspaceId)
      = false := by
    apply List.any_eq_false.mpr
    intro g hg
    have hv := db.grants_version g hg
    have hne : g.apiKeyId ≠ Uuid.nil := by
      intro h
      rw [h] at hv
      exact absurd hv (by decide)
    simp [hne]
  simp only [workspaceGranted, Option.getD_some, Uuid.parse_toText]
  exact congrArg some hnone

/-- **No key, no row.** -/
theorem visibleRows_unset (db : Database) {s : Settings}
    (h : appSetting s.clientId = none ∨ appSetting s.clientId = some Uuid.nil.toText) :
    visibleRows true db s = some [] := by
  have hgrant : ∀ row, workspaceGranted db.grants (appSetting s.clientId) row = some false := by
    intro row
    have hnil := nil_not_granted db row
    rcases h with h | h
    · rw [h]
      exact hnil
    · rw [h]
      exact hnil
  have htest : ∀ row, rowVisible db.grants s row = some ((fun _ => false) row) := by
    intro row
    rw [rowVisible_eq, hgrant row]
    simp
  unfold visibleRows
  rw [if_pos rfl, filterRows_total htest]
  simp

theorem filterRows_subset {test : DocumentChunk → Option Bool} {rows kept : List DocumentChunk}
    (h : filterRows test rows = some kept) : kept ⊆ rows := by
  induction rows generalizing kept with
  | nil =>
      cases h
      exact List.Subset.refl _
  | cons row rows ih =>
      obtain ⟨keep, -, h⟩ := Option.bind_eq_some_iff.mp h
      obtain ⟨rest, hrest, h⟩ := Option.bind_eq_some_iff.mp h
      cases h
      have hsub := ih hrest
      cases keep with
      | true => exact List.cons_subset_cons row hsub
      | false => exact List.subset_cons_of_subset row hsub

theorem visibleRows_subset {rlsEnforced : Bool} {db : Database} {σ : Settings}
    {rows : List DocumentChunk} (h : visibleRows rlsEnforced db σ = some rows) :
    rows ⊆ db.chunks := by
  unfold visibleRows at h
  split_ifs at h
  · exact filterRows_subset h
  · cases h
    exact List.Subset.refl _

end McpGateway.Gateway
