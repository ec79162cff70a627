import McpGateway.Gateway.Observation

/-! # Workspace and classification isolation under row-level security

* `isolation` — with the policies enforced, the answer to a key does not depend on the rows it may
  not see, after any history of other callers on the connection; and a call without a key sees no
  row of `document_chunks`.
* `settings_unset` (in `Effects`) — no caller's settings stay on the connection. -/

namespace McpGateway.Gateway

open Foundation

/-- Databases that differ only in rows the key may not see, and in what is none of its business:
the audit trail and the counts of others. -/
structure SameFor (key : ApiKey) (d₁ d₂ : Database) : Prop where
  chunks : d₁.chunks.filter (mayRead d₁.grants key) = d₂.chunks.filter (mayRead d₂.grants key)
  employees : d₁.employees = d₂.employees
  grants : d₁.grants = d₂.grants
  rateLimit : ∀ window, d₁.rateLimit key.id window = d₂.rateLimit key.id window

section Visible

variable {p : Platform} {key : ApiKey}

theorem SameFor.visibleRows_eq (hrls : p.rlsEnforced = true) {d₁ d₂ : Database}
    (h : SameFor key d₁ d₂) : visibleRows p.rlsEnforced d₁ (settingsOf key)
      = visibleRows p.rlsEnforced d₂ (settingsOf key) := by
  rw [hrls, visibleRows_settingsOf, visibleRows_settingsOf, h.chunks]

theorem SameFor.applyWrite {d₁ d₂ : Database} (w : Write) (h : SameFor key d₁ d₂) :
    SameFor key (applyWrite d₁ w) (applyWrite d₂ w) := by
  cases w with
  | audit entry => exact ⟨h.chunks, h.employees, h.grants, h.rateLimit⟩
  | setRate apiKeyId window count =>
      refine ⟨h.chunks, h.employees, h.grants, ?_⟩
      intro w
      show (if key.id = apiKeyId ∧ w = window then some count else d₁.rateLimit key.id w)
        = if key.id = apiKeyId ∧ w = window then some count else d₂.rateLimit key.id w
      rw [h.rateLimit w]

/-- Under the policies, such databases are indistinct to the key. -/
theorem indistinct_of_rls (hrls : p.rlsEnforced = true) :
    Indistinct p key (fun _ => True) (SameFor key) where
  apply _ _ w h := h.applyWrite w
  rate d₁ d₂ window count h := by
    unfold upsertTotal
    rw [h.rateLimit window]
  byText d₁ d₂ q limit h := by
    unfold selectByText
    rw [h.visibleRows_eq hrls]
    exact ⟨rfl, fun _ _ _ _ => trivial⟩
  byVector d₁ d₂ v limit h := by
    unfold selectByVector
    rw [h.visibleRows_eq hrls]
    exact ⟨rfl, fun _ _ _ _ => trivial⟩
  fetch d₁ d₂ row h _ := by rw [h.visibleRows_eq hrls]

theorem SameFor.selectRows_eq (hrls : p.rlsEnforced = true) {d₁ d₂ : Database}
    (h : SameFor key d₁ d₂) (t : Table) (cols : List Column)
    (conds : List (Column × Option JString)) (maxRows : Nat) :
    selectRows p t cols conds maxRows d₁ (settingsOf key)
      = selectRows p t cols conds maxRows d₂ (settingsOf key) := by
  have hrows : tableRows p t d₁ (settingsOf key) = tableRows p t d₂ (settingsOf key) := by
    cases t with
    | employees => exact congrArg (fun es => some (es.map Employee.row)) h.employees
    | documentChunks => exact congrArg (Option.map (·.map chunkRow)) (h.visibleRows_eq hrls)
  unfold selectRows
  rw [hrows]

theorem SameFor.trans {d₁ d₂ d₃ : Database} (h : SameFor key d₁ d₂) (h' : SameFor key d₂ d₃) :
    SameFor key d₁ d₃ :=
  ⟨h.chunks.trans h'.chunks, h.employees.trans h'.employees, h.grants.trans h'.grants,
    fun w => (h.rateLimit w).trans (h'.rateLimit w)⟩

theorem SameFor.symm {d₁ d₂ : Database} (h : SameFor key d₁ d₂) : SameFor key d₂ d₁ :=
  ⟨h.chunks.symm, h.employees.symm, h.grants.symm, fun w => (h.rateLimit w).symm⟩

/-! ## Histories -/

/-- Nothing another caller does changes what the key sees. -/
theorem sameFor_after {inv : Invocation} (hother : inv.caller ≠ some key.id) (g : GatewayState) :
    SameFor key g.db (after p inv g).db := by
  have hframe := after_frame p inv g
  refine ⟨?_, hframe.employees.symm, hframe.grants.symm, ?_⟩
  · rw [hframe.chunks, hframe.grants]
  · intro window
    exact (hframe.rateLimit key.id window hother.symm).symm

theorem sameFor_history {g g' : GatewayState} {invs : List Invocation}
    (h : (gateway p).Steps (fun _ inv => inv.caller ≠ some key.id) g invs g') :
    SameFor key g.db g'.db := by
  apply h.preserves (P := fun g' => SameFor key g.db g'.db)
  · intro g₁ inv g₂ hsame hother hstep
    cases hstep
    exact hsame.trans (sameFor_after hother g₁)
  · exact ⟨rfl, rfl, rfl, fun _ => rfl⟩

theorem answer_same (hrls : p.rlsEnforced = true) (env : Env) (call : ToolCall)
    {g₁ g₂ : GatewayState} (h : SameFor key g₁.db g₂.db) :
    answer p ⟨env, .apiKey key, call⟩ g₁ = answer p ⟨env, .apiKey key, call⟩ g₂ := by
  have hD : Indistinct p key (fun _ => True) (SameFor key) := indistinct_of_rls hrls
  apply answer_eq hD.apply
  · intro _
    show Act.Rel (Session.Alike (SameFor key) (settingsOf key)) (toolBody p env (.apiKey key) call) _
    cases call with
    | listSources => exact rel_listSources
    | queryDatabase table filters maxRows =>
        apply rel_queryDatabase
        apply rel_query
        intro _ t conds _ _ _ d₁ d₂ hd
        exact hd.selectRows_eq hrls t _ conds _
    | searchDocuments q maxResults => exact rel_searchDocuments hD q maxResults
    | semanticSearchDocuments q maxResults => exact rel_semanticSearchDocuments hD q maxResults
  · exact h

end Visible

/-! ## No key -/

theorem rel_currentApiKey {auth : Authentication} (hauth : auth.key? = none)
    {D : Database → Database → Prop} {σ : Settings} {α : Type} {f : ApiKey → GatewayM α} :
    Act.Rel (Session.Alike D σ) (do
      let apiKey ← currentApiKey auth
      f apiKey) fun _ => True := by
  apply Act.Rel.bind (V := fun _ => False)
  · cases auth with
    | apiKey key => cases hauth
    | absent => exact Act.Rel.throw
    | otherPrincipal => exact Act.Rel.throw
  · intro _ h
    exact h.elim

/-- Without a key, a tool does not come to read a table. -/
theorem rel_toolBody_noKey {p : Platform} {env : Env} {auth : Authentication}
    (hauth : auth.key? = none) (call : ToolCall) {σ : Settings} :
    Act.Rel (Session.Alike (fun _ _ => True) σ) (toolBody p env auth call) fun _ => True := by
  cases call with
  | listSources => exact rel_currentApiKey hauth
  | queryDatabase table filters maxRows => exact rel_currentApiKey hauth
  | searchDocuments q maxResults =>
      exact rel_searchTool_of (fun _ _ => rel_currentApiKey hauth) q
  | semanticSearchDocuments q maxResults =>
      exact rel_searchTool_of (fun _ _ => rel_currentApiKey hauth) q

/-- **Isolation.** Two databases that differ only in rows the key may not see give the same answer
to every call of the key, after any histories of other callers; and without a key there is no row
to see. -/
theorem isolation {p : Platform} (hrls : p.rlsEnforced = true) :
    (∀ (key : ApiKey) (g₁ g₂ g₁' g₂' : GatewayState) (invs₁ invs₂ : List Invocation),
      SameFor key g₁.db g₂.db →
      (gateway p).Steps (fun _ inv => inv.caller ≠ some key.id) g₁ invs₁ g₁' →
      (gateway p).Steps (fun _ inv => inv.caller ≠ some key.id) g₂ invs₂ g₂' →
      ∀ env call, answer p ⟨env, .apiKey key, call⟩ g₁' = answer p ⟨env, .apiKey key, call⟩ g₂') ∧
    (∀ inv : Invocation, inv.auth.key? = none →
      (∀ db, visibleRows p.rlsEnforced db (rlsSettings inv.auth) = some []) ∧
        ∀ g₁ g₂, answer p inv g₁ = answer p inv g₂) := by
  constructor
  · intro key g₁ g₂ g₁' g₂' invs₁ invs₂ hsame hrun₁ hrun₂ env call
    apply answer_same hrls
    exact ((sameFor_history hrun₁).symm.trans hsame).trans (sameFor_history hrun₂)
  · intro inv hauth
    constructor
    · intro db
      have hclient : appSetting (rlsSettings inv.auth).clientId = some Uuid.nil.toText := by
        simp [rlsSettings, resolveClientId, hauth, appSetting, toText_ne_empty]
      rw [hrls]
      exact visibleRows_unset db (Or.inr hclient)
    · intro g₁ g₂
      apply answer_eq (D := fun _ _ => True) (fun _ _ _ _ => trivial)
      · intro _
        exact rel_toolBody_noKey hauth inv.call
      · trivial

/-- The administrator of the sample workspace reads its document; then the other key, which may not,
asks for it. -/
theorem isolation_sample :
    answer (samplePlatform true) ⟨calmEnv, .apiKey (sampleKey .readOnly 1), documentsQuery⟩
        (after (samplePlatform true) ⟨calmEnv, .apiKey (sampleKey .admin 2), documentsQuery⟩
          noDocuments)
      = answer (samplePlatform true) ⟨calmEnv, .apiKey (sampleKey .readOnly 1), documentsQuery⟩
        (after (samplePlatform true) ⟨calmEnv, .apiKey (sampleKey .admin 2), documentsQuery⟩
          (oneDocument planRow planRow_fits)) := by
  have hother : (⟨calmEnv, .apiKey (sampleKey .admin 2), documentsQuery⟩ : Invocation).caller
      ≠ some (sampleKey .readOnly 1).id := by decide
  exact (isolation rfl).1 (sampleKey .readOnly 1) noDocuments
    (oneDocument planRow planRow_fits) _ _ _ _ ⟨by decide, rfl, rfl, fun _ => rfl⟩ (System.Steps.single hother rfl)
    (System.Steps.single hother rfl) calmEnv documentsQuery

end McpGateway.Gateway
