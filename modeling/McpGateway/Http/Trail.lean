import McpGateway.Gateway.Signed
import McpGateway.Http.Mediation

/-! # The trail of the requests

What a step of `http` does to the database is a call, the entry of a refused request, or nothing
(`step_effect`).

* `trail_attributed` — so every row of `audit_logs` that a run adds is the entry of a refused request
  or names the key of a call that was earned, and nothing but calls touches the other tables. -/

namespace McpGateway.Http

open Foundation Foundation.Act System Gateway Keys

variable {d : Deployment} {s₀ s s' : State} {a : Action}

/-! ## What a step does to the database -/

inductive Effect (p : Platform) (s s' : State) : Prop where
  | none (hgateway : s'.gateway = s.gateway) (hruns : s'.toolRuns = s.toolRuns)
      (hrefusals : s'.refusals = s.refusals)
  | refuses (entry : AuditEntry) (hentry : ∃ remoteAddr reason, entry = failureEntry remoteAddr reason)
      (hgateway : s'.gateway = ⟨applyWrite s.gateway.db (.audit entry), s.gateway.conn⟩)
      (hruns : s'.toolRuns = s.toolRuns) (hrefusals : s'.refusals = s.refusals ++ [entry])
  | runs (run : ToolRun) (hgateway : s'.gateway = after p run.inv s.gateway)
      (hruns : s'.toolRuns = s.toolRuns ++ [run]) (hrefusals : s'.refusals = s.refusals)

variable {t : Nat} {request : HttpRequest} {p : Platform}

theorem limit_effect (maxRequestsPerWindow now : Int) :
    Effect p s (s.limit maxRequestsPerWindow t request now) := by
  unfold State.limit
  dsimp only
  split <;> exact .none rfl rfl rfl

/-- A refused request leaves its entry, or nothing. -/
theorem refuse_effect (env : Env) (reason : String) : Effect p s (s.refuse env t request reason) := by
  unfold State.refuse recordFailure log
  by_cases haudit : env.auditFails (failureEntry request.remoteAddr reason) = true
  · rw [if_pos haudit]
    exact .none rfl rfl (List.append_nil _)
  · rw [if_neg haudit]
    exact .refuses _ ⟨_, _, rfl⟩ rfl rfl rfl

theorem check_effect (server : Server) (env : Env) : Effect p s (s.check server env t request) := by
  unfold State.check
  split_ifs
  · dsimp only
    split
    · exact .none rfl rfl rfl
    · next reason message hout =>
      have heffect : Effect p { s with keys := (doFilterInternal server s.keys request.credentials).2 }
          (State.refuse { s with keys := (doFilterInternal server s.keys request.credentials).2 }
            env t request reason) := refuse_effect env reason
      cases heffect with
      | none hgateway hruns hrefusals => exact .none hgateway hruns hrefusals
      | refuses entry hentry hgateway hruns hrefusals =>
          exact .refuses entry hentry hgateway hruns hrefusals
      | runs run hgateway hruns hrefusals => exact .runs run hgateway hruns hrefusals
  · exact .none rfl rfl rfl

theorem authorize_effect (f : InFlight) : Effect p s (s.authorize t f) := by
  unfold State.authorize
  dsimp only
  split_ifs <;> exact .none rfl rfl rfl

theorem handle_effect (f : InFlight) : Effect p s (s.handle p t f) := by
  unfold State.handle
  split
  · exact .runs ⟨f.request, _, f.lookedUp⟩ rfl rfl rfl
  · exact .none rfl rfl rfl

/-- **One step.** A call, the entry of a refused request, or nothing. -/
theorem step_effect (hst : (http d).step s a = some s') : Effect d.platform s s' := by
  unfold http at hst
  cases a with
  | arrive t request =>
      dsimp only at hst
      split at hst
      · cases hst
      · cases hst
        exact .none rfl rfl rfl
  | limit t =>
      dsimp only at hst
      split at hst
      · cases hst
        exact limit_effect _ _
      · cases hst
  | check t env =>
      dsimp only at hst
      split at hst
      · cases hst
        exact check_effect _ _
      · cases hst
  | authorize t =>
      dsimp only at hst
      split at hst
      · cases hst
        exact authorize_effect _
      · cases hst
  | handle t =>
      dsimp only at hst
      split at hst
      · cases hst
        exact handle_effect _
      · cases hst
  | change table =>
      cases hst
      exact .none rfl rfl rfl
  | invalidateCache =>
      cases hst
      exact .none rfl rfl rfl
  | advance elapsed =>
      cases hst
      exact .none rfl rfl rfl
  | evict remoteAddr =>
      cases hst
      exact .none rfl rfl rfl

/-! ## The trail -/

def isFailure (entry : AuditEntry) : Bool := entry.toolName = "authentication_failure"

theorem isFailure_signed {caller : Option Uuid} {entry : AuditEntry} (h : SignedBy caller entry) :
    isFailure entry = false := by
  have hother : "authentication_failure" ∉ callEvents := by decide
  simp only [isFailure, decide_eq_false_iff_not]
  rintro heq
  exact hother (heq ▸ h.event)

/-- What the calls of a run and the refused requests have made of the tables. -/
structure Trail (g₀ : GatewayState) (s : State) : Prop where
  chunks : s.gateway.db.chunks = g₀.db.chunks
  employees : s.gateway.db.employees = g₀.db.employees
  grants : s.gateway.db.grants = g₀.db.grants
  rateLimit : ∀ k window, (∀ run ∈ s.toolRuns, run.inv.caller ≠ some k) →
    s.gateway.db.rateLimit k window = g₀.db.rateLimit k window
  audits : ∃ added, s.gateway.db.auditLogs = g₀.db.auditLogs ++ added ∧
    added.filter isFailure = s.refusals ∧
    ∀ entry ∈ added, isFailure entry = false → ∃ run ∈ s.toolRuns, SignedBy run.inv.caller entry

theorem Trail.refuses {g₀ : GatewayState} (h : Trail g₀ s) {entry : AuditEntry}
    (hentry : isFailure entry = true)
    (hgateway : s'.gateway = ⟨applyWrite s.gateway.db (.audit entry), s.gateway.conn⟩)
    (hruns : s'.toolRuns = s.toolRuns) (hrefusals : s'.refusals = s.refusals ++ [entry]) :
    Trail g₀ s' := by
  obtain ⟨added, hlogs, hfailures, hsigned⟩ := h.audits
  refine ⟨?_, ?_, ?_, ?_, added ++ [entry], ?_, ?_, ?_⟩
  · rw [hgateway]
    exact h.chunks
  · rw [hgateway]
    exact h.employees
  · rw [hgateway]
    exact h.grants
  · rw [hgateway, hruns]
    exact h.rateLimit
  · rw [hgateway, ← List.append_assoc, ← hlogs]
    rfl
  · rw [List.filter_append, hfailures, hrefusals, List.filter_cons_of_pos hentry, List.filter_nil]
  · intro other hother hcall
    rw [hruns]
    rcases List.mem_append.mp hother with hold | hnew
    · exact hsigned other hold hcall
    · rw [List.mem_singleton.mp hnew, hentry] at hcall
      cases hcall

theorem Trail.runs {g₀ : GatewayState} (h : Trail g₀ s) {run : ToolRun}
    (hgateway : s'.gateway = after p run.inv s.gateway)
    (hruns : s'.toolRuns = s.toolRuns ++ [run]) (hrefusals : s'.refusals = s.refusals) :
    Trail g₀ s' := by
  have hframe := after_frame p run.inv s.gateway
  obtain ⟨added, hlogs, hfailures, hsigned⟩ := h.audits
  obtain ⟨new, hnewLogs, hnewSigned⟩ := after_signed p run.inv s.gateway
  rw [← hgateway] at hframe hnewLogs
  refine ⟨hframe.chunks.trans h.chunks, hframe.employees.trans h.employees,
    hframe.grants.trans h.grants, ?_, added ++ new, ?_, ?_, ?_⟩
  · intro k window hothers
    rw [hruns] at hothers
    have hk : some k ≠ run.inv.caller := fun heq =>
      hothers run (List.mem_append_right _ List.mem_cons_self) heq.symm
    exact (hframe.rateLimit k window hk).trans
      (h.rateLimit k window fun r hr => hothers r (List.mem_append_left _ hr))
  · rw [hnewLogs, hlogs, List.append_assoc]
  · have hnone : new.filter isFailure = [] := by
      apply List.filter_eq_nil_iff.mpr
      intro entry hentry
      rw [isFailure_signed (hnewSigned entry hentry)]
      exact Bool.false_ne_true
    rw [List.filter_append, hnone, List.append_nil, hfailures, hrefusals]
  · intro entry hentry hcall
    rw [hruns]
    rcases List.mem_append.mp hentry with hold | hnew
    · obtain ⟨r, hr, hby⟩ := hsigned entry hold hcall
      exact ⟨r, List.mem_append_left _ hr, hby⟩
    · exact ⟨run, List.mem_append_right _ List.mem_cons_self, hnewSigned entry hnew⟩

theorem trail_step {g₀ : GatewayState} (h : Trail g₀ s) (hst : (http d).step s a = some s') :
    Trail g₀ s' := by
  cases step_effect hst with
  | none hgateway hruns hrefusals =>
      rcases h with ⟨hchunks, hemployees, hgrants, hrate, haudits⟩
      constructor <;> rw [hgateway] <;> try rw [hruns]
      · exact hchunks
      · exact hemployees
      · exact hgrants
      · exact hrate
      · rw [hrefusals]
        exact haudits
  | refuses entry hentry hgateway hruns hrefusals =>
      obtain ⟨remoteAddr, reason, rfl⟩ := hentry
      exact h.refuses rfl hgateway hruns hrefusals
  | runs run hgateway hruns hrefusals => exact h.runs hgateway hruns hrefusals

/-- **The trail is attributed.** Over every run: the entries of failed authentications are those of
the refused requests, in their order; every other row that was added names the key of a call, which
is the row that this call's request had shown the credential of in this run. Calls leave all but the
counts of their own keys alone. -/
theorem trail_attributed {as : List Action} (hinit : (http d).init s₀)
    (hrun : (http d).Steps anyStep s₀ as s) :
    s.gateway.db.chunks = s₀.gateway.db.chunks ∧
    s.gateway.db.employees = s₀.gateway.db.employees ∧
    s.gateway.db.grants = s₀.gateway.db.grants ∧
    (∀ k window, (∀ run ∈ s.toolRuns, run.inv.caller ≠ some k) →
      s.gateway.db.rateLimit k window = s₀.gateway.db.rateLimit k window) ∧
    ∃ added, s.gateway.db.auditLogs = s₀.gateway.db.auditLogs ++ added ∧
      added.filter isFailure = s.refusals ∧
      ∀ entry ∈ added, isFailure entry = false → ∃ run ∈ s.toolRuns, ∃ e lookedUpAt,
        SignedBy run.inv.caller entry ∧ entry.apiKeyId = some e.row.id ∧
        run.lookedUp = some (e, lookedUpAt) ∧ run.inv.auth = .apiKey e.apiKey ∧
        Earned d s₀ as run.request e lookedUpAt := by
  have hstart : Trail s₀.gateway s₀ := by
    obtain ⟨-, -, -, -, hrefusals⟩ := hinit
    refine ⟨rfl, rfl, rfl, fun _ _ _ => rfl, [], (List.append_nil _).symm, ?_, nofun⟩
    rw [hrefusals]
    rfl
  have htrail : Trail s₀.gateway s :=
    hrun.preserves (fun s a s' h _ hst => trail_step h hst) hstart
  obtain ⟨added, hlogs, hfailures, hsigned⟩ := htrail.audits
  refine ⟨htrail.chunks, htrail.employees, htrail.grants, htrail.rateLimit, added, hlogs, hfailures, ?_⟩
  intro entry hentry hcall
  obtain ⟨run, hmem, hby⟩ := hsigned entry hentry hcall
  obtain ⟨e, lookedUpAt, hlookedUp, hauth, hearned⟩ := (inv_run hinit hrun).earned run hmem
  have hid : entry.apiKeyId = some e.row.id := by
    rw [hby.apiKeyId]
    unfold Invocation.caller
    rw [hauth]
    rfl
  exact ⟨run, hmem, e, lookedUpAt, hby, hid, hlookedUp, hauth, hearned⟩

/-- The rows that the sample calls leave, the second one of a key that is no longer in the table. -/
theorem sample_attributed : ∃ (s : State) (as : List Action) (added : List AuditEntry),
    added.map (fun entry => (entry.toolName, entry.apiKeyId))
      = [("list_sources", some (sampleId 2)), ("list_sources", some (sampleId 2))] ∧
    added.filter isFailure = s.refusals ∧
    ∀ entry ∈ added, isFailure entry = false → ∃ run ∈ s.toolRuns, ∃ e lookedUpAt,
      SignedBy run.inv.caller entry ∧ entry.apiKeyId = some e.row.id ∧
      run.lookedUp = some (e, lookedUpAt) ∧ run.inv.auth = .apiKey e.apiKey ∧
      Earned sampleDeployment sampleStart as run.request e lookedUpAt := by
  obtain ⟨s, as, hrun, -, hgateway⟩ := sample_serves
  obtain ⟨-, -, -, -, added, hlogs, htrail⟩ := trail_attributed sampleStart_init hrun
  refine ⟨s, as, added, ?_, htrail⟩
  have hadded : s.gateway.db.auditLogs = added := hlogs
  rw [← hadded, hgateway]
  decide

end McpGateway.Http
