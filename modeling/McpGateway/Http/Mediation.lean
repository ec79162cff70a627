import McpGateway.Foundation.History
import McpGateway.Http.Pipeline

/-! # Calls are earned

However the requests in flight and the changes of the key table interleave, a call runs only for a
request that has shown the credential of its principal (`Earned`).

* `tool_runs_earned` — and the table of this run held the row of the principal less than a minute
  before it was looked up. -/

namespace McpGateway.Http

open Foundation System Gateway Keys

variable {d : Deployment} {s₀ s s' : State} {a : Action} {as : List Action}

/-- On the way along the actions `ApiKeyFilter` let the request go on under the row, at that time;
and less than the life of the cache before, the table held the row. -/
def Passed (d : Deployment) (s₀ : State) (as : List Action) (request : HttpRequest)
    (e : ApiKeyEntity) (lookedUpAt : Nat) : Prop :=
  ∃ before t env after s₁ lookedUp, as = before ++ .check t env :: after ∧
    (http d).Steps anyStep s₀ before s₁ ∧
    s₁.threads t = some ⟨request, .apiKeyFilter, lookedUp⟩ ∧ s₁.keys.now = lookedUpAt ∧
    (doFilterInternal d.server s₁.keys request.credentials).1 = .ok e ∧
    (http d).Once s₀ before fun s₂ => e ∈ s₂.keys.table ∧ s₂.keys.now ≤ lookedUpAt ∧
      lookedUpAt < s₂.keys.now + keyCacheTtl

/-- The request has shown the credential of a usable row, which the table held less than the life of
the cache before. -/
structure Earned (d : Deployment) (s₀ : State) (as : List Action) (request : HttpRequest)
    (e : ApiKeyEntity) (lookedUpAt : Nat) : Prop where
  presents : Presents d.server request.credentials lookedUpAt e.row
  usable : usable lookedUpAt e.row = true
  passed : Passed d s₀ as request e lookedUpAt

theorem Earned.later {request : HttpRequest} {e : ApiKeyEntity} {lookedUpAt : Nat}
    (h : Earned d s₀ as request e lookedUpAt) (a : Action) :
    Earned d s₀ (as ++ [a]) request e lookedUpAt := by
  obtain ⟨before, t, env, after, s₁, lookedUp, rfl, hpassed⟩ := h.passed
  refine ⟨h.presents, h.usable, before, t, env, after ++ [a], s₁, lookedUp, ?_, hpassed⟩
  rw [List.append_assoc, List.cons_append]

/-! ## The invariant -/

/-- The principal is the row that was looked up, or there is none. -/
def PrincipalOf (d : Deployment) (s₀ : State) (as : List Action) (auth : Authentication)
    (f : InFlight) : Prop :=
  match f.lookedUp with
  | some (e, lookedUpAt) => auth = .apiKey e.apiKey ∧ Earned d s₀ as f.request e lookedUpAt
  | none => auth.key? = none

/-- The request and the context of a thread. -/
def Fits (d : Deployment) (s₀ : State) (as : List Action) (context : Authentication)
    (f : InFlight) : Prop :=
  match f.stage with
  | .rateLimiter _ => context = .absent
  | .apiKeyFilter => context = .absent
  | .authorization => PrincipalOf d s₀ as context f
  | .handler => PrincipalOf d s₀ as context f ∧ permitted f.request context = true

/-- The cached list was once the table. -/
def WasTable (d : Deployment) (s₀ : State) (as : List Action) (s : State)
    (c : List ApiKeyEntity × Nat) : Prop :=
  c.2 ≤ s.keys.now ∧ (http d).Once s₀ as fun s₁ => s₁.keys.table = c.1 ∧ s₁.keys.now = c.2

/-- A call under the row that its request was looked up as. -/
def RunEarned (d : Deployment) (s₀ : State) (as : List Action) (run : ToolRun) : Prop :=
  ∃ e lookedUpAt, run.lookedUp = some (e, lookedUpAt) ∧ run.inv.auth = .apiKey e.apiKey ∧
    Earned d s₀ as run.request e lookedUpAt

structure Inv (d : Deployment) (s₀ : State) (as : List Action) (s : State) : Prop where
  idle : ∀ t, s.threads t = none → s.context t = .absent
  inFlight : ∀ t f, s.threads t = some f → Fits d s₀ as (s.context t) f
  cached : ∀ c, s.keys.cache = some c → WasTable d s₀ as s c
  earned : ∀ run ∈ s.toolRuns, RunEarned d s₀ as run

theorem PrincipalOf.later {auth : Authentication} {f : InFlight} (h : PrincipalOf d s₀ as auth f)
    (a : Action) : PrincipalOf d s₀ (as ++ [a]) auth f := by
  unfold PrincipalOf at h ⊢
  split at h
  · exact ⟨h.1, h.2.later a⟩
  · exact h

theorem Fits.later {context : Authentication} {f : InFlight} (h : Fits d s₀ as context f)
    (a : Action) : Fits d s₀ (as ++ [a]) context f := by
  unfold Fits at h ⊢
  split at h
  · exact h
  · exact h
  · exact PrincipalOf.later h a
  · exact ⟨h.1.later a, h.2⟩

theorem RunEarned.later {run : ToolRun} (h : RunEarned d s₀ as run) (a : Action) :
    RunEarned d s₀ (as ++ [a]) run := by
  obtain ⟨e, lookedUpAt, hlookedUp, hauth, hearned⟩ := h
  exact ⟨e, lookedUpAt, hlookedUp, hauth, hearned.later a⟩

/-- What a step leaves on a thread. -/
inductive Moves (d : Deployment) (s₀ : State) (as : List Action) (s s' : State) (t : Nat) :
    Prop where
  | stays (hthread : s'.threads t = s.threads t) (hcontext : s'.context t = s.context t)
  | ends (hthread : s'.threads t = none) (hcontext : s'.context t = .absent)
  | goesOn (f : InFlight) (hthread : s'.threads t = some f) (hfits : Fits d s₀ as (s'.context t) f)

/-- **One step.** The invariant follows from what the step does to each thread, to the cache and to
the list of the calls. -/
theorem Inv.step (h : Inv d s₀ as s) (hmoves : ∀ t, Moves d s₀ (as ++ [a]) s s' t)
    (hcached : ∀ c, s'.keys.cache = some c → WasTable d s₀ (as ++ [a]) s' c)
    (hruns : ∀ run ∈ s'.toolRuns, run ∈ s.toolRuns ∨ RunEarned d s₀ (as ++ [a]) run) :
    Inv d s₀ (as ++ [a]) s' := by
  refine ⟨?_, ?_, hcached, ?_⟩
  · intro t ht
    cases hmoves t with
    | stays hthread hcontext => exact hcontext.trans (h.idle t (hthread.symm.trans ht))
    | ends hthread hcontext => exact hcontext
    | goesOn f hthread hfits =>
        rw [hthread] at ht
        cases ht
  · intro t f hf
    cases hmoves t with
    | stays hthread hcontext =>
        rw [hcontext]
        exact (h.inFlight t f (hthread.symm.trans hf)).later a
    | ends hthread hcontext =>
        rw [hthread] at hf
        cases hf
    | goesOn f' hthread hfits =>
        rw [hthread] at hf
        cases hf
        exact hfits
  · intro run hrun
    rcases hruns run hrun with hold | hnew
    · exact (h.earned run hold).later a
    · exact hnew

/-! ## Threads -/

/-- A step of a thread moves no other. -/
theorem moves_of_update {t : Nat} {o : Option InFlight} {context : Authentication}
    (hthreads : s'.threads = Function.update s.threads t o)
    (hcontext : s'.context = Function.update s.context t context)
    (hnone : o = none → context = .absent) (hsome : ∀ f, o = some f → Fits d s₀ as context f) :
    ∀ t', Moves d s₀ as s s' t' := by
  intro t'
  by_cases ht : t' = t
  · subst ht
    have hthread : s'.threads t' = o := by rw [hthreads, Function.update_self]
    have hself : s'.context t' = context := by rw [hcontext, Function.update_self]
    cases o with
    | none => exact .ends hthread (hself.trans (hnone rfl))
    | some f =>
        refine .goesOn f hthread ?_
        rw [hself]
        exact hsome f rfl
  · refine .stays ?_ ?_
    · rw [hthreads, Function.update_of_ne ht]
    · rw [hcontext, Function.update_of_ne ht]

theorem moves_of_goOn {t : Nat} {f : InFlight}
    (hthreads : s'.threads = Function.update s.threads t (some f))
    (hcontext : s'.context = s.context) (hfits : Fits d s₀ as (s.context t) f) :
    ∀ t', Moves d s₀ as s s' t' := by
  have hsame : s'.context = Function.update s.context t (s.context t) := by
    rw [hcontext, Function.update_eq_self]
  refine moves_of_update hthreads hsame (fun h => nomatch h) ?_
  intro f' hf
  cases hf
  exact hfits

theorem moves_of_finish {t : Nat} (hthreads : s'.threads = Function.update s.threads t none)
    (hcontext : s'.context = Function.update s.context t .absent) : ∀ t', Moves d s₀ as s s' t' :=
  moves_of_update hthreads hcontext (fun _ => rfl) fun _ h => nomatch h

/-! ## The cache -/

theorem WasTable.later {c : List ApiKeyEntity × Nat} (h : WasTable d s₀ as s c)
    (hnow : s.keys.now ≤ s'.keys.now) (a : Action) : WasTable d s₀ (as ++ [a]) s' c :=
  ⟨Nat.le_trans h.1 hnow, h.2.later [a]⟩

/-- A lookup leaves a list that was once the table. -/
theorem wasTable_load (hrun : (http d).Steps anyStep s₀ as s) (h : Inv d s₀ as s)
    (hkeys : s'.keys = s.keys ∨ s'.keys = s.keys.load) (a : Action) :
    ∀ c, s'.keys.cache = some c → WasTable d s₀ (as ++ [a]) s' c := by
  intro c hc
  have hnow : s.keys.now ≤ s'.keys.now := by
    rcases hkeys with hkeys | hkeys <;> rw [hkeys]
    rw [KeyRepository.load_now]
  have hcase : s.keys.cache = some c ∨ c = (s.keys.table, s.keys.now) := by
    rcases hkeys with hkeys | hkeys
    · exact Or.inl (hkeys ▸ hc)
    · rw [hkeys] at hc
      unfold KeyRepository.load at hc
      split at hc
      · exact Or.inl hc
      · exact Or.inr (Option.some.inj hc).symm
  rcases hcase with hold | rfl
  · exact (h.cached c hold).later hnow a
  · exact ⟨hnow, (Once.now hrun ⟨rfl, rfl⟩).later [a]⟩

/-- Every row of the list was in the table less than the life of the cache ago. -/
theorem held_of_cachedKeys (hrun : (http d).Steps anyStep s₀ as s) (h : Inv d s₀ as s)
    {e : ApiKeyEntity} (he : e ∈ s.keys.cachedKeys) :
    (http d).Once s₀ as fun s₁ => e ∈ s₁.keys.table ∧ s₁.keys.now ≤ s.keys.now ∧
      s.keys.now < s₁.keys.now + keyCacheTtl := by
  unfold KeyRepository.cachedKeys at he
  cases hlive : s.keys.liveCache with
  | none =>
      rw [hlive] at he
      exact Once.now hrun ⟨he, Nat.le_refl _, Nat.lt_add_of_pos_right keyCacheTtl_pos⟩
  | some c =>
      rw [hlive] at he
      obtain ⟨hc, hfresh⟩ := Option.filter_eq_some_iff.mp hlive
      obtain ⟨hle, honce⟩ := h.cached c hc
      refine honce.mono ?_
      rintro s₁ ⟨htable, hnow⟩
      rw [htable, hnow]
      exact ⟨he, hle, of_decide_eq_true hfresh⟩

/-! ## The stages -/

section Stages

variable {t : Nat} {request : HttpRequest}

/-- A stage before the authorization finds no principal. -/
theorem inv_limit {now : Int} (h : Inv d s₀ as s) (habsent : s.context t = .absent) (a : Action) :
    Inv d s₀ (as ++ [a]) (s.limit d.maxRequestsPerWindow t request now) := by
  generalize hs' : s.limit d.maxRequestsPerWindow t request now = s'
  unfold State.limit at hs'
  dsimp only at hs'
  split at hs'
  · subst hs'
    exact h.step (moves_of_goOn rfl rfl habsent)
      (fun c hc => (h.cached c hc).later (Nat.le_refl _) a) fun run hrun => Or.inl hrun
  · subst hs'
    exact h.step (moves_of_finish rfl rfl)
      (fun c hc => (h.cached c hc).later (Nat.le_refl _) a) fun run hrun => Or.inl hrun

/-- **The filter** lets a request go on under the row it has shown the credential of. -/
theorem inv_check {env : Env} {lookedUp : Option (ApiKeyEntity × Nat)}
    (hrun : (http d).Steps anyStep s₀ as s) (h : Inv d s₀ as s)
    (hthread : s.threads t = some ⟨request, .apiKeyFilter, lookedUp⟩)
    (habsent : s.context t = .absent) :
    Inv d s₀ (as ++ [.check t env]) (s.check d.server env t request) := by
  generalize hs' : s.check d.server env t request = s'
  unfold State.check at hs'
  split_ifs at hs' with hchecked
  · generalize hfilter : doFilterInternal d.server s.keys request.credentials = r at hs'
    obtain ⟨out, keys⟩ := r
    have hkeys := doFilterInternal_keys hfilter
    cases out with
    | ok e =>
        obtain ⟨rfl, he, husable, hpresents⟩ := doFilterInternal_ok hfilter
        have hpassed : Passed d s₀ (as ++ [.check t env]) request e s.keys.now :=
          ⟨as, t, env, [], s, lookedUp, rfl, hrun, hthread, rfl, by rw [hfilter],
            held_of_cachedKeys hrun h he⟩
        subst hs'
        refine h.step ?_ (wasTable_load hrun h hkeys _) fun run hrun => Or.inl hrun
        refine moves_of_update rfl rfl (fun h => nomatch h) ?_
        intro f hf
        cases hf
        refine ⟨rfl, ?_⟩
        show Earned d s₀ _ request e s.keys.load.now
        rw [KeyRepository.load_now]
        exact ⟨hpresents, husable, hpassed⟩
    | error refusal =>
        subst hs'
        exact h.step (moves_of_finish rfl rfl) (wasTable_load hrun h hkeys _)
          fun run hrun => Or.inl hrun
  · subst hs'
    have hfits :
        Fits d s₀ (as ++ [.check t env]) (s.context t) ⟨request, .authorization, none⟩ := by
      rw [habsent]
      rfl
    exact h.step (moves_of_goOn rfl rfl hfits) (wasTable_load hrun h (Or.inl rfl) _)
      fun run hrun => Or.inl hrun

theorem orAnonymous_key? (auth : Authentication) : (orAnonymous auth).key? = auth.key? := by
  cases auth <;> rfl

theorem PrincipalOf.orAnonymous {auth : Authentication} {f : InFlight}
    (h : PrincipalOf d s₀ as auth f) : PrincipalOf d s₀ as (orAnonymous auth) f := by
  unfold PrincipalOf at h ⊢
  split at h
  · rw [h.1]
    exact ⟨rfl, h.2⟩
  · rw [orAnonymous_key?]
    exact h

theorem inv_authorize {f : InFlight} (hrun : (http d).Steps anyStep s₀ as s) (h : Inv d s₀ as s)
    (hprincipal : PrincipalOf d s₀ as (s.context t) f) (a : Action) :
    Inv d s₀ (as ++ [a]) (s.authorize t f) := by
  generalize hs' : s.authorize t f = s'
  unfold State.authorize at hs'
  dsimp only at hs'
  split_ifs at hs' with hpermitted
  · subst hs'
    refine h.step ?_ (wasTable_load hrun h (Or.inl rfl) a) fun run hrun => Or.inl hrun
    refine moves_of_update rfl rfl (fun h => nomatch h) ?_
    intro f' hf
    cases hf
    exact ⟨hprincipal.orAnonymous.later a, hpermitted⟩
  · subst hs'
    exact h.step (moves_of_finish rfl rfl) (wasTable_load hrun h (Or.inl rfl) a)
      fun run hrun => Or.inl hrun

/-- The MCP endpoint is not among the paths that are open. -/
theorem permitted_dispatched {auth : Authentication} {call : Env × ToolCall}
    (hcall : request.dispatched = some call) (h : permitted request auth = true) :
    ∃ key, auth = .apiKey key := by
  unfold HttpRequest.dispatched at hcall
  split_ifs at hcall with hmcp
  have hrule : authorizeHttpRequests.find? (fun rule => rule.1.matches request)
      = some (.anyRequest, .authenticated) := by
    simp [authorizeHttpRequests, Matcher.matches, hmcp, mcpEndpoint]
  unfold permitted at h
  rw [hrule] at h
  cases auth with
  | apiKey key => exact ⟨key, rfl⟩
  | absent => cases h
  | otherPrincipal => cases h

theorem inv_handle {f : InFlight} (hrun : (http d).Steps anyStep s₀ as s) (h : Inv d s₀ as s)
    (hprincipal : PrincipalOf d s₀ as (s.context t) f)
    (hpermitted : permitted f.request (s.context t) = true) (a : Action) :
    Inv d s₀ (as ++ [a]) (s.handle d.platform t f) := by
  generalize hs' : s.handle d.platform t f = s'
  unfold State.handle at hs'
  split at hs'
  · next env call hcall =>
    subst hs'
    refine h.step (moves_of_finish rfl rfl) (wasTable_load hrun h (Or.inl rfl) a) ?_
    intro run hrun
    rcases List.mem_append.mp hrun with hold | hnew
    · exact Or.inl hold
    · rw [List.mem_singleton] at hnew
      subst hnew
      right
      obtain ⟨key, hkey⟩ := permitted_dispatched hcall hpermitted
      unfold PrincipalOf at hprincipal
      split at hprincipal
      · next e lookedUpAt hlookedUp =>
        exact ⟨e, lookedUpAt, hlookedUp, hprincipal.1, hprincipal.2.later a⟩
      · rw [hkey] at hprincipal
        cases hprincipal
  · subst hs'
    exact h.step (moves_of_finish rfl rfl) (wasTable_load hrun h (Or.inl rfl) a)
      fun run hrun => Or.inl hrun

end Stages

/-! ## Runs -/

/-- A step of no thread. -/
theorem inv_elsewhere (h : Inv d s₀ as s) (hthreads : s'.threads = s.threads)
    (hcontext : s'.context = s.context) (hruns : s'.toolRuns = s.toolRuns)
    (hcache : s'.keys.cache = s.keys.cache ∨ s'.keys.cache = none)
    (hnow : s.keys.now ≤ s'.keys.now) : Inv d s₀ (as ++ [a]) s' := by
  refine h.step ?_ ?_ ?_
  · intro t
    exact .stays (by rw [hthreads]) (by rw [hcontext])
  · intro c hc
    rcases hcache with hcache | hcache
    · exact (h.cached c (hcache.symm.trans hc)).later hnow _
    · rw [hcache] at hc
      cases hc
  · intro run hrun
    exact Or.inl (hruns ▸ hrun)

theorem inv_step (hrun : (http d).Steps anyStep s₀ as s) (h : Inv d s₀ as s)
    (hst : (http d).step s a = some s') : Inv d s₀ (as ++ [a]) s' := by
  have hstep := hst
  unfold http at hstep
  cases a with
  | arrive t request =>
      dsimp only at hstep
      cases ht : s.threads t with
      | some f =>
          rw [ht] at hstep
          cases hstep
      | none =>
          rw [ht] at hstep
          cases hstep
          -- whichever filter comes first, nobody is authenticated yet
          have habsent := h.idle t ht
          refine h.step (moves_of_goOn rfl rfl ?_)
            (fun c hc => (h.cached c hc).later (Nat.le_refl _) _) fun run hrun => Or.inl hrun
          split_ifs <;> exact habsent
  | limit t =>
      dsimp only at hstep
      split at hstep
      · next request now lookedUp ht =>
        cases hstep
        exact inv_limit h (h.inFlight t _ ht) _
      · cases hstep
  | check t env =>
      dsimp only at hstep
      split at hstep
      · next request lookedUp ht =>
        cases hstep
        exact inv_check hrun h ht (h.inFlight t _ ht)
      · cases hstep
  | authorize t =>
      dsimp only at hstep
      split at hstep
      · next request lookedUp ht =>
        cases hstep
        exact inv_authorize hrun h (h.inFlight t _ ht) _
      · cases hstep
  | handle t =>
      dsimp only at hstep
      split at hstep
      · next request lookedUp ht =>
        cases hstep
        obtain ⟨hprincipal, hpermitted⟩ := h.inFlight t _ ht
        exact inv_handle hrun h hprincipal hpermitted _
      · cases hstep
  | change table =>
      -- the cache keeps the old list, which once was the table
      cases hstep
      exact inv_elsewhere h rfl rfl rfl (Or.inl rfl) (Nat.le_refl _)
  | invalidateCache =>
      cases hstep
      exact inv_elsewhere h rfl rfl rfl (Or.inr rfl) (Nat.le_refl _)
  | advance elapsed =>
      cases hstep
      exact inv_elsewhere h rfl rfl rfl (Or.inl rfl) (Nat.le_add_right _ _)
  | evict remoteAddr =>
      cases hstep
      exact inv_elsewhere h rfl rfl rfl (Or.inl rfl) (Nat.le_refl _)

theorem inv_run (hinit : (http d).init s₀) (hrun : (http d).Steps anyStep s₀ as s) :
    Inv d s₀ as s := by
  apply preserves_past (fun as s a s' hrun h hst => inv_step hrun h hst) hrun
  obtain ⟨hcache, -, hidle, hruns, -⟩ := hinit
  constructor
  · exact fun t _ => (hidle t).2
  · intro t f hf
    rw [(hidle t).1] at hf
    cases hf
  · intro c hc
    rw [hcache] at hc
    cases hc
  · intro run hrun
    rw [hruns] at hrun
    cases hrun

/-- **Calls are earned.** In every run, whatever else happens between the stages of a request, a
call runs under a row that was usable when its request showed the credential of it. The filter found
the row on the way, for this very request, and less than a minute before the table of this run held
it. Between requests a thread has no principal. -/
theorem tool_runs_earned (hinit : (http d).init s₀) (hrun : (http d).Steps anyStep s₀ as s) :
    (∀ t, s.threads t = none → s.context t = .absent) ∧
    ∀ run ∈ s.toolRuns, ∃ e lookedUpAt, run.lookedUp = some (e, lookedUpAt) ∧
      run.inv.auth = .apiKey e.apiKey ∧
      Presents d.server run.request.credentials lookedUpAt e.row ∧
      usable lookedUpAt e.row = true ∧ Passed d s₀ as run.request e lookedUpAt := by
  have hinv := inv_run hinit hrun
  refine ⟨hinv.idle, ?_⟩
  intro run hmem
  obtain ⟨e, lookedUpAt, hlookedUp, hauth, hearned⟩ := hinv.earned run hmem
  exact ⟨e, lookedUpAt, hlookedUp, hauth, hearned.presents, hearned.usable, hearned.passed⟩

/-! ## A call that runs -/

/-- With the key of a row, and room in its window, a request gets its call, and its thread is free
again. -/
theorem serves {t : Nat} {request : HttpRequest} {env : Env} {call : ToolCall} {e : ApiKeyEntity}
    (hidle : s.threads t = none) (hcall : request.dispatched = some (env, call))
    (hlimited : limited request = true) (hchecked : checked request = true)
    (hroom : (enterWindow d.maxRequestsPerWindow s.keys.currentTimeMillis
      (s.requestLog request.remoteAddr)).2 = .passed)
    (hkey : doFilterInternal d.server s.keys request.credentials = (.ok e, s.keys.load)) :
    ∃ s' as, (http d).Steps anyStep s as s' ∧
      s'.toolRuns = s.toolRuns ++ [⟨request, ⟨env, .apiKey e.apiKey, call⟩, some (e, s.keys.now)⟩] ∧
      s'.gateway = after d.platform ⟨env, .apiKey e.apiKey, call⟩ s.gateway ∧
      s'.keys = s.keys.load ∧ s'.threads t = none ∧
      s'.requestLog = Function.update s.requestLog request.remoteAddr
        (enterWindow d.maxRequestsPerWindow s.keys.currentTimeMillis
          (s.requestLog request.remoteAddr)).1 := by
  have hmcp : request.dispatcherType = .request ∧ request.path = mcpEndpoint := by
    unfold HttpRequest.dispatched at hcall
    split_ifs at hcall with h
    exact h
  have hpermitted : permitted request (.apiKey e.apiKey) = true := by
    simp [permitted, authorizeHttpRequests, Matcher.matches, Access.granted, Authentication.key?,
      hmcp, mcpEndpoint]
  let s₁ := s.goOn t request (.rateLimiter s.keys.currentTimeMillis) none
  have h₁ : (http d).step s (.arrive t request) = some s₁ := by
    simp [http, hidle, hlimited, s₁]
  let times := (enterWindow d.maxRequestsPerWindow s.keys.currentTimeMillis
    (s.requestLog request.remoteAddr)).1
  let log := Function.update s.requestLog request.remoteAddr times
  let s₂ := State.goOn { s₁ with requestLog := log } t request .apiKeyFilter none
  have h₂ : (http d).step s₁ (.limit t) = some s₂ := by
    simp [http, State.limit, State.goOn, hroom, s₁, s₂, log, times]
  let s₃ := State.authenticate { s₂ with keys := s.keys.load } t request e
  have h₃ : (http d).step s₂ (.check t env) = some s₃ := by
    simp [http, State.check, State.goOn, hchecked, hkey, s₁, s₂, s₃]
  let context := Function.update s₃.context t (.apiKey e.apiKey)
  let s₄ := State.goOn { s₃ with context := context } t request .handler (some (e, s.keys.now))
  have h₄ : (http d).step s₃ (.authorize t) = some s₄ := by
    simp [http, State.authorize, State.authenticate, State.goOn, orAnonymous, hpermitted, s₃, s₄, context]
  have h₅ : (http d).step s₄ (.handle t)
      = some (s₄.handle d.platform t ⟨request, .handler, some (e, s.keys.now)⟩) := by
    simp [http, State.goOn, s₄]
  refine ⟨_, _, .cons trivial h₁ (.cons trivial h₂ (.cons trivial h₃ (.cons trivial h₄
    (.cons trivial h₅ (.nil _))))), ?_, ?_, ?_, ?_, ?_⟩ <;>
    simp [State.handle, hcall, State.finish, State.goOn, State.authenticate, s₁, s₂, s₃, s₄,
      context, log, times]

theorem doFilterInternal_apiKey {server : Server} {s : KeyRepository} {rawKey : JString}
    {e : ApiKeyEntity} (hblank : isBlank rawKey = false) (hkeys : s.cachedKeys = [e])
    (husable : usable s.now e.row = true) (hhash : server.hasher.hash rawKey = e.row.keyHash) :
    doFilterInternal server s (apiKeyRequest rawKey) = (.ok e, s.load) := by
  have hraw : (notBlank (apiKeyRequest rawKey).apiKeyHeader).or
      (notBlank (apiKeyRequest rawKey).apiKeyParameter) = some rawKey := by
    simp [apiKeyRequest, notBlank, Option.filter, hblank]
  have hfound : findKey s (fun key => server.hasher.matchesHash rawKey key.keyHash) = some e := by
    simp [findKey, hkeys, husable, matchesHash_iff.mpr hhash]
  unfold doFilterInternal
  simp only [hraw, hfound]

def sampleDeployment : Deployment :=
  ⟨sampleServer sampleKeyDigest sampleTag rfl rfl, samplePlatform true, 60⟩

def sampleRawKey : JString := jstr "demo-readonly-key-0001"

def sampleEntity : ApiKeyEntity :=
  ⟨⟨sampleId 2, sampleDeployment.server.hasher.hash sampleRawKey, .readOnly, none, false, .active⟩,
    none, sampleId_version 2⟩

/-- A request for `list_sources`. -/
def sampleRequest : HttpRequest where
  dispatcherType := .request
  remoteAddr := "10.0.0.1"
  requestUri := "/mcp"
  path := "/mcp"
  credentials := apiKeyRequest sampleRawKey
  toolCall := some (calmEnv, .listSources)

/-- A server whose table has no key yet. -/
def sampleStart : State where
  keys := ⟨[], none, 0⟩
  requestLog _ := []
  gateway := noDocuments
  context _ := .absent
  threads _ := none
  toolRuns := []
  refusals := []

theorem sampleStart_init : (http sampleDeployment).init sampleStart :=
  ⟨rfl, ⟨rfl, rfl⟩, fun _ => ⟨rfl, rfl⟩, rfl, rfl⟩

/-- The call of the sample request, looked up at a time. -/
def sampleRun (lookedUpAt : Nat) : ToolRun :=
  ⟨sampleRequest, ⟨calmEnv, .apiKey sampleEntity.apiKey, .listSources⟩,
    some (sampleEntity, lookedUpAt)⟩

theorem sample_key {s : State} (hkeys : s.keys.cachedKeys = [sampleEntity]) :
    doFilterInternal sampleDeployment.server s.keys sampleRequest.credentials
      = (.ok sampleEntity, s.keys.load) := by
  have hblank : isBlank sampleRawKey = false := by decide
  exact doFilterInternal_apiKey hblank hkeys rfl rfl

/-- The row is added, a request gets its call, the row is deleted, and half a minute later the
request gets another one, from the cache. -/
theorem sample_serves : ∃ s as, (http sampleDeployment).Steps anyStep sampleStart as s ∧
    s.toolRuns = [sampleRun 0, sampleRun 30000000000] ∧
    s.gateway = after sampleDeployment.platform (sampleRun 0).inv
      (after sampleDeployment.platform (sampleRun 0).inv noDocuments) := by
  have hlimited : limited sampleRequest = true := by decide
  have hchecked : checked sampleRequest = true := by decide
  let added := { sampleStart with keys := ⟨[sampleEntity], none, 0⟩ }
  have hadd : (http sampleDeployment).step sampleStart (.change [sampleEntity]) = some added := rfl
  obtain ⟨s₁, as₁, hsteps₁, hruns₁, hgateway₁, hkeys₁, hidle₁, hlog₁⟩ :=
    serves (d := sampleDeployment) (s := added) (t := 7) rfl rfl hlimited hchecked (by decide)
      (sample_key rfl)
  let deleted := { s₁ with keys := { s₁.keys with table := [] } }
  let later := { deleted with keys := { deleted.keys with now := deleted.keys.now + 30000000000 } }
  have hdelete : (http sampleDeployment).step s₁ (.change []) = some deleted := rfl
  have hwait : (http sampleDeployment).step deleted (.advance 30000000000) = some later := rfl
  have hkeys : later.keys = ⟨[], some ([sampleEntity], 0), 30000000000⟩ := by
    have hload : added.keys.load = ⟨[sampleEntity], some ([sampleEntity], 0), 0⟩ := rfl
    simp only [later, deleted, hkeys₁, hload, Nat.zero_add]
  have hroom : (enterWindow sampleDeployment.maxRequestsPerWindow later.keys.currentTimeMillis
      (later.requestLog sampleRequest.remoteAddr)).2 = .passed := by
    have hlog : later.requestLog = s₁.requestLog := rfl
    rw [hkeys, hlog, hlog₁, Function.update_self]
    decide
  obtain ⟨s₂, as₂, hsteps₂, hruns₂, hgateway₂, -⟩ :=
    serves (d := sampleDeployment) (s := later) (t := 7) hidle₁ rfl hlimited hchecked hroom
      (sample_key (by rw [hkeys]; rfl))
  refine ⟨s₂, _, (Steps.cons trivial hadd hsteps₁).append
    (.cons trivial hdelete (.cons trivial hwait hsteps₂)), ?_, ?_⟩
  · have hruns : later.toolRuns = s₁.toolRuns := rfl
    rw [hruns₂, hruns, hruns₁, hkeys]
    rfl
  · have hgateway : later.gateway = s₁.gateway := rfl
    rw [hgateway₂, hgateway, hgateway₁]
    rfl

/-- The second call is under the key it has shown, although the table no longer has the row. -/
theorem sample_earned : ∃ (s : State) (as : List Action),
    (http sampleDeployment).Steps anyStep sampleStart as s ∧
    sampleRun 30000000000 ∈ s.toolRuns ∧
    Presents sampleDeployment.server sampleRequest.credentials 30000000000 sampleEntity.row ∧
    Passed sampleDeployment sampleStart as sampleRequest sampleEntity 30000000000 := by
  obtain ⟨s, as, hrun, hruns, -⟩ := sample_serves
  have hmem : sampleRun 30000000000 ∈ s.toolRuns := by
    rw [hruns]
    exact List.mem_cons_of_mem _ List.mem_cons_self
  obtain ⟨e, lookedUpAt, hlookedUp, -, hpresents, -, hpassed⟩ :=
    (tool_runs_earned sampleStart_init hrun).2 _ hmem
  cases hlookedUp
  exact ⟨s, as, hrun, hmem, hpresents, hpassed⟩

end McpGateway.Http
