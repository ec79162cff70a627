import McpGateway.Vault.Workspaces

/-! # Concurrent calls on one value

The module doc of the vault says two concurrent calls for the same value *both converge on the same
token*. `convergence_iff` says when they do: every answer given so far is one and the same `Ok`
exactly when the cipher worked for every call and no statement of the run was `Disturbed`, that is,
finished over a row that some other call had inserted after the statement took its snapshot.

* `Racing` — what holds along every run of calls for one key in a vault only their workspace uses.
* `Racing.finish_ok_iff` — the step that decides. -/

namespace McpGateway.Vault

open Foundation

variable {v : PiiVault}

/-- Calls that have not sent anything yet, over the given tables. -/
def launch (v : PiiVault) (db : VaultDb) (reqs : List Request) : State :=
  ⟨db, reqs.map v.begin⟩

/-- Every answer given so far is the same `Ok`. -/
def Converged (s : State) : Prop :=
  ∃ t, ∀ c ∈ s.calls, ∀ res, c.phase = .answered res → res = .ok t

/-- Some call was answered with an error. -/
def Failed (s : State) : Prop :=
  ∃ c ∈ s.calls, ∃ e, c.phase = .answered (.error e)

/-- The step does not finish a statement whose snapshot misses a row that is there by now, and the
counter of its workspace and kind is not exhausted. -/
def Undisturbed (v : PiiVault) (s : State) : Action → Prop
  | .finish i => ∀ c, s.calls[i]? = some c → ∀ ct snapshot, c.phase = .running ct snapshot →
      (snapshot.find (v.keyOf c.req) ≠ none ∨ s.db.map.find (v.keyOf c.req) = none) ∧
        CounterLeft s.db c.req.workspaceId c.req.kind
  | _ => True

/-! ## What holds along such a run -/

/-- All calls ask for one key, and no other workspace has a row. -/
structure Racing (v : PiiVault) (key : Key) (s : State) : Prop where
  inv : Inv v s
  keys : ∀ c ∈ s.calls, v.keyOf c.req = key
  alone : ∀ r ∈ s.db.map.rows, r.key.workspaceId = key.workspaceId

theorem Racing.launch {key : Key} {db : VaultDb} {reqs : List Request} (hi : DbInv db)
    (halone : ∀ r ∈ db.map.rows, r.key.workspaceId = key.workspaceId)
    (hkeys : ∀ req ∈ reqs, v.keyOf req = key) : Racing v key (launch v db reqs) := by
  have hphase : ∀ c ∈ (Vault.launch v db reqs).calls, ∃ req ∈ reqs, c = v.begin req := by
    intro c hc
    obtain ⟨req, hreq, rfl⟩ := List.mem_map.mp hc
    exact ⟨req, hreq, rfl⟩
  refine ⟨⟨hi, ?_, ?_⟩, ?_, halone⟩
  · intro c hc ct snapshot hp
    obtain ⟨req, -, rfl⟩ := hphase c hc
    unfold PiiVault.begin at hp
    cases hct : v.ciphertext req <;> simp [hct] at hp
  · intro c hc t hp
    obtain ⟨req, -, rfl⟩ := hphase c hc
    unfold PiiVault.begin at hp
    cases hct : v.ciphertext req <;> simp [hct] at hp
  · intro c hc
    obtain ⟨req, hreq, rfl⟩ := hphase c hc
    exact hkeys req hreq

theorem Racing.setPhase_keys {key : Key} {s : State} (hr : Racing v key s) {i : Nat} {c : Call}
    (hc : s.calls[i]? = some c) (p : Phase) :
    ∀ d ∈ (s.setPhase i c p).calls, v.keyOf d.req = key := by
  intro d hd
  rcases State.mem_setPhase hd with hd | rfl
  · exact hr.keys d hd
  · exact hr.keys c (List.mem_of_getElem? hc)

/-- The rows a statement adds are for its own key. -/
theorem cteUpsert_new_rows (snapshot : TokenMap) (db : VaultDb) (key : Key) (ct : Bytes) :
    ∀ r ∈ (cteUpsert snapshot db key ct).2.map.rows, r ∈ db.map.rows ∨ r.key = key := by
  intro r hr
  rcases cteUpsert_cases snapshot db key ct with ⟨e, he, -⟩ |
    ⟨cur, counter, map, -, -, hrows, he⟩ | ⟨cur, counter, -, -, he⟩
  · rw [he] at hr
    exact .inl hr
  · rw [he] at hr
    replace hr : r ∈ map.rows := hr
    rw [hrows, List.mem_append, List.mem_singleton] at hr
    rcases hr with hr | rfl
    · exact .inl hr
    · exact .inr rfl
  · rw [he] at hr
    exact .inl hr

theorem Racing.step {key : Key} {s s' : State} {a : Action} (hr : Racing v key s)
    (ha : queryStep s a) (h : step v s a = some s') : Racing v key s' := by
  have hinv : Inv v s' := hr.inv.step h
  cases a with
  | lookup i =>
      obtain ⟨c, ct, hc, -, h⟩ := step_lookup_inv h
      rcases h with ⟨row, -, rfl⟩ | ⟨-, rfl⟩ <;>
        exact ⟨hinv, hr.setPhase_keys hc _, hr.alone⟩
  | start i =>
      obtain ⟨c, ct, hc, -, rfl⟩ := step_start_inv h
      exact ⟨hinv, hr.setPhase_keys hc _, hr.alone⟩
  | finish i =>
      obtain ⟨c, ct, snapshot, hc, -, rfl⟩ := step_finish_inv h
      refine ⟨hinv, hr.setPhase_keys hc _, ?_⟩
      intro r hmem
      rcases cteUpsert_new_rows _ _ _ _ r hmem with hmem | hkey
      · exact hr.alone r hmem
      · rw [hkey, hr.keys c (List.mem_of_getElem? hc)]
  | call req => exact absurd ha id
  | abort i => exact absurd ha id
  | lost i => exact absurd ha id

/-- **The step that decides.** -/
theorem Racing.finish_ok_iff {key : Key} {s : State} (hr : Racing v key s) {i : Nat} {c : Call}
    {ct : Bytes} {snapshot : TokenMap} (hc : s.calls[i]? = some c)
    (hp : c.phase = .running ct snapshot) :
    (∃ t, (cteUpsert snapshot s.db (v.keyOf c.req) ct).1 = .ok t) ↔
      Undisturbed v s (.finish i) := by
  have hown : OwnKind s.db (v.keyOf c.req).workspaceId (v.keyOf c.req).entityKind := by
    intro r hmem _
    rw [hr.alone r hmem, hr.keys c (List.mem_of_getElem? hc)]
  rw [cteUpsert_ok_iff hr.inv.db hown]
  constructor
  · intro h d hd ct' snapshot' hp'
    rw [hc] at hd
    cases hd
    rw [hp] at hp'
    cases hp'
    exact h
  · intro h
    exact h c hc ct snapshot hp

/-! ## Errors stay -/

/-- An answered call is never touched again. -/
theorem step_answered {s s' : State} {a : Action} (h : step v s a = some s') {c : Call}
    (hc : c ∈ s.calls) {res : Except VaultError String} (hp : c.phase = .answered res) :
    c ∈ s'.calls := by
  have hset : ∀ (i : Nat) (d : Call) (p : Phase), s.calls[i]? = some d →
      d.phase ≠ .answered res → c ∈ (s.setPhase i d p).calls := by
    intro i d p hd hne
    obtain ⟨j, hj⟩ := List.mem_iff_getElem?.mp hc
    have hij : i ≠ j := by
      rintro rfl
      rw [hd] at hj
      cases hj
      exact hne hp
    apply List.mem_iff_getElem?.mpr
    refine ⟨j, ?_⟩
    show (s.calls.set i _)[j]? = some c
    rw [List.getElem?_set_ne hij, hj]
  cases a with
  | call req =>
      cases Option.some.inj h
      exact List.mem_append_left _ hc
  | lookup i =>
      obtain ⟨d, ct, hd, hpd, h⟩ := step_lookup_inv h
      rcases h with ⟨row, -, rfl⟩ | ⟨-, rfl⟩ <;> exact hset i d _ hd (by simp [hpd])
  | start i =>
      obtain ⟨d, ct, hd, hpd, rfl⟩ := step_start_inv h
      exact hset i d _ hd (by simp [hpd])
  | finish i =>
      obtain ⟨d, ct, snapshot, hd, hpd, rfl⟩ := step_finish_inv h
      exact hset i d _ hd (by simp [hpd])
  | abort i =>
      obtain ⟨d, hd, hpd, rfl⟩ := step_abort_inv h
      exact hset i d _ hd (hpd res)
  | lost i =>
      obtain ⟨d, ct, snapshot, hd, hpd, rfl⟩ := step_lost_inv h
      exact hset i d _ hd (by simp [hpd])

theorem steps_failed {C : State → Action → Prop} {s s' : State} {as : List Action}
    (h : (vaultSystem v).Steps C s as s') (hs : Failed s) : Failed s' := by
  refine h.preserves (P := Failed) ?_ hs
  rintro s a s' ⟨c, hc, e, hp⟩ - hst
  exact ⟨c, step_answered hst hc hp, e, hp⟩

theorem Converged.not_failed {s : State} (h : Converged s) : ¬ Failed s := by
  obtain ⟨t, ht⟩ := h
  rintro ⟨c, hc, e, hp⟩
  cases ht c hc _ hp

/-- Along one key, the `Ok` answers agree: they are all the token of its row. -/
theorem Racing.converged {key : Key} {s : State} (hr : Racing v key s) (hs : ¬ Failed s) :
    Converged s := by
  by_cases hsome : ∃ c ∈ s.calls, ∃ t, c.phase = .answered (.ok t)
  · obtain ⟨c, hc, t, ht⟩ := hsome
    obtain ⟨r, hmem, hkey, rfl⟩ := hr.inv.answers c hc t ht
    refine ⟨r.token, ?_⟩
    intro d hd res hres
    cases res with
    | error e => exact absurd ⟨d, hd, e, hres⟩ hs
    | ok t' =>
        obtain ⟨r', hmem', hkey', rfl⟩ := hr.inv.answers d hd t' hres
        have hrow : r' = r := by
          apply TokenMap.eq_of_key hmem' hmem
          rw [hkey', hkey, hr.keys d hd, hr.keys c hc]
        rw [hrow]
  · refine ⟨"", ?_⟩
    intro d hd res hres
    cases res with
    | error e => exact absurd ⟨d, hd, e, hres⟩ hs
    | ok t => exact absurd ⟨d, hd, t, hres⟩ hsome

/-! ## One step, then the run -/

/-- **One step.** It makes the first error exactly when it is a disturbed `finish`. -/
theorem Racing.step_failed_iff {key : Key} {s s' : State} {a : Action} (hr : Racing v key s)
    (hs : ¬ Failed s) (ha : queryStep s a) (h : Vault.step v s a = some s') :
    ¬ Failed s' ↔ Undisturbed v s a := by
  -- only an answer with an error makes a failure
  have hset : ∀ (i : Nat) (c : Call) (p : Phase) (db : VaultDb),
      (∀ e, p ≠ .answered (.error e)) → ¬ Failed { s.setPhase i c p with db := db } := by
    rintro i c p db hp ⟨d, hd, e, he⟩
    rcases State.mem_setPhase hd with hd | rfl
    · exact hs ⟨d, hd, e, he⟩
    · exact hp e he
  cases a with
  | lookup i =>
      obtain ⟨c, ct, -, -, h⟩ := step_lookup_inv h
      refine ⟨fun _ => trivial, fun _ => ?_⟩
      rcases h with ⟨row, -, rfl⟩ | ⟨-, rfl⟩
      · exact hset i c _ s.db (by simp)
      · exact hset i c _ s.db (by simp)
  | start i =>
      obtain ⟨c, ct, -, -, rfl⟩ := step_start_inv h
      exact ⟨fun _ => trivial, fun _ => hset i c _ s.db (by simp)⟩
  | finish i =>
      obtain ⟨c, ct, snapshot, hc, hp, rfl⟩ := step_finish_inv h
      rw [← hr.finish_ok_iff hc hp]
      cases hres : (cteUpsert snapshot s.db (v.keyOf c.req) ct).1 with
      | ok t =>
          refine ⟨fun _ => ⟨t, rfl⟩, fun _ => ?_⟩
          apply hset
          intro e
          simp [vaultResult]
      | error e =>
          constructor
          · intro hnot
            refine absurd ⟨{ c with phase := .answered (.error .db) }, ?_, .db, rfl⟩ hnot
            have hi : i < s.calls.length := (List.getElem?_eq_some_iff.mp hc).1
            exact List.mem_iff_getElem?.mpr ⟨i, by simp [State.setPhase, hi, vaultResult]⟩
          · rintro ⟨t, ht⟩
            cases ht
  | call req => exact absurd ha id
  | abort i => exact absurd ha id
  | lost i => exact absurd ha id

/-- **The run.** No call has failed exactly when no step was a disturbed `finish`. -/
theorem Racing.steps_failed_iff {key : Key} {s s' : State} {as : List Action}
    (hrun : (vaultSystem v).Steps queryStep s as s') (hr : Racing v key s) (hs : ¬ Failed s) :
    (¬ Failed s' ↔ (vaultSystem v).Steps (Undisturbed v) s as s') ∧ Racing v key s' := by
  induction hrun with
  | nil s => exact ⟨⟨fun _ => .nil s, fun _ => hs⟩, hr⟩
  | @cons s s₁ s' a as ha hst hrest ih =>
      have hone := hr.step_failed_iff hs ha hst
      by_cases hf : Failed s₁
      · -- the error stays until the end, and the step that made it was disturbed
        have hend : Failed s' := steps_failed hrest hf
        have hdist : ¬ Undisturbed v s a := fun hu => hone.mpr hu hf
        refine ⟨⟨fun h => absurd hend h, ?_⟩, ?_⟩
        · intro h
          cases h with
          | cons hu _ _ => exact absurd hu hdist
        · exact hrest.preserves (P := Racing v key) (fun _ _ _ hp hq hst => hp.step hq hst)
            (hr.step ha hst)
      · obtain ⟨hiff, hr'⟩ := ih (hr.step ha hst) hf
        refine ⟨?_, hr'⟩
        rw [hiff]
        constructor
        · intro h
          exact .cons (hone.mp hf) hst h
        · intro h
          cases h with
          | cons _ hst' h =>
              rw [hst] at hst'
              cases hst'
              exact h

/-! ## Every call is answered

A call takes at most three steps and is never blocked, so a run in which the database stays
reachable ends, and when it can go no further every call has its answer. -/

/-- The steps a call may still take. -/
def Phase.left : Phase → Nat
  | .started _ => 3
  | .missed _ => 2
  | .running _ _ => 1
  | .answered _ => 0

def callsLeft : List Call → Nat
  | [] => 0
  | c :: calls => c.phase.left + callsLeft calls

theorem callsLeft_set {calls : List Call} {i : Nat} {c : Call} (hc : calls[i]? = some c)
    (d : Call) : callsLeft (calls.set i d) + c.phase.left = callsLeft calls + d.phase.left := by
  induction calls generalizing i with
  | nil => cases hc
  | cons b calls ih =>
      cases i with
      | zero =>
          cases hc
          simp only [List.set_cons_zero, callsLeft]
          omega
      | succ i =>
          have := ih hc
          simp only [List.set_cons_succ, callsLeft]
          omega

theorem step_left {s s' : State} {a : Action} (ha : queryStep s a) (h : step v s a = some s') :
    callsLeft s'.calls < callsLeft s.calls := by
  have hset : ∀ (i : Nat) (c : Call) (p : Phase), s.calls[i]? = some c →
      p.left < c.phase.left → callsLeft (s.setPhase i c p).calls < callsLeft s.calls := by
    intro i c p hc hlt
    have := callsLeft_set hc { c with phase := p }
    show callsLeft (s.calls.set i _) < _
    simp only at this
    omega
  cases a with
  | lookup i =>
      obtain ⟨c, ct, hc, hp, h⟩ := step_lookup_inv h
      rcases h with ⟨row, -, rfl⟩ | ⟨-, rfl⟩
      · exact hset i c _ hc (by simp [hp, Phase.left])
      · exact hset i c _ hc (by simp [hp, Phase.left])
  | start i =>
      obtain ⟨c, ct, hc, hp, rfl⟩ := step_start_inv h
      exact hset i c _ hc (by simp [hp, Phase.left])
  | finish i =>
      obtain ⟨c, ct, snapshot, hc, hp, rfl⟩ := step_finish_inv h
      exact hset i c _ hc (by simp [hp, Phase.left])
  | call req => exact absurd ha id
  | abort i => exact absurd ha id
  | lost i => exact absurd ha id

theorem steps_length {s s' : State} {as : List Action}
    (h : (vaultSystem v).Steps queryStep s as s') :
    as.length + callsLeft s'.calls ≤ callsLeft s.calls := by
  induction h with
  | nil s => simp
  | cons ha hst _ ih =>
      have := step_left ha hst
      simp only [List.length_cons]
      omega

theorem launch_left (v : PiiVault) (db : VaultDb) (reqs : List Request) :
    callsLeft (launch v db reqs).calls ≤ 3 * reqs.length := by
  induction reqs with
  | nil => exact Nat.le_refl 0
  | cons req reqs ih =>
      have hone : (v.begin req).phase.left ≤ 3 := by
        unfold PiiVault.begin
        cases v.ciphertext req <;> simp [Phase.left]
      have hsum : callsLeft (launch v db (req :: reqs)).calls
          = (v.begin req).phase.left + callsLeft (launch v db reqs).calls := rfl
      simp only [hsum, List.length_cons]
      omega

/-- A call without an answer has a step to take. -/
theorem step_enabled {s : State} {c : Call} (hc : c ∈ s.calls)
    (hp : ∀ res, c.phase ≠ .answered res) : ∃ a s', queryStep s a ∧ step v s a = some s' := by
  obtain ⟨i, hi⟩ := List.mem_iff_getElem?.mp hc
  cases hph : c.phase with
  | started ct =>
      cases hf : s.db.map.find (v.keyOf c.req) with
      | none => exact ⟨.lookup i, _, trivial, by simp [step, hi, hph, hf]; rfl⟩
      | some row => exact ⟨.lookup i, _, trivial, by simp [step, hi, hph, hf]; rfl⟩
  | missed ct => exact ⟨.start i, _, trivial, by simp [step, hi, hph]; rfl⟩
  | running ct snapshot => exact ⟨.finish i, _, trivial, by simp [step, hi, hph]; rfl⟩
  | answered res => exact absurd hph (hp res)

/-! ## Convergence -/

theorem launch_failed_iff (v : PiiVault) (db : VaultDb) (reqs : List Request) :
    ¬ Failed (launch v db reqs) ↔ ∀ req ∈ reqs, ∃ ct, v.ciphertext req = .ok ct := by
  constructor
  · intro h req hreq
    cases hct : v.ciphertext req with
    | ok ct => exact ⟨ct, rfl⟩
    | error e =>
        refine absurd ⟨v.begin req, List.mem_map_of_mem hreq, e, ?_⟩ h
        simp [PiiVault.begin, hct]
  · rintro h ⟨c, hc, e, hp⟩
    obtain ⟨req, hreq, rfl⟩ := List.mem_map.mp hc
    obtain ⟨ct, hct⟩ := h req hreq
    simp [PiiVault.begin, hct] at hp

/-- **When concurrent calls converge.** Calls on one workspace, kind and value are launched over a
reachable vault that only this workspace uses, and run in any interleaving while the database stays
reachable. The answers given so far are one and the same `Ok` exactly when the cipher worked for
every call and every step of the run was `Undisturbed`. The run takes at most three steps a call,
and when it can go no further every call is answered. -/
theorem convergence_iff (v : PiiVault) {s₀ : State} (h₀ : (vaultSystem v).Reachable s₀)
    {w : Uuid} {kind : EntityKind} {raw : String}
    (halone : ∀ r ∈ s₀.db.map.rows, r.key.workspaceId = w) {reqs : List Request}
    (hreqs : ∀ req ∈ reqs, req.workspaceId = w ∧ req.kind = kind ∧ req.raw = raw)
    {as : List Action} {s : State}
    (hrun : (vaultSystem v).Steps queryStep (launch v s₀.db reqs) as s) :
    (Converged s ↔ (∀ req ∈ reqs, ∃ ct, v.ciphertext req = .ok ct) ∧
      (vaultSystem v).Steps (Undisturbed v) (launch v s₀.db reqs) as s) ∧
    as.length ≤ 3 * reqs.length ∧
    ((∀ a, queryStep s a → step v s a = none) → ∀ c ∈ s.calls, ∃ res, c.phase = .answered res) := by
  refine ⟨?_, ?_, ?_⟩
  · -- all the calls race for one key
    let key := v.keyOf ⟨w, kind, raw, []⟩
    have hkeys : ∀ req ∈ reqs, v.keyOf req = key := by
      intro req hreq
      obtain ⟨rfl, rfl, rfl⟩ := hreqs req hreq
      rfl
    have hr₀ : Racing v key (launch v s₀.db reqs) :=
      Racing.launch (inv_of_reachable h₀).db halone hkeys
    rw [← launch_failed_iff]
    constructor
    · intro hconv
      have hlaunch : ¬ Failed (launch v s₀.db reqs) :=
        fun hf => hconv.not_failed (steps_failed hrun hf)
      exact ⟨hlaunch, (hr₀.steps_failed_iff hrun hlaunch).1.mp hconv.not_failed⟩
    · rintro ⟨hlaunch, hsteps⟩
      obtain ⟨hiff, hr⟩ := hr₀.steps_failed_iff hrun hlaunch
      exact hr.converged (hiff.mpr hsteps)
  · have hlen := steps_length hrun
    have hstart := launch_left v s₀.db reqs
    omega
  · intro hstuck c hc
    by_contra hpending
    push Not at hpending
    obtain ⟨a, s', ha, hst⟩ := step_enabled (v := v) hc hpending
    rw [hstuck a ha] at hst
    cases hst

/-- Two calls for one address, the second one after the first has finished. -/
theorem calls_in_turn_converge : ∃ s,
    (vaultSystem sampleVault).Steps (Undisturbed sampleVault)
      (launch sampleVault VaultDb.empty [emailRequest 1 "a@b.fr" 1, emailRequest 1 "a@b.fr" 2])
      [.lookup 0, .start 0, .finish 0, .lookup 1] s ∧ Converged s := by
  let r₁ := emailRequest 1 "a@b.fr" 1
  let r₂ := emailRequest 1 "a@b.fr" 2
  have hrun : ((vaultSystem sampleVault).run (launch sampleVault VaultDb.empty [r₁, r₂])
      [.lookup 0, .start 0, .finish 0, .lookup 1]).map (fun s => s.calls.map Call.answer)
      = some [some (some "PII_EMAIL_1"), some (some "PII_EMAIL_1")] := by decide
  obtain ⟨s, hs, hans⟩ := Option.map_eq_some_iff.mp hrun
  have hsteps := (System.steps_of_run hs).restrict (D := queryStep) (by simp [queryStep])
  have hconv : Converged s := by
    refine ⟨"PII_EMAIL_1", ?_⟩
    intro c hc res hres
    have hmem : c.answer ∈ s.calls.map Call.answer := List.mem_map_of_mem hc
    rw [hans] at hmem
    have hok : c.phase = .answered (.ok "PII_EMAIL_1") := Call.answer_ok (by simpa using hmem)
    rw [hres] at hok
    exact Phase.answered.inj hok
  have hinit : (vaultSystem sampleVault).Reachable ⟨VaultDb.empty, []⟩ := System.Reachable.init rfl
  have hreqs : ∀ req ∈ [r₁, r₂],
      req.workspaceId = Uuid.ofDigit 1 ∧ req.kind = .email ∧ req.raw = "a@b.fr" := by
    simp [r₁, r₂, emailRequest]
  have hiff := (convergence_iff sampleVault hinit (by simp [VaultDb.empty]) hreqs hsteps).1
  exact ⟨s, (hiff.mp hconv).2, hconv⟩

/-- Two calls for one address, side by side: the one that loses the race is answered an error. -/
theorem concurrent_calls_diverge : ¬ ∀ (v : PiiVault) (s₀ : State) (w : Uuid) (kind : EntityKind)
    (raw : String) (reqs : List Request) (as : List Action) (s : State),
    (vaultSystem v).Reachable s₀ → (∀ r ∈ s₀.db.map.rows, r.key.workspaceId = w) →
    (∀ req ∈ reqs, req.workspaceId = w ∧ req.kind = kind ∧ req.raw = raw) →
    (∀ req ∈ reqs, ∃ ct, v.ciphertext req = .ok ct) →
    (vaultSystem v).Steps queryStep (launch v s₀.db reqs) as s → Converged s := by
  intro hclaim
  let r₁ := emailRequest 1 "a@b.fr" 1
  let r₂ := emailRequest 1 "a@b.fr" 2
  have hrun : ((vaultSystem sampleVault).run (launch sampleVault VaultDb.empty [r₁, r₂])
      [.lookup 0, .lookup 1, .start 0, .start 1, .finish 0, .finish 1]).map
        (fun s => s.calls.map Call.answer)
      = some [some (some "PII_EMAIL_1"), some none] := by decide
  obtain ⟨s, hs, hans⟩ := Option.map_eq_some_iff.mp hrun
  have hsteps := (System.steps_of_run hs).restrict (D := queryStep) (by simp [queryStep])
  have hinit : (vaultSystem sampleVault).Reachable ⟨VaultDb.empty, []⟩ := System.Reachable.init rfl
  have hct : ∀ req ∈ [r₁, r₂], ∃ ct, sampleVault.ciphertext req = .ok ct := by
    intro req hreq
    have hsome : ∀ req ∈ [r₁, r₂], (sampleVault.ciphertext req).toOption.isSome := by decide
    exact exists_ok_of_isSome (hsome req hreq)
  have hconv := hclaim sampleVault _ (Uuid.ofDigit 1) .email "a@b.fr" [r₁, r₂] _ s hinit
    (by simp [VaultDb.empty]) (by simp [r₁, r₂, emailRequest]) hct hsteps
  have hmem : some none ∈ s.calls.map Call.answer := by simp [hans]
  obtain ⟨c, hc, hans⟩ := List.mem_map.mp hmem
  obtain ⟨e, he⟩ := Call.answer_error hans
  exact hconv.not_failed ⟨c, hc, e, he⟩

end McpGateway.Vault
