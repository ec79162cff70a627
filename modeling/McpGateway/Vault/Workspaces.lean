import McpGateway.Vault.Invariant

/-! # Tokenization across workspaces

`pii_token_counter` numbers tokens per workspace and kind, but `pii_token_map.token` is a primary
key of the whole table and the token text does not name the workspace. `tokenize_ok_iff` says
exactly when a call that runs alone gets a token: the value is already in the vault, or no other
workspace has a token of that kind.

* `cteUpsert_ok_iff` — when the statement succeeds, while one workspace owns the kind.
* `cteUpsert_foreign` — it fails for every new value of a kind some other workspace owns.
* `tokenize_run` — `tokenize` is what the concurrent system does when one call runs alone. -/

namespace McpGateway.Vault

open Foundation

variable {v : PiiVault}

/-- Every row of the kind belongs to this workspace. -/
def OwnKind (db : VaultDb) (w : Uuid) (k : EntityKind) : Prop :=
  ∀ r ∈ db.map.rows, r.key.entityKind = k → r.key.workspaceId = w

/-- The counter still has numbers to give. -/
def CounterLeft (db : VaultDb) (w : Uuid) (k : EntityKind) : Prop :=
  ∀ n, db.counter w k = some n → n < bigintMax

/-- In its own kind a workspace never meets the primary key: the number it draws is in no row. -/
theorem DbInv.own_no_clash {db : VaultDb} (hi : DbInv db) {w : Uuid} {k : EntityKind}
    (hown : OwnKind db w k) {cur : Nat} {counter : TokenCounter}
    (hb : bump db.counter w k = .ok (cur, counter)) :
    ∀ r ∈ db.map.rows, r.token ≠ tokenText k cur := by
  intro r hr ht
  obtain ⟨-, hcur⟩ := bump_cases hb
  obtain ⟨n, i, hn, -, hin, htok⟩ := hi.minted r hr
  obtain ⟨hk, rfl⟩ := tokenText_inj (htok.symm.trans ht)
  rw [hown r hr hk, hk] at hn
  rcases hcur with ⟨hnone, -⟩ | ⟨hsome, -⟩
  · rw [hnone] at hn
    cases hn
  · rw [hsome] at hn
    cases hn
    omega

theorem counterLeft_of_bump {db : VaultDb} {w : Uuid} {k : EntityKind} {cur : Nat}
    {counter : TokenCounter} (hb : bump db.counter w k = .ok (cur, counter)) :
    CounterLeft db w k := by
  intro n hn
  obtain ⟨-, ⟨hnone, -⟩ | ⟨hsome, hmax⟩⟩ := bump_cases hb
  · rw [hnone] at hn
    cases hn
  · rw [hsome] at hn
    cases hn
    exact hmax

/-- **When the statement returns a token.** Its `SELECT` has to see the row, unless the statement
mints the row itself. -/
theorem cteUpsert_ok_iff {db : VaultDb} (hi : DbInv db) {key : Key}
    (hown : OwnKind db key.workspaceId key.entityKind) (snapshot : TokenMap) (ct : Bytes) :
    (∃ t, (cteUpsert snapshot db key ct).1 = .ok t) ↔
      (snapshot.find key ≠ none ∨ db.map.find key = none) ∧
        CounterLeft db key.workspaceId key.entityKind := by
  rcases cteUpsert_cases snapshot db key ct with ⟨e, he, hwhy⟩ |
    ⟨cur, counter, map, hb, hfind, -, he⟩ | ⟨cur, counter, hb, hfind, he⟩
  · constructor
    · rintro ⟨t, ht⟩
      rw [he] at ht
      cases ht
    · rintro ⟨-, hleft⟩
      -- the counter has run out, or another row has the token
      rcases hwhy with ⟨n, hn, hmax⟩ | ⟨-, cur, counter, hb, r, hr, ht⟩
      · have := hleft n hn
        omega
      · exact absurd ht (hi.own_no_clash hown hb r hr)
  · have hleft := counterLeft_of_bump hb
    constructor
    · intro _
      exact ⟨.inr hfind, hleft⟩
    · intro _
      exact ⟨tokenText key.entityKind cur, by rw [he]⟩
  · have hleft := counterLeft_of_bump hb
    cases hs : snapshot.find key with
    | none =>
        rw [he, hs]
        constructor
        · rintro ⟨t, ht⟩
          cases ht
        · rintro ⟨h | h, -⟩
          · exact absurd rfl h
          · exact absurd h hfind
    | some row =>
        rw [he, hs]
        constructor
        · intro _
          exact ⟨.inl (by simp), hleft⟩
        · intro _
          exact ⟨row.token, rfl⟩

/-- **A kind another workspace owns.** A value without a row draws number 1 of its own counter, and
that token is taken. -/
theorem cteUpsert_foreign {db : VaultDb} (hi : DbInv db) {key : Key} {r : TokenRow}
    (hr : r ∈ db.map.rows) (hkind : r.key.entityKind = key.entityKind)
    (hws : r.key.workspaceId ≠ key.workspaceId) (snapshot : TokenMap) (ct : Bytes)
    (hfind : db.map.find key = none) : ∃ e, (cteUpsert snapshot db key ct).1 = .error e := by
  obtain ⟨n, i, hn, -, -, -⟩ := hi.minted r hr
  rw [hkind] at hn
  rcases cteUpsert_cases snapshot db key ct with ⟨e, he, -⟩ | ⟨cur, counter, map, hb, -, -, he⟩ |
    ⟨cur, counter, -, hne, -⟩
  · exact ⟨e, by rw [he]⟩
  · obtain ⟨-, ⟨-, rfl⟩ | ⟨hsome, -⟩⟩ := bump_cases hb
    · -- the insert would have met the first token of the kind
      obtain ⟨r₁, hr₁, -, -, ht₁⟩ := hi.first _ _ _ hn
      have hclash : ¬ ∀ r' ∈ db.map.rows, r'.token ≠ tokenText key.entityKind 1 := by
        intro h
        exact h r₁ hr₁ ht₁
      refine ⟨.uniqueViolation, ?_⟩
      simp only [cteUpsert, hb]
      rw [TokenMap.ins_clash (r := ⟨tokenText key.entityKind 1, key, ct⟩) hfind hclash]
    · exact absurd (hi.one_workspace hn hsome) hws
  · exact absurd hfind hne

/-! ## A call that runs alone -/

/-- When `tokenize` gets a token: the cipher works, and the value has a row already or its kind is
free for this workspace and its counter is not exhausted. -/
def Tokenizable (v : PiiVault) (db : VaultDb) (req : Request) : Prop :=
  (∃ ct, v.ciphertext req = .ok ct) ∧
    (db.map.find (v.keyOf req) ≠ none ∨
      OwnKind db req.workspaceId req.kind ∧ CounterLeft db req.workspaceId req.kind)

theorem upsert_ok_iff {db : VaultDb} (hi : DbInv db) (key : Key) (ct : Bytes) :
    (∃ t, (upsert db key ct).1 = .ok t) ↔
      db.map.find key ≠ none ∨ OwnKind db key.workspaceId key.entityKind ∧
        CounterLeft db key.workspaceId key.entityKind := by
  cases hf : db.map.find key with
  | some row => simp [upsert, hf]
  | none =>
      have hres : (upsert db key ct).1 = vaultResult (cteUpsert db.map db key ct).1 := by
        simp [upsert, hf]
      have hok : (∃ t, (upsert db key ct).1 = .ok t) ↔
          ∃ t, (cteUpsert db.map db key ct).1 = .ok t := by
        rw [hres]
        constructor
        · rintro ⟨t, ht⟩
          exact ⟨t, vaultResult_eq_ok ht⟩
        · rintro ⟨t, ht⟩
          exact ⟨t, by rw [ht]; rfl⟩
      rw [hok]
      by_cases hown : OwnKind db key.workspaceId key.entityKind
      · rw [cteUpsert_ok_iff hi hown]
        simp [hf, hown]
      · simp only [hown, false_and, or_false, ne_eq, not_true, iff_false]
        unfold OwnKind at hown
        push Not at hown
        obtain ⟨r, hr, hkind, hws⟩ := hown
        obtain ⟨e, he⟩ := cteUpsert_foreign hi hr hkind hws db.map ct hf
        rintro ⟨t, ht⟩
        rw [he] at ht
        cases ht

/-- A token never looks like the placeholder of `render_token`. -/
theorem tokenText_ne_placeholder (k k' : EntityKind) (n : Nat) :
    tokenText k n ≠ "[PII:" ++ k'.asLabel ++ "]" := by
  intro h
  have := congrArg String.toList h
  simp [tokenText] at this

/-- An `Ok` of `tokenize` is a token text. -/
theorem tokenize_ok_text {db : VaultDb} (hi : DbInv db) {req : Request} {t : String}
    (h : (v.tokenize db req).1 = .ok t) : ∃ k n, t = tokenText k n := by
  unfold PiiVault.tokenize at h
  cases hct : v.ciphertext req with
  | error e =>
      rw [hct] at h
      cases h
  | ok ct =>
      rw [hct] at h
      cases hf : db.map.find (v.keyOf req) with
      | some row =>
          simp only [upsert, hf] at h
          cases h
          obtain ⟨-, i, -, -, -, ht⟩ := hi.minted row (TokenMap.find_eq_some.mp hf).1
          exact ⟨_, i, ht⟩
      | none =>
          simp only [upsert, hf] at h
          obtain ⟨r, hr, -, rfl⟩ := cteUpsert_ok (List.Subset.refl _) (vaultResult_eq_ok h)
          obtain ⟨-, i, -, -, -, ht⟩ := (hi.cteUpsert _ _ _).minted r hr
          exact ⟨_, i, ht⟩

/-- **When tokenization works.** In every reachable state, a call that runs alone returns a token
exactly when its value is `Tokenizable`, and `render_token` falls back to the placeholder exactly
when it is not. -/
theorem tokenize_ok_iff (v : PiiVault) {s : State} (hr : (vaultSystem v).Reachable s)
    (req : Request) :
    ((∃ t, (v.tokenize s.db req).1 = .ok t) ↔ Tokenizable v s.db req) ∧
    (v.renderToken s.db req = "[PII:" ++ req.kind.asLabel ++ "]" ↔ ¬ Tokenizable v s.db req) := by
  have hi : DbInv s.db := (inv_of_reachable hr).db
  have hok : (∃ t, (v.tokenize s.db req).1 = .ok t) ↔ Tokenizable v s.db req := by
    unfold PiiVault.tokenize Tokenizable
    cases hct : v.ciphertext req with
    | error e => simp
    | ok ct =>
        simp only [Except.ok.injEq, exists_eq', true_and]
        exact upsert_ok_iff hi (v.keyOf req) ct
  refine ⟨hok, ?_⟩
  rw [← hok]
  unfold PiiVault.renderToken
  cases hres : (v.tokenize s.db req).1 with
  | error e => simp
  | ok t =>
      obtain ⟨k, n, rfl⟩ := tokenize_ok_text hi hres
      simp [tokenText_ne_placeholder]

/-- Beside a row of another workspace and kind a call gets its token, and so does a call for a value
that has a row. -/
theorem tokenize_ok_beside : ∃ s, (vaultSystem sampleVault).Reachable s ∧
    s.db.map.rows.map (fun r => (r.key.workspaceId, r.key.entityKind))
      = [(Uuid.ofDigit 1, .email)] ∧
    (∃ t, (sampleVault.tokenize s.db
      ⟨Uuid.ofDigit 2, .phone, "+33612345678", List.replicate 12 5⟩).1 = .ok t) ∧
    ∃ t, (sampleVault.tokenize s.db (emailRequest 1 "a@b.fr" 2)).1 = .ok t := by
  let phone : Request := ⟨Uuid.ofDigit 2, .phone, "+33612345678", List.replicate 12 5⟩
  let again := emailRequest 1 "a@b.fr" 2
  have hrun : ((vaultSystem sampleVault).run ⟨VaultDb.empty, []⟩
      [.call (emailRequest 1 "a@b.fr" 1), .lookup 0, .start 0, .finish 0]).map
        (fun s => (s.db.map.rows.map fun r => (r.key.workspaceId, r.key.entityKind),
          s.db.counter (Uuid.ofDigit 2) .phone, (s.db.map.find (sampleVault.keyOf again)).isSome))
      = some ([(Uuid.ofDigit 1, .email)], none, true) := by decide
  obtain ⟨s, hs, hend⟩ := Option.map_eq_some_iff.mp hrun
  simp only [Prod.mk.injEq] at hend
  obtain ⟨hrows, hcounter, hfound⟩ := hend
  have hreach : (vaultSystem sampleVault).Reachable s := ⟨_, _, rfl, System.steps_of_run hs⟩
  refine ⟨s, hreach, hrows, ?_, ?_⟩
  · have hct : ∃ ct, sampleVault.ciphertext phone = .ok ct := exists_ok_of_isSome (by decide)
    refine (tokenize_ok_iff sampleVault hreach phone).1.mpr ⟨hct, Or.inr ⟨?_, ?_⟩⟩
    · -- the only row there is of another kind
      intro r hr hkind
      have hmem := List.mem_map_of_mem (f := fun r => (r.key.workspaceId, r.key.entityKind)) hr
      rw [hrows, List.mem_singleton, Prod.mk.injEq, hkind] at hmem
      cases hmem.2
    · intro n hn
      have hnone : s.db.counter (Uuid.ofDigit 2) .phone = some n := hn
      rw [hcounter] at hnone
      cases hnone
  · have hct : ∃ ct, sampleVault.ciphertext again = .ok ct := exists_ok_of_isSome (by decide)
    refine (tokenize_ok_iff sampleVault hreach again).1.mpr ⟨hct, Or.inl ?_⟩
    exact Option.isSome_iff_ne_none.mp hfound

/-- One address in one workspace, and every other workspace is shut out of the kind. -/
theorem tokenize_second_workspace_fails : ¬ ∀ (v : PiiVault) (s : State) (req : Request),
    (vaultSystem v).Reachable s → (∃ ct, v.ciphertext req = .ok ct) →
      (∃ t, (v.tokenize s.db req).1 = .ok t) ∧
        v.renderToken s.db req ≠ "[PII:" ++ req.kind.asLabel ++ "]" := by
  intro hclaim
  let first := emailRequest 1 "a@b.fr" 1
  let second := emailRequest 2 "c@d.fr" 4
  have hrun : ((vaultSystem sampleVault).run ⟨VaultDb.empty, []⟩
      [.call first, .lookup 0, .start 0, .finish 0]).map
        (fun s => sampleVault.renderToken s.db second) = some "[PII:EMAIL]" := by decide
  obtain ⟨s, hs, hplaceholder⟩ := Option.map_eq_some_iff.mp hrun
  have hreach : (vaultSystem sampleVault).Reachable s :=
    ⟨_, _, rfl, System.steps_of_run hs⟩
  have hct : ∃ ct, sampleVault.ciphertext second = .ok ct := exists_ok_of_isSome (by decide)
  exact (hclaim sampleVault s second hreach hct).2 hplaceholder

/-! ## The concurrent system with one call -/

@[simp] theorem State.setPhase_last (db : VaultDb) (calls : List Call) (c : Call) (p : Phase) :
    (State.mk db (calls ++ [c])).setPhase calls.length c p
      = ⟨db, calls ++ [{ c with phase := p }]⟩ := by
  simp [State.setPhase]

/-- **`tokenize` is the concurrent system run on one call**: from any state the new call can be
taken to its answer without a step of any other call, and the tables and the answer are those of
`tokenize`. -/
theorem tokenize_run (v : PiiVault) (s : State) (req : Request) :
    ∃ as, (vaultSystem v).Steps System.anyStep s as
      ⟨(v.tokenize s.db req).2, s.calls ++ [⟨req, .answered (v.tokenize s.db req).1⟩]⟩ := by
  let i := s.calls.length
  cases hct : v.ciphertext req with
  | error e =>
      refine ⟨[.call req], System.Steps.single trivial ?_⟩
      simp [vaultSystem, step, PiiVault.begin, PiiVault.tokenize, hct]
  | ok ct =>
      have hbegin : v.begin req = ⟨req, .started ct⟩ := by simp [PiiVault.begin, hct]
      cases hf : s.db.map.find (v.keyOf req) with
      | some row =>
          refine ⟨[.call req, .lookup i], System.steps_of_run ?_⟩
          simp [System.run, vaultSystem, step, hbegin, hf, PiiVault.tokenize, upsert, hct, i]
      | none =>
          refine ⟨[.call req, .lookup i, .start i, .finish i], System.steps_of_run ?_⟩
          simp [System.run, vaultSystem, step, hbegin, hf, PiiVault.tokenize, upsert, hct, i]

end McpGateway.Vault
