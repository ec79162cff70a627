import McpGateway.Vault.Invariant

/-! # Tokens are stable and injective

`tokens_stable_and_injective`: in every reachable state of the concurrent vault, failed calls
included, rows are unique per key, an `Ok` answer stays the token of its row forever, two different
values never share a token, and every counter is past the numbers in use. -/

namespace McpGateway.Vault

open Foundation

variable {v : PiiVault}

/-- What a call asks for: workspace, kind and normalized value. -/
def PiiVault.triple (v : PiiVault) (req : Request) : Uuid × EntityKind × String :=
  (req.workspaceId, req.kind, v.normalized req)

/-- The message `lookup_hash` builds for a request. -/
def PiiVault.message (v : PiiVault) (req : Request) : Bytes :=
  hashMessage req.kind (v.normalized req)

/-- HMAC-SHA256 under a workspace key does not collide on the messages these requests build. -/
def CollisionFree (v : PiiVault) (reqs : List Request) : Prop :=
  ∀ r ∈ reqs, ∀ r' ∈ reqs,
    v.crates.hmacSha256 (v.deriveWorkspaceKey r.workspaceId) (v.message r)
      = v.crates.hmacSha256 (v.deriveWorkspaceKey r.workspaceId) (v.message r') →
    v.message r = v.message r'

/-- Without collisions the row key determines what was asked for. -/
theorem CollisionFree.triple_eq {reqs : List Request} (hcol : CollisionFree v reqs)
    {r r' : Request} (hr : r ∈ reqs) (hr' : r' ∈ reqs) (hkey : v.keyOf r = v.keyOf r') :
    v.triple r = v.triple r' := by
  have hw : r.workspaceId = r'.workspaceId := congrArg Key.workspaceId hkey
  have hhash : v.crates.hmacSha256 (v.deriveWorkspaceKey r.workspaceId) (v.message r)
      = v.crates.hmacSha256 (v.deriveWorkspaceKey r.workspaceId) (v.message r') := by
    have := congrArg Key.lookupHash hkey
    simp only [PiiVault.keyOf, PiiVault.lookupHash, ← hw] at this
    exact this
  obtain ⟨hkind, hval⟩ := hashMessage_inj (hcol r hr r' hr' hhash)
  unfold PiiVault.triple
  rw [hw, hkind, hval]

/-- An answer given once is the token of its row in every later state. -/
theorem Inv.answer_row {s s' : State} (hi : Inv v s) {as : List Action} {C : State → Action → Prop}
    (hrun : (vaultSystem v).Steps C s as s') {c : Call} (hc : c ∈ s.calls) {t : String}
    (ht : c.phase = .answered (.ok t)) :
    ∃ row, s'.db.map.find (v.keyOf c.req) = some row ∧ row.token = t := by
  obtain ⟨r, hr, hkey, htok⟩ := hi.answers c hc t ht
  exact ⟨r, TokenMap.find_eq_some.mpr ⟨steps_rows hrun hr, hkey⟩, htok⟩

theorem tokens_stable_and_injective (v : PiiVault) {s : State}
    (hr : (vaultSystem v).Reachable s) (hcol : CollisionFree v (s.calls.map Call.req)) :
    (s.db.map.rows.map TokenRow.key).Nodup ∧
    (∀ c ∈ s.calls, ∀ t, c.phase = .answered (.ok t) →
      ∀ as s', (vaultSystem v).Steps System.anyStep s as s' →
        ∃ row, s'.db.map.find (v.keyOf c.req) = some row ∧ row.token = t) ∧
    (∀ c ∈ s.calls, ∀ c' ∈ s.calls, ∀ t t', c.phase = .answered (.ok t) →
      c'.phase = .answered (.ok t') → v.triple c.req ≠ v.triple c'.req → t ≠ t') ∧
    (∀ row ∈ s.db.map.rows, ∀ i, row.token = tokenText row.key.entityKind i →
      ∃ n, s.db.counter row.key.workspaceId row.key.entityKind = some n ∧ i < n) := by
  have hi : Inv v s := inv_of_reachable hr
  refine ⟨s.db.map.key_unique, ?_, ?_, ?_⟩
  · intro c hc t ht as s' hrun
    exact hi.answer_row hrun hc ht
  · intro c hc c' hc' t t' ht ht' hne heq
    obtain ⟨r, hmem, hkey, rfl⟩ := hi.answers c hc t ht
    obtain ⟨r', hmem', hkey', rfl⟩ := hi.answers c' hc' t' ht'
    -- the token is the primary key, so both calls were answered from one row
    have hrow : r = r' := TokenMap.eq_of_token hmem hmem' heq
    subst hrow
    exact hne (hcol.triple_eq (List.mem_map_of_mem hc) (List.mem_map_of_mem hc')
      (hkey.symm.trans hkey'))
  · intro row hrow i ht
    obtain ⟨n, j, hn, -, hjn, htj⟩ := hi.db.minted row hrow
    obtain ⟨-, rfl⟩ := tokenText_inj (ht.symm.trans htj)
    exact ⟨n, hn, hjn⟩

/-- Two addresses of one workspace, tokenized one after the other. -/
theorem tokens_of_two_addresses : ∃ s, (vaultSystem sampleVault).Reachable s ∧
    s.calls.map Call.answer = [some (some "PII_EMAIL_1"), some (some "PII_EMAIL_2")] ∧
    (s.db.map.rows.map TokenRow.key).Nodup ∧
    ∀ c ∈ s.calls, ∀ c' ∈ s.calls, ∀ t t', c.phase = .answered (.ok t) →
      c'.phase = .answered (.ok t') →
      sampleVault.triple c.req ≠ sampleVault.triple c'.req → t ≠ t' := by
  let r₁ := emailRequest 1 "a@b.fr" 1
  let r₂ := emailRequest 1 "c@d.fr" 3
  have hrun : ((vaultSystem sampleVault).run ⟨VaultDb.empty, []⟩
      [.call r₁, .lookup 0, .start 0, .finish 0, .call r₂, .lookup 1, .start 1, .finish 1]).map
        (fun s => (s.calls.map Call.req, s.calls.map Call.answer))
      = some ([r₁, r₂], [some (some "PII_EMAIL_1"), some (some "PII_EMAIL_2")]) := by decide
  obtain ⟨s, hs, hcalls⟩ := Option.map_eq_some_iff.mp hrun
  obtain ⟨hreqs, hans⟩ := Prod.mk.inj hcalls
  have hreach : (vaultSystem sampleVault).Reachable s := ⟨_, _, rfl, System.steps_of_run hs⟩
  have hcol : CollisionFree sampleVault (s.calls.map Call.req) := by
    rw [hreqs]
    unfold CollisionFree
    decide
  obtain ⟨hkeys, -, hdistinct, -⟩ := tokens_stable_and_injective sampleVault hreach hcol
  exact ⟨s, hreach, hans, hkeys, hdistinct⟩

end McpGateway.Vault
