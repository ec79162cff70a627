import McpGateway.Foundation.Separator
import McpGateway.Vault.Concurrency

/-! # The vault invariant

What ties the counter, the map and the answers together in every reachable state:

* `DbInv.minted` — a row carries a number below its own counter, and the token text of that number.
* `DbInv.first` — a workspace that has a counter for a kind owns the token number 1 of that kind.
  Token texts do not name the workspace, so this is what keeps every other workspace out.
* `Inv.answers` — every `Ok` ever returned is the token of the row its call asked for.

`Inv` is proved for one statement first (`DbInv.cteUpsert`), then for one step and for every run. -/

namespace McpGateway.Vault

open Foundation

/-! ## Texts decode in one way -/

theorem EntityKind.asLabel_injective {k k' : EntityKind} (h : k.asLabel = k'.asLabel) : k = k' := by
  revert h
  cases k <;> cases k' <;> decide

/-- The decimal digits of a number determine it. -/
theorem repr_inj {m n : Nat} (h : m.repr.toList = n.repr.toList) : m = n := by
  rw [Nat.toList_repr, Nat.toList_repr] at h
  have hm := Nat.ofDigitChars_ten_toDigits (n := m)
  rw [h, Nat.ofDigitChars_ten_toDigits] at hm
  exact hm.symm

/-- A token determines its kind and its number. -/
theorem tokenText_inj {k k' : EntityKind} {n n' : Nat} (h : tokenText k n = tokenText k' n') :
    k = k' ∧ n = n' := by
  have hlists : k.asLabel.toList ++ '_' :: n.repr.toList
      = k'.asLabel.toList ++ '_' :: n'.repr.toList := by
    have := congrArg String.toList h
    simpa [tokenText] using this
  have hlabel : ∀ k : EntityKind, '_' ∉ k.asLabel.toList := by
    intro k
    cases k <;> decide
  obtain ⟨hk, hn⟩ := append_cons_inj (hlabel k) (hlabel k') hlists
  exact ⟨EntityKind.asLabel_injective (String.toList_inj.mp hk), repr_inj hn⟩

/-- The message under the MAC determines the kind and the value: no label contains a colon. -/
theorem hashMessage_inj {k k' : EntityKind} {s t : String}
    (h : hashMessage k s = hashMessage k' t) : k = k' ∧ s = t := by
  have hcolon : asBytes ":" = [58] := by decide
  have hlists : asBytes k.asLabel ++ 58 :: asBytes s = asBytes k'.asLabel ++ 58 :: asBytes t := by
    simpa [hashMessage, hcolon] using h
  have hlabel : ∀ k : EntityKind, (58 : UInt8) ∉ asBytes k.asLabel := by
    intro k
    cases k <;> decide
  obtain ⟨hk, hst⟩ := append_cons_inj (hlabel k) (hlabel k') hlists
  exact ⟨EntityKind.asLabel_injective (asBytes_injective hk), asBytes_injective hst⟩

/-! ## The tables -/

structure DbInv (db : VaultDb) : Prop where
  minted : ∀ r ∈ db.map.rows, ∃ n i, db.counter r.key.workspaceId r.key.entityKind = some n ∧
    1 ≤ i ∧ i < n ∧ r.token = tokenText r.key.entityKind i
  first : ∀ w k n, db.counter w k = some n → ∃ r ∈ db.map.rows,
    r.key.workspaceId = w ∧ r.key.entityKind = k ∧ r.token = tokenText k 1

theorem DbInv.empty : DbInv VaultDb.empty where
  minted := by
    intro r hr
    cases hr
  first := by
    intro w k n h
    cases h

/-- A counter that exists is past its first number. -/
theorem DbInv.two_le {db : VaultDb} (hi : DbInv db) {w : Uuid} {k : EntityKind} {n : Nat}
    (h : db.counter w k = some n) : 2 ≤ n := by
  obtain ⟨r, hr, rfl, rfl, -⟩ := hi.first w k n h
  obtain ⟨n', i, hn', hi1, hin, -⟩ := hi.minted r hr
  rw [h] at hn'
  cases hn'
  omega

/-- Only one workspace has a counter for a kind. -/
theorem DbInv.one_workspace {db : VaultDb} (hi : DbInv db) {w w' : Uuid} {k : EntityKind} {n n' : Nat}
    (h : db.counter w k = some n) (h' : db.counter w' k = some n') : w = w' := by
  obtain ⟨r, hr, rfl, -, ht⟩ := hi.first w k n h
  obtain ⟨r', hr', rfl, -, ht'⟩ := hi.first w' k n' h'
  have : r = r' := TokenMap.eq_of_token hr hr' (ht.trans ht'.symm)
  rw [this]

@[simp] theorem TokenCounter.set_self (c : TokenCounter) (w : Uuid) (k : EntityKind) (n : Nat) :
    c.set w k n w k = some n := by
  simp [TokenCounter.set]

theorem TokenCounter.set_of_ne {c : TokenCounter} {w w' : Uuid} {k k' : EntityKind} {n : Nat}
    (h : ¬ (w' = w ∧ k' = k)) : c.set w k n w' k' = c w' k' := by
  unfold TokenCounter.set
  rw [if_neg h]

/-- A bump never lowers a counter that some row depends on. -/
theorem DbInv.bump_le {db : VaultDb} {w w' : Uuid} {k k' : EntityKind} {cur n : Nat}
    {counter : TokenCounter} (hb : bump db.counter w k = .ok (cur, counter))
    (hn : db.counter w' k' = some n) : ∃ n', counter w' k' = some n' ∧ n ≤ n' := by
  obtain ⟨rfl, hcur⟩ := bump_cases hb
  by_cases h : w' = w ∧ k' = k
  · obtain ⟨rfl, rfl⟩ := h
    refine ⟨cur + 1, TokenCounter.set_self _ _ _ _, ?_⟩
    rcases hcur with ⟨hnone, -⟩ | ⟨hsome, -⟩
    · rw [hnone] at hn
      cases hn
    · rw [hsome] at hn
      cases hn
      omega
  · exact ⟨n, by rw [TokenCounter.set_of_ne h, hn], Nat.le_refl n⟩

/-- A bump leaves the other counters. -/
theorem bump_other {c c' : TokenCounter} {w w' : Uuid} {k k' : EntityKind} {cur : Nat}
    (hb : bump c w k = .ok (cur, c')) (h : ¬ (w' = w ∧ k' = k)) : c' w' k' = c w' k' := by
  rw [(bump_cases hb).1, TokenCounter.set_of_ne h]

/-- After a bump the rows still have numbers below the counter. -/
theorem DbInv.minted_bump {db : VaultDb} (hi : DbInv db) {w : Uuid} {k : EntityKind} {cur : Nat}
    {counter : TokenCounter} (hb : bump db.counter w k = .ok (cur, counter)) {r : TokenRow}
    (hr : r ∈ db.map.rows) :
    ∃ n i, counter r.key.workspaceId r.key.entityKind = some n ∧ 1 ≤ i ∧ i < n ∧
      r.token = tokenText r.key.entityKind i := by
  obtain ⟨n, i, hn, hi1, hin, ht⟩ := hi.minted r hr
  obtain ⟨n', hn', hle⟩ := DbInv.bump_le hb hn
  exact ⟨n', i, hn', hi1, Nat.lt_of_lt_of_le hin hle, ht⟩

/-- The number that is given out is positive. -/
theorem DbInv.bump_pos {db : VaultDb} (hi : DbInv db) {w : Uuid} {k : EntityKind} {cur : Nat}
    {counter : TokenCounter} (hb : bump db.counter w k = .ok (cur, counter)) : 1 ≤ cur := by
  rcases (bump_cases hb).2 with ⟨-, rfl⟩ | ⟨hsome, -⟩
  · exact Nat.le_refl 1
  · exact Nat.le_of_succ_le (hi.two_le hsome)

/-- The statement only adds rows. -/
theorem cteUpsert_subset (snapshot : TokenMap) (db : VaultDb) (key : Key) (ct : Bytes) :
    db.map.rows ⊆ (cteUpsert snapshot db key ct).2.map.rows := by
  intro r hr
  rcases cteUpsert_cases snapshot db key ct with ⟨e, he, -⟩ | ⟨cur, counter, map, -, -, hrows, he⟩ |
    ⟨cur, counter, -, -, he⟩
  · rwa [he]
  · rw [he]
    show r ∈ map.rows
    rw [hrows]
    exact List.mem_append_left _ hr
  · rwa [he]

/-- **One statement keeps the tables consistent.** -/
theorem DbInv.cteUpsert {db : VaultDb} (hi : DbInv db) (snapshot : TokenMap) (key : Key)
    (ct : Bytes) : DbInv (cteUpsert snapshot db key ct).2 := by
  rcases cteUpsert_cases snapshot db key ct with ⟨e, he, -⟩ |
    ⟨cur, counter, map, hb, hfind, hrows, he⟩ | ⟨cur, counter, hb, hfind, he⟩
  · rwa [he]
  · rw [he]
    obtain ⟨hset, hcur⟩ := bump_cases hb
    constructor
    · intro r hr
      replace hr : r ∈ map.rows := hr
      rw [hrows, List.mem_append, List.mem_singleton] at hr
      rcases hr with hr | rfl
      · exact hi.minted_bump hb hr
      · refine ⟨cur + 1, cur, ?_, hi.bump_pos hb, Nat.lt_succ_self cur, rfl⟩
        show counter _ _ = _
        rw [hset]
        exact TokenCounter.set_self _ _ _ _
    · intro w k n hn
      show ∃ r ∈ map.rows, _
      rw [hrows]
      by_cases h : w = key.workspaceId ∧ k = key.entityKind
      · obtain ⟨rfl, rfl⟩ := h
        rcases hcur with ⟨-, rfl⟩ | ⟨hsome, -⟩
        · exact ⟨_, List.mem_append_right _ List.mem_cons_self, rfl, rfl, rfl⟩
        · obtain ⟨r, hr, hrest⟩ := hi.first _ _ _ hsome
          exact ⟨r, List.mem_append_left _ hr, hrest⟩
      · obtain ⟨r, hr, hrest⟩ := hi.first w k n ((bump_other hb h).symm.trans hn)
        exact ⟨r, List.mem_append_left _ hr, hrest⟩
  · rw [he]
    constructor
    · exact fun r hr => hi.minted_bump hb hr
    · intro w k n hn
      show ∃ r ∈ db.map.rows, _
      by_cases h : w = key.workspaceId ∧ k = key.entityKind
      · obtain ⟨rfl, rfl⟩ := h
        -- the key is taken, so its workspace already has a counter
        obtain ⟨row, hrow⟩ := Option.ne_none_iff_exists'.mp hfind
        obtain ⟨hmem, hkey⟩ := TokenMap.find_eq_some.mp hrow
        obtain ⟨m, i, hm, -⟩ := hi.minted row hmem
        rw [hkey] at hm
        exact hi.first _ _ _ hm
      · exact hi.first w k n ((bump_other hb h).symm.trans hn)

/-- What an `Ok` of the statement returns is the token of the row of its key. -/
theorem cteUpsert_ok {snapshot : TokenMap} {db : VaultDb} {key : Key} {ct : Bytes} {t : String}
    (hsnap : snapshot.rows ⊆ db.map.rows) (h : (cteUpsert snapshot db key ct).1 = .ok t) :
    ∃ r ∈ (cteUpsert snapshot db key ct).2.map.rows, r.key = key ∧ r.token = t := by
  rcases cteUpsert_cases snapshot db key ct with ⟨e, he, -⟩ | ⟨cur, counter, map, -, -, hrows, he⟩ |
    ⟨cur, counter, -, -, he⟩
  · rw [he] at h
    cases h
  · rw [he] at h ⊢
    cases h
    refine ⟨⟨tokenText key.entityKind cur, key, ct⟩, ?_, rfl, rfl⟩
    show _ ∈ map.rows
    rw [hrows]
    exact List.mem_append_right _ List.mem_cons_self
  · rw [he] at h ⊢
    cases hf : snapshot.find key with
    | none =>
        rw [hf] at h
        cases h
    | some row =>
        rw [hf] at h
        cases h
        obtain ⟨hmem, hkey⟩ := TokenMap.find_eq_some.mp hf
        exact ⟨row, hsnap hmem, hkey, rfl⟩

theorem vaultResult_eq_ok {res : Except SqlError String} {t : String}
    (h : vaultResult res = .ok t) : res = .ok t := by
  cases res with
  | ok t' => exact congrArg Except.ok (Except.ok.inj h)
  | error e => cases h

/-! ## The whole state -/

variable {v : PiiVault}

structure Inv (v : PiiVault) (s : State) : Prop where
  db : DbInv s.db
  snapshots : ∀ c ∈ s.calls, ∀ ct snapshot, c.phase = .running ct snapshot →
    snapshot.rows ⊆ s.db.map.rows
  answers : ∀ c ∈ s.calls, ∀ t, c.phase = .answered (.ok t) →
    ∃ r ∈ s.db.map.rows, r.key = v.keyOf c.req ∧ r.token = t

theorem Inv.init : Inv v ⟨VaultDb.empty, []⟩ where
  db := DbInv.empty
  snapshots := by simp
  answers := by simp

/-- A phase change keeps the invariant when the new phase meets its own part of it; the rows may
only grow. -/
theorem Inv.setPhase {s : State} (hi : Inv v s) {i : Nat} {c : Call} {p : Phase} {db : VaultDb}
    (hdb : DbInv db) (hsub : s.db.map.rows ⊆ db.map.rows)
    (hsnap : ∀ ct snapshot, p = .running ct snapshot → snapshot.rows ⊆ db.map.rows)
    (hans : ∀ t, p = .answered (.ok t) →
      ∃ r ∈ db.map.rows, r.key = v.keyOf c.req ∧ r.token = t) :
    Inv v { s.setPhase i c p with db := db } where
  db := hdb
  snapshots := by
    intro d hd ct snapshot hp
    rcases State.mem_setPhase hd with hd | rfl
    · exact List.Subset.trans (hi.snapshots d hd ct snapshot hp) hsub
    · exact hsnap ct snapshot hp
  answers := by
    intro d hd t hp
    rcases State.mem_setPhase hd with hd | rfl
    · obtain ⟨r, hr, hrest⟩ := hi.answers d hd t hp
      exact ⟨r, hsub hr, hrest⟩
    · exact hans t hp

/-- A new call has neither read the table nor answered with a token. -/
theorem Inv.call {s : State} (hi : Inv v s) (req : Request) :
    Inv v { s with calls := s.calls ++ [v.begin req] } where
  db := hi.db
  snapshots := by
    intro c hc ct snapshot hp
    rcases List.mem_append.mp hc with hc | hc
    · exact hi.snapshots c hc ct snapshot hp
    · rw [List.mem_singleton.mp hc, PiiVault.begin] at hp
      cases hct : v.ciphertext req <;> simp [hct] at hp
  answers := by
    intro c hc t hp
    rcases List.mem_append.mp hc with hc | hc
    · exact hi.answers c hc t hp
    · rw [List.mem_singleton.mp hc, PiiVault.begin] at hp
      cases hct : v.ciphertext req <;> simp [hct] at hp

/-- **One step keeps the invariant.** -/
theorem Inv.step {s s' : State} {a : Action} (hi : Inv v s) (h : step v s a = some s') :
    Inv v s' := by
  cases a with
  | call req =>
      cases Option.some.inj h
      exact hi.call req
  | lookup i =>
      obtain ⟨c, ct, -, -, h⟩ := step_lookup_inv h
      rcases h with ⟨row, hrow, rfl⟩ | ⟨-, rfl⟩
      · apply hi.setPhase hi.db (List.Subset.refl _)
        · intro ct snapshot hp
          cases hp
        · intro t hp
          cases hp
          obtain ⟨hmem, hkey⟩ := TokenMap.find_eq_some.mp hrow
          exact ⟨row, hmem, hkey, rfl⟩
      · apply hi.setPhase hi.db (List.Subset.refl _)
        · intro ct snapshot hp
          cases hp
        · intro t hp
          cases hp
  | start i =>
      obtain ⟨c, ct, -, -, rfl⟩ := step_start_inv h
      apply hi.setPhase hi.db (List.Subset.refl _)
      · intro ct snapshot hp
        cases hp
        exact List.Subset.refl _
      · intro t hp
        cases hp
  | finish i =>
      obtain ⟨c, ct, snapshot, hc, hp, rfl⟩ := step_finish_inv h
      -- rows never go away, so those of the snapshot are still in the table
      have hsnap := hi.snapshots c (List.mem_of_getElem? hc) ct snapshot hp
      apply hi.setPhase (hi.db.cteUpsert _ _ _) (cteUpsert_subset _ _ _ _)
      · intro ct snapshot hp
        cases hp
      · intro t hp
        exact cteUpsert_ok hsnap (vaultResult_eq_ok (Phase.answered.inj hp))
  | abort i =>
      obtain ⟨c, -, -, rfl⟩ := step_abort_inv h
      apply hi.setPhase hi.db (List.Subset.refl _)
      · intro ct snapshot hp
        cases hp
      · intro t hp
        cases hp
  | lost i =>
      obtain ⟨c, ct, snapshot, -, -, rfl⟩ := step_lost_inv h
      apply hi.setPhase (hi.db.cteUpsert _ _ _) (cteUpsert_subset _ _ _ _)
      · intro ct snapshot hp
        cases hp
      · intro t hp
        cases hp

theorem inv_of_reachable {s : State} (h : (vaultSystem v).Reachable s) : Inv v s := by
  apply h.invariant
  · rintro s rfl
    exact Inv.init
  · intro s a s' hi hst
    exact hi.step hst

/-! ## What never goes away -/

theorem step_rows {s s' : State} {a : Action} (h : step v s a = some s') :
    s.db.map.rows ⊆ s'.db.map.rows := by
  cases a with
  | call req =>
      cases Option.some.inj h
      exact List.Subset.refl _
  | lookup i =>
      obtain ⟨c, ct, -, -, h⟩ := step_lookup_inv h
      rcases h with ⟨row, -, rfl⟩ | ⟨-, rfl⟩ <;> exact List.Subset.refl _
  | start i =>
      obtain ⟨c, ct, -, -, rfl⟩ := step_start_inv h
      exact List.Subset.refl _
  | finish i =>
      obtain ⟨c, ct, snapshot, -, -, rfl⟩ := step_finish_inv h
      exact cteUpsert_subset _ _ _ _
  | abort i =>
      obtain ⟨c, -, -, rfl⟩ := step_abort_inv h
      exact List.Subset.refl _
  | lost i =>
      obtain ⟨c, ct, snapshot, -, -, rfl⟩ := step_lost_inv h
      exact cteUpsert_subset _ _ _ _

/-- Rows are never removed, in any run. -/
theorem steps_rows {C : State → Action → Prop} {s s' : State} {as : List Action}
    (h : (vaultSystem v).Steps C s as s') : s.db.map.rows ⊆ s'.db.map.rows :=
  h.preserves (P := fun t => s.db.map.rows ⊆ t.db.map.rows)
    (fun _ _ _ hs _ hst => List.Subset.trans hs (step_rows hst)) (List.Subset.refl _)

end McpGateway.Vault
