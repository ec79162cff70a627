import McpGateway.Foundation.Transition
import McpGateway.Keys.ApiKeys

/-! # `ApiKeyExpirySweeper`

The hourly sweep writes `status` from the other two columns.

* `sticks` — an invalidation through the status column lasts while no sweep finds the key neither
  revoked nor expired.
* `swept_key_returns` — one such sweep undoes it. -/

namespace McpGateway.Keys

open Foundation Gateway

/-! ## The sweep -/

/-- The `CASE` of the sweep. -/
def projectedStatus (now : Nat) (key : KeyRow) : KeyStatus :=
  if key.revoked then .revoked
  else if key.expiresAt.any (· < now) then .expired
  else .active

/-- `sweep` on one row; where the status is already the projected one, nothing is written. -/
def sweepRow (now : Nat) (key : KeyRow) : KeyRow :=
  if key.status ≠ projectedStatus now key then { key with status := projectedStatus now key } else key

theorem sweepRow_status (now : Nat) (key : KeyRow) :
    (sweepRow now key).status = projectedStatus now key := by
  unfold sweepRow
  split_ifs with h
  · rfl
  · exact not_not.mp h

theorem sweepRow_id (now : Nat) (key : KeyRow) : (sweepRow now key).id = key.id := by
  unfold sweepRow
  split_ifs <;> rfl

namespace KeyStore

def sweep (s : KeyStore) : KeyStore := { s with table := s.table.map (sweepRow s.now) }

/-- `UPDATE api_keys SET status = 'REVOKED' WHERE id = …`, by an operator. -/
def setRevoked (s : KeyStore) (id : Uuid) : KeyStore :=
  { s with table := s.table.map fun key => if key.id = id then { key with status := .revoked } else key }

end KeyStore

/-! ## Runs -/

inductive KeyAction where
  | sweep
  /-- Any other write to the table. -/
  | change (table : List KeyRow)
  /-- `invalidateCache`, or an eviction. -/
  | invalidate
  | advance (elapsed : Nat)
  | authenticate (rawKey : JString)
  | authenticateByHash (keyHash : JString)

def KeyStore.act (s : KeyStore) : KeyAction → KeyStore
  | .sweep => s.sweep
  | .change table => { s with table := table }
  | .invalidate => s.invalidateCache
  | .advance elapsed => s.advance elapsed
  | .authenticate _ => s.load
  | .authenticateByHash _ => s.load

def keyServer : System KeyStore KeyAction where
  init s := s.cache = none
  step s a := some (s.act a)

/-- No operator touches the row. -/
def Untouched (id : Uuid) (s : KeyStore) : KeyAction → Prop
  | .change table => ∀ key ∈ table, key.id = id → key ∈ s.table
  | _ => True

/-- A sweep finds the key revoked or expired. -/
def SweepKeeps (id : Uuid) (s : KeyStore) : KeyAction → Prop
  | .sweep => ∀ key ∈ s.table, key.id = id → projectedStatus s.now key ≠ .active
  | _ => True

/-- No row of the key is active, in the table and in the list a request reads. -/
structure Invalid (id : Uuid) (s : KeyStore) : Prop where
  table : ∀ key ∈ s.table, key.id = id → key.status ≠ .active
  cached : ∀ key ∈ s.cachedKeys, key.id = id → key.status ≠ .active

variable {id : Uuid} {s s' : KeyStore}

/-- The table part, which holds before the cache has caught up. -/
theorem invalid_table_step {a : KeyAction} (huntouched : Untouched id s a)
    (hsweep : SweepKeeps id s a) (h : ∀ key ∈ s.table, key.id = id → key.status ≠ .active) :
    ∀ key ∈ (s.act a).table, key.id = id → key.status ≠ .active := by
  cases a with
  | sweep =>
      intro key hkey hid
      obtain ⟨row, hrow, rfl⟩ := List.mem_map.mp hkey
      rw [sweepRow_id] at hid
      rw [sweepRow_status]
      exact hsweep row hrow hid
  | change table => exact fun key hkey hid => h key (huntouched key hkey hid) hid
  | invalidate => exact h
  | advance elapsed => exact h
  | authenticate rawKey =>
      show ∀ key ∈ s.load.table, _
      rw [KeyStore.load_table]
      exact h
  | authenticateByHash keyHash =>
      show ∀ key ∈ s.load.table, _
      rw [KeyStore.load_table]
      exact h

/-- Requests read the list in the cache, or the table. -/
theorem cachedKeys_act (s : KeyStore) (a : KeyAction) :
    (s.act a).cachedKeys = s.cachedKeys ∨ (s.act a).cachedKeys = (s.act a).table := by
  have hsame : ∀ {s' : KeyStore}, s'.liveCache = s.liveCache →
      s'.cachedKeys = s.cachedKeys ∨ s'.cachedKeys = s'.table := by
    intro s' h
    cases hs : s.liveCache with
    | some c =>
        rw [hs] at h
        exact Or.inl ((KeyStore.cachedKeys_some h).trans (KeyStore.cachedKeys_some hs).symm)
    | none =>
        rw [hs] at h
        exact Or.inr (KeyStore.cachedKeys_none h)
  cases a with
  | sweep => exact hsame rfl
  | change table => exact hsame rfl
  | invalidate => exact Or.inr rfl
  | advance elapsed => exact KeyStore.cachedKeys_advance s elapsed
  | authenticate rawKey => exact Or.inl (KeyStore.cachedKeys_load s)
  | authenticateByHash keyHash => exact Or.inl (KeyStore.cachedKeys_load s)

theorem invalid_step {a : KeyAction} (huntouched : Untouched id s a) (hsweep : SweepKeeps id s a)
    (h : Invalid id s) : Invalid id (s.act a) := by
  have htable := invalid_table_step huntouched hsweep h.table
  refine ⟨htable, ?_⟩
  rcases cachedKeys_act s a with hsame | hread
  · rw [hsame]
    exact h.cached
  · rw [hread]
    exact htable

/-! ## Lookups -/

theorem active_of_usable {now : Nat} {key : KeyRow} (h : usable now key = true) :
    key.status = .active := by
  simp only [usable, Bool.and_eq_true, decide_eq_true_eq] at h
  obtain ⟨-, hrevoked, hexpired⟩ := h
  cases hstatus : key.status with
  | active => rfl
  | revoked => exact absurd hstatus hrevoked
  | expired => exact absurd hstatus hexpired

/-- Only active keys of the list are returned. -/
theorem active_of_authenticate {hasher : ApiKeyHasher} {keys : List KeyRow} {rawKey : JString}
    {now : Nat} {key : KeyRow} (h : authenticate hasher keys rawKey now = some key) :
    key ∈ keys ∧ key.status = .active := by
  have husable := List.find?_some h
  rw [Bool.and_eq_true] at husable
  exact ⟨List.mem_of_find?_eq_some h, active_of_usable husable.1⟩

theorem active_of_authenticateByHash {keys : List KeyRow} {keyHash : JString} {now : Nat}
    {key : KeyRow} (h : authenticateByHash keys keyHash now = some key) :
    key ∈ keys ∧ key.status = .active := by
  have husable := List.find?_some h
  rw [Bool.and_eq_true] at husable
  exact ⟨List.mem_of_find?_eq_some h, active_of_usable husable.1⟩

/-- No request of the state returns the key. -/
def Refused (hasher : ApiKeyHasher) (id : Uuid) (s : KeyStore) : Prop :=
  (∀ rawKey key, authenticate hasher s.cachedKeys rawKey s.now = some key → key.id ≠ id) ∧
    ∀ keyHash key, authenticateByHash s.cachedKeys keyHash s.now = some key → key.id ≠ id

theorem Invalid.refused (h : Invalid id s) (hasher : ApiKeyHasher) : Refused hasher id s := by
  constructor
  · intro rawKey key hkey hid
    obtain ⟨hmem, hactive⟩ := active_of_authenticate hkey
    exact h.cached key hmem hid hactive
  · intro keyHash key hkey hid
    obtain ⟨hmem, hactive⟩ := active_of_authenticateByHash hkey
    exact h.cached key hmem hid hactive

/-- **Sticking.** An operator sets the status of a key to `REVOKED`. Once the list has been loaded,
no request returns the key, as long as no sweep finds it neither revoked nor expired. -/
theorem sticks (hasher : ApiKeyHasher) {id : Uuid} {s t u : KeyStore} {as bs : List KeyAction}
    (hbefore : keyServer.Steps (fun s a => Untouched id s a ∧ SweepKeeps id s a) (s.setRevoked id)
      as t)
    (hload : t.liveCache = none)
    (hafter : keyServer.Steps (fun s a => Untouched id s a ∧ SweepKeeps id s a) t bs u) :
    Refused hasher id u := by
  have hset : ∀ key ∈ (s.setRevoked id).table, key.id = id → key.status ≠ .active := by
    intro key hkey hid
    obtain ⟨row, -, rfl⟩ := List.mem_map.mp hkey
    split_ifs at hid ⊢ with hrow
    · exact nofun
    · exact absurd hid hrow
  have htable : ∀ key ∈ t.table, key.id = id → key.status ≠ .active := by
    refine hbefore.preserves (P := fun s => ∀ key ∈ s.table, key.id = id → key.status ≠ .active)
      ?_ hset
    intro s a s' h hc hstep
    cases hstep
    exact invalid_table_step hc.1 hc.2 h
  have ht : Invalid id t := by
    refine ⟨htable, ?_⟩
    rw [KeyStore.cachedKeys_none hload]
    exact htable
  have hu : Invalid id u := by
    refine hafter.preserves ?_ ht
    intro s a s' h hc hstep
    cases hstep
    exact invalid_step hc.1 hc.2 h
  exact hu.refused hasher

/-! ## One key -/

def sampleHasher : ApiKeyHasher where
  hmac := ⟨fun _ _ => List.replicate 32 0, fun _ _ => List.length_replicate⟩
  pepper := []

def sampleRow (expiresAt : Option Nat) : KeyRow :=
  ⟨Uuid.ofDigit 1, "00", .readOnly, expiresAt, false, .active⟩

def sampleStore (expiresAt : Option Nat) : KeyStore := ⟨[sampleRow expiresAt], none, 10⟩

/-- A key that expires later, in the cache. -/
def sampleCached : KeyStore := ⟨[sampleRow (some 50)], some ⟨[sampleRow (some 50)], 5⟩, 10⟩

/-- A key that is in the cache and expires later: once the cache is invalidated it is refused,
although it is not expired. -/
theorem unexpired_key_sticks : ∃ u, keyServer.Steps System.anyStep
      (sampleCached.setRevoked (Uuid.ofDigit 1))
      [.invalidate, .authenticate (jstr "demo"), .advance 20] u ∧
    (u.table.map fun key => projectedStatus u.now key) = [.active] ∧
    Refused sampleHasher (Uuid.ofDigit 1) u := by
  let t := (sampleCached.setRevoked (Uuid.ofDigit 1)).act .invalidate
  let u := (t.act (.authenticate (jstr "demo"))).act (.advance 20)
  have hbefore : keyServer.Steps (fun s a => Untouched (Uuid.ofDigit 1) s a ∧
      SweepKeeps (Uuid.ofDigit 1) s a) (sampleCached.setRevoked (Uuid.ofDigit 1)) [.invalidate] t :=
    System.Steps.single ⟨trivial, trivial⟩ rfl
  have hafter : keyServer.Steps (fun s a => Untouched (Uuid.ofDigit 1) s a ∧
      SweepKeeps (Uuid.ofDigit 1) s a) t [.authenticate (jstr "demo"), .advance 20] u :=
    .cons ⟨trivial, trivial⟩ rfl (System.Steps.single ⟨trivial, trivial⟩ rfl)
  exact ⟨u, (hbefore.append hafter).anyStep, by decide, sticks sampleHasher hbefore rfl hafter⟩

/-- The sweep at the next minute 13 makes the key valid again. -/
theorem swept_key_returns : ¬ ∀ (hasher : ApiKeyHasher) (id : Uuid) (s t u : KeyStore)
    (as bs : List KeyAction), (∀ key ∈ s.table, key.id = id → key.revoked = false) →
    keyServer.Steps (Untouched id) (s.setRevoked id) as t → t.liveCache = none →
      keyServer.Steps (Untouched id) t bs u → Refused hasher id u := by
  intro hclaim
  have hrefused := hclaim sampleHasher (Uuid.ofDigit 1) (sampleStore none) _ _ [] [.sweep]
    (fun key hkey _ => by cases List.mem_singleton.mp hkey; rfl) (.nil _) rfl
    (.cons trivial rfl (.nil _))
  exact hrefused.2 (jstr "00") (sampleRow none) (by decide +kernel) rfl

end McpGateway.Keys
