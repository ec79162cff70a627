import McpGateway.Foundation.Transition
import McpGateway.Vault.Model

/-! # Concurrent tokenize calls

Any number of `tokenize_async` calls run against one database. A call sends at most two statements,
and PostgreSQL READ COMMITTED decides what the second one sees: its snapshot is taken when it
starts, and its inserts take effect when the row locks let it finish. So a call takes three steps,
`lookup`, `start` and `finish`, and between any two of them the other calls may do anything.

* `call_cases`, `lookup_cases`, `start_cases`, `finish_cases` — what each step can do.
* `queryStep` — the steps of a run in which the database stays reachable. -/

namespace McpGateway.Vault

open Foundation

/-! ## States -/

/-- How far a call has come. The ciphertext is computed before anything is sent. -/
inductive Phase where
  /-- about to run `lookup_existing` -/
  | started (ct : Bytes)
  /-- `lookup_existing` found no row -/
  | missed (ct : Bytes)
  /-- the CTE statement has started; `snapshot` is what its plain `SELECT` will see -/
  | running (ct : Bytes) (snapshot : TokenMap)
  /-- the future has resolved -/
  | answered (result : Except VaultError String)

/-- One `tokenize_async` call. -/
structure Call where
  req : Request
  phase : Phase

/-- The committed tables and every call ever made. -/
structure State where
  db : VaultDb
  calls : List Call

/-- A step of the system. `abort` is a database failure that leaves nothing behind, `lost` one that
hits after the statement has committed. -/
inductive Action where
  | call (req : Request)
  | lookup (i : Nat)
  | start (i : Nat)
  | finish (i : Nat)
  | abort (i : Nat)
  | lost (i : Nat)
  deriving DecidableEq, Repr

variable (v : PiiVault)

/-- `tokenize_async` up to its first query: normalize, hash, encrypt. -/
def PiiVault.begin (req : Request) : Call where
  req := req
  phase := match v.ciphertext req with
    | .ok ct => .started ct
    | .error e => .answered (.error e)

/-- Move call `i` to a new phase. -/
def State.setPhase (s : State) (i : Nat) (c : Call) (p : Phase) : State :=
  { s with calls := s.calls.set i { c with phase := p } }

/-- One step. -/
def step (s : State) : Action → Option State
  | .call req => some { s with calls := s.calls ++ [v.begin req] }
  | .lookup i => do
      let c ← s.calls[i]?
      match c.phase with
      | .started ct =>
          match s.db.map.find (v.keyOf c.req) with
          | some row => some (s.setPhase i c (.answered (.ok row.token)))
          | none => some (s.setPhase i c (.missed ct))
      | _ => none
  | .start i => do
      let c ← s.calls[i]?
      match c.phase with
      | .missed ct => some (s.setPhase i c (.running ct s.db.map))
      | _ => none
  | .finish i => do
      let c ← s.calls[i]?
      match c.phase with
      | .running ct snapshot =>
          let (res, db) := cteUpsert snapshot s.db (v.keyOf c.req) ct
          some { s.setPhase i c (.answered (vaultResult res)) with db := db }
      | _ => none
  | .abort i => do
      let c ← s.calls[i]?
      match c.phase with
      | .answered _ => none
      | _ => some (s.setPhase i c (.answered (.error .db)))
  | .lost i => do
      let c ← s.calls[i]?
      match c.phase with
      | .running ct snapshot =>
          let (_, db) := cteUpsert snapshot s.db (v.keyOf c.req) ct
          some { s.setPhase i c (.answered (.error .db)) with db := db }
      | _ => none

/-- The vault from the empty tables of the migration. -/
def vaultSystem : System State Action where
  init s := s = ⟨VaultDb.empty, []⟩
  step := step v

/-- The steps of calls that are already running while the database is reachable. -/
def queryStep : State → Action → Prop
  | _, .lookup _ => True
  | _, .start _ => True
  | _, .finish _ => True
  | _, _ => False

variable {v}

/-! ## What the statement can do -/

/-- The counter only grows, and `bump` returns the value it had. -/
theorem bump_cases {c c' : TokenCounter} {w : Uuid} {k : EntityKind} {currentId : Nat}
    (h : bump c w k = .ok (currentId, c')) :
    c' = c.set w k (currentId + 1) ∧
      ((c w k = none ∧ currentId = 1) ∨ (c w k = some currentId ∧ currentId < bigintMax)) := by
  unfold bump at h
  cases hc : c w k with
  | none =>
      rw [hc] at h
      cases h
      exact ⟨rfl, .inl ⟨rfl, rfl⟩⟩
  | some n =>
      rw [hc] at h
      by_cases hn : n < bigintMax
      · simp only [hn, if_true] at h
        cases h
        exact ⟨rfl, .inr ⟨rfl, hn⟩⟩
      · simp [hn] at h

/-- `bump` fails only on an exhausted counter. -/
theorem bump_error {c : TokenCounter} {w : Uuid} {k : EntityKind} {e : SqlError}
    (h : bump c w k = .error e) : ∃ n, c w k = some n ∧ bigintMax ≤ n := by
  unfold bump at h
  cases hc : c w k with
  | none => rw [hc] at h; cases h
  | some n =>
      rw [hc] at h
      by_cases hn : n < bigintMax
      · simp [hn] at h
      · exact ⟨n, rfl, Nat.le_of_not_lt hn⟩

/-- **The three ways the statement can end.** It raises (an exhausted counter, or a token some other
row has) and leaves nothing behind; or it mints a row for a key that had none; or it finds the key
taken, keeps the map, and still bumps the counter. -/
theorem cteUpsert_cases (snapshot : TokenMap) (db : VaultDb) (key : Key) (ct : Bytes) :
    (∃ e, cteUpsert snapshot db key ct = (.error e, db) ∧
        ((∃ n, db.counter key.workspaceId key.entityKind = some n ∧ bigintMax ≤ n) ∨
          (db.map.find key = none ∧ ∃ currentId counter,
            bump db.counter key.workspaceId key.entityKind = .ok (currentId, counter) ∧
            ∃ r ∈ db.map.rows, r.token = tokenText key.entityKind currentId))) ∨
    (∃ currentId counter map, bump db.counter key.workspaceId key.entityKind
          = .ok (currentId, counter) ∧
        db.map.find key = none ∧
        map.rows = db.map.rows ++ [⟨tokenText key.entityKind currentId, key, ct⟩] ∧
        cteUpsert snapshot db key ct
          = (.ok (tokenText key.entityKind currentId), ⟨counter, map⟩)) ∨
    (∃ currentId counter, bump db.counter key.workspaceId key.entityKind
          = .ok (currentId, counter) ∧
        db.map.find key ≠ none ∧
        cteUpsert snapshot db key ct
          = (match snapshot.find key with
              | some row => .ok row.token
              | none => .error .rowNotFound, ⟨counter, db.map⟩)) := by
  cases hb : bump db.counter key.workspaceId key.entityKind with
  | error e => exact .inl ⟨e, by simp [cteUpsert, hb], .inl (bump_error hb)⟩
  | ok p =>
      obtain ⟨currentId, counter⟩ := p
      let row : TokenRow := ⟨tokenText key.entityKind currentId, key, ct⟩
      -- `ON CONFLICT` names the key; another row with the token is an error
      by_cases hkey : db.map.find key = none
      · by_cases htok : ∀ r' ∈ db.map.rows, r'.token ≠ row.token
        · have hins : db.map.ins row = .ok (some row.token, db.map.insert row hkey htok) :=
            TokenMap.ins_fresh hkey htok
          refine .inr (.inl ⟨currentId, counter, db.map.insert row hkey htok, rfl, hkey, rfl, ?_⟩)
          simp only [cteUpsert, hb]
          rw [hins]
        · have hins : db.map.ins row = .error .uniqueViolation := TokenMap.ins_clash hkey htok
          have hclash : ∃ r ∈ db.map.rows, r.token = tokenText key.entityKind currentId := by
            simpa using htok
          refine .inl ⟨.uniqueViolation, ?_, .inr ⟨hkey, currentId, counter, rfl, hclash⟩⟩
          simp only [cteUpsert, hb]
          rw [hins]
      · have hins : db.map.ins row = .ok (none, db.map) := TokenMap.ins_conflict hkey
        refine .inr (.inr ⟨currentId, counter, rfl, hkey, ?_⟩)
        simp only [cteUpsert, hb]
        rw [hins]
        cases snapshot.find key <;> rfl

/-! ## What each step can do -/

theorem step_lookup_inv {s s' : State} {i : Nat} (h : step v s (.lookup i) = some s') :
    ∃ c ct, s.calls[i]? = some c ∧ c.phase = .started ct ∧
      ((∃ row, s.db.map.find (v.keyOf c.req) = some row ∧
          s' = s.setPhase i c (.answered (.ok row.token))) ∨
        (s.db.map.find (v.keyOf c.req) = none ∧ s' = s.setPhase i c (.missed ct))) := by
  obtain ⟨c, hc, h⟩ := Option.bind_eq_some_iff.mp h
  cases hp : c.phase with
  | started ct =>
      simp only [hp] at h
      refine ⟨c, ct, hc, hp, ?_⟩
      cases hf : s.db.map.find (v.keyOf c.req) with
      | none =>
          rw [hf] at h
          exact .inr ⟨rfl, (Option.some.inj h).symm⟩
      | some row =>
          rw [hf] at h
          exact .inl ⟨row, rfl, (Option.some.inj h).symm⟩
  | _ => simp [hp] at h

theorem step_start_inv {s s' : State} {i : Nat} (h : step v s (.start i) = some s') :
    ∃ c ct, s.calls[i]? = some c ∧ c.phase = .missed ct ∧
      s' = s.setPhase i c (.running ct s.db.map) := by
  obtain ⟨c, hc, h⟩ := Option.bind_eq_some_iff.mp h
  cases hp : c.phase with
  | missed ct =>
      simp only [hp] at h
      exact ⟨c, ct, hc, hp, (Option.some.inj h).symm⟩
  | _ => simp [hp] at h

theorem step_finish_inv {s s' : State} {i : Nat} (h : step v s (.finish i) = some s') :
    ∃ c ct snapshot, s.calls[i]? = some c ∧ c.phase = .running ct snapshot ∧
      s' = { s.setPhase i c
              (.answered (vaultResult (cteUpsert snapshot s.db (v.keyOf c.req) ct).1)) with
             db := (cteUpsert snapshot s.db (v.keyOf c.req) ct).2 } := by
  obtain ⟨c, hc, h⟩ := Option.bind_eq_some_iff.mp h
  cases hp : c.phase with
  | running ct snapshot =>
      simp only [hp] at h
      exact ⟨c, ct, snapshot, hc, hp, (Option.some.inj h).symm⟩
  | _ => simp [hp] at h

theorem step_abort_inv {s s' : State} {i : Nat} (h : step v s (.abort i) = some s') :
    ∃ c, s.calls[i]? = some c ∧ (∀ res, c.phase ≠ .answered res) ∧
      s' = s.setPhase i c (.answered (.error .db)) := by
  obtain ⟨c, hc, h⟩ := Option.bind_eq_some_iff.mp h
  refine ⟨c, hc, ?_⟩
  cases hp : c.phase with
  | answered r => simp [hp] at h
  | _ => simpa [hp] using h.symm

theorem step_lost_inv {s s' : State} {i : Nat} (h : step v s (.lost i) = some s') :
    ∃ c ct snapshot, s.calls[i]? = some c ∧ c.phase = .running ct snapshot ∧
      s' = { s.setPhase i c (.answered (.error .db)) with
             db := (cteUpsert snapshot s.db (v.keyOf c.req) ct).2 } := by
  obtain ⟨c, hc, h⟩ := Option.bind_eq_some_iff.mp h
  cases hp : c.phase with
  | running ct snapshot =>
      simp only [hp] at h
      exact ⟨c, ct, snapshot, hc, hp, (Option.some.inj h).symm⟩
  | _ => simp [hp] at h

/-- A call in a state after a phase change is an old one or the changed one. -/
theorem State.mem_setPhase {s : State} {i : Nat} {c d : Call} {p : Phase}
    (hd : d ∈ (s.setPhase i c p).calls) : d ∈ s.calls ∨ d = { c with phase := p } :=
  List.mem_or_eq_of_mem_set hd

/-! ## A concrete vault

The crates on a handful of inputs, as HMAC-SHA256 and AES-256-GCM compute them under the secrets
`01 … 01` and `02 … 02`. Concrete runs use it. -/

def sampleHmac (key msg : Bytes) : Bytes :=
  let root := List.replicate 32 1
  let key1 := bytesBE 32 0x9edf7266cdd3244d2968c7487032fa296853e43076d0eff4842301df81eced95
  let key2 := bytesBE 32 0x491b9a6fea5b95251e7cf803db65983ae36a29505d985be47197d622b6977ebc
  if key = root ∧ msg = (Uuid.ofDigit 1).asBytes then key1
  else if key = root ∧ msg = (Uuid.ofDigit 2).asBytes then key2
  else if key = key1 ∧ msg = asBytes "EMAIL:a@b.fr" then
    bytesBE 32 0x0e960b16dd1f0837602f5ea716c8fd2cbd6fe72340358bfb9b24d495ab88c1b9
  else if key = key1 ∧ msg = asBytes "EMAIL:c@d.fr" then
    bytesBE 32 0x622f0543cdabaf79df068fbc281e0aa8a0052218b7eafda447b268218faddb16
  else if key = key2 ∧ msg = asBytes "EMAIL:c@d.fr" then
    bytesBE 32 0x2312c178dca16bf71be553b43300b24d631084646cca0a9a8fe4eaa281478c2e
  else if key = key2 ∧ msg = asBytes "PHONE:+33612345678" then
    bytesBE 32 0x5aa4c264a6e93eca05edf6544631daeb76366f4231b5745776b11a4aef44357a
  else []

def sampleAesGcm (_key iv plaintext : Bytes) : Option Bytes :=
  if iv = List.replicate 12 1 ∧ plaintext = asBytes "a@b.fr" then
    some (bytesBE 22 0xc7901d676146c2a4363fc751f677e73cf551a269de99)
  else if iv = List.replicate 12 2 ∧ plaintext = asBytes "a@b.fr" then
    some (bytesBE 22 0x09840cabf49ffec3ea6358838860ad6ff65d1faf4c7b)
  else if iv = List.replicate 12 3 ∧ plaintext = asBytes "c@d.fr" then
    some (bytesBE 22 0xa6bd9f07718d9d642e0d4004a10df168eab71c304239)
  else if iv = List.replicate 12 4 ∧ plaintext = asBytes "c@d.fr" then
    some (bytesBE 22 0x670cb520983943b0e3d380fe7c0ee87a8781d2fe2103)
  else if iv = List.replicate 12 1 ∧ plaintext = asBytes "c@d.fr" then
    some (bytesBE 22 0xc5901b67614656ea31ab4a6e11c0b003505312fdd66a)
  else if iv = List.replicate 12 3 ∧ plaintext = asBytes "a@b.fr" then
    some (bytesBE 22 0xa4bd9907718d092a2999cd3b46baa6574fb5aca44aca)
  else if iv = List.replicate 12 5 ∧ plaintext = asBytes "+33612345678" then
    some (bytesBE 28 0x03635d3b914f057f5564eec09a601f4efc58a79529310f21e2710a69)
  else none

theorem sampleRoot_length : 32 ≤ (List.replicate 32 (1 : UInt8)).length := by decide

theorem sampleKey_length : (List.replicate 32 (2 : UInt8)).length = 32 := by decide

def sampleVault : PiiVault where
  crates := ⟨sampleHmac, sampleAesGcm, ⟨id, id⟩⟩
  hmacRoot := List.replicate 32 1
  contentKey := List.replicate 32 2
  hmacRoot_length := sampleRoot_length
  contentKey_length := sampleKey_length

/-- A request for an address, with the IV `d … d`. -/
def emailRequest (workspace : Nat) (address : String) (d : UInt8) : Request :=
  ⟨Uuid.ofDigit workspace, .email, address, List.replicate 12 d⟩

/-- What a call was answered: `some none` for an error. -/
def Call.answer (c : Call) : Option (Option String) :=
  match c.phase with
  | .answered (.ok t) => some (some t)
  | .answered (.error _) => some none
  | _ => none

theorem Call.answer_ok {c : Call} {t : String} (h : c.answer = some (some t)) :
    c.phase = .answered (.ok t) := by
  unfold Call.answer at h
  split at h <;> simp_all

theorem Call.answer_error {c : Call} (h : c.answer = some none) :
    ∃ e, c.phase = .answered (.error e) := by
  unfold Call.answer at h
  split at h <;> simp_all

end McpGateway.Vault
