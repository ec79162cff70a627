import McpGateway.Foundation.Transition
import McpGateway.Gateway.Aspects

/-! # The hourly cap under concurrency

Any number of `commitChunks` calls beside the hourly pruner, each call cut into reading the clock,
the `UPSERT`, and the end of its transaction. The `UPSERT` locks its row until then; the pruner waits
for that lock, and so does another `UPSERT`. Both programs read one clock.

* `hourly_cap` — what the calls of a key and window that returned have counted is within the cap,
  as long as no call takes more than 23 hours from reading the clock to its `UPSERT`.
* `pruned_window_exceeds` — with 24 hours it is not: a window has been over for 23 hours when its
  row is old enough for the pruner.
* `alone_commitChunks` — one call with nothing in between does what `commitChunks` does.
* `fragments_counted` — a search hands out fragments only when `commitChunks` returned for them. -/

namespace McpGateway.Gateway

open Foundation Foundation.Act

/-! ## The system -/

/-- Where a call is. After `commitChunks` has returned, the fragments are delivered unless the
transaction around the tool rolls back. -/
inductive CallPhase where
  | clockRead
  | upserted (newTotal : Nat)
  | threw
  | returned
  | delivered
  | rolledBack
  deriving DecidableEq, Repr

structure BudgetCall where
  apiKeyId : Uuid
  chunkCount : Int
  readAt : Nat
  phase : CallPhase
  deriving DecidableEq

def BudgetCall.windowStart (c : BudgetCall) : Nat := Gateway.windowStart c.readAt

/-- `Math.max(0, chunkCount)` -/
def BudgetCall.increment (c : BudgetCall) : Nat := (max 0 c.chunkCount).toNat

/-- The call is one of this row. -/
def BudgetCall.isFor (c : BudgetCall) (apiKeyId : Uuid) (window : Nat) : Bool :=
  c.apiKeyId = apiKeyId && c.windowStart = window

def CallPhase.isUpserted : CallPhase → Bool
  | .upserted _ => true
  | _ => false

/-- `commitChunks` has returned normally. -/
def CallPhase.hasReturned : CallPhase → Bool
  | .returned | .delivered | .rolledBack => true
  | _ => false

/-- `pruners` are the times at which the runs of the pruner started. -/
structure BudgetState where
  now : Nat
  db : Database
  calls : List BudgetCall
  pruners : List Nat

/-- How a `COMMIT` ends: it takes effect and says so, it fails without effect, or it takes effect
although the caller sees an error. -/
inductive CommitOutcome where
  | done | failed | lost
  deriving DecidableEq, Repr

inductive BudgetAction where
  | tick (elapsed : Nat)
  | call (apiKeyId : Uuid) (chunkCount : Int)
  | upsert (i : Nat)
  | finish (i : Nat) (outcome : CommitOutcome)
  /-- a database error, or the end of the connection -/
  | fail (i : Nat)
  /-- the end of the transaction around the tool -/
  | outer (i : Nat) (commits : Bool)
  | startPrune
  | pruneRow (i : Nat) (apiKeyId : Uuid) (window : Nat)

/-- Some transaction that has not ended yet has counted in this row. -/
def BudgetState.locked (s : BudgetState) (apiKeyId : Uuid) (window : Nat) : Bool :=
  s.calls.any fun c => c.isFor apiKeyId window && c.phase.isUpserted

def BudgetState.setPhase (s : BudgetState) (i : Nat) (c : BudgetCall) (phase : CallPhase) :
    BudgetState :=
  { s with calls := s.calls.set i { c with phase := phase } }

def BudgetState.record (s : BudgetState) (c : BudgetCall) (newTotal : Nat) : BudgetState :=
  { s with db := applyWrite s.db (.setRate c.apiKeyId c.windowStart newTotal) }

/-- `DELETE` of one row of `rate_limit_state`. -/
def BudgetState.deleteRow (s : BudgetState) (apiKeyId : Uuid) (window : Nat) : BudgetState :=
  { s with db := { s.db with
      rateLimit := fun k w => if k = apiKeyId ∧ w = window then none else s.db.rateLimit k w } }

/-- `INTERVAL '24 hours'` -/
def pruneAge : Nat := 24 * nanosPerHour

/-- `window_start < now() - INTERVAL '24 hours'` -/
def isStale (start window : Nat) : Bool := window * nanosPerHour + pruneAge < start

/-- The end of the transaction of `commitChunks`. Over the cap it rolls back. -/
def BudgetState.finish (hourlyCap : Int) (s : BudgetState) (i : Nat) (c : BudgetCall)
    (newTotal : Nat) (outcome : CommitOutcome) : BudgetState :=
  if (newTotal : Int) > hourlyCap then s.setPhase i c .threw
  else match outcome with
    | .done => (s.record c newTotal).setPhase i c .returned
    | .lost => (s.record c newTotal).setPhase i c .threw
    | .failed => s.setPhase i c .threw

def BudgetState.stepCall (hourlyCap : Int) (s : BudgetState) (i : Nat) (c : BudgetCall) :
    CallPhase → BudgetAction → Option BudgetState
  | .clockRead, .upsert _ =>
      if s.locked c.apiKeyId c.windowStart then none
      else match upsertTotal s.db c.apiKeyId c.windowStart c.increment with
        | none => some (s.setPhase i c .threw)
        | some newTotal => some (s.setPhase i c (.upserted newTotal))
  | .upserted newTotal, .finish _ outcome => some (s.finish hourlyCap i c newTotal outcome)
  | .clockRead, .fail _ => some (s.setPhase i c .threw)
  | .upserted _, .fail _ => some (s.setPhase i c .threw)
  | .returned, .outer _ commits =>
      some (s.setPhase i c (if commits then .delivered else .rolledBack))
  | _, _ => none

def BudgetState.step (hourlyCap : Int) (s : BudgetState) : BudgetAction → Option BudgetState
  | .tick elapsed => some { s with now := s.now + elapsed }
  | .call apiKeyId chunkCount =>
      some { s with calls := s.calls ++ [⟨apiKeyId, chunkCount, s.now, .clockRead⟩] }
  | .upsert i => do
      let c ← s.calls[i]?
      s.stepCall hourlyCap i c c.phase (.upsert i)
  | .finish i outcome => do
      let c ← s.calls[i]?
      s.stepCall hourlyCap i c c.phase (.finish i outcome)
  | .fail i => do
      let c ← s.calls[i]?
      s.stepCall hourlyCap i c c.phase (.fail i)
  | .outer i commits => do
      let c ← s.calls[i]?
      s.stepCall hourlyCap i c c.phase (.outer i commits)
  | .startPrune => some { s with pruners := s.pruners ++ [s.now] }
  | .pruneRow i apiKeyId window => do
      let start ← s.pruners[i]?
      if isStale start window && !s.locked apiKeyId window then some (s.deleteRow apiKeyId window)
      else none

/-- The enforcer and the pruner, on whatever is in the table when the gateway starts. -/
def chunkBudget (hourlyCap : Int) : System BudgetState BudgetAction where
  init s := s.calls = [] ∧ s.pruners = []
  step := BudgetState.step hourlyCap

/-- No call takes longer than this from reading the clock to its `UPSERT`. -/
def timely (delay : Nat) (s : BudgetState) : BudgetAction → Bool
  | .upsert i =>
      match s.calls[i]? with
      | none => true
      | some c => s.now ≤ c.readAt + delay
  | _ => true

theorem BudgetCall.isFor_iff {c : BudgetCall} {apiKeyId : Uuid} {window : Nat} :
    c.isFor apiKeyId window = true ↔ c.apiKeyId = apiKeyId ∧ c.windowStart = window := by
  unfold BudgetCall.isFor
  rw [Bool.and_eq_true, decide_eq_true_eq, decide_eq_true_eq]

/-! ## Sums over calls -/

/-- The chunk counts of some of the calls. -/
def chunkSum (keep : BudgetCall → Bool) : List BudgetCall → Int
  | [] => 0
  | c :: cs => (if keep c then c.chunkCount else 0) + chunkSum keep cs

def weight (keep : BudgetCall → Bool) (c : BudgetCall) : Nat := if keep c then c.increment else 0

/-- The increments of some of the calls. -/
def incrementSum (keep : BudgetCall → Bool) : List BudgetCall → Nat
  | [] => 0
  | c :: cs => weight keep c + incrementSum keep cs

theorem incrementSum_append (keep : BudgetCall → Bool) (cs ds : List BudgetCall) :
    incrementSum keep (cs ++ ds) = incrementSum keep cs + incrementSum keep ds := by
  induction cs with
  | nil => simp [incrementSum]
  | cons c cs ih =>
      simp only [List.cons_append, incrementSum, ih]
      omega

/-- One call is replaced. -/
theorem incrementSum_set (keep : BudgetCall → Bool) {calls : List BudgetCall} {i : Nat}
    {c : BudgetCall} (c' : BudgetCall) (h : calls[i]? = some c) :
    incrementSum keep (calls.set i c') + weight keep c
      = incrementSum keep calls + weight keep c' := by
  induction calls generalizing i with
  | nil => simp at h
  | cons d ds ih =>
      cases i with
      | zero =>
          simp only [List.getElem?_cons_zero, Option.some.injEq] at h
          subst h
          simp only [List.set_cons_zero, incrementSum]
          omega
      | succ i =>
          simp only [List.getElem?_cons_succ] at h
          have := ih h
          simp only [List.set_cons_succ, incrementSum]
          omega

/-- The counts of fewer calls are at most the increments of more. -/
theorem chunkSum_le {keep keep' : BudgetCall → Bool} (h : ∀ c, keep c = true → keep' c = true)
    (calls : List BudgetCall) : chunkSum keep calls ≤ incrementSum keep' calls := by
  induction calls with
  | nil => exact Int.le_refl 0
  | cons c cs ih =>
      have hc : (if keep c then c.chunkCount else 0) ≤ (weight keep' c : Int) := by
        unfold weight BudgetCall.increment
        by_cases hk : keep c = true
        · rw [if_pos hk, if_pos (h c hk)]
          omega
        · rw [if_neg hk]
          exact Int.natCast_nonneg _
      simp only [chunkSum, incrementSum, Int.natCast_add]
      omega

/-! ## The invariant -/

/-- The calls of a row that have returned. -/
def returnedFor (apiKeyId : Uuid) (window : Nat) (c : BudgetCall) : Bool :=
  c.isFor apiKeyId window && c.phase.hasReturned

/-- The calls of a row whose fragments have been delivered. -/
def deliveredFor (apiKeyId : Uuid) (window : Nat) (c : BudgetCall) : Bool :=
  c.isFor apiKeyId window && c.phase = .delivered

/-- What the calls of a row that have returned have counted. -/
def BudgetState.spent (s : BudgetState) (apiKeyId : Uuid) (window : Nat) : Nat :=
  incrementSum (returnedFor apiKeyId window) s.calls

/-- While no pruner can take the row, it holds at least what has been spent; a total that waits for
its transaction to end includes it too. -/
structure BudgetState.Inv (hourlyCap : Int) (apiKeyId : Uuid) (window : Nat) (s : BudgetState) :
    Prop where
  bounded : s.spent apiKeyId window ≤ hourlyCap.toNat
  recorded : s.now ≤ window * nanosPerHour + pruneAge →
    s.spent apiKeyId window ≤ (s.db.rateLimit apiKeyId window).getD 0
  pending : ∀ c ∈ s.calls, c.isFor apiKeyId window = true → ∀ newTotal,
    c.phase = .upserted newTotal → s.spent apiKeyId window + c.increment ≤ newTotal
  single : ∀ (i j : Nat) (c d : BudgetCall), s.calls[i]? = some c → s.calls[j]? = some d →
    c.isFor apiKeyId window = true → d.isFor apiKeyId window = true →
    c.phase.isUpserted = true → d.phase.isUpserted = true → i = j
  started : ∀ start ∈ s.pruners, start ≤ s.now

variable {hourlyCap : Int} {apiKeyId : Uuid} {window i : Nat} {s s' : BudgetState} {c : BudgetCall}

/-- A call that moves on without returning or un-returning leaves what has been spent. -/
theorem spent_setPhase {phase : CallPhase} (hi : s.calls[i]? = some c)
    (h : phase.hasReturned = c.phase.hasReturned) :
    (s.setPhase i c phase).spent apiKeyId window = s.spent apiKeyId window := by
  have hset := incrementSum_set (returnedFor apiKeyId window) { c with phase := phase } hi
  have hweight : weight (returnedFor apiKeyId window) { c with phase := phase }
      = weight (returnedFor apiKeyId window) c := by
    simp only [weight, returnedFor, h]
    rfl
  rw [hweight] at hset
  exact Nat.add_right_cancel hset

/-- A call that returns has spent its increment. -/
theorem spent_return (hi : s.calls[i]? = some c) (h : c.phase.hasReturned = false) :
    (s.setPhase i c .returned).spent apiKeyId window
      = s.spent apiKeyId window + if c.isFor apiKeyId window then c.increment else 0 := by
  have hset := incrementSum_set (returnedFor apiKeyId window) { c with phase := .returned } hi
  have hbefore : weight (returnedFor apiKeyId window) c = 0 := by
    simp [weight, returnedFor, h]
  have hafter : weight (returnedFor apiKeyId window) { c with phase := .returned }
      = if c.isFor apiKeyId window then c.increment else 0 := by
    simp only [weight, returnedFor, CallPhase.hasReturned, Bool.and_true]
    rfl
  rw [hbefore, hafter, Nat.add_zero] at hset
  exact hset

theorem mem_setPhase {phase : CallPhase} {d : BudgetCall} (hd : d ∈ (s.setPhase i c phase).calls) :
    d = { c with phase := phase } ∨ d ∈ s.calls := by
  rcases List.mem_or_eq_of_mem_set hd with h | h
  · exact Or.inr h
  · exact Or.inl h

/-- Who is at an index after one call has moved. -/
theorem getElem?_setPhase {phase : CallPhase} {j : Nat} {d : BudgetCall}
    (h : (s.setPhase i c phase).calls[j]? = some d) :
    (j = i ∧ d = { c with phase := phase }) ∨ (j ≠ i ∧ s.calls[j]? = some d) := by
  unfold BudgetState.setPhase at h
  rw [List.getElem?_set] at h
  by_cases hij : i = j
  · rw [if_pos hij] at h
    split_ifs at h
    cases h
    exact Or.inl ⟨hij.symm, rfl⟩
  · rw [if_neg hij] at h
    exact Or.inr ⟨fun hji => hij hji.symm, h⟩

/-- When one call has let go of its lock, the others that hold one are those of before. -/
theorem upserted_setPhase {phase : CallPhase} {j : Nat} {d : BudgetCall}
    (hfree : phase.isUpserted = false) (h : (s.setPhase i c phase).calls[j]? = some d)
    (hd : d.phase.isUpserted = true) : j ≠ i ∧ s.calls[j]? = some d := by
  rcases getElem?_setPhase h with ⟨-, rfl⟩ | h
  · rw [show phase.isUpserted = true from hd] at hfree
    cases hfree
  · exact h

namespace BudgetState.Inv

/-- At most one call holds the lock of a row, after one has let go of its own. -/
theorem single_setPhase {phase : CallPhase} (hinv : s.Inv hourlyCap apiKeyId window)
    (hfree : phase.isUpserted = false) (j k : Nat) (d e : BudgetCall)
    (hj : (s.setPhase i c phase).calls[j]? = some d) (hk : (s.setPhase i c phase).calls[k]? = some e)
    (hd : d.isFor apiKeyId window = true) (he : e.isFor apiKeyId window = true)
    (hdup : d.phase.isUpserted = true) (heup : e.phase.isUpserted = true) : j = k :=
  hinv.single j k d e (upserted_setPhase hfree hj hdup).2 (upserted_setPhase hfree hk heup).2 hd he
    hdup heup

/-- A call moves to a phase in which it holds no lock, and nothing is written. -/
theorem move {phase : CallPhase} (hinv : s.Inv hourlyCap apiKeyId window)
    (hi : s.calls[i]? = some c) (hreturned : phase.hasReturned = c.phase.hasReturned)
    (hfree : phase.isUpserted = false) : (s.setPhase i c phase).Inv hourlyCap apiKeyId window := by
  have hspent : (s.setPhase i c phase).spent apiKeyId window = s.spent apiKeyId window :=
    spent_setPhase hi hreturned
  constructor
  · rw [hspent]
    exact hinv.bounded
  · rw [hspent]
    exact hinv.recorded
  · intro d hd hfor newTotal hphase
    rw [hspent]
    rcases mem_setPhase hd with rfl | hd
    · rw [show phase = .upserted newTotal from hphase] at hfree
      cases hfree
    · exact hinv.pending d hd hfor newTotal hphase
  · exact hinv.single_setPhase hfree
  · exact hinv.started

/-- The `UPSERT`, on a row nobody has locked. -/
theorem upsert {newTotal : Nat} (hinv : s.Inv hourlyCap apiKeyId window)
    (hi : s.calls[i]? = some c) (hphase : c.phase = .clockRead)
    (hfree : s.locked c.apiKeyId c.windowStart = false)
    (hlive : s.now ≤ c.windowStart * nanosPerHour + pruneAge)
    (htotal : upsertTotal s.db c.apiKeyId c.windowStart c.increment = some newTotal) :
    (s.setPhase i c (.upserted newTotal)).Inv hourlyCap apiKeyId window := by
  have hspent : (s.setPhase i c (.upserted newTotal)).spent apiKeyId window
      = s.spent apiKeyId window := spent_setPhase hi (by rw [hphase]; rfl)
  have hunlocked : ∀ d ∈ s.calls, d.isFor c.apiKeyId c.windowStart = true →
      d.phase.isUpserted = false := by
    intro d hd hfor
    have := List.any_eq_false.mp hfree d hd
    rw [hfor, Bool.true_and] at this
    exact Bool.not_eq_true _ ▸ this
  constructor
  · rw [hspent]
    exact hinv.bounded
  · rw [hspent]
    exact hinv.recorded
  · intro d hd hfor total hd_phase
    rw [hspent]
    rcases mem_setPhase hd with rfl | hd
    · -- the new total adds the increment to a row that holds all that has been spent
      cases hd_phase
      obtain ⟨rfl, rfl⟩ : c.apiKeyId = apiKeyId ∧ c.windowStart = window :=
        BudgetCall.isFor_iff.mp hfor
      have hrow := hinv.recorded hlive
      unfold upsertTotal at htotal
      dsimp only at htotal
      split_ifs at htotal
      cases htotal
      exact Nat.add_le_add_right hrow _
    · exact hinv.pending d hd hfor total hd_phase
  · intro j k d e hj hk hd he hdup heup
    rcases getElem?_setPhase hj with ⟨hji, rfl⟩ | ⟨-, hj'⟩
    · rcases getElem?_setPhase hk with ⟨hki, -⟩ | ⟨-, hk'⟩
      · rw [hji, hki]
      · obtain ⟨hkey, hwindow⟩ := BudgetCall.isFor_iff.mp hd
        have hfree' := hunlocked e (List.mem_of_getElem? hk') (by rw [← he, ← hkey, ← hwindow]; rfl)
        rw [hfree'] at heup
        cases heup
    · rcases getElem?_setPhase hk with ⟨hki, rfl⟩ | ⟨-, hk'⟩
      · obtain ⟨hkey, hwindow⟩ := BudgetCall.isFor_iff.mp he
        have hfree' := hunlocked d (List.mem_of_getElem? hj') (by rw [← hd, ← hkey, ← hwindow]; rfl)
        rw [hfree'] at hdup
        cases hdup
      · exact hinv.single j k d e hj' hk' hd he hdup heup
  · exact hinv.started

/-- The new total of a call is written to its row. -/
theorem record {newTotal : Nat} (hinv : s.Inv hourlyCap apiKeyId window) (hi : s.calls[i]? = some c)
    (hphase : c.phase = .upserted newTotal) :
    (s.record c newTotal).Inv hourlyCap apiKeyId window := by
  constructor
  · exact hinv.bounded
  · intro hlive
    show s.spent apiKeyId window ≤
      (if apiKeyId = c.apiKeyId ∧ window = c.windowStart then some newTotal
        else s.db.rateLimit apiKeyId window).getD 0
    split_ifs with hrow
    · have hfor : c.isFor apiKeyId window = true := BudgetCall.isFor_iff.mpr ⟨hrow.1.symm, hrow.2.symm⟩
      have := hinv.pending c (List.mem_of_getElem? hi) hfor newTotal hphase
      exact Nat.le_trans (Nat.le_add_right _ _) this
    · exact hinv.recorded hlive
  · exact hinv.pending
  · exact hinv.single
  · exact hinv.started

/-- `commitChunks` returns, after its total has been written and found within the cap. -/
theorem complete {newTotal : Nat} (hinv : s.Inv hourlyCap apiKeyId window)
    (hi : s.calls[i]? = some c) (hphase : c.phase = .upserted newTotal)
    (hcap : (newTotal : Int) ≤ hourlyCap)
    (hrow : s.db.rateLimit c.apiKeyId c.windowStart = some newTotal) :
    (s.setPhase i c .returned).Inv hourlyCap apiKeyId window := by
  have hspent : (s.setPhase i c .returned).spent apiKeyId window
      = s.spent apiKeyId window + if c.isFor apiKeyId window then c.increment else 0 :=
    spent_return hi (by rw [hphase]; rfl)
  have htotal := hinv.pending c (List.mem_of_getElem? hi)
  constructor
  · rw [hspent]
    split_ifs with hfor
    · have := htotal hfor newTotal hphase
      omega
    · exact hinv.bounded
  · intro hlive
    rw [hspent]
    split_ifs with hfor
    · obtain ⟨rfl, rfl⟩ := BudgetCall.isFor_iff.mp hfor
      show _ ≤ (s.db.rateLimit c.apiKeyId c.windowStart).getD 0
      rw [hrow]
      exact htotal hfor newTotal hphase
    · exact hinv.recorded hlive
  · intro d hd hdfor total hdphase
    obtain ⟨j, hj⟩ := List.getElem?_of_mem hd
    have hdup : d.phase.isUpserted = true := by
      rw [hdphase]
      rfl
    obtain ⟨hne, hj⟩ := upserted_setPhase rfl hj hdup
    rw [hspent]
    split_ifs with hfor
    · -- no other call of the row waits with a total, for this one has held the lock
      exact absurd (hinv.single j i d c hj hi hdfor hfor hdup (by rw [hphase]; rfl)) hne
    · exact hinv.pending d (List.mem_of_getElem? hj) hdfor total hdphase
  · exact hinv.single_setPhase rfl
  · exact hinv.started

theorem finish {newTotal : Nat} (hinv : s.Inv hourlyCap apiKeyId window) (hi : s.calls[i]? = some c)
    (hphase : c.phase = .upserted newTotal) (outcome : CommitOutcome) :
    (s.finish hourlyCap i c newTotal outcome).Inv hourlyCap apiKeyId window := by
  have hreturned : CallPhase.threw.hasReturned = c.phase.hasReturned := by
    rw [hphase]
    rfl
  unfold BudgetState.finish
  split_ifs with hcap
  · exact hinv.move hi hreturned rfl
  · cases outcome with
    | done =>
        apply (hinv.record hi hphase).complete hi hphase (Int.not_lt.mp hcap)
        simp [BudgetState.record, applyWrite]
    | failed => exact hinv.move hi hreturned rfl
    | lost => exact (hinv.record hi hphase).move hi hreturned rfl

/-- The pruner takes a row that is too old to be counted in. -/
theorem deleteRow {start w : Nat} {k : Uuid} (hinv : s.Inv hourlyCap apiKeyId window)
    (hstart : start ∈ s.pruners) (hstale : isStale start w = true) :
    (s.deleteRow k w).Inv hourlyCap apiKeyId window := by
  constructor
  · exact hinv.bounded
  · intro hlive
    have hrow : ¬ (apiKeyId = k ∧ window = w) := by
      rintro ⟨-, rfl⟩
      have hold : window * nanosPerHour + pruneAge < start := of_decide_eq_true hstale
      have hlive : s.now ≤ window * nanosPerHour + pruneAge := hlive
      have := hinv.started start hstart
      omega
    show s.spent apiKeyId window ≤
      (if apiKeyId = k ∧ window = w then none else s.db.rateLimit apiKeyId window).getD 0
    rw [if_neg hrow]
    exact hinv.recorded hlive
  · exact hinv.pending
  · exact hinv.single
  · exact hinv.started

/-- A call that has only read the clock. -/
theorem call (hinv : s.Inv hourlyCap apiKeyId window) (k : Uuid) (chunkCount : Int) :
    { s with calls := s.calls ++ [⟨k, chunkCount, s.now, .clockRead⟩] : BudgetState }.Inv
      hourlyCap apiKeyId window := by
  have hspent : BudgetState.spent
      { s with calls := s.calls ++ [⟨k, chunkCount, s.now, .clockRead⟩] } apiKeyId window
      = s.spent apiKeyId window := by
    unfold BudgetState.spent
    rw [incrementSum_append]
    simp [incrementSum, weight, returnedFor, CallPhase.hasReturned]
  -- the new call has not come to its `UPSERT`, so who has is an old one
  have hold : ∀ (j : Nat) (d : BudgetCall), (s.calls ++ [⟨k, chunkCount, s.now, .clockRead⟩])[j]? = some d →
      d.phase.isUpserted = true → s.calls[j]? = some d := by
    intro j d hj hdup
    rw [List.getElem?_append] at hj
    split_ifs at hj with hlt
    · exact hj
    · have hd := List.mem_of_getElem? hj
      rw [List.mem_singleton.mp hd] at hdup
      cases hdup
  constructor
  · rw [hspent]
    exact hinv.bounded
  · rw [hspent]
    exact hinv.recorded
  · intro d hd hfor newTotal hphase
    rw [hspent]
    rcases List.mem_append.mp hd with hd | hd
    · exact hinv.pending d hd hfor newTotal hphase
    · rw [List.mem_singleton.mp hd] at hphase
      cases hphase
  · intro j l d e hj hl hd he hdup heup
    exact hinv.single j l d e (hold j d hj hdup) (hold l e hl heup) hd he hdup heup
  · exact hinv.started

theorem start (h : (chunkBudget hourlyCap).init s) : s.Inv hourlyCap apiKeyId window := by
  obtain ⟨hcalls, hpruners⟩ := h
  have hspent : s.spent apiKeyId window = 0 := by
    unfold BudgetState.spent
    rw [hcalls]
    rfl
  constructor
  · rw [hspent]
    exact Nat.zero_le _
  · rw [hspent]
    exact fun _ => Nat.zero_le _
  · simp [hcalls]
  · simp [hcalls]
  · simp [hpruners]

/-- Time goes on: a row that is not stale now was not stale before. -/
theorem tick (hinv : s.Inv hourlyCap apiKeyId window) (elapsed : Nat) :
    { s with now := s.now + elapsed : BudgetState }.Inv hourlyCap apiKeyId window := by
  constructor
  · exact hinv.bounded
  · intro hlive
    have hlive : s.now + elapsed ≤ window * nanosPerHour + pruneAge := hlive
    exact hinv.recorded (by omega)
  · exact hinv.pending
  · exact hinv.single
  · intro start hstart
    exact Nat.le_trans (hinv.started start hstart) (Nat.le_add_right _ _)

theorem startPrune (hinv : s.Inv hourlyCap apiKeyId window) :
    { s with pruners := s.pruners ++ [s.now] : BudgetState }.Inv hourlyCap apiKeyId window := by
  constructor
  · exact hinv.bounded
  · exact hinv.recorded
  · exact hinv.pending
  · exact hinv.single
  · intro start hstart
    rcases List.mem_append.mp hstart with hstart | hstart
    · exact hinv.started start hstart
    · rw [List.mem_singleton.mp hstart]

/-- An hour of the window and 23 to the `UPSERT`: the row is not stale yet. -/
theorem live_of_timely (hi : s.calls[i]? = some c)
    (htimely : timely (23 * nanosPerHour) s (.upsert i) = true) :
    s.now ≤ c.windowStart * nanosPerHour + pruneAge := by
  simp only [timely, hi, decide_eq_true_eq] at htimely
  unfold BudgetCall.windowStart Gateway.windowStart pruneAge
  unfold nanosPerHour nanosPerSecond at *
  omega

/-- **One step.** -/
theorem step {a : BudgetAction} (hinv : s.Inv hourlyCap apiKeyId window)
    (htimely : timely (23 * nanosPerHour) s a = true) (h : s.step hourlyCap a = some s') :
    s'.Inv hourlyCap apiKeyId window := by
  cases a with
  | tick elapsed =>
      cases h
      exact hinv.tick elapsed
  | call k chunkCount =>
      cases h
      exact hinv.call k chunkCount
  | upsert i =>
      obtain ⟨c, hi, h⟩ := Option.bind_eq_some_iff.mp h
      cases hphase : c.phase with
      | clockRead =>
          simp only [hphase, stepCall] at h
          split_ifs at h with hlocked
          cases htotal : upsertTotal s.db c.apiKeyId c.windowStart c.increment with
          | none =>
              rw [htotal] at h
              cases h
              exact hinv.move hi (by rw [hphase]; rfl) rfl
          | some newTotal =>
              -- no other call holds the lock on the row, and the pruner has not taken it
              rw [htotal] at h
              cases h
              exact hinv.upsert hi hphase (Bool.not_eq_true _ ▸ hlocked)
                (live_of_timely hi htimely) htotal
      | _ => simp [hphase, stepCall] at h
  | finish i outcome =>
      obtain ⟨c, hi, h⟩ := Option.bind_eq_some_iff.mp h
      cases hphase : c.phase with
      | upserted newTotal =>
          simp only [hphase, stepCall, Option.some.injEq] at h
          subst h
          exact hinv.finish hi hphase outcome
      | _ => simp [hphase, stepCall] at h
  | fail i =>
      obtain ⟨c, hi, h⟩ := Option.bind_eq_some_iff.mp h
      cases hphase : c.phase with
      | clockRead =>
          simp only [hphase, stepCall, Option.some.injEq] at h
          subst h
          exact hinv.move hi (by rw [hphase]; rfl) rfl
      | upserted newTotal =>
          simp only [hphase, stepCall, Option.some.injEq] at h
          subst h
          exact hinv.move hi (by rw [hphase]; rfl) rfl
      | _ => simp [hphase, stepCall] at h
  | outer i commits =>
      obtain ⟨c, hi, h⟩ := Option.bind_eq_some_iff.mp h
      cases hphase : c.phase with
      | returned =>
          simp only [hphase, stepCall, Option.some.injEq] at h
          subst h
          exact hinv.move hi (by rw [hphase]; cases commits <;> rfl) (by cases commits <;> rfl)
      | _ => simp [hphase, stepCall] at h
  | startPrune =>
      cases h
      exact hinv.startPrune
  | pruneRow i k w =>
      obtain ⟨start, hi, h⟩ := Option.bind_eq_some_iff.mp h
      split_ifs at h with hprune
      cases h
      exact hinv.deleteRow (List.mem_of_getElem? hi) (Bool.and_eq_true_iff.mp hprune).1

end BudgetState.Inv

/-! ## The cap -/

/-- **The hourly cap.** What the calls of a key and window that returned have counted is at most the
cap, and so is what was delivered. -/
theorem hourly_cap {s₀ : BudgetState} {as : List BudgetAction}
    (hinit : (chunkBudget hourlyCap).init s₀)
    (hrun : (chunkBudget hourlyCap).Steps (fun s a => timely (23 * nanosPerHour) s a = true) s₀ as s)
    (apiKeyId : Uuid) (window : Nat) :
    chunkSum (returnedFor apiKeyId window) s.calls ≤ max hourlyCap 0 ∧
      chunkSum (deliveredFor apiKeyId window) s.calls ≤ max hourlyCap 0 := by
  have hend : s.Inv hourlyCap apiKeyId window :=
    hrun.preserves (fun _ _ _ (hinv : BudgetState.Inv hourlyCap apiKeyId window _) hc hst =>
      hinv.step hc hst) (.start hinit)
  have hbound : (s.spent apiKeyId window : Int) ≤ max hourlyCap 0 := by
    have := hend.bounded
    omega
  constructor
  · exact Int.le_trans (chunkSum_le (fun _ h => h) s.calls) hbound
  · apply Int.le_trans (chunkSum_le _ s.calls) hbound
    intro c hc
    obtain ⟨hfor, hphase⟩ := Bool.and_eq_true_iff.mp hc
    unfold returnedFor
    rw [hfor, of_decide_eq_true hphase]
    rfl

/-! ## A window that is over for 23 hours

A key fills a cap of ten in the first hour of the day. Another of its calls reads the clock at 00:50
and gets to its `UPSERT` 23 hours and 50 minutes later, after the pruner has taken the row. -/

def nanosPerMinute : Nat := 60 * nanosPerSecond

def budgetStart : BudgetState := ⟨10 * nanosPerMinute, noDocuments.db, [], []⟩

def fillTheCap : List BudgetAction := [
  .call (sampleId 1) 10, .upsert 0, .finish 0 .done, .outer 0 true]

def countAgainNextDay : List BudgetAction := [
  .tick (40 * nanosPerMinute), .call (sampleId 1) 1,
  .tick (1427 * nanosPerMinute), .startPrune, .pruneRow 0 (sampleId 1) 0,
  .tick (3 * nanosPerMinute), .upsert 1, .finish 1 .done, .outer 1 true]

/-- A run to which the cap applies, with one more call that is turned away. -/
theorem hourly_cap_filled :
    ∃ s, (chunkBudget 10).Steps (fun s a => timely (23 * nanosPerHour) s a = true) budgetStart
        (fillTheCap ++ [.call (sampleId 1) 1, .upsert 1, .finish 1 .done]) s ∧
      chunkSum (returnedFor (sampleId 1) 0) s.calls ≤ 10 ∧
      chunkSum (deliveredFor (sampleId 1) 0) s.calls ≤ 10 := by
  obtain ⟨s, hs⟩ := Option.isSome_iff_exists.mp (show ((chunkBudget 10).runWhere
    (timely (23 * nanosPerHour)) budgetStart
    (fillTheCap ++ [.call (sampleId 1) 1, .upsert 1, .finish 1 .done])).isSome = true by decide)
  have hrun := System.steps_of_runWhere hs
  exact ⟨s, hrun, hourly_cap ⟨rfl, rfl⟩ hrun (sampleId 1) 0⟩

/-- **Eleven chunks under a cap of ten.** -/
theorem pruned_window_exceeds :
    ∃ s, (chunkBudget 10).init budgetStart ∧
      (chunkBudget 10).Steps (fun s a => timely (24 * nanosPerHour) s a = true) budgetStart
        (fillTheCap ++ countAgainNextDay) s ∧
      chunkSum (returnedFor (sampleId 1) 0) s.calls = 11 ∧
      chunkSum (deliveredFor (sampleId 1) 0) s.calls = 11 := by
  obtain ⟨s, hs, hsum⟩ := Option.map_eq_some_iff.mp (show ((chunkBudget 10).runWhere
      (timely (24 * nanosPerHour)) budgetStart (fillTheCap ++ countAgainNextDay)).map
      (fun s => (chunkSum (returnedFor (sampleId 1) 0) s.calls,
        chunkSum (deliveredFor (sampleId 1) 0) s.calls)) = some (11, 11) by decide)
  have hsums := Prod.mk.inj hsum
  exact ⟨s, ⟨rfl, rfl⟩, System.steps_of_runWhere hs, hsums.1, hsums.2⟩

/-! ## The calls of the system are those of the program -/

/-- What one invocation of `commitChunks` does, by what happens to its transaction. -/
def invocation (env : Env) (db : Database) (apiKeyId : Uuid) (chunkCount : Int) :
    List BudgetAction :=
  if env.inner.beginFails || env.upsertFails then [.call apiKeyId chunkCount, .fail 0]
  else match upsertTotal db apiKeyId (windowStart env.now) (max 0 chunkCount).toNat with
    | none => [.call apiKeyId chunkCount, .upsert 0]
    | some _ => [.call apiKeyId chunkCount, .upsert 0,
        .finish 0 (if env.inner.commitFails then .failed else .done)]

/-- One call and nothing else. -/
def BudgetState.alone (now : Nat) (db : Database) (c : BudgetCall) : BudgetState := ⟨now, db, [c], []⟩

theorem step_alone_upsert (hourlyCap : Int) (now : Nat) (db : Database) (apiKeyId : Uuid)
    (chunkCount : Int) :
    BudgetState.step hourlyCap (.alone now db ⟨apiKeyId, chunkCount, now, .clockRead⟩) (.upsert 0)
      = match upsertTotal db apiKeyId (windowStart now) (max 0 chunkCount).toNat with
        | none => some (.alone now db ⟨apiKeyId, chunkCount, now, .threw⟩)
        | some newTotal => some (.alone now db ⟨apiKeyId, chunkCount, now, .upserted newTotal⟩) := by
  have hunlocked : (BudgetState.alone now db ⟨apiKeyId, chunkCount, now, .clockRead⟩).locked apiKeyId
      (windowStart now) = false := by
    simp [BudgetState.locked, BudgetState.alone, CallPhase.isUpserted]
  show (if (BudgetState.alone now db ⟨apiKeyId, chunkCount, now, .clockRead⟩).locked apiKeyId
      (windowStart now) then none
    else match upsertTotal db apiKeyId (windowStart now) (max 0 chunkCount).toNat with
      | none => _
      | some newTotal => _) = _
  rw [hunlocked]
  cases upsertTotal db apiKeyId (windowStart now) (max 0 chunkCount).toNat <;> rfl

/-- **One call alone.** With nothing in between, the steps of a call leave the table as
`commitChunks` does, and it returns when `commitChunks` does. -/
theorem alone_commitChunks (p : Platform) (env : Env) (apiKeyId : Uuid) (chunkCount : Int)
    (s : GatewaySession) :
    ∃ db phase, (chunkBudget p.hourlyCap).run ⟨env.now, s.store, [], []⟩
        (invocation env s.store apiKeyId chunkCount)
        = some (.alone env.now db ⟨apiKeyId, chunkCount, env.now, phase⟩) ∧
      db = (commitChunks p env (some apiKeyId) chunkCount s).2.store ∧
      (phase.hasReturned = true ↔ (commitChunks p env (some apiKeyId) chunkCount s).1 = .ok ()) := by
  rw [commitChunks_apply]
  unfold invocation budgetTotal
  -- the failures in the order `commitChunks` meets them
  by_cases hbegin : env.inner.beginFails = true
  · refine ⟨s.store, .threw, by rw [hbegin]; rfl, ?_, ?_⟩
    · rw [if_pos hbegin]
    · simp [hbegin, CallPhase.hasReturned]
  · rw [if_neg hbegin]
    by_cases hupsert : env.upsertFails = true
    · refine ⟨s.store, .threw, by rw [hupsert, Bool.or_true]; rfl, ?_, ?_⟩
      · rw [if_pos hupsert]
      · simp [hupsert, CallPhase.hasReturned]
    · have hstep := step_alone_upsert p.hourlyCap env.now s.store apiKeyId chunkCount
      simp only [hbegin, hupsert, Bool.or_self, Bool.false_eq_true, if_false]
      cases htotal : upsertTotal s.store apiKeyId (windowStart env.now) (max 0 chunkCount).toNat with
      | none =>
          rw [htotal] at hstep
          refine ⟨s.store, .threw, ?_, rfl, by simp [CallPhase.hasReturned]⟩
          show (BudgetState.step p.hourlyCap (.alone _ _ _) (.upsert 0)).bind _ = _
          rw [hstep]
          rfl
      | some newTotal =>
          rw [htotal] at hstep
          have hrun : ∀ outcome, (chunkBudget p.hourlyCap).run ⟨env.now, s.store, [], []⟩
              [.call apiKeyId chunkCount, .upsert 0, .finish 0 outcome]
              = some (BudgetState.finish p.hourlyCap
                (.alone env.now s.store ⟨apiKeyId, chunkCount, env.now, .upserted newTotal⟩) 0
                ⟨apiKeyId, chunkCount, env.now, .upserted newTotal⟩ newTotal outcome) := by
            intro outcome
            show (BudgetState.step p.hourlyCap (.alone _ _ _) (.upsert 0)).bind _ = _
            rw [hstep]
            rfl
          dsimp only
          rw [hrun]
          unfold BudgetState.finish
          by_cases hcap : (newTotal : Int) > p.hourlyCap
          · rw [if_pos hcap, if_pos hcap]
            exact ⟨s.store, .threw, rfl, rfl, by simp [CallPhase.hasReturned]⟩
          · rw [if_neg hcap, if_neg hcap]
            by_cases hcommit : env.inner.commitFails = true
            · rw [if_pos hcommit, if_pos hcommit]
              exact ⟨s.store, .threw, rfl, rfl, by simp [CallPhase.hasReturned]⟩
            · rw [if_neg hcommit, if_neg hcommit]
              exact ⟨_, .returned, rfl, rfl, by simp [CallPhase.hasReturned]⟩

theorem spendBudget_none {p : Platform} {env : Env} {apiKeyId : Uuid} {count : Nat}
    {s s' : GatewaySession} (h : spendBudget p env apiKeyId count s = (.ok none, s')) :
    ∃ t, commitChunks p env (some apiKeyId) count s = (.ok (), t) := by
  unfold spendBudget at h
  cases hcommit : commitChunks p env (some apiKeyId) count s with
  | mk out t =>
      cases out with
      | ok _ => exact ⟨t, rfl⟩
      | error e =>
          rw [tryCatch_error (bind_error hcommit)] at h
          cases e <;> cases h

/-- **Fragments are counted before they leave.** What a search returns is a denial, or as many
fragments as it had `commitChunks` count. -/
theorem fragments_counted {p : Platform} {env : Env} {auth : Authentication} {toolName : String}
    {retrieve : Retrieval} {query : Option JString} {maxResults : Option Int}
    {fragments : List DataFragment} {s s' : GatewaySession}
    (h : searchTool p env auth toolName retrieve query maxResults s = (.ok (.fragments fragments), s')) :
    (∃ reason, fragments = [queryRejected reason]) ∨
    (∃ retryAfterSeconds, fragments = [budgetExceeded retryAfterSeconds]) ∨
    ∃ apiKeyId t t', commitChunks p env (some apiKeyId) fragments.length t = (.ok (), t') := by
  unfold searchTool at h
  cases hquery : acceptedQuery query with
  | none =>
      rw [hquery] at h
      cases h
  | some q =>
      rw [hquery] at h
      obtain ⟨guardResult, s₁, -, h⟩ := of_bind_ok h
      cases guardResult with
      | error reason =>
          cases h
          exact Or.inl ⟨reason, rfl⟩
      | ok result =>
          obtain ⟨apiKey, s₂, -, h⟩ := of_bind_ok h
          obtain ⟨rows, s₃, -, h⟩ := of_bind_ok h
          obtain ⟨found, s₄, -, h⟩ := of_bind_ok h
          obtain ⟨exceeded, s₅, hspend, h⟩ := of_bind_ok h
          cases exceeded with
          | some retryAfterSeconds =>
              cases h
              exact Or.inr (Or.inl ⟨retryAfterSeconds, rfl⟩)
          | none =>
              obtain ⟨-, s₆, -, h⟩ := of_bind_ok h
              cases h
              exact Or.inr (Or.inr ⟨apiKey.id, s₄, spendBudget_none hspend⟩)

end McpGateway.Gateway
