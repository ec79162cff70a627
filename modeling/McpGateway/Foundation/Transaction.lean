import Mathlib.Data.List.Basic
import McpGateway.Foundation.Act

/-! # Transactions around computations

A session runs on one connection to a store. Writes made inside a transaction are its `work` and
reach the store when it commits; outside a transaction a write commits by itself. `execute` opens a
transaction around a computation and ends it by the rules of a declarative transaction manager:

* an exception that leaves the computation rolls back;
* a local `setRollbackOnly` rolls back quietly;
* a participant that failed has doomed the transaction, and committing it throws;
* a transaction aborted by a failed statement cannot commit either.

`requiresNew` suspends the current transaction and runs the computation in one of its own. -/

namespace McpGateway.Foundation

variable {δ ω κ ε α : Type}

/-- An open transaction: the settings of its connection, its uncommitted writes, and whether a
statement, a participant or the owner has ruled out a commit. -/
structure Tx (ω κ : Type) where
  settings : κ
  work : List ω
  aborted : Bool
  rollbackOnly : Bool
  localRollbackOnly : Bool

/-- The committed store, the settings of the connection between transactions, and the current
transaction. `issued` remembers every write that was asked for. -/
structure Session (δ ω κ : Type) where
  store : δ
  conn : κ
  tx : Option (Tx ω κ)
  issued : List ω

/-- How a write changes the store, how a connection's settings come out of a transaction, and what
is thrown when a transaction cannot begin, was doomed, or fails to commit. -/
structure TxRules (δ ω κ ε : Type) where
  apply : δ → ω → δ
  cannotBegin : ε
  unexpectedRollback : ε
  commitFailed : ε

/-- What the outside decides about one transaction. -/
structure TxFate (κ : Type) where
  beginFails : Bool
  commitFails : Bool
  revert : κ → κ

namespace Session

/-! ## Inside a transaction -/

/-- Change the current transaction. -/
def onTx (f : Tx ω κ → Tx ω κ) (s : Session δ ω κ) : Session δ ω κ := { s with tx := s.tx.map f }

/-- The settings statements run under. -/
def settings (s : Session δ ω κ) : κ := (s.tx.map Tx.settings).getD s.conn

/-- A statement of the current transaction would fail because an earlier one did. -/
def isAborted (s : Session δ ω κ) : Bool := (s.tx.map Tx.aborted).getD false

/-- A write: part of the transaction if there is one, committed at once if there is none. -/
def write (rules : TxRules δ ω κ ε) (w : ω) (s : Session δ ω κ) : Session δ ω κ :=
  match s.tx with
  | some t => { s with tx := some { t with work := t.work ++ [w] }, issued := s.issued ++ [w] }
  | none => { s with store := rules.apply s.store w, issued := s.issued ++ [w] }

/-- A write whose participant fails dooms the transaction it joined. -/
def failWrite (w : ω) (s : Session δ ω κ) : Session δ ω κ :=
  { s with tx := s.tx.map fun t => { t with rollbackOnly := true }, issued := s.issued ++ [w] }

/-! ## Beginning and ending -/

def begin (s : Session δ ω κ) : Session δ ω κ :=
  { s with tx := some ⟨s.conn, [], false, false, false⟩ }

/-- End the transaction without its writes. -/
def rollback (fate : TxFate κ) (s : Session δ ω κ) : Session δ ω κ :=
  { s with tx := none, conn := fate.revert s.conn }

/-- End the transaction with its writes. -/
def commit (rules : TxRules δ ω κ ε) (fate : TxFate κ) (work : List ω) (s : Session δ ω κ) :
    Session δ ω κ :=
  { s with store := work.foldl rules.apply s.store, tx := none, conn := fate.revert s.conn }

/-- How a transaction ends, given how its computation did. -/
def finish (rules : TxRules δ ω κ ε) (fate : TxFate κ) (out : Except ε α) (s : Session δ ω κ) :
    Except ε α × Session δ ω κ :=
  match out, s.tx with
  | .error e, _ => (.error e, s.rollback fate)
  | .ok a, none => (.ok a, s)
  | .ok a, some t =>
      if t.localRollbackOnly then (.ok a, s.rollback fate)
      else if t.rollbackOnly then (.error rules.unexpectedRollback, s.rollback fate)
      else if t.aborted || fate.commitFails then (.error rules.commitFailed, s.rollback fate)
      else (.ok a, s.commit rules fate t.work)

/-- Run a computation in a transaction. -/
def execute (rules : TxRules δ ω κ ε) (fate : TxFate κ) (body : Act (Session δ ω κ) ε α) :
    Act (Session δ ω κ) ε α := fun s =>
  if fate.beginFails then (.error rules.cannotBegin, s)
  else finish rules fate (body s.begin).1 (body s.begin).2

/-- Suspend the current transaction and run a computation in one of its own, on another
connection. -/
def requiresNew (rules : TxRules δ ω κ ε) (fate : TxFate κ) (conn : κ)
    (body : Act (Session δ ω κ) ε α) : Act (Session δ ω κ) ε α := fun s =>
  let (out, s') := execute rules fate body { s with tx := none, conn := conn }
  (out, { s' with tx := s.tx, conn := s.conn })

theorem execute_cannotBegin (rules : TxRules δ ω κ ε) {fate : TxFate κ}
    {body : Act (Session δ ω κ) ε α} (h : fate.beginFails = true) (s : Session δ ω κ) :
    execute rules fate body s = (.error rules.cannotBegin, s) := by
  unfold execute
  rw [if_pos h]

theorem execute_begins (rules : TxRules δ ω κ ε) {fate : TxFate κ}
    {body : Act (Session δ ω κ) ε α} (h : fate.beginFails = false) {s s' : Session δ ω κ}
    {out : Except ε α} (hbody : body s.begin = (out, s')) :
    execute rules fate body s = finish rules fate out s' := by
  unfold execute
  rw [h, if_neg Bool.false_ne_true, hbody]

/-! ## What can come of it -/

/-- The transaction can commit. -/
def Committable (fate : TxFate κ) (t : Tx ω κ) : Prop :=
  t.localRollbackOnly = false ∧ t.rollbackOnly = false ∧ t.aborted = false ∧
    fate.commitFails = false

/-- **A value comes out of a transaction only with its writes**, unless its owner asked for a quiet
rollback. -/
theorem finish_ok {rules : TxRules δ ω κ ε} {fate : TxFate κ} {out : Except ε α}
    {s s' : Session δ ω κ} {a : α} {t : Tx ω κ} (ht : s.tx = some t)
    (hlocal : t.localRollbackOnly = false) (h : finish rules fate out s = (.ok a, s')) :
    out = .ok a ∧ Committable fate t ∧ s' = s.commit rules fate t.work := by
  unfold finish at h
  cases out with
  | error e => cases h
  | ok b =>
      simp only [ht, hlocal, Bool.false_eq_true, if_false] at h
      by_cases hro : t.rollbackOnly = true
      · rw [if_pos hro] at h
        cases h
      · rw [if_neg hro] at h
        by_cases hab : (t.aborted || fate.commitFails) = true
        · rw [if_pos hab] at h
          cases h
        · rw [if_neg hab] at h
          simp only [Bool.or_eq_true, not_or, Bool.not_eq_true] at hab
          cases h
          exact ⟨rfl, ⟨hlocal, by simpa using hro, hab.1, hab.2⟩, rfl⟩

/-- A transaction that can commit does. -/
theorem finish_commit (rules : TxRules δ ω κ ε) {fate : TxFate κ} {s : Session δ ω κ} {a : α}
    {t : Tx ω κ} (ht : s.tx = some t) (hc : Committable fate t) :
    finish rules fate (.ok a) s = (.ok a, s.commit rules fate t.work) := by
  obtain ⟨hlocal, hro, hab, hcf⟩ := hc
  simp [finish, ht, hlocal, hro, hab, hcf]

/-- One that cannot leaves the store as it was. -/
theorem finish_rollback {rules : TxRules δ ω κ ε} {fate : TxFate κ} {s : Session δ ω κ}
    {out : Except ε α} {t : Tx ω κ} (ht : s.tx = some t)
    (hc : ¬ (∃ a, out = .ok a) ∨ ¬ Committable fate t) :
    (finish rules fate out s).2 = s.rollback fate := by
  cases out with
  | error e => rfl
  | ok a =>
      have hnot : ¬ Committable fate t := by
        rcases hc with h | h
        · exact absurd ⟨a, rfl⟩ h
        · exact h
      unfold finish
      simp only [ht]
      split_ifs with h₁ h₂ h₃
      · rfl
      · rfl
      · rfl
      · refine absurd ?_ hnot
        simp only [Bool.or_eq_true, not_or, Bool.not_eq_true] at h₃
        exact ⟨by simpa using h₁, by simpa using h₂, h₃.1, h₃.2⟩

/-- It ends with its writes or without them. -/
theorem finish_cases (rules : TxRules δ ω κ ε) {fate : TxFate κ} {s : Session δ ω κ}
    {out : Except ε α} {t : Tx ω κ} (ht : s.tx = some t) :
    (finish rules fate out s).2 = s.commit rules fate t.work ∨
      (finish rules fate out s).2 = s.rollback fate := by
  by_cases hok : ∃ a, out = .ok a
  · obtain ⟨a, rfl⟩ := hok
    by_cases hc : Committable fate t
    · rw [finish_commit rules ht hc]
      exact Or.inl rfl
    · exact Or.inr (finish_rollback ht (Or.inr hc))
  · exact Or.inr (finish_rollback ht (Or.inl hok))

/-! ## Two runs

Computations that cannot tell two stores apart stay in step inside a transaction, whatever they
write. -/

/-- Two sessions in the same transaction, over stores related by `D`. -/
structure Alike (D : δ → δ → Prop) (settings : κ) (s₁ s₂ : Session δ ω κ) : Prop where
  store : D s₁.store s₂.store
  issued : s₁.issued = s₂.issued
  tx : ∃ t, s₁.tx = some t ∧ s₂.tx = some t ∧ t.settings = settings

section TwoRuns

variable {D : δ → δ → Prop} {settings conn : κ} {rules : TxRules δ ω κ ε} {V : α → Prop}

theorem rel_write (w : ω) :
    Act.Rel (Alike D settings) (Act.modify (write rules w) : Act (Session δ ω κ) ε Unit)
      fun _ => True := by
  apply Act.Rel.modify
  · intro s₁ s₂ h
    obtain ⟨t, h₁, h₂, ht⟩ := h.tx
    unfold write
    rw [h₁, h₂]
    exact ⟨h.store, congrArg (· ++ [w]) h.issued, _, rfl, rfl, ht⟩
  · trivial

theorem rel_failWrite (w : ω) :
    Act.Rel (Alike D settings) (Act.modify (failWrite w) : Act (Session δ ω κ) ε Unit)
      fun _ => True := by
  apply Act.Rel.modify
  · intro s₁ s₂ h
    obtain ⟨t, h₁, h₂, ht⟩ := h.tx
    unfold failWrite
    rw [h₁, h₂]
    exact ⟨h.store, congrArg (· ++ [w]) h.issued, _, rfl, rfl, ht⟩
  · trivial

theorem rel_onTx {f : Tx ω κ → Tx ω κ} (hf : ∀ t, (f t).settings = t.settings) :
    Act.Rel (Alike D settings) (Act.modify (onTx f) : Act (Session δ ω κ) ε Unit)
      fun _ => True := by
  apply Act.Rel.modify
  · intro s₁ s₂ h
    obtain ⟨t, h₁, h₂, ht⟩ := h.tx
    unfold onTx
    rw [h₁, h₂]
    exact ⟨h.store, h.issued, _, rfl, rfl, (hf t).trans ht⟩
  · trivial

/-- Committing the same writes keeps alike stores alike. -/
theorem foldl_alike (happly : ∀ d₁ d₂ w, D d₁ d₂ → D (rules.apply d₁ w) (rules.apply d₂ w))
    (ws : List ω) {d₁ d₂ : δ} (h : D d₁ d₂) :
    D (ws.foldl rules.apply d₁) (ws.foldl rules.apply d₂) := by
  induction ws generalizing d₁ d₂ with
  | nil => exact h
  | cons w ws ih => exact ih (happly d₁ d₂ w h)

/-- Ending the same transaction in the same way keeps alike stores alike. -/
theorem finish_alike (happly : ∀ d₁ d₂ w, D d₁ d₂ → D (rules.apply d₁ w) (rules.apply d₂ w))
    (fate : TxFate κ) (out : Except ε α) {s₁ s₂ : Session δ ω κ} (h : Alike D settings s₁ s₂) :
    (finish rules fate out s₁).1 = (finish rules fate out s₂).1 ∧
      D (finish rules fate out s₁).2.store (finish rules fate out s₂).2.store ∧
      (finish rules fate out s₁).2.issued = (finish rules fate out s₂).2.issued := by
  obtain ⟨t, h₁, h₂, -⟩ := h.tx
  unfold finish
  cases out with
  | error e => exact ⟨rfl, h.store, h.issued⟩
  | ok a =>
      rw [h₁, h₂]
      dsimp only
      split_ifs
      · exact ⟨rfl, h.store, h.issued⟩
      · exact ⟨rfl, h.store, h.issued⟩
      · exact ⟨rfl, h.store, h.issued⟩
      · exact ⟨rfl, foldl_alike happly t.work h.store, h.issued⟩

/-- The rule for a nested transaction. -/
theorem rel_requiresNew (happly : ∀ d₁ d₂ w, D d₁ d₂ → D (rules.apply d₁ w) (rules.apply d₂ w))
    {fate : TxFate κ} {body : Act (Session δ ω κ) ε α} (hbody : Act.Rel (Alike D conn) body V) :
    Act.Rel (Alike D settings) (requiresNew rules fate conn body) fun _ => True := by
  intro s₁ s₂ h
  unfold requiresNew execute
  by_cases hbegin : fate.beginFails = true
  · rw [if_pos hbegin, if_pos hbegin]
    exact ⟨rfl, ⟨h.store, h.issued, h.tx⟩, fun _ _ => trivial⟩
  · rw [if_neg hbegin, if_neg hbegin]
    have hin : Alike D conn (begin { s₁ with tx := none, conn := conn })
        (begin { s₂ with tx := none, conn := conn }) :=
      ⟨h.store, h.issued, _, rfl, rfl, rfl⟩
    obtain ⟨hout, hrel, -⟩ := hbody _ _ hin
    obtain ⟨hres, hstore, hissued⟩ := finish_alike happly fate
      (body (begin { s₁ with tx := none, conn := conn })).1 hrel
    rw [hout] at hres hstore hissued
    rw [hout]
    exact ⟨hres, ⟨hstore, hissued, h.tx⟩, fun _ _ => trivial⟩

end TwoRuns

end Session

end McpGateway.Foundation
