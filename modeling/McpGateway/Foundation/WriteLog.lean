import Mathlib.Data.List.Basic
import Mathlib.Logic.Function.Basic

/-! # A store and the log of its writes

A write that ends in an error may have been carried out all the same, when only the answer to it
was lost. So a log does not always say what the store holds.

* `Leads` — what the store can hold after the writes of a log.
* `Leads.settled` — a confirmed write decides what its key has, until the next write of that key. -/

namespace McpGateway.Foundation.WriteLog

structure Entry (κ ν : Type*) where
  key : κ
  /-- `none` removes the key -/
  value : Option ν
  confirmed : Bool

variable {κ ν : Type*} [DecidableEq κ] {m m' m'' : κ → Option ν} {e : Entry κ ν}
  {log log' : List (Entry κ ν)}

/-- The log leads from one content of the store to another: every confirmed write has been carried
out, and any other may have been. -/
inductive Leads : (κ → Option ν) → List (Entry κ ν) → (κ → Option ν) → Prop
  | nil (m : κ → Option ν) : Leads m [] m
  | written {m m' : κ → Option ν} {e : Entry κ ν} {log : List (Entry κ ν)} :
      Leads (Function.update m e.key e.value) log m' → Leads m (e :: log) m'
  | lost {m m' : κ → Option ν} {e : Entry κ ν} {log : List (Entry κ ν)} :
      e.confirmed = false → Leads m log m' → Leads m (e :: log) m'

theorem Leads.append (h : Leads m log m') (h' : Leads m' log' m'') : Leads m (log ++ log') m'' := by
  induction h with
  | nil => exact h'
  | written _ ih => exact .written (ih h')
  | lost hlost _ ih => exact .lost hlost (ih h')

theorem Leads.split (h : Leads m (log ++ log') m'') : ∃ m', Leads m log m' ∧ Leads m' log' m'' := by
  induction log generalizing m with
  | nil => exact ⟨m, .nil m, h⟩
  | cons e log ih =>
      cases h with
      | written h =>
          obtain ⟨m', hpre, hpost⟩ := ih h
          exact ⟨m', .written hpre, hpost⟩
      | lost hlost h =>
          obtain ⟨m', hpre, hpost⟩ := ih h
          exact ⟨m', .lost hlost hpre, hpost⟩

/-- What is not written stays. -/
theorem Leads.unwritten {k : κ} (h : Leads m log m') (hk : ∀ e ∈ log, e.key ≠ k) : m' k = m k := by
  induction h with
  | nil => rfl
  | written _ ih =>
      rw [ih fun e he => hk e (List.mem_cons_of_mem _ he)]
      exact Function.update_of_ne (hk _ List.mem_cons_self).symm _ _
  | lost _ _ ih => exact ih fun e he => hk e (List.mem_cons_of_mem _ he)

/-- **A confirmed write** that is the last of its key. -/
theorem Leads.settled (h : Leads m (log ++ e :: log') m') (hconfirmed : e.confirmed = true)
    (hlast : ∀ e' ∈ log', e'.key ≠ e.key) : m' e.key = e.value := by
  obtain ⟨m₁, -, h⟩ := h.split
  cases h with
  | written h =>
      rw [h.unwritten hlast]
      exact Function.update_self _ _ _
  | lost hlost _ =>
      rw [hconfirmed] at hlost
      cases hlost

end McpGateway.Foundation.WriteLog
