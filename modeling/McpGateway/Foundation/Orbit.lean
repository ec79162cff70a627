import Mathlib.Data.Fintype.Pigeonhole
import Mathlib.Logic.Relation

/-! # Runs of a partial function

A loop whose next state is a function of its state, or is not there.

* `halts_iff` — among finitely many states it ends exactly when it never comes back to one. -/

namespace McpGateway.Foundation.Orbit

open Relation

variable {α : Type*} (next : α → Option α)

/-- Where so many steps lead; `none` when the run has ended by then. -/
def steps : Nat → α → Option α
  | 0, a => some a
  | n + 1, a => (next a).bind (steps n)

def Leads (a b : α) : Prop := next a = some b

/-- The run from here ends. -/
def Halts (a : α) : Prop := ∃ n, steps next n a = none

/-- The run from here gets to a state and comes back to it. -/
def ComesBack (a : α) : Prop := ∃ b, ReflTransGen (Leads next) a b ∧ TransGen (Leads next) b b

variable {next} {a b : α} {n : Nat}

theorem steps_succ_of_leads (h : Leads next a b) : steps next (n + 1) a = steps next n b := by
  unfold Leads at h
  rw [steps, h]
  rfl

theorem steps_add (m n : Nat) (a : α) :
    steps next (m + n) a = (steps next m a).bind (steps next n) := by
  induction m generalizing a with
  | zero =>
      rw [Nat.zero_add]
      rfl
  | succ m ih =>
      rw [Nat.succ_add, steps, steps]
      cases next a with
      | none => rfl
      | some b => exact ih b

/-- One step or more. -/
theorem transGen_of_steps (h : steps next (n + 1) a = some b) : TransGen (Leads next) a b := by
  induction n generalizing a with
  | zero =>
      obtain ⟨c, hc, hb⟩ := Option.bind_eq_some_iff.mp h
      cases hb
      exact .single hc
  | succ n ih =>
      obtain ⟨c, hc, hb⟩ := Option.bind_eq_some_iff.mp h
      exact .head hc (ih hb)

theorem reflTransGen_of_steps (h : steps next n a = some b) : ReflTransGen (Leads next) a b := by
  cases n with
  | zero =>
      cases h
      exact .refl
  | succ n => exact (transGen_of_steps h).to_reflTransGen

/-- What lies on a cycle can always go on. -/
theorem steps_ne_none_of_cycle (h : TransGen (Leads next) a a) : steps next n a ≠ none := by
  induction n generalizing a with
  | zero => simp [steps]
  | succ n ih =>
      obtain ⟨b, hab, hba⟩ := TransGen.head'_iff.mp h
      rw [steps_succ_of_leads hab]
      exact ih (TransGen.tail' hba hab)

theorem Halts.of_leads (h : Halts next a) (hab : Leads next a b) : Halts next b := by
  obtain ⟨n, hn⟩ := h
  cases n with
  | zero => cases hn
  | succ n => exact ⟨n, (steps_succ_of_leads hab).symm.trans hn⟩

theorem Halts.of_reflTransGen (h : Halts next a) (hab : ReflTransGen (Leads next) a b) :
    Halts next b := by
  induction hab with
  | refl => exact h
  | tail _ hstep ih => exact ih.of_leads hstep

/-- **Ending and coming back.** -/
theorem halts_iff [Finite α] : Halts next a ↔ ¬ ComesBack next a := by
  constructor
  · rintro h ⟨b, hab, hcycle⟩
    obtain ⟨n, hn⟩ := h.of_reflTransGen hab
    exact steps_ne_none_of_cycle hcycle hn
  · intro hnever
    by_contra hruns
    -- all the states of an endless run are there, and two of them are the same
    have hsome : ∀ n, ∃ b, steps next n a = some b := fun n =>
      Option.ne_none_iff_exists'.mp fun hn => hruns ⟨n, hn⟩
    choose f hf using hsome
    obtain ⟨i, j, hne, heq⟩ := Finite.exists_ne_map_eq_of_infinite f
    have hcome : ∀ i j, i < j → f i = f j → ComesBack next a := by
      intro i j hlt heq
      obtain ⟨k, rfl⟩ : ∃ k, j = i + (k + 1) := ⟨j - i - 1, by omega⟩
      have hsteps : steps next (k + 1) (f i) = some (f i) := by
        have h := hf (i + (k + 1))
        rw [steps_add, hf i, ← heq] at h
        exact h
      exact ⟨f i, reflTransGen_of_steps (hf i), transGen_of_steps hsteps⟩
    rcases Nat.lt_or_gt_of_ne hne with hlt | hlt
    · exact hnever (hcome i j hlt heq)
    · exact hnever (hcome j i hlt heq.symm)

end McpGateway.Foundation.Orbit
