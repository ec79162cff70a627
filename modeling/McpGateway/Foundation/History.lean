import Mathlib.Data.List.Induction
import McpGateway.Foundation.Transition

/-! # The past of a run

`Once S s₀ as P` — on the way from `s₀` along the actions `as` the system was in a state with `P`.
It is a cut of these actions, and a run is determined by them, so the state is one of the run at hand.
What was once so stays so, and invariants may mention it (`preserves_past`). -/

namespace McpGateway.Foundation.System

variable {σ α : Type*} {S : System σ α} {s₀ s : σ} {as : List α} {P Q : σ → Prop}

/-- There was a state with `P` on the way. -/
def Once (S : System σ α) (s₀ : σ) (as : List α) (P : σ → Prop) : Prop :=
  ∃ before after s₁, as = before ++ after ∧ S.Steps anyStep s₀ before s₁ ∧ P s₁

theorem Once.now (hrun : S.Steps anyStep s₀ as s) (h : P s) : S.Once s₀ as P :=
  ⟨as, [], s, (List.append_nil as).symm, hrun, h⟩

theorem Once.later (h : S.Once s₀ as P) (bs : List α) : S.Once s₀ (as ++ bs) P := by
  obtain ⟨before, after, s₁, rfl, hpre, hP⟩ := h
  exact ⟨before, after ++ bs, s₁, List.append_assoc before after bs, hpre, hP⟩

theorem Once.mono (hPQ : ∀ s, P s → Q s) (h : S.Once s₀ as P) : S.Once s₀ as Q := by
  obtain ⟨before, after, s₁, has, hpre, hP⟩ := h
  exact ⟨before, after, s₁, has, hpre, hPQ s₁ hP⟩

/-- **The run rule for invariants about the past.** The invariant may mention the actions so far,
and a step may use that they lead to its state. -/
theorem preserves_past {Inv : List α → σ → Prop}
    (hstep : ∀ as s a s', S.Steps anyStep s₀ as s → Inv as s → S.step s a = some s' →
      Inv (as ++ [a]) s')
    (hrun : S.Steps anyStep s₀ as s) (hinit : Inv [] s₀) : Inv as s := by
  induction as using List.reverseRecOn generalizing s with
  | nil =>
      cases hrun
      exact hinit
  | append_singleton as a ih =>
      obtain ⟨t, hpre, hlast⟩ := hrun.split
      cases hlast with
      | cons _ hst hnil =>
          cases hnil
          exact hstep as t a s hpre (ih hpre) hst

end McpGateway.Foundation.System
