import Mathlib.Data.List.Basic

/-! # Labelled transition systems

A `System` is a set of initial states and a partial step function on actions. Everything the
development says about *every interleaving* goes through two notions:

* `Steps C s as s'` — the actions `as` lead from `s` to `s'`, and each of them was taken in a
  state where `C` allowed it. `C` is how a condition on the steps of a run is stated.
* `Reachable s` — some run from an initial state ends in `s`.

and through the two inductions `Steps.preserves` and `Reachable.invariant`. -/

namespace McpGateway.Foundation

/-- A labelled transition system: which states are initial, and where an action leads (`none` when
it is not enabled). -/
structure System (σ α : Type*) where
  init : σ → Prop
  step : σ → α → Option σ

namespace System

variable {σ α : Type*} {S : System σ α}

/-- The step condition that allows everything. -/
def anyStep : σ → α → Prop := fun _ _ => True

/-- A run: the actions are taken in order, each in a state where the step condition `C` holds. -/
inductive Steps (S : System σ α) (C : σ → α → Prop) : σ → List α → σ → Prop
  | nil (s : σ) : Steps S C s [] s
  | cons {s s' s'' : σ} {a : α} {as : List α} :
      C s a → S.step s a = some s' → Steps S C s' as s'' → Steps S C s (a :: as) s''

/-- Some run from an initial state ends here. -/
def Reachable (S : System σ α) (s : σ) : Prop :=
  ∃ s₀ as, S.init s₀ ∧ S.Steps anyStep s₀ as s

/-! ## Composing runs -/

theorem Steps.single {C : σ → α → Prop} {s s' : σ} {a : α} (hc : C s a)
    (hs : S.step s a = some s') : S.Steps C s [a] s' :=
  .cons hc hs (.nil s')

theorem Steps.append {C : σ → α → Prop} {s s' s'' : σ} {as bs : List α}
    (h : S.Steps C s as s') (h' : S.Steps C s' bs s'') : S.Steps C s (as ++ bs) s'' := by
  induction h with
  | nil => exact h'
  | cons hc hs _ ih => exact .cons hc hs (ih h')

/-- A run can be cut anywhere. -/
theorem Steps.split {C : σ → α → Prop} {s s'' : σ} {as bs : List α}
    (h : S.Steps C s (as ++ bs) s'') : ∃ s', S.Steps C s as s' ∧ S.Steps C s' bs s'' := by
  induction as generalizing s with
  | nil => exact ⟨s, .nil s, h⟩
  | cons a as ih =>
      cases h with
      | cons hc hs h =>
          obtain ⟨s', hpre, hpost⟩ := ih h
          exact ⟨s', .cons hc hs hpre, hpost⟩

/-- The actions determine where a run ends. -/
theorem Steps.det {C D : σ → α → Prop} {s s' s'' : σ} {as : List α} (h : S.Steps C s as s')
    (h' : S.Steps D s as s'') : s' = s'' := by
  induction h with
  | nil =>
      cases h'
      rfl
  | cons _ hs _ ih =>
      cases h' with
      | cons _ hs' h' =>
          rw [hs] at hs'
          cases hs'
          exact ih h'

/-- Weakening the step condition keeps the run. -/
theorem Steps.mono {C D : σ → α → Prop} (hCD : ∀ s a, C s a → D s a) {s s' : σ} {as : List α}
    (h : S.Steps C s as s') : S.Steps D s as s' := by
  induction h with
  | nil => exact .nil _
  | cons hc hs _ ih => exact .cons (hCD _ _ hc) hs ih

theorem Steps.anyStep {C : σ → α → Prop} {s s' : σ} {as : List α} (h : S.Steps C s as s') :
    S.Steps anyStep s as s' :=
  h.mono fun _ _ _ => trivial

/-- A condition on the actions alone only has to be checked on the list of them. -/
theorem Steps.restrict {C D : σ → α → Prop} {s s' : σ} {as : List α} (h : S.Steps C s as s')
    (hD : ∀ a ∈ as, ∀ s, D s a) : S.Steps D s as s' := by
  induction h with
  | nil => exact .nil _
  | cons _ hs _ ih =>
      exact .cons (hD _ List.mem_cons_self _) hs
        (ih fun a ha => hD a (List.mem_cons_of_mem _ ha))

/-- A run keeps to a condition, or there is a first step that does not. -/
theorem Steps.keeps_or_breaks {C D : σ → α → Prop} {s s' : σ} {as : List α} (h : S.Steps D s as s') :
    S.Steps (fun s a => D s a ∧ C s a) s as s' ∨
    ∃ bs b cs t t', as = bs ++ b :: cs ∧ S.Steps (fun s a => D s a ∧ C s a) s bs t ∧ D t b ∧
      ¬ C t b ∧ S.step t b = some t' ∧ S.Steps D t' cs s' := by
  induction h with
  | nil => exact Or.inl (.nil _)
  | @cons s t s'' a as hd hst hrest ih =>
      by_cases hc : C s a
      · rcases ih with hkeeps | ⟨bs, b, cs, u, u', rfl, hpre, hdb, hb, hstb, hpost⟩
        · exact Or.inl (.cons ⟨hd, hc⟩ hst hkeeps)
        · exact Or.inr ⟨a :: bs, b, cs, u, u', rfl, .cons ⟨hd, hc⟩ hst hpre, hdb, hb, hstb, hpost⟩
      · exact Or.inr ⟨[], a, as, s, t, rfl, .nil s, hd, hc, hst, hrest⟩

/-! ## The two inductions -/

/-- **The run rule.** What every allowed step preserves, a whole run preserves. -/
theorem Steps.preserves {C : σ → α → Prop} {P : σ → Prop}
    (hstep : ∀ s a s', P s → C s a → S.step s a = some s' → P s')
    {s s' : σ} {as : List α} (h : S.Steps C s as s') (hs : P s) : P s' := by
  induction h with
  | nil => exact hs
  | cons hc hst _ ih => exact ih (hstep _ _ _ hs hc hst)

/-- Two conditions that agree on the steps of a run single out the same run. -/
theorem Steps.congr {C D E : σ → α → Prop} {P : σ → Prop}
    (hstep : ∀ s a s', P s → C s a → S.step s a = some s' → P s' ∧ (D s a ↔ E s a))
    {s s' : σ} {as : List α} (h : S.Steps C s as s') (hs : P s) :
    S.Steps D s as s' ↔ S.Steps E s as s' := by
  induction h with
  | nil => exact ⟨fun _ => .nil _, fun _ => .nil _⟩
  | @cons s t s'' a as hc hst _ ih =>
      obtain ⟨ht, hiff⟩ := hstep _ _ _ hs hc hst
      constructor
      · intro hD
        cases hD with
        | cons hd hst' hrest =>
            rw [hst] at hst'
            cases hst'
            exact .cons (hiff.mp hd) hst ((ih ht).mp hrest)
      · intro hE
        cases hE with
        | cons he hst' hrest =>
            rw [hst] at hst'
            cases hst'
            exact .cons (hiff.mpr he) hst ((ih ht).mpr hrest)

/-- **The invariant rule.** What holds initially and is preserved by every step holds in every
reachable state. -/
theorem Reachable.invariant {P : σ → Prop} (hinit : ∀ s, S.init s → P s)
    (hstep : ∀ s a s', P s → S.step s a = some s' → P s') {s : σ} (h : S.Reachable s) : P s := by
  obtain ⟨s₀, as, h₀, hrun⟩ := h
  exact hrun.preserves (fun s a s' hs _ hst => hstep s a s' hs hst) (hinit s₀ h₀)

theorem Reachable.init {s : σ} (h : S.init s) : S.Reachable s :=
  ⟨s, [], h, .nil s⟩

theorem Reachable.trans {C : σ → α → Prop} {s s' : σ} {as : List α} (h : S.Reachable s)
    (hrun : S.Steps C s as s') : S.Reachable s' := by
  obtain ⟨s₀, bs, h₀, hpre⟩ := h
  exact ⟨s₀, bs ++ as, h₀, hpre.append hrun.anyStep⟩

/-! ## Running a schedule

`run` executes a list of actions; a concrete trace is checked by evaluating it. -/

/-- Take the actions in order; `none` as soon as one is not enabled. -/
def run (S : System σ α) : σ → List α → Option σ
  | s, [] => some s
  | s, a :: as => (S.step s a).bind (S.run · as)

/-- A schedule that runs is a run. -/
theorem steps_of_run {s s' : σ} {as : List α} (h : S.run s as = some s') :
    S.Steps System.anyStep s as s' := by
  induction as generalizing s with
  | nil =>
      cases h
      exact .nil _
  | cons a as ih =>
      obtain ⟨t, hst, ht⟩ := Option.bind_eq_some_iff.mp h
      exact .cons trivial hst (ih ht)

/-- The same with a decidable step condition: `none` as soon as it does not hold. -/
def runWhere (S : System σ α) (C : σ → α → Bool) : σ → List α → Option σ
  | s, [] => some s
  | s, a :: as => if C s a then (S.step s a).bind (S.runWhere C · as) else none

theorem steps_of_runWhere {C : σ → α → Bool} {s s' : σ} {as : List α}
    (h : S.runWhere C s as = some s') : S.Steps (fun s a => C s a = true) s as s' := by
  induction as generalizing s with
  | nil =>
      cases h
      exact .nil _
  | cons a as ih =>
      unfold runWhere at h
      split_ifs at h with hc
      obtain ⟨t, hst, ht⟩ := Option.bind_eq_some_iff.mp h
      exact .cons hc hst (ih ht)

end System

end McpGateway.Foundation
