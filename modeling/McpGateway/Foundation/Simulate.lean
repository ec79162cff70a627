import McpGateway.Foundation.Act
import McpGateway.Foundation.Transition

/-! # Two computations, two systems side by side

* `Act.Sim R m m' V E` — from states related by `R`, the two computations end in related states and
  with related outcomes: values related by `V`, or exceptions related by `E`. `Act.Rel` is the case
  of one computation with itself (`Rel.sim`).
* `System.Steps.erased` — a run of one system, with some of its actions erased and the others
  renamed, is a run of another. -/

namespace McpGateway.Foundation

namespace System

variable {σ σ' α α' : Type*} {S : System σ α} {S' : System σ' α'}

/-- **Erasing actions.** If the second system can follow every step that is not erased and need not
follow the others, it can follow the run. -/
theorem Steps.erased {C : σ → α → Prop} {R : σ' → σ → Prop} {erase : α → Option α'}
    (hskip : ∀ s' s a t, R s' s → C s a → S.step s a = some t → erase a = none → R s' t)
    (hfollow : ∀ s' s a t b, R s' s → C s a → S.step s a = some t → erase a = some b →
      ∃ t', S'.step s' b = some t' ∧ R t' t)
    {s t : σ} {as : List α} (h : S.Steps C s as t) {s' : σ'} (hR : R s' s) :
    ∃ t', S'.Steps System.anyStep s' (as.filterMap erase) t' ∧ R t' t := by
  induction h generalizing s' with
  | nil s => exact ⟨s', .nil s', hR⟩
  | @cons s u t a as hc hs _ ih =>
      cases ha : erase a with
      | none =>
          rw [List.filterMap_cons_none ha]
          exact ih (hskip s' s a u hR hc hs ha)
      | some b =>
          rw [List.filterMap_cons_some ha]
          obtain ⟨u', hu', hRu⟩ := hfollow s' s a u b hR hc hs ha
          obtain ⟨t', ht', hRt⟩ := ih hRu
          exact ⟨t', .cons trivial hu' ht', hRt⟩

end System

namespace Act

variable {σ σ' ε ε' α β α' β' : Type}

/-- Outcomes that correspond. -/
inductive Outcomes (V : α → α' → Prop) (E : ε → ε' → Prop) : Except ε α → Except ε' α' → Prop
  | ok {a : α} {a' : α'} (h : V a a') : Outcomes V E (.ok a) (.ok a')
  | error {e : ε} {e' : ε'} (h : E e e') : Outcomes V E (.error e) (.error e')

def Sim (R : σ → σ' → Prop) (m : Act σ ε α) (m' : Act σ' ε' α') (V : α → α' → Prop)
    (E : ε → ε' → Prop) : Prop :=
  ∀ s s', R s s' → Outcomes V E (m s).1 (m' s').1 ∧ R (m s).2 (m' s').2

theorem Outcomes.mono {V V' : α → α' → Prop} {E : ε → ε' → Prop} {out : Except ε α}
    {out' : Except ε' α'} (h : Outcomes V E out out') (hV : ∀ a a', V a a' → V' a a') :
    Outcomes V' E out out' := by
  cases h with
  | ok ha => exact .ok (hV _ _ ha)
  | error he => exact .error he

theorem Outcomes.eq {out out' : Except ε α}
    (h : Outcomes (fun a a' : α => a = a') (fun e e' : ε => e = e') out out') : out = out' := by
  cases h with
  | ok ha => rw [ha]
  | error he => rw [he]

variable {R : σ → σ' → Prop} {V : α → α' → Prop} {W : β → β' → Prop} {E F : ε → ε' → Prop}

theorem Sim.mono {m : Act σ ε α} {m' : Act σ' ε' α'} {V' : α → α' → Prop} (h : Sim R m m' V E)
    (hV : ∀ a a', V a a' → V' a a') : Sim R m m' V' E := by
  intro s s' hs
  obtain ⟨hout, hrel⟩ := h s s' hs
  exact ⟨hout.mono hV, hrel⟩

theorem Sim.pure {a : α} {a' : α'} (h : V a a') :
    Sim R (pure a : Act σ ε α) (pure a' : Act σ' ε' α') V E :=
  fun _ _ hs => ⟨.ok h, hs⟩

theorem Sim.throw {e : ε} {e' : ε'} (h : E e e') :
    Sim R (throw e : Act σ ε α) (throw e' : Act σ' ε' α') V E :=
  fun _ _ hs => ⟨.error h, hs⟩

theorem Sim.bind {m : Act σ ε α} {m' : Act σ' ε' α'} {f : α → Act σ ε β} {f' : α' → Act σ' ε' β'}
    (hm : Sim R m m' V E) (hf : ∀ a a', V a a' → Sim R (f a) (f' a') W E) :
    Sim R (m >>= f) (m' >>= f') W E := by
  intro s s' hs
  obtain ⟨hout, hrel⟩ := hm s s' hs
  rw [bind_apply, bind_apply]
  cases h : m s with
  | mk out t =>
      cases h' : m' s' with
      | mk out' t' =>
          rw [h, h'] at hout hrel
          cases hout with
          | ok ha => exact hf _ _ ha t t' hrel
          | error he => exact ⟨.error he, hrel⟩

theorem Sim.tryCatch {m : Act σ ε α} {m' : Act σ' ε' α'} {h : ε → Act σ ε α}
    {h' : ε' → Act σ' ε' α'} (hm : Sim R m m' V F)
    (hh : ∀ e e', F e e' → Sim R (h e) (h' e') V E) :
    Sim R (tryCatch m h) (tryCatch m' h') V E := by
  intro s s' hs
  obtain ⟨hout, hrel⟩ := hm s s' hs
  rw [tryCatch_apply, tryCatch_apply]
  cases hms : m s with
  | mk out t =>
      cases hms' : m' s' with
      | mk out' t' =>
          rw [hms, hms'] at hout hrel
          cases hout with
          | ok ha => exact ⟨.ok ha, hrel⟩
          | error he => exact hh _ _ he t t' hrel

/-- A computation that keeps two runs in step simulates itself. -/
theorem Rel.sim {R : σ → σ → Prop} {m : Act σ ε α} {Q : α → Prop} (h : Rel R m Q) :
    Sim R m m (fun a a' => a = a' ∧ Q a) (fun e e' => e = e') := by
  intro s s' hs
  obtain ⟨hout, hrel, hQ⟩ := h s s' hs
  refine ⟨?_, hrel⟩
  cases hms : (m s).1 with
  | ok a =>
      rw [← hout, hms]
      exact .ok ⟨rfl, hQ a hms⟩
  | error e =>
      rw [← hout, hms]
      exact .error rfl

end Act

end McpGateway.Foundation
