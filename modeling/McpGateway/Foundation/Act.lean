import Mathlib.Logic.Basic

/-! # Computations with state and exceptions

`Act σ ε α` is a computation on a state `σ` that returns an `α` or throws an `ε`; the state survives
an exception. Two kinds of judgement about computations, each with a rule for every way to build
one:

* `Triple P m Q E` — from a state in `P`, a return leaves `Q` and an exception leaves `E`.
* `Rel R m Q` — from states related by `R`, two runs return or throw the same and end in related
  states; a returned value has `Q`. This is how non-interference is proved: what `m` may observe is
  what `R` keeps equal. -/

namespace McpGateway.Foundation

def Act (σ ε α : Type) : Type := σ → Except ε α × σ

namespace Act

variable {σ ε α β : Type}

instance : Monad (Act σ ε) where
  pure a := fun s => (.ok a, s)
  bind m f := fun s => match m s with
    | (.ok a, s') => f a s'
    | (.error e, s') => (.error e, s')

instance : MonadExceptOf ε (Act σ ε) where
  throw e := fun s => (.error e, s)
  tryCatch m h := fun s => match m s with
    | (.ok a, s') => (.ok a, s')
    | (.error e, s') => h e s'

/-- Change the state. -/
def modify (f : σ → σ) : Act σ ε Unit := fun s => (.ok (), f s)

/-- Read something off the state. -/
def gets (f : σ → α) : Act σ ε α := fun s => (.ok (f s), s)

/-- Do something only under a condition. -/
def when (c : Bool) (m : Act σ ε Unit) : Act σ ε Unit := if c then m else pure ()

/-! ## Running -/

@[simp] theorem pure_apply (a : α) (s : σ) : (pure a : Act σ ε α) s = (.ok a, s) := rfl

@[simp] theorem throw_apply (e : ε) (s : σ) : (throw e : Act σ ε α) s = (.error e, s) := rfl

@[simp] theorem modify_apply (f : σ → σ) (s : σ) : (modify f : Act σ ε Unit) s = (.ok (), f s) := rfl

@[simp] theorem gets_apply (f : σ → α) (s : σ) : (gets f : Act σ ε α) s = (.ok (f s), s) := rfl

theorem bind_apply (m : Act σ ε α) (f : α → Act σ ε β) (s : σ) :
    (m >>= f) s = match m s with
      | (.ok a, s') => f a s'
      | (.error e, s') => (.error e, s') := rfl

theorem bind_ok {m : Act σ ε α} {f : α → Act σ ε β} {s s' : σ} {a : α} (h : m s = (.ok a, s')) :
    (m >>= f) s = f a s' := by
  rw [bind_apply, h]

theorem bind_error {m : Act σ ε α} {f : α → Act σ ε β} {s s' : σ} {e : ε}
    (h : m s = (.error e, s')) : (m >>= f) s = (.error e, s') := by
  rw [bind_apply, h]

/-- A sequence that returned, taken apart. -/
theorem of_bind_ok {m : Act σ ε α} {f : α → Act σ ε β} {s s' : σ} {b : β}
    (h : (m >>= f) s = (.ok b, s')) : ∃ a t, m s = (.ok a, t) ∧ f a t = (.ok b, s') := by
  rw [bind_apply] at h
  cases hm : m s with
  | mk out t =>
      rw [hm] at h
      cases out with
      | ok a => exact ⟨a, t, rfl, h⟩
      | error e => cases h

theorem tryCatch_apply (m : Act σ ε α) (h : ε → Act σ ε α) (s : σ) :
    (tryCatch m h) s = match m s with
      | (.ok a, s') => (.ok a, s')
      | (.error e, s') => h e s' := rfl

theorem tryCatch_ok {m : Act σ ε α} {h : ε → Act σ ε α} {s s' : σ} {a : α}
    (hm : m s = (.ok a, s')) : (tryCatch m h) s = (.ok a, s') := by
  rw [tryCatch_apply, hm]

theorem tryCatch_error {m : Act σ ε α} {h : ε → Act σ ε α} {s s' : σ} {e : ε}
    (hm : m s = (.error e, s')) : (tryCatch m h) s = h e s' := by
  rw [tryCatch_apply, hm]

/-! ## Pre- and postconditions -/

/-- From a state in `P`, a return leaves `Q` and an exception leaves `E`. -/
def Triple (P : σ → Prop) (m : Act σ ε α) (Q : α → σ → Prop) (E : ε → σ → Prop) : Prop :=
  ∀ s, P s → match m s with
    | (.ok a, s') => Q a s'
    | (.error e, s') => E e s'

variable {P : σ → Prop} {Q : α → σ → Prop} {E : ε → σ → Prop} {T : β → σ → Prop}

theorem Triple.pure {a : α} (h : ∀ s, P s → Q a s) : Triple P (pure a : Act σ ε α) Q E :=
  h

theorem Triple.throw {e : ε} (h : ∀ s, P s → E e s) : Triple P (throw e : Act σ ε α) Q E :=
  h

theorem Triple.bind {m : Act σ ε α} {f : α → Act σ ε β} (hm : Triple P m Q E)
    (hf : ∀ a, Triple (Q a) (f a) T E) : Triple P (m >>= f) T E := by
  intro s hs
  have h := hm s hs
  rw [bind_apply]
  cases hms : m s with
  | mk out s' =>
      rw [hms] at h
      cases out with
      | ok a => exact hf a s' h
      | error e => exact h

theorem Triple.tryCatch {m : Act σ ε α} {h : ε → Act σ ε α} {E' : ε → σ → Prop}
    (hm : Triple P m Q E') (hh : ∀ e, Triple (E' e) (h e) Q E) : Triple P (tryCatch m h) Q E := by
  intro s hs
  have hmid := hm s hs
  rw [tryCatch_apply]
  cases hms : m s with
  | mk out s' =>
      rw [hms] at hmid
      cases out with
      | ok a => exact hmid
      | error e => exact hh e s' hmid

theorem Triple.ite {c : Prop} [Decidable c] {m m' : Act σ ε α} (hm : c → Triple P m Q E)
    (hm' : ¬ c → Triple P m' Q E) : Triple P (if c then m else m') Q E := by
  by_cases h : c
  · rw [if_pos h]
    exact hm h
  · rw [if_neg h]
    exact hm' h

theorem Triple.when {c : Bool} {m : Act σ ε Unit} {Q : Unit → σ → Prop}
    (hm : c = true → Triple P m Q E) (hP : c = false → ∀ s, P s → Q () s) :
    Triple P (Act.when c m) Q E := by
  unfold Act.when
  apply Triple.ite hm
  intro hc
  exact Triple.pure (hP (by simpa using hc))

/-- The rule of consequence. -/
theorem Triple.mono {m : Act σ ε α} {P' : σ → Prop} {Q' : α → σ → Prop} {E' : ε → σ → Prop}
    (h : Triple P m Q E) (hP : ∀ s, P' s → P s) (hQ : ∀ a s, Q a s → Q' a s)
    (hE : ∀ e s, E e s → E' e s) : Triple P' m Q' E' := by
  intro s hs
  have := h s (hP s hs)
  cases hms : m s with
  | mk out s' =>
      rw [hms] at this
      cases out with
      | ok a => exact hQ a s' this
      | error e => exact hE e s' this

/-- A fact about no state in the precondition is an assumption. -/
theorem Triple.assume {m : Act σ ε α} {φ : Prop} (h : φ → Triple P m Q E) :
    Triple (fun s => P s ∧ φ) m Q E :=
  fun s hs => h hs.2 s hs.1

/-! ## Two runs -/

/-- Two runs from related states do the same and end in related states. -/
def Rel (R : σ → σ → Prop) (m : Act σ ε α) (Q : α → Prop) : Prop :=
  ∀ s₁ s₂, R s₁ s₂ → (m s₁).1 = (m s₂).1 ∧ R (m s₁).2 (m s₂).2 ∧ ∀ a, (m s₁).1 = .ok a → Q a

variable {R : σ → σ → Prop} {V : α → Prop} {W : β → Prop}

theorem Rel.pure {a : α} (h : V a) : Rel R (pure a : Act σ ε α) V := by
  intro s₁ s₂ hs
  refine ⟨rfl, hs, ?_⟩
  intro b hb
  cases hb
  exact h

theorem Rel.throw {e : ε} : Rel R (throw e : Act σ ε α) V := by
  intro s₁ s₂ hs
  refine ⟨rfl, hs, ?_⟩
  intro b hb
  cases hb

theorem Rel.modify {f : σ → σ} {V : Unit → Prop} (h : ∀ s₁ s₂, R s₁ s₂ → R (f s₁) (f s₂))
    (hV : V ()) : Rel R (modify f : Act σ ε Unit) V :=
  fun s₁ s₂ hs => ⟨rfl, h s₁ s₂ hs, fun _ _ => hV⟩

theorem Rel.gets {f : σ → α} (h : ∀ s₁ s₂, R s₁ s₂ → f s₁ = f s₂ ∧ V (f s₁)) :
    Rel R (gets f : Act σ ε α) V := by
  intro s₁ s₂ hs
  obtain ⟨heq, hV⟩ := h s₁ s₂ hs
  refine ⟨congrArg Except.ok heq, hs, ?_⟩
  intro a ha
  cases ha
  exact hV

theorem Rel.bind {m : Act σ ε α} {f : α → Act σ ε β} (hm : Rel R m V)
    (hf : ∀ a, V a → Rel R (f a) W) : Rel R (m >>= f) W := by
  intro s₁ s₂ hs
  obtain ⟨hout, hrel, hV⟩ := hm s₁ s₂ hs
  rw [bind_apply, bind_apply]
  cases h₁ : m s₁ with
  | mk out₁ t₁ =>
      cases h₂ : m s₂ with
      | mk out₂ t₂ =>
          rw [h₁, h₂] at hout hrel
          cases hout
          cases out₁ with
          | ok a => exact hf a (hV a (by rw [h₁])) t₁ t₂ hrel
          | error e =>
              refine ⟨rfl, hrel, ?_⟩
              intro b hb
              cases hb

theorem Rel.tryCatch {m : Act σ ε α} {h : ε → Act σ ε α} (hm : Rel R m V)
    (hh : ∀ e, Rel R (h e) V) : Rel R (tryCatch m h) V := by
  intro s₁ s₂ hs
  obtain ⟨hout, hrel, hV⟩ := hm s₁ s₂ hs
  rw [tryCatch_apply, tryCatch_apply]
  cases h₁ : m s₁ with
  | mk out₁ t₁ =>
      cases h₂ : m s₂ with
      | mk out₂ t₂ =>
          rw [h₁, h₂] at hout hrel
          cases hout
          cases out₁ with
          | ok a => exact ⟨rfl, hrel, fun b hb => hV b (by rw [h₁]; exact hb)⟩
          | error e => exact hh e t₁ t₂ hrel

theorem Rel.ite {c : Prop} [Decidable c] {m m' : Act σ ε α} (hm : c → Rel R m V)
    (hm' : ¬ c → Rel R m' V) : Rel R (if c then m else m') V := by
  by_cases h : c
  · rw [if_pos h]
    exact hm h
  · rw [if_neg h]
    exact hm' h

theorem Rel.when {c : Bool} {m : Act σ ε Unit} (hm : Rel R m fun _ => True) :
    Rel R (Act.when c m) fun _ => True := by
  unfold Act.when
  apply Rel.ite (fun _ => hm)
  intro _
  exact Rel.pure trivial

end Act

end McpGateway.Foundation
