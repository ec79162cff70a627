import Mathlib.Data.List.Forall2
import Mathlib.Data.List.Nodup

/-! # Lists as tables

Looking a row up by a key that no two rows share, and maps over a list that may fail. -/

namespace McpGateway.Foundation

variable {α β κ : Type*}

/-- A row is found by its key. -/
theorem find?_of_nodup [DecidableEq κ] {key : α → κ} {l : List α} (hl : (l.map key).Nodup) {a : α}
    (ha : a ∈ l) : l.find? (fun b => key b = key a) = some a := by
  induction l with
  | nil => cases ha
  | cons b l ih =>
      rw [List.map_cons, List.nodup_cons] at hl
      rw [List.find?_cons]
      rcases List.mem_cons.mp ha with rfl | ha
      · simp
      · have hne : key b ≠ key a := by
          intro h
          apply hl.1
          rw [h]
          exact List.mem_map_of_mem ha
        simp [hne, ih hl.2 ha]

/-- The last element with a property. -/
theorem exists_last {p : α → Prop} {l : List α} (h : ∃ a ∈ l, p a) :
    ∃ before a after, l = before ++ a :: after ∧ p a ∧ ∀ b ∈ after, ¬ p b := by
  induction l with
  | nil => simp at h
  | cons first l ih =>
      by_cases hrest : ∃ a ∈ l, p a
      · obtain ⟨before, a, after, rfl, ha, hlast⟩ := ih hrest
        exact ⟨first :: before, a, after, rfl, ha, hlast⟩
      · obtain ⟨a, hmem, ha⟩ := h
        rcases List.mem_cons.mp hmem with rfl | hmem
        · exact ⟨[], a, l, rfl, ha, fun b hb hpb => hrest ⟨b, hb, hpb⟩⟩
        · exact absurd ⟨a, hmem, ha⟩ hrest

/-- In related lists, tests that agree on related elements find related ones. -/
theorem find?_related {R : α → β → Prop} {p : α → Bool} {q : β → Bool}
    (htest : ∀ a b, R a b → p a = q b) {l : List α} {r : List β} (h : List.Forall₂ R l r) :
    Option.Rel R (l.find? p) (r.find? q) := by
  induction h with
  | nil => exact Option.Rel.none
  | @cons a b l r hab _ ih =>
      rw [List.find?_cons, List.find?_cons, htest a b hab]
      cases q b with
      | true => exact Option.Rel.some hab
      | false => exact ih

/-- Related answers lead to related answers. -/
theorem rel_bind {γ δ : Type*} {R : α → β → Prop} {S : γ → δ → Prop} {o : Option α} {o' : Option β}
    (h : Option.Rel R o o') {f : α → Option γ} {g : β → Option δ}
    (hfg : ∀ a b, R a b → Option.Rel S (f a) (g b)) : Option.Rel S (o.bind f) (o'.bind g) := by
  cases h with
  | none => exact Option.Rel.none
  | some hab => exact hfg _ _ hab

theorem map_eq_of_rel {γ : Type*} {R : α → β → Prop} {o : Option α} {o' : Option β}
    (h : Option.Rel R o o') {f : α → γ} {g : β → γ} (hfg : ∀ a b, R a b → f a = g b) :
    o.map f = o'.map g := by
  cases h with
  | none => rfl
  | some hab => exact congrArg some (hfg _ _ hab)

/-- Every element has its image. -/
theorem image_of_mapM {f : α → Option β} {l : List α} {r : List β} (h : l.mapM f = some r) {a : α}
    (ha : a ∈ l) : ∃ b ∈ r, f a = some b := by
  induction l generalizing r with
  | nil => cases ha
  | cons x l ih =>
      simp only [List.mapM_cons, Option.pure_def, Option.bind_eq_bind, Option.bind_eq_some_iff,
        Option.some.injEq] at h
      obtain ⟨b, hb, bs, hbs, rfl⟩ := h
      rcases List.mem_cons.mp ha with rfl | ha
      · exact ⟨b, List.mem_cons_self, hb⟩
      · obtain ⟨c, hc, hac⟩ := ih hbs ha
        exact ⟨c, List.mem_cons_of_mem _ hc, hac⟩

/-- A test of every image is a test of every element. -/
theorem all_of_mapM {f : α → Option β} {l : List α} {r : List β} (h : l.mapM f = some r)
    {test : α → Bool} {test' : β → Bool} (htest : ∀ a b, f a = some b → test' b = test a) :
    r.all test' = l.all test := by
  induction l generalizing r with
  | nil =>
      cases h
      rfl
  | cons x l ih =>
      simp only [List.mapM_cons, Option.pure_def, Option.bind_eq_bind, Option.bind_eq_some_iff,
        Option.some.injEq] at h
      obtain ⟨b, hb, bs, hbs, rfl⟩ := h
      rw [List.all_cons, List.all_cons, htest x b hb, ih hbs]

/-- Where every element has an image, they are the images of the list. -/
theorem mapM_of_images {f : α → Option β} {l : List α} (h : ∀ a ∈ l, ∃ b, f a = some b) :
    ∃ r, l.mapM f = some r ∧ ∀ b ∈ r, ∃ a ∈ l, f a = some b := by
  induction l with
  | nil => exact ⟨[], rfl, by simp⟩
  | cons x l ih =>
      obtain ⟨b, hb⟩ := h x List.mem_cons_self
      obtain ⟨bs, hbs, hall⟩ := ih fun a ha => h a (List.mem_cons_of_mem _ ha)
      refine ⟨b :: bs, by simp [hb, hbs], ?_⟩
      intro c hc
      rcases List.mem_cons.mp hc with rfl | hc
      · exact ⟨x, List.mem_cons_self, hb⟩
      · obtain ⟨a, ha, hac⟩ := hall c hc
        exact ⟨a, List.mem_cons_of_mem _ ha, hac⟩

end McpGateway.Foundation
