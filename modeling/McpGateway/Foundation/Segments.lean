import Mathlib.Data.List.Forall2
import Mathlib.Data.List.Nodup
import Mathlib.Data.List.SplitBy

/-! # Lists cut into runs

`List.splitBy r` cuts a list before every element that its predecessor does not stand in relation
`r` to. Here is what the runs of a list without duplicates say about its elements, and how a list
that goes with the runs one by one takes over what holds between them.

* `splitBy_neighbours` — neighbours share a run exactly when they are related.
* `splitBy_unique` — every element is in one run.
* `Forall₂.pairwise` — pairwise facts about runs as pairwise facts about what they stand for. -/

namespace McpGateway.Foundation

variable {α β : Type*}

section SplitBy

variable {r : α → α → Bool}

/-- A run is part of the list. -/
theorem mem_of_mem_run {xs g : List α} {x : α} (hg : g ∈ xs.splitBy r) (hx : x ∈ g) : x ∈ xs := by
  rw [← List.flatten_splitBy r xs]
  exact List.mem_flatten_of_mem hg hx

/-- What stands behind an element of a run is the rest of its run and the runs after it. -/
theorem behind_of_run {pre post u v : List α} {a : α} {before after : List (List α)}
    (hnd : (pre ++ a :: post).Nodup)
    (hruns : (pre ++ a :: post).splitBy r = before ++ (u ++ a :: v) :: after) :
    v ++ after.flatten = post := by
  have heq : (before.flatten ++ u) ++ a :: (v ++ after.flatten) = pre ++ a :: post := by
    rw [← List.flatten_splitBy r (pre ++ a :: post), hruns]
    simp
  have hnotin : a ∉ (before.flatten ++ u) ++ (v ++ after.flatten) := by
    rw [← heq, List.nodup_middle] at hnd
    exact (List.nodup_cons.mp hnd).1
  rw [List.mem_append, not_or] at hnotin
  exact ((List.append_cons_inj_of_notMem hnotin.1 hnotin.2).mp heq).2.2

/-- The list is cut between neighbours that are not related. -/
theorem splitBy_cut {pre post : List α} {a b : α} (hr : r a b = false) :
    (pre ++ a :: b :: post).splitBy r = (pre ++ [a]).splitBy r ++ (b :: post).splitBy r := by
  rw [← List.splitBy_append_cons, List.append_assoc]
  · rfl
  · intro x hx
    rw [List.getLast?_concat, Option.mem_some_iff] at hx
    rw [← hx]
    exact hr

/-- **Neighbours share a run** exactly when they are related. -/
theorem splitBy_neighbours {pre post : List α} {a b : α} (hnd : (pre ++ a :: b :: post).Nodup) :
    (∃ g ∈ (pre ++ a :: b :: post).splitBy r, a ∈ g ∧ b ∈ g) ↔ r a b = true := by
  constructor
  · rintro ⟨g, hg, hga, hgb⟩
    by_contra hr
    have hdisjoint : (pre ++ [a]).Disjoint (b :: post) := by
      apply List.disjoint_of_nodup_append
      rwa [List.append_assoc]
    rw [splitBy_cut (eq_false_of_ne_true hr)] at hg
    rcases List.mem_append.mp hg with hg | hg
    · exact hdisjoint (mem_of_mem_run hg hgb) List.mem_cons_self
    · exact hdisjoint List.mem_concat_self (mem_of_mem_run hg hga)
  · intro hr
    have hchain := List.isChain_getLast_head_splitBy r (pre ++ a :: b :: post)
    have hne := List.nil_notMem_splitBy r (pre ++ a :: b :: post)
    obtain ⟨g, hg, hga⟩ : ∃ g ∈ (pre ++ a :: b :: post).splitBy r, a ∈ g := by
      apply List.mem_flatten.mp
      rw [List.flatten_splitBy]
      exact List.mem_append_right pre List.mem_cons_self
    refine ⟨g, hg, hga, ?_⟩
    obtain ⟨before, after, hruns⟩ := List.append_of_mem hg
    obtain ⟨u, v, rfl⟩ := List.append_of_mem hga
    have hrest := behind_of_run hnd hruns
    rw [hruns] at hchain hne
    cases v with
    | cons c v =>
        cases hrest
        exact List.mem_append_right u (List.mem_cons_of_mem a List.mem_cons_self)
    | nil =>
        -- then the next run begins with `b`, against `r a b`
        cases after with
        | nil => cases hrest
        | cons g' after =>
            cases g' with
            | nil => simp at hne
            | cons c w =>
                cases hrest
                have hcut := (List.isChain_append.mp hchain).2.1
                rw [List.isChain_cons_cons] at hcut
                obtain ⟨_, _, hfalse⟩ := hcut.1
                simp only [List.getLast_concat, List.head_cons] at hfalse
                rw [hr] at hfalse
                cases hfalse

/-- **Every element is in one run.** -/
theorem splitBy_unique {xs : List α} (hnd : xs.Nodup) {x : α} (hx : x ∈ xs) :
    ∃! j : Nat, ∃ g : List α, (xs.splitBy r)[j]? = some g ∧ x ∈ g := by
  have hflat := List.flatten_splitBy r xs
  have hdisjoint : (xs.splitBy r).Pairwise List.Disjoint := by
    rw [← hflat, List.nodup_flatten] at hnd
    exact hnd.2
  obtain ⟨g, hg, hxg⟩ : ∃ g ∈ xs.splitBy r, x ∈ g := by
    apply List.mem_flatten.mp
    rwa [hflat]
  obtain ⟨j, hj⟩ := List.mem_iff_getElem?.mp hg
  refine ⟨j, ⟨g, hj, hxg⟩, ?_⟩
  rintro j' ⟨g', hj', hxg'⟩
  obtain ⟨hlt, hget⟩ := List.getElem?_eq_some_iff.mp hj
  obtain ⟨hlt', hget'⟩ := List.getElem?_eq_some_iff.mp hj'
  have hpair := List.pairwise_iff_getElem.mp hdisjoint
  rcases Nat.lt_trichotomy j j' with h | h | h
  · have hdis := hpair j j' hlt hlt' h
    rw [hget, hget'] at hdis
    exact absurd hxg' (hdis hxg)
  · exact h.symm
  · have hdis := hpair j' j hlt' hlt h
    rw [hget, hget'] at hdis
    exact absurd hxg (hdis hxg')

end SplitBy

/-- What holds pairwise between runs holds between what stands for them. -/
theorem Forall₂.pairwise {R : α → β → Prop} {S : β → β → Prop} {T : α → α → Prop} {as : List α}
    {bs : List β} (h : List.Forall₂ R as bs) (hbs : bs.Pairwise S)
    (himp : ∀ {a a' b b'}, b ∈ bs → b' ∈ bs → R a b → R a' b' → S b b' → T a a') :
    as.Pairwise T := by
  have hlen := h.length_eq
  rw [List.pairwise_iff_getElem] at hbs ⊢
  intro i j hi hj hij
  exact himp (List.getElem_mem (hlen ▸ hi)) (List.getElem_mem (hlen ▸ hj)) (h.get hi (hlen ▸ hi))
    (h.get hj (hlen ▸ hj)) (hbs i j (hlen ▸ hi) (hlen ▸ hj) hij)

/-- A list of successive numbers has the numbers from its first to its last. -/
theorem mem_successive_iff {xs : List Nat} (h : xs.IsChain fun i j => j = i + 1)
    {first last : Nat} (hfirst : xs.head? = some first) (hlast : xs.getLast? = some last) :
    first ≤ last ∧ ∀ i, i ∈ xs ↔ first ≤ i ∧ i ≤ last := by
  induction xs generalizing first with
  | nil => cases hfirst
  | cons x xs ih =>
      cases hfirst
      cases xs with
      | nil =>
          rw [List.getLast?_singleton, Option.some.injEq] at hlast
          refine ⟨hlast.le, fun i => ?_⟩
          rw [List.mem_singleton]
          omega
      | cons y ys =>
          rw [List.isChain_cons_cons] at h
          rw [List.getLast?_cons_cons] at hlast
          obtain ⟨hle, hrest⟩ := ih h.2 rfl hlast
          refine ⟨by omega, fun i => ?_⟩
          rw [List.mem_cons, hrest]
          omega

end McpGateway.Foundation
