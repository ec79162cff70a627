import Mathlib.Data.List.Perm.Subperm
import Mathlib.Order.Lattice

/-! # Selections of bounded size

What a query with a limit returns. `Limited k candidates rows`: `rows` are `k` of the candidates, or
all where there are fewer, in their order. `Nearest le k candidates rows`: they come first in the
preorder `le`, and are sorted by it. `rank key l v`: how many elements come before `v` in the order
of their keys, so that the pages before an offset are the elements of smaller rank. -/

namespace McpGateway.Foundation

variable {α : Type*}

structure Limited (k : Nat) (candidates rows : List α) : Prop where
  sublist : rows.Sublist candidates
  length : rows.length = min k candidates.length

structure Nearest (le : α → α → Prop) (k : Nat) (candidates rows : List α) : Prop where
  subperm : rows.Subperm candidates
  length : rows.length = min k candidates.length
  sorted : rows.Pairwise le
  /-- What is left out comes after what is not. -/
  first : ∀ a ∈ candidates, a ∉ rows → ∀ b ∈ rows, le b a

theorem limited_take (k : Nat) (candidates : List α) : Limited k candidates (candidates.take k) :=
  ⟨List.take_sublist k candidates, List.length_take⟩

/-- Sorting and taking the first finds the nearest. -/
theorem nearest_take_mergeSort {le : α → α → Bool}
    (htrans : ∀ a b c, le a b = true → le b c = true → le a c = true)
    (htotal : ∀ a b, (le a b || le b a) = true) (k : Nat) (candidates : List α) :
    Nearest (fun a b => le a b = true) k candidates ((candidates.mergeSort le).take k) := by
  have hperm : (candidates.mergeSort le).Perm candidates := List.mergeSort_perm candidates le
  have hsorted : (candidates.mergeSort le).Pairwise fun a b => le a b = true :=
    List.pairwise_mergeSort htrans htotal candidates
  refine ⟨?_, ?_, ?_, ?_⟩
  · exact (List.take_sublist k _).subperm.trans hperm.subperm
  · rw [List.length_take, hperm.length_eq]
  · exact hsorted.sublist (List.take_sublist k _)
  · intro a ha hnot b hb
    have hsplit : (candidates.mergeSort le).take k ++ (candidates.mergeSort le).drop k
        = candidates.mergeSort le := List.take_append_drop k _
    have hdrop : a ∈ (candidates.mergeSort le).drop k := by
      have hmem : a ∈ candidates.mergeSort le := hperm.mem_iff.mpr ha
      rw [← hsplit] at hmem
      rcases List.mem_append.mp hmem with h | h
      · exact absurd h hnot
      · exact h
    rw [← hsplit, List.pairwise_append] at hsorted
    exact hsorted.2.2 b hb a hdrop

/-! ## Ranks -/

variable {β : Type*} [LinearOrder β]

/-- How many elements of the list have a key below `v`. -/
def rank (key : α → β) (l : List α) (v : β) : Nat := l.countP fun a => decide (key a < v)

theorem rank_append (key : α → β) (l l' : List α) (v : β) :
    rank key (l ++ l') v = rank key l v + rank key l' v :=
  List.countP_append

theorem rank_perm {key : α → β} {l l' : List α} (h : l.Perm l') (v : β) :
    rank key l v = rank key l' v :=
  h.countP_eq _

theorem rank_le_length (key : α → β) (l : List α) (v : β) : rank key l v ≤ l.length :=
  List.countP_le_length

/-- An element's own rank is a position of the list. -/
theorem rank_lt_length {key : α → β} {l : List α} {a : α} (ha : a ∈ l) :
    rank key l (key a) < l.length := by
  rw [Nat.lt_iff_le_and_ne]
  refine ⟨rank_le_length key l (key a), ?_⟩
  intro heq
  have hall := List.countP_eq_length.mp heq a ha
  rw [decide_eq_true_eq] at hall
  exact absurd hall (lt_irrefl (key a))

/-- **The rank of an element is its position**: the first `n` of a sorted list are those of a rank
below `n`. -/
theorem mem_take_iff_rank {key : α → β} {l : List α} (h : l.Pairwise fun a b => key a < key b)
    {a : α} (ha : a ∈ l) (n : Nat) : a ∈ l.take n ↔ rank key l (key a) < n := by
  induction l generalizing n with
  | nil => cases ha
  | cons b l ih =>
      obtain ⟨hb, hl⟩ := List.pairwise_cons.mp h
      cases n with
      | zero => simp
      | succ n =>
          rw [List.take_succ_cons, List.mem_cons]
          unfold rank
          rw [List.countP_cons]
          rcases List.mem_cons.mp ha with rfl | ha
          · -- nothing is before the first one
            have hzero : l.countP (fun c => decide (key c < key a)) = 0 := by
              rw [List.countP_eq_zero]
              intro c hc
              rw [decide_eq_true_eq]
              exact not_lt_of_gt (hb c hc)
            simp [hzero]
          · have hba : key b < key a := hb a ha
            have hne : a ≠ b := by
              rintro rfl
              exact lt_irrefl _ hba
            have hrec := ih hl ha n
            unfold rank at hrec
            rw [or_iff_right hne, hrec, if_pos (by simpa using hba)]
            omega

end McpGateway.Foundation
