import Mathlib.Data.List.Basic

/-! # Decoding at a separator

A message that joins a field and the rest with a separator the field cannot contain is decoded in
one way only. -/

namespace McpGateway.Foundation

/-- **Unique decoding.** The first separator ends the first field. -/
theorem append_cons_inj {α : Type*} {a : α} {x y u w : List α} (hx : a ∉ x) (hy : a ∉ y)
    (h : x ++ a :: u = y ++ a :: w) : x = y ∧ u = w := by
  induction x generalizing y with
  | nil =>
      cases y with
      | nil =>
          simp only [List.nil_append, List.cons.injEq, true_and] at h
          exact ⟨rfl, h⟩
      | cons b y =>
          simp only [List.nil_append, List.cons_append, List.cons.injEq] at h
          exact absurd (h.1 ▸ List.mem_cons_self) hy
  | cons b x ih =>
      cases y with
      | nil =>
          simp only [List.nil_append, List.cons_append, List.cons.injEq] at h
          exact absurd (h.1 ▸ List.mem_cons_self) hx
      | cons c y =>
          simp only [List.cons_append, List.cons.injEq] at h
          obtain ⟨rfl, hrest⟩ := h
          obtain ⟨rfl, hu⟩ := ih (List.not_mem_of_not_mem_cons hx)
            (List.not_mem_of_not_mem_cons hy) hrest
          exact ⟨rfl, hu⟩

/-- A stretch without the separator is before it or after it. -/
theorem append_cons_split {α : Type*} {a : α} {u v pre w rest : List α} (hw : a ∉ w)
    (h : u ++ a :: v = pre ++ (w ++ rest)) :
    (∃ gap, u = pre ++ (w ++ gap) ∧ rest = gap ++ a :: v) ∨
      ∃ gap, pre = u ++ a :: gap ∧ v = gap ++ (w ++ rest) := by
  rcases List.append_eq_append_iff.mp h with ⟨x, rfl, hx⟩ | ⟨x, rfl, hx⟩
  · cases x with
    | nil =>
        -- the separator would be the first of the stretch, or there is no stretch
        cases w with
        | nil => exact Or.inl ⟨[], by simp, hx.symm⟩
        | cons b w =>
            cases hx
            exact absurd List.mem_cons_self hw
    | cons b x =>
        cases hx
        exact Or.inr ⟨x, rfl, rfl⟩
  · rcases List.append_eq_append_iff.mp hx with ⟨y, rfl, hy⟩ | ⟨y, rfl, hy⟩
    · exact Or.inl ⟨y, rfl, hy⟩
    · cases y with
      | nil => exact Or.inl ⟨[], by simp, hy.symm⟩
      | cons b y =>
          cases hy
          exact absurd (List.mem_append_right x List.mem_cons_self) hw

/-- What is put behind a text without a separator belongs to its last part. -/
theorem splitOn_last {α : Type*} [BEq α] [LawfulBEq α] (a : α) (s : List α) : ∃ parts last,
    s.splitOn a = parts ++ [last] ∧ ∀ t, a ∉ t → (s ++ t).splitOn a = parts ++ [last ++ t] := by
  induction s with
  | nil => exact ⟨[], [], rfl, fun t ht => List.splitOn_eq_singleton ht⟩
  | cons c s ih =>
      obtain ⟨parts, last, hs, hmore⟩ := ih
      simp only [List.cons_append, List.splitOn_cons_eq_if_modifyHead]
      cases hc : c == a with
      | true =>
          refine ⟨[] :: parts, last, ?_, fun t ht => ?_⟩
          · rw [if_pos rfl, hs, List.cons_append]
          · rw [if_pos rfl, hmore t ht, List.cons_append]
      | false =>
          simp only [Bool.false_eq_true, if_false, hs]
          cases parts with
          | nil =>
              refine ⟨[], c :: last, rfl, fun t ht => ?_⟩
              rw [hmore t ht]
              rfl
          | cons part parts =>
              refine ⟨(c :: part) :: parts, last, rfl, fun t ht => ?_⟩
              rw [hmore t ht]
              rfl

/-- There is one part more than there are separators. -/
theorem length_splitOn {α : Type*} [BEq α] [LawfulBEq α] (a : α) (s : List α) :
    (s.splitOn a).length = s.count a + 1 := by
  induction s with
  | nil => rfl
  | cons b s ih =>
      rw [List.splitOn_cons_eq_if_modifyHead, List.count_cons]
      by_cases hb : (b == a) = true
      · rw [if_pos hb, if_pos hb, List.length_cons, ih]
      · rw [if_neg hb, if_neg hb, List.length_modifyHead, ih]

end McpGateway.Foundation
