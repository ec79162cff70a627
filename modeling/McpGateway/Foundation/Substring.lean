import Mathlib.Data.List.Basic

/-! # First occurrences

Cutting a field out of a text at the first occurrence of its name is unambiguous when some letter of
the name does not occur before it. -/

namespace McpGateway.Foundation

variable {α : Type*} [DecidableEq α]

/-- The position of the first occurrence of `needle`. -/
def indexOf? (needle : List α) : List α → Option Nat
  | [] => if needle = [] then some 0 else none
  | a :: text =>
      if needle <+: a :: text then some 0 else (indexOf? needle text).map (· + 1)

theorem indexOf?_of_prefix {needle text : List α} (h : needle <+: text) :
    indexOf? needle text = some 0 := by
  cases text with
  | nil => exact if_pos (List.prefix_nil.mp h)
  | cons a text => exact if_pos h

omit [DecidableEq α] in
/-- Where the letter `a` is new, the needle cannot begin earlier. -/
theorem not_prefix_of_fresh {a : α} {x y before after : List α} (hbefore : a ∉ before)
    (hx : a ∉ x) (hne : before ≠ []) : ¬ x ++ a :: y <+: before ++ (x ++ after) := by
  intro h
  have hshort : x.length < (before ++ x).length := by
    rw [List.length_append]
    have := List.length_pos_of_ne_nil hne
    omega
  have hletter : (before ++ (x ++ after))[x.length]? = some a := by
    obtain ⟨rest, hrest⟩ := h
    rw [← hrest, List.append_assoc, List.getElem?_append_right (Nat.le_refl _), Nat.sub_self]
    rfl
  rw [← List.append_assoc, List.getElem?_append_left hshort] at hletter
  rcases List.mem_append.mp (List.mem_of_getElem? hletter) with h | h
  · exact hbefore h
  · exact hx h

/-- **First occurrence.** -/
theorem indexOf?_of_fresh {a : α} {needle before after : List α} (ha : a ∈ needle)
    (hbefore : a ∉ before) : indexOf? needle (before ++ (needle ++ after)) = some before.length := by
  obtain ⟨x, y, rfl, hx⟩ := List.eq_append_cons_of_mem ha
  induction before with
  | nil => exact indexOf?_of_prefix (List.prefix_append _ _)
  | cons b before ih =>
      have hnot : ¬ x ++ a :: y <+: b :: before ++ (x ++ a :: y ++ after) := by
        rw [List.append_assoc x]
        exact not_prefix_of_fresh hbefore hx (List.cons_ne_nil _ _)
      rw [List.cons_append] at hnot ⊢
      rw [indexOf?, if_neg hnot, ih (List.not_mem_of_not_mem_cons hbefore)]
      rfl

end McpGateway.Foundation
