import Mathlib.Data.List.Basic
import Mathlib.Data.List.DropRight

/-! # Words

A predicate on the elements of a list makes some of them separators; the words of the list are its
longest stretches without a separator that are not empty.

* `sepInduction` — a list has no separator, or it is a stretch without one, a separator and a list.
* `words_intercalate` — words joined by a separator are the words of the joined list.
* `map_intercalate` — a map that keeps the separator works word by word. -/

namespace McpGateway.Foundation

variable {α : Type*} {p : α → Bool}

/-- The words of a list. -/
def words (p : α → Bool) (xs : List α) : List (List α) :=
  (xs.splitOnP p).filter fun w => !w.isEmpty

/-- Induction at the first separator. -/
theorem sepInduction {motive : List α → Prop}
    (plain : ∀ w, (∀ x ∈ w, p x = false) → motive w)
    (cut : ∀ w c rest, (∀ x ∈ w, p x = false) → p c = true → motive rest →
      motive (w ++ c :: rest)) (xs : List α) : motive xs := by
  induction hn : xs.length using Nat.strong_induction_on generalizing xs with
  | _ n ih =>
      subst hn
      have hword : ∀ x ∈ xs.takeWhile (fun x => !p x), p x = false := by
        intro x hx
        simpa using List.mem_takeWhile_imp hx
      have hsplit := List.takeWhile_append_dropWhile (p := fun x => !p x) (l := xs)
      cases hrest : xs.dropWhile (fun x => !p x) with
      | nil =>
          rw [hrest, List.append_nil] at hsplit
          rw [← hsplit]
          exact plain _ hword
      | cons c rest =>
          have hsep : p c = true := by
            have hne : xs.dropWhile (fun x => !p x) ≠ [] := by
              rw [hrest]
              exact List.cons_ne_nil c rest
            simpa [hrest] using List.head_dropWhile_not (fun x => !p x) hne
          have hlen : rest.length < xs.length := by
            rw [← hsplit, hrest, List.length_append, List.length_cons]
            omega
          rw [hrest] at hsplit
          rw [← hsplit]
          exact cut _ c rest hword hsep (ih _ hlen rest rfl)

@[simp] theorem words_nil : words p [] = [] := rfl

/-- A word has no separator and is not empty. -/
theorem words_of_plain {w : List α} (h : ∀ x ∈ w, p x = false) (hne : w ≠ []) :
    words p w = [w] := by
  rw [words, List.splitOnP_eq_singleton h]
  exact List.filter_cons_of_pos (by simp [hne])

/-- **A separator ends the words before it.** -/
theorem words_append_cons {c : α} (hc : p c = true) (a b : List α) :
    words p (a ++ c :: b) = words p a ++ words p b := by
  rw [words, List.splitOnP_append_cons a b hc, List.filter_append]
  rfl

theorem words_cons {c : α} (hc : p c = true) (b : List α) : words p (c :: b) = words p b :=
  words_append_cons hc [] b

/-- A stretch without a separator is its only word. -/
theorem mem_words_of_plain {w v : List α} (h : ∀ x ∈ w, p x = false) :
    v ∈ words p w ↔ v = w ∧ w ≠ [] := by
  by_cases hne : w = []
  · subst hne
    simp
  · rw [words_of_plain h hne, List.mem_singleton]
    exact ⟨fun heq => ⟨heq, hne⟩, fun heq => heq.1⟩

theorem mem_words {xs w : List α} (hw : w ∈ words p xs) : w ≠ [] ∧ ∀ x ∈ w, p x = false := by
  induction xs using sepInduction (p := p) with
  | plain xs hxs =>
      obtain ⟨rfl, hne⟩ := (mem_words_of_plain hxs).mp hw
      exact ⟨hne, hxs⟩
  | cut a c rest ha hc ih =>
      rw [words_append_cons hc] at hw
      rcases List.mem_append.mp hw with hw | hw
      · obtain ⟨rfl, hne⟩ := (mem_words_of_plain ha).mp hw
        exact ⟨hne, ha⟩
      · exact ih hw

theorem words_plain_eq_nil_iff {w : List α} (hw : ∀ x ∈ w, p x = false) :
    words p w = [] ↔ ∀ x ∈ w, p x = true := by
  by_cases hne : w = []
  · subst hne
    simp
  · rw [words_of_plain hw hne]
    obtain ⟨x, hx⟩ := List.exists_mem_of_ne_nil w hne
    simp only [List.cons_ne_self, false_iff, not_forall]
    exact ⟨x, hx, by rw [hw x hx]; exact Bool.false_ne_true⟩

/-- A list without words has separators only. -/
theorem words_eq_nil_iff {xs : List α} : words p xs = [] ↔ ∀ x ∈ xs, p x = true := by
  induction xs using sepInduction (p := p) with
  | plain w hw => exact words_plain_eq_nil_iff hw
  | cut w c rest hw hc ih =>
      rw [words_append_cons hc, List.append_eq_nil_iff, words_plain_eq_nil_iff hw, ih,
        List.forall_mem_append, List.forall_mem_cons]
      exact and_congr_right fun _ => (and_iff_right hc).symm

/-- Separators in front make no word. -/
theorem words_dropWhile (xs : List α) : words p (xs.dropWhile p) = words p xs := by
  induction xs with
  | nil => rfl
  | cons x xs ih =>
      by_cases hx : p x = true
      · rw [List.dropWhile_cons_of_pos hx, ih, words_cons hx]
      · rw [List.dropWhile_cons_of_neg hx]

/-- Separators behind make no word. -/
theorem words_rdropWhile (xs : List α) : words p (xs.rdropWhile p) = words p xs := by
  induction xs using List.reverseRecOn with
  | nil => rfl
  | append_singleton xs x ih =>
      by_cases hx : p x = true
      · rw [List.rdropWhile_concat_pos _ _ _ hx, ih, words_append_cons hx, words_nil,
          List.append_nil]
      · rw [List.rdropWhile_concat_neg _ _ _ hx]

/-- **Joining and cutting.** -/
theorem words_intercalate {c : α} (hc : p c = true) {ws : List (List α)}
    (hws : ∀ w ∈ ws, w ≠ [] ∧ ∀ x ∈ w, p x = false) : words p ([c].intercalate ws) = ws := by
  induction ws with
  | nil => rfl
  | cons w ws ih =>
      obtain ⟨hne, hplain⟩ := hws w List.mem_cons_self
      have hrest := ih fun v hv => hws v (List.mem_cons_of_mem w hv)
      cases ws with
      | nil => rw [List.intercalate_singleton, words_of_plain hplain hne]
      | cons v ws =>
          rw [List.intercalate_cons_cons, List.append_assoc, List.singleton_append,
            words_append_cons hc, words_of_plain hplain hne, hrest]
          rfl

/-- A map that keeps a separator keeps what it joins. -/
theorem map_intercalate {f : List α → List α} {c : α} (hnil : f [] = [])
    (hf : ∀ a b, f (a ++ c :: b) = f a ++ c :: f b) (ws : List (List α)) :
    f ([c].intercalate ws) = [c].intercalate (ws.map f) := by
  induction ws with
  | nil => exact hnil
  | cons w ws ih =>
      cases ws with
      | nil => rw [List.intercalate_singleton, List.map_singleton, List.intercalate_singleton]
      | cons v ws =>
          have hmap : [c].intercalate ((w :: v :: ws).map f) =
              f w ++ c :: [c].intercalate ((v :: ws).map f) := by
            rw [List.map_cons, List.map_cons, List.intercalate_cons_cons, List.append_assoc,
              List.singleton_append]
          rw [List.intercalate_cons_cons, List.append_assoc, List.singleton_append, hf, ih, hmap]

end McpGateway.Foundation
