import Mathlib.Data.List.Nodup
import Mathlib.Data.List.Perm.Subperm
import Mathlib.Logic.Relation

/-! # Worklists

Breadth-first search with a queue and a list of what has been enqueued: the front is taken off, and
those of its children that are new go to the back. The start itself does not count as enqueued.

* `Explored.closed` — when the queue is empty, everything reachable has been taken off.
* `Explored.count_eq_one` — everything but the start has been taken off once.
* `Explored.length_le` — in a finite graph the queue empties. -/

namespace McpGateway.Foundation

/-- What is still to be taken off, and what has ever been put on. -/
structure Worklist (α : Type*) where
  queue : List α
  visited : List α

namespace Worklist

variable {α : Type*}

/-! ## Enqueueing -/

section Enqueue

variable [DecidableEq α]

/-- Put a node on the queue, unless it has been there. -/
def enqueue (w : Worklist α) (a : α) : Worklist α :=
  if a ∈ w.visited then w else ⟨w.queue ++ [a], w.visited ++ [a]⟩

/-- Put several on the queue. -/
def enqueueAll (w : Worklist α) (as : List α) : Worklist α := as.foldl enqueue w

@[simp] theorem enqueueAll_nil (w : Worklist α) : w.enqueueAll [] = w := rfl

@[simp] theorem enqueueAll_cons (w : Worklist α) (a : α) (as : List α) :
    w.enqueueAll (a :: as) = (w.enqueue a).enqueueAll as := rfl

/-- **What enqueueing adds**: the new ones, each once, to both lists. -/
theorem enqueueAll_spec (w : Worklist α) (as : List α) :
    ∃ new, w.enqueueAll as = ⟨w.queue ++ new, w.visited ++ new⟩ ∧ new.Nodup ∧
      (∀ a ∈ new, a ∈ as ∧ a ∉ w.visited) ∧ ∀ a ∈ as, a ∈ w.visited ++ new := by
  induction as generalizing w with
  | nil => exact ⟨[], by simp, List.nodup_nil, by simp, by simp⟩
  | cons a as ih =>
      by_cases ha : a ∈ w.visited
      · obtain ⟨new, heq, hnodup, hnew, hall⟩ := ih w
        refine ⟨new, ?_, hnodup, ?_, ?_⟩
        · rw [enqueueAll_cons, enqueue, if_pos ha, heq]
        · intro b hb
          exact ⟨List.mem_cons_of_mem _ (hnew b hb).1, (hnew b hb).2⟩
        · intro b hb
          rcases List.mem_cons.mp hb with rfl | hb
          · exact List.mem_append_left _ ha
          · exact hall b hb
      · obtain ⟨new, heq, hnodup, hnew, hall⟩ := ih ⟨w.queue ++ [a], w.visited ++ [a]⟩
        refine ⟨a :: new, ?_, ?_, ?_, ?_⟩
        · rw [enqueueAll_cons, enqueue, if_neg ha, heq]
          simp
        · refine List.nodup_cons.mpr ⟨?_, hnodup⟩
          intro hmem
          exact (hnew a hmem).2 (List.mem_append_right _ List.mem_cons_self)
        · intro b hb
          rcases List.mem_cons.mp hb with rfl | hb
          · exact ⟨List.mem_cons_self, ha⟩
          · exact ⟨List.mem_cons_of_mem _ (hnew b hb).1,
              fun h => (hnew b hb).2 (List.mem_append_left _ h)⟩
        · intro b hb
          rcases List.mem_cons.mp hb with rfl | hb
          · simp
          · have := hall b hb
            simpa using this

end Enqueue

/-! ## Searches -/

/-- One node leads to another along the children. -/
def Reaches (children : α → List α) : α → α → Prop :=
  Relation.ReflTransGen fun a b => b ∈ children a

/-- What is reachable lies in every set that is closed under children. -/
theorem Reaches.mem_of_closed {children : α → List α} {start a : α} {nodes : List α}
    (h : Reaches children start a) (hstart : start ∈ nodes)
    (hclosed : ∀ b ∈ nodes, ∀ c ∈ children b, c ∈ nodes) : a ∈ nodes := by
  induction h with
  | refl => exact hstart
  | tail _ hchild ih => exact hclosed _ ih _ hchild

/-- A search from `start` that has taken off `taken`, in this order. -/
structure Explored (children : α → List α) (start : α) (taken : List α) (w : Worklist α) :
    Prop where
  order : taken ++ w.queue = start :: w.visited
  nodup : w.visited.Nodup
  reached : ∀ a ∈ w.visited, Reaches children start a
  expanded : ∀ a ∈ taken, ∀ b ∈ children a, b ∈ w.visited

variable {children : α → List α} {start : α} {taken : List α} {w : Worklist α}

theorem Explored.nil : Explored children start [] ⟨[start], []⟩ :=
  ⟨rfl, List.nodup_nil, by simp, by simp⟩

/-- Everything on the queue is reachable. -/
theorem Explored.queue_reached (h : Explored children start taken w) {a : α} (ha : a ∈ w.queue) :
    Reaches children start a := by
  have hmem : a ∈ start :: w.visited := by
    rw [← h.order]
    exact List.mem_append_right _ ha
  rcases List.mem_cons.mp hmem with rfl | hmem
  · exact .refl
  · exact h.reached a hmem

/-- **One step.** -/
theorem Explored.step [DecidableEq α] {a : α} {queue : List α} (h : Explored children start taken w)
    (hqueue : w.queue = a :: queue) :
    Explored children start (taken ++ [a]) (enqueueAll ⟨queue, w.visited⟩ (children a)) := by
  obtain ⟨new, heq, hnodup, hnew, hall⟩ := enqueueAll_spec ⟨queue, w.visited⟩ (children a)
  have ha : Reaches children start a := h.queue_reached (by simp [hqueue])
  rw [heq]
  constructor
  · have horder := h.order
    rw [hqueue] at horder
    rw [List.append_assoc, List.singleton_append, ← List.cons_append, ← List.append_assoc, horder,
      List.cons_append]
  · apply List.Nodup.append h.nodup hnodup
    intro b hb hbnew
    exact (hnew b hbnew).2 hb
  · intro b hb
    rcases List.mem_append.mp hb with hb | hb
    · exact h.reached b hb
    · exact ha.tail (hnew b hb).1
  · intro b hb c hc
    rcases List.mem_append.mp hb with hb | hb
    · exact List.mem_append_left _ (h.expanded b hb c hc)
    · rw [List.mem_singleton.mp hb] at hc
      exact hall c hc

/-- **The end.** What is reachable has been taken off. -/
theorem Explored.closed (h : Explored children start taken w) (hqueue : w.queue = []) {a : α}
    (ha : Reaches children start a) : a ∈ taken := by
  have horder : taken = start :: w.visited := by
    rw [← h.order, hqueue, List.append_nil]
  induction ha with
  | refl => simp [horder]
  | tail _ hchild ih =>
      rw [horder]
      exact List.mem_cons_of_mem _ (h.expanded _ ih _ hchild)

/-- Nothing but the start is taken off twice. -/
theorem Explored.count_le_one [DecidableEq α] (h : Explored children start taken w) {a : α}
    (hne : a ≠ start) : taken.count a ≤ 1 := by
  have hcount : taken.count a ≤ (start :: w.visited).count a := by
    rw [← h.order, List.count_append]
    exact Nat.le_add_right _ _
  rw [List.count_cons_of_ne hne.symm] at hcount
  exact Nat.le_trans hcount (List.nodup_iff_count_le_one.mp h.nodup a)

/-- At the end, everything reachable but the start has been taken off once. -/
theorem Explored.count_eq_one [DecidableEq α] (h : Explored children start taken w)
    (hqueue : w.queue = []) {a : α} (ha : Reaches children start a) (hne : a ≠ start) :
    taken.count a = 1 :=
  Nat.le_antisymm (h.count_le_one hne) (List.count_pos_iff.mpr (h.closed hqueue ha))

/-- In a finite graph, no more is taken off than there is. -/
theorem Explored.length_le {nodes : List α} (h : Explored children start taken w)
    (hnodes : ∀ a, Reaches children start a → a ∈ nodes) : taken.length ≤ nodes.length + 1 := by
  have hsub : w.visited.length ≤ nodes.length :=
    (h.nodup.subperm fun a ha => hnodes a (h.reached a ha)).length_le
  have hlength := congrArg List.length h.order
  rw [List.length_append, List.length_cons] at hlength
  omega

end Worklist

end McpGateway.Foundation
