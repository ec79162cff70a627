import Mathlib.Data.List.Basic
import Mathlib.Data.Nat.Init

/-! # A store as the log of its edits, and a follower of it

A follower has read the log up to some position and shows, key by key, what it has read. It need not
read every edit: it may be told of a key only once, by its state at some later time.

* `stateAt_eq` — a key that is not edited keeps its state.
* `Tracks` — the follower shows the key as it was at its position, or an edit of it is still ahead.
  An edit keeps that (`Tracks.push`), and an edit of the key itself brings it about
  (`Tracks.of_edit`), whatever was shown before.
* `Tracks.advance` — the rule for a step of the follower. -/

namespace McpGateway.Foundation.ChangeLog

variable {κ ν : Type*} [DecidableEq κ]

/-- What the key has after the first `n` edits. -/
def stateAt (log : List (κ × Option ν)) (n : Nat) (k : κ) : Option ν :=
  ((log.take n).filter fun e => e.1 = k).getLast?.bind Prod.snd

/-- One of the edits from the `n`-th on and before the `m`-th is of the key. -/
def EditedIn (log : List (κ × Option ν)) (n m : Nat) (k : κ) : Prop :=
  ∃ i, i < m ∧ n ≤ i ∧ (log[i]?).map Prod.fst = some k

instance (log : List (κ × Option ν)) (n m : Nat) (k : κ) : Decidable (EditedIn log n m k) :=
  inferInstanceAs (Decidable (∃ i, i < m ∧ _))

variable {log : List (κ × Option ν)} {n m p : Nat} {k : κ} {e : κ × Option ν}
  {shows shows' : Option ν → Prop}

/-! ## Stretches of the log -/

omit [DecidableEq κ] in
theorem EditedIn.mono {n' m' : Nat} (h : EditedIn log n m k) (hn : n' ≤ n) (hm : m ≤ m') :
    EditedIn log n' m' k := by
  obtain ⟨i, him, hni, hi⟩ := h
  exact ⟨i, Nat.lt_of_lt_of_le him hm, Nat.le_trans hn hni, hi⟩

omit [DecidableEq κ] in
theorem EditedIn.split (h : EditedIn log n p k) (m : Nat) : EditedIn log n m k ∨ EditedIn log m p k := by
  obtain ⟨i, hip, hni, hi⟩ := h
  rcases Nat.lt_or_ge i m with hlt | hge
  · exact Or.inl ⟨i, hlt, hni, hi⟩
  · exact Or.inr ⟨i, hip, hge, hi⟩

omit [DecidableEq κ] in
/-- Later edits leave a stretch as it is. -/
theorem editedIn_push (hm : m ≤ log.length) : EditedIn (log ++ [e]) n m k ↔ EditedIn log n m k := by
  unfold EditedIn
  apply exists_congr
  intro i
  apply and_congr_right
  intro him
  rw [List.getElem?_append_left (Nat.lt_of_lt_of_le him hm)]

theorem stateAt_push (hn : n ≤ log.length) : stateAt (log ++ [e]) n k = stateAt log n k := by
  unfold stateAt
  rw [List.take_append_of_le_length hn]

theorem stateAt_succ (h : (log[n]?).map Prod.fst ≠ some k) :
    stateAt log (n + 1) k = stateAt log n k := by
  unfold stateAt
  rw [List.take_add_one, List.filter_append]
  cases he : log[n]? with
  | none => simp
  | some e =>
      rw [he] at h
      have hne : e.1 ≠ k := by simpa using h
      simp [hne]

/-- **What is not edited stays.** -/
theorem stateAt_eq (hnm : n ≤ m) (h : ¬ EditedIn log n m k) : stateAt log m k = stateAt log n k := by
  induction m, hnm using Nat.le_induction with
  | base => rfl
  | succ m hnm ih =>
      have hlast : (log[m]?).map Prod.fst ≠ some k := by
        intro he
        exact h ⟨m, Nat.lt_succ_self m, hnm, he⟩
      rw [stateAt_succ hlast]
      apply ih
      intro hed
      exact h (hed.mono (Nat.le_refl n) (Nat.le_succ m))

/-! ## A follower -/

/-- The follower at position `n` shows the key as it was there, or an edit of the key is ahead. -/
def Tracks (log : List (κ × Option ν)) (n : Nat) (shows : Option ν → Prop) (k : κ) : Prop :=
  EditedIn log n log.length k ∨ shows (stateAt log n k)

/-- Past the last edit of a key, what is shown is current. -/
theorem Tracks.current (h : Tracks log n shows k) (hn : n ≤ log.length)
    (hpast : ¬ EditedIn log n log.length k) : shows (stateAt log log.length k) := by
  rw [stateAt_eq hn hpast]
  exact h.resolve_left hpast

theorem Tracks.push (h : Tracks log n shows k) (hn : n ≤ log.length) (e : κ × Option ν) :
    Tracks (log ++ [e]) n shows k := by
  rcases h with hed | hshows
  · left
    have hed' := (editedIn_push (e := e) (Nat.le_refl log.length)).mpr hed
    exact hed'.mono (Nat.le_refl n) (by simp)
  · right
    rw [stateAt_push hn]
    exact hshows

/-- **A step of the follower** from position `n` to `p`. When the key has been the same since `n`, a
follower that shows it goes on to; when an edit is passed and none is ahead, the new state is
shown. -/
theorem Tracks.advance (h : Tracks log n shows k) (hnp : n ≤ p)
    (hquiet : ∀ s, (∀ t, n ≤ t → t ≤ log.length → stateAt log t k = s) → shows s → shows' s)
    (hpassed : EditedIn log n p k → ¬ EditedIn log p log.length k → shows' (stateAt log p k)) :
    Tracks log p shows' k := by
  by_cases hahead : EditedIn log p log.length k
  · exact Or.inl hahead
  right
  by_cases hpass : EditedIn log n p k
  · exact hpassed hpass hahead
  · have hsame : ¬ EditedIn log n log.length k := by
      intro hed
      rcases hed.split p with h | h
      · exact hpass h
      · exact hahead h
    rw [stateAt_eq hnp hpass]
    apply hquiet
    · intro t hnt ht
      apply stateAt_eq hnt
      intro hed
      exact hsame (hed.mono (Nat.le_refl n) ht)
    · exact h.resolve_left hsame

end McpGateway.Foundation.ChangeLog
