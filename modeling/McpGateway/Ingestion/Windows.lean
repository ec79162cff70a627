import Mathlib.Data.Finset.Max
import Mathlib.Order.Interval.Finset.Nat
import Mathlib.Tactic.Ring
import McpGateway.Ingestion.Chunker

/-! # The windows of the chunker

The loop of `chunk_by_chars` visits the starts `0, 1848, 3696, …` and stops at the first window
that reaches the end. Here the windows are numbered, and what the chunker returns is read off the
numbers.

* `chunkFrom_window` — from window `k` on, the loop returns the windows `k, …, K` that are not
  blank, `K` the first one that reaches the end.
* `chunk_windows` — the chunks of a text, and how its windows cover it. -/

namespace McpGateway.Ingestion

/-- Where window `k` begins. -/
def windowStart (k : Nat) : Nat := strideChars * k

/-- Where window `k` of a text of `n` characters ends. -/
def windowEnd (n k : Nat) : Nat := min (windowStart k + chunkChars) n

/-- The positions of the text in window `k`. -/
def windowPositions (n k : Nat) : Finset Nat := Finset.Ico (windowStart k) (windowEnd n k)

/-- `chars[windowStart k .. windowEnd n k]` -/
def window (chars : List Char) (k : Nat) : List Char :=
  (chars.drop (windowStart k)).take (windowEnd chars.length k - windowStart k)

/-- Not only whitespace. -/
def visible (cs : List Char) : Bool := trim cs ≠ []

/-- `K` is the first window that reaches the end of a text of `n` characters. -/
def IsLastWindow (n K : Nat) : Prop := IsLeast {k | n ≤ windowStart k + chunkChars} K

section Last

variable {n K k i : Nat}

theorem windowStart_succ (k : Nat) : windowStart (k + 1) = windowStart k + strideChars :=
  Nat.mul_succ strideChars k

theorem exists_isLastWindow (n : Nat) : ∃ K, IsLastWindow n K := by
  have hreach : ∃ k, n ≤ windowStart k + chunkChars := by
    refine ⟨n, ?_⟩
    simp only [windowStart, strideChars, chunkChars, overlapChars]
    omega
  classical
  exact ⟨Nat.find hreach, Nat.find_spec hreach, fun k hk => Nat.find_min' hreach hk⟩

theorem IsLastWindow.reaches (hK : IsLastWindow n K) : windowEnd n K = n :=
  Nat.min_eq_right hK.1

/-- A window before the last one is full. -/
theorem IsLastWindow.full (hK : IsLastWindow n K) (hk : k < K) :
    windowStart k + chunkChars < n := by
  by_contra h
  have hle : K ≤ k := hK.2 (not_lt.mp h)
  omega

theorem IsLastWindow.windowEnd_eq (hK : IsLastWindow n K) (hk : k < K) :
    windowEnd n k = windowStart k + chunkChars :=
  Nat.min_eq_left (hK.full hk).le

/-- The slice the loop takes is within the text. -/
theorem IsLastWindow.slice (hK : IsLastWindow n K) (hk : k ≤ K) :
    windowStart k ≤ windowEnd n k := by
  cases k with
  | zero => simp [windowStart]
  | succ j =>
      have hfull := hK.full (Nat.lt_of_succ_le hk)
      rw [windowEnd, windowStart_succ]
      simp only [strideChars, chunkChars, overlapChars] at *
      omega

theorem mem_windowPositions :
    i ∈ windowPositions n k ↔ windowStart k ≤ i ∧ i < windowStart k + chunkChars ∧ i < n := by
  rw [windowPositions, Finset.mem_Ico, windowEnd, lt_min_iff]

end Last

/-! ## The loop -/

section Loop

variable {chars : List Char} {K : Nat}

theorem length_window_le (chars : List Char) (k : Nat) :
    (window chars k).length ≤ chunkChars := by
  rw [window, List.length_take, windowEnd]
  omega

/-- The character at a position of the text is in every window over the position. -/
theorem getElem_mem_window {i k : Nat} (hi : i < chars.length)
    (hk : i ∈ windowPositions chars.length k) : chars[i] ∈ window chars k := by
  obtain ⟨hstart, hstop, hlen⟩ := mem_windowPositions.mp hk
  have hoff : i - windowStart k < (window chars k).length := by
    simp only [window, List.length_take, List.length_drop, windowEnd]
    omega
  have hget : (window chars k)[i - windowStart k] = chars[i] := by
    simp only [window, List.getElem_take, List.getElem_drop]
    congr 1
    omega
  rw [← hget]
  exact List.getElem_mem hoff

theorem visible_iff {cs : List Char} : visible cs = true ↔ trim cs ≠ [] := by
  rw [visible, decide_eq_true_eq]

theorem visible_of_mem {cs : List Char} {c : Char} (hc : c ∈ cs) (hws : isWhitespace c = false) :
    visible cs = true := by
  rw [visible_iff]
  intro hblank
  have := (trim_eq_nil_iff cs).mp hblank c hc
  rw [hws] at this
  cases this

theorem visible_of_blank {cs : List Char} (h : ∀ c ∈ cs, isWhitespace c = true) :
    visible cs = false := by
  rw [visible, decide_eq_false_iff_not, not_not]
  exact (trim_eq_nil_iff cs).mpr h

theorem mem_of_mem_window {c : Char} {k : Nat} (hc : c ∈ window chars k) : c ∈ chars :=
  List.mem_of_mem_drop (List.mem_of_mem_take hc)

/-- One pass of the loop: push the window unless it is blank, stop if it reaches the end. -/
theorem chunkFrom_windowStart (chars : List Char) (k : Nat) :
    chunkFrom chars (windowStart k) =
      let rest := if windowEnd chars.length k = chars.length then []
        else chunkFrom chars (windowStart (k + 1))
      if visible (window chars k) then String.ofList (window chars k) :: rest else rest := by
  rw [chunkFrom]
  simp only [if_congr visible_iff rfl rfl]
  rfl

/-- **The windows the loop returns.** From window `k` on, `d` windows before the last one. -/
theorem chunkFrom_window (hK : IsLastWindow chars.length K) (d k : Nat) (hd : k + d = K) :
    chunkFrom chars (windowStart k) =
      (((List.range' k (d + 1)).map (window chars)).filter visible).map String.ofList := by
  induction d generalizing k with
  | zero =>
      obtain rfl : k = K := by omega
      rw [chunkFrom_windowStart, if_pos hK.reaches]
      by_cases hv : visible (window chars k) = true
      · simp [hv]
      · simp [hv]
  | succ d ih =>
      have hstop : windowEnd chars.length k ≠ chars.length := by
        have hk : k < K := by omega
        rw [hK.windowEnd_eq hk]
        exact (hK.full hk).ne
      have hrange : List.range' k (d + 1 + 1) = k :: List.range' (k + 1) (d + 1) :=
        List.range'_succ
      rw [chunkFrom_windowStart, if_neg hstop, ih (k + 1) (by omega), hrange]
      by_cases hv : visible (window chars k) = true
      · simp [hv]
      · simp [hv]

/-- `Chunker::chunk`: its early return is what the loop does on blank text, too. -/
theorem chunk_eq_windows (text : String) (hK : IsLastWindow text.toList.length K) :
    chunk text =
      (((List.range (K + 1)).map (window text.toList)).filter visible).map String.ofList := by
  have hloop := chunkFrom_window hK K 0 (Nat.zero_add K)
  rw [← List.range_eq_range'] at hloop
  by_cases hblank : trim text.toList = []
  · have hnone : ∀ w ∈ (List.range (K + 1)).map (window text.toList), ¬ visible w = true := by
      intro w hw
      obtain ⟨k, -, rfl⟩ := List.mem_map.mp hw
      have hv : visible (window text.toList k) = false :=
        visible_of_blank fun c hc =>
          (trim_eq_nil_iff text.toList).mp hblank c (mem_of_mem_window hc)
      simp [hv]
    rw [chunk, if_pos hblank, List.filter_eq_nil_iff.mpr hnone, List.map_nil]
  · rw [chunk, if_neg hblank, chunkByChars]
    exact hloop

end Loop

/-! ## How the windows cover the text -/

section Cover

variable {n K k i : Nat}

/-- The windows over a position: the one its stride begins, and the one before it when the
position is among the first characters of the stride. -/
theorem windowStart_le_iff : windowStart k ≤ i ↔ k ≤ i / strideChars := by
  rw [windowStart, Nat.le_div_iff_mul_le (by decide), Nat.mul_comm]

/-- Some window up to the last one is over the position. -/
theorem exists_window_over (hK : IsLastWindow n K) (hi : i < n) :
    ∃ k ≤ K, i ∈ windowPositions n k := by
  by_cases hlast : windowStart K ≤ i
  · refine ⟨K, le_rfl, mem_windowPositions.mpr ⟨hlast, ?_, hi⟩⟩
    have hend : n ≤ windowStart K + chunkChars := hK.1
    omega
  · refine ⟨i / strideChars, ?_, mem_windowPositions.mpr ⟨windowStart_le_iff.mpr le_rfl, ?_, hi⟩⟩
    · rw [windowStart_le_iff] at hlast
      omega
    · have hdiv := Nat.div_add_mod i strideChars
      have hmod : i % strideChars < strideChars := Nat.mod_lt i (by decide)
      have hstride : strideChars ≤ chunkChars := by decide
      rw [windowStart]
      omega

/-- Two windows over one position are the same or neighbours. -/
theorem window_le_succ {j k : Nat} (hj : i ∈ windowPositions n j) (hk : i ∈ windowPositions n k) :
    k ≤ j + 1 := by
  have hj' := (mem_windowPositions.mp hj).2.1
  have hk' := (mem_windowPositions.mp hk).1
  simp only [windowStart, strideChars, chunkChars, overlapChars] at hj' hk'
  omega

/-- A set of numbers no two of which are more than one apart has at most two members. -/
theorem card_le_two_of_neighbours {s : Finset Nat} (h : ∀ j ∈ s, ∀ k ∈ s, k ≤ j + 1) :
    s.card ≤ 2 := by
  rcases s.eq_empty_or_nonempty with rfl | hne
  · simp
  · have hsub : s ⊆ {s.min' hne, s.min' hne + 1} := by
      intro k hk
      have hlow := s.min'_le k hk
      have hhigh := h _ (s.min'_mem hne) k hk
      rw [Finset.mem_insert, Finset.mem_singleton]
      omega
    exact (Finset.card_le_card hsub).trans Finset.card_le_two

/-- Neighbouring windows share the overlap. -/
theorem card_shared (hK : IsLastWindow n K) (hk : k < K) :
    (windowPositions n k ∩ windowPositions n (k + 1)).card = overlapChars := by
  have hfull := hK.full hk
  have hshared : windowPositions n k ∩ windowPositions n (k + 1) =
      Finset.Ico (windowStart (k + 1)) (windowStart k + chunkChars) := by
    ext i
    rw [Finset.mem_inter, mem_windowPositions, mem_windowPositions, Finset.mem_Ico,
      windowStart_succ]
    simp only [strideChars, chunkChars, overlapChars] at *
    omega
  rw [hshared, Nat.card_Ico, windowStart_succ]
  simp only [strideChars, chunkChars, overlapChars]
  omega

/-- The last window is over a position that no earlier one is over. -/
theorem exists_new_position (hK : IsLastWindow n (K + 1)) :
    ∃ i ∈ windowPositions n (K + 1), i ∉ windowPositions n K := by
  have hfull := hK.full (Nat.lt_succ_self K)
  refine ⟨windowStart K + chunkChars, mem_windowPositions.mpr ⟨?_, ?_, hfull⟩, ?_⟩
  · rw [windowStart_succ]
    simp only [strideChars, chunkChars, overlapChars]
    omega
  · rw [windowStart_succ]
    simp only [strideChars, chunkChars, overlapChars]
    omega
  · rw [mem_windowPositions]
    omega

end Cover

/-- **The chunks of a text.** They are the windows `0, …, K` that are not blank, in order, `K` the
least number whose window reaches the end, and every slice taken is within the text. So blank text
has no chunk, a chunk has at most 2048 characters, a character that is not whitespace is in one or
two of the chunks, neighbouring windows share 200 positions, and the last window adds one. -/
theorem chunk_windows (text : String) :
    let chars := text.toList
    let n := chars.length
    ∃ K, IsLeast {k | n ≤ 1848 * k + 2048} K ∧
      (∀ k ≤ K, windowStart k = 1848 * k ∧ windowEnd n k = min (1848 * k + 2048) n ∧
        windowStart k ≤ windowEnd n k) ∧
      chunk text =
        (((List.range (K + 1)).map (window chars)).filter visible).map String.ofList ∧
      ((∀ c ∈ chars, isWhitespace c = true) → chunk text = []) ∧
      (∀ s ∈ chunk text, s.toList.length ≤ 2048) ∧
      (∀ (i : Nat) (hi : i < n), isWhitespace chars[i] = false →
        let covering := (Finset.range (K + 1)).filter fun k =>
          visible (window chars k) = true ∧ i ∈ windowPositions n k
        1 ≤ covering.card ∧ covering.card ≤ 2) ∧
      (∀ k < K, (windowPositions n k ∩ windowPositions n (k + 1)).card = 200) ∧
      (∀ k, k + 1 = K → ∃ i ∈ windowPositions n K, i ∉ windowPositions n k) := by
  intro chars n
  obtain ⟨K, hK⟩ := exists_isLastWindow n
  have hchunk := chunk_eq_windows text hK
  refine ⟨K, hK, fun k hk => ⟨rfl, rfl, hK.slice hk⟩, hchunk, (chunk_eq_nil_iff text).mpr,
    ?_, ?_, fun k hk => card_shared hK hk, ?_⟩
  · intro s hs
    rw [hchunk] at hs
    obtain ⟨w, hw, rfl⟩ := List.mem_map.mp hs
    obtain ⟨k, -, rfl⟩ := List.mem_map.mp (List.mem_filter.mp hw).1
    rw [String.toList_ofList]
    exact length_window_le chars k
  · intro i hi hws covering
    constructor
    · obtain ⟨k, hk, hpos⟩ := exists_window_over hK hi
      have hvis : visible (window chars k) = true :=
        visible_of_mem (getElem_mem_window hi hpos) hws
      have hmem : k ∈ covering :=
        Finset.mem_filter.mpr ⟨Finset.mem_range.mpr (Nat.lt_succ_of_le hk), hvis, hpos⟩
      exact Finset.card_pos.mpr ⟨k, hmem⟩
    · -- two windows over one position are neighbours
      apply card_le_two_of_neighbours
      intro j hj k hk
      exact window_le_succ (Finset.mem_filter.mp hj).2.2 (Finset.mem_filter.mp hk).2.2
  · rintro k rfl
    exact exists_new_position hK

end McpGateway.Ingestion
