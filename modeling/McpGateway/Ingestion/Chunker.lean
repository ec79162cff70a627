import McpGateway.Text

/-! # The chunker

`ingestion/src/chunker.rs`: overlapping windows of characters.

* `chunk_eq_nil_iff` — the chunker returns no chunk exactly for blank text: the windows cover every
  character, so text that is not blank has a window that is not. -/

namespace McpGateway.Ingestion

def chunkChars : Nat := 2048
def overlapChars : Nat := 200
def strideChars : Nat := chunkChars - overlapChars

/-- The loop of `chunk_by_chars` from `start` on. -/
def chunkFrom (chars : List Char) (start : Nat) : List String :=
  let stop := min (start + chunkChars) chars.length
  let s := (chars.drop start).take (stop - start)
  let rest := if stop = chars.length then [] else chunkFrom chars (start + strideChars)
  if trim s ≠ [] then String.ofList s :: rest else rest
termination_by chars.length - start
decreasing_by
  simp only [chunkChars, overlapChars, strideChars] at *
  omega

/-- `chunk_by_chars`. -/
def chunkByChars (text : String) : List String := chunkFrom text.toList 0

/-- `Chunker::chunk`. It returns a `Result`, but has no error of its own. -/
def chunk (text : String) : List String :=
  if trim text.toList = [] then [] else chunkByChars text

/-- A window is made of characters of the text. -/
theorem mem_of_window {chars : List Char} {start n : Nat} {c : Char}
    (h : c ∈ (chars.drop start).take n) : c ∈ chars.drop start :=
  List.mem_of_mem_take h

/-- The next window starts inside this one, so the two leave no gap. -/
theorem drop_of_stride {chars : List Char} {start : Nat} {c : Char} (hc : c ∈ chars.drop start)
    (hout : c ∉ (chars.drop start).take chunkChars) : c ∈ chars.drop (start + strideChars) := by
  have hsplit := List.take_append_drop chunkChars (chars.drop start)
  rw [← hsplit, List.mem_append] at hc
  rcases hc with hc | hc
  · exact absurd hc hout
  · have hle : start + chunkChars = start + strideChars + overlapChars := by
      simp [chunkChars, strideChars, overlapChars]
    rw [List.drop_drop, hle, ← List.drop_drop] at hc
    exact List.mem_of_mem_drop hc

/-- From `start` on, the windows miss no character. -/
theorem chunkFrom_eq_nil_iff (chars : List Char) (start : Nat) :
    chunkFrom chars start = [] ↔ ∀ c ∈ chars.drop start, isWhitespace c = true := by
  induction start using chunkFrom.induct chars with
  | case1 start stop s hs ih =>
      rw [chunkFrom]
      rw [if_pos hs]
      constructor
      · intro h
        cases h
      · intro h
        refine absurd ((trim_eq_nil_iff _).mpr ?_) hs
        intro c hc
        exact h c (mem_of_window hc)
  | case2 start stop s hs ih =>
      have hblank : ∀ c ∈ s, isWhitespace c = true := (trim_eq_nil_iff s).mp (not_not.mp hs)
      rw [chunkFrom, if_neg hs]
      -- the loop ends with the window that reaches the end; otherwise the next one overlaps it
      by_cases hstop : stop = chars.length
      · have hwindow : s = chars.drop start := by
          show (chars.drop start).take (stop - start) = chars.drop start
          rw [hstop]
          apply List.take_of_length_le
          simp
        have hend : min (start + chunkChars) chars.length = chars.length := hstop
        rw [if_pos hend, ← hwindow]
        exact ⟨fun _ => hblank, fun _ => rfl⟩
      · have hend : ¬ min (start + chunkChars) chars.length = chars.length := hstop
        have hlen : stop - start = chunkChars := by
          show min (start + chunkChars) chars.length - start = chunkChars
          omega
        rw [if_neg hend, ih hstop]
        constructor
        · intro h c hc
          by_cases hin : c ∈ (chars.drop start).take chunkChars
          · apply hblank
            show c ∈ (chars.drop start).take (stop - start)
            rwa [hlen]
          · exact h c (drop_of_stride hc hin)
        · intro h c hc
          rw [← List.drop_drop] at hc
          exact h c (List.mem_of_mem_drop hc)

/-- **No chunk exactly for blank text.** -/
theorem chunk_eq_nil_iff (text : String) :
    chunk text = [] ↔ ∀ c ∈ text.toList, isWhitespace c = true := by
  unfold chunk chunkByChars
  by_cases h : trim text.toList = []
  · rw [if_pos h]
    exact ⟨fun _ => (trim_eq_nil_iff _).mp h, fun _ => rfl⟩
  · rw [if_neg h, chunkFrom_eq_nil_iff, List.drop_zero]

/-- Text that fits one window is one chunk. -/
theorem chunk_short {text : String} (hlen : text.toList.length ≤ chunkChars)
    (hblank : trim text.toList ≠ []) : chunk text = [text] := by
  unfold chunk chunkByChars
  rw [if_neg hblank, chunkFrom]
  have hstop : min (0 + chunkChars) text.toList.length = text.toList.length := by omega
  have hwindow : (text.toList.drop 0).take (text.toList.length - 0) = text.toList := by
    simp only [List.drop_zero, Nat.sub_zero, List.take_length]
  rw [hstop, if_pos rfl, hwindow, if_pos hblank, String.ofList_toList]

end McpGateway.Ingestion
