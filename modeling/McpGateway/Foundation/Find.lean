import Mathlib.Data.List.TakeWhile

/-! # Leftmost-first search

Patterns as backtracking engines with a leftmost-first rule read them: a body that repeats classes of
characters greedily, with or without an assertion on either side, and the search for all its matches
from left to right, none overlapping another.

* `mem_splits_iff` — the ways the engine tries are the words of the pattern's language.
* `matchAt_isSome_iff` — there is a match at a position exactly if some word of the language stands
  there.
* `findIter_sound`, `findIter_covers` — what is found is a match, and a position where a match
  begins lies in a match that is found.
* `mem_findIter_iff` — what is found is the leftmost match, then the leftmost one behind it, and so
  on. -/

namespace McpGateway.Foundation

variable {α : Type*}

/-! ## Bodies -/

inductive Shape (α : Type*) where
  | chars (least : Nat) (most : Option Nat) (p : α → Bool)
  | seq (s s' : Shape α)
  | alt (s s' : Shape α)

namespace Shape

/-- As many characters of the class as may be taken. -/
def run (most : Option Nat) (p : α → Bool) (text : List α) : List α :=
  match most with
  | none => text.takeWhile p
  | some m => (text.take m).takeWhile p

/-- Every way to take a word of the body off the text, in the order an engine tries them: the longest
repetition first, the left alternative first. -/
def splits : Shape α → List α → List (List α × List α)
  | chars least most p, text =>
      ((List.range ((run most p text).length + 1)).filter fun k => least ≤ k).reverse.map fun k =>
        (text.take k, text.drop k)
  | seq s s', text => (s.splits text).flatMap fun (w, rest) =>
      (s'.splits rest).map fun (w', rest') => (w ++ w', rest')
  | alt s s', text => s.splits text ++ s'.splits text

/-- The language of a body. -/
def Denotes : Shape α → List α → Prop
  | chars least most p, w => (∀ c ∈ w, p c = true) ∧ least ≤ w.length ∧ ∀ m, most = some m →
      w.length ≤ m
  | seq s s', w => ∃ u v, w = u ++ v ∧ s.Denotes u ∧ s'.Denotes v
  | alt s s', w => s.Denotes w ∨ s'.Denotes w

theorem length_takeWhile_le_of_all {p : α → Bool} {w rest : List α} (h : ∀ c ∈ w, p c = true) :
    w.length ≤ ((w ++ rest).takeWhile p).length := by
  induction w with
  | nil => exact Nat.zero_le _
  | cons c w ih =>
      rw [List.cons_append, List.takeWhile_cons_of_pos (h c List.mem_cons_self), List.length_cons,
        List.length_cons]
      exact Nat.succ_le_succ (ih fun d hd => h d (List.mem_cons_of_mem _ hd))

theorem all_of_le_takeWhile {p : α → Bool} {text : List α} {k : Nat}
    (h : k ≤ (text.takeWhile p).length) : ∀ c ∈ text.take k, p c = true := by
  have htake : text.take k = (text.takeWhile p).take k := by
    calc text.take k = (text.takeWhile p ++ text.dropWhile p).take k := by
          rw [List.takeWhile_append_dropWhile]
      _ = (text.takeWhile p).take k := List.take_append_of_le_length h
  intro c hc
  rw [htake] at hc
  exact List.mem_takeWhile_imp (List.mem_of_mem_take hc)

/-- A run can be cut to any length up to its own. -/
theorem le_run_iff {most : Option Nat} {p : α → Bool} {text : List α} {k : Nat}
    (hk : k ≤ text.length) :
    k ≤ (run most p text).length ↔
      (∀ c ∈ text.take k, p c = true) ∧ ∀ m, most = some m → k ≤ m := by
  have hsplit : text.take k ++ text.drop k = text := List.take_append_drop k text
  have hlen : (text.take k).length = k := by
    rw [List.length_take]
    omega
  cases most with
  | none =>
      constructor
      · intro h
        exact ⟨all_of_le_takeWhile h, nofun⟩
      · intro h
        have : (text.take k).length ≤ ((text.take k ++ text.drop k).takeWhile p).length :=
          length_takeWhile_le_of_all h.1
        rw [hsplit, hlen] at this
        exact this
  | some m =>
      unfold run
      constructor
      · intro h
        have hm : k ≤ m := by
          dsimp only at h
          have hle := (List.takeWhile_sublist (l := text.take m) p).length_le
          rw [List.length_take] at hle
          omega
        have hall := all_of_le_takeWhile h
        rw [List.take_take, Nat.min_eq_left hm] at hall
        refine ⟨hall, ?_⟩
        intro m' hm'
        cases hm'
        exact hm
      · rintro ⟨hall, hm⟩
        have hkm := hm m rfl
        -- a bounded run is a run of the first `m`
        have htake : text.take m = text.take k ++ (text.take m).drop k := by
          calc text.take m = (text.take m).take k ++ (text.take m).drop k :=
                (List.take_append_drop k _).symm
            _ = text.take k ++ (text.take m).drop k := by rw [List.take_take, Nat.min_eq_left hkm]
        have : (text.take k).length
            ≤ ((text.take k ++ (text.take m).drop k).takeWhile p).length :=
          length_takeWhile_le_of_all hall
        rw [← htake, hlen] at this
        exact this

/-- **What the engine tries.** -/
theorem mem_splits_iff (s : Shape α) {text w rest : List α} :
    (w, rest) ∈ s.splits text ↔ text = w ++ rest ∧ s.Denotes w := by
  induction s generalizing text w rest with
  | chars least most p =>
      simp only [splits, List.mem_map, List.mem_reverse, List.mem_filter, List.mem_range,
        decide_eq_true_eq, Prod.mk.injEq, Denotes]
      constructor
      · -- the engine takes some part of the longest run, not less than the least number
        rintro ⟨k, ⟨hk, hleast⟩, rfl, rfl⟩
        have hrun : k ≤ (run most p text).length := by omega
        have hlen : k ≤ text.length := by
          have : (run most p text).length ≤ text.length := by
            cases most with
            | none => exact (List.takeWhile_sublist p).length_le
            | some m =>
                exact Nat.le_trans (List.takeWhile_sublist p).length_le
                  (List.take_sublist m text).length_le
          omega
        obtain ⟨hall, hmost⟩ := (le_run_iff hlen).mp hrun
        have htake : (text.take k).length = k := by
          rw [List.length_take]
          omega
        rw [htake]
        exact ⟨(List.take_append_drop k text).symm, hall, hleast, hmost⟩
      · rintro ⟨rfl, hall, hleast, hmost⟩
        have hlen : w.length ≤ (w ++ rest).length := by simp
        have hrun : w.length ≤ (run most p (w ++ rest)).length :=
          (le_run_iff hlen).mpr ⟨by rw [List.take_left]; exact hall, hmost⟩
        exact ⟨w.length, ⟨by omega, hleast⟩, List.take_left, List.drop_left⟩
  | seq s s' ih ih' =>
      simp only [splits, List.mem_flatMap, List.mem_map, Prod.exists, Prod.mk.injEq, Denotes]
      constructor
      · rintro ⟨u, t, hu, v, r, hv, rfl, rfl⟩
        obtain ⟨rfl, hdu⟩ := ih.mp hu
        obtain ⟨rfl, hdv⟩ := ih'.mp hv
        exact ⟨(List.append_assoc ..).symm, u, v, rfl, hdu, hdv⟩
      · rintro ⟨rfl, u, v, rfl, hdu, hdv⟩
        refine ⟨u, v ++ rest, ih.mpr ⟨List.append_assoc .., hdu⟩, v, rest, ?_, rfl, rfl⟩
        exact ih'.mpr ⟨rfl, hdv⟩
  | alt s s' ih ih' =>
      simp only [splits, List.mem_append, ih, ih', Denotes]
      exact and_or_left.symm

/-! ## What the words look like -/

/-- No word is shorter. -/
def minLength : Shape α → Nat
  | chars least _ _ => least
  | seq s s' => s.minLength + s'.minLength
  | alt s s' => min s.minLength s'.minLength

theorem minLength_le {s : Shape α} {w : List α} (h : s.Denotes w) : s.minLength ≤ w.length := by
  induction s generalizing w with
  | chars least most p => exact h.2.1
  | seq s s' ih ih' =>
      obtain ⟨u, v, rfl, hu, hv⟩ := h
      rw [List.length_append]
      exact Nat.add_le_add (ih hu) (ih' hv)
  | alt s s' ih ih' =>
      rcases h with h | h
      · exact Nat.le_trans (Nat.min_le_left _ _) (ih h)
      · exact Nat.le_trans (Nat.min_le_right _ _) (ih' h)

/-- Every class of the body is within another one. -/
def Within (q : α → Prop) : Shape α → Prop
  | chars _ _ p => ∀ c, p c = true → q c
  | seq s s' => s.Within q ∧ s'.Within q
  | alt s s' => s.Within q ∧ s'.Within q

theorem Within.word {q : α → Prop} {s : Shape α} {w : List α} (hs : s.Within q) (h : s.Denotes w) :
    ∀ c ∈ w, q c := by
  induction s generalizing w with
  | chars least most p => exact fun c hc => hs c (h.1 c hc)
  | seq s s' ih ih' =>
      obtain ⟨u, v, rfl, hu, hv⟩ := h
      intro c hc
      rcases List.mem_append.mp hc with hc | hc
      · exact ih hs.1 hu c hc
      · exact ih' hs.2 hv c hc
  | alt s s' ih ih' =>
      rcases h with h | h
      · exact ih hs.1 h
      · exact ih' hs.2 h

/-- Some class that every word takes a character from is within another one. -/
def Needs (q : α → Prop) : Shape α → Prop
  | chars least _ p => 1 ≤ least ∧ ∀ c, p c = true → q c
  | seq s s' => s.Needs q ∨ s'.Needs q
  | alt s s' => s.Needs q ∧ s'.Needs q

theorem Needs.word {q : α → Prop} {s : Shape α} {w : List α} (hs : s.Needs q) (h : s.Denotes w) :
    ∃ c ∈ w, q c := by
  induction s generalizing w with
  | chars least most p =>
      cases w with
      | nil => exact absurd (Nat.le_trans hs.1 h.2.1) (by simp)
      | cons c w => exact ⟨c, List.mem_cons_self, hs.2 c (h.1 c List.mem_cons_self)⟩
  | seq s s' ih ih' =>
      obtain ⟨u, v, rfl, hu, hv⟩ := h
      rcases hs with hs | hs
      · obtain ⟨c, hc, hq⟩ := ih hs hu
        exact ⟨c, List.mem_append_left _ hc, hq⟩
      · obtain ⟨c, hc, hq⟩ := ih' hs hv
        exact ⟨c, List.mem_append_right _ hc, hq⟩
  | alt s s' ih ih' =>
      rcases h with h | h
      · exact ih hs.1 h
      · exact ih' hs.2 h

/-- Every word has so many characters of a class. -/
def Counts (q : α → Bool) (n : Nat) (s : Shape α) : Prop :=
  ∀ w, s.Denotes w → n ≤ (w.filter q).length

theorem counts_zero (q : α → Bool) (s : Shape α) : s.Counts q 0 := fun _ _ => Nat.zero_le _

theorem counts_chars {q p : α → Bool} {least : Nat} {most : Option Nat}
    (h : ∀ c, p c = true → q c = true) : (chars least most p).Counts q least := by
  intro w hw
  have hall : w.filter q = w := List.filter_eq_self.mpr fun c hc => h c (hw.1 c hc)
  rw [hall]
  exact hw.2.1

theorem Counts.seq {q : α → Bool} {n n' : Nat} {s s' : Shape α} (h : s.Counts q n)
    (h' : s'.Counts q n') : (seq s s').Counts q (n + n') := by
  rintro w ⟨u, v, rfl, hu, hv⟩
  rw [List.filter_append, List.length_append]
  exact Nat.add_le_add (h u hu) (h' v hv)

theorem Counts.alt {q : α → Bool} {n : Nat} {s s' : Shape α} (h : s.Counts q n)
    (h' : s'.Counts q n) : (alt s s').Counts q n := by
  rintro w (hw | hw)
  · exact h w hw
  · exact h' w hw

/-- No word has more characters of a class. -/
def CountsAtMost (q : α → Bool) (n : Nat) (s : Shape α) : Prop :=
  ∀ w, s.Denotes w → (w.filter q).length ≤ n

theorem countsAtMost_chars (q p : α → Bool) (least most : Nat) :
    (chars least (some most) p).CountsAtMost q most := by
  intro w hw
  exact Nat.le_trans (List.length_filter_le q w) (hw.2.2 most rfl)

theorem countsAtMost_zero {q p : α → Bool} {least : Nat} {most : Option Nat}
    (h : ∀ c, p c = true → q c = false) : (chars least most p).CountsAtMost q 0 := by
  intro w hw
  have hnil : w.filter q = [] := by
    rw [List.filter_eq_nil_iff]
    intro c hc
    rw [h c (hw.1 c hc)]
    decide
  rw [hnil]
  exact Nat.le_refl 0

theorem CountsAtMost.seq {q : α → Bool} {n n' : Nat} {s s' : Shape α} (h : s.CountsAtMost q n)
    (h' : s'.CountsAtMost q n') : (seq s s').CountsAtMost q (n + n') := by
  rintro w ⟨u, v, rfl, hu, hv⟩
  rw [List.filter_append, List.length_append]
  exact Nat.add_le_add (h u hu) (h' v hv)

theorem CountsAtMost.alt {q : α → Bool} {n : Nat} {s s' : Shape α} (h : s.CountsAtMost q n)
    (h' : s'.CountsAtMost q n) : (alt s s').CountsAtMost q n := by
  rintro w (hw | hw)
  · exact h w hw
  · exact h' w hw

/-- Every word ends in a character of a class. -/
def EndsIn (q : α → Prop) (s : Shape α) : Prop :=
  ∀ w, s.Denotes w → ∃ c, w.getLast? = some c ∧ q c

theorem endsIn_chars {q : α → Prop} {p : α → Bool} {least : Nat} {most : Option Nat}
    (hleast : 1 ≤ least) (h : ∀ c, p c = true → q c) : (chars least most p).EndsIn q := by
  intro w hw
  cases hlast : w.getLast? with
  | none =>
      rw [List.getLast?_eq_none_iff.mp hlast] at hw
      exact absurd (Nat.le_trans hleast hw.2.1) (by simp)
  | some c => exact ⟨c, rfl, h c (hw.1 c (List.mem_of_getLast? hlast))⟩

theorem EndsIn.seq {q : α → Prop} (s : Shape α) {s' : Shape α} (h : s'.EndsIn q) :
    (seq s s').EndsIn q := by
  rintro w ⟨u, v, rfl, -, hv⟩
  obtain ⟨c, hlast, hc⟩ := h v hv
  refine ⟨c, ?_, hc⟩
  rw [List.getLast?_append, hlast, Option.some_or]

/-- One body after another. -/
def seqs : Shape α → List (Shape α) → Shape α
  | s, [] => s
  | s, s' :: ss => .seq s (seqs s' ss)

end Shape

/-! ## Patterns -/

/-- A body, and whether an assertion stands before and after it. -/
structure Pattern (α : Type*) where
  opens : Bool
  shape : Shape α
  closes : Bool

namespace Pattern

/-- An assertion looks at the characters on either side of a position. -/
abbrev Assertion (α : Type*) := Option α → Option α → Bool

/-- The character before the end of a word. -/
def lastOr (prev : Option α) (w : List α) : Option α :=
  match w.getLast? with
  | some c => some c
  | none => prev

/-- The match at a position: the first word the engine tries that the assertions let pass. -/
def matchAt (P : Pattern α) (b : Assertion α) (prev : Option α) (text : List α) : Option (List α) :=
  if P.opens && !b prev text.head? then none
  else ((P.shape.splits text).find? fun (w, rest) =>
    !P.closes || b (lastOr prev w) rest.head?).map Prod.fst

/-- A match: where it starts, and its length. -/
structure Match where
  start : Nat
  length : Nat
  deriving DecidableEq, Repr

/-- The search from a position on; `skip` characters belong to the last match. -/
def findFrom (P : Pattern α) (b : Assertion α) : (skip i : Nat) → Option α → List α → List Match
  | _, _, _, [] => []
  | skip + 1, i, _, c :: rest => findFrom P b skip (i + 1) (some c) rest
  | 0, i, prev, c :: rest =>
      match P.matchAt b prev (c :: rest) with
      | none => findFrom P b 0 (i + 1) (some c) rest
      | some w => ⟨i, w.length⟩ :: findFrom P b (w.length - 1) (i + 1) (some c) rest

/-- `find_iter`, for a pattern that matches no empty text. -/
def findIter (P : Pattern α) (b : Assertion α) (text : List α) : List Match :=
  findFrom P b 0 0 none text

/-- A word of the pattern stands at the position. -/
structure Stands (P : Pattern α) (b : Assertion α) (prev : Option α) (w rest : List α) : Prop where
  denotes : P.shape.Denotes w
  opens : P.opens = true → b prev (w ++ rest).head? = true
  closes : P.closes = true → b (lastOr prev w) rest.head? = true

theorem stands_of_matchAt {P : Pattern α} {b : Assertion α} {prev : Option α} {text w : List α}
    (h : P.matchAt b prev text = some w) : ∃ rest, text = w ++ rest ∧ P.Stands b prev w rest := by
  unfold matchAt at h
  split_ifs at h with hopen
  obtain ⟨⟨w', rest⟩, hfind, rfl⟩ := Option.map_eq_some_iff.mp h
  obtain ⟨rfl, hden⟩ := (Shape.mem_splits_iff _).mp (List.mem_of_find?_eq_some hfind)
  have hclose := List.find?_some hfind
  refine ⟨rest, rfl, hden, ?_, ?_⟩
  · intro ho
    simpa [ho] using hopen
  · intro hc
    simpa [hc] using hclose

/-- **There is a match** where some word stands. -/
theorem matchAt_isSome {P : Pattern α} {b : Assertion α} {prev : Option α} {w rest : List α}
    (h : P.Stands b prev w rest) : (P.matchAt b prev (w ++ rest)).isSome = true := by
  unfold matchAt
  have hopen : ¬ (P.opens && !b prev (w ++ rest).head?) = true := by
    intro hcon
    rw [Bool.and_eq_true] at hcon
    rw [h.opens hcon.1] at hcon
    cases hcon.2
  rw [if_neg hopen, Option.isSome_map, List.find?_isSome]
  refine ⟨(w, rest), (Shape.mem_splits_iff _).mpr ⟨rfl, h.denotes⟩, ?_⟩
  cases hc : P.closes with
  | false => rfl
  | true => exact h.closes hc

theorem lastOr_none (pre : List α) : lastOr none pre = pre.getLast? := by
  unfold lastOr
  cases pre.getLast? <;> rfl

theorem lastOr_cons (prev : Option α) (c : α) (pre : List α) :
    lastOr prev (c :: pre) = lastOr (some c) pre := by
  unfold lastOr
  cases pre with
  | nil => rfl
  | cons d pre =>
      rw [List.getLast?_cons_cons]
      cases hlast : (d :: pre).getLast? with
      | none => simp at hlast
      | some e => rfl

/-- **What the search finds stands there.** -/
theorem findFrom_sound {P : Pattern α} {b : Assertion α} {skip i : Nat} {prev : Option α}
    {text : List α} {m : Match} (h : m ∈ findFrom P b skip i prev text) :
    ∃ pre w rest, text = pre ++ (w ++ rest) ∧ m = ⟨i + pre.length, w.length⟩ ∧
      P.Stands b (lastOr prev pre) w rest := by
  induction text generalizing skip i prev with
  | nil => cases h
  | cons c text ih =>
      have hnext : ∀ skip', m ∈ findFrom P b skip' (i + 1) (some c) text →
          ∃ pre w rest, c :: text = pre ++ (w ++ rest) ∧ m = ⟨i + pre.length, w.length⟩ ∧
            P.Stands b (lastOr prev pre) w rest := by
        intro skip' hm
        obtain ⟨pre, w, rest, rfl, rfl, hst⟩ := ih hm
        refine ⟨c :: pre, w, rest, rfl, ?_, ?_⟩
        · rw [List.length_cons]
          congr 1
          omega
        · rw [lastOr_cons]
          exact hst
      cases skip with
      | succ skip => exact hnext skip h
      | zero =>
          unfold findFrom at h
          cases hmatch : P.matchAt b prev (c :: text) with
          | none =>
              rw [hmatch] at h
              exact hnext 0 h
          | some w =>
              rw [hmatch] at h
              rcases List.mem_cons.mp h with rfl | h
              · obtain ⟨rest, htext, hst⟩ := stands_of_matchAt hmatch
                exact ⟨[], w, rest, htext, rfl, hst⟩
              · exact hnext _ h

/-- A position where a match begins lies in a match the search finds, unless it belongs to the last
one. -/
theorem findFrom_covers {P : Pattern α} {b : Assertion α} (hP : 1 ≤ P.shape.minLength)
    {skip i : Nat} {prev : Option α} {pre : List α} {c : α} {rest : List α}
    (hskip : skip ≤ pre.length)
    (h : (P.matchAt b (lastOr prev pre) (c :: rest)).isSome = true) :
    ∃ m ∈ findFrom P b skip i prev (pre ++ c :: rest),
      m.start ≤ i + pre.length ∧ i + pre.length < m.start + m.length := by
  induction pre generalizing skip i prev with
  | nil =>
      cases skip with
      | succ skip => exact absurd hskip (by simp)
      | zero =>
          obtain ⟨w, hw⟩ := Option.isSome_iff_exists.mp h
          obtain ⟨rest', -, hst⟩ := stands_of_matchAt hw
          have hpos := Shape.minLength_le hst.denotes
          have hfind : findFrom P b 0 i prev (c :: rest)
              = ⟨i, w.length⟩ :: findFrom P b (w.length - 1) (i + 1) (some c) rest := by
            have hprev : P.matchAt b prev (c :: rest) = some w := hw
            simp only [findFrom, hprev]
          refine ⟨⟨i, w.length⟩, ?_, Nat.le_refl i, ?_⟩
          · rw [List.nil_append, hfind]
            exact List.mem_cons_self
          · show i < i + w.length
            omega
  | cons d pre ih =>
      rw [lastOr_cons] at h
      rw [List.length_cons] at hskip
      have hindex : i + (d :: pre).length = i + 1 + pre.length := by
        rw [List.length_cons]
        omega
      rw [hindex]
      cases skip with
      | succ skip => exact ih (by omega) h
      | zero =>
          rw [List.cons_append]
          unfold findFrom
          cases hmatch : P.matchAt b prev (d :: (pre ++ c :: rest)) with
          | none => exact ih (Nat.zero_le _) h
          | some w =>
              by_cases hlong : w.length - 1 ≤ pre.length
              · obtain ⟨m, hm, hcovers⟩ := ih hlong h
                exact ⟨m, List.mem_cons_of_mem _ hm, hcovers⟩
              · -- the position belongs to the match that begins here
                refine ⟨⟨i, w.length⟩, List.mem_cons_self, ?_, ?_⟩
                · show i ≤ i + 1 + pre.length
                  omega
                · show i + 1 + pre.length < i + w.length
                  omega

theorem findIter_sound {P : Pattern α} {b : Assertion α} {text : List α} {m : Match}
    (h : m ∈ findIter P b text) : ∃ pre w rest, text = pre ++ (w ++ rest) ∧
      m = ⟨pre.length, w.length⟩ ∧ P.Stands b pre.getLast? w rest := by
  obtain ⟨pre, w, rest, htext, hm, hst⟩ := findFrom_sound h
  rw [Nat.zero_add] at hm
  rw [lastOr_none] at hst
  exact ⟨pre, w, rest, htext, hm, hst⟩

/-- **A position where a word stands lies in a match that is found.** -/
theorem findIter_covers {P : Pattern α} {b : Assertion α} (hP : 1 ≤ P.shape.minLength)
    {pre w rest : List α} (h : P.Stands b pre.getLast? w rest) :
    ∃ m ∈ findIter P b (pre ++ (w ++ rest)), m.start ≤ pre.length ∧
      pre.length < m.start + m.length := by
  have hsome := matchAt_isSome h
  rw [← lastOr_none] at hsome
  cases hw : w with
  | nil =>
      have hpos := Shape.minLength_le h.denotes
      rw [hw] at hpos
      exact absurd (Nat.le_trans hP hpos) (by simp)
  | cons c w' =>
      rw [hw, List.cons_append] at hsome
      obtain ⟨m, hm, hle, hlt⟩ := findFrom_covers (i := 0) hP (Nat.zero_le _) hsome
      rw [Nat.zero_add] at hle hlt
      exact ⟨m, hm, hle, hlt⟩

/-! ### What the search takes

The same without the loop: from a position on, the leftmost match is taken, then the leftmost one
from its end on. -/

/-- The match at a position of the text. -/
def Occurs (P : Pattern α) (b : Assertion α) (text : List α) (m : Match) : Prop :=
  ∃ pre w rest, text = pre ++ (w ++ rest) ∧ m = ⟨pre.length, w.length⟩ ∧
    P.matchAt b pre.getLast? (w ++ rest) = some w

/-- The first match from a position on. -/
structure Leftmost (P : Pattern α) (b : Assertion α) (text : List α) (cursor : Nat) (m : Match) :
    Prop where
  occurs : P.Occurs b text m
  le : cursor ≤ m.start
  first : ∀ m', P.Occurs b text m' → cursor ≤ m'.start → m.start ≤ m'.start

inductive TakenFrom (P : Pattern α) (b : Assertion α) (text : List α) :
    (cursor : Nat) → Match → Prop
  | here {cursor : Nat} {m : Match} (h : P.Leftmost b text cursor m) :
      TakenFrom P b text cursor m
  | later {cursor : Nat} {m m' : Match} (h : P.Leftmost b text cursor m)
      (h' : TakenFrom P b text (m.start + m.length) m') : TakenFrom P b text cursor m'

theorem Occurs.unique {P : Pattern α} {b : Assertion α} {text : List α} {m m' : Match}
    (h : P.Occurs b text m) (h' : P.Occurs b text m') (hstart : m.start = m'.start) : m = m' := by
  obtain ⟨pre, w, rest, rfl, rfl, hw⟩ := h
  obtain ⟨pre', w', rest', htext, rfl, hw'⟩ := h'
  obtain ⟨rfl, hafter⟩ := List.append_inj htext hstart
  rw [hafter, hw'] at hw
  cases hw
  rfl

/-- What occurs at the end of `pre`. -/
theorem occurs_append {P : Pattern α} {b : Assertion α} {pre after : List α} {m : Match}
    (h : P.Occurs b (pre ++ after) m) (hstart : m.start = pre.length) :
    ∃ w, P.matchAt b pre.getLast? after = some w ∧ m = ⟨pre.length, w.length⟩ := by
  obtain ⟨pre', w, rest, htext, rfl, hw⟩ := h
  obtain ⟨rfl, rfl⟩ := List.append_inj htext hstart.symm
  exact ⟨w, hw, rfl⟩

theorem Leftmost.unique {P : Pattern α} {b : Assertion α} {text : List α} {cursor : Nat}
    {m m' : Match} (h : P.Leftmost b text cursor m) (h' : P.Leftmost b text cursor m') : m = m' :=
  h.occurs.unique h'.occurs (Nat.le_antisymm (h.first m' h'.occurs h'.le) (h'.first m h.occurs h.le))

/-- Where nothing occurs at the position itself, the search goes on behind it. -/
theorem leftmost_succ_iff {P : Pattern α} {b : Assertion α} {text : List α} {cursor : Nat}
    (hno : ∀ m, P.Occurs b text m → m.start ≠ cursor) {m : Match} :
    P.Leftmost b text cursor m ↔ P.Leftmost b text (cursor + 1) m := by
  have hlt : ∀ m', P.Occurs b text m' → (cursor ≤ m'.start ↔ cursor + 1 ≤ m'.start) := by
    intro m' hm'
    have hne := hno m' hm'
    omega
  constructor
  · rintro ⟨hoccurs, hle, hfirst⟩
    exact ⟨hoccurs, (hlt m hoccurs).mp hle, fun m' hm' hle' =>
      hfirst m' hm' ((hlt m' hm').mpr hle')⟩
  · rintro ⟨hoccurs, hle, hfirst⟩
    exact ⟨hoccurs, (hlt m hoccurs).mpr hle, fun m' hm' hle' =>
      hfirst m' hm' ((hlt m' hm').mp hle')⟩

theorem takenFrom_iff {P : Pattern α} {b : Assertion α} {text : List α} (cursor : Nat)
    {m : Match} : P.TakenFrom b text cursor m ↔ P.Leftmost b text cursor m ∨
      ∃ m', P.Leftmost b text cursor m' ∧ P.TakenFrom b text (m'.start + m'.length) m := by
  constructor
  · intro h
    cases h with
    | here h => exact Or.inl h
    | later h h' => exact Or.inr ⟨_, h, h'⟩
  · rintro (h | ⟨m', h, h'⟩)
    · exact .here h
    · exact .later h h'

/-- What occurs is a stretch of the text. -/
theorem Occurs.bounds {P : Pattern α} {b : Assertion α} (hP : 1 ≤ P.shape.minLength)
    {text : List α} {m : Match} (h : P.Occurs b text m) :
    1 ≤ m.length ∧ m.start + m.length ≤ text.length := by
  obtain ⟨pre, w, rest, rfl, rfl, hw⟩ := h
  obtain ⟨rest', -, hst⟩ := stands_of_matchAt hw
  refine ⟨Nat.le_trans hP (Shape.minLength_le hst.denotes), ?_⟩
  simp only [List.length_append]
  omega

/-- Nothing is taken from the end of the text on. -/
theorem not_takenFrom_end {P : Pattern α} {b : Assertion α} (hP : 1 ≤ P.shape.minLength)
    {text : List α} {cursor : Nat} (hend : text.length ≤ cursor) (m : Match) :
    ¬P.TakenFrom b text cursor m := by
  have hnone : ∀ m, ¬P.Leftmost b text cursor m := by
    intro m h
    obtain ⟨hlen, hstop⟩ := h.occurs.bounds hP
    have hle := h.le
    omega
  rw [takenFrom_iff]
  rintro (h | ⟨m', h, -⟩)
  · exact hnone m h
  · exact hnone m' h

/-- Where the pattern does not match, the search goes on behind the position. -/
theorem takenFrom_of_no_match {P : Pattern α} {b : Assertion α} {pre after : List α}
    (hmatch : P.matchAt b pre.getLast? after = none) {m : Match} :
    P.TakenFrom b (pre ++ after) pre.length m ↔
      P.TakenFrom b (pre ++ after) (pre.length + 1) m := by
  have hno : ∀ m, P.Occurs b (pre ++ after) m → m.start ≠ pre.length := by
    intro m h hstart
    obtain ⟨w, hw, -⟩ := occurs_append h hstart
    rw [hmatch] at hw
    cases hw
  rw [takenFrom_iff, takenFrom_iff (pre.length + 1)]
  simp only [leftmost_succ_iff hno]

/-- Where it matches, the match is taken, and the search goes on behind it. -/
theorem takenFrom_of_match {P : Pattern α} {b : Assertion α} {pre after w : List α}
    (hmatch : P.matchAt b pre.getLast? after = some w) {m : Match} :
    P.TakenFrom b (pre ++ after) pre.length m ↔ m = ⟨pre.length, w.length⟩ ∨
      P.TakenFrom b (pre ++ after) (pre.length + w.length) m := by
  have hoccurs : P.Occurs b (pre ++ after) ⟨pre.length, w.length⟩ := by
    obtain ⟨rest, htext, -⟩ := stands_of_matchAt hmatch
    rw [htext] at hmatch ⊢
    exact ⟨pre, w, rest, rfl, rfl, hmatch⟩
  have hleft : P.Leftmost b (pre ++ after) pre.length ⟨pre.length, w.length⟩ :=
    ⟨hoccurs, Nat.le_refl _, fun m' _ hle => hle⟩
  rw [takenFrom_iff]
  constructor
  · rintro (h | ⟨m', h, h'⟩)
    · exact Or.inl (h.unique hleft)
    · rw [h.unique hleft] at h'
      exact Or.inr h'
  · rintro (rfl | h)
    · exact Or.inl hleft
    · exact Or.inr ⟨_, hleft, h⟩

theorem mem_findFrom_iff {P : Pattern α} {b : Assertion α} (hP : 1 ≤ P.shape.minLength)
    {skip : Nat} {pre after : List α} {m : Match} :
    m ∈ findFrom P b skip pre.length pre.getLast? after ↔
      P.TakenFrom b (pre ++ after) (pre.length + skip) m := by
  induction after generalizing skip pre with
  | nil =>
      have hend : (pre ++ []).length ≤ pre.length + skip := by
        rw [List.append_nil]
        omega
      exact iff_of_false List.not_mem_nil (not_takenFrom_end hP hend m)
  | cons c after ih =>
      have hnext : ∀ skip', m ∈ findFrom P b skip' (pre.length + 1) (some c) after ↔
          P.TakenFrom b (pre ++ c :: after) (pre.length + 1 + skip') m := by
        intro skip'
        have hstep := @ih skip' (pre ++ [c])
        rw [List.length_append, List.length_singleton, List.getLast?_concat, List.append_assoc,
          List.singleton_append] at hstep
        exact hstep
      cases skip with
      | succ skip =>
          rw [findFrom, hnext]
          rw [show pre.length + 1 + skip = pre.length + (skip + 1) by omega]
      | zero =>
          unfold findFrom
          cases hmatch : P.matchAt b pre.getLast? (c :: after) with
          | none =>
              dsimp only
              rw [hnext]
              exact (takenFrom_of_no_match hmatch).symm
          | some w =>
              have hlen : 1 ≤ w.length := by
                obtain ⟨rest, -, hst⟩ := stands_of_matchAt hmatch
                exact Nat.le_trans hP (Shape.minLength_le hst.denotes)
              have hcursor : pre.length + 1 + (w.length - 1) = pre.length + w.length := by omega
              dsimp only
              rw [List.mem_cons, hnext, hcursor]
              exact (takenFrom_of_match hmatch).symm

/-- **What the search takes.** -/
theorem mem_findIter_iff {P : Pattern α} {b : Assertion α} (hP : 1 ≤ P.shape.minLength)
    {text : List α} {m : Match} : m ∈ findIter P b text ↔ P.TakenFrom b text 0 m :=
  @mem_findFrom_iff _ P b hP 0 [] text m

/-- Two matches that the search takes are one, or one ends before the other begins. -/
theorem TakenFrom.apart {P : Pattern α} {b : Assertion α} {text : List α} {cursor : Nat}
    {m m' : Match} (h : P.TakenFrom b text cursor m) (h' : P.TakenFrom b text cursor m') :
    m = m' ∨ m.start + m.length ≤ m'.start ∨ m'.start + m'.length ≤ m.start := by
  have hle : ∀ {cursor : Nat} {m : Match}, P.TakenFrom b text cursor m → cursor ≤ m.start := by
    intro cursor m h
    induction h with
    | here h => exact h.le
    | later h _ ih =>
        have hfirst := h.le
        omega
  induction h with
  | here h =>
      cases h' with
      | here h' => exact Or.inl (h.unique h')
      | later h' hlater =>
          rw [h.unique h']
          exact Or.inr (Or.inl (hle hlater))
  | later h hlater ih =>
      cases h' with
      | here h' =>
          rw [h'.unique h]
          exact Or.inr (Or.inr (hle hlater))
      | later h' hlater' =>
          rw [h'.unique h] at hlater'
          exact ih hlater'

end Pattern

end McpGateway.Foundation
