import McpGateway.Foundation.Segments
import McpGateway.Sanitize.Exact

/-! # BIO merging

`bio_merge` turns tokens tagged `B-`, `I-` or otherwise into spans. Here a token is its position; its
offset and its label are looked up, whatever the lengths of the three lists.

* `bioMergeFrom_spans` — the spans are those of the runs of the entity tokens, a run going on as
  long as the next token is tagged `I-` with the same kind.
* `bioMerge_spans` — with that, which tokens a span is made of, and where it lies. -/

namespace McpGateway.Sanitize

open Foundation Vault

/-! ## Tokens -/

/-- `offsets.get(i).copied().unwrap_or((0, 0))` -/
def offsetOf (offsets : List (Nat × Nat)) (i : Nat) : Nat × Nat := offsets[i]?.getD (0, 0)

/-- `lbl.starts_with("I-")` -/
def isInside (lbl : String) : Bool := "I-".toList.isPrefixOf lbl.toList

/-- The kind a token is tagged with, unless it is special. -/
def kindOf (offsets : List (Nat × Nat)) (labelIds : List Nat) (labels : List String) (i : Nat) :
    Option EntityKind :=
  if offsetOf offsets i = (0, 0) then none
  else labelIds[i]?.bind fun lid => mapLabel (labels.getD lid "O")

/-- The token is tagged `I-`. -/
def insideOf (labelIds : List Nat) (labels : List String) (i : Nat) : Bool :=
  labelIds[i]?.any fun lid => isInside (labels.getD lid "O")

/-- Token `j` goes on with the span that token `i` is the last one of. -/
def joined (offsets : List (Nat × Nat)) (labelIds : List Nat) (labels : List String)
    (i j : Nat) : Bool :=
  j = i + 1 ∧ insideOf labelIds labels j = true ∧
    kindOf offsets labelIds labels j = kindOf offsets labelIds labels i

/-- The tokens with a kind, from token `i` on. -/
def entitiesFrom (offsets : List (Nat × Nat)) (labelIds : List Nat) (labels : List String)
    (i n : Nat) : List Nat :=
  (List.range' i n).filter fun j => (kindOf offsets labelIds labels j).isSome

/-- The span begins with the first of the tokens, ends with the last one and has the kind of all. -/
structure SpanOf (offsets : List (Nat × Nat)) (labelIds : List Nat) (labels : List String)
    (s : Span) (g : List Nat) : Prop where
  start : ∃ i, g.head? = some i ∧ s.start = (offsetOf offsets i).1
  stop : ∃ i, g.getLast? = some i ∧ s.stop = (offsetOf offsets i).2
  kind : ∀ i ∈ g, kindOf offsets labelIds labels i = some s.kind

/-- A label with a kind is tagged `B-` or `I-`, and not both. -/
theorem isBegin_eq_not_isInside {lbl : String} {k : EntityKind} (h : mapLabel lbl = some k) :
    "B-".toList.isPrefixOf lbl.toList = !isInside lbl := by
  unfold mapLabel at h
  split_ifs at h with hper horg hloc
  · rcases hper with rfl | rfl <;> rfl
  · rcases horg with rfl | rfl <;> rfl
  · rcases hloc with rfl | rfl <;> rfl

section Loop

variable {offsets : List (Nat × Nat)} {labelIds : List Nat} {labels : List String}

/-- What the open span stands for: the tokens `g`, successive and joined, up to the one before
token `i`. -/
def OpenGroup (offsets : List (Nat × Nat)) (labelIds : List Nat) (labels : List String) (i : Nat) :
    Option Span → List Nat → Prop
  | none, g => g = []
  | some p, g => SpanOf offsets labelIds labels p g ∧
      (g.IsChain fun x y => joined offsets labelIds labels x y) ∧ g.getLast? = some (i - 1) ∧ 0 < i

theorem OpenGroup.singleton {i : Nat} {k : EntityKind}
    (hk : kindOf offsets labelIds labels i = some k) :
    OpenGroup offsets labelIds labels (i + 1)
      (some ⟨(offsetOf offsets i).1, (offsetOf offsets i).2, k⟩) [i] := by
  refine ⟨⟨⟨i, rfl, rfl⟩, ⟨i, rfl, rfl⟩, ?_⟩, List.isChain_singleton i, rfl, Nat.succ_pos i⟩
  intro j hj
  rw [List.mem_singleton.mp hj]
  exact hk

/-- A token that goes on with the open span. -/
theorem OpenGroup.extend {i : Nat} {p : Span} {g : List Nat}
    (h : OpenGroup offsets labelIds labels i (some p) g)
    (hk : kindOf offsets labelIds labels i = some p.kind)
    (hin : insideOf labelIds labels i = true) :
    OpenGroup offsets labelIds labels (i + 1) (some { p with stop := (offsetOf offsets i).2 })
      (g ++ [i]) := by
  obtain ⟨hspan, hchain, hlast, hpos⟩ := h
  refine ⟨⟨?_, ⟨i, List.getLast?_concat, rfl⟩, ?_⟩, ?_, List.getLast?_concat, Nat.succ_pos i⟩
  · obtain ⟨j, hj, ha⟩ := hspan.start
    exact ⟨j, by rw [List.head?_append, hj]; rfl, ha⟩
  · intro j hj
    rcases List.mem_append.mp hj with hj | hj
    · exact hspan.kind j hj
    · rw [List.mem_singleton.mp hj]
      exact hk
  · refine List.isChain_append.mpr ⟨hchain, List.isChain_singleton i, ?_⟩
    intro x hx y hy
    rw [hlast, Option.mem_some_iff] at hx
    rw [List.head?_cons, Option.mem_some_iff] at hy
    subst hx hy
    have hkind := hspan.kind _ (List.mem_of_getLast? hlast)
    simp only [joined, decide_eq_true_eq]
    exact ⟨by omega, hin, by rw [hk, hkind]⟩

/-- Closing the open span: its tokens are a run of their own when the next entity is not joined. -/
theorem spans_closed {i : Nat} {op : Option Span} {g m : List Nat} {spans : List Span}
    (h : OpenGroup offsets labelIds labels i op g)
    (hcut : ∀ x ∈ g.getLast?, ∀ y ∈ m.head?, joined offsets labelIds labels x y = false)
    (hm : List.Forall₂ (SpanOf offsets labelIds labels) spans
      (m.splitBy (joined offsets labelIds labels))) :
    List.Forall₂ (SpanOf offsets labelIds labels) (op.toList ++ spans)
      ((g ++ m).splitBy (joined offsets labelIds labels)) := by
  rw [List.splitBy_append hcut]
  cases op with
  | none =>
      obtain rfl : g = [] := h
      exact hm
  | some p =>
      obtain ⟨hspan, hchain, hlast, -⟩ := h
      have hne : g ≠ [] := by
        rintro rfl
        cases hlast
      rw [List.splitBy_of_isChain hne hchain]
      exact List.Forall₂.cons hspan hm

/-- The next entity stands behind a token that is none. -/
theorem cut_of_gap {i n : Nat} {op : Option Span} {g : List Nat}
    (h : OpenGroup offsets labelIds labels i op g) :
    ∀ x ∈ g.getLast?, ∀ y ∈ (entitiesFrom offsets labelIds labels (i + 1) n).head?,
      joined offsets labelIds labels x y = false := by
  intro x hx y hy
  cases op with
  | none =>
      obtain rfl : g = [] := h
      cases hx
  | some p =>
      obtain ⟨-, -, hlast, hpos⟩ := h
      rw [hlast, Option.mem_some_iff] at hx
      have hmem := (List.mem_filter.mp (List.mem_of_head? hy)).1
      have hge := (List.mem_range'_1.mp hmem).1
      rw [joined, decide_eq_false_iff_not]
      rintro ⟨hsucc, -⟩
      omega

/-- The entities from token `i` on, when it is one. -/
theorem entitiesFrom_of_kind {i n : Nat} {k : EntityKind}
    (hk : kindOf offsets labelIds labels i = some k) :
    entitiesFrom offsets labelIds labels i (n + 1) =
      i :: entitiesFrom offsets labelIds labels (i + 1) n := by
  have hrange : List.range' i (n + 1) = i :: List.range' (i + 1) n := List.range'_succ
  rw [entitiesFrom, hrange, List.filter_cons_of_pos (by rw [hk]; rfl)]
  rfl

/-- The entities from token `i` on, when it is none. -/
theorem entitiesFrom_of_none {i n : Nat} (hk : kindOf offsets labelIds labels i = none) :
    entitiesFrom offsets labelIds labels i (n + 1) =
      entitiesFrom offsets labelIds labels (i + 1) n := by
  have hrange : List.range' i (n + 1) = i :: List.range' (i + 1) n := List.range'_succ
  rw [entitiesFrom, hrange, List.filter_cons_of_neg (by rw [hk]; decide)]
  rfl

/-- A token that begins a span closes the open one. -/
theorem spans_opened {i n : Nat} {op : Option Span} {g : List Nat} {spans : List Span}
    {k : EntityKind} (h : OpenGroup offsets labelIds labels i op g)
    (hk : kindOf offsets labelIds labels i = some k)
    (hcut : ∀ x ∈ g.getLast?, joined offsets labelIds labels x i = false)
    (hm : List.Forall₂ (SpanOf offsets labelIds labels) spans
      (([i] ++ entitiesFrom offsets labelIds labels (i + 1) n).splitBy
        (joined offsets labelIds labels))) :
    List.Forall₂ (SpanOf offsets labelIds labels) (op.toList ++ spans)
      ((g ++ entitiesFrom offsets labelIds labels i (n + 1)).splitBy
        (joined offsets labelIds labels)) := by
  rw [entitiesFrom_of_kind hk]
  apply spans_closed h _ hm
  intro x hx y hy
  cases hy
  exact hcut x hx

/-- A token that does not go on with the open span. -/
theorem cut_of_not_joined {i : Nat} {p : Span} {g : List Nat} {k : EntityKind}
    (h : OpenGroup offsets labelIds labels i (some p) g)
    (hk : kindOf offsets labelIds labels i = some k)
    (hjoin : ¬ (insideOf labelIds labels i = true ∧ p.kind = k)) :
    ∀ x ∈ g.getLast?, joined offsets labelIds labels x i = false := by
  intro x hx
  have hkx := h.1.kind x (List.mem_of_getLast? hx)
  rw [joined, decide_eq_false_iff_not, hk, hkx, Option.some.injEq]
  exact fun hj => hjoin ⟨hj.2.1, hj.2.2.symm⟩

theorem kindOf_of_getElem? (labels : List String) {i : Nat} {lid : Nat}
    (hlid : labelIds[i]? = some lid) (hoff : offsetOf offsets i ≠ (0, 0)) :
    kindOf offsets labelIds labels i = mapLabel (labels.getD lid "O") := by
  rw [kindOf, if_neg hoff, hlid]
  rfl

theorem insideOf_of_getElem? (labels : List String) {i : Nat} {lid : Nat}
    (hlid : labelIds[i]? = some lid) :
    insideOf labelIds labels i = isInside (labels.getD lid "O") := by
  rw [insideOf, hlid]
  rfl

/-- A token that is none closes the open span. -/
theorem bioStep_of_none {i lid : Nat} (hlid : labelIds[i]? = some lid)
    (hk : kindOf offsets labelIds labels i = none) (prev : Option Span) :
    bioStep labels prev (offsetOf offsets i) lid = (prev.toList, none) := by
  unfold bioStep
  dsimp only
  by_cases hoff : offsetOf offsets i = (0, 0)
  · have hzero : (offsetOf offsets i).1 = 0 ∧ (offsetOf offsets i).2 = 0 := by
      rw [hoff]
      exact ⟨rfl, rfl⟩
    rw [if_pos hzero]
  · have hlabel := kindOf_of_getElem? labels hlid hoff
    rw [hk] at hlabel
    rw [if_neg (fun hz => hoff (Prod.ext hz.1 hz.2)), ← hlabel]

/-- A token with a kind goes on with the open span, or closes it and opens one. -/
theorem bioStep_of_kind {i lid : Nat} (hlid : labelIds[i]? = some lid) {k : EntityKind}
    (hk : kindOf offsets labelIds labels i = some k) (prev : Option Span) :
    bioStep labels prev (offsetOf offsets i) lid =
      match prev with
      | some p =>
          if insideOf labelIds labels i = true ∧ p.kind = k then
            ([], some { p with stop := (offsetOf offsets i).2 })
          else ([p], some ⟨(offsetOf offsets i).1, (offsetOf offsets i).2, k⟩)
      | none => ([], some ⟨(offsetOf offsets i).1, (offsetOf offsets i).2, k⟩) := by
  have hoff : offsetOf offsets i ≠ (0, 0) := by
    intro hoff
    rw [kindOf, if_pos hoff] at hk
    cases hk
  have hlabel := kindOf_of_getElem? labels hlid hoff
  rw [hk] at hlabel
  have hbegin := isBegin_eq_not_isInside hlabel.symm
  have hinside := insideOf_of_getElem? labels hlid
  unfold bioStep
  dsimp only
  rw [if_neg (fun hz => hoff (Prod.ext hz.1 hz.2)), ← hlabel, hbegin, hinside]
  unfold isInside
  cases "I-".toList.isPrefixOf (labels.getD lid "O").toList with
  | false => cases prev <;> rfl
  | true =>
      cases prev with
      | none => rfl
      | some p => simp only [true_and, Bool.not_true]

/-- **The spans are those of the runs.** From token `i` on, with the open span standing for the
tokens `g`. -/
theorem bioMergeFrom_spans {i : Nat} {op : Option Span} {lids : List Nat} {g : List Nat}
    (hlids : ∀ j, lids[j]? = labelIds[i + j]?) (h : OpenGroup offsets labelIds labels i op g) :
    List.Forall₂ (SpanOf offsets labelIds labels)
      (bioMergeFrom labels op (offsets.drop i) lids)
      ((g ++ entitiesFrom offsets labelIds labels i lids.length).splitBy
        (joined offsets labelIds labels)) := by
  induction lids generalizing i op g with
  | nil =>
      have hclosed := spans_closed (m := []) h (by simp) List.Forall₂.nil
      rw [List.append_nil] at hclosed
      exact hclosed
  | cons lid lids ih =>
      have hlid : labelIds[i]? = some lid := (hlids 0).symm
      have hrest : ∀ j, lids[j]? = labelIds[i + 1 + j]? := by
        intro j
        rw [Nat.add_assoc, Nat.add_comm 1 j]
        exact hlids (j + 1)
      have hoffset : (offsets.drop i).headD (0, 0) = offsetOf offsets i := by
        rw [List.headD_eq_head?_getD, List.head?_drop]
        rfl
      rw [bioMergeFrom, hoffset, List.tail_drop]
      cases hk : kindOf offsets labelIds labels i with
      | none =>
          -- a token outside any entity closes the open span
          have hempty : OpenGroup offsets labelIds labels (i + 1) none [] := rfl
          rw [bioStep_of_none hlid hk, List.length_cons, entitiesFrom_of_none hk]
          exact spans_closed h (cut_of_gap h) (ih hrest hempty)
      | some k =>
          rw [bioStep_of_kind hlid hk, List.length_cons]
          cases op with
          | none =>
              have hcut : ∀ x ∈ g.getLast?, joined offsets labelIds labels x i = false := by
                obtain rfl : g = [] := h
                intro x hx
                cases hx
              exact spans_opened h hk hcut (ih hrest (OpenGroup.singleton hk))
          | some p =>
              dsimp only
              by_cases hjoin : insideOf labelIds labels i = true ∧ p.kind = k
              · -- an `I-` of the open span's kind goes on with it
                obtain ⟨hin, rfl⟩ := hjoin
                rw [if_pos ⟨hin, rfl⟩, entitiesFrom_of_kind hk]
                have hspans := ih hrest (h.extend hk hin)
                rw [List.append_assoc] at hspans
                exact hspans
              · rw [if_neg hjoin]
                exact spans_opened h hk (cut_of_not_joined h hk hjoin)
                  (ih hrest (OpenGroup.singleton hk))

end Loop

/-! ## The runs -/

/-- The tokens with a kind. -/
def entities (offsets : List (Nat × Nat)) (labelIds : List Nat) (labels : List String) :
    List Nat :=
  entitiesFrom offsets labelIds labels 0 labelIds.length

/-- The runs of joined tokens. -/
def groupsOf (offsets : List (Nat × Nat)) (labelIds : List Nat) (labels : List String) :
    List (List Nat) :=
  (entities offsets labelIds labels).splitBy (joined offsets labelIds labels)

section Runs

variable {offsets : List (Nat × Nat)} {labelIds : List Nat} {labels : List String}

theorem entitiesFrom_append (i m n : Nat) :
    entitiesFrom offsets labelIds labels i (m + n) =
      entitiesFrom offsets labelIds labels i m ++
        entitiesFrom offsets labelIds labels (i + m) n := by
  rw [entitiesFrom, ← List.range'_append_1, List.filter_append]
  rfl

/-- **Every span is that of a run, in order.** -/
theorem bioMerge_groups (offsets : List (Nat × Nat)) (labelIds : List Nat)
    (labels : List String) :
    List.Forall₂ (SpanOf offsets labelIds labels) (bioMerge offsets labelIds labels)
      (groupsOf offsets labelIds labels) := by
  have hempty : OpenGroup offsets labelIds labels 0 none [] := rfl
  have hlids : ∀ j, labelIds[j]? = labelIds[0 + j]? := by
    intro j
    rw [Nat.zero_add]
  exact bioMergeFrom_spans hlids hempty

theorem lt_of_kindOf {i : Nat} {k : EntityKind} (h : kindOf offsets labelIds labels i = some k) :
    i < labelIds.length := by
  unfold kindOf at h
  split_ifs at h
  obtain ⟨lid, hlid, -⟩ := Option.bind_eq_some_iff.mp h
  exact (List.getElem?_eq_some_iff.mp hlid).1

theorem offsetOf_of_kindOf {i : Nat} {k : EntityKind}
    (h : kindOf offsets labelIds labels i = some k) : offsetOf offsets i ≠ (0, 0) := by
  intro hoff
  rw [kindOf, if_pos hoff] at h
  cases h

theorem mem_entities {i : Nat} :
    i ∈ entities offsets labelIds labels ↔ ∃ k, kindOf offsets labelIds labels i = some k := by
  rw [entities, entitiesFrom, List.mem_filter, List.mem_range'_1, Option.isSome_iff_exists]
  constructor
  · rintro ⟨-, hk⟩
    exact hk
  · rintro ⟨k, hk⟩
    have := lt_of_kindOf hk
    exact ⟨by omega, k, hk⟩

theorem entities_pairwise (offsets : List (Nat × Nat)) (labelIds : List Nat)
    (labels : List String) : (entities offsets labelIds labels).Pairwise (· < ·) :=
  List.Pairwise.filter _ List.pairwise_lt_range'

theorem entities_nodup : (entities offsets labelIds labels).Nodup :=
  (entities_pairwise offsets labelIds labels).imp fun h => Nat.ne_of_lt h

/-- The tokens of a run have a kind. -/
theorem kindOf_of_mem_group {g : List Nat} (hg : g ∈ groupsOf offsets labelIds labels) {i : Nat}
    (hi : i ∈ g) : ∃ k, kindOf offsets labelIds labels i = some k :=
  mem_entities.mp (mem_of_mem_run hg hi)

/-- An entity, the next one, and what is before and after them. -/
theorem entities_split {i j : Nat} (hij : i < j)
    (hi : (kindOf offsets labelIds labels i).isSome = true)
    (hj : (kindOf offsets labelIds labels j).isSome = true)
    (hbetween : ∀ m, i < m → m < j → kindOf offsets labelIds labels m = none) :
    ∃ pre post, entities offsets labelIds labels = pre ++ i :: j :: post := by
  obtain ⟨ki, hki⟩ := Option.isSome_iff_exists.mp hi
  obtain ⟨kj, hkj⟩ := Option.isSome_iff_exists.mp hj
  obtain ⟨d, rfl⟩ : ∃ d, j = i + 1 + d := ⟨j - (i + 1), by omega⟩
  obtain ⟨n, hn⟩ : ∃ n, labelIds.length = i + (d + (n + 1) + 1) := by
    have := lt_of_kindOf hkj
    exact ⟨labelIds.length - (i + d + 2), by omega⟩
  have hgap : entitiesFrom offsets labelIds labels (i + 1) d = [] := by
    rw [entitiesFrom, List.filter_eq_nil_iff]
    intro m hm
    have hbounds := List.mem_range'_1.mp hm
    rw [hbetween m (by omega) (by omega)]
    decide
  refine ⟨entitiesFrom offsets labelIds labels 0 i,
    entitiesFrom offsets labelIds labels (i + 1 + d + 1) n, ?_⟩
  rw [entities, hn, entitiesFrom_append, Nat.zero_add, entitiesFrom_of_kind hki,
    entitiesFrom_append, hgap, entitiesFrom_of_kind hkj, List.nil_append]

/-- **Neighbouring entities share a span** exactly when nothing stands between them and the second
is tagged `I-` with the kind of the first. -/
theorem neighbours_iff {i j : Nat} (hij : i < j)
    (hi : (kindOf offsets labelIds labels i).isSome = true)
    (hj : (kindOf offsets labelIds labels j).isSome = true)
    (hbetween : ∀ m, i < m → m < j → kindOf offsets labelIds labels m = none) :
    (∃ g ∈ groupsOf offsets labelIds labels, i ∈ g ∧ j ∈ g) ↔
      insideOf labelIds labels j = true ∧
        kindOf offsets labelIds labels j = kindOf offsets labelIds labels i ∧
        ¬ ∃ m, i < m ∧ m < j := by
  obtain ⟨pre, post, hsplit⟩ := entities_split hij hi hj hbetween
  have hnd : (pre ++ i :: j :: post).Nodup := by
    rw [← hsplit]
    exact entities_nodup
  rw [groupsOf, hsplit, splitBy_neighbours hnd, joined, decide_eq_true_eq]
  constructor
  · rintro ⟨hsucc, hinside, hkind⟩
    refine ⟨hinside, hkind, ?_⟩
    rintro ⟨m, him, hmj⟩
    omega
  · rintro ⟨hinside, hkind, hnone⟩
    refine ⟨?_, hinside, hkind⟩
    by_contra hne
    exact hnone ⟨i + 1, by omega, by omega⟩

end Runs

/-! ## Positions -/

/-- The offsets are sorted and do not overlap, apart from those of special tokens. -/
structure Ordered (offsets : List (Nat × Nat)) : Prop where
  ranges : ∀ o ∈ offsets, o.1 ≤ o.2
  apart : offsets.Pairwise fun a b => a ≠ (0, 0) → b ≠ (0, 0) → a.2 ≤ b.1

section Positions

variable {offsets : List (Nat × Nat)} {labelIds : List Nat} {labels : List String}

theorem Ordered.range (h : Ordered offsets) (i : Nat) :
    (offsetOf offsets i).1 ≤ (offsetOf offsets i).2 := by
  unfold offsetOf
  cases hi : offsets[i]? with
  | none => rfl
  | some o => exact h.ranges o (List.mem_of_getElem? hi)

theorem Ordered.before (h : Ordered offsets) {i j : Nat} (hij : i < j)
    (hi : offsetOf offsets i ≠ (0, 0)) (hj : offsetOf offsets j ≠ (0, 0)) :
    (offsetOf offsets i).2 ≤ (offsetOf offsets j).1 := by
  have hget : ∀ m, offsetOf offsets m ≠ (0, 0) →
      ∃ hm : m < offsets.length, offsetOf offsets m = offsets[m] := by
    intro m hm
    by_cases hlt : m < offsets.length
    · exact ⟨hlt, by rw [offsetOf, List.getElem?_eq_getElem hlt, Option.getD_some]⟩
    · rw [offsetOf, List.getElem?_eq_none (Nat.not_lt.mp hlt)] at hm
      exact absurd rfl hm
  obtain ⟨hilt, hieq⟩ := hget i hi
  obtain ⟨hjlt, hjeq⟩ := hget j hj
  rw [hieq] at hi ⊢
  rw [hjeq] at hj ⊢
  exact List.pairwise_iff_getElem.mp h.apart i j hilt hjlt hij hi hj

/-- The tokens of a run are successive. -/
theorem group_successive {g : List Nat} (hg : g ∈ groupsOf offsets labelIds labels) :
    g.IsChain fun i j => j = i + 1 := by
  apply (List.isChain_of_mem_splitBy hg).imp
  intro i j hij
  rw [joined, decide_eq_true_eq] at hij
  exact hij.1

/-- What a token of a run, and one that is not, have to do with its span. -/
theorem SpanOf.token (h : Ordered offsets) {s : Span} {g : List Nat}
    (hg : g ∈ groupsOf offsets labelIds labels) (hs : SpanOf offsets labelIds labels s g) {i : Nat}
    (hi : offsetOf offsets i ≠ (0, 0)) :
    (i ∈ g → s.start ≤ (offsetOf offsets i).1 ∧ (offsetOf offsets i).2 ≤ s.stop) ∧
    (i ∉ g → (offsetOf offsets i).2 ≤ s.start ∨ s.stop ≤ (offsetOf offsets i).1) := by
  obtain ⟨first, hfirst, hstart⟩ := hs.start
  obtain ⟨last, hlast, hstop⟩ := hs.stop
  obtain ⟨-, hmem⟩ := mem_successive_iff (group_successive hg) hfirst hlast
  have hspecial : ∀ j ∈ g, offsetOf offsets j ≠ (0, 0) := by
    intro j hj
    obtain ⟨k, hk⟩ := kindOf_of_mem_group hg hj
    exact offsetOf_of_kindOf hk
  have hfirst' := hspecial first (List.mem_of_head? hfirst)
  have hlast' := hspecial last (List.mem_of_getLast? hlast)
  rw [hmem, hstart, hstop]
  constructor
  · rintro ⟨hle, hle'⟩
    constructor
    · rcases Nat.eq_or_lt_of_le hle with rfl | hlt
      · exact le_rfl
      · exact (h.range first).trans (h.before hlt hfirst' hi)
    · rcases Nat.eq_or_lt_of_le hle' with rfl | hlt
      · exact le_rfl
      · exact (h.before hlt hi hlast').trans (h.range last)
  · intro hout
    by_cases hlt : i < first
    · exact Or.inl (h.before hlt hi hfirst')
    · exact Or.inr (h.before (by omega) hlast' hi)

/-- A span begins before it ends. -/
theorem SpanOf.start_le_stop (h : Ordered offsets) {s : Span} {g : List Nat}
    (hg : g ∈ groupsOf offsets labelIds labels) (hs : SpanOf offsets labelIds labels s g) :
    s.start ≤ s.stop := by
  obtain ⟨first, hfirst, hstart⟩ := hs.start
  have hmem := List.mem_of_head? hfirst
  obtain ⟨k, hk⟩ := kindOf_of_mem_group hg hmem
  obtain ⟨-, hstop⟩ := (hs.token h hg (offsetOf_of_kindOf hk)).1 hmem
  rw [hstart]
  exact (h.range first).trans hstop

/-- Spans of earlier runs end before later ones begin. -/
theorem bioMerge_pairwise (h : Ordered offsets) :
    (bioMerge offsets labelIds labels).Pairwise fun a b => a.stop ≤ b.start := by
  have hall := entities_pairwise offsets labelIds labels
  rw [← List.flatten_splitBy (joined offsets labelIds labels) (entities offsets labelIds labels),
    List.pairwise_flatten] at hall
  apply Forall₂.pairwise (bioMerge_groups offsets labelIds labels) hall.2
  intro a a' g g' hg hg' ha ha' hlt
  obtain ⟨last, hlast, hstop⟩ := ha.stop
  obtain ⟨first, hfirst, hstart⟩ := ha'.start
  have hl := List.mem_of_getLast? hlast
  have hf := List.mem_of_head? hfirst
  obtain ⟨k, hk⟩ := kindOf_of_mem_group hg hl
  obtain ⟨k', hk'⟩ := kindOf_of_mem_group hg' hf
  rw [hstop, hstart]
  exact h.before (hlt last hl first hf) (offsetOf_of_kindOf hk) (offsetOf_of_kindOf hk')

end Positions

/-- **BIO merging is exact.** The spans are, in order, those of the runs of the tokens with a kind:
each from its first token's start to its last token's end, and of the kind of all its tokens. Every
token with a kind is in exactly one run and no other token is in any; neighbours share a run exactly
when the second is tagged `I-` with the kind of the first and nothing stands between them. For
offsets that are sorted and do not overlap the spans are in document order and disjoint, and a token
lies inside the spans it is in and outside the others. -/
theorem bioMerge_spans (offsets : List (Nat × Nat)) (labelIds : List Nat)
    (labels : List String) :
    List.Forall₂ (SpanOf offsets labelIds labels) (bioMerge offsets labelIds labels)
      (groupsOf offsets labelIds labels) ∧
    (∀ i k, kindOf offsets labelIds labels i = some k →
      (∃! j : Nat, ∃ g, (groupsOf offsets labelIds labels)[j]? = some g ∧ i ∈ g) ∧
      ∀ (j : Nat) (s : Span) (g : List Nat), (bioMerge offsets labelIds labels)[j]? = some s →
        (groupsOf offsets labelIds labels)[j]? = some g → i ∈ g → s.kind = k) ∧
    (∀ g ∈ groupsOf offsets labelIds labels, ∀ i ∈ g,
      ∃ k, kindOf offsets labelIds labels i = some k) ∧
    (∀ i j, i < j → (kindOf offsets labelIds labels i).isSome = true →
      (kindOf offsets labelIds labels j).isSome = true →
      (∀ m, i < m → m < j → kindOf offsets labelIds labels m = none) →
      ((∃ g ∈ groupsOf offsets labelIds labels, i ∈ g ∧ j ∈ g) ↔
        insideOf labelIds labels j = true ∧
          kindOf offsets labelIds labels j = kindOf offsets labelIds labels i ∧
          ¬ ∃ m, i < m ∧ m < j)) ∧
    (Ordered offsets →
      ((bioMerge offsets labelIds labels).Pairwise fun a b => a.stop ≤ b.start) ∧
      (∀ s ∈ bioMerge offsets labelIds labels, s.start ≤ s.stop) ∧
      List.Forall₂ (fun s g => ∀ i, offsetOf offsets i ≠ (0, 0) →
        (i ∈ g → s.start ≤ (offsetOf offsets i).1 ∧ (offsetOf offsets i).2 ≤ s.stop) ∧
        (i ∉ g → (offsetOf offsets i).2 ≤ s.start ∨ s.stop ≤ (offsetOf offsets i).1))
        (bioMerge offsets labelIds labels) (groupsOf offsets labelIds labels)) := by
  have hspans := bioMerge_groups offsets labelIds labels
  have hget : ∀ (j : Nat) (s : Span) (g : List Nat),
      (bioMerge offsets labelIds labels)[j]? = some s →
      (groupsOf offsets labelIds labels)[j]? = some g → SpanOf offsets labelIds labels s g := by
    intro j s g hs hg
    obtain ⟨hj, rfl⟩ := List.getElem?_eq_some_iff.mp hs
    obtain ⟨hj', rfl⟩ := List.getElem?_eq_some_iff.mp hg
    exact hspans.get hj hj'
  refine ⟨hspans, ?_, fun g hg i hi => kindOf_of_mem_group hg hi,
    fun i j hij hi hj hbetween => neighbours_iff hij hi hj hbetween, ?_⟩
  · -- a labelled token is in one run, and the span of that run has its kind
    intro i k hk
    refine ⟨splitBy_unique entities_nodup (mem_entities.mpr ⟨k, hk⟩), ?_⟩
    intro j s g hs hg hi
    have hkind := (hget j s g hs hg).kind i hi
    exact Option.some_inj.mp (hkind.symm.trans hk)
  · intro h
    refine ⟨bioMerge_pairwise h, ?_, ?_⟩
    · intro s hs
      obtain ⟨j, hj⟩ := List.mem_iff_getElem?.mp hs
      have hlt : j < (groupsOf offsets labelIds labels).length := by
        rw [← hspans.length_eq]
        exact (List.getElem?_eq_some_iff.mp hj).1
      have hg := List.getElem?_eq_getElem hlt
      exact (hget j s _ hj hg).start_le_stop h (List.getElem_mem hlt)
    · rw [List.forall₂_iff_get]
      refine ⟨hspans.length_eq, ?_⟩
      intro j hj hj' i hi
      exact (hspans.get hj hj').token h (List.get_mem _ ⟨j, hj'⟩) hi

/-- The label table of the model. -/
def modelLabels : List String :=
  ["O", "B-PER", "I-PER", "B-ORG", "I-ORG", "B-LOC", "I-LOC", "B-MISC", "I-MISC"]

/-- `[CLS] Alice Dupont works at ACME [SEP]` -/
def aliceOffsets : List (Nat × Nat) :=
  [(0, 0), (0, 5), (6, 12), (13, 18), (19, 21), (22, 26), (0, 0)]

theorem alice_ordered : Ordered aliceOffsets := ⟨by decide, by decide⟩

/-- A name of two tokens and an organisation of one. -/
theorem alice_spans :
    bioMerge aliceOffsets [0, 1, 2, 0, 0, 3, 0] modelLabels =
      [⟨0, 12, .person⟩, ⟨22, 26, .org⟩] ∧
    (∃ g ∈ groupsOf aliceOffsets [0, 1, 2, 0, 0, 3, 0] modelLabels, 1 ∈ g ∧ 2 ∈ g) ∧
    (bioMerge aliceOffsets [0, 1, 2, 0, 0, 3, 0] modelLabels).Pairwise
      (fun a b => a.stop ≤ b.start) := by
  obtain ⟨-, -, -, hneighbours, hordered⟩ :=
    bioMerge_spans aliceOffsets [0, 1, 2, 0, 0, 3, 0] modelLabels
  refine ⟨by decide, ?_, (hordered alice_ordered).1⟩
  apply (hneighbours 1 2 (by decide) (by decide) (by decide) (by omega)).mpr
  refine ⟨by decide, by decide, ?_⟩
  rintro ⟨m, hm, hm'⟩
  omega

end McpGateway.Sanitize
