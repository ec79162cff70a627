import McpGateway.Sanitize.Scan
import Mathlib.Data.List.Sort

/-! # `sanitize`, without a vault

`sanitize/mod.rs`: the spans of the scanners are sorted, those that begin inside an earlier one are
dropped, and the others are replaced in one pass over the text. The pass is the same with a vault,
where `render_token` reads and writes a database; without one it is `placeholder`.

* `sanitize_rebuilds` — the pass does not panic, and it replaces exactly the spans that were kept.
* `start_replaced` — every span that was emitted is replaced, or begins inside one that is. -/

namespace McpGateway.Sanitize

open Foundation Vault

/-! ## `merge_and_dedup` -/

/-- The order of the sort: by start, of equal starts the longer one first. -/
def Span.Before (s t : Span) : Prop := s.start < t.start ∨ s.start = t.start ∧ t.len ≤ s.len

instance : DecidableRel Span.Before := fun s t =>
  inferInstanceAs (Decidable (s.start < t.start ∨ s.start = t.start ∧ t.len ≤ s.len))

instance : IsTrans Span Span.Before where
  trans s t r hst htr := by
    unfold Span.Before at *
    omega

instance : Std.Total Span.Before where
  total s t := by
    unfold Span.Before
    omega

/-- The loop: a span that begins before the cursor is passed over. -/
def dedupFrom : (cursor : Nat) → List Span → List Span
  | _, [] => []
  | cursor, s :: spans =>
      if s.start < cursor then dedupFrom cursor spans else s :: dedupFrom s.stop spans

/-- `merge_and_dedup`. -/
def mergeAndDedup (spans : List Span) : List Span := dedupFrom 0 (spans.insertionSort Span.Before)

/-- Each span begins where the last one ended, or later. -/
def InOrder : (cursor : Nat) → List Span → Prop
  | _, [] => True
  | cursor, s :: spans => cursor ≤ s.start ∧ InOrder s.stop spans

theorem inOrder_dedupFrom (cursor : Nat) (spans : List Span) :
    InOrder cursor (dedupFrom cursor spans) := by
  fun_induction dedupFrom cursor spans with
  | case1 cursor => trivial
  | case2 cursor s spans hskip ih => exact ih
  | case3 cursor s spans hkeep ih => exact ⟨Nat.le_of_not_lt hkeep, ih⟩

theorem mem_of_dedupFrom {cursor : Nat} {spans : List Span} {s : Span}
    (h : s ∈ dedupFrom cursor spans) : s ∈ spans := by
  fun_induction dedupFrom cursor spans with
  | case1 cursor => cases h
  | case2 cursor t spans hskip ih => exact List.mem_cons_of_mem _ (ih h)
  | case3 cursor t spans hkeep ih =>
      rcases List.mem_cons.mp h with rfl | h
      · exact List.mem_cons_self
      · exact List.mem_cons_of_mem _ (ih h)

/-- A span is kept, or it begins inside one that is. -/
theorem dedupFrom_covers {cursor : Nat} {spans : List Span}
    (hsorted : spans.Pairwise Span.Before) {s : Span} (hs : s ∈ spans) :
    s ∈ dedupFrom cursor spans ∨ s.start < cursor ∨
      ∃ r ∈ dedupFrom cursor spans, r.start ≤ s.start ∧ s.start < r.stop := by
  fun_induction dedupFrom cursor spans with
  | case1 cursor => cases hs
  | case2 cursor t spans hskip ih =>
      rcases List.mem_cons.mp hs with rfl | hs
      · exact Or.inr (Or.inl hskip)
      · exact ih hsorted.of_cons hs
  | case3 cursor t spans hkeep ih =>
      rcases List.mem_cons.mp hs with rfl | hs
      · exact Or.inl List.mem_cons_self
      · have hle : t.start ≤ s.start := by
          have hbefore := List.rel_of_pairwise_cons hsorted hs
          unfold Span.Before at hbefore
          omega
        rcases ih hsorted.of_cons hs with hmem | hlt | ⟨r, hr, hstart⟩
        · exact Or.inl (List.mem_cons_of_mem _ hmem)
        · exact Or.inr (Or.inr ⟨t, List.mem_cons_self, hle, hlt⟩)
        · exact Or.inr (Or.inr ⟨r, List.mem_cons_of_mem _ hr, hstart⟩)

theorem mem_of_mergeAndDedup {spans : List Span} {s : Span} (h : s ∈ mergeAndDedup spans) :
    s ∈ spans :=
  (List.mem_insertionSort _).mp (mem_of_dedupFrom h)

/-- **What is dropped** begins inside a span that is kept. -/
theorem mergeAndDedup_covers {spans : List Span} {s : Span} (hs : s ∈ spans) :
    s ∈ mergeAndDedup spans ∨
      ∃ r ∈ mergeAndDedup spans, r.start ≤ s.start ∧ s.start < r.stop := by
  have hsorted := List.pairwise_insertionSort Span.Before spans
  rcases @dedupFrom_covers 0 _ hsorted s ((List.mem_insertionSort _).mpr hs) with h | h | h
  · exact Or.inl h
  · cases h
  · exact Or.inr h

/-! ## `substitute` -/

/-- `render_token`, without a vault. -/
def renderToken (_raw : List Char) (kind : EntityKind) : List Char :=
  ("[PII:" ++ kind.asLabel ++ "]").toList

section Render

variable {σ : Type}

/-- `render_token` of a stretch and its kind, in a state. -/
abbrev Render (σ : Type) := List Char → EntityKind → σ → List Char × σ

/-- Without a vault there is no state. -/
def placeholder : Render Unit := fun raw kind _ => (renderToken raw kind, ())

/-- The loop of `substitute`, from a cursor on; `none` is a panic. -/
def substituteWith (render : Render σ) (text : List Char) :
    (cursor : Nat) → List Span → σ → Option (List Char × σ)
  | cursor, [], st => (sliceFrom text cursor).map fun rest => (rest, st)
  | cursor, s :: spans, st =>
      if s.start > utf8Len text || s.stop > utf8Len text then
        substituteWith render text cursor spans st
      else if !isCharBoundary text s.start || !isCharBoundary text s.stop then
        substituteWith render text cursor spans st
      else do
        let kept ← slice text cursor s.start
        let raw ← slice text s.start s.stop
        let (token, st) := render raw s.kind st
        let (rest, st) ← substituteWith render text s.stop spans st
        some (kept ++ (token ++ rest), st)

/-- `sanitize`. The spans NER adds are given: there are none without that feature, or when its scan
fails. -/
def sanitizeWith (u : UnicodeClasses) (render : Render σ) (ner : List Span) (text : List Char)
    (st : σ) : Option (List Char × σ) := do
  let spans ← scan u text
  let merged := mergeAndDedup (spans ++ ner)
  if merged.isEmpty then some (text, st) else substituteWith render text 0 merged st

/-- An empty merge hands the text back, which is what the loop makes of no spans. -/
theorem sanitizeWith_eq {u : UnicodeClasses} {render : Render σ} {ner found : List Span}
    {text : List Char} (hscan : scan u text = some found) (st : σ) :
    sanitizeWith u render ner text st
      = substituteWith render text 0 (mergeAndDedup (found ++ ner)) st := by
  unfold sanitizeWith
  rw [hscan, Option.bind_eq_bind, Option.bind_some]
  cases mergeAndDedup (found ++ ner) with
  | nil =>
      have hrest : sliceFrom text 0 = some text := sliceFrom_append [] text
      rw [substituteWith, hrest]
      rfl
  | cons s merged => rfl

/-- A text and what comes out when some spans of it, counted from an offset, are replaced by their
tokens, one after another, and all between them is copied. -/
inductive RebuiltWith (render : Render σ) :
    (offset : Nat) → σ → (text : List Char) → List Span → (out : List Char) → σ → Prop
  | rest (offset : Nat) (st : σ) (text : List Char) : RebuiltWith render offset st text [] text st
  | replace {offset : Nat} {st st' : σ} {text out : List Char} {spans : List Span}
      (gap raw : List Char) (kind : EntityKind)
      (h : RebuiltWith render (offset + utf8Len gap + utf8Len raw) (render raw kind st).2 text spans
        out st') :
      RebuiltWith render offset st (gap ++ (raw ++ text))
        (⟨offset + utf8Len gap, offset + utf8Len gap + utf8Len raw, kind⟩ :: spans)
        (gap ++ ((render raw kind st).1 ++ out)) st'

end Render

/-- `sanitize`, without a vault. -/
def sanitize (u : UnicodeClasses) (ner : List Span) (text : List Char) : Option (List Char) :=
  (sanitizeWith u placeholder ner text ()).map Prod.fst

/-- A text and what comes out when some spans of it are replaced by placeholders. -/
def Rebuilt (offset : Nat) (text : List Char) (spans : List Span) (out : List Char) : Prop :=
  RebuiltWith placeholder offset () text spans out ()

theorem Rebuilt.rest (offset : Nat) (text : List Char) : Rebuilt offset text [] text :=
  RebuiltWith.rest offset () text

theorem Rebuilt.replace {offset : Nat} {text out : List Char} {spans : List Span}
    (gap raw : List Char) (kind : EntityKind)
    (h : Rebuilt (offset + utf8Len gap + utf8Len raw) text spans out) :
    Rebuilt offset (gap ++ (raw ++ text))
      (⟨offset + utf8Len gap, offset + utf8Len gap + utf8Len raw, kind⟩ :: spans)
      (gap ++ (renderToken raw kind ++ out)) :=
  RebuiltWith.replace gap raw kind h

/-- Induction without the state. -/
@[elab_as_elim]
theorem Rebuilt.induction
    {motive : ∀ offset text spans out, Rebuilt offset text spans out → Prop}
    (rest : ∀ offset text, motive offset text [] text (.rest offset text))
    (replace : ∀ {offset text out spans} (gap raw : List Char) (kind : EntityKind)
      (h : Rebuilt (offset + utf8Len gap + utf8Len raw) text spans out), motive _ _ _ _ h →
      motive _ _ _ _ (Rebuilt.replace gap raw kind h))
    {offset : Nat} {text : List Char} {spans : List Span} {out : List Char}
    (h : Rebuilt offset text spans out) : motive offset text spans out h := by
  have hall : ∀ {offset st text spans out st'}
      (h : RebuiltWith placeholder offset st text spans out st'),
      motive offset text spans out h := by
    intro offset st text spans out st' h
    induction h with
    | rest offset st text => exact rest offset text
    | replace gap raw kind h ih => exact replace gap raw kind h ih
  exact hall h

/-- Of two cuts of a text, the later one has the earlier one before it. -/
theorem cut_of_le {before rest before' rest' : List Char} (h : before ++ rest = before' ++ rest')
    (hle : utf8Len before ≤ utf8Len before') :
    ∃ gap, before' = before ++ gap ∧ rest = gap ++ rest' := by
  rcases List.append_eq_append_iff.mp h with ⟨gap, rfl, rfl⟩ | ⟨gap, rfl, rfl⟩
  · exact ⟨gap, rfl, rfl⟩
  · rw [utf8Len_append] at hle
    have hgap : gap = [] := by
      by_contra hne
      have hpos := utf8Len_pos hne
      omega
    subst hgap
    exact ⟨[], by simp, rfl⟩

/-- A span behind a cut of the text cuts the rest at both its ends. -/
theorem OnBoundaries.cut {before rest : List Char} {s : Span} (h : OnBoundaries (before ++ rest) s)
    (hle : utf8Len before ≤ s.start) : ∃ gap raw after, rest = gap ++ (raw ++ after) ∧
      s.start = utf8Len before + utf8Len gap ∧
      s.stop = utf8Len before + utf8Len gap + utf8Len raw := by
  obtain ⟨toStart, bs, hstart, hlen⟩ := isCharBoundary_iff.mp h.start
  obtain ⟨gap, rfl, rfl⟩ := cut_of_le hstart (hlen ▸ hle)
  obtain ⟨toStop, cs, hstop, hlen'⟩ := isCharBoundary_iff.mp h.stop
  have hlt := h.lt
  obtain ⟨raw, rfl, rfl⟩ := cut_of_le (hstart.symm.trans hstop) (by omega)
  rw [utf8Len_append] at hlen hlen'
  exact ⟨gap, raw, cs, rfl, hlen.symm, by rw [← hlen', utf8Len_append]⟩

/-- Neither check of the loop drops the span. -/
theorem OnBoundaries.passes {text : List Char} {s : Span} (h : OnBoundaries text s) :
    ¬(s.start > utf8Len text || s.stop > utf8Len text) = true ∧
      ¬(!isCharBoundary text s.start || !isCharBoundary text s.stop) = true := by
  constructor
  · obtain ⟨toStart, bs, rfl, hstart⟩ := isCharBoundary_iff.mp h.start
    obtain ⟨toStop, cs, htext, hstop⟩ := isCharBoundary_iff.mp h.stop
    have hlen := congrArg utf8Len htext
    rw [utf8Len_append, utf8Len_append] at hlen
    rw [Bool.or_eq_true, decide_eq_true_eq, decide_eq_true_eq, utf8Len_append]
    omega
  · rw [h.start, h.stop]
    decide

/-- The two slices the loop takes. -/
theorem slices_of_cut (before gap raw after : List Char) :
    slice (before ++ (gap ++ (raw ++ after))) (utf8Len before) (utf8Len before + utf8Len gap)
        = some gap ∧
      slice (before ++ (gap ++ (raw ++ after))) (utf8Len before + utf8Len gap)
        (utf8Len before + utf8Len gap + utf8Len raw) = some raw := by
  constructor
  · exact slice_append before gap (raw ++ after)
  · rw [← List.append_assoc, ← utf8Len_append before gap]
    exact slice_append (before ++ gap) raw after

/-- The rest of the text at the first of the spans: what is kept, what is replaced, and what the loop
goes on with. -/
structure FirstCut (before rest : List Char) (s : Span) (spans : List Span)
    (gap raw after : List Char) : Prop where
  rest_eq : rest = gap ++ (raw ++ after)
  start : s.start = utf8Len before + utf8Len gap
  stop : s.stop = utf8Len before + utf8Len gap + utf8Len raw
  kept : slice (before ++ rest) (utf8Len before) s.start = some gap
  replaced : slice (before ++ rest) s.start s.stop = some raw
  text : before ++ rest = before ++ gap ++ raw ++ after
  cursor : s.stop = utf8Len (before ++ gap ++ raw)
  order : InOrder (utf8Len (before ++ gap ++ raw)) spans
  boundaries : ∀ t ∈ spans, OnBoundaries (before ++ gap ++ raw ++ after) t

theorem exists_firstCut {before rest : List Char} {s : Span} {spans : List Span}
    (hord : InOrder (utf8Len before) (s :: spans))
    (hspans : ∀ t ∈ s :: spans, OnBoundaries (before ++ rest) t) :
    ∃ gap raw after, FirstCut before rest s spans gap raw after := by
  obtain ⟨hs, hrest⟩ := List.forall_mem_cons.mp hspans
  obtain ⟨hle, hord⟩ := hord
  obtain ⟨gap, raw, after, rfl, hstart, hstop⟩ := hs.cut hle
  obtain ⟨hkept, hraw⟩ := slices_of_cut before gap raw after
  have htext : before ++ (gap ++ (raw ++ after)) = before ++ gap ++ raw ++ after := by
    simp only [List.append_assoc]
  have hcursor : s.stop = utf8Len (before ++ gap ++ raw) := by
    rw [hstop, utf8Len_append, utf8Len_append]
  exact ⟨gap, raw, after,
    { rest_eq := rfl
      start := hstart
      stop := hstop
      kept := hstart ▸ hkept
      replaced := by rw [hstart, hstop, hraw]
      text := htext
      cursor := hcursor
      order := hcursor ▸ hord
      boundaries := htext ▸ hrest }⟩

/-- From the cursor on, the loop replaces every span. -/
theorem substituteWith_rebuilds {σ : Type} (render : Render σ) {spans : List Span}
    {before rest : List Char} {st : σ} (hord : InOrder (utf8Len before) spans)
    (hspans : ∀ s ∈ spans, OnBoundaries (before ++ rest) s) : ∃ out st',
      substituteWith render (before ++ rest) (utf8Len before) spans st = some (out, st') ∧
      RebuiltWith render (utf8Len before) st rest spans out st' := by
  induction spans generalizing before rest st with
  | nil =>
      refine ⟨rest, st, ?_, .rest _ st rest⟩
      rw [substituteWith, sliceFrom_append]
      rfl
  | cons s spans ih =>
      obtain ⟨hinside, hboundary⟩ := (hspans s List.mem_cons_self).passes
      obtain ⟨gap, raw, after, hcut⟩ := exists_firstCut hord hspans
      obtain ⟨out, st', hout, hrebuilt⟩ :=
        @ih (before ++ gap ++ raw) after (render raw s.kind st).2 hcut.order hcut.boundaries
      rw [← hcut.text, ← hcut.cursor] at hout
      rw [← hcut.cursor] at hrebuilt
      refine ⟨gap ++ ((render raw s.kind st).1 ++ out), st', ?_, ?_⟩
      · simp only [substituteWith, if_neg hinside, if_neg hboundary, hcut.kept, hcut.replaced, hout,
          Option.bind_eq_bind, Option.bind_some]
      · obtain ⟨start, stop, kind⟩ := s
        obtain ⟨rfl, rfl, rfl⟩ := And.intro hcut.start (And.intro hcut.stop hcut.rest_eq)
        exact .replace gap raw kind hrebuilt

/-- **The pass over the text** replaces the spans that were kept. -/
theorem sanitize_rebuilds (u : UnicodeClasses) {text : List Char} {ner : List Span}
    (hner : ∀ s ∈ ner, OnBoundaries text s) :
    ∃ spans out, scan u text = some spans ∧ sanitize u ner text = some out ∧
      (∀ s ∈ spans ++ ner, OnBoundaries text s) ∧
      Rebuilt 0 text (mergeAndDedup (spans ++ ner)) out := by
  obtain ⟨spans, hscan, hmem⟩ := scan_spans u text
  have hall : ∀ s ∈ spans ++ ner, OnBoundaries text s := by
    intro s hs
    rcases List.mem_append.mp hs with hs | hs
    · exact ((hmem s).mp hs).onBoundaries
    · exact hner s hs
  have hord : InOrder (utf8Len []) (mergeAndDedup (spans ++ ner)) := inOrder_dedupFrom 0 _
  obtain ⟨out, ⟨⟩, hout, hrebuilt⟩ := @substituteWith_rebuilds Unit placeholder _ [] text () hord
    fun s hs => hall s (mem_of_mergeAndDedup hs)
  refine ⟨spans, out, hscan, ?_, hall, hrebuilt⟩
  have hloop : substituteWith placeholder text 0 (mergeAndDedup (spans ++ ner)) ()
      = some (out, ()) := hout
  unfold sanitize
  rw [sanitizeWith_eq hscan, hloop]
  rfl

/-- **No detected entity survives as a whole**: a byte of an emitted span is replaced, or it lies
beyond the end of the replaced span inside which the emitted one begins. -/
theorem start_replaced (u : UnicodeClasses) {text : List Char} {ner : List Span}
    (hner : ∀ s ∈ ner, OnBoundaries text s) :
    ∃ spans out, scan u text = some spans ∧ sanitize u ner text = some out ∧
      Rebuilt 0 text (mergeAndDedup (spans ++ ner)) out ∧
      ∀ s ∈ spans ++ ner, ∀ i, s.start ≤ i → i < s.stop →
        (∃ r ∈ mergeAndDedup (spans ++ ner), r.start ≤ i ∧ i < r.stop) ∨
        ∃ r ∈ mergeAndDedup (spans ++ ner), r.start ≤ s.start ∧ s.start < r.stop ∧ r.stop ≤ i := by
  obtain ⟨spans, out, hscan, hout, -, hrebuilt⟩ := sanitize_rebuilds u hner
  refine ⟨spans, out, hscan, hout, hrebuilt, fun s hs i hstart hstop => ?_⟩
  rcases mergeAndDedup_covers hs with hmem | ⟨r, hr, hle, hlt⟩
  · exact Or.inl ⟨s, hmem, hstart, hstop⟩
  · by_cases hi : i < r.stop
    · exact Or.inl ⟨r, hr, Nat.le_trans hle hstart, hi⟩
    · exact Or.inr ⟨r, hr, hle, hlt, Nat.le_of_not_lt hi⟩

/-! ## A phone number and a UUID -/

/-- The digits up to the first hyphen are a phone number, all after the plus sign a UUID. -/
def phoneThenUuid : List Char := "+12345678-1234-1234-1234-123456789012".toList

theorem scan_phoneThenUuid :
    scan asciiClasses phoneThenUuid = some [⟨0, 9, .phone⟩, ⟨1, 37, .uuid⟩] := by
  decide +kernel

theorem phoneThenUuid_survives : ¬∀ (u : UnicodeClasses) (text : List Char) (ner : List Span),
    (∀ s ∈ ner, OnBoundaries text s) → ∀ spans, scan u text = some spans →
      ∀ s ∈ spans ++ ner, ∀ i, s.start ≤ i → i < s.stop →
        ∃ r ∈ mergeAndDedup (spans ++ ner), r.start ≤ i ∧ i < r.stop := by
  intro h
  obtain ⟨r, hr, -, hlt⟩ := h asciiClasses phoneThenUuid [] nofun _ scan_phoneThenUuid
    ⟨1, 37, .uuid⟩ (by decide) 9 (by decide) (by decide)
  revert r
  decide

/-- The tail of the UUID is left, also behind a name. -/
theorem start_replaced_phoneThenUuid :
    ∃ spans out, scan asciiClasses ("Anna ".toList ++ phoneThenUuid) = some spans ∧
      sanitize asciiClasses [⟨0, 4, .person⟩] ("Anna ".toList ++ phoneThenUuid) = some out ∧
      Rebuilt 0 ("Anna ".toList ++ phoneThenUuid)
        (mergeAndDedup (spans ++ [⟨0, 4, .person⟩])) out ∧
      ∀ s ∈ spans ++ [⟨0, 4, .person⟩], ∀ i, s.start ≤ i → i < s.stop →
        (∃ r ∈ mergeAndDedup (spans ++ [⟨0, 4, .person⟩]), r.start ≤ i ∧ i < r.stop) ∨
        ∃ r ∈ mergeAndDedup (spans ++ [⟨0, 4, .person⟩]),
          r.start ≤ s.start ∧ s.start < r.stop ∧ r.stop ≤ i := by
  refine start_replaced asciiClasses fun s hs => ?_
  obtain rfl := List.mem_singleton.mp hs
  exact ⟨by decide, by decide, by decide⟩

end McpGateway.Sanitize
