import McpGateway.Sanitize.Substitute

/-! # What `sanitize` keeps, drops and replaces

The spans can come from anywhere, as long as each is non-empty: they may lie beyond the text, and
end inside a character. Whatever `render_token` reads and writes besides is a state that the loop
threads: with a vault, its database.

* `mergeAndDedup_greedy` — which spans are kept.
* `substituteWith_exact` — which of those are replaced, and what is copied.
* `sanitize_exact` — both, for every text and every list of spans. -/

namespace McpGateway.Sanitize

open Vault

/-! ## `merge_and_dedup` -/

/-- What the merge makes of some spans. The sort moves them, so it is the sorted list that the kept
ones are a sublist of; `dropped` accounts for every occurrence. -/
structure Greedy (spans kept : List Span) : Prop where
  sublist : kept.Sublist (spans.insertionSort Span.Before)
  dropped : ∃ dropped, (kept ++ dropped).Perm spans ∧
    ∀ s ∈ dropped, ∃ r ∈ kept, r.start ≤ s.start ∧ s.start < r.stop
  sorted : kept.Pairwise fun r s => r.start < s.start
  disjoint : kept.Pairwise fun r s => r.stop ≤ s.start
  leftmost : ∀ s ∈ spans, ∃ r, kept.head? = some r ∧ r.Before s
  longest : ∀ r ∈ kept, ∀ s ∈ spans, s.start = r.start → s.len ≤ r.len

theorem dedupFrom_sublist (cursor : Nat) (spans : List Span) :
    (dedupFrom cursor spans).Sublist spans := by
  fun_induction dedupFrom cursor spans with
  | case1 cursor => exact List.Sublist.refl []
  | case2 cursor s spans hskip ih => exact ih.cons s
  | case3 cursor s spans hkeep ih => exact ih.cons_cons s

/-- Every occurrence is kept, or begins before the cursor, or inside one that is kept and comes
before it. -/
theorem dedupFrom_dropped {cursor : Nat} {spans : List Span}
    (hsorted : spans.Pairwise Span.Before) : ∃ dropped,
      (dedupFrom cursor spans ++ dropped).Perm spans ∧ ∀ s ∈ dropped, s.start < cursor ∨
        ∃ r ∈ dedupFrom cursor spans, r.Before s ∧ s.start < r.stop := by
  fun_induction dedupFrom cursor spans with
  | case1 cursor => exact ⟨[], List.Perm.refl [], fun s hs => absurd hs List.not_mem_nil⟩
  | case2 cursor t spans hskip ih =>
      obtain ⟨dropped, hperm, hdropped⟩ := ih hsorted.of_cons
      refine ⟨t :: dropped, List.perm_middle.trans (hperm.cons t), ?_⟩
      intro s hs
      rcases List.mem_cons.mp hs with rfl | hs
      · exact Or.inl hskip
      · exact hdropped s hs
  | case3 cursor t spans hkeep ih =>
      obtain ⟨dropped, hperm, hdropped⟩ := ih hsorted.of_cons
      refine ⟨dropped, hperm.cons t, fun s hs => Or.inr ?_⟩
      have hmem : s ∈ spans := hperm.subset (List.mem_append_right _ hs)
      rcases hdropped s hs with hlt | ⟨r, hr, hbefore, hlt⟩
      · exact ⟨t, List.mem_cons_self, List.rel_of_pairwise_cons hsorted hmem, hlt⟩
      · exact ⟨r, List.mem_cons_of_mem _ hr, hbefore, hlt⟩

theorem InOrder.weaken {cursor cursor' : Nat} {spans : List Span} (h : InOrder cursor' spans)
    (hle : cursor ≤ cursor') : InOrder cursor spans := by
  cases spans with
  | nil => trivial
  | cons s spans => exact ⟨Nat.le_trans hle h.1, h.2⟩

/-- Spans in order lie behind the cursor, and apart. -/
theorem InOrder.pairwise {cursor : Nat} {spans : List Span} (h : InOrder cursor spans)
    (hlt : ∀ s ∈ spans, s.start < s.stop) :
    (∀ s ∈ spans, cursor ≤ s.start) ∧ spans.Pairwise fun r s => r.stop ≤ s.start := by
  induction spans generalizing cursor with
  | nil => exact ⟨nofun, List.Pairwise.nil⟩
  | cons t spans ih =>
      obtain ⟨htlt, hlt⟩ := List.forall_mem_cons.mp hlt
      obtain ⟨hbehind, hapart⟩ := ih h.2 hlt
      refine ⟨List.forall_mem_cons.mpr ⟨h.1, fun s hs => ?_⟩, List.Pairwise.cons hbehind hapart⟩
      have hle := hbehind s hs
      have htle := h.1
      omega

/-- Where a span is kept, nothing longer begins. -/
theorem dedupFrom_longest {cursor : Nat} {spans : List Span}
    (hsorted : spans.Pairwise Span.Before) (hlt : ∀ s ∈ spans, s.start < s.stop) {r s : Span}
    (hr : r ∈ dedupFrom cursor spans) (hs : s ∈ spans) (hstart : s.start = r.start) :
    s.len ≤ r.len := by
  fun_induction dedupFrom cursor spans with
  | case1 cursor => cases hs
  | case2 cursor t spans hskip ih =>
      have hrest := (List.forall_mem_cons.mp hlt).2
      have hbehind := (inOrder_dedupFrom cursor spans).pairwise
        (fun s hs => hrest s (mem_of_dedupFrom hs)) |>.1 r hr
      rcases List.mem_cons.mp hs with rfl | hs
      · omega
      · exact ih hsorted.of_cons hrest hr hs
  | case3 cursor t spans hkeep ih =>
      obtain ⟨htlt, hrest⟩ := List.forall_mem_cons.mp hlt
      rcases List.mem_cons.mp hr with rfl | hr
      · rcases List.mem_cons.mp hs with rfl | hs
        · exact Nat.le_refl _
        · have hbefore := List.rel_of_pairwise_cons hsorted hs
          unfold Span.Before at hbefore
          omega
      · have hbehind := (inOrder_dedupFrom t.stop spans).pairwise
          (fun s hs => hrest s (mem_of_dedupFrom hs)) |>.1 r hr
        rcases List.mem_cons.mp hs with rfl | hs
        · omega
        · exact ih hsorted.of_cons hrest hr hs

/-- **Which spans are kept**. -/
theorem mergeAndDedup_greedy {spans : List Span} (hlt : ∀ s ∈ spans, s.start < s.stop) :
    Greedy spans (mergeAndDedup spans) := by
  have hsorted := List.pairwise_insertionSort Span.Before spans
  have hperm := List.perm_insertionSort Span.Before spans
  have hlt' : ∀ s ∈ spans.insertionSort Span.Before, s.start < s.stop := fun s hs =>
    hlt s (hperm.subset hs)
  have hkept : ∀ s ∈ mergeAndDedup spans, s.start < s.stop := fun s hs =>
    hlt s (mem_of_mergeAndDedup hs)
  have hdisjoint := ((inOrder_dedupFrom 0 (spans.insertionSort Span.Before)).pairwise hkept).2
  obtain ⟨dropped, hall, hdropped⟩ := @dedupFrom_dropped 0 _ hsorted
  refine ⟨dedupFrom_sublist 0 _, ⟨dropped, hall.trans hperm, ?_⟩, ?_, hdisjoint, ?_, ?_⟩
  · intro s hs
    rcases hdropped s hs with h | ⟨r, hr, hbefore, hlt⟩
    · cases h
    · refine ⟨r, hr, ?_, hlt⟩
      unfold Span.Before at hbefore
      omega
  · refine hdisjoint.imp_of_mem ?_
    intro r s hr _ hle
    exact Nat.lt_of_lt_of_le (hkept r hr) hle
  · intro s hs
    have hmem : s ∈ spans.insertionSort Span.Before := hperm.symm.subset hs
    unfold mergeAndDedup
    cases hsort : spans.insertionSort Span.Before with
    | nil =>
        rw [hsort] at hmem
        cases hmem
    | cons t rest =>
        -- nothing begins before the cursor 0, so the first of the sorted spans is kept
        rw [hsort] at hmem hsorted
        refine ⟨t, rfl, ?_⟩
        rcases List.mem_cons.mp hmem with rfl | hmem
        · exact Or.inr ⟨rfl, Nat.le_refl _⟩
        · exact List.rel_of_pairwise_cons hsorted hmem
  · intro r hr s hs
    exact dedupFrom_longest hsorted hlt' hr (hperm.symm.subset hs)

/-! ## `substitute` -/

section Render

variable {σ : Type}

/-- With a vault, the database is the state, and what the IVs are drawn from. -/
def vaultRender {ρ : Type} (v : PiiVault) (workspaceId : Uuid) (draw : ρ → Bytes × ρ) :
    Render (VaultDb × ρ) := fun raw kind (db, rng) =>
  let (iv, rng') := draw rng
  let req : Request := ⟨workspaceId, kind, String.ofList raw, iv⟩
  ((v.renderToken db req).toList, (v.tokenize db req).2, rng')

/-- The span lies on character boundaries within the text. -/
def lies (text : List Char) (s : Span) : Bool :=
  isCharBoundary text s.start && isCharBoundary text s.stop

/-- The loop passes over the other spans, and its cursor stays. -/
theorem substituteWith_filter (render : Render σ) (text : List Char) (cursor : Nat)
    (spans : List Span) (st : σ) : substituteWith render text cursor spans st
      = substituteWith render text cursor (spans.filter (lies text)) st := by
  induction spans generalizing cursor st with
  | nil => rfl
  | cons s spans ih =>
      cases hlies : lies text s with
      | true =>
          rw [List.filter_cons_of_pos hlies, substituteWith, substituteWith]
          simp only [ih]
      | false =>
          rw [List.filter_cons_of_neg (by rw [hlies]; decide), substituteWith]
          have hguard : (!isCharBoundary text s.start || !isCharBoundary text s.stop) = true := by
            rw [← Bool.not_and]
            exact congrArg (!·) hlies
          rw [if_pos hguard, ite_self, ih]

theorem lies_iff {text : List Char} {s : Span} (hlt : s.start < s.stop) :
    lies text s = true ↔ OnBoundaries text s := by
  unfold lies
  rw [Bool.and_eq_true]
  exact ⟨fun h => ⟨hlt, h.1, h.2⟩, fun h => ⟨h.start, h.stop⟩⟩

/-- Spans that are passed over leave the others in order. -/
theorem InOrder.filter {cursor : Nat} {spans : List Span} (h : InOrder cursor spans)
    (hlt : ∀ s ∈ spans, s.start < s.stop) (p : Span → Bool) : InOrder cursor (spans.filter p) := by
  induction spans generalizing cursor with
  | nil => trivial
  | cons s spans ih =>
      obtain ⟨hslt, hlt⟩ := List.forall_mem_cons.mp hlt
      obtain ⟨hle, hrest⟩ := h
      rw [List.filter_cons]
      split
      · exact ⟨hle, ih hrest hlt⟩
      · exact ih (hrest.weaken (by omega)) hlt

/-- **Which spans are replaced.** -/
theorem substituteWith_exact (render : Render σ) (text : List Char) (st : σ) {spans : List Span}
    (hord : InOrder 0 spans) (hlt : ∀ s ∈ spans, s.start < s.stop) : ∃ out st',
      substituteWith render text 0 spans st = some (out, st') ∧
      RebuiltWith render 0 st text (spans.filter (lies text)) out st' := by
  have hboundaries : ∀ s ∈ spans.filter (lies text), OnBoundaries text s := by
    intro s hs
    obtain ⟨hmem, hlies⟩ := List.mem_filter.mp hs
    exact (lies_iff (hlt s hmem)).mp hlies
  obtain ⟨out, st', hout, hrebuilt⟩ := @substituteWith_rebuilds _ render _ [] text st
    (hord.filter hlt (lies text)) hboundaries
  refine ⟨out, st', ?_, hrebuilt⟩
  rw [substituteWith_filter]
  exact hout

theorem merged_exact (render : Render σ) (text : List Char) (st : σ) {spans : List Span}
    (hlt : ∀ s ∈ spans, s.start < s.stop) : ∃ out st',
      substituteWith render text 0 (mergeAndDedup spans) st = some (out, st') ∧
      RebuiltWith render 0 st text ((mergeAndDedup spans).filter (lies text)) out st' :=
  substituteWith_exact render text st (inOrder_dedupFrom 0 _) fun s hs =>
    hlt s (mem_of_mergeAndDedup hs)

/-- The spans of the scanner together with any others. -/
theorem sanitizeWith_exact (u : UnicodeClasses) (render : Render σ) (text : List Char) (st : σ)
    (ner : List Span) (hner : ∀ s ∈ ner, s.start < s.stop) :
    ∃ found out st', scan u text = some found ∧ (∀ s ∈ found, OnBoundaries text s) ∧
      sanitizeWith u render ner text st = some (out, st') ∧
      RebuiltWith render 0 st text ((mergeAndDedup (found ++ ner)).filter (lies text)) out st' := by
  obtain ⟨found, hscan, hmem⟩ := scan_spans u text
  have hfound : ∀ s ∈ found, OnBoundaries text s := fun s hs => ((hmem s).mp hs).onBoundaries
  have hall : ∀ s ∈ found ++ ner, s.start < s.stop := by
    intro s hs
    rcases List.mem_append.mp hs with hs | hs
    · exact (hfound s hs).lt
    · exact hner s hs
  obtain ⟨out, st', hout, hrebuilt⟩ := merged_exact render text st hall
  exact ⟨found, out, st', hscan, hfound, (sanitizeWith_eq hscan st).trans hout, hrebuilt⟩

/-- **Total and exact**, for every text and every list of spans. -/
theorem sanitize_exact (u : UnicodeClasses) (render : Render σ) (text : List Char) (st : σ)
    (spans : List Span) (hlt : ∀ s ∈ spans, s.start < s.stop) :
    Greedy spans (mergeAndDedup spans) ∧
      (∃ out st', substituteWith render text 0 (mergeAndDedup spans) st = some (out, st') ∧
        RebuiltWith render 0 st text ((mergeAndDedup spans).filter (lies text)) out st') ∧
      ∃ found out st', scan u text = some found ∧ (∀ s ∈ found, OnBoundaries text s) ∧
        sanitizeWith u render spans text st = some (out, st') ∧
        RebuiltWith render 0 st text ((mergeAndDedup (found ++ spans)).filter (lies text)) out
          st' :=
  ⟨mergeAndDedup_greedy hlt, merged_exact render text st hlt,
    sanitizeWith_exact u render text st spans hlt⟩

/-! ## What NER adds -/

/-- `map_label`. -/
def mapLabel (lbl : String) : Option EntityKind :=
  if lbl = "B-PER" ∨ lbl = "I-PER" then some .person
  else if lbl = "B-ORG" ∨ lbl = "I-ORG" then some .org
  else if lbl = "B-LOC" ∨ lbl = "I-LOC" then some .loc
  else none

/-- One token of `bio_merge`: the spans it closes, and the one that is open after it. -/
def bioStep (labels : List String) (prev : Option Span) (offset : Nat × Nat) (lid : Nat) :
    List Span × Option Span :=
  let (s, e) := offset
  if s = 0 ∧ e = 0 then (prev.toList, none)
  else
    let lbl := labels.getD lid "O"
    let isBegin := "B-".toList.isPrefixOf lbl.toList
    let isInside := "I-".toList.isPrefixOf lbl.toList
    match mapLabel lbl, isBegin, isInside, prev with
    | some k, true, _, prev => (prev.toList, some ⟨s, e, k⟩)
    | some k, false, true, some p =>
        if p.kind = k then ([], some { p with stop := e }) else ([p], some ⟨s, e, k⟩)
    | some k, false, true, none => ([], some ⟨s, e, k⟩)
    | _, _, _, prev => (prev.toList, none)

/-- The loop of `bio_merge`, with the span that is open. -/
def bioMergeFrom (labels : List String) : Option Span → List (Nat × Nat) → List Nat → List Span
  | prev, _, [] => prev.toList
  | prev, offsets, lid :: lids =>
      let (closed, prev) := bioStep labels prev (offsets.headD (0, 0)) lid
      closed ++ bioMergeFrom labels prev offsets.tail lids

/-- `bio_merge`. -/
def bioMerge (offsets : List (Nat × Nat)) (lids : List Nat) (labels : List String) : List Span :=
  bioMergeFrom labels none offsets lids

/-- The offsets of a tokenizer: those of a special token are zero, any other token is a non-empty
stretch and begins before every later one ends. -/
structure TokenOffsets (offsets : List (Nat × Nat)) : Prop where
  nonempty : ∀ o ∈ offsets, o ≠ (0, 0) → o.1 < o.2
  ordered : offsets.Pairwise fun o o' => o' ≠ (0, 0) → o.1 < o'.2

/-- What one token can do to the open span. -/
theorem bioStep_cases (labels : List String) (prev : Option Span) (offset : Nat × Nat) (lid : Nat) :
    (∀ s ∈ (bioStep labels prev offset lid).1, prev = some s) ∧
      ∀ s, (bioStep labels prev offset lid).2 = some s → offset ≠ (0, 0) ∧ s.stop = offset.2 ∧
        (s.start = offset.1 ∨ ∃ p, prev = some p ∧ s.start = p.start) := by
  obtain ⟨start, stop⟩ := offset
  unfold bioStep
  dsimp only
  by_cases hspecial : start = 0 ∧ stop = 0
  · rw [if_pos hspecial]
    exact ⟨fun s hs => Option.mem_toList.mp hs, nofun⟩
  · have hne : (start, stop) ≠ (0, 0) := fun h => hspecial (Prod.mk.inj h)
    rw [if_neg hspecial]
    split
    · refine ⟨fun s hs => Option.mem_toList.mp hs, ?_⟩
      rintro s ⟨⟩
      exact ⟨hne, rfl, Or.inl rfl⟩
    · split_ifs
      · refine ⟨nofun, ?_⟩
        rintro s ⟨⟩
        exact ⟨hne, rfl, Or.inr ⟨_, rfl, rfl⟩⟩
      · refine ⟨fun s hs => congrArg some (List.mem_singleton.mp hs).symm, ?_⟩
        rintro s ⟨⟩
        exact ⟨hne, rfl, Or.inl rfl⟩
    · refine ⟨nofun, ?_⟩
      rintro s ⟨⟩
      exact ⟨hne, rfl, Or.inl rfl⟩
    · exact ⟨fun s hs => Option.mem_toList.mp hs, nofun⟩

/-- An open span is not empty, and it begins before every token to come ends. -/
def Opened (offsets : List (Nat × Nat)) (prev : Option Span) : Prop :=
  ∀ p, prev = some p → p.start < p.stop ∧ ∀ o ∈ offsets, o ≠ (0, 0) → p.start < o.2

theorem bioStep_opened {labels : List String} {prev : Option Span} {offset : Nat × Nat}
    {offsets : List (Nat × Nat)} (h : TokenOffsets (offset :: offsets))
    (hopen : Opened (offset :: offsets) prev) (lid : Nat) :
    Opened offsets (bioStep labels prev offset lid).2 := by
  intro s hs
  obtain ⟨hne, hstop, hstart⟩ := (bioStep_cases labels prev offset lid).2 s hs
  rw [hstop]
  rcases hstart with hstart | ⟨p, hp, hstart⟩
  · rw [hstart]
    exact ⟨h.nonempty offset List.mem_cons_self hne, (List.pairwise_cons.mp h.ordered).1⟩
  · rw [hstart]
    have hlater := (hopen p hp).2
    exact ⟨hlater offset List.mem_cons_self hne, fun o ho => hlater o (List.mem_cons_of_mem _ ho)⟩

/-- Without offsets every token is a special one. -/
theorem bioMergeFrom_lt {labels : List String} {prev : Option Span} {offsets : List (Nat × Nat)}
    (h : TokenOffsets offsets) (hopen : Opened offsets prev) (lids : List Nat) :
    ∀ s ∈ bioMergeFrom labels prev offsets lids, s.start < s.stop := by
  induction lids generalizing prev offsets with
  | nil => exact fun s hs => (hopen s (Option.mem_toList.mp hs)).1
  | cons lid lids ih =>
      intro s hs
      rcases List.mem_append.mp hs with hs | hs
      · exact (hopen s ((bioStep_cases labels prev _ lid).1 s hs)).1
      · cases offsets with
        | nil =>
            refine ih h ?_ s hs
            intro p hp
            exact absurd rfl ((bioStep_cases labels prev (0, 0) lid).2 p hp).1
        | cons offset offsets =>
            have hrest : TokenOffsets offsets :=
              ⟨fun o ho => h.nonempty o (List.mem_cons_of_mem _ ho), h.ordered.of_cons⟩
            exact ih hrest (bioStep_opened h hopen lid) s hs

/-- **The full pipeline**, with a vault and NER: nothing the model labels makes it panic, and no
failure of the vault. -/
theorem sanitize_pipeline {ρ : Type} (u : UnicodeClasses) (v : PiiVault) (workspaceId : Uuid)
    (draw : ρ → Bytes × ρ) (text : List Char) (st : VaultDb × ρ) {offsets : List (Nat × Nat)}
    (h : TokenOffsets offsets) (lids : List Nat) (labels : List String) :
    ∃ found out st', scan u text = some found ∧
      sanitizeWith u (vaultRender v workspaceId draw) (bioMerge offsets lids labels) text st
        = some (out, st') ∧
      RebuiltWith (vaultRender v workspaceId draw) 0 st text
        ((mergeAndDedup (found ++ bioMerge offsets lids labels)).filter (lies text)) out st' := by
  have hlt : ∀ s ∈ bioMerge offsets lids labels, s.start < s.stop :=
    bioMergeFrom_lt h (nofun : Opened offsets none) lids
  obtain ⟨found, out, st', hscan, -, hout, hrebuilt⟩ :=
    sanitizeWith_exact u (vaultRender v workspaceId draw) text st _ hlt
  exact ⟨found, out, st', hscan, hout, hrebuilt⟩

/-! ## Spans beyond the text, and inside a character -/

/-- Two bytes, a space, and an email. -/
def accentThenEmail : List Char := "\u00e9 a@b.co".toList

/-- One span ends inside the accented letter, one begins inside the email, one lies beyond. -/
def oddSpans : List Span := [⟨30, 40, .org⟩, ⟨4, 6, .person⟩, ⟨0, 1, .loc⟩]

example : sanitizeWith asciiClasses placeholder oddSpans accentThenEmail ()
    = some ("\u00e9 [PII:EMAIL]".toList, ()) := by
  decide +kernel

/-- None of them does harm. -/
theorem sanitize_oddSpans :
    Greedy oddSpans (mergeAndDedup oddSpans) ∧
      (∃ out st', substituteWith placeholder accentThenEmail 0 (mergeAndDedup oddSpans) ()
          = some (out, st') ∧
        RebuiltWith placeholder 0 () accentThenEmail
          ((mergeAndDedup oddSpans).filter (lies accentThenEmail)) out st') ∧
      ∃ found out st', scan asciiClasses accentThenEmail = some found ∧
        (∀ s ∈ found, OnBoundaries accentThenEmail s) ∧
        sanitizeWith asciiClasses placeholder oddSpans accentThenEmail () = some (out, st') ∧
        RebuiltWith placeholder 0 () accentThenEmail
          ((mergeAndDedup (found ++ oddSpans)).filter (lies accentThenEmail)) out st' :=
  sanitize_exact asciiClasses placeholder accentThenEmail () oddSpans (by decide)

end Render

end McpGateway.Sanitize
