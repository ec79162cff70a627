import McpGateway.Foundation.Separator
import McpGateway.Sanitize.Substitute

/-! # Scanning what `sanitize` put out

A match in sanitized text is a stretch that was copied from the text, as no pattern matches a part of
a placeholder. Where it was copied from, it either has new neighbours, or it was passed over because
another match began before it.

* `Rebuilt.split_copied` — a stretch of the output without brackets was copied.
* `rescan_emits` — where the spans of a second scan come from. -/

namespace McpGateway.Sanitize

open Foundation Foundation.Shape Vault

/-! ## What was copied -/

/-- A character of a placeholder between its brackets. -/
def IsTokenChar (c : Char) : Prop := c = ':' ∨ isUpper c = true

instance : DecidablePred IsTokenChar := fun c =>
  inferInstanceAs (Decidable (c = ':' ∨ isUpper c = true))

/-- The inside of a placeholder. -/
def tokenBody (kind : EntityKind) : List Char := ("PII:" ++ kind.asLabel).toList

theorem renderToken_eq (raw : List Char) (kind : EntityKind) :
    renderToken raw kind = '[' :: (tokenBody kind ++ [']']) := by
  show ("[PII:" ++ kind.asLabel ++ "]").toList = '[' :: (tokenBody kind ++ [']'])
  cases kind <;> decide +kernel

theorem isTokenChar_of_mem {kind : EntityKind} {c : Char} (h : c ∈ tokenBody kind) :
    IsTokenChar c := by
  have hall : (tokenBody kind).all (fun c => decide (IsTokenChar c)) = true := by
    cases kind <;> decide +kernel
  exact of_decide_eq_true (List.all_eq_true.mp hall c h)

/-- **A stretch without brackets** that is not just the inside of a placeholder was copied: the text
before it and the text behind it were rebuilt separately. -/
theorem Rebuilt.split_copied {offset : Nat} {text out : List Char} {spans : List Span}
    (h : Rebuilt offset text spans out) {pre w rest : List Char} (hout : out = pre ++ (w ++ rest))
    (hopen : '[' ∉ w) (hclose : ']' ∉ w) (hw : ∃ c ∈ w, ¬IsTokenChar c) :
    ∃ pre' rest' spans₁ spans₂, text = pre' ++ (w ++ rest') ∧ spans = spans₁ ++ spans₂ ∧
      Rebuilt offset pre' spans₁ pre ∧
      Rebuilt (offset + utf8Len pre' + utf8Len w) rest' spans₂ rest := by
  induction h using Rebuilt.induction generalizing pre with
  | rest offset text =>
      exact ⟨pre, rest, [], [], hout, rfl, .rest _ pre, .rest _ rest⟩
  | @replace offset text out spans gap raw kind h ih =>
      rw [renderToken_eq] at hout
      have hbracket : gap ++ '[' :: (tokenBody kind ++ ']' :: out) = pre ++ (w ++ rest) := by
        simpa using hout
      rcases append_cons_split hopen hbracket with ⟨gap', rfl, rfl⟩ | ⟨inside, rfl, hinside⟩
      · -- before the placeholder
        refine ⟨pre, gap' ++ (raw ++ text), [], _, by simp, rfl, .rest _ pre, ?_⟩
        have hlen : offset + utf8Len (pre ++ (w ++ gap'))
            = offset + utf8Len pre + utf8Len w + utf8Len gap' := by
          rw [utf8Len_append, utf8Len_append]
          omega
        rw [hlen] at h ⊢
        have hreplace := Rebuilt.replace gap' raw kind h
        rw [renderToken_eq] at hreplace
        simpa using hreplace
      · rcases append_cons_split hclose hinside with ⟨gap', hbody, -⟩ | ⟨pre₂, rfl, hout₂⟩
        · -- inside it
          obtain ⟨c, hc, hno⟩ := hw
          have hmem : c ∈ tokenBody kind := by
            rw [hbody]
            exact List.mem_append_right _ (List.mem_append_left _ hc)
          exact absurd (isTokenChar_of_mem hmem) hno
        · -- behind it
          obtain ⟨pre', rest', spans₁, spans₂, rfl, rfl, hpre, hrest⟩ := ih hout₂
          refine ⟨gap ++ (raw ++ pre'), rest', _ :: spans₁, spans₂, by simp, rfl, ?_, ?_⟩
          · have hreplace := Rebuilt.replace gap raw kind hpre
            rw [renderToken_eq] at hreplace
            simpa using hreplace
          · rw [utf8Len_append, utf8Len_append]
            have hlen : offset + (utf8Len gap + (utf8Len raw + utf8Len pre')) + utf8Len w
                = offset + utf8Len gap + utf8Len raw + utf8Len pre' + utf8Len w := by omega
            rw [hlen]
            exact hrest

/-- The spans lie in the text. -/
theorem Rebuilt.bounds {offset : Nat} {text out : List Char} {spans : List Span}
    (h : Rebuilt offset text spans out) {r : Span} (hr : r ∈ spans) :
    offset ≤ r.start ∧ r.stop ≤ offset + utf8Len text := by
  induction h using Rebuilt.induction with
  | rest offset text => cases hr
  | replace gap raw kind h ih =>
      rw [utf8Len_append, utf8Len_append]
      rcases List.mem_cons.mp hr with rfl | hr
      · dsimp only
        omega
      · have hbounds := ih hr
        omega

/-- The last character is the same, unless a span ends there. -/
theorem Rebuilt.getLast?_eq {offset : Nat} {text out : List Char} {spans : List Span}
    (h : Rebuilt offset text spans out) (hno : ∀ r ∈ spans, r.stop ≠ offset + utf8Len text) :
    out.getLast? = text.getLast? := by
  induction h using Rebuilt.induction with
  | rest offset text => rfl
  | @replace offset text out spans gap raw kind h ih =>
      obtain ⟨hfirst, hspans⟩ := List.forall_mem_cons.mp hno
      rw [utf8Len_append, utf8Len_append] at hfirst hspans
      dsimp only at hfirst
      have hlast := ih fun r hr => by
        have hne := hspans r hr
        omega
      have htext : text ≠ [] := by
        rintro rfl
        apply hfirst
        rw [utf8Len]
        omega
      obtain ⟨c, hc⟩ := Option.ne_none_iff_exists'.mp (mt List.getLast?_eq_none_iff.mp htext)
      simp only [List.getLast?_append, hlast, hc, Option.some_or]

/-- The first character is the same, unless a span begins there. -/
theorem Rebuilt.head?_eq {offset : Nat} {text out : List Char} {spans : List Span}
    (h : Rebuilt offset text spans out) (hno : ∀ r ∈ spans, r.start ≠ offset) :
    out.head? = text.head? := by
  cases h using Rebuilt.induction with
  | rest offset text => rfl
  | replace gap raw kind h _ =>
      have hgap : gap ≠ [] := by
        rintro rfl
        exact hno _ List.mem_cons_self (Nat.add_zero offset)
      rw [List.head?_append_of_ne_nil _ hgap, List.head?_append_of_ne_nil _ hgap]

/-! ## What a match looks like -/

/-- A bracket is in no class of a pattern. -/
def IsBracket (c : Char) : Prop := c = '[' ∨ c = ']'

theorem not_bracket {p : Char → Bool} (hopen : p '[' = false) (hclose : p ']' = false) :
    ∀ c, p c = true → ¬IsBracket c := by
  rintro c hc (rfl | rfl)
  · rw [hopen] at hc
    cases hc
  · rw [hclose] at hc
    cases hc

theorem detector_within (u : UnicodeClasses) {d : Detector} (hd : d ∈ detectors u) :
    d.pattern.shape.Within fun c => ¬IsBracket c := by
  have hdigit : ∀ c, u.isDigit c = true → ¬IsBracket c := by
    apply not_bracket
    · rw [u.digit_ascii _ (by decide)]
      rfl
    · rw [u.digit_ascii _ (by decide)]
      rfl
  have hspace : ∀ c, isWhitespace c = true → ¬IsBracket c := not_bracket rfl rfl
  have hhex : ∀ c, isHex c = true → ¬IsBracket c := not_bracket rfl rfl
  have hlit : ∀ x, (x == '[') = false → (x == ']') = false → (lit x).Within fun c => ¬IsBracket c := by
    intro x hopen hclose
    apply not_bracket
    · rw [← hopen, BEq.comm]
    · rw [← hclose, BEq.comm]
  simp only [detectors, List.mem_cons, List.not_mem_nil, or_false] at hd
  rcases hd with rfl | rfl | rfl | rfl | rfl
  · exact ⟨not_bracket rfl rfl, hspace, hdigit, hspace, hdigit, hspace,
      ⟨⟨hlit '2' rfl rfl, hlit 'A' rfl rfl⟩, ⟨hlit '2' rfl rfl, hlit 'B' rfl rfl⟩, hdigit⟩,
      hspace, hdigit, hspace, hdigit, hspace, hdigit⟩
  · exact ⟨not_bracket rfl rfl, hdigit, not_bracket rfl rfl⟩
  · exact ⟨hlit '+' rfl rfl, not_bracket rfl rfl, hdigit⟩
  · exact ⟨not_bracket rfl rfl, hlit '@' rfl rfl, not_bracket rfl rfl, hlit '.' rfl rfl,
      not_bracket rfl rfl⟩
  · exact ⟨hhex, hlit '-' rfl rfl, hhex, hlit '-' rfl rfl, hhex, hlit '-' rfl rfl, hhex,
      hlit '-' rfl rfl, hhex⟩

/-- Every match has a character that no placeholder has inside. -/
theorem detector_needs (u : UnicodeClasses) {d : Detector} (hd : d ∈ detectors u) :
    d.pattern.shape.Needs fun c => ¬IsTokenChar c := by
  have hlit : ∀ x, ¬IsTokenChar x → (lit x).Needs fun c => ¬IsTokenChar c := by
    intro x hx
    refine ⟨Nat.le_refl 1, fun c hc => ?_⟩
    rw [beq_iff_eq.mp hc]
    exact hx
  simp only [detectors, List.mem_cons, List.not_mem_nil, or_false] at hd
  rcases hd with rfl | rfl | rfl | rfl | rfl
  · refine Or.inl ⟨Nat.le_refl 1, ?_⟩
    rintro c hc (rfl | hupper)
    · cases hc
    · have hc' := inRange_iff.mp hc
      have hupper' := inRange_iff.mp hupper
      have h3 : '3'.toNat = 51 := rfl
      have hA : 'A'.toNat = 65 := rfl
      omega
  · refine Or.inr (Or.inl ⟨by decide, ?_⟩)
    rintro c hc (rfl | hupper)
    · rw [u.digit_ascii _ (by decide)] at hc
      cases hc
    · have hupper' := inRange_iff.mp hupper
      have hA : 'A'.toNat = 65 := rfl
      have hZ : 'Z'.toNat = 90 := rfl
      rw [u.digit_ascii c (by omega)] at hc
      have hc' := inRange_iff.mp hc
      have h9 : '9'.toNat = 57 := rfl
      omega
  · exact Or.inl (hlit '+' (by decide))
  · exact Or.inr (Or.inl (hlit '@' (by decide)))
  · exact Or.inr (Or.inl (hlit '-' (by decide)))

/-! ## Two matches of word characters -/

theorem not_boundary (u : UnicodeClasses) {prev next : Option Char}
    (hprev : ∃ c, prev = some c ∧ u.isWord c = true)
    (hnext : ∃ c, next = some c ∧ u.isWord c = true) : wordBoundary u prev next = false := by
  obtain ⟨c, rfl, hc⟩ := hprev
  obtain ⟨d, rfl, hd⟩ := hnext
  simp [wordBoundary, hc, hd]

theorem head?_of_word {q : Char → Prop} {w : List Char} (hw : w ≠ []) (hq : ∀ c ∈ w, q c)
    (rest : List Char) : ∃ c, (w ++ rest).head? = some c ∧ q c := by
  cases w with
  | nil => exact absurd rfl hw
  | cons c w => exact ⟨c, rfl, hq c List.mem_cons_self⟩

theorem getLast?_of_word {q : Char → Prop} {w : List Char} (hw : w ≠ []) (hq : ∀ c ∈ w, q c)
    (pre : List Char) : ∃ c, (pre ++ w).getLast? = some c ∧ q c := by
  obtain ⟨c, hc⟩ := Option.ne_none_iff_exists'.mp (mt List.getLast?_eq_none_iff.mp hw)
  refine ⟨c, ?_, hq c (List.mem_of_getLast? hc)⟩
  rw [List.getLast?_append, hc, Option.some_or]

/-- The end of the shorter of two words is no boundary. -/
theorem closes_longest (u : UnicodeClasses) {pre w x rest : List Char} (hw : w ≠ [])
    (hword : ∀ c ∈ w ++ x, u.isWord c = true)
    (h : wordBoundary u (Pattern.lastOr pre.getLast? w) (x ++ rest).head? = true) : x = [] := by
  by_contra hx
  have hlast : ∃ c, Pattern.lastOr pre.getLast? w = some c ∧ u.isWord c = true := by
    obtain ⟨c, hc, hcw⟩ := getLast?_of_word hw
      (fun c hc => hword c (List.mem_append_left x hc)) []
    refine ⟨c, ?_, hcw⟩
    rw [List.nil_append] at hc
    unfold Pattern.lastOr
    rw [hc]
  have hnext := head?_of_word hx (fun c hc => hword c (List.mem_append_right w hc)) rest
  rw [not_boundary u hlast hnext] at h
  cases h

/-- A position inside a stretch of the text cuts it. -/
theorem cut_inside {pre tail pre' w rest : List Char} (htext : pre ++ tail = pre' ++ (w ++ rest))
    (hle : pre'.length ≤ pre.length) (hlt : pre.length < pre'.length + w.length) :
    ∃ x y, pre = pre' ++ x ∧ w = x ++ y ∧ y ≠ [] ∧ tail = y ++ rest := by
  obtain ⟨x, rfl, hx⟩ : ∃ x, pre = pre' ++ x ∧ w ++ rest = x ++ tail := by
    rcases List.append_eq_append_iff.mp htext with ⟨x, rfl, hx⟩ | ⟨x, rfl, hx⟩
    · have hnil : x = [] := by
        rw [List.length_append] at hle
        exact List.length_eq_zero_iff.mp (by omega)
      subst hnil
      exact ⟨[], by simp, hx.symm⟩
    · exact ⟨x, rfl, hx⟩
  rw [List.length_append] at hlt
  rcases List.append_eq_append_iff.mp hx with ⟨y, rfl, -⟩ | ⟨y, rfl, htail⟩
  · rw [List.length_append] at hlt
    omega
  · refine ⟨x, y, rfl, rfl, ?_, htail⟩
    rintro rfl
    simp at hlt

/-- A match of word characters between boundaries is a whole word: two that overlap are one. -/
theorem stands_unique (u : UnicodeClasses) {P : Pattern Char} (hopens : P.opens = true)
    (hcloses : P.closes = true) (hwithin : P.shape.Within fun c => u.isWord c = true)
    {pre w rest pre' w' rest' : List Char} (hw : w ≠ [])
    (h : P.Stands (wordBoundary u) pre.getLast? w rest)
    (h' : P.Stands (wordBoundary u) pre'.getLast? w' rest')
    (htext : pre ++ (w ++ rest) = pre' ++ (w' ++ rest')) (hle : pre'.length ≤ pre.length)
    (hlt : pre.length < pre'.length + w'.length) : w = w' := by
  have hword := hwithin.word h.denotes
  have hword' := hwithin.word h'.denotes
  obtain ⟨x, y, rfl, rfl, hy, htail⟩ := cut_inside htext hle hlt
  have hstart : x = [] := by
    by_contra hne
    have hprev := getLast?_of_word hne (fun c hc => hword' c (List.mem_append_left y hc)) pre'
    have hopen := h.opens hopens
    rw [not_boundary u hprev (head?_of_word hw hword rest)] at hopen
    cases hopen
  subst hstart
  rcases List.append_eq_append_iff.mp htail with ⟨z, rfl, rfl⟩ | ⟨z, rfl, rfl⟩
  · have hz := closes_longest u hw hword' (h.closes hcloses)
    rw [hz, List.append_nil]
    rfl
  · have hz := closes_longest u hy hword (h'.closes hcloses)
    rw [hz, List.append_nil]
    rfl

theorem reIban_within (u : UnicodeClasses) :
    (reIban u).shape.Within fun c => u.isWord c = true := by
  have hascii : ∀ c, isAlnum c = true → u.isWord c = true := by
    intro c hc
    have hlt : c.toNat < 128 := by
      have hrange := isAlnum_iff.mp hc
      omega
    rw [u.word_ascii c hlt, hc]
    rfl
  have hupper : ∀ c, isUpper c = true → u.isWord c = true := by
    intro c hc
    apply hascii
    simp [isAlnum, isAlpha, hc]
  refine ⟨hupper, u.word_of_digit, fun c hc => ?_⟩
  rcases Bool.or_eq_true_iff.mp hc with hc | hc
  · exact hupper c hc
  · apply hascii
    simp [isAlnum, hc]

/-! ## The second scan -/

/-- The span of the output is a copy of the text from byte `i` on: what is before it and what is
behind it were rebuilt separately. -/
def CopiedFrom (text : List Char) (merged : List Span) (out : List Char) (s : Span) (i : Nat) :
    Prop :=
  ∃ pre w rest pre' rest' spans₁ spans₂, out = pre ++ (w ++ rest) ∧ utf8Len pre = s.start ∧
    utf8Len pre + utf8Len w = s.stop ∧ text = pre' ++ (w ++ rest') ∧ utf8Len pre' = i ∧
    merged = spans₁ ++ spans₂ ∧ Rebuilt 0 pre' spans₁ pre ∧
    Rebuilt (i + utf8Len w) rest' spans₂ rest

/-- The byte lies in something of the shape of a social security number with a wrong key. -/
def InRejectedNir (u : UnicodeClasses) (text : List Char) (i : Nat) : Prop :=
  ∃ pre w rest, text = pre ++ (w ++ rest) ∧
    (⟨pre.length, w.length⟩ : Pattern.Match) ∈ (reFrNir u).findIter (wordBoundary u) text ∧
    isValidNir w = some false ∧ utf8Len pre ≤ i ∧ i < utf8Len pre + utf8Len w

/-- A match that stands in the text where nothing was replaced was passed over: it begins inside a
span that was dropped, or inside a number with a wrong key. -/
theorem passed_over (u : UnicodeClasses) {d : Detector} (hd : d ∈ detectors u)
    {pre w rest : List Char} (h : d.pattern.Stands (wordBoundary u) pre.getLast? w rest)
    (hvalid : d.valid w = some true) :
    (∃ e, Emitted u (pre ++ (w ++ rest)) e ∧ e.start ≤ utf8Len pre ∧ utf8Len pre < e.stop) ∨
      InRejectedNir u (pre ++ (w ++ rest)) (utf8Len pre) := by
  have hw : w ≠ [] := by
    rintro rfl
    have hmin := Nat.le_trans (minLength_pos u hd) (minLength_le h.denotes)
    simp at hmin
  obtain ⟨m, hm, hle, hlt⟩ := Pattern.findIter_covers (minLength_pos u hd) h
  obtain ⟨pre', w', rest', htext, rfl, h'⟩ := Pattern.findIter_sound hm
  dsimp only at hle hlt
  have hbytes : utf8Len pre' ≤ utf8Len pre ∧ utf8Len pre < utf8Len pre' + utf8Len w' := by
    obtain ⟨x, y, rfl, rfl, hy, -⟩ := cut_inside htext hle hlt
    have hpos := utf8Len_pos hy
    rw [utf8Len_append, utf8Len_append]
    omega
  obtain ⟨ok, hok⟩ := Option.isSome_iff_exists.mp (valid_isSome u hd h'.denotes)
  cases ok with
  | true =>
      refine Or.inl ⟨⟨utf8Len pre', utf8Len pre' + utf8Len w', d.kind⟩, ?_, hbytes⟩
      exact ⟨d, hd, pre', w', rest', htext, hm, hok, rfl⟩
  | false =>
      simp only [detectors, List.mem_cons, List.not_mem_nil, or_false] at hd
      rcases hd with rfl | rfl | rfl | rfl | rfl
      · exact Or.inr ⟨pre', w', rest', htext, hm, hok, hbytes⟩
      · -- the two are the same word, which cannot have two checksums
        have hsame := stands_unique u rfl rfl (reIban_within u) hw h h' htext hle hlt
        rw [hsame, hok] at hvalid
        cases hvalid
      · cases hok
      · cases hok
      · cases hok

/-- Where a placeholder is on neither side, a match of the output stands in the text. -/
theorem stands_of_rebuilt {u : UnicodeClasses} {P : Pattern Char} {offset offset' : Nat}
    {pre pre' w rest rest' : List Char} {spans₁ spans₂ : List Span}
    (hpre : Rebuilt offset pre' spans₁ pre) (hrest : Rebuilt offset' rest' spans₂ rest)
    (hstop : ∀ r ∈ spans₁, r.stop ≠ offset + utf8Len pre') (hstart : ∀ r ∈ spans₂, r.start ≠ offset')
    (h : P.Stands (wordBoundary u) pre.getLast? w rest) :
    P.Stands (wordBoundary u) pre'.getLast? w rest' := by
  rw [hpre.getLast?_eq hstop] at h
  have hhead := hrest.head?_eq hstart
  refine ⟨h.denotes, fun ho => ?_, fun hc => ?_⟩
  · rw [List.head?_append, ← hhead, ← List.head?_append]
    exact h.opens ho
  · rw [← hhead]
    exact h.closes hc

/-- **A span of the second scan** was copied from the text. It has a placeholder for a neighbour, or
it begins in what is left of a span that was dropped, or inside a number with a wrong key. -/
theorem emitted_again (u : UnicodeClasses) {text out : List Char} {spans : List Span}
    (hspans : ∀ s, s ∈ spans ↔ Emitted u text s)
    (hrebuilt : Rebuilt 0 text (mergeAndDedup spans) out) {s : Span} (hs : Emitted u out s) :
    ∃ i, CopiedFrom text (mergeAndDedup spans) out s i ∧
      ((∃ r ∈ mergeAndDedup spans, r.stop = i ∨ r.start = i + s.len) ∨
        (∃ e ∈ spans, ∃ r ∈ mergeAndDedup spans,
          r.start ≤ e.start ∧ e.start < r.stop ∧ r.stop ≤ i ∧ i < e.stop) ∨
        InRejectedNir u text i) := by
  obtain ⟨d, hd, pre, w, rest, hout, hm, hvalid, rfl⟩ := hs
  obtain ⟨pre₂, w₂, rest₂, hout₂, hmatch, hst⟩ := Pattern.findIter_sound hm
  obtain ⟨hpre₂, hw₂⟩ := Pattern.Match.mk.inj hmatch
  obtain ⟨rfl, hbehind⟩ := List.append_inj (hout.symm.trans hout₂) hpre₂
  obtain ⟨rfl, rfl⟩ := List.append_inj hbehind hw₂
  have hplain := (detector_within u hd).word hst.denotes
  obtain ⟨c, hword, hc⟩ := (detector_needs u hd).word hst.denotes
  obtain ⟨pre', rest', spans₁, spans₂, rfl, hmerged, hpre, hrest⟩ := hrebuilt.split_copied hout
    (fun h => hplain _ h (Or.inl rfl)) (fun h => hplain _ h (Or.inr rfl)) ⟨c, hword, hc⟩
  rw [Nat.zero_add] at hrest
  have hlen : (⟨utf8Len pre, utf8Len pre + utf8Len w, d.kind⟩ : Span).len = utf8Len w :=
    Nat.add_sub_cancel_left ..
  refine ⟨utf8Len pre', ⟨pre, w, rest, pre', rest', spans₁, spans₂, hout, rfl, rfl, rfl, rfl,
    hmerged, hpre, hrest⟩, ?_⟩
  rw [hlen]
  by_cases htouch : ∃ r ∈ mergeAndDedup spans,
      r.stop = utf8Len pre' ∨ r.start = utf8Len pre' + utf8Len w
  · exact Or.inl htouch
  · refine Or.inr ?_
    have hfree : ∀ r ∈ mergeAndDedup spans,
        ¬(r.stop = utf8Len pre' ∨ r.start = utf8Len pre' + utf8Len w) :=
      fun r hr h => htouch ⟨r, hr, h⟩
    have hstands := stands_of_rebuilt hpre hrest
      (fun r hr h => hfree r (by rw [hmerged]; exact List.mem_append_left _ hr)
        (Or.inl (by rw [h, Nat.zero_add])))
      (fun r hr h => hfree r (by rw [hmerged]; exact List.mem_append_right _ hr) (Or.inr h)) hst
    rcases passed_over u hd hstands hvalid with ⟨e, he, hle, hlt⟩ | hnir
    · refine Or.inl ⟨e, (hspans e).mpr he, ?_⟩
      -- nothing that was replaced reaches over the beginning of the stretch
      have hpos : 0 < utf8Len w := utf8Len_pos (List.ne_nil_of_mem hword)
      have houtside : ∀ r ∈ mergeAndDedup spans, r.start ≤ utf8Len pre' → r.stop ≤ utf8Len pre' := by
        intro r hr hstart
        rw [hmerged] at hr
        rcases List.mem_append.mp hr with hr | hr
        · have hbounds := hpre.bounds hr
          omega
        · have hbounds := hrest.bounds hr
          omega
      rcases mergeAndDedup_covers ((hspans e).mpr he) with hmem | ⟨r, hr, hfrom, hto⟩
      · have hstop := houtside e hmem hle
        omega
      · exact ⟨r, hr, hfrom, hto, houtside r hr (Nat.le_trans hfrom hle), hlt⟩
    · exact Or.inr hnir

/-- **Sanitizing twice**: what the scanner still finds in its own output, and that nothing changes
where it finds nothing. -/
theorem rescan_emits (u : UnicodeClasses) (text : List Char) :
    ∃ spans out again, scan u text = some spans ∧ sanitize u [] text = some out ∧
      scan u out = some again ∧ (again = [] → sanitize u [] out = some out) ∧
      ∀ s ∈ again, ∃ i, CopiedFrom text (mergeAndDedup spans) out s i ∧
        ((∃ r ∈ mergeAndDedup spans, r.stop = i ∨ r.start = i + s.len) ∨
          (∃ e ∈ spans, ∃ r ∈ mergeAndDedup spans,
            r.start ≤ e.start ∧ e.start < r.stop ∧ r.stop ≤ i ∧ i < e.stop) ∨
          InRejectedNir u text i) := by
  obtain ⟨spans, out, hscan, hout, -, hrebuilt⟩ := @sanitize_rebuilds u text [] nofun
  obtain ⟨spans', hscan', hspans⟩ := scan_spans u text
  obtain ⟨again, hagain, hmem⟩ := scan_spans u out
  rw [hscan'] at hscan
  cases hscan
  rw [List.append_nil] at hrebuilt
  refine ⟨spans, out, again, hscan', hout, hagain, ?_, fun s hs => ?_⟩
  · rintro rfl
    unfold sanitize sanitizeWith
    rw [hagain]
    rfl
  · exact emitted_again u hspans hrebuilt ((hmem s).mp hs)

/-! ## An email before a UUID -/

/-- The letter before the UUID keeps it from being one, until the email is replaced. -/
def emailThenUuid : List Char := "x@y.co550e8400-e29b-41d4-a716-446655440000".toList

theorem sanitize_emailThenUuid : sanitize asciiClasses [] emailThenUuid
    = some "[PII:EMAIL]550e8400-e29b-41d4-a716-446655440000".toList := by
  decide +kernel

theorem emailThenUuid_found : ¬∀ (u : UnicodeClasses) (text out : List Char),
    sanitize u [] text = some out → scan u out = some [] ∧ sanitize u [] out = some out := by
  intro h
  have hscan := (h asciiClasses _ _ sanitize_emailThenUuid).1
  revert hscan
  decide +kernel

end McpGateway.Sanitize
