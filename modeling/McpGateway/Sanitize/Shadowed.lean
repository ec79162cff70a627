import McpGateway.Sanitize.Rescan

/-! # Social security numbers that are passed over

The search does not go back: a candidate with a wrong key is used up, and a number with a right one
that begins inside it is never looked at.

* `nir_unique` — one candidate begins at a position, if any.
* `nir_covered_iff` — when a span of the scan overlaps a number. -/

namespace McpGateway.Sanitize

open Foundation Foundation.Shape

/-! ## The shape of a number -/

variable (u : UnicodeClasses)

theorem not_upper_of_digit {c : Char} (h : u.isDigit c = true) : isUpper c = false := by
  rw [← Bool.not_eq_true]
  intro hupper
  have hrange := inRange_iff.mp hupper
  have hA : 'A'.toNat = 65 := rfl
  have hZ : 'Z'.toNat = 90 := rfl
  rw [u.digit_ascii c (by omega)] at h
  have hdigit := inRange_iff.mp h
  have h9 : '9'.toNat = 57 := rfl
  omega

/-- A number has no more than fifteen characters besides its spaces. -/
theorem reFrNir_countsAtMost :
    (reFrNir u).shape.CountsAtMost (fun c => !isWhitespace c) 15 := by
  have hspace : (optional isWhitespace).CountsAtMost (fun c => !isWhitespace c) 0 :=
    countsAtMost_zero fun c hc => by rw [hc]; rfl
  have hchars : ∀ n p, (exactly n p).CountsAtMost (fun c => !isWhitespace c) n := fun n p =>
    countsAtMost_chars _ p n n
  have hdep := ((hchars 1 (· == '2')).seq (hchars 1 (· == 'A'))).alt
    (((hchars 1 (· == '2')).seq (hchars 1 (· == 'B'))).alt (hchars 2 u.isDigit))
  exact (hchars 1 _).seq (hspace.seq ((hchars 2 _).seq (hspace.seq ((hchars 2 _).seq
    (hspace.seq (hdep.seq (hspace.seq ((hchars 3 _).seq (hspace.seq ((hchars 3 _).seq
      (hspace.seq (hchars 2 _))))))))))))

/-- It has one letter, in the number of Corsica. -/
theorem reFrNir_uppers : (reFrNir u).shape.CountsAtMost isUpper 1 := by
  have hspace : (optional isWhitespace).CountsAtMost isUpper 0 := by
    refine countsAtMost_zero fun c hc => ?_
    rw [← Bool.not_eq_true]
    intro hupper
    have hrange := inRange_iff.mp hupper
    have hA : 'A'.toNat = 65 := rfl
    have hZ : 'Z'.toNat = 90 := rfl
    unfold isWhitespace at hc
    simp only [Bool.or_eq_true, Bool.and_eq_true, decide_eq_true_eq, beq_iff_eq] at hc
    omega
  have hdigits : ∀ n, (exactly n u.isDigit).CountsAtMost isUpper 0 := fun n =>
    countsAtMost_zero fun c hc => not_upper_of_digit u hc
  have hfirst : (one (inRange '1' '3')).CountsAtMost isUpper 0 := by
    refine countsAtMost_zero fun c hc => ?_
    rw [← Bool.not_eq_true]
    intro hupper
    have hrange := inRange_iff.mp hc
    have hrange' := inRange_iff.mp hupper
    have h3 : '3'.toNat = 51 := rfl
    have hA : 'A'.toNat = 65 := rfl
    omega
  have htwo : (lit '2').CountsAtMost isUpper 0 :=
    countsAtMost_zero fun c hc => by rw [beq_iff_eq.mp hc]; rfl
  have hletter : ∀ c, (lit c).CountsAtMost isUpper 1 := fun c => countsAtMost_chars _ _ 1 1
  have hdep := (htwo.seq (hletter 'A')).alt ((htwo.seq (hletter 'B')).alt
    (fun w hw => Nat.le_trans (hdigits 2 w hw) (Nat.zero_le 1)))
  exact hfirst.seq (hspace.seq ((hdigits 2).seq (hspace.seq ((hdigits 2).seq
    (hspace.seq (hdep.seq (hspace.seq ((hdigits 3).seq (hspace.seq ((hdigits 3).seq
      (hspace.seq (hdigits 2))))))))))))

theorem reFrNir_endsIn : (reFrNir u).shape.EndsIn fun c => u.isDigit c = true := by
  have hlast : (exactly 2 u.isDigit).EndsIn fun c => u.isDigit c = true :=
    endsIn_chars (by decide) fun _ hc => hc
  exact .seq _ (.seq _ (.seq _ (.seq _ (.seq _ (.seq _ (.seq _ (.seq _ (.seq _ (.seq _ (.seq _
    (.seq _ hlast)))))))))))

/-- **One candidate** begins at a position: it ends with its fifteenth character. -/
theorem nir_unique {w rest w' rest' : List Char} (hw : (reFrNir u).shape.Denotes w)
    (hw' : (reFrNir u).shape.Denotes w') (h : w ++ rest = w' ++ rest') : w = w' := by
  have hextends : ∀ {w x : List Char}, (reFrNir u).shape.Denotes w →
      (reFrNir u).shape.Denotes (w ++ x) → x = [] := by
    intro w x hw hwx
    by_contra hne
    have hmost := reFrNir_countsAtMost u _ hwx
    have hleast := reFrNir_counts u w hw
    obtain ⟨c, hlast, hc⟩ := reFrNir_endsIn u _ hwx
    have hmem : c ∈ x := by
      rw [List.getLast?_append] at hlast
      cases hx : x.getLast? with
      | none => exact absurd (List.getLast?_eq_none_iff.mp hx) hne
      | some d =>
          rw [hx] at hlast
          cases hlast
          exact List.mem_of_getLast? hx
    have hspace := u.not_space_of_word c (u.word_of_digit c hc)
    have hpos : 0 < (x.filter fun c => !isWhitespace c).length :=
      List.length_pos_of_mem (List.mem_filter.mpr ⟨hmem, by rw [hspace]; rfl⟩)
    rw [List.filter_append, List.length_append] at hmost
    omega
  rcases List.append_eq_append_iff.mp h with ⟨x, rfl, -⟩ | ⟨x, rfl, -⟩
  · rw [hextends hw hw', List.append_nil]
  · rw [hextends hw' hw, List.append_nil]

/-! ## What can begin inside a number -/

/-- The characters of a number. -/
theorem reFrNir_within :
    (reFrNir u).shape.Within fun c => c ≠ '+' ∧ (u.isWord c = true ∨ isWhitespace c = true) := by
  have hword : ∀ c, c ≠ '+' → u.isWord c = true →
      c ≠ '+' ∧ (u.isWord c = true ∨ isWhitespace c = true) := fun c hne h => ⟨hne, Or.inl h⟩
  have hdigit : ∀ c, u.isDigit c = true →
      c ≠ '+' ∧ (u.isWord c = true ∨ isWhitespace c = true) := by
    intro c hc
    refine hword c ?_ (u.word_of_digit c hc)
    rintro rfl
    rw [u.digit_ascii _ (by decide)] at hc
    cases hc
  have hspace : ∀ c, isWhitespace c = true →
      c ≠ '+' ∧ (u.isWord c = true ∨ isWhitespace c = true) := by
    intro c hc
    refine ⟨?_, Or.inr hc⟩
    rintro rfl
    cases hc
  have hlit : ∀ x : Char, x ≠ '+' → x.toNat < 128 → isAlnum x = true → (lit x).Within fun c =>
      c ≠ '+' ∧ (u.isWord c = true ∨ isWhitespace c = true) := by
    intro x hne hascii halnum c hc
    rw [beq_iff_eq.mp hc]
    refine hword x hne ?_
    rw [u.word_ascii x hascii, halnum]
    rfl
  have hfirst : ∀ c, inRange '1' '3' c = true →
      c ≠ '+' ∧ (u.isWord c = true ∨ isWhitespace c = true) := by
    intro c hc
    have hrange := inRange_iff.mp hc
    have h1 : '1'.toNat = 49 := rfl
    have h3 : '3'.toNat = 51 := rfl
    apply hdigit
    rw [u.digit_ascii c (by omega)]
    refine inRange_iff.mpr ⟨?_, ?_⟩
    · exact Nat.le_trans (by decide) hrange.1
    · exact Nat.le_trans hrange.2 (by decide)
  exact ⟨hfirst, hspace, hdigit, hspace, hdigit, hspace,
    ⟨⟨hlit '2' (by decide) (by decide) rfl, hlit 'A' (by decide) (by decide) rfl⟩,
      ⟨hlit '2' (by decide) (by decide) rfl, hlit 'B' (by decide) (by decide) rfl⟩, hdigit⟩,
    hspace, hdigit, hspace, hdigit, hspace, hdigit⟩

include u in
theorem not_space_of_alnum {c : Char} (hc : isAlnum c = true) : isWhitespace c = false := by
  have hrange := isAlnum_iff.mp hc
  refine u.not_space_of_word c ?_
  rw [u.word_ascii c (by omega), hc]
  rfl

theorem alnum_of_hex {c : Char} (hc : isHex c = true) : isAlnum c = true := by
  have hF : 'F'.toNat ≤ 90 := by decide
  have hf : 'f'.toNat ≤ 122 := by decide
  unfold isHex at hc
  rw [Bool.or_eq_true, Bool.or_eq_true] at hc
  rw [isAlnum_iff]
  rcases hc with (hc | hc) | hc
  · exact Or.inr (Or.inr (inRange_iff.mp hc))
  · have hrange := inRange_iff.mp hc
    exact Or.inl ⟨hrange.1, hrange.2.trans hF⟩
  · have hrange := inRange_iff.mp hc
    exact Or.inr (Or.inl ⟨hrange.1, hrange.2.trans hf⟩)

/-- Nothing but a number has spaces in it. -/
theorem detector_no_space {d : Detector} (hd : d ∈ detectors u) (hkind : d.kind ≠ .nir) :
    d.pattern.shape.Within fun c => isWhitespace c = false := by
  have hdigit : ∀ c, u.isDigit c = true → isWhitespace c = false := fun c hc =>
    u.not_space_of_word c (u.word_of_digit c hc)
  have hascii : ∀ c, isAlnum c = true → isWhitespace c = false := fun c => not_space_of_alnum u
  have hupper : ∀ c, isUpper c = true → isWhitespace c = false := fun c hc =>
    hascii c (by simp [isAlnum, isAlpha, hc])
  have halpha : ∀ c, isAlpha c = true → isWhitespace c = false := fun c hc =>
    hascii c (by simp [isAlnum, hc])
  have hmember : ∀ (cs : List Char), (cs.all fun c => !isWhitespace c) = true →
      ∀ c, (isAlnum c || cs.contains c) = true → isWhitespace c = false := by
    intro cs hcs c hc
    rcases Bool.or_eq_true_iff.mp hc with hc | hc
    · exact hascii c hc
    · have hall := List.all_eq_true.mp hcs c (List.contains_iff_mem.mp hc)
      exact (Bool.not_eq_true' _).mp hall
  have hhex : ∀ c, isHex c = true → isWhitespace c = false := fun c hc =>
    hascii c (alnum_of_hex hc)
  have hlit : ∀ x, isWhitespace x = false → (lit x).Within fun c => isWhitespace c = false := by
    intro x hx c hc
    rw [beq_iff_eq.mp hc]
    exact hx
  simp only [detectors, List.mem_cons, List.not_mem_nil, or_false] at hd
  rcases hd with rfl | rfl | rfl | rfl | rfl
  · exact absurd rfl hkind
  · refine ⟨hupper, hdigit, fun c hc => ?_⟩
    rcases Bool.or_eq_true_iff.mp hc with hc | hc
    · exact hupper c hc
    · exact hascii c (by simp [isAlnum, hc])
  · refine ⟨hlit '+' rfl, fun c hc => ?_, hdigit⟩
    have hrange := inRange_iff.mp hc
    exact hascii c (isAlnum_iff.mpr (Or.inr (Or.inr ⟨Nat.le_trans (by decide) hrange.1, hrange.2⟩)))
  · exact ⟨hmember _ (by decide), hlit '@' rfl, hmember _ (by decide), hlit '.' rfl, halpha⟩
  · exact ⟨hhex, hlit '-' rfl, hhex, hlit '-' rfl, hhex, hlit '-' rfl, hhex, hlit '-' rfl, hhex⟩

/-! ## Numbers that are passed over -/

/-- Something the scan takes for a number, with the right key or not. -/
def Candidate (text : List Char) (ok : Bool) (pre' w' : List Char) : Prop :=
  ∃ rest', text = pre' ++ (w' ++ rest') ∧
    (reFrNir u).TakenFrom (wordBoundary u) text 0 ⟨pre'.length, w'.length⟩ ∧
    isValidNir w' = some ok

/-- The pattern has an occurrence that begins inside the stretch `w`. -/
def BeginsIn (P : Pattern Char) (pre w rest : List Char) : Prop :=
  ∃ x y w' rest', w = x ++ y ∧ y ≠ [] ∧ y ++ rest = w' ++ rest' ∧
    P.Stands (wordBoundary u) (pre ++ x).getLast? w' rest'

/-- A candidate with a wrong key begins before the number and runs into it, and nothing that is
emitted begins inside the number. -/
structure Shadowed (pre w rest : List Char) : Prop where
  runInto : ∃ pre' w', Candidate u (pre ++ (w ++ rest)) false pre' w' ∧
    pre'.length < pre.length ∧ pre.length < pre'.length + w'.length
  noNumber : ∀ x y w', w = x ++ y → y ≠ [] →
    ¬Candidate u (pre ++ (w ++ rest)) true (pre ++ x) w'
  noEmail : ¬BeginsIn u reEmail pre w rest
  noUuid : ¬BeginsIn u reUuid pre w rest

/-- Of two prefixes of a text the one with fewer bytes is the shorter one. -/
theorem length_lt_of_utf8Len {a b r r' : List Char} (h : a ++ r = b ++ r')
    (hlt : utf8Len a < utf8Len b) : a.length < b.length := by
  rcases List.append_eq_append_iff.mp h with ⟨c, rfl, -⟩ | ⟨c, rfl, -⟩
  · rw [utf8Len_append] at hlt
    rw [List.length_append]
    have hpos : c ≠ [] := by
      rintro rfl
      exact absurd hlt (Nat.lt_irrefl _)
    exact Nat.lt_add_of_pos_right (List.length_pos_iff.mpr hpos)
  · rw [utf8Len_append] at hlt
    omega

theorem utf8Len_lt_of_length {a b r r' : List Char} (h : a ++ r = b ++ r')
    (hlt : a.length < b.length) : utf8Len a < utf8Len b := by
  rcases List.append_eq_append_iff.mp h with ⟨c, rfl, -⟩ | ⟨c, rfl, -⟩
  · rw [List.length_append] at hlt
    have hpos : 0 < utf8Len c := utf8Len_pos (List.length_pos_iff.mp (by omega))
    rw [utf8Len_append]
    omega
  · rw [List.length_append] at hlt
    omega

/-- Two stretches of a text overlap in bytes as they do in characters. -/
theorem overlap_iff {pre w rest pre' w' rest' : List Char}
    (h : pre ++ (w ++ rest) = pre' ++ (w' ++ rest')) :
    (utf8Len pre' < utf8Len pre + utf8Len w ∧ utf8Len pre < utf8Len pre' + utf8Len w') ↔
      (pre'.length < pre.length + w.length ∧ pre.length < pre'.length + w'.length) := by
  have hleft : pre' ++ (w' ++ rest') = (pre ++ w) ++ rest := by rw [← h, List.append_assoc]
  have hright : pre ++ (w ++ rest) = (pre' ++ w') ++ rest' := by rw [h, List.append_assoc]
  rw [← utf8Len_append, ← utf8Len_append, ← List.length_append, ← List.length_append]
  exact and_congr ⟨length_lt_of_utf8Len hleft, utf8Len_lt_of_length hleft⟩
    ⟨length_lt_of_utf8Len hright, utf8Len_lt_of_length hright⟩

section Number

variable {u} {pre w rest : List Char}

/-- A number that is run into comes after a space. -/
theorem space_before (h : (reFrNir u).Stands (wordBoundary u) pre.getLast? w rest)
    {pre' w' rest' : List Char} (htext : pre ++ (w ++ rest) = pre' ++ (w' ++ rest'))
    (h' : (reFrNir u).shape.Denotes w') (hlt : pre'.length < pre.length)
    (hin : pre.length < pre'.length + w'.length) :
    ∃ c, pre.getLast? = some c ∧ isWhitespace c = true := by
  obtain ⟨x, y, rfl, rfl, -, -⟩ := cut_inside htext (Nat.le_of_lt hlt) hin
  have hx : x ≠ [] := by
    rintro rfl
    simp at hlt
  obtain ⟨c, hlast, -, hc⟩ := getLast?_of_word hx
    (fun c hc => (reFrNir_within u).word h' c (List.mem_append_left y hc)) pre'
  refine ⟨c, hlast, hc.resolve_left fun hword => ?_⟩
  -- the first digit of the number is a word character, and no boundary would be before it
  have hopen := h.opens rfl
  obtain ⟨d, v, rfl, hd, -⟩ := h.denotes
  obtain ⟨e, rfl⟩ : ∃ e, d = [e] := List.length_eq_one_iff.mp
    (Nat.le_antisymm (hd.2.2 1 rfl) hd.2.1)
  have hrange := inRange_iff.mp (hd.1 e List.mem_cons_self)
  have h1 : '1'.toNat = 49 := rfl
  have h3 : '3'.toNat = 51 := rfl
  have he : u.isWord e = true := by
    rw [u.word_ascii e (by omega), Bool.or_eq_true, isAlnum_iff]
    omega
  have hnext : ∃ d, ([e] ++ v ++ rest).head? = some d ∧ u.isWord d = true := ⟨e, rfl, he⟩
  rw [not_boundary u ⟨c, hlast, hword⟩ hnext] at hopen
  cases hopen

/-- A word without spaces that reaches into what comes after a space begins there. -/
theorem begins_behind_space {w' : List Char} (hw' : ∀ c ∈ w', isWhitespace c = false)
    (hspace : ∃ c, pre.getLast? = some c ∧ isWhitespace c = true) {pre' rest' : List Char}
    (htext : pre ++ (w ++ rest) = pre' ++ (w' ++ rest')) (hin : pre.length < pre'.length + w'.length) :
    pre.length ≤ pre'.length := by
  by_contra hlt
  obtain ⟨x, y, rfl, rfl, -, -⟩ := cut_inside htext (by omega) hin
  have hx : x ≠ [] := by
    rintro rfl
    simp at hlt
  obtain ⟨c, hlast, hc⟩ := hspace
  obtain ⟨d, hlast', hd⟩ := getLast?_of_word hx
    (fun c hc => hw' c (List.mem_append_left y hc)) pre'
  rw [hlast] at hlast'
  cases hlast'
  rw [hc] at hd
  cases hd

/-- No account number and no phone number begins inside a number. -/
theorem not_begins_in (h : (reFrNir u).shape.Denotes w) :
    ¬BeginsIn u (reIban u) pre w rest ∧ ¬BeginsIn u (reE164 u) pre w rest := by
  constructor
  · rintro ⟨x, y, w', rest', rfl, hy, htail, hst⟩
    -- its two letters would be letters of the number
    obtain ⟨letters, v, rfl, hletters, -⟩ := hst.denotes
    obtain ⟨a, b, rfl⟩ : ∃ a b, letters = [a, b] := List.length_eq_two.mp
      (Nat.le_antisymm (hletters.2.2 2 rfl) hletters.2.1)
    have ha := hletters.1 a (by simp)
    have hb := hletters.1 b (by simp)
    obtain ⟨c, hlast, hc⟩ := reFrNir_endsIn u _ h
    match y, hy with
    | [d], _ =>
        obtain ⟨rfl, -⟩ := List.cons.inj htail
        rw [List.getLast?_concat] at hlast
        cases hlast
        rw [not_upper_of_digit u hc] at ha
        cases ha
    | d :: e :: y, _ =>
        obtain ⟨rfl, hrest⟩ := List.cons.inj htail
        obtain ⟨rfl, -⟩ := List.cons.inj hrest
        have hmost := reFrNir_uppers u _ h
        rw [List.filter_append, List.filter_cons_of_pos ha, List.filter_cons_of_pos hb] at hmost
        simp only [List.length_append, List.length_cons] at hmost
        omega
  · rintro ⟨x, y, w', rest', rfl, hy, htail, hst⟩
    obtain ⟨plus, v, rfl, hplus, -⟩ := hst.denotes
    obtain ⟨a, rfl⟩ : ∃ a, plus = [a] := List.length_eq_one_iff.mp
      (Nat.le_antisymm (hplus.2.2 1 rfl) hplus.2.1)
    obtain ⟨d, y, rfl⟩ := List.exists_cons_of_ne_nil hy
    obtain ⟨rfl, -⟩ := List.cons.inj htail
    have hd := hplus.1 d List.mem_cons_self
    exact ((reFrNir_within u).word h d (by simp)).1 (beq_iff_eq.mp hd)

/-- An accepted match that overlaps the number in the text. -/
theorem overlaps_of_accepted {spans : List Span}
    (hspans : ∀ s, s ∈ spans ↔ Emitted u (pre ++ (w ++ rest)) s) {d : Detector}
    (hd : d ∈ detectors u) {pre' w' rest' : List Char}
    (htext : pre ++ (w ++ rest) = pre' ++ (w' ++ rest'))
    (hm : (⟨pre'.length, w'.length⟩ : Pattern.Match) ∈
      d.pattern.findIter (wordBoundary u) (pre ++ (w ++ rest)))
    (hvalid : d.valid w' = some true) (hlt : pre'.length < pre.length + w.length)
    (hin : pre.length < pre'.length + w'.length) :
    ∃ s ∈ spans, s.start < utf8Len pre + utf8Len w ∧ utf8Len pre < s.stop :=
  ⟨⟨utf8Len pre', utf8Len pre' + utf8Len w', d.kind⟩,
    (hspans _).mpr ⟨d, hd, pre', w', rest', htext, hm, hvalid, rfl⟩,
    (overlap_iff htext).mpr ⟨hlt, hin⟩⟩

/-- A pattern without a validator that has an occurrence inside the number has a match there. -/
theorem overlaps_of_begins_in {spans : List Span}
    (hspans : ∀ s, s ∈ spans ↔ Emitted u (pre ++ (w ++ rest)) s) {d : Detector}
    (hd : d ∈ detectors u) (hvalid : ∀ w, d.valid w = some true)
    (h : BeginsIn u d.pattern pre w rest) :
    ∃ s ∈ spans, s.start < utf8Len pre + utf8Len w ∧ utf8Len pre < s.stop := by
  obtain ⟨x, y, w', rest', rfl, hy, htail, hst⟩ := h
  obtain ⟨m, hm, hle, hlt⟩ := Pattern.findIter_covers (minLength_pos u hd) hst
  have htext : pre ++ (x ++ y ++ rest) = pre ++ x ++ (w' ++ rest') := by
    rw [← htail, List.append_assoc, List.append_assoc]
  rw [← htext] at hm
  obtain ⟨pre₂, w₂, rest₂, htext₂, rfl, -⟩ := Pattern.findIter_sound hm
  have hpos := List.length_pos_iff.mpr hy
  rw [List.length_append] at hle hlt
  dsimp only at hle hlt
  refine overlaps_of_accepted hspans hd htext₂ hm (hvalid w₂) ?_ (by omega)
  rw [List.length_append]
  omega

theorem mem_findIter_nir {text : List Char} {m : Pattern.Match} :
    m ∈ (reFrNir u).findIter (wordBoundary u) text ↔
      (reFrNir u).TakenFrom (wordBoundary u) text 0 m :=
  Pattern.mem_findIter_iff (minLength_pos u (List.mem_cons_self :
    (⟨.nir, reFrNir u, isValidNir⟩ : Detector) ∈ detectors u))

/-- Two candidates that run into the same number are one, and have one key. -/
theorem candidates_differ {text pre' w' pre'' w'' : List Char} {n : Nat}
    (h : Candidate u text false pre' w') (h' : Candidate u text true pre'' w'')
    (hlt : pre'.length < n) (hin : n < pre'.length + w'.length) (hlt' : pre''.length < n)
    (hin' : n < pre''.length + w''.length) : False := by
  obtain ⟨rest', htext, htaken, hwrong⟩ := h
  obtain ⟨rest'', htext', htaken', hok⟩ := h'
  rcases htaken.apart htaken' with hsame | hapart | hapart
  · obtain ⟨hlen, hlen'⟩ := Pattern.Match.mk.inj hsame
    obtain ⟨rfl, htail⟩ := List.append_inj (htext.symm.trans htext') hlen
    obtain ⟨rfl, -⟩ := List.append_inj htail hlen'
    cases hwrong.symm.trans hok
  · dsimp only at hapart
    omega
  · dsimp only at hapart
    omega

/-- What is emitted and overlaps the number begins inside it, or the number is not run into. -/
theorem not_shadowed_of_match (h : (reFrNir u).Stands (wordBoundary u) pre.getLast? w rest)
    {d : Detector} (hd : d ∈ detectors u) {pre' w' rest' : List Char}
    (htext : pre ++ (w ++ rest) = pre' ++ (w' ++ rest'))
    (hm : (⟨pre'.length, w'.length⟩ : Pattern.Match) ∈
      d.pattern.findIter (wordBoundary u) (pre ++ (w ++ rest)))
    (hok : d.valid w' = some true)
    (hoverlap : pre'.length < pre.length + w.length ∧ pre.length < pre'.length + w'.length) :
    ¬Shadowed u pre w rest := by
  rintro ⟨⟨pre₂, w₂, ⟨rest₂, htext₂, htaken, hwrong⟩, hlt, hin⟩, hnumber, hemail, huuid⟩
  obtain ⟨pre₃, w₃, rest₃, htext₃, hmatch, hst⟩ := Pattern.findIter_sound hm
  obtain ⟨hlen, hlen'⟩ := Pattern.Match.mk.inj hmatch
  obtain ⟨rfl, htail⟩ := List.append_inj (htext.symm.trans htext₃) hlen
  obtain ⟨rfl, rfl⟩ := List.append_inj htail hlen'
  -- inside the number, the match begins with a part of it
  have hinside : pre.length ≤ pre'.length → ∃ x y, w = x ++ y ∧ y ≠ [] ∧ pre' = pre ++ x ∧
      y ++ rest = w' ++ rest' := by
    intro hle
    obtain ⟨x, y, hx, hw, hy, hrest⟩ := cut_inside htext.symm hle hoverlap.1
    exact ⟨x, y, hw, hy, hx, hrest.symm⟩
  have hbegins : pre.length ≤ pre'.length → BeginsIn u d.pattern pre w rest := by
    intro hle
    obtain ⟨x, y, hw, hy, rfl, hrest⟩ := hinside hle
    exact ⟨x, y, w', rest', hw, hy, hrest, hst⟩
  have hbehind : d.kind ≠ .nir → pre.length ≤ pre'.length := by
    intro hkind
    obtain ⟨pre₄, w₄, rest₄, htext₄, hmatch₄, hst₄⟩ :=
      Pattern.findIter_sound (mem_findIter_nir.mpr htaken)
    obtain ⟨hlen₄, hlen₄'⟩ := Pattern.Match.mk.inj hmatch₄
    rw [hlen₄] at hlt hin
    rw [hlen₄'] at hin
    exact begins_behind_space ((detector_no_space u hd hkind).word hst.denotes)
      (space_before h htext₄ hst₄.denotes hlt hin) htext hoverlap.2
  simp only [detectors, List.mem_cons, List.not_mem_nil, or_false] at hd
  rcases hd with rfl | rfl | rfl | rfl | rfl
  · rcases Nat.lt_or_ge pre'.length pre.length with hbefore | hle
    · exact candidates_differ ⟨rest₂, htext₂, htaken, hwrong⟩
        ⟨rest', htext, mem_findIter_nir.mp hm, hok⟩ hlt hin hbefore hoverlap.2
    · obtain ⟨x, y, hw, hy, rfl, -⟩ := hinside hle
      exact hnumber x y w' hw hy ⟨rest', htext, mem_findIter_nir.mp hm, hok⟩
  · exact (not_begins_in h.denotes).1 (hbegins (hbehind (by simp)))
  · exact (not_begins_in h.denotes).2 (hbegins (hbehind (by simp)))
  · exact hemail (hbegins (hbehind (by simp)))
  · exact huuid (hbegins (hbehind (by simp)))

section Uncovered

variable {spans : List Span} (hspans : ∀ s, s ∈ spans ↔ Emitted u (pre ++ (w ++ rest)) s)
  (hnone : ¬∃ s ∈ spans, s.start < utf8Len pre + utf8Len w ∧ utf8Len pre < s.stop)
include hspans hnone

/-- The candidate that covers the first digit of the number is another one, with a wrong key. -/
theorem run_into_of_uncovered (h : (reFrNir u).Stands (wordBoundary u) pre.getLast? w rest)
    (hvalid : isValidNir w = some true) :
    ∃ pre' w', Candidate u (pre ++ (w ++ rest)) false pre' w' ∧ pre'.length < pre.length ∧
      pre.length < pre'.length + w'.length := by
  have hnir : (⟨.nir, reFrNir u, isValidNir⟩ : Detector) ∈ detectors u := List.mem_cons_self
  obtain ⟨m, hm, hle, hlt⟩ := Pattern.findIter_covers (minLength_pos u hnir) h
  obtain ⟨pre', w', rest', htext, rfl, hst⟩ := Pattern.findIter_sound hm
  dsimp only at hle hlt
  obtain ⟨ok, hok⟩ := Option.isSome_iff_exists.mp (valid_isSome u hnir hst.denotes)
  have hwrong : ok = false := by
    by_contra htrue
    rw [Bool.not_eq_false] at htrue
    subst htrue
    have hpos := minLength_pos u hnir
    have hlen := minLength_le h.denotes
    dsimp only at hpos
    exact hnone (overlaps_of_accepted hspans hnir htext hm hok (by omega) hlt)
  subst hwrong
  refine ⟨pre', w', ⟨rest', htext, mem_findIter_nir.mp hm, hok⟩, ?_, hlt⟩
  refine Nat.lt_of_le_of_ne hle fun hsame => ?_
  obtain ⟨rfl, htail⟩ := List.append_inj htext hsame.symm
  have hw := nir_unique u h.denotes hst.denotes htail
  subst hw
  cases hvalid.symm.trans hok

theorem no_number_of_uncovered {x y w' : List Char} (hw : w = x ++ y) (hy : y ≠ []) :
    ¬Candidate u (pre ++ (w ++ rest)) true (pre ++ x) w' := by
  rintro ⟨rest', htext, htaken, hok⟩
  have hnir : (⟨.nir, reFrNir u, isValidNir⟩ : Detector) ∈ detectors u := List.mem_cons_self
  have hone := minLength_pos u hnir
  have hpos := List.length_pos_iff.mpr hy
  obtain ⟨pre₂, w₂, rest₂, -, hmatch, hst⟩ := Pattern.findIter_sound (mem_findIter_nir.mpr htaken)
  have hlen := minLength_le hst.denotes
  have hw' := congrArg Pattern.Match.length hmatch
  have hlength := congrArg List.length hw
  dsimp only at hone hw'
  rw [List.length_append] at hlength
  apply hnone
  refine overlaps_of_accepted hspans hnir htext (mem_findIter_nir.mpr htaken) hok ?_ ?_
  · rw [List.length_append]
    omega
  · rw [List.length_append]
    omega

end Uncovered

/-- **When a span overlaps a number**: unless it is shadowed. -/
theorem nir_covered_iff (h : (reFrNir u).Stands (wordBoundary u) pre.getLast? w rest)
    (hvalid : isValidNir w = some true) : ∃ spans, scan u (pre ++ (w ++ rest)) = some spans ∧
      ((∃ s ∈ spans, s.start < utf8Len pre + utf8Len w ∧ utf8Len pre < s.stop) ↔
        ¬Shadowed u pre w rest) := by
  obtain ⟨spans, hscan, hspans⟩ := scan_spans u (pre ++ (w ++ rest))
  refine ⟨spans, hscan, ?_, fun hno => ?_⟩
  · rintro ⟨s, hs, hoverlap⟩ hshadowed
    obtain ⟨d, hd, pre', w', rest', htext, hm, hok, rfl⟩ := (hspans s).mp hs
    exact not_shadowed_of_match h hd htext hm hok (overlap_iff htext |>.mp hoverlap) hshadowed
  · by_contra hnone
    have hemail : (⟨.email, reEmail, fun _ => some true⟩ : Detector) ∈ detectors u := by
      simp [detectors]
    have huuid : (⟨.uuid, reUuid, fun _ => some true⟩ : Detector) ∈ detectors u := by
      simp [detectors]
    exact hno
      { runInto := run_into_of_uncovered hspans hnone h hvalid
        noNumber := fun x y w' hw hy => no_number_of_uncovered hspans hnone hw hy
        noEmail := fun hbegins =>
          hnone (overlaps_of_begins_in hspans hemail (fun _ => rfl) hbegins)
        noUuid := fun hbegins =>
          hnone (overlaps_of_begins_in hspans huuid (fun _ => rfl) hbegins) }

end Number

/-! ## A postcode before a number -/

/-- Fifteen digits, the last two of them the key. -/
def sampleNir : List Char := "1851275108 11110".toList

/-- With the first ten digits of the number, five digits before it make a candidate. -/
def postcode : List Char := "12000 ".toList

theorem sampleNir_stands {pre : List Char}
    (hpre : wordBoundary asciiClasses pre.getLast? (some '1') = true) :
    (reFrNir asciiClasses).Stands (wordBoundary asciiClasses) pre.getLast? sampleNir [] := by
  have hsplit : (sampleNir, []) ∈ (reFrNir asciiClasses).shape.splits sampleNir := by
    decide +kernel
  have hlast : sampleNir.getLast? = some '0' := by decide +kernel
  refine ⟨((mem_splits_iff _).mp hsplit).2, fun _ => hpre, fun _ => ?_⟩
  unfold Pattern.lastOr
  rw [hlast]
  rfl

theorem sampleNir_valid : isValidNir sampleNir = some true := by decide +kernel

/-- On its own it is found: nothing before it can run into it. -/
theorem sampleNir_covered : ∃ spans, scan asciiClasses ([] ++ (sampleNir ++ [])) = some spans ∧
    ∃ s ∈ spans, s.start < utf8Len [] + utf8Len sampleNir ∧ utf8Len [] < s.stop := by
  obtain ⟨spans, hscan, hcovered⟩ :=
    @nir_covered_iff asciiClasses [] sampleNir [] (sampleNir_stands rfl) sampleNir_valid
  refine ⟨spans, hscan, hcovered.mpr ?_⟩
  rintro ⟨⟨pre', w', -, hlt, -⟩, -⟩
  exact absurd hlt (Nat.not_lt_zero _)

theorem postcode_shadows : ¬∀ (u : UnicodeClasses) (pre w rest : List Char),
    (reFrNir u).Stands (wordBoundary u) pre.getLast? w rest → isValidNir w = some true →
      ∃ spans, scan u (pre ++ (w ++ rest)) = some spans ∧
        ∃ s ∈ spans, s.start < utf8Len pre + utf8Len w ∧ utf8Len pre < s.stop := by
  intro h
  have hnothing : scan asciiClasses (postcode ++ (sampleNir ++ [])) = some [] := by decide +kernel
  obtain ⟨spans, hscan, s, hs, -⟩ :=
    h asciiClasses postcode sampleNir [] (sampleNir_stands rfl) sampleNir_valid
  rw [hnothing] at hscan
  cases hscan
  cases hs

end McpGateway.Sanitize
