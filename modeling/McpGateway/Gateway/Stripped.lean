import McpGateway.Gateway.Aspects

/-! # What `QueryGuard` lets through

The reject tier reads the query as it came, and only then are the tags taken out. A match in what is
left was there before, unless a tag stood in the way of it: inside the match or where one of its
assertions looks. -/

namespace McpGateway.Gateway

open Foundation Foundation.Act

/-! ## Taking out the tags -/

/-- A code point in U+E0000..U+E007F. -/
def IsTag (t : JString) : Prop := ∃ low, t = [0xDB40, low] ∧ inRange 0xDC00 0xDC7F low = true

theorem IsTag.length {t : JString} (h : IsTag t) : t.length = 2 := by
  obtain ⟨low, rfl, -⟩ := h
  rfl

theorem matches_unicodeTags {x m y : JString} : unicodeTags.Matches x m y ↔ IsTag m := by
  unfold unicodeTags IsTag
  rw [Regex.matches_seq]
  constructor
  · rintro ⟨m₁, m₂, rfl, h₁, h₂⟩
    obtain ⟨high, rfl, hhigh⟩ := Regex.matches_one.mp h₁
    obtain ⟨low, rfl, hlow⟩ := Regex.matches_one.mp h₂
    exact ⟨low, by rw [beq_iff_eq.mp hhigh]; rfl, hlow⟩
  · rintro ⟨low, rfl, hlow⟩
    exact ⟨[0xDB40], [low], rfl, Regex.matches_one.mpr ⟨_, rfl, rfl⟩,
      Regex.matches_one.mpr ⟨_, rfl, hlow⟩⟩

/-- The unit and the next one are not a tag. -/
def NoTagAt (u : UInt16) (rest : JString) : Prop :=
  ∀ low, rest.head? = some low → ¬(u = 0xDB40 ∧ inRange 0xDC00 0xDC7F low = true)

theorem NoTagAt.left {u : UInt16} {a b : JString} (h : NoTagAt u (a ++ b)) : NoTagAt u a := by
  intro low hlow
  apply h low
  rw [List.head?_append, hlow]
  rfl

theorem stripUnicodeTags_cons {u : UInt16} {rest : JString} (h : NoTagAt u rest) :
    stripUnicodeTags (u :: rest) = u :: stripUnicodeTags rest := by
  cases rest with
  | nil => rfl
  | cons low rest =>
      have hno : (u == 0xDB40 && inRange 0xDC00 0xDC7F low) = false := by
        simpa using h low rfl
      rw [stripUnicodeTags, if_neg (by simp [hno])]

theorem stripUnicodeTags_tag {t : JString} (ht : IsTag t) (b : JString) :
    stripUnicodeTags (t ++ b) = stripUnicodeTags b := by
  obtain ⟨low, rfl, hlow⟩ := ht
  simp [stripUnicodeTags, hlow]

/-- A tag leaves nothing, and what is before and after it is stripped separately. -/
theorem stripUnicodeTags_append_tag (a : JString) {t : JString} (ht : IsTag t) (b : JString) :
    stripUnicodeTags (a ++ t ++ b) = stripUnicodeTags a ++ stripUnicodeTags b := by
  fun_induction stripUnicodeTags a with
  | case1 => exact stripUnicodeTags_tag ht b
  | case2 u =>
      obtain ⟨low, rfl, hlow⟩ := id ht
      have hno : NoTagAt u ([0xDB40, low] ++ b) := by
        rintro low' hlow' ⟨-, hrange⟩
        cases hlow'
        revert hrange
        decide
      rw [List.append_assoc, List.singleton_append, stripUnicodeTags_cons hno,
        stripUnicodeTags_tag ht]
      rfl
  | case3 u v rest htag ih =>
      rw [Bool.and_eq_true, beq_iff_eq] at htag
      have hstrip := stripUnicodeTags_tag ⟨v, rfl, htag.2⟩ (rest ++ t ++ b)
      rw [htag.1]
      exact hstrip.trans ih
  | case4 u v rest htag ih =>
      have hno : NoTagAt u (v :: rest ++ t ++ b) := by
        rintro low hlow ⟨rfl, hrange⟩
        cases hlow
        exact htag (by simp [hrange])
      have hstrip := stripUnicodeTags_cons hno
      rw [ih] at hstrip
      exact hstrip

theorem stripUnicodeTags_length_le (s : JString) : (stripUnicodeTags s).length ≤ s.length := by
  fun_induction stripUnicodeTags s with
  | case1 => exact Nat.le_refl _
  | case2 u => exact Nat.le_refl _
  | case3 u v rest htag ih =>
      rw [List.length_cons, List.length_cons]
      omega
  | case4 u v rest htag ih =>
      rw [List.length_cons, List.length_cons (a := u)]
      omega

theorem find_tags_iff {s : JString} :
    unicodeTags.find s = true ↔ ∃ a t b, s = a ++ t ++ b ∧ IsTag t := by
  rw [Regex.find_iff]
  constructor
  · rintro ⟨x, m, y, hs, hm⟩
    exact ⟨x, m, y, hs, matches_unicodeTags.mp hm⟩
  · rintro ⟨a, t, b, hs, ht⟩
    exact ⟨a, t, b, hs, matches_unicodeTags.mpr ht⟩

theorem stripUnicodeTags_of_no_tag {s : JString} (h : unicodeTags.find s = false) :
    stripUnicodeTags s = s := by
  fun_induction stripUnicodeTags s with
  | case1 => rfl
  | case2 u => rfl
  | case3 u v rest htag ih =>
      rw [Bool.and_eq_true, beq_iff_eq] at htag
      have hfind : unicodeTags.find (u :: v :: rest) = true :=
        find_tags_iff.mpr ⟨[], [u, v], rest, rfl, v, by rw [htag.1], htag.2⟩
      rw [h] at hfind
      cases hfind
  | case4 u v rest htag ih =>
      rw [ih]
      by_contra hne
      obtain ⟨a, t, b, hrest, ht⟩ := find_tags_iff.mp (Bool.eq_true_of_not_eq_false hne)
      have hfind := find_tags_iff.mpr ⟨u :: a, t, b, congrArg (u :: ·) hrest, ht⟩
      rw [h] at hfind
      cases hfind

/-- What stays as it is has no tag. -/
theorem no_tag_of_stripUnicodeTags {s : JString} (h : stripUnicodeTags s = s) :
    unicodeTags.find s = false := by
  rw [← Bool.not_eq_true]
  intro hfind
  obtain ⟨a, t, b, rfl, ht⟩ := find_tags_iff.mp hfind
  have hlength := congrArg List.length h
  have ha := stripUnicodeTags_length_le a
  have hb := stripUnicodeTags_length_le b
  rw [stripUnicodeTags_append_tag a ht b] at hlength
  simp only [List.length_append, ht.length] at hlength
  omega

theorem sanitize_eq (raw : JString) : sanitize raw = stripUnicodeTags raw := by
  unfold sanitize
  cases h : unicodeTags.find raw with
  | true => rfl
  | false => exact (stripUnicodeTags_of_no_tag h).symm

/-! ## Where no tag was taken out -/

/-- No tag was taken out at an index of the stripped text from `i` to `j`. -/
def Intact (q : JString) (i j : Nat) : Prop :=
  ∀ a t b, q = a ++ t ++ b → IsTag t →
    ¬(i ≤ (stripUnicodeTags a).length ∧ (stripUnicodeTags a).length ≤ j)

theorem Intact.tail {c : UInt16} {q : JString} {i j i' j' : Nat} (h : Intact (c :: q) i j)
    (hno : NoTagAt c q) (hfrom : i ≤ i' + 1) (hto : j' + 1 ≤ j) : Intact q i' j' := by
  rintro a t b rfl ht ⟨hi, hj⟩
  apply h (c :: a) t b rfl ht
  rw [List.append_assoc] at hno
  rw [stripUnicodeTags_cons hno.left, List.length_cons]
  omega

theorem Intact.of_tag {t q : JString} {i j : Nat} (ht : IsTag t) (h : Intact (t ++ q) i j) :
    Intact q i j := by
  rintro a t' b rfl ht'
  have hseam := h (t ++ a) t' b (by simp) ht'
  rwa [stripUnicodeTags_tag ht] at hseam

/-- The stretch `w` of what is left, at the end of `u`, was the same in the query. -/
def Unbroken (q u w v : JString) : Prop :=
  ∃ a b, q = a ++ w ++ b ∧ stripUnicodeTags a = u ∧ a.getLast? = u.getLast? ∧ b.head? = v.head?

theorem unbroken_cons {c : UInt16} {q u w v : JString} (hno : NoTagAt c q)
    (h : stripUnicodeTags (c :: q) = u ++ w ++ v)
    (hintact : Intact (c :: q) u.length (u.length + w.length))
    (ih : ∀ u w, stripUnicodeTags q = u ++ w ++ v → Intact q u.length (u.length + w.length) →
      Unbroken q u w v) : Unbroken (c :: q) u w v := by
  rw [stripUnicodeTags_cons hno] at h
  -- the first unit is kept: it is in the stretch, or before it
  cases u with
  | nil =>
      cases w with
      | nil =>
          rw [List.nil_append, List.nil_append] at h
          refine ⟨[], c :: q, rfl, rfl, rfl, ?_⟩
          rw [← h]
          rfl
      | cons d w =>
          obtain ⟨rfl, htail⟩ := List.cons.inj h
          rw [List.length_cons, List.length_nil, Nat.zero_add] at hintact
          have hrest : Intact q 0 (0 + w.length) :=
            hintact.tail hno (Nat.zero_le _) (by omega)
          obtain ⟨a, b, rfl, -, hlast, hhead⟩ := ih [] w htail hrest
          have ha : a = [] := List.getLast?_eq_none_iff.mp hlast
          subst ha
          exact ⟨[], b, rfl, rfl, rfl, hhead⟩
  | cons d u =>
      obtain ⟨rfl, htail⟩ := List.cons.inj h
      rw [List.length_cons] at hintact
      have hrest : Intact q u.length (u.length + w.length) :=
        hintact.tail hno (Nat.le_refl _) (by omega)
      obtain ⟨a, b, rfl, hstrip, hlast, hhead⟩ := ih u w htail hrest
      refine ⟨c :: a, b, rfl, ?_, ?_, hhead⟩
      · rw [List.append_assoc] at hno
        rw [stripUnicodeTags_cons hno.left, hstrip]
      · rw [List.getLast?_cons, List.getLast?_cons, hlast]

theorem unbroken_of_intact {q u w v : JString} (h : stripUnicodeTags q = u ++ w ++ v)
    (hintact : Intact q u.length (u.length + w.length)) : Unbroken q u w v := by
  fun_induction stripUnicodeTags q generalizing u w with
  | case1 =>
      obtain ⟨huw, rfl⟩ := List.append_eq_nil_iff.mp h.symm
      obtain ⟨rfl, rfl⟩ := List.append_eq_nil_iff.mp huw
      exact ⟨[], [], rfl, rfl, rfl, rfl⟩
  | case2 c =>
      have hno : NoTagAt c [] := fun low hlow => by cases hlow
      refine unbroken_cons hno h hintact fun u w hnil _ => ?_
      obtain ⟨huw, rfl⟩ := List.append_eq_nil_iff.mp hnil.symm
      obtain ⟨rfl, rfl⟩ := List.append_eq_nil_iff.mp huw
      exact ⟨[], [], rfl, rfl, rfl, rfl⟩
  | case3 c d rest htag ih =>
      rw [Bool.and_eq_true, beq_iff_eq] at htag
      have ht : IsTag [c, d] := ⟨d, by rw [htag.1], htag.2⟩
      obtain ⟨a, b, rfl, rfl, hlast, hhead⟩ := ih h (hintact.of_tag ht)
      refine ⟨c :: d :: a, b, rfl, stripUnicodeTags_tag ht a, ?_, hhead⟩
      cases a with
      | nil => exact absurd ⟨Nat.le_refl _, Nat.zero_le _⟩ (hintact [] [c, d] _ rfl ht)
      | cons e a => exact hlast
  | case4 c d rest htag ih =>
      have hno : NoTagAt c (d :: rest) := by
        rintro low hlow ⟨rfl, hrange⟩
        cases hlow
        exact htag (by simp [hrange])
      rw [← stripUnicodeTags_cons hno] at h
      exact unbroken_cons hno h hintact fun u w => ih

/-! ## What assertions look at -/

/-- How many units `hasBaseCharacter` reads. -/
def readBack (p : Platform) : (units after : JString) → Nat
  | [], _ => 0
  | u :: before, after =>
      if p.isNonSpacingMark (codePointAt (u :: after)) then readBack p before (u :: after) + 1 else 1

section Assertions

variable {p : Platform}

theorem readBack_le (units after : JString) : readBack p units after ≤ units.length := by
  fun_induction readBack p units after with
  | case1 after => exact Nat.le_refl _
  | case2 u before after hmark ih => exact Nat.succ_le_succ ih
  | case3 u before after hmark => exact Nat.succ_le_succ (Nat.zero_le _)

theorem readBack_cons_le (u : UInt16) (before after : JString) :
    readBack p (u :: before) after ≤ readBack p before (u :: after) + 1 := by
  rw [readBack]
  split
  · exact Nat.le_refl _
  · exact Nat.succ_le_succ (Nat.zero_le _)

theorem readBack_append_le (l before after : JString) :
    readBack p (l ++ before) after ≤ l.length + readBack p before (l.reverse ++ after) := by
  induction l generalizing after with
  | nil => simp
  | cons u l ih =>
      have hstep := readBack_cons_le (p := p) u (l ++ before) after
      have hrest := ih (u :: after)
      rw [List.reverse_cons, List.append_assoc, List.length_cons]
      simp only [List.cons_append, List.nil_append]
      omega

theorem eq_nil_of_readBack {units after : JString} (h : readBack p units after ≤ 0) :
    units = [] := by
  cases units with
  | nil => rfl
  | cons u before =>
      rw [readBack] at h
      split at h <;> cases h

/-- Two positions of which no assertion can tell one from the other: the units ahead are the same as
far as a code point goes, and those behind as far as `\b` reads and one further. -/
structure SameView (p : Platform) (pos pos' : Position UInt16) : Prop where
  behind : ∃ r c c', pos.1 = r ++ c ∧ pos'.1 = r ++ c' ∧ c.head? = c'.head? ∧
    readBack p pos.1 pos.2 ≤ r.length
  ahead : pos.2.take 2 = pos'.2.take 2

theorem head?_eq_of_take {s s' : JString} (h : s.take 2 = s'.take 2) : s.head? = s'.head? := by
  have hhead := congrArg List.head? h
  rwa [List.head?_take, List.head?_take] at hhead

theorem codePointAt_take (s : JString) : codePointAt (s.take 2) = codePointAt s := by
  match s with
  | [] => rfl
  | [_] => rfl
  | _ :: _ :: _ => rfl

theorem codePointBefore_take (s : JString) : codePointBefore (s.take 2) = codePointBefore s := by
  match s with
  | [] => rfl
  | [_] => rfl
  | _ :: _ :: _ => rfl

theorem codePointAt_congr {s s' : JString} (h : s.take 2 = s'.take 2) :
    codePointAt s = codePointAt s' := by
  rw [← codePointAt_take s, h, codePointAt_take]

theorem codePointBefore_congr {s s' : JString} (h : s.take 2 = s'.take 2) :
    codePointBefore s = codePointBefore s' := by
  rw [← codePointBefore_take s, h, codePointBefore_take]

/-- `codePointAt` looks no further than to the next unit. -/
theorem codePointAt_cons_congr {u : UInt16} {f f' : JString} (h : f.head? = f'.head?) :
    codePointAt (u :: f) = codePointAt (u :: f') := by
  apply codePointAt_congr
  rw [List.take_succ_cons, List.take_succ_cons, List.take_one, List.take_one, h]

/-- One base, whatever is before what was read. -/
theorem hasBaseCharacter_congr {r c c' f f' : JString} (hc : c.head? = c'.head?)
    (hf : f.head? = f'.head?) (hr : readBack p (r ++ c) f ≤ r.length) :
    hasBaseCharacter p (r ++ c) f = hasBaseCharacter p (r ++ c') f' := by
  induction r generalizing f f' with
  | nil =>
      obtain rfl := eq_nil_of_readBack hr
      obtain rfl := List.head?_eq_none_iff.mp hc.symm
      rfl
  | cons u r ih =>
      simp only [List.cons_append, hasBaseCharacter, codePointAt_cons_congr (u := u) hf]
      cases hmark : p.isNonSpacingMark (codePointAt (u :: f')) with
      | false => rfl
      | true =>
          have hmark' : p.isNonSpacingMark (codePointAt (u :: f)) = true := by
            rw [codePointAt_cons_congr hf, hmark]
          simp only [List.cons_append, readBack, if_pos hmark', List.length_cons] at hr
          have hrest := @ih (u :: f) (u :: f') rfl (Nat.le_of_succ_le_succ hr)
          rw [hrest]

/-! ## Matching in another place -/

theorem SameView.head_behind {pos pos' : Position UInt16} (h : SameView p pos pos') :
    pos.1.head? = pos'.1.head? := by
  obtain ⟨r, c, c', hpos, hpos', hc, -⟩ := h.behind
  rw [hpos, hpos', List.head?_append, List.head?_append, hc]

theorem SameView.take_behind {pos pos' : Position UInt16} (h : SameView p pos pos') :
    pos.1.take 2 = pos'.1.take 2 := by
  obtain ⟨r, c, c', hpos, hpos', hc, hr⟩ := h.behind
  rw [hpos] at hr
  rw [hpos, hpos']
  match r with
  | [] =>
      obtain rfl := eq_nil_of_readBack hr
      obtain rfl := List.head?_eq_none_iff.mp hc.symm
      rfl
  | [u] =>
      simp only [List.cons_append, List.nil_append, List.take_succ_cons, List.take_one, hc]
  | u :: v :: r => rfl

theorem SameView.hasBaseCharacter_eq {pos pos' : Position UInt16} (h : SameView p pos pos') :
    hasBaseCharacter p pos.1 pos.2 = hasBaseCharacter p pos'.1 pos'.2 := by
  obtain ⟨r, c, c', hpos, hpos', hc, hr⟩ := h.behind
  rw [hpos] at hr
  rw [hpos, hpos']
  exact hasBaseCharacter_congr hc (head?_eq_of_take h.ahead) hr

/-- The base of the mark that is next. -/
theorem SameView.hasBaseCharacter_next {before before' rest rest' : JString} {u : UInt16}
    (h : SameView p (before, u :: rest) (before', u :: rest')) :
    hasBaseCharacter p (u :: before) rest = hasBaseCharacter p (u :: before') rest' := by
  obtain ⟨r, c, c', hpos, hpos', hc, hr⟩ := h.behind
  dsimp only at hpos hpos' hr
  subst hpos hpos'
  have hrest : rest.head? = rest'.head? := by
    have hahead := h.ahead
    rw [List.take_succ_cons, List.take_succ_cons, List.cons_inj_right] at hahead
    have hhead := congrArg List.head? hahead
    rwa [List.head?_take, List.head?_take] at hhead
  apply hasBaseCharacter_congr (r := u :: r) hc hrest
  exact (readBack_cons_le u (r ++ c) rest).trans (Nat.succ_le_succ hr)

/-- Further on in what both have ahead, they still cannot be told apart. -/
theorem SameView.advance {before before' m y y' : JString}
    (h : SameView p (before, m ++ y) (before', m ++ y')) (hy : y.take 2 = y'.take 2) :
    SameView p (m.reverse ++ before, y) (m.reverse ++ before', y') where
  ahead := hy
  behind := by
    obtain ⟨r, c, c', hbefore, hbefore', hc, hr⟩ := h.behind
    dsimp only at hbefore hbefore' hr
    subst hbefore hbefore'
    refine ⟨m.reverse ++ r, c, c', (List.append_assoc ..).symm, (List.append_assoc ..).symm, hc, ?_⟩
    have hread := readBack_append_le (p := p) m.reverse (r ++ c) y
    rw [List.reverse_reverse] at hread
    rw [List.length_append]
    exact hread.trans (Nat.add_le_add_left hr _)

/-- What matches still does between other texts, if the assertions cannot tell. -/
def Local (p : Platform) (r : Regex UInt16) : Prop :=
  ∀ x m y x' y', SameView p (x.reverse, m ++ y) (x'.reverse, m ++ y') → y.take 2 = y'.take 2 →
    r.Matches x m y → r.Matches x' m y'

theorem local_of_plain {r : Regex UInt16} (hr : r.Plain) : Local p r :=
  fun _ _ _ x' y' _ _ h => hr.matches x' y' h

theorem local_look {P : Position UInt16 → Bool}
    (hP : ∀ pos pos', SameView p pos pos' → P pos = P pos') : Local p (.look P) := by
  intro x m y x' y' hview _ h
  obtain ⟨rfl, htrue⟩ := Regex.matches_look.mp h
  exact Regex.matches_look.mpr ⟨rfl, (hP _ _ hview).symm.trans htrue⟩

/-- An assertion at the start of a pattern. -/
theorem local_start {P : Position UInt16 → Bool} {r : Regex UInt16} (hP : Local p (.look P))
    (hr : Local p r) : Local p (.seq (.look P) r) := by
  intro x m y x' y' hview hy h
  obtain ⟨m₁, m₂, rfl, h₁, h₂⟩ := Regex.matches_seq.mp h
  obtain ⟨rfl, -⟩ := Regex.matches_look.mp h₁
  refine Regex.matches_seq.mpr ⟨[], m₂, rfl, hP _ _ _ _ _ hview ?_ h₁, ?_⟩
  · exact hview.ahead
  · rw [List.append_nil] at h₂ ⊢
    exact hr _ _ _ _ _ hview hy h₂

/-- An assertion at the end of a pattern. -/
theorem local_stop {P : Position UInt16 → Bool} {r : Regex UInt16} (hP : Local p (.look P))
    (hr : Local p r) : Local p (.seq r (.look P)) := by
  intro x m y x' y' hview hy h
  obtain ⟨m₁, m₂, rfl, h₁, h₂⟩ := Regex.matches_seq.mp h
  obtain ⟨rfl, -⟩ := Regex.matches_look.mp h₂
  rw [List.append_nil] at hview ⊢
  refine Regex.matches_seq.mpr ⟨m₁, [], (List.append_nil _).symm, hr _ _ _ _ _ hview hy h₁, ?_⟩
  refine hP _ _ _ _ _ ?_ hy h₂
  have hstop := hview.advance hy
  rwa [← List.reverse_append, ← List.reverse_append] at hstop

/-! ## The patterns -/

theorem local_lineStart : Local p lineStart := by
  apply local_look
  intro pos pos' hview
  have hbehind := hview.head_behind
  have hahead := head?_eq_of_take hview.ahead
  obtain ⟨before, after⟩ := pos
  obtain ⟨before', after'⟩ := pos'
  dsimp only at hbehind hahead
  cases after with
  | nil => rw [List.head?_eq_none_iff.mp hahead.symm]
  | cons c after =>
      obtain ⟨rest, rfl⟩ := List.head?_eq_some_iff.mp hahead.symm
      cases before with
      | nil => rw [List.head?_eq_none_iff.mp hbehind.symm]
      | cons b before =>
          obtain ⟨rest', rfl⟩ := List.head?_eq_some_iff.mp hbehind.symm
          rfl

theorem local_wordBoundary : Local p (wordBoundary p) := by
  apply local_look
  intro pos pos' hview
  have hbefore := codePointBefore_congr hview.take_behind
  have hafter := codePointAt_congr hview.ahead
  have hbase := hview.hasBaseCharacter_eq
  have hbehind := hview.head_behind
  have hahead := head?_eq_of_take hview.ahead
  obtain ⟨before, after⟩ := pos
  obtain ⟨before', after'⟩ := pos'
  dsimp only at hbefore hafter hbase hbehind hahead ⊢
  have hempty : before.isEmpty = before'.isEmpty := by
    cases before with
    | nil => rw [List.head?_eq_none_iff.mp hbehind.symm]
    | cons b before =>
        obtain ⟨rest, rfl⟩ := List.head?_eq_some_iff.mp hbehind.symm
        rfl
  cases after with
  | nil =>
      obtain rfl := List.head?_eq_none_iff.mp hahead.symm
      rw [hempty, hbefore, hbase]
  | cons u rest =>
      obtain ⟨rest', rfl⟩ := List.head?_eq_some_iff.mp hahead.symm
      dsimp only
      rw [hempty, hbefore, hbase, hafter, hview.hasBaseCharacter_next]

theorem plain_literalIgnoringCase (s : String) : (literalIgnoringCase s).Plain := by
  apply Regex.plain_seqs
  intro r hr
  obtain ⟨c, -, rfl⟩ := List.mem_map.mp hr
  trivial

theorem plain_anyLiteral (ss : List String) : (anyLiteral ss).Plain := by
  apply Regex.plain_alts
  intro r hr
  obtain ⟨s, -, rfl⟩ := List.mem_map.mp hr
  exact plain_literalIgnoringCase s

theorem plain_space (n : Nat) : (Regex.atLeast n space).Plain := ⟨_, rfl⟩

theorem local_chatRoleMarkers : Local p chatRoleMarkers := by
  apply local_start local_lineStart
  apply local_of_plain
  exact ⟨plain_space 0, plain_anyLiteral _, plain_space 0, trivial⟩

theorem local_specialTokens : Local p specialTokens :=
  local_of_plain ⟨plain_literalIgnoringCase _, plain_anyLiteral _, plain_literalIgnoringCase _⟩

theorem local_longBase64 : Local p (longBase64 p) := by
  apply local_start local_wordBoundary
  apply local_stop local_wordBoundary
  exact local_of_plain ⟨_, rfl⟩

theorem local_rejectTiers : ∀ tier ∈ rejectTiers p, Local p tier.1 := by
  intro tier htier
  simp only [rejectTiers, List.mem_cons, List.not_mem_nil, or_false] at htier
  rcases htier with rfl | rfl | rfl | rfl
  · exact local_chatRoleMarkers
  · exact local_specialTokens
  · exact local_longBase64
  · exact local_of_plain trivial

/-! ## A match in what is left -/

/-- A tag of the query stands in the way of a match: in what is left without the tags, the pattern
matches around where the tag was. From as far before the match as `\b` reads, up to one unit
behind it. -/
def Interrupted (p : Platform) (pattern : Regex UInt16) (q : JString) : Prop :=
  ∃ a t b x m y, q = a ++ t ++ b ∧ IsTag t ∧
    stripUnicodeTags a ++ stripUnicodeTags b = x ++ m ++ y ∧ pattern.Matches x m y ∧
    x.length ≤ (stripUnicodeTags a).length + readBack p x.reverse (m ++ y) ∧
    (stripUnicodeTags a).length ≤ x.length + m.length + 1

variable {pattern : Regex UInt16} {q x m y : JString}

theorem Interrupted.find (h : Interrupted p pattern q) :
    pattern.find (stripUnicodeTags q) = true := by
  obtain ⟨a, t, b, x, m, y, rfl, ht, hleft, hmatch, -, -⟩ := h
  rw [stripUnicodeTags_append_tag a ht b]
  exact Regex.find_iff.mpr ⟨x, m, y, hleft, hmatch⟩

/-- Around a match with no tag in its way, nothing was taken out. -/
theorem intact_of_not_interrupted (hleft : stripUnicodeTags q = x ++ m ++ y)
    (hmatch : pattern.Matches x m y) (hno : ¬Interrupted p pattern q) {i j : Nat}
    (hfrom : x.length ≤ i + readBack p x.reverse (m ++ y)) (hto : j ≤ x.length + m.length + 1) :
    Intact q i j := by
  rintro a t b rfl ht ⟨hi, hj⟩
  rw [stripUnicodeTags_append_tag a ht b] at hleft
  exact hno ⟨a, t, b, x, m, y, rfl, ht, hleft, hmatch, by omega, hj.trans hto⟩

theorem take_append_congr (m : JString) {s s' : JString} (h : s.take 2 = s'.take 2) :
    (m ++ s).take 2 = (m ++ s').take 2 := by
  have hshort := congrArg (List.take (2 - m.length)) h
  rw [List.take_take, List.take_take, Nat.min_eq_left (Nat.sub_le ..)] at hshort
  rw [List.take_append, List.take_append, hshort]

/-- A match with no tag in its way was in the query already. -/
theorem find_of_not_interrupted (hlocal : Local p pattern)
    (hleft : stripUnicodeTags q = x ++ m ++ y) (hmatch : pattern.Matches x m y)
    (hno : ¬Interrupted p pattern q) : pattern.find q = true := by
  -- the text before the match, cut where `\b` stops reading, and that behind it after one unit
  generalize hn : readBack p x.reverse (m ++ y) = n
  have hread : n ≤ x.length := by
    rw [← hn, ← List.length_reverse]
    exact readBack_le _ _
  obtain ⟨u, r, rfl, hr⟩ : ∃ u r, x = u ++ r ∧ r.length = n :=
    ⟨x.take (x.length - n), x.drop (x.length - n), (List.take_append_drop ..).symm, by
      rw [List.length_drop]; omega⟩
  obtain ⟨next, rest, rfl, hnext, hone⟩ : ∃ next rest, y = next ++ rest ∧ next.length ≤ 1 ∧
      (next = [] → rest = []) := by
    cases y with
    | nil => exact ⟨[], [], rfl, Nat.zero_le _, fun _ => rfl⟩
    | cons c y => exact ⟨[c], y, rfl, Nat.le_refl _, fun h => by cases h⟩
  have hunbroken : Unbroken q u (r ++ m ++ next) rest := by
    apply unbroken_of_intact
    · rw [hleft]
      simp
    · apply intact_of_not_interrupted hleft hmatch hno
      · rw [hn, List.length_append, hr]
      · simp only [List.length_append]
        omega
  obtain ⟨a, b, rfl, -, hlast, hhead⟩ := hunbroken
  have hahead : (next ++ rest).take 2 = (next ++ b).take 2 := by
    match next, hone, hnext with
    | [], hone, _ =>
        obtain rfl := hone rfl
        obtain rfl := List.head?_eq_none_iff.mp hhead
        rfl
    | [c], _, _ =>
        simp only [List.cons_append, List.nil_append, List.take_succ_cons, List.take_one, hhead]
  have hview : SameView p ((u ++ r).reverse, m ++ (next ++ rest))
      ((a ++ r).reverse, m ++ (next ++ b)) := by
    refine ⟨⟨r.reverse, u.reverse, a.reverse, ?_, ?_, ?_, ?_⟩, ?_⟩
    · exact List.reverse_append
    · exact List.reverse_append
    · rw [List.head?_reverse, List.head?_reverse, hlast]
    · rw [List.length_reverse, hr]
      exact Nat.le_of_eq hn
    · exact take_append_congr m hahead
  refine Regex.find_iff.mpr ⟨a ++ r, m, next ++ b, by simp, ?_⟩
  exact hlocal _ _ _ _ _ hview hahead hmatch

/-- So what is left matches no pattern that the query did not match. -/
theorem find_stripped (hlocal : Local p pattern) (hq : pattern.find q = false)
    (hno : ¬Interrupted p pattern q) : pattern.find (stripUnicodeTags q) = false := by
  rw [← Bool.not_eq_true]
  intro hfind
  obtain ⟨x, m, y, hleft, hmatch⟩ := Regex.find_iff.mp hfind
  have hthere := find_of_not_interrupted hlocal hleft hmatch hno
  rw [hq] at hthere
  cases hthere

/-- A tag in what is left is one that another tag stood inside of: the others were taken out. -/
theorem find_tags_stripped (hno : ¬Interrupted p unicodeTags q) :
    unicodeTags.find (stripUnicodeTags q) = false := by
  rw [← Bool.not_eq_true]
  intro hfind
  obtain ⟨x, m, y, hleft, hmatch⟩ := Regex.find_iff.mp hfind
  have hintact : Intact q x.length (x.length + m.length) :=
    intact_of_not_interrupted hleft hmatch hno (Nat.le_add_right ..) (Nat.le_succ _)
  obtain ⟨a, b, rfl, rfl, -, -⟩ := unbroken_of_intact hleft hintact
  exact hintact a m b rfl (matches_unicodeTags.mp hmatch) ⟨Nat.le_refl _, Nat.le_add_right ..⟩

/-! ## Code points -/

/-- `String.codePoints` -/
def codePoints : JString → List Nat
  | [] => []
  | [u] => [u.toNat]
  | u :: v :: rest =>
      if isHighSurrogate u && isLowSurrogate v then supplementary u v :: codePoints rest
      else u.toNat :: codePoints (v :: rest)

/-- U+E0000..U+E007F -/
def IsTagPoint (n : Nat) : Prop := 0xE0000 ≤ n ∧ n ≤ 0xE007F

theorem isTagPoint_supplementary {u v : UInt16} (hu : isHighSurrogate u = true)
    (hv : isLowSurrogate v = true) : IsTagPoint (supplementary u v) ↔ IsTag [u, v] := by
  simp only [isHighSurrogate, isLowSurrogate, Bool.and_eq_true, decide_eq_true_eq] at hu hv
  have htag : IsTag [u, v] ↔ u.toNat = 0xDB40 ∧ v.toNat ≤ 0xDC7F := by
    constructor
    · rintro ⟨low, heq, hlow⟩
      cases heq
      simp only [inRange, Bool.and_eq_true, decide_eq_true_eq] at hlow
      exact ⟨rfl, hlow.2⟩
    · rintro ⟨hhigh, hlow⟩
      have hhigh' : u = 0xDB40 := UInt16.toNat_inj.mp hhigh
      refine ⟨v, by rw [hhigh'], ?_⟩
      · simp only [inRange, Bool.and_eq_true, decide_eq_true_eq]
        exact ⟨hv.1, hlow⟩
  rw [htag]
  unfold IsTagPoint supplementary
  omega

theorem not_isTagPoint_unit (u : UInt16) : ¬IsTagPoint u.toNat := by
  have hlt := u.toNat_lt
  unfold IsTagPoint
  omega

theorem find_tags_of_append {a s : JString} (h : unicodeTags.find (a ++ s) = false) :
    unicodeTags.find s = false := by
  rw [← Bool.not_eq_true] at h ⊢
  intro hfind
  obtain ⟨a', t, b, rfl, ht⟩ := find_tags_iff.mp hfind
  exact h (find_tags_iff.mpr ⟨a ++ a', t, b, by simp, ht⟩)

theorem no_tagPoint_of_find {s : JString} (h : unicodeTags.find s = false) :
    ∀ n ∈ codePoints s, ¬IsTagPoint n := by
  fun_induction codePoints s with
  | case1 =>
      intro n hn
      cases hn
  | case2 u =>
      intro n hn
      rw [List.mem_singleton.mp hn]
      exact not_isTagPoint_unit u
  | case3 u v rest hpair ih =>
      obtain ⟨hu, hv⟩ := Bool.and_eq_true_iff.mp hpair
      apply List.forall_mem_cons.mpr ⟨?_, ih (find_tags_of_append (a := [u, v]) h)⟩
      rw [isTagPoint_supplementary hu hv]
      intro htag
      have hfind : unicodeTags.find (u :: v :: rest) = true :=
        find_tags_iff.mpr ⟨[], [u, v], rest, rfl, htag⟩
      rw [h] at hfind
      cases hfind
  | case4 u v rest hpair ih =>
      exact List.forall_mem_cons.mpr
        ⟨not_isTagPoint_unit u, ih (find_tags_of_append (a := [u]) h)⟩

/-! ## `validate` -/

/-- An audit is passed over when it fails. -/
theorem auditReject_returns (env : Env) (auth : Authentication) (pattern : String)
    (metric : Option Int) (s : GatewaySession) :
    ∃ s', auditReject env auth pattern metric s = (.ok (), s') := by
  unfold auditReject
  rw [tryCatch_apply]
  cases log env (rejectEntry auth pattern metric) s with
  | mk out s' => cases out <;> exact ⟨s', rfl⟩

theorem auditFlag_returns (env : Env) (auth : Authentication) (pattern : String)
    (s : GatewaySession) : ∃ s', auditFlag env auth pattern s = (.ok (), s') := by
  unfold auditFlag
  rw [tryCatch_apply]
  cases log env (flagEntry auth pattern) s with
  | mk out s' => cases out <;> exact ⟨s', rfl⟩

theorem when_returns {m : GatewayM Unit} (hm : ∀ s, ∃ s', m s = (.ok (), s')) (c : Bool)
    (s : GatewaySession) : ∃ s', Act.when c m s = (.ok (), s') := by
  cases c with
  | true => exact hm s
  | false => exact ⟨s, rfl⟩

/-- The result for an accepted query. -/
def accepted (p : Platform) (q : JString) : ValidationResult :=
  ⟨true, sanitize q, (instructionOverride p).find (sanitize q), none⟩

theorem validate_accepts (env : Env) (auth : Authentication) (h : rejection p q = none)
    (s : GatewaySession) : ∃ s', validate p env auth (some q) s = (.ok (accepted p q), s') := by
  obtain ⟨s₁, hstrip⟩ := when_returns
    (auditReject_returns env auth "unicode_tags_stripped" none) (unicodeTags.find q) s
  obtain ⟨s₂, hflag⟩ := when_returns (auditFlag_returns env auth "instruction_override")
    ((instructionOverride p).find (sanitize q)) s₁
  refine ⟨s₂, ?_⟩
  rw [validate_accepted env auth h, bind_ok hstrip, bind_ok hflag]
  rfl

theorem of_validate_ok {env : Env} {auth : Authentication} {s s' : GatewaySession}
    {r : ValidationResult} (h : validate p env auth (some q) s = (.ok r, s')) :
    rejection p q = none ∧ r = accepted p q := by
  cases hreject : rejection p q with
  | some reason =>
      obtain ⟨pattern, metric, hvalidate⟩ := validate_rejected env auth hreject
      obtain ⟨t, haudit⟩ := auditReject_returns env auth pattern metric s
      rw [hvalidate, bind_ok haudit] at h
      cases h
  | none =>
      obtain ⟨t, hreturn⟩ := validate_accepts env auth hreject s
      rw [hreturn] at h
      cases h
      exact ⟨rfl, rfl⟩

/-- What the guard let through is clean: no reject tier matches it, it has no tag, and the guard
would let it through again as it is. -/
structure Clean (p : Platform) (r : ValidationResult) : Prop where
  passes : ∀ tier ∈ rejectTiers p, tier.1.find r.sanitizedQuery = false
  untagged : ∀ n ∈ codePoints r.sanitizedQuery, ¬IsTagPoint n
  again : ∀ env auth s, ∃ r' s', validate p env auth (some r.sanitizedQuery) s = (.ok r', s') ∧
    r'.sanitizedQuery = r.sanitizedQuery ∧ r'.flagged = r.flagged

theorem clean_of_find (hq : rejection p q = none)
    (htiers : ∀ tier ∈ rejectTiers p, tier.1.find (sanitize q) = false)
    (htags : unicodeTags.find (sanitize q) = false) : Clean p (accepted p q) := by
  have hsame : sanitize (sanitize q) = sanitize q := by
    rw [sanitize_eq (sanitize q), stripUnicodeTags_of_no_tag htags]
  have hlength : (sanitize q).length ≤ guardMaxQueryLength := by
    rw [sanitize_eq]
    exact (stripUnicodeTags_length_le q).trans (rejection_eq_none_iff.mp hq).1
  refine ⟨htiers, no_tagPoint_of_find htags, fun env auth s => ?_⟩
  obtain ⟨s', hagain⟩ := validate_accepts env auth
    (rejection_eq_none_iff.mpr ⟨hlength, htiers⟩) s
  refine ⟨_, s', hagain, hsame, ?_⟩
  unfold accepted
  dsimp only
  rw [hsame]

/-- The queries that come out clean are those in which no tag stands in the way of a match. -/
theorem clean_iff_not_interrupted {env : Env} {auth : Authentication} {s s' : GatewaySession}
    {r : ValidationResult} (h : validate p env auth (some q) s = (.ok r, s')) :
    Clean p r ↔ ¬Interrupted p unicodeTags q ∧
      ∀ tier ∈ rejectTiers p, ¬Interrupted p tier.1 q := by
  obtain ⟨hq, rfl⟩ := of_validate_ok h
  constructor
  · intro hclean
    obtain ⟨r', t, hagain, hsame, -⟩ := hclean.again env auth s
    obtain ⟨-, rfl⟩ := of_validate_ok hagain
    have hleft : (accepted p q).sanitizedQuery = stripUnicodeTags q := sanitize_eq q
    rw [hleft] at hsame
    refine ⟨fun htag => ?_, fun tier htier htag => ?_⟩
    · have hnone := no_tag_of_stripUnicodeTags ((sanitize_eq _).symm.trans hsame)
      rw [htag.find] at hnone
      cases hnone
    · have hnone := hclean.passes tier htier
      rw [hleft, htag.find] at hnone
      cases hnone
  · rintro ⟨htags, htiers⟩
    apply clean_of_find hq
    · intro tier htier
      rw [sanitize_eq]
      exact find_stripped (local_rejectTiers tier htier)
        ((rejection_eq_none_iff.mp hq).2 tier htier) (htiers tier htier)
    · rw [sanitize_eq]
      exact find_tags_stripped htags

end Assertions

/-! ## Two queries -/

/-- No transaction is open. -/
def idleSession : GatewaySession := ⟨noDocuments.db, ⟨none, none⟩, none, []⟩

/-- The tag of a capital A. -/
def tagA : JString := [0xDB40, 0xDC41]

/-- A tag inside the word of a chat-role marker. -/
def splitMarker : JString := jstr "sys" ++ tagA ++ jstr "tem: x"

/-- Two tags between two words. -/
def taggedHello : JString := jstr "hello" ++ tagA ++ tagA ++ jstr "world"

theorem splitMarker_accepted : rejection (samplePlatform true) splitMarker = none := by
  simp only [rejection_eq_none_iff, Regex.find_eq_run]
  decide +kernel

theorem taggedHello_accepted : rejection (samplePlatform true) taggedHello = none := by
  simp only [rejection_eq_none_iff, Regex.find_eq_run]
  decide +kernel

theorem splitMarker_not_clean : ¬∀ (p : Platform) (env : Env) (auth : Authentication) (q : JString)
    (r : ValidationResult) (s s' : GatewaySession),
    validate p env auth (some q) s = (.ok r, s') → Clean p r := by
  intro h
  obtain ⟨s', hreturn⟩ := validate_accepts calmEnv .absent splitMarker_accepted idleSession
  have hpass := (h _ _ _ _ _ _ _ hreturn).passes
    (chatRoleMarkers, "chat_role_marker", "chat-role marker detected") List.mem_cons_self
  revert hpass
  rw [Regex.find_eq_run]
  decide +kernel

theorem taggedHello_not_interrupted :
    ¬Interrupted (samplePlatform true) unicodeTags taggedHello ∧
      ∀ tier ∈ rejectTiers (samplePlatform true),
        ¬Interrupted (samplePlatform true) tier.1 taggedHello := by
  obtain ⟨s', hreturn⟩ := validate_accepts calmEnv .absent taggedHello_accepted idleSession
  refine (clean_iff_not_interrupted hreturn).mp (clean_of_find taggedHello_accepted ?_ (by decide))
  simp only [Regex.find_eq_run]
  decide +kernel

end McpGateway.Gateway
