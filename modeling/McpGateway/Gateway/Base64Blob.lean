import Mathlib.Data.List.DropRight
import McpGateway.Gateway.Stripped

/-! # Long base64 blobs

`LONG_BASE64` wants a word boundary at both ends of a blob, but `+`, `/` and `=` are no word
characters. Next to whitespace the pattern can begin only at the first letter or digit of a run, and
end only behind the last one.

* `blob_in_run_iff` — the pattern matches in a run exactly if what is between those is long enough.
* `run_rejected_iff` — when a query with such a run is rejected. -/

namespace McpGateway.Gateway

open Foundation Foundation.Act

/-! ## The pattern -/

/-- `[A-Za-z0-9+/=]` -/
def isBase64 (u : UInt16) : Bool :=
  inRange (unit 'A') (unit 'Z') u || inRange (unit 'a') (unit 'z') u ||
    inRange (unit '0') (unit '9') u || u == unit '+' || u == unit '/' || u == unit '='

def isWordUnit (u : UInt16) : Bool := isAsciiWord u.toNat

variable {p : Platform}

theorem matches_longBase64 {a m b : JString} : (longBase64 p).Matches a m b ↔
    (wordBoundary p).Matches a [] (m ++ b) ∧ (256 ≤ m.length ∧ ∀ u ∈ m, isBase64 u = true) ∧
      (wordBoundary p).Matches (a ++ m) [] b := by
  show Regex.Matches (.seq (wordBoundary p) (.seq (.atLeast 256 (.one isBase64)) (wordBoundary p)))
    a m b ↔ _
  have hlook : ∀ {x m y : JString}, (wordBoundary p).Matches x m y → m = [] :=
    fun h => (Regex.matches_look.mp h).1
  constructor
  · intro h
    obtain ⟨m₁, m₂, rfl, hopen, h⟩ := Regex.matches_seq.mp h
    obtain ⟨blob, m₃, rfl, hblob, hclose⟩ := Regex.matches_seq.mp h
    obtain rfl := hlook hopen
    obtain rfl := hlook hclose
    rw [List.append_nil] at hclose
    rw [List.nil_append, List.append_nil] at *
    exact ⟨hopen, Regex.matches_atLeast_one.mp hblob, hclose⟩
  · rintro ⟨hopen, hblob, hclose⟩
    refine Regex.matches_seq.mpr ⟨[], m, rfl, hopen, ?_⟩
    refine Regex.matches_seq.mpr ⟨m, [], (List.append_nil m).symm, ?_, ?_⟩
    · exact Regex.matches_atLeast_one.mpr hblob
    · rw [List.append_nil]
      exact hclose

/-! ## Word boundaries -/

/-- A unit that is a code point of its own and no mark. -/
structure Simple (p : Platform) (u : UInt16) : Prop where
  high : isHighSurrogate u = false
  low : isLowSurrogate u = false
  mark : p.isNonSpacingMark u.toNat = false

theorem Simple.before {u : UInt16} (h : Simple p u) (before : JString) :
    codePointBefore (u :: before) = u.toNat := by
  cases before with
  | nil => rfl
  | cons v before => rw [codePointBefore, h.low, Bool.and_false, if_neg Bool.false_ne_true]

theorem Simple.at {u : UInt16} (h : Simple p u) (after : JString) :
    codePointAt (u :: after) = u.toNat := by
  cases after with
  | nil => rfl
  | cons v after => rw [codePointAt, h.high, Bool.false_and, if_neg Bool.false_ne_true]

/-- Between such units `\b` is where one is a word character and the other is not. -/
theorem wordBoundary_iff {a b : JString} (ha : ∀ u, a.getLast? = some u → Simple p u)
    (hb : ∀ u, b.head? = some u → Simple p u) : (wordBoundary p).Matches a [] b ↔
      a.getLast?.any isWordUnit ≠ b.head?.any isWordUnit := by
  rw [wordBoundary, Regex.matches_look, and_iff_right rfl]
  dsimp only
  rw [bne_iff_ne]
  have hleft : (!a.reverse.isEmpty && (isAsciiWord (codePointBefore a.reverse) ||
      (p.isNonSpacingMark (codePointBefore a.reverse) && hasBaseCharacter p a.reverse b)))
        = a.getLast?.any isWordUnit := by
    rw [← List.head?_reverse] at ha ⊢
    cases hrev : a.reverse with
    | nil => rfl
    | cons u before =>
        have hu := ha u (by rw [hrev]; rfl)
        rw [hu.before, hu.mark, Bool.false_and, Bool.or_false]
        rfl
  rw [hleft]
  cases b with
  | nil => rfl
  | cons u after =>
      have hu := hb u rfl
      dsimp only
      rw [hu.at, hu.mark, Bool.false_and, Bool.or_false]
      rfl

/-! ## Runs -/

/-- Whitespace, in the sense of Java or of Unicode. -/
def isDelimiter (u : UInt16) : Bool :=
  isWhitespaceUnit u || u == 0x85 || u == 0xA0 || u == 0x2007 || u == 0x202F

/-- `Character.getType`: no mark is before U+0300, and whitespace is of another category. -/
def KnowsMarks (p : Platform) : Prop :=
  ∀ u : UInt16, p.isNonSpacingMark u.toNat = true → 0x300 ≤ u.toNat ∧ isDelimiter u = false

/-- A run of the query `x ++ r ++ y`: whitespace is on both sides, or an end of the query. -/
structure Run (x r y : JString) : Prop where
  alphabet : ∀ u ∈ r, isBase64 u = true
  left : ∀ u, x.getLast? = some u → isDelimiter u = true
  right : ∀ u, y.head? = some u → isDelimiter u = true

theorem isBase64_iff {u : UInt16} : isBase64 u = true ↔ (65 ≤ u.toNat ∧ u.toNat ≤ 90) ∨
    (97 ≤ u.toNat ∧ u.toNat ≤ 122) ∨ (48 ≤ u.toNat ∧ u.toNat ≤ 57) ∨ u.toNat = 43 ∨
    u.toNat = 47 ∨ u.toNat = 61 := by
  unfold isBase64 inRange
  simp only [Bool.or_eq_true, Bool.and_eq_true, decide_eq_true_eq, beq_iff_eq, ← UInt16.toNat_inj,
    or_assoc]
  rfl

theorem isDelimiter_iff {u : UInt16} : isDelimiter u = true ↔ (9 ≤ u.toNat ∧ u.toNat ≤ 13) ∨
    (28 ≤ u.toNat ∧ u.toNat ≤ 32) ∨ u.toNat = 0x85 ∨ u.toNat = 0xA0 ∨ u.toNat = 0x1680 ∨
    (0x2000 ≤ u.toNat ∧ u.toNat ≤ 0x200A) ∨ u.toNat = 0x2028 ∨ u.toNat = 0x2029 ∨
    u.toNat = 0x202F ∨ u.toNat = 0x205F ∨ u.toNat = 0x3000 := by
  unfold isDelimiter isWhitespaceUnit inRange
  simp only [Bool.or_eq_true, Bool.and_eq_true, decide_eq_true_eq, beq_iff_eq, ← UInt16.toNat_inj]
  simp only [UInt16.reduceToNat]
  omega

theorem simple_of_base64 (hp : KnowsMarks p) {u : UInt16} (h : isBase64 u = true) : Simple p u := by
  have hrange := isBase64_iff.mp h
  obtain ⟨hhigh, hlow⟩ := not_surrogate (u := u) (by omega)
  refine ⟨hhigh, hlow, ?_⟩
  rw [← Bool.not_eq_true]
  intro hmark
  have hfirst := (hp u hmark).1
  omega

theorem simple_of_delimiter (hp : KnowsMarks p) {u : UInt16} (h : isDelimiter u = true) :
    Simple p u := by
  have hrange := isDelimiter_iff.mp h
  obtain ⟨hhigh, hlow⟩ := not_surrogate (u := u) (by omega)
  refine ⟨hhigh, hlow, ?_⟩
  rw [← Bool.not_eq_true]
  intro hmark
  have hno := (hp u hmark).2
  rw [h] at hno
  cases hno

theorem not_word_of_delimiter {u : UInt16} (h : isDelimiter u = true) : isWordUnit u = false := by
  have hrange := isDelimiter_iff.mp h
  unfold isWordUnit isAsciiWord
  simp only [Bool.or_eq_false_iff, Bool.and_eq_false_iff, decide_eq_false_iff_not,
    beq_eq_false_iff_ne]
  omega

theorem not_base64_of_delimiter {u : UInt16} (h : isDelimiter u = true) : isBase64 u = false := by
  have hrange := isDelimiter_iff.mp h
  rw [← Bool.not_eq_true, isBase64_iff]
  omega

/-! ## What is between the first and the last letter or digit -/

def core (r : JString) : JString :=
  (r.dropWhile fun u => !isWordUnit u).rdropWhile fun u => !isWordUnit u

theorem core_split (r : JString) : ∃ l t, r = l ++ core r ++ t ∧
    (∀ u ∈ l, isWordUnit u = false) ∧ (∀ u ∈ t, isWordUnit u = false) ∧
    (∀ u, (core r).head? = some u → isWordUnit u = true) ∧
    (∀ u, (core r).getLast? = some u → isWordUnit u = true) := by
  let rest := r.dropWhile fun u => !isWordUnit u
  have hcore : rest = core r ++ rest.rtakeWhile fun u => !isWordUnit u :=
    List.rdropWhile_append_rtakeWhile.symm
  refine ⟨r.takeWhile fun u => !isWordUnit u, rest.rtakeWhile fun u => !isWordUnit u,
    ?_, ?_, ?_, ?_, ?_⟩
  · rw [List.append_assoc, ← hcore, List.takeWhile_append_dropWhile]
  · intro u hu
    simpa using List.mem_takeWhile_imp hu
  · intro u hu
    simpa using List.mem_rtakeWhile_imp hu
  · -- the first unit of what is left after the drop at the front, if anything is left
    intro u hu
    have hhead : rest.head? = some u := by rw [hcore, List.head?_append, hu, Option.some_or]
    have hstop := List.head?_dropWhile_not (fun u => !isWordUnit u) r
    rw [show (r.dropWhile fun u => !isWordUnit u).head? = some u from hhead] at hstop
    simpa using hstop
  · intro u hu
    have hne : core r ≠ [] := by
      rintro hnil
      rw [hnil] at hu
      cases hu
    have hlast := List.rdropWhile_last_not (fun u => !isWordUnit u) rest hne
    rw [List.getLast?_eq_some_getLast hne] at hu
    cases hu
    show isWordUnit ((rest.rdropWhile fun u => !isWordUnit u).getLast hne) = true
    simpa using hlast

/-- What has no word character at its end, or none at all. -/
theorem any_getLast_append {x l : JString} (hx : x.getLast?.any isWordUnit = false)
    (hl : ∀ u ∈ l, isWordUnit u = false) : (x ++ l).getLast?.any isWordUnit = false := by
  rw [List.getLast?_append]
  cases hlast : l.getLast? with
  | none => exact hx
  | some u => exact hl u (List.mem_of_getLast? hlast)

theorem any_head_append {t y : JString} (hy : y.head?.any isWordUnit = false)
    (ht : ∀ u ∈ t, isWordUnit u = false) : (t ++ y).head?.any isWordUnit = false := by
  rw [List.head?_append]
  cases hhead : t.head? with
  | none => exact hy
  | some u => exact ht u (List.mem_of_head? hhead)

section Run

variable {x r y : JString}

theorem Run.left_any (h : Run x r y) : x.getLast?.any isWordUnit = false := by
  cases hlast : x.getLast? with
  | none => rfl
  | some u => exact not_word_of_delimiter (h.left u hlast)

theorem Run.right_any (h : Run x r y) : y.head?.any isWordUnit = false := by
  cases hhead : y.head? with
  | none => rfl
  | some u => exact not_word_of_delimiter (h.right u hhead)

/-- In a run, and at its ends, `\b` has no marks and no surrogates to look at. -/
theorem Run.wordBoundary_iff (h : Run x r y) (hp : KnowsMarks p) {a b : JString} (hr : r = a ++ b) :
    (wordBoundary p).Matches (x ++ a) [] (b ++ y) ↔
      (x ++ a).getLast?.any isWordUnit ≠ (b ++ y).head?.any isWordUnit := by
  subst hr
  apply Gateway.wordBoundary_iff
  · intro u hu
    rw [List.getLast?_append] at hu
    cases hlast : a.getLast? with
    | none =>
        rw [hlast, Option.none_or] at hu
        exact simple_of_delimiter hp (h.left u hu)
    | some v =>
        rw [hlast] at hu
        cases hu
        exact simple_of_base64 hp
          (h.alphabet u (List.mem_append_left _ (List.mem_of_getLast? hlast)))
  · intro u hu
    rw [List.head?_append] at hu
    cases hhead : b.head? with
    | none =>
        rw [hhead, Option.none_or] at hu
        exact simple_of_delimiter hp (h.right u hu)
    | some v =>
        rw [hhead] at hu
        cases hu
        exact simple_of_base64 hp
          (h.alphabet u (List.mem_append_right _ (List.mem_of_head? hhead)))

/-- A boundary is not before the first word character of the run. -/
theorem Run.length_le_of_boundary (h : Run x r y) (hp : KnowsMarks p) {l rest a b : JString}
    (hr : r = l ++ rest) (hl : ∀ u ∈ l, isWordUnit u = false) (hab : r = a ++ b) (hb : b ≠ [])
    (hbound : (wordBoundary p).Matches (x ++ a) [] (b ++ y)) : l.length ≤ a.length := by
  by_contra hlt
  rw [h.wordBoundary_iff hp hab] at hbound
  -- otherwise `\b` stands in what the run begins with, between two that are no word characters
  obtain ⟨c, rfl, rfl⟩ : ∃ c, l = a ++ c ∧ b = c ++ rest := by
    rcases List.append_eq_append_iff.mp (hr.symm.trans hab) with ⟨c, rfl, -⟩ | hcut
    · rw [List.length_append] at hlt
      omega
    · exact hcut
  have hc : c ≠ [] := by
    rintro rfl
    rw [List.append_nil] at hlt
    exact hlt (Nat.le_refl _)
  obtain ⟨u, c, rfl⟩ := List.exists_cons_of_ne_nil hc
  have hleft : (x ++ a).getLast?.any isWordUnit = false :=
    any_getLast_append h.left_any fun u hu => hl u (List.mem_append_left _ hu)
  rw [hleft] at hbound
  exact hbound (hl u (List.mem_append_right _ List.mem_cons_self)).symm

/-- Nor is it behind the last one. -/
theorem Run.length_le_of_boundary' (h : Run x r y) (hp : KnowsMarks p) {t rest a b : JString}
    (hr : r = rest ++ t) (ht : ∀ u ∈ t, isWordUnit u = false) (hab : r = a ++ b)
    (hbound : (wordBoundary p).Matches (x ++ a) [] (b ++ y)) : t.length ≤ b.length := by
  by_contra hlt
  rw [h.wordBoundary_iff hp hab] at hbound
  obtain ⟨c, rfl, rfl⟩ : ∃ c, a = rest ++ c ∧ t = c ++ b := by
    rcases List.append_eq_append_iff.mp (hr.symm.trans hab) with hcut | ⟨c, -, rfl⟩
    · exact hcut
    · rw [List.length_append] at hlt
      omega
  have hc : c ≠ [] := by
    rintro rfl
    exact hlt (Nat.le_refl _)
  have hleft : (x ++ (rest ++ c)).getLast?.any isWordUnit = false := by
    rw [← List.append_assoc, List.getLast?_append]
    cases hlast : c.getLast? with
    | none => exact absurd (List.getLast?_eq_none_iff.mp hlast) hc
    | some u => exact ht u (List.mem_append_left _ (List.mem_of_getLast? hlast))
  have hright : (b ++ y).head?.any isWordUnit = false :=
    any_head_append h.right_any fun u hu => ht u (List.mem_append_right _ hu)
  rw [hleft, hright] at hbound
  exact hbound rfl

/-- **In a run** the pattern matches if what is between the first and the last letter or digit is
long enough. -/
theorem blob_in_run_iff (h : Run x r y) (hp : KnowsMarks p) :
    (∃ a m b, r = a ++ m ++ b ∧ (longBase64 p).Matches (x ++ a) m (b ++ y)) ↔
      256 ≤ (core r).length := by
  obtain ⟨l, t, hr, hl, ht, hfirst, hlast⟩ := core_split r
  constructor
  · rintro ⟨a, m, b, hab, hmatch⟩
    obtain ⟨hopen, ⟨hlong, -⟩, hclose⟩ := matches_longBase64.mp hmatch
    rw [← List.append_assoc] at hopen
    rw [List.append_assoc x a m] at hclose
    have hm : m ++ b ≠ [] := by
      rintro hnil
      obtain ⟨rfl, -⟩ := List.append_eq_nil_iff.mp hnil
      cases hlong
    have hfront := h.length_le_of_boundary hp (hr.trans (List.append_assoc ..)) hl
      (hab.trans (List.append_assoc ..)) hm hopen
    have hback := h.length_le_of_boundary' hp hr ht hab hclose
    have hlen := congrArg List.length (hr.symm.trans hab)
    simp only [List.length_append] at hlen
    omega
  · intro hlong
    have hne : core r ≠ [] := by
      intro hnil
      rw [hnil] at hlong
      cases hlong
    obtain ⟨u, hu⟩ := Option.ne_none_iff_exists'.mp (mt List.head?_eq_none_iff.mp hne)
    obtain ⟨v, hv⟩ := Option.ne_none_iff_exists'.mp (mt List.getLast?_eq_none_iff.mp hne)
    refine ⟨l, core r, t, hr, matches_longBase64.mpr ⟨?_, ⟨hlong, fun u hu => ?_⟩, ?_⟩⟩
    · rw [← List.append_assoc,
        h.wordBoundary_iff hp (hr.trans (List.append_assoc ..)), any_getLast_append h.left_any hl,
        List.append_assoc, List.head?_append, hu]
      exact fun hno => Bool.false_ne_true (hno.trans (hfirst u hu))
    · exact h.alphabet u (by
        rw [hr]
        exact List.mem_append_left _ (List.mem_append_right _ hu))
    · rw [List.append_assoc, h.wordBoundary_iff hp hr, any_head_append h.right_any ht,
        ← List.append_assoc, List.getLast?_append, hv]
      exact fun hno => Bool.false_ne_true (hno.symm.trans (hlast v hv))

/-! ## Where the pattern can match -/

/-- A stretch of `x ++ z` lies in `x`, or in `z`, or has the last unit of `x` and the first of `z`. -/
theorem stretch_cases {x z a m b : JString} (h : x ++ z = a ++ (m ++ b)) :
    (∃ b', x = a ++ m ++ b' ∧ b = b' ++ z) ∨ (∃ a', a = x ++ a' ∧ z = a' ++ (m ++ b)) ∨
      ∃ u v, x.getLast? = some u ∧ u ∈ m ∧ z.head? = some v ∧ v ∈ m := by
  rcases List.append_eq_append_iff.mp h with ⟨a', rfl, rfl⟩ | ⟨c, rfl, hc⟩
  · exact Or.inr (Or.inl ⟨a', rfl, rfl⟩)
  · rcases List.append_eq_append_iff.mp hc with ⟨b', rfl, rfl⟩ | ⟨d, rfl, rfl⟩
    · exact Or.inl ⟨b', (List.append_assoc ..).symm, rfl⟩
    · cases d with
      | nil => exact Or.inl ⟨[], by simp, rfl⟩
      | cons v d =>
          cases hlast : c.getLast? with
          | none =>
              obtain rfl := List.getLast?_eq_none_iff.mp hlast
              exact Or.inr (Or.inl ⟨[], by simp, rfl⟩)
          | some u =>
              refine Or.inr (Or.inr ⟨u, v, ?_, ?_, rfl, ?_⟩)
              · rw [List.getLast?_append, hlast, Option.some_or]
              · exact List.mem_append_left _ (List.mem_of_getLast? hlast)
              · exact List.mem_append_right _ List.mem_cons_self

/-- A stretch that cannot reach over the end of `x` lies on one side of it. -/
theorem stretch_of_last {z a m b : JString} (h : x ++ z = a ++ (m ++ b))
    (hlast : ∀ u, x.getLast? = some u → u ∉ m) :
    (∃ b', x = a ++ m ++ b' ∧ b = b' ++ z) ∨ ∃ a', a = x ++ a' ∧ z = a' ++ (m ++ b) := by
  rcases stretch_cases h with hx | hz | ⟨u, -, hu, hmem, -⟩
  · exact Or.inl hx
  · exact Or.inr hz
  · exact absurd hmem (hlast u hu)

theorem stretch_of_head {z a m b : JString} (h : z ++ y = a ++ (m ++ b))
    (hhead : ∀ u, y.head? = some u → u ∉ m) :
    (∃ b', z = a ++ m ++ b' ∧ b = b' ++ y) ∨ ∃ a', a = z ++ a' ∧ y = a' ++ (m ++ b) := by
  rcases stretch_cases h with hz | hy | ⟨-, v, -, -, hv, hmem⟩
  · exact Or.inl hz
  · exact Or.inr hy
  · exact absurd hmem (hhead v hv)

/-- The pattern matches in the part `x` of the query `x ++ z`. -/
def BlobBefore (p : Platform) (x z : JString) : Prop :=
  ∃ a m b, x = a ++ m ++ b ∧ (longBase64 p).Matches a m (b ++ z)

/-- The pattern matches in the part `y` of the query `z ++ y`. -/
def BlobBehind (p : Platform) (z y : JString) : Prop :=
  ∃ a m b, y = a ++ m ++ b ∧ (longBase64 p).Matches (z ++ a) m b

/-- A match reaches over neither end of a run. -/
theorem find_longBase64_iff (h : Run x r y) (hp : KnowsMarks p) :
    (longBase64 p).find (x ++ r ++ y) = true ↔
      BlobBefore p x (r ++ y) ∨ 256 ≤ (core r).length ∨ BlobBehind p (x ++ r) y := by
  rw [← blob_in_run_iff h hp, Regex.find_iff]
  constructor
  · rintro ⟨a, m, b, hq, hmatch⟩
    have halphabet := (matches_longBase64.mp hmatch).2.1.2
    have hout : ∀ {u}, isDelimiter u = true → u ∉ m := by
      intro u hu hmem
      have hin := halphabet u hmem
      rw [not_base64_of_delimiter hu] at hin
      cases hin
    rw [List.append_assoc, List.append_assoc a m b] at hq
    rcases stretch_of_last hq fun u hu => hout (h.left u hu) with ⟨b', hx, rfl⟩ | ⟨a', rfl, hry⟩
    · exact Or.inl ⟨a, m, b', hx, hmatch⟩
    · rcases stretch_of_head hry fun u hu => hout (h.right u hu) with ⟨b', hr, rfl⟩ | ⟨a, rfl, hy⟩
      · exact Or.inr (Or.inl ⟨a', m, b', hr, hmatch⟩)
      · refine Or.inr (Or.inr ⟨a, m, b, hy.trans (List.append_assoc ..).symm, ?_⟩)
        rw [List.append_assoc]
        exact hmatch
  · rintro (⟨a, m, b, rfl, hmatch⟩ | ⟨a, m, b, rfl, hmatch⟩ | ⟨a, m, b, rfl, hmatch⟩)
    · exact ⟨a, m, b ++ (r ++ y), by simp, hmatch⟩
    · exact ⟨x ++ a, m, b ++ y, by simp, hmatch⟩
    · exact ⟨x ++ r ++ a, m, b, by simp, hmatch⟩

/-! ## What `validate` does -/

/-- `validate` throws `ToolInputRejectedException`. -/
def Throws (p : Platform) (env : Env) (auth : Authentication) (s : GatewaySession) (q : JString) :
    Prop :=
  ∃ reason s', validate p env auth (some q) s = (.error (.toolInputRejected reason), s')

theorem throws_iff {env : Env} {auth : Authentication} {s : GatewaySession} {q : JString} :
    Throws p env auth s q ↔ rejection p q ≠ none := by
  constructor
  · rintro ⟨reason, s', hthrow⟩ hnone
    obtain ⟨t, hreturn⟩ := validate_accepts env auth hnone s
    rw [hreturn] at hthrow
    cases hthrow
  · intro hsome
    obtain ⟨reason, hreason⟩ := Option.ne_none_iff_exists'.mp hsome
    obtain ⟨pattern, metric, hvalidate⟩ := validate_rejected env auth hreason
    obtain ⟨t, haudit⟩ := auditReject_returns env auth pattern metric s
    refine ⟨reason, t, ?_⟩
    rw [hvalidate, bind_ok haudit]
    rfl

theorem rejection_iff {q : JString} (hlength : q.length ≤ guardMaxQueryLength) :
    rejection p q ≠ none ↔ chatRoleMarkers.find q = true ∨ specialTokens.find q = true ∨
      (longBase64 p).find q = true ∨ controlChars.find q = true := by
  rw [ne_eq, rejection_eq_none_iff, and_iff_right hlength]
  simp only [rejectTiers, List.forall_mem_cons, List.not_mem_nil, false_implies, implies_true,
    and_true, not_and_or, Bool.not_eq_false]

/-- Something else in the query is rejected: another pattern, or a blob outside the run. -/
def RejectedAnyway (p : Platform) (x r y : JString) : Prop :=
  chatRoleMarkers.find (x ++ r ++ y) = true ∨ specialTokens.find (x ++ r ++ y) = true ∨
    controlChars.find (x ++ r ++ y) = true ∨ BlobBefore p x (r ++ y) ∨ BlobBehind p (x ++ r) y

/-- **When a query with a run is rejected**: the run is long enough from its first to its last letter
or digit, or something else is wrong with the query. -/
theorem run_rejected_iff (hp : KnowsMarks p) (h : Run x r y)
    (hlength : (x ++ r ++ y).length ≤ guardMaxQueryLength) (env : Env) (auth : Authentication)
    (s : GatewaySession) : Throws p env auth s (x ++ r ++ y) ↔
      256 ≤ (core r).length ∨ RejectedAnyway p x r y := by
  rw [throws_iff, rejection_iff hlength, find_longBase64_iff h hp]
  unfold RejectedAnyway
  tauto

end Run

/-! ## A blob, and one with padding -/

theorem samplePlatform_marks : KnowsMarks (samplePlatform true) := by
  intro u hu
  cases hu

/-- 300 letters between two words. -/
theorem letters_rejected : Throws (samplePlatform true) calmEnv .absent idleSession
    (jstr "prefix " ++ List.replicate 300 (unit 'A') ++ jstr " suffix") := by
  have hrun : Run (jstr "prefix ") (List.replicate 300 (unit 'A')) (jstr " suffix") := by
    refine ⟨fun u hu => ?_, fun u hu => ?_, fun u hu => ?_⟩
    · rw [List.eq_of_mem_replicate hu]
      rfl
    · cases hu
      rfl
    · cases hu
      rfl
  have hlength : (jstr "prefix " ++ List.replicate 300 (unit 'A') ++ jstr " suffix").length
      ≤ guardMaxQueryLength := by decide +kernel
  exact (run_rejected_iff samplePlatform_marks hrun hlength calmEnv .absent idleSession).mpr (Or.inl (by decide +kernel))

/-- 190 zero bytes in base64: 254 letters, and two characters of padding. -/
def paddedBlob : JString := List.replicate 254 (unit 'A') ++ [unit '=', unit '=']

/-- A blob of 256 characters passes. -/
theorem paddedBlob_accepted : ¬∀ (p : Platform) (env : Env) (auth : Authentication)
    (s : GatewaySession) (x r y : JString), KnowsMarks p → Run x r y → 256 ≤ r.length →
      (x ++ r ++ y).length ≤ guardMaxQueryLength → Throws p env auth s (x ++ r ++ y) := by
  intro h
  have hrun : Run [] paddedBlob [] :=
    ⟨List.all_eq_true.mp (by decide +kernel), nofun, nofun⟩
  have hthrow := h (samplePlatform true) calmEnv .absent idleSession [] paddedBlob []
    samplePlatform_marks hrun (by decide +kernel) (by decide +kernel)
  rw [throws_iff, rejection_iff (by decide +kernel), find_longBase64_iff hrun samplePlatform_marks,
    Regex.find_eq_run, Regex.find_eq_run, Regex.find_eq_run] at hthrow
  rcases hthrow with hchat | htoken | (⟨a, m, b, hnil, hmatch⟩ | hcore | ⟨a, m, b, hnil, hmatch⟩) |
    hcontrol
  · revert hchat
    decide +kernel
  · revert htoken
    decide +kernel
  · -- there is nothing before the run or behind it
    obtain ⟨ham, -⟩ := List.append_eq_nil_iff.mp hnil.symm
    rw [(List.append_eq_nil_iff.mp ham).2] at hmatch
    cases (matches_longBase64.mp hmatch).2.1.1
  · revert hcore
    decide +kernel
  · obtain ⟨ham, -⟩ := List.append_eq_nil_iff.mp hnil.symm
    rw [(List.append_eq_nil_iff.mp ham).2] at hmatch
    cases (matches_longBase64.mp hmatch).2.1.1
  · revert hcontrol
    decide +kernel

end McpGateway.Gateway
