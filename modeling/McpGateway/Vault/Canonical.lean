import Mathlib.Data.List.Chain
import McpGateway.Foundation.Separator
import McpGateway.Foundation.Words
import McpGateway.Vault.Model

/-! # Normalizing twice

`normalize_name` composes NFKC, trimming, collapsing and lowercasing, in this order. Lowercasing comes
last and can undo the first step: a capital and a combining mark may have no composed form where the
small letter and the mark have one.

* `collapseSpaces_trim` — trimming and collapsing leave the words joined by single spaces.
* `normalizeName_eq` — so `normalize_name` works word by word.
* `normalize_canonical_iff` — normalizing again changes nothing exactly when lowercasing left the
  text in NFKC. -/

namespace McpGateway.Vault

open Foundation

/-! ## Collapsing -/

/-- A word is copied. -/
theorem collapseSpaces_word {w : List Char} (hw : ∀ c ∈ w, isWhitespace c = false) (hne : w ≠ [])
    (prevSpace : Bool) (rest : List Char) :
    collapseSpaces prevSpace (w ++ rest) = w ++ collapseSpaces false rest := by
  induction w generalizing prevSpace with
  | nil => exact absurd rfl hne
  | cons c w ih =>
      have hc := hw c List.mem_cons_self
      simp only [List.cons_append, collapseSpaces, hc, Bool.false_eq_true, if_false,
        List.cons.injEq, true_and]
      by_cases hnil : w = []
      · subst hnil
        rfl
      · exact ih (fun d hd => hw d (List.mem_cons_of_mem c hd)) hnil false

/-- Text that does not end in whitespace, behind whitespace. -/
theorem collapseSpaces_true {cs : List Char}
    (hlast : ∀ c ∈ cs.getLast?, isWhitespace c = false) :
    collapseSpaces true cs = [' '].intercalate (words isWhitespace cs) := by
  induction cs using sepInduction (p := isWhitespace) with
  | plain w hw =>
      by_cases hne : w = []
      · subst hne
        rfl
      · have hcopy := collapseSpaces_word hw hne true []
        rw [List.append_nil] at hcopy
        rw [hcopy, words_of_plain hw hne, List.intercalate_singleton]
        exact List.append_nil w
  | cut w c rest hw hc ih =>
      rw [List.getLast?_append_of_ne_nil w (List.cons_ne_nil c rest)] at hlast
      -- the text goes on, or it would end in the whitespace
      have hrest : rest ≠ [] := by
        rintro rfl
        have hspace := hlast c rfl
        rw [hc] at hspace
        cases hspace
      have hlast' : ∀ d ∈ rest.getLast?, isWhitespace d = false := by
        rw [List.getLast?_cons_of_ne_nil hrest] at hlast
        exact hlast
      rw [words_append_cons hc]
      by_cases hne : w = []
      · subst hne
        rw [List.nil_append, collapseSpaces, if_pos hc, if_pos rfl]
        exact ih hlast'
      · rw [collapseSpaces_word hw hne, collapseSpaces, if_pos hc, ih hlast',
          words_of_plain hw hne, List.singleton_append]
        have hwords : words isWhitespace rest ≠ [] := by
          intro hnone
          have hspace := words_eq_nil_iff.mp hnone _ (List.getLast_mem hrest)
          have hplain := hlast' _ (List.getLast?_eq_some_getLast hrest)
          rw [hspace] at hplain
          cases hplain
        rw [List.intercalate_cons_of_ne_nil hwords, List.append_assoc]
        rfl

/-- **Trimming and collapsing** leave the words joined by single spaces. -/
theorem collapseSpaces_trim (cs : List Char) :
    collapseSpaces false (trim cs) = [' '].intercalate (words isWhitespace cs) := by
  have hwords : words isWhitespace (trim cs) = words isWhitespace cs :=
    (words_rdropWhile _).trans (words_dropWhile cs)
  have hlast : ∀ c ∈ (trim cs).getLast?, isWhitespace c = false := by
    intro c hc
    have hstop := List.head?_dropWhile_not isWhitespace (cs.dropWhile isWhitespace).reverse
    rw [trim, List.getLast?_reverse, Option.mem_def] at hc
    rw [hc] at hstop
    exact hstop
  rw [← hwords, ← collapseSpaces_true hlast]
  -- the first character is none of the whitespace, so the flag does not matter
  cases htrim : trim cs with
  | nil => rfl
  | cons c rest =>
      obtain ⟨tail, hpre⟩ := List.rdropWhile_prefix isWhitespace (cs.dropWhile isWhitespace)
      have hc : isWhitespace c = false := by
        have hstop := List.head?_dropWhile_not isWhitespace cs
        rw [← hpre, show (cs.dropWhile isWhitespace).rdropWhile isWhitespace = c :: rest from htrim]
          at hstop
        exact hstop
      rw [collapseSpaces, collapseSpaces, hc]
      rfl

/-! ## The Unicode mappings -/

/-- `to_lowercase` on the characters of a string. -/
def lower (u : UnicodeTables) (cs : List Char) : List Char :=
  (u.toLowercase (String.ofList cs)).toList

/-- `nfkc` on the characters of a string. -/
def compose (u : UnicodeTables) (cs : List Char) : List Char := (u.nfkc (String.ofList cs)).toList

/-- What Unicode says about the full lowercase mapping and about NFKC. -/
structure Documented (u : UnicodeTables) : Prop where
  lower_nil : lower u [] = []
  lower_ne_nil {w : List Char} : w ≠ [] → lower u w ≠ []
  /-- The mapping is stable. -/
  lower_lower (w : List Char) : lower u (lower u w) = lower u w
  /-- Whitespace has no case and is not looked through by the context of the final sigma. -/
  lower_cut (a b : List Char) {c : Char} : isWhitespace c = true →
    lower u (a ++ c :: b) = lower u a ++ c :: lower u b
  lower_plain {w : List Char} : (∀ c ∈ w, isWhitespace c = false) →
    ∀ c ∈ lower u w, isWhitespace c = false
  compose_nil : compose u [] = []
  compose_ne_nil {w : List Char} : w ≠ [] → compose u w ≠ []
  /-- The form is stable. -/
  compose_compose (w : List Char) : compose u (compose u w) = compose u w
  /-- Every part of a text in the form is in it. -/
  compose_part {a b : List Char} : compose u (a ++ b) = a ++ b → compose u a = a ∧ compose u b = b
  /-- Whitespace is a starter, composes with nothing and is mapped to whitespace. -/
  compose_cut {c : Char} : isWhitespace c = true → ∃ d, isWhitespace d = true ∧
    ∀ a b, compose u (a ++ c :: b) = compose u a ++ d :: compose u b
  compose_space (a b : List Char) : compose u (a ++ ' ' :: b) = compose u a ++ ' ' :: compose u b
  /-- Only spacing marks decompose into whitespace and others. None of them is a small letter. -/
  compose_plain {w : List Char} : compose u w = w → (∀ c ∈ w, isWhitespace c = false) →
    ∀ c ∈ compose u (lower u w), isWhitespace c = false
  /-- What small letters and marks compose to is a small letter. -/
  lower_compose {w : List Char} : compose u w = w →
    lower u (compose u (lower u w)) = compose u (lower u w)

theorem normalizeName_toList (u : UnicodeTables) (raw : String) :
    (normalizeName u raw).toList =
      lower u ([' '].intercalate (words isWhitespace (compose u raw.toList))) := by
  rw [normalizeName, collapseSpaces_trim, lower, compose, String.ofList_toList]

section Words

variable {u : UnicodeTables} {y : List Char}

/-- A word of a text in NFKC is in NFKC. -/
theorem Documented.word (hu : Documented u) (hy : compose u y = y) :
    ∀ w ∈ words isWhitespace y, compose u w = w := by
  induction y using sepInduction (p := isWhitespace) with
  | plain w hw =>
      intro v hv
      rw [((mem_words_of_plain hw).mp hv).1]
      exact hy
  | cut w c rest hw hc ih =>
      obtain ⟨hfront, hback⟩ := hu.compose_part hy
      obtain ⟨-, hrest⟩ := hu.compose_part (a := [c]) (b := rest) hback
      rw [words_append_cons hc]
      intro v hv
      rcases List.mem_append.mp hv with hv | hv
      · rw [((mem_words_of_plain hw).mp hv).1]
        exact hfront
      · exact ih hrest v hv

/-- **Lowercasing keeps NFKC** exactly when it keeps the NFKC of every word. -/
theorem Documented.compose_lower_iff (hu : Documented u) (hy : compose u y = y) :
    compose u (lower u y) = lower u y ↔
      ∀ w ∈ words isWhitespace y, compose u (lower u w) = lower u w := by
  have hplain : ∀ w, (∀ c ∈ w, isWhitespace c = false) →
      ((∀ v ∈ words isWhitespace w, compose u (lower u v) = lower u v) ↔
        compose u (lower u w) = lower u w) := by
    intro w hw
    by_cases hne : w = []
    · subst hne
      rw [hu.lower_nil, hu.compose_nil]
      simp
    · rw [words_of_plain hw hne]
      simp
  induction y using sepInduction (p := isWhitespace) with
  | plain w hw => exact (hplain w hw).symm
  | cut w c rest hw hc ih =>
      obtain ⟨hfront, hback⟩ := hu.compose_part hy
      obtain ⟨hone, hrest⟩ := hu.compose_part (a := [c]) (b := rest) hback
      obtain ⟨d, -, hcut⟩ := hu.compose_cut hc
      -- the whitespace of a text in NFKC is mapped to itself
      have hd : d = c := by
        have hsingle := hcut [] []
        rw [hu.compose_nil, List.nil_append, List.nil_append, hone] at hsingle
        exact (List.cons.inj hsingle).1.symm
      subst hd
      have htail : compose u (lower u rest) = lower u rest ↔
          ∀ v ∈ words isWhitespace rest, compose u (lower u v) = lower u v := ih hrest
      rw [hu.lower_cut w rest hc, hcut, words_append_cons hc, List.forall_mem_append,
        hplain w hw, ← htail]
      constructor
      · intro h
        have hmem : ∀ v : List Char, (∀ x ∈ v, isWhitespace x = false) → d ∉ v := by
          intro v hv hd
          rw [hv d hd] at hc
          cases hc
        exact append_cons_inj (hmem _ (hu.compose_plain hfront hw)) (hmem _ (hu.lower_plain hw)) h
      · rintro ⟨hw', hrest'⟩
        rw [hw', hrest']

end Words

/-- **Normalizing a name twice.** -/
theorem normalizeName_idem_iff {u : UnicodeTables} (hu : Documented u) (raw : String) :
    normalizeName u (normalizeName u raw) = normalizeName u raw ↔
      compose u (lower u (compose u raw.toList)) = lower u (compose u raw.toList) := by
  have hy := hu.compose_compose raw.toList
  rw [hu.compose_lower_iff hy, ← String.toList_inj, normalizeName_toList u (normalizeName u raw),
    normalizeName_toList u raw]
  generalize compose u raw.toList = y at hy ⊢
  have hlower : ∀ ws, lower u ([' '].intercalate ws) = [' '].intercalate (ws.map (lower u)) :=
    map_intercalate hu.lower_nil fun a b => hu.lower_cut a b rfl
  have hcompose : ∀ ws, compose u ([' '].intercalate ws) = [' '].intercalate (ws.map (compose u)) :=
    map_intercalate hu.compose_nil hu.compose_space
  have hword := hu.word hy
  have hagain : ∀ w ∈ ((words isWhitespace y).map (lower u)).map (compose u),
      w ≠ [] ∧ ∀ c ∈ w, isWhitespace c = false := by
    intro w hw
    obtain ⟨w', hw', rfl⟩ := List.mem_map.mp hw
    obtain ⟨v, hv, rfl⟩ := List.mem_map.mp hw'
    exact ⟨hu.compose_ne_nil (hu.lower_ne_nil (mem_words hv).1),
      hu.compose_plain (hword v hv) (mem_words hv).2⟩
  have honce : ∀ w ∈ (words isWhitespace y).map (lower u),
      w ≠ [] ∧ ∀ c ∈ w, isWhitespace c = false := by
    intro w hw
    obtain ⟨v, hv, rfl⟩ := List.mem_map.mp hw
    exact ⟨hu.lower_ne_nil (mem_words hv).1, hu.lower_plain (mem_words hv).2⟩
  -- the second lowercasing changes nothing
  have hstable : (((words isWhitespace y).map (lower u)).map (compose u)).map (lower u) =
      ((words isWhitespace y).map (lower u)).map (compose u) := by
    rw [List.map_map, List.map_map, List.map_map]
    apply List.map_congr_left
    intro w hw
    exact hu.lower_compose (hword w hw)
  rw [hlower (words isWhitespace y), hcompose, words_intercalate rfl hagain, hlower, hstable]
  constructor
  · intro h w hw
    have hmaps : ((words isWhitespace y).map (lower u)).map (compose u) =
        (words isWhitespace y).map (lower u) := by
      rw [← words_intercalate (p := isWhitespace) (c := ' ') rfl hagain, h,
        words_intercalate rfl honce]
    rw [List.map_map] at hmaps
    exact List.map_inj_left.mp hmaps w hw
  · intro h
    rw [List.map_map]
    congr 1
    exact List.map_congr_left h

/-- The other kinds. -/
theorem normalizeStrict_idem {u : UnicodeTables} (hu : Documented u) (raw : String) :
    normalizeStrict u (normalizeStrict u raw) = normalizeStrict u raw := by
  have hchars : ∀ s : String, (normalizeStrict u s).toList =
      lower u (s.toList.filter fun c => !isWhitespace c) := fun s => rfl
  have hplain : ∀ c ∈ raw.toList.filter fun c => !isWhitespace c, isWhitespace c = false := by
    intro c hc
    simpa using (List.mem_filter.mp hc).2
  rw [← String.toList_inj, hchars, hchars raw]
  have hkeep : (lower u (raw.toList.filter fun c => !isWhitespace c)).filter
      (fun c => !isWhitespace c) = lower u (raw.toList.filter fun c => !isWhitespace c) := by
    rw [List.filter_eq_self]
    intro c hc
    rw [hu.lower_plain hplain c hc]
    rfl
  rw [hkeep, hu.lower_lower]

/-- **The vault's normal form is stable** for every kind but persons and organisations; for these it
is exactly where lowercasing the NFKC of the value leaves it in NFKC. -/
theorem normalize_canonical_iff {u : UnicodeTables} (hu : Documented u) (kind : EntityKind)
    (x : String) :
    normalize u kind (normalize u kind x) = normalize u kind x ↔
      (kind ≠ .person ∧ kind ≠ .org) ∨
        u.nfkc (u.toLowercase (u.nfkc x)) = u.toLowercase (u.nfkc x) := by
  have hname : normalizeName u (normalizeName u x) = normalizeName u x ↔
      u.nfkc (u.toLowercase (u.nfkc x)) = u.toLowercase (u.nfkc x) := by
    have hcompose : compose u x.toList = (u.nfkc x).toList := by
      rw [compose, String.ofList_toList]
    have hlower : lower u (u.nfkc x).toList = (u.toLowercase (u.nfkc x)).toList := by
      rw [lower, String.ofList_toList]
    rw [normalizeName_idem_iff hu, hcompose, hlower, compose, String.ofList_toList,
      String.toList_inj]
  have hstrict := normalizeStrict_idem hu x
  cases kind with
  | person => simpa [normalize] using hname
  | org => simpa [normalize] using hname
  | nir | iban | phone | email | uuid | loc => simpa [normalize] using hstrict

/-! ## A caron -/

/-- `U+030C`, the combining caron. -/
def caron : Char := Char.ofNat 0x30C

/-- `U+01F0`, the small j with caron. There is no capital one. -/
def jCaron : Char := Char.ofNat 0x1F0

def lowerJ (c : Char) : Char := if c = 'J' then 'j' else c

/-- The composition of `j` and the caron. -/
def composeJ : List Char → List Char
  | [] => []
  | [c] => [c]
  | a :: b :: cs => if a = 'j' ∧ b = caron then jCaron :: composeJ cs else a :: composeJ (b :: cs)

/-- The mappings on text whose only letters are `J` and `j` and whose only mark is the caron. -/
def caronTables : UnicodeTables where
  toLowercase s := String.ofList (s.toList.map lowerJ)
  nfkc s := String.ofList (composeJ s.toList)

theorem lower_caronTables (cs : List Char) : lower caronTables cs = cs.map lowerJ := by
  rw [lower, caronTables, String.toList_ofList, String.toList_ofList]

theorem compose_caronTables (cs : List Char) : compose caronTables cs = composeJ cs := by
  rw [compose, caronTables, String.toList_ofList, String.toList_ofList]

/-- A character that whitespace is not. -/
theorem ne_of_isWhitespace {c d : Char} (hc : isWhitespace c = true)
    (hd : isWhitespace d = false) : c ≠ d := by
  rintro rfl
  rw [hc] at hd
  cases hd

/-- What composing writes is read or the composed letter. -/
theorem mem_composeJ {cs : List Char} {c : Char} (h : c ∈ composeJ cs) : c ∈ cs ∨ c = jCaron := by
  induction cs using composeJ.induct with
  | case1 => exact Or.inl h
  | case2 a => exact Or.inl h
  | case3 a b cs hj ih =>
      rw [composeJ, if_pos hj] at h
      rcases List.mem_cons.mp h with h | h
      · exact Or.inr h
      · exact (ih h).imp_left fun hmem => List.mem_cons_of_mem a (List.mem_cons_of_mem b hmem)
  | case4 a b cs hj ih =>
      rw [composeJ, if_neg hj] at h
      rcases List.mem_cons.mp h with h | h
      · exact Or.inl (h ▸ List.mem_cons_self)
      · exact (ih h).imp_left fun hmem => List.mem_cons_of_mem a hmem

theorem composeJ_cons_of_ne {a : Char} (ha : a ≠ 'j') (cs : List Char) :
    composeJ (a :: cs) = a :: composeJ cs := by
  cases cs with
  | nil => rfl
  | cons b cs => rw [composeJ, if_neg fun h => ha h.1]

/-- Nothing composes with whitespace. -/
theorem composeJ_cut {c : Char} (hc : isWhitespace c = true) (a b : List Char) :
    composeJ (a ++ c :: b) = composeJ a ++ c :: composeJ b := by
  have hj : c ≠ 'j' := ne_of_isWhitespace hc rfl
  have hcaron : c ≠ caron := ne_of_isWhitespace hc (by decide)
  induction a using composeJ.induct with
  | case1 => exact composeJ_cons_of_ne hj b
  | case2 x =>
      have hfirst : composeJ (x :: c :: b) = x :: composeJ (c :: b) := by
        rw [composeJ, if_neg fun h => hcaron h.2]
      rw [List.singleton_append, hfirst, composeJ_cons_of_ne hj]
      rfl
  | case3 x y cs hxy ih =>
      rw [List.cons_append, List.cons_append, composeJ, if_pos hxy, ih, composeJ, if_pos hxy]
      rfl
  | case4 x y cs hxy ih =>
      rw [List.cons_append] at ih
      rw [List.cons_append, List.cons_append, composeJ, if_neg hxy, ih, composeJ, if_neg hxy]
      rfl

/-- **Composed text** has no `j` before a caron. -/
theorem composeJ_eq_self_iff {cs : List Char} :
    composeJ cs = cs ↔ cs.IsChain fun a b => ¬ (a = 'j' ∧ b = caron) := by
  induction cs using composeJ.induct with
  | case1 => simp [composeJ]
  | case2 a => simp [composeJ]
  | case3 a b cs hj ih =>
      rw [composeJ, if_pos hj, List.isChain_cons_cons]
      constructor
      · intro h
        have hfirst := (List.cons.inj h).1
        rw [hj.1] at hfirst
        exact absurd hfirst (by decide)
      · exact fun h => absurd hj h.1
  | case4 a b cs hj ih =>
      rw [composeJ, if_neg hj, List.isChain_cons_cons, ← ih, List.cons.injEq]
      exact ⟨fun h => ⟨hj, h.2⟩, fun h => ⟨rfl, h.2⟩⟩

theorem composeJ_composeJ (cs : List Char) : composeJ (composeJ cs) = composeJ cs := by
  rw [composeJ_eq_self_iff]
  induction cs using composeJ.induct with
  | case1 => exact List.isChain_nil
  | case2 a => exact List.isChain_singleton a
  | case3 a b cs hj ih =>
      rw [composeJ, if_pos hj]
      refine List.isChain_cons.mpr ⟨?_, ih⟩
      exact fun y _ h => absurd h.1 (by decide)
  | case4 a b cs hj ih =>
      rw [composeJ, if_neg hj]
      refine List.isChain_cons.mpr ⟨?_, ih⟩
      -- what follows begins with `b` or with the composed letter
      rintro y hy ⟨ha, rfl⟩
      cases cs with
      | nil =>
          cases hy
          exact hj ⟨ha, rfl⟩
      | cons d cs =>
          rw [composeJ] at hy
          split_ifs at hy
          · exact absurd (Option.some_inj.mp hy) (by decide)
          · exact hj ⟨ha, Option.some_inj.mp hy⟩

theorem isWhitespace_lowerJ {c : Char} (hc : isWhitespace c = false) :
    isWhitespace (lowerJ c) = false := by
  unfold lowerJ
  split_ifs
  · rfl
  · exact hc

theorem lowerJ_of_ne {c : Char} (hc : c ≠ 'J') : lowerJ c = c := if_neg hc

theorem lowerJ_ne (c : Char) : lowerJ c ≠ 'J' := by
  unfold lowerJ
  split_ifs with hc
  · decide
  · exact hc

theorem map_lowerJ_of_ne {cs : List Char} (h : ∀ c ∈ cs, c ≠ 'J') : cs.map lowerJ = cs := by
  rw [List.map_congr_left fun c hc => lowerJ_of_ne (h c hc), List.map_id']

theorem caronTables_documented : Documented caronTables := by
  constructor
  all_goals simp only [lower_caronTables, compose_caronTables]
  case lower_nil => rfl
  case lower_ne_nil => exact fun hne => by simpa using hne
  case lower_lower =>
    intro w
    apply map_lowerJ_of_ne
    intro c hc
    obtain ⟨d, -, rfl⟩ := List.mem_map.mp hc
    exact lowerJ_ne d
  case lower_cut =>
    intro a b c hc
    rw [List.map_append, List.map_cons, lowerJ_of_ne (ne_of_isWhitespace hc rfl)]
  case lower_plain =>
    intro w hw c hc
    obtain ⟨d, hd, rfl⟩ := List.mem_map.mp hc
    exact isWhitespace_lowerJ (hw d hd)
  case compose_nil => rfl
  case compose_ne_nil =>
    intro w hne
    fun_cases composeJ w with
    | case1 => exact absurd rfl hne
    | case2 a => exact hne
    | case3 a b cs hj => exact List.cons_ne_nil _ _
    | case4 a b cs hj => exact List.cons_ne_nil _ _
  case compose_compose => exact composeJ_composeJ
  case compose_part =>
    intro a b h
    obtain ⟨ha, hb, -⟩ := List.isChain_append.mp (composeJ_eq_self_iff.mp h)
    exact ⟨composeJ_eq_self_iff.mpr ha, composeJ_eq_self_iff.mpr hb⟩
  case compose_cut => exact fun hc => ⟨_, hc, composeJ_cut hc⟩
  case compose_space => exact composeJ_cut rfl
  case compose_plain =>
    intro w _ hw c hc
    rcases mem_composeJ hc with hc | rfl
    · obtain ⟨d, hd, rfl⟩ := List.mem_map.mp hc
      exact isWhitespace_lowerJ (hw d hd)
    · decide
  case lower_compose =>
    intro w _
    apply map_lowerJ_of_ne
    intro c hc
    rcases mem_composeJ hc with hc | rfl
    · obtain ⟨d, -, rfl⟩ := List.mem_map.mp hc
      exact lowerJ_ne d
    · decide

/-- A name without marks is stable. -/
theorem plain_name_stable :
    normalize caronTables .person (normalize caronTables .person "  J\tJj ") =
      normalize caronTables .person "  J\tJj " :=
  (normalize_canonical_iff caronTables_documented .person "  J\tJj ").mpr (Or.inr (by decide))

/-- A capital with a caron: its normal form is the small letter and the caron, whose normal form is
the small letter with caron. -/
theorem capital_caron_unstable : ¬ ∀ (u : UnicodeTables), Documented u →
    ∀ (kind : EntityKind) (x : String),
      normalize u kind (normalize u kind x) = normalize u kind x := by
  intro h
  have hstable := h caronTables caronTables_documented .person (String.ofList ['J', caron])
  exact absurd hstable (by decide)

end McpGateway.Vault
