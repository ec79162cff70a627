import McpGateway.Foundation.Find
import McpGateway.Text
import McpGateway.Vault.Model

/-! # The regex scanner

`sanitize/regex_scan.rs`: five patterns searched one after another, two of them with a checksum. A
text is its characters; the offsets of a span count bytes. `none` is a panic.

* `scan_spans` — the scanner never panics, and its spans are the matches its validators accept.
* `Emitted.onBoundaries` — every span is a non-empty piece of the text. -/

namespace McpGateway.Sanitize

open Foundation Foundation.Shape Vault

/-! ## Spans -/

/-- A byte-offset range and the kind of entity detected. -/
structure Span where
  start : Nat
  stop : Nat
  kind : EntityKind
  deriving DecidableEq, Repr

def Span.len (s : Span) : Nat := s.stop - s.start

/-- A non-empty range of the text on character boundaries. -/
structure OnBoundaries (text : List Char) (s : Span) : Prop where
  lt : s.start < s.stop
  start : isCharBoundary text s.start = true
  stop : isCharBoundary text s.stop = true

/-! ## Classes -/

def inRange (lo hi c : Char) : Bool := lo.toNat ≤ c.toNat && c.toNat ≤ hi.toNat

def isAsciiDigit (c : Char) : Bool := inRange '0' '9' c
def isUpper (c : Char) : Bool := inRange 'A' 'Z' c
def isAlpha (c : Char) : Bool := isUpper c || inRange 'a' 'z' c
def isAlnum (c : Char) : Bool := isAlpha c || isAsciiDigit c
def isHex (c : Char) : Bool := isAsciiDigit c || inRange 'A' 'F' c || inRange 'a' 'f' c

/-- The classes `\d` and `\w` of the `regex` crate; `\s` is `isWhitespace`. -/
structure UnicodeClasses where
  isDigit : Char → Bool
  isWord : Char → Bool
  digit_ascii : ∀ c, c.toNat < 128 → isDigit c = isAsciiDigit c
  word_ascii : ∀ c, c.toNat < 128 → isWord c = (isAlnum c || c == '_')
  word_of_digit : ∀ c, isDigit c = true → isWord c = true
  not_space_of_word : ∀ c, isWord c = true → isWhitespace c = false

theorem inRange_iff {lo hi c : Char} :
    inRange lo hi c = true ↔ lo.toNat ≤ c.toNat ∧ c.toNat ≤ hi.toNat := by
  unfold inRange
  rw [Bool.and_eq_true, decide_eq_true_eq, decide_eq_true_eq]

theorem isAlnum_iff {c : Char} : isAlnum c = true ↔ (65 ≤ c.toNat ∧ c.toNat ≤ 90) ∨
    (97 ≤ c.toNat ∧ c.toNat ≤ 122) ∨ (48 ≤ c.toNat ∧ c.toNat ≤ 57) := by
  unfold isAlnum isAlpha isUpper isAsciiDigit
  rw [Bool.or_eq_true, Bool.or_eq_true, inRange_iff, inRange_iff, inRange_iff, or_assoc]
  rfl

/-- `\b` -/
def wordBoundary (u : UnicodeClasses) : Pattern.Assertion Char := fun prev next =>
  prev.any u.isWord != next.any u.isWord

/-! ## Patterns -/

def one (p : Char → Bool) : Shape Char := .chars 1 (some 1) p
def lit (c : Char) : Shape Char := one (· == c)
def exactly (n : Nat) (p : Char → Bool) : Shape Char := .chars n (some n) p
def optional (p : Char → Bool) : Shape Char := .chars 0 (some 1) p

/-- `[123]\s?\d{2}\s?\d{2}\s?(?:2A|2B|\d{2})\s?\d{3}\s?\d{3}\s?\d{2}` between word boundaries. -/
def reFrNir (u : UnicodeClasses) : Pattern Char where
  opens := true
  shape := seqs (one (inRange '1' '3'))
    [optional isWhitespace, exactly 2 u.isDigit, optional isWhitespace, exactly 2 u.isDigit,
      optional isWhitespace,
      .alt (.seq (lit '2') (lit 'A')) (.alt (.seq (lit '2') (lit 'B')) (exactly 2 u.isDigit)),
      optional isWhitespace, exactly 3 u.isDigit, optional isWhitespace, exactly 3 u.isDigit,
      optional isWhitespace, exactly 2 u.isDigit]
  closes := true

/-- `\b[A-Z]{2}\d{2}[A-Z0-9]{11,30}\b` -/
def reIban (u : UnicodeClasses) : Pattern Char where
  opens := true
  shape := seqs (exactly 2 isUpper)
    [exactly 2 u.isDigit, .chars 11 (some 30) fun c => isUpper c || isAsciiDigit c]
  closes := true

/-- `\+[1-9]\d{6,14}\b` -/
def reE164 (u : UnicodeClasses) : Pattern Char where
  opens := false
  shape := seqs (lit '+') [one (inRange '1' '9'), .chars 6 (some 14) u.isDigit]
  closes := true

/-- `[A-Za-z0-9._%+\-]+@[A-Za-z0-9.\-]+\.[A-Za-z]{2,}` -/
def reEmail : Pattern Char where
  opens := false
  shape := seqs (.chars 1 none fun c => isAlnum c || "._%+-".toList.contains c)
    [lit '@', .chars 1 none fun c => isAlnum c || ".-".toList.contains c, lit '.',
      .chars 2 none isAlpha]
  closes := false

/-- `\b[0-9A-Fa-f]{8}-[0-9A-Fa-f]{4}-[0-9A-Fa-f]{4}-[0-9A-Fa-f]{4}-[0-9A-Fa-f]{12}\b` -/
def reUuid : Pattern Char where
  opens := true
  shape := seqs (exactly 8 isHex) [lit '-', exactly 4 isHex, lit '-', exactly 4 isHex, lit '-',
    exactly 4 isHex, lit '-', exactly 12 isHex]
  closes := true

/-! ## Validators -/

/-- `parse::<u64>` of ASCII digits. -/
def decimal (cs : List Char) : Nat := cs.foldl (fun n c => 10 * n + (c.toNat - 48)) 0

/-- The département group, for Corsica as a number. -/
def normalizedDep (dep : List Char) : Option (List Char) :=
  if dep = ['2', 'A'] then some ['1', '9']
  else if dep = ['2', 'B'] then some ['1', '8']
  else if dep.all isAsciiDigit then some dep
  else none

/-- `is_valid_nir`: the key is `97 - (N mod 97)`. -/
def isValidNir (raw : List Char) : Option Bool :=
  let compact := raw.filter fun c => !isWhitespace c
  if utf8Len compact ≠ 15 then some false
  else do
    let head ← slice compact 0 5
    let dep ← slice compact 5 7
    let tail ← sliceFrom compact 7
    match normalizedDep dep with
    | none => some false
    | some dep' =>
        let normalized := head ++ dep' ++ tail
        if normalized.any fun c => !isAsciiDigit c then some false
        else some (97 - decimal (normalized.take 13) % 97 == decimal (normalized.drop 13))

/-- The digits of a letter or digit of an IBAN. -/
def ibanDigits (c : Char) : List Char :=
  if isAsciiDigit c then [c] else Nat.toDigits 10 (c.toNat - 65 + 10)

/-- `is_valid_iban`: the rotated number is 1 modulo 97. -/
def isValidIban (raw : List Char) : Option Bool :=
  let compact := raw.filter fun c => !isWhitespace c
  if utf8Len compact < 15 || utf8Len compact > 34 then some false
  else if !compact.all fun c => isUpper c || isAsciiDigit c then some false
  else
    let numeric := (compact.drop 4 ++ compact.take 4).flatMap ibanDigits
    some (numeric.foldl (fun rem c => (rem * 10 + (c.toNat - 48)) % 97) 0 == 1)

/-- The pattern of a kind, and its validator. -/
structure Detector where
  kind : EntityKind
  pattern : Pattern Char
  valid : List Char → Option Bool

/-- What `scan` runs, in order. -/
def detectors (u : UnicodeClasses) : List Detector := [
  ⟨.nir, reFrNir u, isValidNir⟩,
  ⟨.iban, reIban u, isValidIban⟩,
  ⟨.phone, reE164 u, fun _ => some true⟩,
  ⟨.email, reEmail, fun _ => some true⟩,
  ⟨.uuid, reUuid, fun _ => some true⟩]

/-! ## The scan -/

/-- The characters of a match. -/
def matched (text : List Char) (m : Pattern.Match) : List Char :=
  (text.drop m.start).take m.length

/-- Its span. -/
def spanOf (kind : EntityKind) (text : List Char) (m : Pattern.Match) : Span :=
  ⟨utf8Len (text.take m.start), utf8Len (text.take (m.start + m.length)), kind⟩

/-- The hits among some matches. -/
def hits (d : Detector) (text : List Char) : List Pattern.Match → Option (List Span)
  | [] => some []
  | m :: ms => do
      let ok ← d.valid (matched text m)
      let rest ← hits d text ms
      some (if ok then spanOf d.kind text m :: rest else rest)

/-- The passes of some detectors. -/
def scanWith (u : UnicodeClasses) (text : List Char) : List Detector → Option (List Span)
  | [] => some []
  | d :: ds => do
      let spans ← hits d text (d.pattern.findIter (wordBoundary u) text)
      let rest ← scanWith u text ds
      some (spans ++ rest)

/-- `scan`. -/
def scan (u : UnicodeClasses) (text : List Char) : Option (List Span) :=
  scanWith u text (detectors u)

/-! ## What the scan emits -/

/-- Fifteen characters in fifteen bytes can be cut anywhere. -/
theorem isValidNir_isSome {raw : List Char}
    (h : 15 ≤ (raw.filter fun c => !isWhitespace c).length) : (isValidNir raw).isSome = true := by
  unfold isValidNir
  generalize raw.filter (fun c => !isWhitespace c) = compact at h
  by_cases hlen : utf8Len compact = 15
  · have hle := length_le_utf8Len compact
    have hsingle : utf8Len compact = compact.length := by omega
    have hhead := slice_of_single hsingle (Nat.zero_le 5) (by omega)
    have hdep := slice_of_single hsingle (show 5 ≤ 7 by decide) (by omega)
    have htail := sliceFrom_of_single hsingle (show 7 ≤ compact.length by omega)
    simp only [hlen, ne_eq, not_true_eq_false, if_false, hhead, hdep, htail, Option.bind_eq_bind,
      Option.bind_some]
    split
    · rfl
    · split_ifs <;> rfl
  · simp only [ne_eq, hlen, not_false_eq_true, if_true, Option.isSome_some]

/-- A word of the pattern has fifteen characters besides its spaces. -/
theorem reFrNir_counts (u : UnicodeClasses) :
    (reFrNir u).shape.Counts (fun c => !isWhitespace c) 15 := by
  have hdigit : ∀ n, (exactly n u.isDigit).Counts (fun c => !isWhitespace c) n := by
    intro n
    refine counts_chars fun c hc => ?_
    rw [u.not_space_of_word c (u.word_of_digit c hc)]
    rfl
  have hlit : ∀ c, isWhitespace c = false → (lit c).Counts (fun c => !isWhitespace c) 1 := by
    intro c hspace
    refine counts_chars fun d hd => ?_
    rw [beq_iff_eq.mp hd, hspace]
    rfl
  have hfirst : (one (inRange '1' '3')).Counts (fun c => !isWhitespace c) 1 := by
    refine counts_chars fun c hc => ?_
    have hrange := inRange_iff.mp hc
    have hword : u.isWord c = true := by
      have h3 : '3'.toNat = 51 := rfl
      rw [u.word_ascii c (by omega), Bool.or_eq_true, isAlnum_iff]
      have h1 : '1'.toNat = 49 := rfl
      omega
    rw [u.not_space_of_word c hword]
    rfl
  have hspace : (optional isWhitespace).Counts (fun c => !isWhitespace c) 0 := counts_zero _ _
  have hdep := Counts.alt ((hlit '2' rfl).seq (hlit 'A' rfl))
    (((hlit '2' rfl).seq (hlit 'B' rfl)).alt (hdigit 2))
  exact hfirst.seq (hspace.seq ((hdigit 2).seq (hspace.seq ((hdigit 2).seq (hspace.seq (hdep.seq
    (hspace.seq ((hdigit 3).seq (hspace.seq ((hdigit 3).seq (hspace.seq (hdigit 2))))))))))))

/-- No validator panics on a match of its pattern. -/
theorem valid_isSome (u : UnicodeClasses) {d : Detector} (hd : d ∈ detectors u) {w : List Char}
    (hw : d.pattern.shape.Denotes w) : (d.valid w).isSome = true := by
  simp only [detectors, List.mem_cons, List.not_mem_nil, or_false] at hd
  rcases hd with rfl | rfl | rfl | rfl | rfl
  · exact isValidNir_isSome (reFrNir_counts u w hw)
  · show (isValidIban w).isSome = true
    unfold isValidIban
    dsimp only
    split_ifs <;> rfl
  · rfl
  · rfl
  · rfl

/-- The scan of the text emits the span: some detector finds a match there and accepts it. -/
def Emitted (u : UnicodeClasses) (text : List Char) (s : Span) : Prop :=
  ∃ d ∈ detectors u, ∃ pre w rest, text = pre ++ (w ++ rest) ∧
    (⟨pre.length, w.length⟩ : Pattern.Match) ∈ d.pattern.findIter (wordBoundary u) text ∧
    d.valid w = some true ∧ s = ⟨utf8Len pre, utf8Len pre + utf8Len w, d.kind⟩

theorem matched_append (kind : EntityKind) (pre w rest : List Char) :
    matched (pre ++ (w ++ rest)) ⟨pre.length, w.length⟩ = w ∧
      spanOf kind (pre ++ (w ++ rest)) ⟨pre.length, w.length⟩
        = ⟨utf8Len pre, utf8Len pre + utf8Len w, kind⟩ := by
  constructor
  · unfold matched
    dsimp only
    rw [List.drop_left, List.take_left]
  · unfold spanOf
    have hstop : (pre ++ (w ++ rest)).take (pre.length + w.length) = pre ++ w := by
      rw [← List.append_assoc]
      exact List.take_left' List.length_append
    rw [List.take_left, hstop, utf8Len_append]

theorem hits_eq {d : Detector} {text : List Char} {ms : List Pattern.Match}
    (hvalid : ∀ m ∈ ms, (d.valid (matched text m)).isSome = true) :
    ∃ spans, hits d text ms = some spans ∧ ∀ s, s ∈ spans ↔
      ∃ m ∈ ms, d.valid (matched text m) = some true ∧ s = spanOf d.kind text m := by
  induction ms with
  | nil => exact ⟨[], rfl, by simp⟩
  | cons m ms ih =>
      obtain ⟨ok, hok⟩ := Option.isSome_iff_exists.mp (hvalid m List.mem_cons_self)
      obtain ⟨spans, hspans, hmem⟩ := ih fun m' hm' => hvalid m' (List.mem_cons_of_mem _ hm')
      unfold hits
      rw [hok, hspans]
      refine ⟨_, rfl, ?_⟩
      intro s
      cases ok with
      | true => simp [hmem, hok]
      | false => simp [hmem, hok]

/-- One pass. -/
theorem detector_hits (u : UnicodeClasses) {d : Detector} (hd : d ∈ detectors u) (text : List Char) :
    ∃ spans, hits d text (d.pattern.findIter (wordBoundary u) text) = some spans ∧
      ∀ s, s ∈ spans ↔ ∃ pre w rest, text = pre ++ (w ++ rest) ∧
        (⟨pre.length, w.length⟩ : Pattern.Match) ∈ d.pattern.findIter (wordBoundary u) text ∧
        d.valid w = some true ∧ s = ⟨utf8Len pre, utf8Len pre + utf8Len w, d.kind⟩ := by
  have hvalid : ∀ m ∈ d.pattern.findIter (wordBoundary u) text,
      (d.valid (matched text m)).isSome = true := by
    intro m hm
    obtain ⟨pre, w, rest, rfl, rfl, hst⟩ := Pattern.findIter_sound hm
    rw [(matched_append d.kind pre w rest).1]
    exact valid_isSome u hd hst.denotes
  obtain ⟨spans, hspans, hmem⟩ := hits_eq hvalid
  refine ⟨spans, hspans, fun s => (hmem s).trans ?_⟩
  constructor
  · rintro ⟨m, hm, hok, rfl⟩
    obtain ⟨pre, w, rest, rfl, rfl, -⟩ := Pattern.findIter_sound hm
    obtain ⟨hmatched, hspan⟩ := matched_append d.kind pre w rest
    rw [hmatched] at hok
    exact ⟨pre, w, rest, rfl, hm, hok, hspan⟩
  · rintro ⟨pre, w, rest, rfl, hm, hok, rfl⟩
    obtain ⟨hmatched, hspan⟩ := matched_append d.kind pre w rest
    refine ⟨_, hm, ?_, hspan.symm⟩
    rw [hmatched]
    exact hok

/-- **What the scan emits.** -/
theorem scan_spans (u : UnicodeClasses) (text : List Char) :
    ∃ spans, scan u text = some spans ∧ ∀ s, s ∈ spans ↔ Emitted u text s := by
  have hpasses : ∀ ds : List Detector, (∀ d ∈ ds, d ∈ detectors u) →
      ∃ spans, scanWith u text ds = some spans ∧ ∀ s, s ∈ spans ↔ ∃ d ∈ ds,
        ∃ pre w rest, text = pre ++ (w ++ rest) ∧
        (⟨pre.length, w.length⟩ : Pattern.Match) ∈ d.pattern.findIter (wordBoundary u) text ∧
        d.valid w = some true ∧ s = ⟨utf8Len pre, utf8Len pre + utf8Len w, d.kind⟩ := by
    intro ds
    induction ds with
    | nil => exact fun _ => ⟨[], rfl, by simp⟩
    | cons d ds ih =>
        intro hds
        obtain ⟨spans, hspans, hmem⟩ := detector_hits u (hds d List.mem_cons_self) text
        obtain ⟨rest, hrest, hmem'⟩ := ih fun d' hd' => hds d' (List.mem_cons_of_mem _ hd')
        refine ⟨spans ++ rest, ?_, ?_⟩
        · unfold scanWith
          rw [hspans, hrest]
          rfl
        · intro s
          rw [List.mem_append, hmem, hmem', List.exists_mem_cons_iff]
  exact hpasses (detectors u) fun _ hd => hd

theorem minLength_pos (u : UnicodeClasses) {d : Detector} (hd : d ∈ detectors u) :
    1 ≤ d.pattern.shape.minLength := by
  simp only [detectors, List.mem_cons, List.not_mem_nil, or_false] at hd
  rcases hd with rfl | rfl | rfl | rfl | rfl
  · exact Nat.le_add_right 1 _
  · exact Nat.le_trans (by decide) (Nat.le_add_right 2 _)
  · exact Nat.le_add_right 1 _
  · exact Nat.le_add_right 1 _
  · exact Nat.le_trans (by decide) (Nat.le_add_right 8 _)

/-- **Every span is a non-empty piece of the text.** -/
theorem Emitted.onBoundaries {u : UnicodeClasses} {text : List Char} {s : Span}
    (h : Emitted u text s) : OnBoundaries text s := by
  obtain ⟨d, hd, pre, w, rest, rfl, hm, -, rfl⟩ := h
  obtain ⟨pre', w', rest', htext, hmatch, hst⟩ := Pattern.findIter_sound hm
  have hlen : 1 ≤ w.length := by
    have hw : w.length = w'.length := congrArg Pattern.Match.length hmatch
    rw [hw]
    exact Nat.le_trans (minLength_pos u hd) (minLength_le hst.denotes)
  refine ⟨?_, ?_, ?_⟩
  · have hpos : 0 < utf8Len w := utf8Len_pos (List.length_pos_iff.mp hlen)
    exact Nat.lt_add_of_pos_right hpos
  · exact isCharBoundary_iff.mpr ⟨pre, w ++ rest, rfl, rfl⟩
  · exact isCharBoundary_iff.mpr ⟨pre ++ w, rest, by rw [List.append_assoc], utf8Len_append pre w⟩

/-! ## ASCII -/

def isAsciiWord (c : Char) : Bool := isAlnum c || c == '_'

theorem isAsciiWord_iff {c : Char} : isAsciiWord c = true ↔ (65 ≤ c.toNat ∧ c.toNat ≤ 90) ∨
    (97 ≤ c.toNat ∧ c.toNat ≤ 122) ∨ (48 ≤ c.toNat ∧ c.toNat ≤ 57) ∨ c.toNat = 95 := by
  have hlow : c = '_' ↔ c.toNat = 95 :=
    ⟨fun h => by rw [h]; rfl, fun h => Char.toNat_inj.mp h⟩
  unfold isAsciiWord
  rw [Bool.or_eq_true, isAlnum_iff, beq_iff_eq, hlow, or_assoc, or_assoc]

/-- The classes of a text of ASCII characters. -/
def asciiClasses : UnicodeClasses where
  isDigit := isAsciiDigit
  isWord := isAsciiWord
  digit_ascii := fun _ _ => rfl
  word_ascii := fun _ _ => rfl
  word_of_digit := by
    intro c h
    have hdigit := inRange_iff.mp h
    exact isAsciiWord_iff.mpr (Or.inr (Or.inr (Or.inl hdigit)))
  not_space_of_word := by
    intro c h
    have hword := isAsciiWord_iff.mp h
    unfold isWhitespace
    simp only [Bool.or_eq_false_iff, Bool.and_eq_false_iff, decide_eq_false_iff_not, beq_eq_false_iff_ne]
    omega

end McpGateway.Sanitize
