import Mathlib.Data.Nat.ModEq
import Mathlib.Tactic.Ring
import McpGateway.Sanitize.Scan

/-! # The checksum of an IBAN

`is_valid_iban` takes a remainder digit by digit. Here it is computed with the bounds of its
integers, and compared with the number it is the remainder of.

* `ibanChecked_eq` — no step overflows and the slice is at a character boundary, so the function
  answers what `isValidIban` does.
* `remainder_eq` — the streamed remainder is that of the unbounded number.
* `isValidIban_iff` — what is accepted.
* `iban_checksum` — all of it, with the errors a checksum detects. -/

namespace McpGateway.Sanitize

/-! ## The function with its bounds -/

/-- `u8` or `u64` arithmetic of a debug build: `none` is a panic. -/
def checkedSub (a b : Nat) : Option Nat := if b ≤ a then some (a - b) else none

def checkedAdd (bits a b : Nat) : Option Nat := if a + b < 2 ^ bits then some (a + b) else none

def checkedMul (bits a b : Nat) : Option Nat := if a * b < 2 ^ bits then some (a * b) else none

/-- The letter-to-digit loop. The outer `none` is a panic, the inner one its `return false`. -/
def ibanNumeric : List Char → Option (Option (List Char))
  | [] => some (some [])
  | c :: cs =>
      if isAsciiDigit c then do
        let numeric ← ibanNumeric cs
        some (numeric.map fun ds => c :: ds)
      else if isUpper c then do
        let v ← checkedSub c.toNat 65
        let v ← checkedAdd 8 v 10
        let numeric ← ibanNumeric cs
        some (numeric.map fun ds => Nat.toDigits 10 v ++ ds)
      else some none

/-- The loop that takes the remainder. -/
def remainder : Nat → List Char → Option Nat
  | rem, [] => some rem
  | rem, d :: ds => do
      let scaled ← checkedMul 64 rem 10
      let digit ← checkedSub d.toNat 48
      let sum ← checkedAdd 64 scaled digit
      remainder (sum % 97) ds

/-- The string without its whitespace. -/
def compacted (raw : List Char) : List Char := raw.filter fun c => !isWhitespace c

/-- `is_valid_iban`, step by step; `none` is a panic. -/
def ibanChecked (raw : List Char) : Option Bool :=
  let compact := compacted raw
  if utf8Len compact < 15 || utf8Len compact > 34 then some false
  else if !compact.all fun c => isUpper c || isAsciiDigit c then some false
  else do
    let (head, tail) ← splitAtByte 4 compact
    match ← ibanNumeric (tail ++ head) with
    | none => some false
    | some numeric => do
        let rem ← remainder 0 numeric
        some (rem == 1)

/-! ## The number -/

/-- An ASCII letter or digit as the form an IBAN is printed in has it. -/
def isIbanChar (c : Char) : Bool := isUpper c || isAsciiDigit c

/-- A digit as itself, a letter as a number from 10 to 35. -/
def ibanCharValue (c : Char) : Nat := if isAsciiDigit c then c.toNat - 48 else c.toNat - 55

/-- A digit takes one decimal place, a letter two. -/
def ibanScale (c : Char) : Nat := if isAsciiDigit c then 10 else 100

/-- The number the letters and digits spell, after `n`. -/
def spelledFrom (n : Nat) (cs : List Char) : Nat :=
  cs.foldl (fun n c => n * ibanScale c + ibanCharValue c) n

/-- The first four characters moved to the end. -/
def rotated (compact : List Char) : List Char := compact.drop 4 ++ compact.take 4

/-- The unbounded number of an IBAN. -/
def ibanNumber (compact : List Char) : Nat := spelledFrom 0 (rotated compact)

section Digits

variable {c : Char}

theorem isAsciiDigit_iff : isAsciiDigit c = true ↔ 48 ≤ c.toNat ∧ c.toNat ≤ 57 := inRange_iff

theorem isUpper_iff : isUpper c = true ↔ 65 ≤ c.toNat ∧ c.toNat ≤ 90 := inRange_iff

theorem isAsciiDigit_of_isUpper (h : isUpper c = true) : isAsciiDigit c = false := by
  rw [isUpper_iff] at h
  rw [Bool.eq_false_iff, Ne, isAsciiDigit_iff]
  omega

theorem ibanDigits_of_digit (h : isAsciiDigit c = true) : ibanDigits c = [c] := by
  rw [ibanDigits, if_pos h]

theorem ibanDigits_of_upper (h : isUpper c = true) :
    ibanDigits c = Nat.toDigits 10 (c.toNat - 65 + 10) := by
  rw [ibanDigits, isAsciiDigit_of_isUpper h, if_neg Bool.false_ne_true]

/-- A number from 10 to 35 has two digits. -/
theorem toDigits_two {v : Nat} (hv : v < 26) :
    Nat.toDigits 10 (v + 10) =
      [Char.ofNat (48 + (v + 10) / 10), Char.ofNat (48 + (v + 10) % 10)] := by
  revert v
  decide

theorem toNat_ofNat_digit {d : Nat} (hd : d < 10) : (Char.ofNat (48 + d)).toNat = 48 + d := by
  revert d
  decide

/-- What a letter or digit is replaced by is made of digits. -/
theorem ibanDigits_digit (hc : isIbanChar c = true) {d : Char} (hd : d ∈ ibanDigits c) :
    48 ≤ d.toNat ∧ d.toNat ≤ 57 := by
  rcases Bool.or_eq_true _ _ |>.mp hc with h | h
  · have hle := isUpper_iff.mp h
    rw [ibanDigits_of_upper h, toDigits_two (by omega)] at hd
    simp only [List.mem_cons, List.not_mem_nil, or_false] at hd
    rcases hd with rfl | rfl
    · rw [toNat_ofNat_digit (by omega)]
      omega
    · rw [toNat_ofNat_digit (by omega)]
      omega
  · rw [ibanDigits_of_digit h, List.mem_singleton] at hd
    rw [hd]
    exact isAsciiDigit_iff.mp h

/-- The digits of one character, read after `n`. -/
theorem foldl_ibanDigits (hc : isIbanChar c = true) (n : Nat) :
    (ibanDigits c).foldl (fun n d => n * 10 + (d.toNat - 48)) n =
      n * ibanScale c + ibanCharValue c := by
  rcases Bool.or_eq_true _ _ |>.mp hc with h | h
  · have hle := isUpper_iff.mp h
    rw [ibanDigits_of_upper h, toDigits_two (by omega), ibanScale, ibanCharValue,
      isAsciiDigit_of_isUpper h]
    simp only [List.foldl_cons, List.foldl_nil, Bool.false_eq_true, if_false]
    rw [toNat_ofNat_digit (by omega), toNat_ofNat_digit (by omega)]
    omega
  · rw [ibanDigits_of_digit h, ibanScale, ibanCharValue, if_pos h, if_pos h]
    rfl

end Digits

section Number

variable {cs : List Char}

/-- **The digits spell the number.** -/
theorem foldl_numeric (hcs : cs.all isIbanChar = true) (n : Nat) :
    (cs.flatMap ibanDigits).foldl (fun n d => n * 10 + (d.toNat - 48)) n = spelledFrom n cs := by
  induction cs generalizing n with
  | nil => rfl
  | cons c cs ih =>
      rw [List.all_cons, Bool.and_eq_true] at hcs
      rw [List.flatMap_cons, List.foldl_append, foldl_ibanDigits hcs.1, ih hcs.2]
      rfl

/-- **The streamed remainder** is the remainder of the number. -/
theorem foldl_mod (ds : List Char) (n : Nat) :
    ds.foldl (fun rem d => (rem * 10 + (d.toNat - 48)) % 97) (n % 97) =
      ds.foldl (fun n d => n * 10 + (d.toNat - 48)) n % 97 := by
  induction ds generalizing n with
  | nil => rfl
  | cons d ds ih =>
      have hstep : (n % 97 * 10 + (d.toNat - 48)) % 97 = (n * 10 + (d.toNat - 48)) % 97 := by
        omega
      rw [List.foldl_cons, List.foldl_cons, hstep, ih]

/-- No step of the remainder overflows. -/
theorem remainder_eq {ds : List Char} (hds : ∀ d ∈ ds, 48 ≤ d.toNat ∧ d.toNat ≤ 57) {rem : Nat}
    (hrem : rem < 97) :
    remainder rem ds = some (ds.foldl (fun rem d => (rem * 10 + (d.toNat - 48)) % 97) rem) := by
  induction ds generalizing rem with
  | nil => rfl
  | cons d ds ih =>
      have hd := hds d List.mem_cons_self
      have hscaled : checkedMul 64 rem 10 = some (rem * 10) := if_pos (by omega)
      have hdigit : checkedSub d.toNat 48 = some (d.toNat - 48) := if_pos hd.1
      have hsum : checkedAdd 64 (rem * 10) (d.toNat - 48) = some (rem * 10 + (d.toNat - 48)) :=
        if_pos (by omega)
      rw [remainder, hscaled, hdigit]
      simp only [Option.bind_eq_bind, Option.bind_some, hsum]
      rw [ih (fun d hd => hds d (List.mem_cons_of_mem _ hd)) (Nat.mod_lt _ (by decide))]
      rfl

/-- The substitution neither overflows nor meets another character. -/
theorem ibanNumeric_eq (hcs : cs.all isIbanChar = true) :
    ibanNumeric cs = some (some (cs.flatMap ibanDigits)) := by
  induction cs with
  | nil => rfl
  | cons c cs ih =>
      rw [List.all_cons, Bool.and_eq_true] at hcs
      rw [ibanNumeric, ih hcs.2, List.flatMap_cons]
      by_cases hdigit : isAsciiDigit c = true
      · rw [if_pos hdigit, ibanDigits_of_digit hdigit]
        rfl
      · have hupper : isUpper c = true := by
          have := hcs.1
          rw [isIbanChar, Bool.or_eq_true] at this
          exact this.resolve_right hdigit
        have hle := isUpper_iff.mp hupper
        have hsub : checkedSub c.toNat 65 = some (c.toNat - 65) := if_pos hle.1
        have hadd : checkedAdd 8 (c.toNat - 65) 10 = some (c.toNat - 65 + 10) :=
          if_pos (by omega)
        rw [if_neg hdigit, if_pos hupper, hsub, ibanDigits_of_upper hupper]
        simp only [Option.bind_eq_bind, Option.bind_some, hadd, Option.map_some]

end Number

/-! ## What is accepted -/

theorem utf8Len_of_ibanChars {cs : List Char} (h : cs.all isIbanChar = true) :
    utf8Len cs = cs.length := by
  induction cs with
  | nil => rfl
  | cons c cs ih =>
      rw [List.all_cons, Bool.and_eq_true] at h
      have hsmall : c.toNat ≤ 127 := by
        rcases Bool.or_eq_true _ _ |>.mp h.1 with hc | hc
        · have := isUpper_iff.mp hc
          omega
        · have := isAsciiDigit_iff.mp hc
          omega
      have hsize : c.utf8Size = 1 := Char.utf8Size_eq_one_iff.mpr (UInt32.le_iff_toNat_le.mpr hsmall)
      rw [utf8Len, hsize, ih h.2, List.length_cons, Nat.add_comm]

theorem all_rotated {cs : List Char} (h : cs.all isIbanChar = true) :
    (rotated cs).all isIbanChar = true := by
  rw [rotated, List.all_append, Bool.and_comm, ← List.all_append, List.take_append_drop]
  exact h

/-- `isValidIban` in the words of this file. -/
theorem isValidIban_eq (raw : List Char) :
    isValidIban raw =
      if utf8Len (compacted raw) < 15 || utf8Len (compacted raw) > 34 then some false
      else if !(compacted raw).all isIbanChar then some false
      else some (((rotated (compacted raw)).flatMap ibanDigits).foldl
        (fun rem d => (rem * 10 + (d.toNat - 48)) % 97) 0 == 1) := rfl

/-- **What is accepted**: 15 to 34 letters and digits whose number is 1 modulo 97. -/
theorem isValidIban_iff (raw : List Char) :
    isValidIban raw = some true ↔
      15 ≤ (compacted raw).length ∧ (compacted raw).length ≤ 34 ∧
        (compacted raw).all isIbanChar = true ∧ ibanNumber (compacted raw) % 97 = 1 := by
  rw [isValidIban_eq]
  by_cases hall : (compacted raw).all isIbanChar = true
  · have hmod := foldl_mod ((rotated (compacted raw)).flatMap ibanDigits) 0
    rw [foldl_numeric (all_rotated hall)] at hmod
    have hzero : 0 % 97 = 0 := rfl
    rw [hzero] at hmod
    rw [hall, hmod, utf8Len_of_ibanChars hall]
    simp only [Bool.not_true, Bool.false_eq_true, if_false, true_and]
    split_ifs with hlen
    · simp only [Bool.or_eq_true, decide_eq_true_eq] at hlen
      simp only [Option.some.injEq, Bool.false_eq_true, false_iff]
      omega
    · simp only [Bool.or_eq_true, decide_eq_true_eq] at hlen
      rw [Option.some.injEq, beq_iff_eq, ibanNumber]
      omega
  · rw [Bool.not_eq_true] at hall
    simp only [hall, Bool.not_false, if_true, ite_self]
    simp

/-- **No step fails**: the function answers what `isValidIban` does. -/
theorem ibanChecked_eq (raw : List Char) : ibanChecked raw = isValidIban raw := by
  rw [isValidIban_eq]
  show (if utf8Len (compacted raw) < 15 || utf8Len (compacted raw) > 34 then some false
    else if !(compacted raw).all isIbanChar then some false else _) = _
  split_ifs with hlen hall
  · rfl
  · rfl
  · rw [Bool.not_eq_true, Bool.not_eq_false'] at hall
    have hsingle := utf8Len_of_ibanChars hall
    have hlong : 4 ≤ (compacted raw).length := by
      rw [hsingle] at hlen
      simp only [Bool.or_eq_true, decide_eq_true_eq] at hlen
      omega
    rw [splitAtByte_of_single hsingle hlong]
    simp only [Option.bind_eq_bind, Option.bind_some]
    have hsub := ibanNumeric_eq (all_rotated hall)
    rw [rotated] at hsub
    rw [hsub]
    have hdigits : ∀ d ∈ (rotated (compacted raw)).flatMap ibanDigits,
        48 ≤ d.toNat ∧ d.toNat ≤ 57 := by
      intro d hd
      obtain ⟨c, hc, hd⟩ := List.mem_flatMap.mp hd
      exact ibanDigits_digit (List.all_eq_true.mp (all_rotated hall) c hc) hd
    have hrem := remainder_eq hdigits (Nat.zero_lt_succ 96)
    rw [rotated] at hrem
    simp only [Option.bind_some, hrem, rotated]

/-! ## Errors in one character -/

section Errors

variable {c c' : Char}

/-- The characters read later shift what was read before by a power of ten. -/
theorem spelledFrom_eq (n : Nat) (cs : List Char) :
    spelledFrom n cs = n * (cs.map ibanScale).prod + spelledFrom 0 cs := by
  induction cs generalizing n with
  | nil => simp [spelledFrom]
  | cons c cs ih =>
      have hcons : ∀ m, spelledFrom m (c :: cs) =
          spelledFrom (m * ibanScale c + ibanCharValue c) cs := fun _ => rfl
      rw [hcons, hcons, ih, ih (0 * ibanScale c + ibanCharValue c), List.map_cons, List.prod_cons]
      ring

theorem coprime_scales (cs : List Char) : ((cs.map ibanScale).prod).Coprime 97 := by
  induction cs with
  | nil => exact Nat.coprime_one_left 97
  | cons c cs ih =>
      have hc : (ibanScale c).Coprime 97 := by
        unfold ibanScale
        split_ifs
        · decide
        · decide
      rw [List.map_cons, List.prod_cons]
      exact Nat.Coprime.mul_left hc ih

/-- Two characters of one class at one place give the same remainder only when their values agree
modulo 97. -/
theorem value_modEq_of_spelled {before after : List Char} (hscale : ibanScale c = ibanScale c')
    (h : spelledFrom 0 (before ++ c :: after) ≡ spelledFrom 0 (before ++ c' :: after) [MOD 97]) :
    ibanCharValue c ≡ ibanCharValue c' [MOD 97] := by
  have hread : ∀ d, spelledFrom 0 (before ++ d :: after) =
      (spelledFrom 0 before * ibanScale d + ibanCharValue d) * (after.map ibanScale).prod +
        spelledFrom 0 after := by
    intro d
    rw [← spelledFrom_eq]
    exact List.foldl_append
  rw [hread, hread, hscale] at h
  have hshifted := Nat.ModEq.add_right_cancel' (spelledFrom 0 after) h
  have hgcd : Nat.gcd 97 (after.map ibanScale).prod = 1 := (coprime_scales after).symm
  have hsum := Nat.ModEq.cancel_right_of_coprime hgcd hshifted
  exact Nat.ModEq.add_left_cancel' _ hsum

/-- The place of a character is the same in the rotated number, whatever the character. -/
theorem rotated_place (before after : List Char) :
    ∃ before' after', ∀ d, rotated (before ++ d :: after) = before' ++ d :: after' := by
  by_cases h : 4 ≤ before.length
  · refine ⟨before.drop 4, after ++ before.take 4, ?_⟩
    intro d
    rw [rotated, List.drop_append_of_le_length h, List.take_append_of_le_length h,
      List.append_assoc, List.cons_append]
  · obtain ⟨k, hk⟩ : ∃ k, 4 = before.length + (k + 1) := ⟨3 - before.length, by omega⟩
    refine ⟨after.drop k ++ before, after.take k, ?_⟩
    intro d
    have hdrop : (before ++ d :: after).drop 4 = after.drop k := by
      rw [hk, List.drop_length_add_append]
      rfl
    have htake : (before ++ d :: after).take 4 = before ++ d :: after.take k := by
      rw [hk, List.take_length_add_append]
      rfl
    rw [rotated, hdrop, htake, List.append_assoc]

theorem compacted_append (hc : isWhitespace c = false) (before after : List Char) :
    compacted (before ++ c :: after) = compacted before ++ c :: compacted after := by
  rw [compacted, List.filter_append, List.filter_cons_of_pos (by rw [hc]; rfl)]
  rfl

/-- Two accepted strings that differ in one place have, there, the same value modulo 97. -/
theorem value_modEq_of_accepted {before after : List Char} (hws : isWhitespace c = false)
    (hws' : isWhitespace c' = false) (hscale : ibanScale c = ibanScale c')
    (h : isValidIban (before ++ c :: after) = some true)
    (h' : isValidIban (before ++ c' :: after) = some true) :
    ibanCharValue c ≡ ibanCharValue c' [MOD 97] := by
  have hone := ((isValidIban_iff _).mp h).2.2.2
  have hone' := ((isValidIban_iff _).mp h').2.2.2
  rw [compacted_append hws] at hone
  rw [compacted_append hws'] at hone'
  obtain ⟨before', after', hplace⟩ := rotated_place (compacted before) (compacted after)
  rw [ibanNumber, hplace] at hone hone'
  exact value_modEq_of_spelled hscale (hone.trans hone'.symm)

/-- An accepted string has no character that is neither whitespace nor a letter or digit. -/
theorem isIbanChar_of_accepted {before after : List Char} (hws : isWhitespace c = false)
    (h : isValidIban (before ++ c :: after) = some true) : isIbanChar c = true := by
  have hall := ((isValidIban_iff _).mp h).2.2.1
  rw [compacted_append hws] at hall
  exact List.all_eq_true.mp hall c (by simp)

theorem isWhitespace_of_isIbanChar (h : isIbanChar c = true) : isWhitespace c = false := by
  have hrange : 48 ≤ c.toNat ∧ c.toNat ≤ 90 := by
    rcases Bool.or_eq_true _ _ |>.mp h with hc | hc
    · have := isUpper_iff.mp hc
      omega
    · have := isAsciiDigit_iff.mp hc
      omega
  simp only [isWhitespace, Bool.or_eq_false_iff, Bool.and_eq_false_iff, decide_eq_false_iff_not,
    beq_eq_false_iff_ne]
  omega

/-- A digit for another digit is detected. -/
theorem digit_error {before after : List Char} (hc : isAsciiDigit c = true)
    (hc' : isAsciiDigit c' = true) (hne : c ≠ c')
    (h : isValidIban (before ++ c :: after) = some true) :
    isValidIban (before ++ c' :: after) ≠ some true := by
  intro h'
  have hchar : ∀ d, isAsciiDigit d = true → isIbanChar d = true := by
    intro d hd
    rw [isIbanChar, hd, Bool.or_true]
  have hmod := value_modEq_of_accepted (isWhitespace_of_isIbanChar (hchar c hc))
    (isWhitespace_of_isIbanChar (hchar c' hc')) (by rw [ibanScale, ibanScale, hc, hc']) h h'
  rw [ibanCharValue, ibanCharValue, if_pos hc, if_pos hc'] at hmod
  rw [isAsciiDigit_iff] at hc hc'
  apply hne
  apply Char.toNat_inj.mp
  have := hmod.eq_of_lt_of_lt (by omega) (by omega)
  omega

/-- A letter for any other letter is detected: another capital by the checksum, anything else that
is not whitespace or a digit as no part of an IBAN. -/
theorem letter_error {before after : List Char} (hc : isUpper c = true)
    (hc' : isAsciiDigit c' = false) (hws' : isWhitespace c' = false) (hne : c ≠ c')
    (h : isValidIban (before ++ c :: after) = some true) :
    isValidIban (before ++ c' :: after) ≠ some true := by
  intro h'
  have hupper' : isUpper c' = true := by
    have := isIbanChar_of_accepted hws' h'
    rwa [isIbanChar, hc', Bool.or_false] at this
  have hchar : isIbanChar c = true := by rw [isIbanChar, hc, Bool.true_or]
  have hdigit := isAsciiDigit_of_isUpper hc
  have hmod := value_modEq_of_accepted (isWhitespace_of_isIbanChar hchar) hws'
    (by rw [ibanScale, ibanScale, hdigit, hc']) h h'
  rw [ibanCharValue, ibanCharValue, hdigit, hc', if_neg Bool.false_ne_true,
    if_neg Bool.false_ne_true] at hmod
  rw [isUpper_iff] at hc hupper'
  apply hne
  apply Char.toNat_inj.mp
  have := hmod.eq_of_lt_of_lt (by omega) (by omega)
  omega

end Errors

/-- **The checksum of an IBAN.** For every string the function answers without a panic or an
overflow; it answers true exactly when the string without its whitespace is 15 to 34 capitals and
digits whose number is 1 modulo 97. A digit of an accepted string changed to another digit, or a
letter to another letter, is not accepted. -/
theorem iban_checksum (raw : List Char) :
    (∃ b, ibanChecked raw = some b ∧ isValidIban raw = some b ∧
      (b = true ↔ 15 ≤ (compacted raw).length ∧ (compacted raw).length ≤ 34 ∧
        (∀ c ∈ compacted raw, isUpper c = true ∨ isAsciiDigit c = true) ∧
        ibanNumber (compacted raw) ≡ 1 [MOD 97])) ∧
    (isValidIban raw = some true → ∀ before after c c', raw = before ++ c :: after → c ≠ c' →
      (isAsciiDigit c = true ∧ isAsciiDigit c' = true ∨
        isUpper c = true ∧ isAsciiDigit c' = false ∧ isWhitespace c' = false) →
      isValidIban (before ++ c' :: after) = some false) := by
  have htotal : ∀ cs, isValidIban cs = some true ∨ isValidIban cs = some false := by
    intro cs
    rw [isValidIban_eq]
    split_ifs
    · exact Or.inr rfl
    · exact Or.inr rfl
    · rw [Option.some.injEq, Option.some.injEq]
      exact Bool.eq_false_or_eq_true _
  have hall : (compacted raw).all isIbanChar = true ↔
      ∀ c ∈ compacted raw, isUpper c = true ∨ isAsciiDigit c = true := by
    simp only [List.all_eq_true, isIbanChar, Bool.or_eq_true]
  have hiff := isValidIban_iff raw
  rw [hall] at hiff
  constructor
  · rcases htotal raw with h | h
    · exact ⟨true, by rw [ibanChecked_eq, h], h, fun _ => hiff.mp h, fun _ => rfl⟩
    · refine ⟨false, by rw [ibanChecked_eq, h], h, fun hb => absurd hb Bool.false_ne_true, ?_⟩
      intro hcond
      rw [hiff.mpr hcond] at h
      cases h
  · rintro h before after c c' rfl hne hclass
    refine (htotal _).resolve_left ?_
    rcases hclass with ⟨hc, hc'⟩ | ⟨hc, hc', hws'⟩
    · exact digit_error hc hc' hne h
    · exact letter_error hc hc' hws' hne h

/-- A changed digit and a changed letter of a French IBAN. -/
theorem french_iban_errors :
    isValidIban "FR1420041010050500013M02606".toList = some true ∧
    isValidIban "FR1420041010050500013M02607".toList = some false ∧
    isValidIban "FR1420041010050500013N02606".toList = some false := by
  have h : isValidIban "FR1420041010050500013M02606".toList = some true := by decide
  have hdetect := (iban_checksum "FR1420041010050500013M02606".toList).2 h
  refine ⟨h, ?_, ?_⟩
  · exact hdetect "FR1420041010050500013M0260".toList [] '6' '7' (by decide) (by decide)
      (Or.inl (by decide))
  · exact hdetect "FR1420041010050500013".toList "02606".toList 'M' 'N' (by decide) (by decide)
      (Or.inr (by decide))

end McpGateway.Sanitize
