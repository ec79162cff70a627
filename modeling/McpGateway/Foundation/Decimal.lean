import Mathlib.Algebra.Ring.Nat
import Mathlib.Data.List.Basic

/-! # Decimal fields of a fixed width

`decimal w n` are the last `w` digits of `n`. Text made of such fields is read back field by field and
ordered as the numbers are.

* `pad_toDigits` — padding with zeros gives the field.
* `readDecimal_decimal` — a field is read back.
* `decimal_append_lt`, `decimal_append_not_lt` — the order of texts that begin with a field. -/

namespace McpGateway.Foundation

/-- The last `w` decimal digits of `n`. -/
def decimal : (w n : Nat) → List Char
  | 0, _ => []
  | w + 1, n => decimal w (n / 10) ++ [Nat.digitChar (n % 10)]

theorem decimal_succ (w n : Nat) :
    decimal (w + 1) n = decimal w (n / 10) ++ [Nat.digitChar (n % 10)] := rfl

theorem decimal_zero (w : Nat) : decimal w 0 = List.replicate w '0' := by
  induction w with
  | zero => rfl
  | succ w ih => rw [decimal_succ, Nat.zero_div, ih, List.replicate_succ']; rfl

/-! ## Printing -/

/-- **Padding.** -/
theorem pad_toDigits {w n : Nat} (hw : 0 < w) (hn : n < 10 ^ w) :
    List.replicate (w - (Nat.toDigits 10 n).length) '0' ++ Nat.toDigits 10 n = decimal w n := by
  induction w generalizing n with
  | zero => exact absurd hw (Nat.lt_irrefl 0)
  | succ w ih =>
      by_cases hsmall : n < 10
      · rw [Nat.toDigits_of_lt_base hsmall, decimal_succ, Nat.div_eq_of_lt hsmall, decimal_zero,
          Nat.mod_eq_of_lt hsmall]
        rfl
      · have hpos : 0 < w := by
          rcases Nat.eq_zero_or_pos w with rfl | hpos
          · exact absurd hn hsmall
          · exact hpos
        have hdiv : n / 10 < 10 ^ w := by
          rw [Nat.pow_succ] at hn
          omega
        rw [Nat.toDigits_of_base_le (by decide) (by omega), decimal_succ, ← ih hpos hdiv,
          List.length_append, List.length_singleton, Nat.add_sub_add_right, List.append_assoc]

/-- A number that fills the field needs no padding. -/
theorem toDigits_eq_decimal {w n : Nat} (hlow : 10 ^ w ≤ n) (hn : n < 10 ^ (w + 1)) :
    Nat.toDigits 10 n = decimal (w + 1) n := by
  induction w generalizing n with
  | zero =>
      have hsmall : n < 10 := hn
      rw [Nat.toDigits_of_lt_base hsmall, decimal_succ, Nat.mod_eq_of_lt hsmall]
      rfl
  | succ w ih =>
      have hlow' : 10 ^ w ≤ n / 10 := by
        rw [Nat.pow_succ] at hlow
        omega
      have hn' : n / 10 < 10 ^ (w + 1) := by
        rw [Nat.pow_succ] at hn
        omega
      have hpos := Nat.one_le_pow w 10 (by decide)
      rw [Nat.toDigits_of_base_le (by decide) (by omega), ih hlow' hn', decimal_succ (w + 1)]

theorem length_decimal (w n : Nat) : (decimal w n).length = w := by
  induction w generalizing n with
  | zero => rfl
  | succ w ih => rw [decimal_succ, List.length_append, ih, List.length_singleton]

/-! ## Reading -/

/-- `w` digits, behind those that make `acc`. -/
def readDecimal : (w acc : Nat) → List Char → Option (Nat × List Char)
  | 0, acc, cs => some (acc, cs)
  | _ + 1, _, [] => none
  | w + 1, acc, c :: cs =>
      if c.isDigit then readDecimal w (10 * acc + (c.toNat - 48)) cs else none

/-- The last digit is read last. -/
theorem readDecimal_succ (w acc : Nat) (cs : List Char) :
    readDecimal (w + 1) acc cs = (readDecimal w acc cs).bind fun r => readDecimal 1 r.1 r.2 := by
  induction w generalizing acc cs with
  | zero => rfl
  | succ w ih =>
      cases cs with
      | nil => rfl
      | cons c cs =>
          rw [readDecimal, readDecimal]
          by_cases hc : c.isDigit = true
          · rw [if_pos hc, if_pos hc, ih]
          · rw [if_neg hc, if_neg hc]
            rfl

theorem readDecimal_digitChar {d : Nat} (hd : d < 10) (acc : Nat) (rest : List Char) :
    readDecimal 1 acc (d.digitChar :: rest) = some (10 * acc + d, rest) := by
  have hdigits : ∀ d < 10, d.digitChar.isDigit = true ∧ d.digitChar.toNat - 48 = d := by decide
  obtain ⟨hdigit, hvalue⟩ := hdigits d hd
  rw [readDecimal, if_pos hdigit, hvalue]
  rfl

/-- **A field is read back.** -/
theorem readDecimal_decimal {w n : Nat} (hn : n < 10 ^ w) (acc : Nat) (rest : List Char) :
    readDecimal w acc (decimal w n ++ rest) = some (10 ^ w * acc + n, rest) := by
  induction w generalizing n rest with
  | zero =>
      obtain rfl : n = 0 := Nat.lt_one_iff.mp hn
      simp [readDecimal, decimal]
  | succ w ih =>
      have hdiv : n / 10 < 10 ^ w := by
        rw [Nat.pow_succ] at hn
        omega
      rw [readDecimal_succ, decimal_succ, List.append_assoc, List.singleton_append, ih hdiv,
        Option.bind_some, readDecimal_digitChar (Nat.mod_lt n (by decide)), Nat.pow_succ,
        Nat.mul_add, ← Nat.mul_assoc, Nat.mul_comm 10 (10 ^ w), Nat.add_assoc, Nat.div_add_mod]

/-! ## The order -/

theorem digitChar_lt {m n : Nat} (hmn : m < n) (hn : n < 10) : m.digitChar < n.digitChar := by
  have hdigits : ∀ n < 10, ∀ m < n, m.digitChar < n.digitChar := by decide
  exact hdigits n hn m hmn

/-- **The smaller field decides.** -/
theorem decimal_append_lt {w m n : Nat} (hmn : m < n) (hn : n < 10 ^ w) (x y : List Char) :
    decimal w m ++ x < decimal w n ++ y := by
  induction w generalizing m n x y with
  | zero =>
      obtain rfl : n = 0 := Nat.lt_one_iff.mp hn
      exact absurd hmn (Nat.not_lt_zero m)
  | succ w ih =>
      have hdiv : n / 10 < 10 ^ w := by
        rw [Nat.pow_succ] at hn
        omega
      rw [decimal_succ, decimal_succ, List.append_assoc, List.append_assoc]
      by_cases hlt : m / 10 < n / 10
      · exact ih hlt hdiv _ _
      · -- the digits in front are the same
        have heq : m / 10 = n / 10 := by omega
        rw [heq]
        apply List.append_left_lt
        exact List.cons_lt_cons_iff.mpr (Or.inl (digitChar_lt (by omega) (Nat.mod_lt n (by decide))))

theorem lt_of_append_lt {a x y : List Char} (h : a ++ x < a ++ y) : x < y := by
  induction a with
  | nil => exact h
  | cons c a ih => exact ih (List.cons_lt_cons_self.mp h)

/-- **The order of fields**, as the negation of its converse: equal fields leave it to what follows. -/
theorem decimal_append_not_lt {w m n : Nat} (hmn : m ≤ n) (hn : n < 10 ^ w) {x y : List Char}
    (hrest : m = n → ¬ y < x) : ¬ decimal w n ++ y < decimal w m ++ x := by
  rcases Nat.lt_or_eq_of_le hmn with hlt | rfl
  · exact List.lt_asymm (decimal_append_lt hlt hn x y)
  · exact fun h => hrest rfl (lt_of_append_lt h)

end McpGateway.Foundation
