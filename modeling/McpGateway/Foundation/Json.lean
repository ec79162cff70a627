import Mathlib.Data.List.Basic

/-! # Compact JSON

Strings, integers and arrays as a compact printer writes them, and readers that take one value off
the front of a text. Each reader gives back what was printed, whatever comes after it
(`readQuoted_quoted`, `readInt_int`, `readArray_array`). -/

namespace McpGateway.Foundation.Json

/-- Take a fixed text off the front. -/
def eat : (expected text : List Char) → Option (List Char)
  | [], cs => some cs
  | _ :: _, [] => none
  | e :: es, c :: cs => if e = c then eat es cs else none

theorem eat_append (expected rest : List Char) : eat expected (expected ++ rest) = some rest := by
  induction expected with
  | nil => rfl
  | cons e es ih => simp [eat, ih]

/-! ## Strings -/

def hexDigit (n : Nat) : Char := Char.ofNat (if n < 10 then 48 + n else 87 + n)

def hexValue (c : Char) : Option Nat :=
  let n := c.toNat
  if 48 ≤ n ∧ n ≤ 57 then some (n - 48)
  else if 97 ≤ n ∧ n ≤ 102 then some (n - 87)
  else if 65 ≤ n ∧ n ≤ 70 then some (n - 55)
  else none

/-- The escapes that are not by number. -/
def shortEscapes : List (Char × Char) := [
  ('"', '"'), ('\\', '\\'), ('\n', 'n'), ('\r', 'r'), ('\t', 't'), (Char.ofNat 8, 'b'),
  (Char.ofNat 12, 'f')]

def escapeChar (c : Char) : List Char :=
  match shortEscapes.find? fun e => e.1 = c with
  | some e => ['\\', e.2]
  | none =>
      if c.toNat < 32 then ['\\', 'u', '0', '0', hexDigit (c.toNat / 16), hexDigit (c.toNat % 16)]
      else [c]

def escaped (cs : List Char) : List Char := cs.flatMap escapeChar

def quoted (s : String) : List Char := '"' :: (escaped s.toList ++ ['"'])

/-- What an escape by number stands for; surrogates are not read. -/
def escapedCode (h₃ h₂ h₁ h₀ : Char) : Option Char := do
  let n₃ ← hexValue h₃
  let n₂ ← hexValue h₂
  let n₁ ← hexValue h₁
  let n₀ ← hexValue h₀
  some (Char.ofNat (4096 * n₃ + 256 * n₂ + 16 * n₁ + n₀))

def consRead (c : Char) : List Char × List Char → List Char × List Char
  | (cs, rest) => (c :: cs, rest)

/-- The text up to the closing quote. -/
def readEscaped : List Char → Option (List Char × List Char)
  | [] => none
  | '"' :: rest => some ([], rest)
  | '\\' :: 'u' :: h₃ :: h₂ :: h₁ :: h₀ :: rest =>
      (escapedCode h₃ h₂ h₁ h₀).bind fun c => (readEscaped rest).map (consRead c)
  | '\\' :: e :: rest =>
      (shortEscapes.find? fun d => d.2 = e).bind fun d => (readEscaped rest).map (consRead d.1)
  | c :: rest => (readEscaped rest).map (consRead c)

def readQuoted : List Char → Option (String × List Char)
  | '"' :: rest => (readEscaped rest).map fun r => (String.ofList r.1, r.2)
  | _ => none

theorem hexValue_hexDigit {n : Nat} (h : n < 16) : hexValue (hexDigit n) = some n := by
  have hall : ∀ n < 16, hexValue (hexDigit n) = some n := by decide
  exact hall n h

theorem escapedCode_control {c : Char} (h : c.toNat < 32) :
    escapedCode '0' '0' (hexDigit (c.toNat / 16)) (hexDigit (c.toNat % 16)) = some c := by
  have hhigh := hexValue_hexDigit (show c.toNat / 16 < 16 by omega)
  have hlow := hexValue_hexDigit (show c.toNat % 16 < 16 by omega)
  have hzero : hexValue '0' = some 0 := by decide
  have hvalue : 16 * (c.toNat / 16) + c.toNat % 16 = c.toNat := by omega
  simp [escapedCode, hhigh, hlow, hzero, hvalue]

/-- **One character.** -/
theorem readEscaped_escapeChar (c : Char) (rest : List Char) :
    readEscaped (escapeChar c ++ rest) = (readEscaped rest).map (consRead c) := by
  unfold escapeChar
  cases hshort : shortEscapes.find? fun e => e.1 = c with
  | some e =>
      have hmem := List.mem_of_find?_eq_some hshort
      have hc : e.1 = c := by simpa using List.find?_some hshort
      subst hc
      simp only [shortEscapes, List.mem_cons, List.not_mem_nil, or_false] at hmem
      rcases hmem with rfl | rfl | rfl | rfl | rfl | rfl | rfl <;>
        simp [readEscaped, shortEscapes]
  | none =>
      have hnot : ∀ e ∈ shortEscapes, e.1 ≠ c := by
        simpa using List.find?_eq_none.mp hshort
      have hquote : c ≠ '"' := fun h => hnot ('"', '"') (by simp [shortEscapes]) h.symm
      have hslash : c ≠ '\\' := fun h => hnot ('\\', '\\') (by simp [shortEscapes]) h.symm
      dsimp only
      split_ifs with hcontrol
      · simp [readEscaped, escapedCode_control hcontrol]
      · simp [readEscaped, hslash]

theorem readEscaped_escaped (cs rest : List Char) :
    readEscaped (escaped cs ++ '"' :: rest) = some (cs, rest) := by
  induction cs with
  | nil => simp [escaped, readEscaped]
  | cons c cs ih =>
      have hcons : escaped (c :: cs) ++ '"' :: rest = escapeChar c ++ (escaped cs ++ '"' :: rest) := by
        simp [escaped]
      rw [hcons, readEscaped_escapeChar, ih]
      rfl

/-- **Strings.** -/
theorem readQuoted_quoted (s : String) (rest : List Char) :
    readQuoted (quoted s ++ rest) = some (s, rest) := by
  have happend : quoted s ++ rest = '"' :: (escaped s.toList ++ '"' :: rest) := by simp [quoted]
  rw [happend, readQuoted, readEscaped_escaped]
  simp

/-! ## Integers -/

def nat (n : Nat) : List Char := Nat.toDigits 10 n

def readNat (cs : List Char) : Option (Nat × List Char) :=
  if (cs.takeWhile Char.isDigit).isEmpty then none
  else some (Nat.ofDigitChars 10 (cs.takeWhile Char.isDigit) 0, cs.dropWhile Char.isDigit)

def int : Int → List Char
  | .ofNat n => nat n
  | .negSucc n => '-' :: nat (n + 1)

def readInt : List Char → Option (Int × List Char)
  | '-' :: cs => (readNat cs).map fun r => (-r.1, r.2)
  | cs => (readNat cs).map fun r => (r.1, r.2)

/-- What comes after a number. -/
def EndsNumber (rest : List Char) : Prop := ∀ c ∈ rest.head?, c.isDigit = false

theorem EndsNumber.cons {c : Char} (h : c.isDigit = false) (rest : List Char) :
    EndsNumber (c :: rest) := by
  rintro d hd
  cases hd
  exact h

theorem isDigit_of_mem_nat {n : Nat} {c : Char} (h : c ∈ nat n) : c.isDigit = true :=
  Nat.isDigit_of_mem_toDigits (by decide) (by decide) h

theorem readNat_nat (n : Nat) {rest : List Char} (h : EndsNumber rest) :
    readNat (nat n ++ rest) = some (n, rest) := by
  have hdigits : ∀ c ∈ nat n, c.isDigit = true := fun c hc => isDigit_of_mem_nat hc
  have htake : (nat n ++ rest).takeWhile Char.isDigit = nat n := by
    rw [List.takeWhile_append_of_pos hdigits]
    cases rest with
    | nil => simp
    | cons c rest => simp [h c rfl]
  have hdrop : (nat n ++ rest).dropWhile Char.isDigit = rest := by
    rw [List.dropWhile_append_of_pos hdigits]
    cases rest with
    | nil => rfl
    | cons c rest => simp [h c rfl]
  unfold readNat
  rw [htake, hdrop]
  simp [nat]

theorem readInt_int (i : Int) {rest : List Char} (h : EndsNumber rest) :
    readInt (int i ++ rest) = some (i, rest) := by
  cases i with
  | negSucc n =>
      have hread := readNat_nat (n + 1) h
      simp only [int, List.cons_append, readInt, hread, Option.map_some]
      rfl
  | ofNat n =>
      have hread := readNat_nat n h
      simp only [int]
      cases hnat : nat n with
      | nil => exact absurd hnat Nat.toDigits_ne_nil
      | cons d ds =>
          have hd : d ≠ '-' := by
            rintro rfl
            have := isDigit_of_mem_nat (show '-' ∈ nat n by simp [hnat])
            exact absurd this (by decide)
          rw [hnat] at hread
          simp only [List.cons_append] at hread ⊢
          simp [readInt, hd, hread]

/-! ## Arrays -/

variable {α : Type} {print : α → List Char} {read : List Char → Option (α × List Char)}

def tail (print : α → List Char) : List α → List Char
  | [] => [']']
  | x :: xs => ',' :: (print x ++ tail print xs)

def array (print : α → List Char) : List α → List Char
  | [] => ['[', ']']
  | x :: xs => '[' :: (print x ++ tail print xs)

def readTail (read : List Char → Option (α × List Char)) :
    (fuel : Nat) → List Char → Option (List α × List Char)
  | _, ']' :: cs => some ([], cs)
  | fuel + 1, ',' :: cs => do
      let (x, cs) ← read cs
      let (xs, cs) ← readTail read fuel cs
      some (x :: xs, cs)
  | _, _ => none

def readArray (read : List Char → Option (α × List Char)) : List Char → Option (List α × List Char)
  | '[' :: ']' :: cs => some ([], cs)
  | '[' :: cs => do
      let (x, cs) ← read cs
      let (xs, cs) ← readTail read cs.length cs
      some (x :: xs, cs)
  | _ => none

/-- The reader gives back what was printed, before a comma or the end of an array. -/
def ReadsItems (print : α → List Char) (read : List Char → Option (α × List Char)) : Prop :=
  ∀ x rest, (rest.head? = some ',' ∨ rest.head? = some ']') → read (print x ++ rest) = some (x, rest)

theorem tail_head (print : α → List Char) (xs : List α) (rest : List Char) :
    (tail print xs ++ rest).head? = some ',' ∨ (tail print xs ++ rest).head? = some ']' := by
  cases xs with
  | nil => exact .inr rfl
  | cons x xs => exact .inl rfl

theorem length_tail (print : α → List Char) (xs : List α) : xs.length < (tail print xs).length := by
  induction xs with
  | nil => simp [tail]
  | cons x xs ih =>
      simp only [tail, List.length_cons, List.length_append]
      omega

theorem readTail_tail (hread : ReadsItems print read) (xs : List α) {fuel : Nat}
    (hfuel : xs.length ≤ fuel) (rest : List Char) :
    readTail read fuel (tail print xs ++ rest) = some (xs, rest) := by
  induction xs generalizing fuel with
  | nil => simp [tail, readTail]
  | cons x xs ih =>
      obtain ⟨fuel, rfl⟩ : ∃ n, fuel = n + 1 := ⟨fuel - 1, by simp at hfuel; omega⟩
      have hx := hread x (tail print xs ++ rest) (tail_head print xs rest)
      have hxs := ih (show xs.length ≤ fuel by simpa using hfuel)
      simp [tail, readTail, hx, hxs]

theorem readArray_array (hread : ReadsItems print read)
    (hstart : ∀ x, ∃ c cs, print x = c :: cs ∧ c ≠ ']') (xs : List α) (rest : List Char) :
    readArray read (array print xs ++ rest) = some (xs, rest) := by
  cases xs with
  | nil => rfl
  | cons x xs =>
      obtain ⟨c, cs, hprint, hc⟩ := hstart x
      have hx := hread x (tail print xs ++ rest) (tail_head print xs rest)
      have hlength : xs.length ≤ (tail print xs).length + rest.length := by
        have := length_tail print xs
        omega
      have hxs := readTail_tail hread xs hlength rest
      rw [hprint] at hx
      simp only [List.cons_append] at hx
      simp [array, readArray, hprint, hc, hx, hxs]

end McpGateway.Foundation.Json
