import Mathlib.Data.List.Basic

/-! # Shared data: bytes, text and UUIDs

The three programs of the repository (the Java gateway, the Rust ingestion daemon and the Rust
key-rotation job) meet in one PostgreSQL database. This file holds the plain data they share. -/

namespace McpGateway

/-- The largest `BIGINT`. -/
def bigintMax : Nat := 9223372036854775807

/-- Instants of the Java programs are counted in nanoseconds. -/
def nanosPerSecond : Nat := 1000000000

/-- A byte string: `byte[]` in Java, `Vec<u8>` / `&[u8]` in Rust, `BYTEA` in PostgreSQL. -/
abbrev Bytes := List UInt8

/-- The UTF-8 bytes of a string (`as_bytes()`, `getBytes(UTF_8)`). -/
def asBytes (s : String) : Bytes := s.toUTF8.data.toList

theorem asBytes_injective {s t : String} (h : asBytes s = asBytes t) : s = t := by
  have hdata : s.toByteArray.data = t.toByteArray.data := Array.toList_inj.mp h
  exact String.toByteArray_inj.mp (ByteArray.ext hdata)

/-- The `len` bytes of a number, most significant first. -/
def bytesBE (len n : Nat) : Bytes :=
  (List.range len).reverse.map fun i => UInt8.ofNat (n >>> (8 * i) % 256)

/-- A result that is not an error, from its decidable form. -/
theorem exists_ok_of_isSome {ε α : Type*} {x : Except ε α} (h : x.toOption.isSome = true) :
    ∃ a, x = .ok a := by
  cases x with
  | ok a => exact ⟨a, rfl⟩
  | error e => cases h

/-! ## UUIDs

A UUID is its 32 hexadecimal digits, so the text form only has to insert the hyphens. -/

/-- A 128-bit UUID, as its 32 hexadecimal digits. -/
structure Uuid where
  digits : List (Fin 16)
  length_digits : digits.length = 32
  deriving DecidableEq, Repr

namespace Uuid

/-- `00000000-0000-0000-0000-000000000000`. -/
def nil : Uuid := ⟨List.replicate 32 0, by simp⟩

/-- The UUID whose last digit is `d` and whose other digits are zero. -/
def ofDigit (d : Nat) : Uuid := ⟨List.replicate 31 0 ++ [Fin.ofNat 16 d], by simp⟩

/-- The last hexadecimal digit of a number. -/
def lastDigit (n : Nat) : Fin 16 := Fin.ofNat 16 n

/-- The version nibble: the first digit of the third group. -/
def version (u : Uuid) : Nat := (u.digits.getD 12 0).val

def hexChar (d : Fin 16) : Char := Char.ofNat (if d.val < 10 then 48 + d.val else 87 + d.val)

def hexValue (c : Char) : Option (Fin 16) :=
  let n := c.toNat
  if 48 ≤ n ∧ n ≤ 57 then some (Fin.ofNat 16 (n - 48))
  else if 97 ≤ n ∧ n ≤ 102 then some (Fin.ofNat 16 (n - 87))
  else if 65 ≤ n ∧ n ≤ 70 then some (Fin.ofNat 16 (n - 55))
  else none

/-- `UUID.toString()`: five groups of lowercase digits. -/
def toText (u : Uuid) : String :=
  let group := fun (start len : Nat) => ((u.digits.drop start).take len).map hexChar
  String.ofList (group 0 8 ++ '-' :: group 8 4 ++ '-' :: group 12 4 ++ '-' :: group 16 4 ++
    '-' :: group 20 12)

/-- The cast `::uuid` of PostgreSQL, on hyphenated or plain digits. -/
def parse (s : String) : Option Uuid := do
  let digits ← (s.toList.filter (· ≠ '-')).mapM hexValue
  if h : digits.length = 32 then some ⟨digits, h⟩ else none

theorem hexValue_hexChar (d : Fin 16) : hexValue (hexChar d) = some d := by
  revert d
  decide

theorem hexChar_ne_hyphen (d : Fin 16) : hexChar d ≠ '-' := by
  revert d
  decide

theorem mem_toText {u : Uuid} {c : Char} (h : c ∈ u.toText.toList) : c = '-' ∨ ∃ d, c = hexChar d := by
  have hgroup : ∀ start len, c ∈ ((u.digits.drop start).take len).map hexChar →
      c = '-' ∨ ∃ d, c = hexChar d := by
    intro start len hc
    obtain ⟨d, -, rfl⟩ := List.mem_map.mp hc
    exact Or.inr ⟨d, rfl⟩
  unfold toText at h
  rw [String.toList_ofList] at h
  simp only [List.append_assoc, List.cons_append, List.mem_append, List.mem_cons] at h
  rcases h with h | rfl | h | rfl | h | rfl | h | rfl | h
  · exact hgroup _ _ h
  · exact Or.inl rfl
  · exact hgroup _ _ h
  · exact Or.inl rfl
  · exact hgroup _ _ h
  · exact Or.inl rfl
  · exact hgroup _ _ h
  · exact Or.inl rfl
  · exact hgroup _ _ h

/-- A UUID is read back from its text. -/
theorem parse_toText (u : Uuid) : parse u.toText = some u := by
  have hgroup : ∀ start len, (((u.digits.drop start).take len).map hexChar).filter (· ≠ '-')
      = ((u.digits.drop start).take len).map hexChar := by
    intro start len
    apply List.filter_eq_self.mpr
    intro c hc
    obtain ⟨d, -, rfl⟩ := List.mem_map.mp hc
    simpa using hexChar_ne_hyphen d
  have hsplit : ∀ start len stop, start + len = stop →
      (u.digits.drop start).take len ++ u.digits.drop stop = u.digits.drop start := by
    rintro start len stop rfl
    rw [← List.drop_drop, List.take_append_drop]
  have hlast : (u.digits.drop 20).take 12 = u.digits.drop 20 := by
    apply List.take_of_length_le
    simp [u.length_digits]
  have hchars : u.toText.toList.filter (· ≠ '-') = u.digits.map hexChar := by
    have hhyphen : ∀ cs : List Char, ('-' :: cs).filter (· ≠ '-') = cs.filter (· ≠ '-') := by
      intro cs
      simp
    unfold toText
    simp only [String.toList_ofList, List.filter_append, hhyphen, hgroup, List.append_assoc]
    rw [hlast]
    simp only [← List.map_append]
    rw [hsplit 16 4 20 rfl, hsplit 12 4 16 rfl, hsplit 8 4 12 rfl, hsplit 0 8 8 rfl, List.drop_zero]
  have hdigits : ∀ ds : List (Fin 16), (ds.map hexChar).mapM hexValue = some ds := by
    intro ds
    induction ds with
    | nil => rfl
    | cons d ds ih => simp [hexValue_hexChar, ih]
  unfold parse
  rw [hchars, hdigits]
  simp [u.length_digits]

/-- Two digits make one byte. -/
def packDigits : List (Fin 16) → Bytes
  | hi :: lo :: rest => UInt8.ofNat (16 * hi.val + lo.val) :: packDigits rest
  | _ => []

/-- The 16 raw bytes (`Uuid::as_bytes`). -/
def asBytes (u : Uuid) : Bytes := packDigits u.digits

end Uuid

/-- `V11`: the seeded `default` workspace, also the column default of `V12`. -/
def defaultWorkspace : Uuid := Uuid.ofDigit 1

end McpGateway
