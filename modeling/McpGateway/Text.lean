import Mathlib.Data.List.TakeWhile
import Mathlib.Tactic.IntervalCases
import McpGateway.Basic

/-! # Text primitives

The parts of Rust's `char` and `str` the ingestion daemon relies on, and UTF-8 decoding. Unicode
tables that live in the standard library or in a crate (`to_lowercase`, `nfkc`) stay parameters,
bundled in `UnicodeTables`. -/

namespace McpGateway

/-- The Unicode mappings the daemon calls. -/
structure UnicodeTables where
  /-- `str::to_lowercase` -/
  toLowercase : String → String
  /-- `UnicodeNormalization::nfkc` -/
  nfkc : String → String

/-- `char::is_whitespace`: the Unicode `White_Space` property. -/
def isWhitespace (c : Char) : Bool :=
  let n := c.toNat
  (0x9 ≤ n && n ≤ 0xD) || n == 0x20 || n == 0x85 || n == 0xA0 || n == 0x1680
    || (0x2000 ≤ n && n ≤ 0x200A) || n == 0x2028 || n == 0x2029 || n == 0x202F || n == 0x205F
    || n == 0x3000

/-- `str::trim` on the characters of a string. -/
def trim (cs : List Char) : List Char :=
  ((cs.dropWhile isWhitespace).reverse.dropWhile isWhitespace).reverse

/-- `s.trim().is_empty()` holds exactly for whitespace-only text. -/
theorem trim_eq_nil_iff (cs : List Char) : trim cs = [] ↔ ∀ c ∈ cs, isWhitespace c = true := by
  have hinner : trim cs = [] ↔ ∀ c ∈ cs.dropWhile isWhitespace, isWhitespace c = true := by
    simp only [trim, List.reverse_eq_nil_iff, List.dropWhile_eq_nil_iff, List.mem_reverse]
  rw [hinner]
  constructor
  · intro h
    cases hd : cs.dropWhile isWhitespace with
    | nil => exact List.dropWhile_eq_nil_iff.mp hd
    | cons c rest =>
        have hstop : isWhitespace c = false := by
          have := List.head?_dropWhile_not isWhitespace cs
          rw [hd] at this
          simpa using this
        have hc : isWhitespace c = true := h c (by rw [hd]; exact List.mem_cons_self)
        rw [hc] at hstop
        exact absurd hstop (by decide)
  · intro h c hc
    exact h c ((List.dropWhile_sublist _).subset hc)

/-! ## UTF-8

The decoders of the standard libraries are one pass over the bytes, `utf8Decode`, that reports
`none` for every maximal ill-formed part. They differ on an encoded surrogate, `ED` and then a byte
from `A0` on: Java takes its three bytes for one ill-formed part, Rust each for its own. `edEnd` is
the last byte that a decoder takes behind `ED`. -/

/-- What a multi-byte sequence still waits for: how many continuation bytes, the bits read so far,
and the range the next byte must be in. -/
structure Utf8Pending where
  needed : Nat
  codePoint : Nat
  lower : Nat
  upper : Nat

/-- A byte outside a sequence: a character, a sequence to finish, or an error. -/
def utf8Lead (edEnd b : Nat) : List (Option Char) × Option Utf8Pending :=
  if b < 0x80 then ([some (Char.ofNat b)], none)
  else if 0xC2 ≤ b && b ≤ 0xDF then ([], some ⟨1, b - 0xC0, 0x80, 0xBF⟩)
  else if b == 0xE0 then ([], some ⟨2, 0, 0xA0, 0xBF⟩)
  else if b == 0xED then ([], some ⟨2, 0xD, 0x80, edEnd⟩)
  else if 0xE1 ≤ b && b ≤ 0xEF then ([], some ⟨2, b - 0xE0, 0x80, 0xBF⟩)
  else if b == 0xF0 then ([], some ⟨3, 0, 0x90, 0xBF⟩)
  else if b == 0xF4 then ([], some ⟨3, 4, 0x80, 0x8F⟩)
  else if 0xF1 ≤ b && b ≤ 0xF3 then ([], some ⟨3, b - 0xF0, 0x80, 0xBF⟩)
  else ([none], none)

/-- The character of a complete sequence; a surrogate is none. -/
def utf8Char (codePoint : Nat) : Option Char :=
  if codePoint.isValidChar then some (Char.ofNat codePoint) else none

/-- One byte: a byte that cannot continue the sequence ends it with an error and is read again. -/
def utf8Byte (edEnd : Nat) (pending : Option Utf8Pending) (b : Nat) :
    List (Option Char) × Option Utf8Pending :=
  match pending with
  | none => utf8Lead edEnd b
  | some p =>
      if p.lower ≤ b && b ≤ p.upper then
        let codePoint := p.codePoint * 64 + (b - 0x80)
        if p.needed ≤ 1 then ([utf8Char codePoint], none)
        else ([], some ⟨p.needed - 1, codePoint, 0x80, 0xBF⟩)
      else
        let (out, next) := utf8Lead edEnd b
        (none :: out, next)

def utf8Decode (edEnd : Nat) (pending : Option Utf8Pending) : Bytes → List (Option Char)
  | [] => if pending.isSome then [none] else []
  | b :: bs =>
      let (out, next) := utf8Byte edEnd pending b.toNat
      out ++ utf8Decode edEnd next bs

/-- `String::from_utf8_lossy`. -/
def fromUtf8Lossy (content : Bytes) : String :=
  String.ofList ((utf8Decode 0x9F none content).map fun c => c.getD (Char.ofNat 0xFFFD))

/-- `std::str::from_utf8`. -/
def fromUtf8 (content : Bytes) : Option String :=
  ((utf8Decode 0x9F none content).mapM id).map String.ofList

example : fromUtf8Lossy [0x68, 0xC3, 0xA9, 0xE2, 0x82, 0x41] = "h\u00e9\ufffdA" := by decide

/-! ### Decoding what was encoded -/

theorem utf8Lead_two {edEnd n : Nat} (h : 2 ≤ n) (hn : n < 32) :
    utf8Lead edEnd (n + 0xC0) = ([], some ⟨1, n, 0x80, 0xBF⟩) := by
  unfold utf8Lead
  rw [if_neg (by omega), if_pos (by simp; omega), Nat.add_sub_cancel]

theorem utf8Lead_three {edEnd n : Nat} (hn : n < 16) :
    utf8Lead edEnd (n + 0xE0) =
      ([], some ⟨2, n, if n = 0 then 0xA0 else 0x80, if n = 13 then edEnd else 0xBF⟩) := by
  interval_cases n <;> rfl

theorem utf8Lead_four {edEnd n : Nat} (hn : n < 5) :
    utf8Lead edEnd (n + 0xF0) =
      ([], some ⟨3, n, if n = 0 then 0x90 else 0x80, if n = 4 then 0x8F else 0xBF⟩) := by
  interval_cases n <;> rfl

section Sequence

variable {edEnd b n codePoint lower upper : Nat} {p : Utf8Pending} {bs : Bytes}

/-- The first byte of a sequence. -/
theorem utf8Decode_lead (hb : b < 256) (h : utf8Lead edEnd b = ([], some p)) :
    utf8Decode edEnd none (UInt8.ofNat b :: bs) = utf8Decode edEnd (some p) bs := by
  have hbyte : (UInt8.ofNat b).toNat = b := UInt8.toNat_ofNat_of_lt' hb
  have hlead : utf8Byte edEnd none b = ([], some p) := h
  rw [utf8Decode, hbyte, hlead]
  rfl

/-- A byte in the middle of a sequence. -/
theorem utf8Decode_more (hb : b < 256) (hlower : lower ≤ b) (hupper : b ≤ upper) :
    utf8Decode edEnd (some ⟨n + 2, codePoint, lower, upper⟩) (UInt8.ofNat b :: bs) =
      utf8Decode edEnd (some ⟨n + 1, codePoint * 64 + (b - 0x80), 0x80, 0xBF⟩) bs := by
  have hbyte : (UInt8.ofNat b).toNat = b := UInt8.toNat_ofNat_of_lt' hb
  have hmore : utf8Byte edEnd (some ⟨n + 2, codePoint, lower, upper⟩) b =
      ([], some ⟨n + 1, codePoint * 64 + (b - 0x80), 0x80, 0xBF⟩) := by
    simp [utf8Byte, hlower, hupper]
  rw [utf8Decode, hbyte, hmore]
  rfl

/-- The last byte of a sequence. -/
theorem utf8Decode_last (hb : b < 256) (hlower : lower ≤ b) (hupper : b ≤ upper)
    (hvalid : (codePoint * 64 + (b - 0x80)).isValidChar) :
    utf8Decode edEnd (some ⟨1, codePoint, lower, upper⟩) (UInt8.ofNat b :: bs) =
      some (Char.ofNat (codePoint * 64 + (b - 0x80))) :: utf8Decode edEnd none bs := by
  have hbyte : (UInt8.ofNat b).toNat = b := UInt8.toNat_ofNat_of_lt' hb
  have hlast : utf8Byte edEnd (some ⟨1, codePoint, lower, upper⟩) b =
      ([some (Char.ofNat (codePoint * 64 + (b - 0x80)))], none) := by
    simp [utf8Byte, utf8Char, hlower, hupper, hvalid]
  rw [utf8Decode, hbyte, hlast]
  rfl

end Sequence

/-- **One character.** -/
theorem utf8Decode_encodeChar {edEnd : Nat} (hed : 0x9F ≤ edEnd) (c : Char) (rest : Bytes) :
    utf8Decode edEnd none (String.utf8EncodeChar c ++ rest)
      = some c :: utf8Decode edEnd none rest := by
  have hchar : c.toNat.isValidChar := c.valid
  have hvalid := hchar
  unfold Nat.isValidChar at hvalid
  have hval : c.val.toNat = c.toNat := rfl
  unfold String.utf8EncodeChar
  simp only [hval]
  split_ifs with hone htwo hthree
  · have hbyte : (UInt8.ofNat c.toNat).toNat = c.toNat := UInt8.toNat_ofNat_of_lt' (show _ < 256 by omega)
    have hlead : utf8Byte edEnd none c.toNat = ([some c], none) := by
      show utf8Lead edEnd c.toNat = _
      rw [utf8Lead, if_pos (by omega), Char.ofNat_toNat]
    rw [List.singleton_append, utf8Decode, hbyte, hlead]
    rfl
  · have hcode : c.toNat / 64 % 32 * 64 + (c.toNat % 64 + 0x80 - 0x80) = c.toNat := by omega
    simp only [List.cons_append, List.nil_append]
    rw [utf8Decode_lead (by omega) (utf8Lead_two (by omega) (by omega)),
      utf8Decode_last (by omega) (by omega) (by omega) (by rw [hcode]; exact hchar), hcode,
      Char.ofNat_toNat]
  · have hcode : (c.toNat / 4096 % 16 * 64 + (c.toNat / 64 % 64 + 0x80 - 0x80)) * 64 +
        (c.toNat % 64 + 0x80 - 0x80) = c.toNat := by omega
    simp only [List.cons_append, List.nil_append]
    rw [utf8Decode_lead (by omega) (utf8Lead_three (by omega)),
      utf8Decode_more (by omega) (by split <;> omega) (by split <;> omega),
      utf8Decode_last (by omega) (by omega) (by omega) (by rw [hcode]; exact hchar), hcode,
      Char.ofNat_toNat]
  · have hcode : ((c.toNat / 262144 % 8 * 64 + (c.toNat / 4096 % 64 + 0x80 - 0x80)) * 64 +
        (c.toNat / 64 % 64 + 0x80 - 0x80)) * 64 + (c.toNat % 64 + 0x80 - 0x80) = c.toNat := by omega
    simp only [List.cons_append, List.nil_append]
    rw [utf8Decode_lead (by omega) (utf8Lead_four (by omega)),
      utf8Decode_more (by omega) (by split <;> omega) (by split <;> omega),
      utf8Decode_more (by omega) (by omega) (by omega),
      utf8Decode_last (by omega) (by omega) (by omega) (by rw [hcode]; exact hchar), hcode,
      Char.ofNat_toNat]

theorem asBytes_ofList (cs : List Char) :
    asBytes (String.ofList cs) = cs.flatMap String.utf8EncodeChar := by
  unfold asBytes
  rw [String.toUTF8_eq_toByteArray, String.toByteArray_ofList, List.utf8Encode,
    List.data_toByteArray]

/-- **Every text is read back.** -/
theorem utf8Decode_asBytes {edEnd : Nat} (hed : 0x9F ≤ edEnd) (s : String) :
    utf8Decode edEnd none (asBytes s) = s.toList.map some := by
  have hchars : ∀ cs : List Char,
      utf8Decode edEnd none (cs.flatMap String.utf8EncodeChar) = cs.map some := by
    intro cs
    induction cs with
    | nil => rfl
    | cons c cs ih => rw [List.flatMap_cons, utf8Decode_encodeChar hed, ih, List.map_cons]
  have hbytes := asBytes_ofList s.toList
  rw [String.ofList_toList] at hbytes
  rw [hbytes, hchars]

theorem fromUtf8Lossy_asBytes (s : String) : fromUtf8Lossy (asBytes s) = s := by
  unfold fromUtf8Lossy
  rw [utf8Decode_asBytes (Nat.le_refl _), List.map_map]
  exact (congrArg String.ofList (List.map_id _)).trans String.ofList_toList

/-! ## Byte offsets

A `&str` is a list of characters here; offsets into it count bytes. -/

/-- `str::len`. -/
def utf8Len : List Char → Nat
  | [] => 0
  | c :: cs => c.utf8Size + utf8Len cs

/-- Cut at a byte offset; `none` beyond the text or inside a character. -/
def splitAtByte : Nat → List Char → Option (List Char × List Char)
  | 0, cs => some ([], cs)
  | _ + 1, [] => none
  | n + 1, c :: cs =>
      if c.utf8Size ≤ n + 1 then
        (splitAtByte (n + 1 - c.utf8Size) cs).map fun (before, after) => (c :: before, after)
      else none

/-- `is_char_boundary`, and `false` beyond the text. -/
def isCharBoundary (text : List Char) (n : Nat) : Bool := (splitAtByte n text).isSome

/-- `&text[start..]`; `none` is a panic. -/
def sliceFrom (text : List Char) (start : Nat) : Option (List Char) :=
  (splitAtByte start text).map Prod.snd

/-- `&text[start..stop]`; `none` is a panic. -/
def slice (text : List Char) (start stop : Nat) : Option (List Char) := do
  let after ← sliceFrom text start
  if start ≤ stop then (splitAtByte (stop - start) after).map Prod.fst else none

theorem utf8Len_append (as bs : List Char) : utf8Len (as ++ bs) = utf8Len as + utf8Len bs := by
  induction as with
  | nil => simp [utf8Len]
  | cons a as ih =>
      rw [List.cons_append, utf8Len, utf8Len, ih]
      omega

theorem utf8Len_pos {cs : List Char} (h : cs ≠ []) : 0 < utf8Len cs := by
  cases cs with
  | nil => exact absurd rfl h
  | cons c cs =>
      have := c.utf8Size_pos
      unfold utf8Len
      omega

theorem length_le_utf8Len (cs : List Char) : cs.length ≤ utf8Len cs := by
  induction cs with
  | nil => exact Nat.le_refl 0
  | cons c cs ih =>
      have := c.utf8Size_pos
      rw [List.length_cons, utf8Len]
      omega

theorem splitAtByte_append (as bs : List Char) : splitAtByte (utf8Len as) (as ++ bs) = some (as, bs) := by
  induction as with
  | nil => cases bs <;> rfl
  | cons a as ih =>
      have hpos := a.utf8Size_pos
      obtain ⟨n, hn⟩ : ∃ n, utf8Len (a :: as) = n + 1 := ⟨utf8Len (a :: as) - 1, by
        unfold utf8Len
        omega⟩
      rw [hn, List.cons_append, splitAtByte, ← hn]
      have hle : a.utf8Size ≤ utf8Len (a :: as) := Nat.le_add_right _ _
      have hrest : utf8Len (a :: as) - a.utf8Size = utf8Len as := Nat.add_sub_cancel_left _ _
      rw [if_pos hle, hrest, ih]
      rfl

theorem splitAtByte_eq_some {n : Nat} {text as bs : List Char}
    (h : splitAtByte n text = some (as, bs)) : text = as ++ bs ∧ utf8Len as = n := by
  induction text generalizing n as with
  | nil =>
      cases n with
      | zero =>
          cases h
          exact ⟨rfl, rfl⟩
      | succ n => cases h
  | cons c cs ih =>
      cases n with
      | zero =>
          cases h
          exact ⟨rfl, rfl⟩
      | succ n =>
          unfold splitAtByte at h
          split_ifs at h with hc
          obtain ⟨⟨before, after⟩, hsplit, heq⟩ := Option.map_eq_some_iff.mp h
          cases heq
          obtain ⟨rfl, hlen⟩ := ih hsplit
          refine ⟨rfl, ?_⟩
          rw [utf8Len, hlen]
          omega

theorem isCharBoundary_iff {text : List Char} {n : Nat} :
    isCharBoundary text n = true ↔ ∃ as bs, text = as ++ bs ∧ utf8Len as = n := by
  unfold isCharBoundary
  rw [Option.isSome_iff_exists]
  constructor
  · rintro ⟨⟨as, bs⟩, h⟩
    exact ⟨as, bs, splitAtByte_eq_some h⟩
  · rintro ⟨as, bs, rfl, rfl⟩
    exact ⟨(as, bs), splitAtByte_append as bs⟩

/-- A part of a text that has no more bytes than characters has no more either. -/
theorem utf8Len_of_single {cs : List Char} (h : utf8Len cs = cs.length) (n : Nat) :
    utf8Len (cs.take n) = (cs.take n).length ∧ utf8Len (cs.drop n) = (cs.drop n).length := by
  have hsum : utf8Len (cs.take n) + utf8Len (cs.drop n) = (cs.take n).length + (cs.drop n).length := by
    rw [← utf8Len_append, ← List.length_append, List.take_append_drop, h]
  have htake := length_le_utf8Len (cs.take n)
  have hdrop := length_le_utf8Len (cs.drop n)
  omega

/-- Where a text has no more bytes than characters, every offset is a boundary. -/
theorem splitAtByte_of_single {cs : List Char} (h : utf8Len cs = cs.length) {n : Nat}
    (hn : n ≤ cs.length) : splitAtByte n cs = some (cs.take n, cs.drop n) := by
  have hlen : utf8Len (cs.take n) = n := by
    rw [(utf8Len_of_single h n).1, List.length_take_of_le hn]
  calc splitAtByte n cs = splitAtByte (utf8Len (cs.take n)) (cs.take n ++ cs.drop n) := by
        rw [hlen, List.take_append_drop]
    _ = some (cs.take n, cs.drop n) := splitAtByte_append _ _

theorem sliceFrom_of_single {cs : List Char} (h : utf8Len cs = cs.length) {n : Nat}
    (hn : n ≤ cs.length) : sliceFrom cs n = some (cs.drop n) := by
  unfold sliceFrom
  rw [splitAtByte_of_single h hn]
  rfl

theorem slice_of_single {cs : List Char} (h : utf8Len cs = cs.length) {start stop : Nat}
    (hle : start ≤ stop) (hstop : stop ≤ cs.length) :
    slice cs start stop = some ((cs.drop start).take (stop - start)) := by
  have hrest : stop - start ≤ (cs.drop start).length := by
    rw [List.length_drop]
    omega
  unfold slice
  rw [sliceFrom_of_single h (Nat.le_trans hle hstop)]
  show (if start ≤ stop then _ else none) = _
  rw [if_pos hle, splitAtByte_of_single (utf8Len_of_single h start).2 hrest]
  rfl

theorem sliceFrom_append (as bs : List Char) : sliceFrom (as ++ bs) (utf8Len as) = some bs := by
  unfold sliceFrom
  rw [splitAtByte_append]
  rfl

theorem slice_append (as bs cs : List Char) :
    slice (as ++ (bs ++ cs)) (utf8Len as) (utf8Len as + utf8Len bs) = some bs := by
  unfold slice
  rw [sliceFrom_append]
  show (if utf8Len as ≤ utf8Len as + utf8Len bs then _ else _) = _
  rw [if_pos (Nat.le_add_right _ _), Nat.add_sub_cancel_left, splitAtByte_append]
  rfl

/-! ## Base64 -/

/-- The character of the URL alphabet for a six-bit number. -/
def base64UrlChar (n : Nat) : Char :=
  if n < 26 then Char.ofNat (65 + n)
  else if n < 52 then Char.ofNat (71 + n)
  else if n < 62 then Char.ofNat (n - 4)
  else if n = 62 then '-'
  else '_'

/-- `Base64.getUrlEncoder().withoutPadding()`, three bytes at a time. -/
def base64Url : Bytes → List Char
  | [] => []
  | [a] =>
      let n := a.toNat * 16
      [base64UrlChar (n / 64), base64UrlChar (n % 64)]
  | [a, b] =>
      let n := a.toNat * 1024 + b.toNat * 4
      [base64UrlChar (n / 4096), base64UrlChar (n / 64 % 64), base64UrlChar (n % 64)]
  | a :: b :: c :: rest =>
      let n := a.toNat * 65536 + b.toNat * 256 + c.toNat
      base64UrlChar (n / 262144) :: base64UrlChar (n / 4096 % 64) ::
        base64UrlChar (n / 64 % 64) :: base64UrlChar (n % 64) :: base64Url rest

example : String.ofList (base64Url [0xFB, 0xFF, 0x61, 0x62]) = "-_9hYg" := by decide

end McpGateway
