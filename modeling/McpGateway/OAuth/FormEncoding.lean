import McpGateway.OAuth.Uri

/-! # Form encoding

`URLEncoder.encode(s, UTF_8)`, and `application/x-www-form-urlencoded` text as its recipient reads
it.

* `formDecode_urlEncode` — what was encoded is decoded, up to unpaired surrogates.
* `formParams_append` — the last parameter of a query takes in what is put behind it. -/

namespace McpGateway.OAuth

open Gateway Uri

/-! ## Encoding -/

def upperHex (n : Nat) : UInt16 := UInt16.ofNat (if n < 10 then 0x30 + n else 0x37 + n)

def percentByte (b : UInt8) : JString :=
  [charUnit '%', upperHex (b.toNat / 16), upperHex (b.toNat % 16)]

/-- A character that `URLEncoder` leaves as it is. -/
def isSafe (c : Char) : Bool :=
  c.toNat < 128 && (isAlphanum (charUnit c) || isAnyOf "-_.*" (charUnit c))

def encodeChar (c : Char) : JString :=
  if isSafe c then [charUnit c]
  else if c = ' ' then [charUnit '+']
  else (String.utf8EncodeChar c).flatMap percentByte

/-- `URLEncoder.encode(s, UTF_8)`; an unpaired surrogate is encoded as `?`. -/
def urlEncode (s : JString) : JString := (decodeUtf16 s).flatMap encodeChar

/-! ## Decoding -/

def hexDigit (u : UInt16) : Nat :=
  if u.toNat ≤ 0x39 then u.toNat - 0x30
  else if u.toNat ≤ 0x46 then u.toNat - 0x37
  else u.toNat - 0x57

/-- Escapes in a row are decoded together; `pending` are the bytes of those before. -/
def decodeFrom (pending : Bytes) : JString → JString
  | c :: a :: b :: rest =>
      if c = charUnit '%' ∧ isHex a ∧ isHex b then
        decodeFrom (pending ++ [UInt8.ofNat (hexDigit a * 16 + hexDigit b)]) rest
      else newString pending ++ c :: decodeFrom [] (a :: b :: rest)
  | s => newString pending ++ s

/-- The text of a part of a URI, without its escapes. -/
def decodeEscapes (s : JString) : JString := decodeFrom [] s

def plusToSpace (u : UInt16) : UInt16 := if u = charUnit '+' then charUnit ' ' else u

/-- A name or a value of a form. -/
def formDecode (s : JString) : JString := decodeEscapes (s.map plusToSpace)

def formParam (piece : JString) : JString × JString :=
  let (name, value) := piece.span (· ≠ charUnit '=')
  (formDecode name, formDecode (value.drop 1))

/-- The parameters of some pieces; an empty piece is none. -/
def pieceParams (pieces : List JString) : List (JString × JString) :=
  (pieces.filter fun piece => !piece.isEmpty).map formParam

/-- The parameters of a query. -/
def formParams (query : Option JString) : List (JString × JString) :=
  pieceParams ((query.getD []).splitOn (charUnit '&'))

example : formParams (some (jstr "a=1&&b=%C3%A9+x")) =
    [(jstr "a", jstr "1"), (jstr "b", jstr "\u00e9 x")] := by decide +kernel

/-! ## What was encoded -/

theorem upperHex_spec {n : Nat} (h : n < 16) : isHex (upperHex n) = true ∧
    hexDigit (upperHex n) = n ∧ plusToSpace (upperHex n) = upperHex n ∧
    isAnyOf "#&" (upperHex n) = false := by
  have hall : ∀ n < 16, isHex (upperHex n) = true ∧ hexDigit (upperHex n) = n ∧
      plusToSpace (upperHex n) = upperHex n ∧ isAnyOf "#&" (upperHex n) = false := by
    decide
  exact hall n h

theorem byte_halves (b : UInt8) : b.toNat / 16 < 16 ∧ b.toNat % 16 < 16 ∧
    UInt8.ofNat (b.toNat / 16 * 16 + b.toNat % 16) = b := by
  have hb := b.toNat_lt
  refine ⟨by omega, by omega, ?_⟩
  rw [Nat.div_add_mod', UInt8.ofNat_toNat]

theorem decodeFrom_percentByte (pending : Bytes) (b : UInt8) (rest : JString) :
    decodeFrom pending (percentByte b ++ rest) = decodeFrom (pending ++ [b]) rest := by
  obtain ⟨hhigh, hlow, hbyte⟩ := byte_halves b
  obtain ⟨hhex, hdigit, -⟩ := upperHex_spec hhigh
  obtain ⟨hhex', hdigit', -⟩ := upperHex_spec hlow
  unfold percentByte
  rw [List.cons_append, List.cons_append, List.singleton_append, decodeFrom,
    if_pos ⟨rfl, hhex, hhex'⟩, hdigit, hdigit', hbyte]

theorem decodeFrom_percentBytes (pending bs : Bytes) (rest : JString) :
    decodeFrom pending (bs.flatMap percentByte ++ rest) = decodeFrom (pending ++ bs) rest := by
  induction bs generalizing pending with
  | nil => rw [List.flatMap_nil, List.append_nil, List.nil_append]
  | cons b bs ih =>
      rw [List.flatMap_cons, List.append_assoc, decodeFrom_percentByte, ih, List.append_assoc,
        List.singleton_append]

theorem map_percentBytes (bs : Bytes) :
    (bs.flatMap percentByte).map plusToSpace = bs.flatMap percentByte := by
  induction bs with
  | nil => rfl
  | cons b bs ih =>
      obtain ⟨hhigh, hlow, -⟩ := byte_halves b
      have hbyte : (percentByte b).map plusToSpace = percentByte b := by
        unfold percentByte
        rw [List.map_cons, List.map_cons, List.map_singleton, (upperHex_spec hhigh).2.2.1,
          (upperHex_spec hlow).2.2.1]
        rfl
      rw [List.flatMap_cons, List.map_append, hbyte, ih]

/-- A unit that is no escape ends the escapes before it. -/
theorem decodeFrom_cons {u : UInt16} (hu : u ≠ charUnit '%') (pending : Bytes) (rest : JString) :
    decodeFrom pending (u :: rest) = newString pending ++ u :: decodeFrom [] rest := by
  match rest with
  | [] => rfl
  | [a] => rfl
  | a :: b :: rest => rw [decodeFrom, if_neg fun h => hu h.1]

theorem isSafe_unit {c : Char} (h : isSafe c = true) : plusToSpace (charUnit c) = charUnit c ∧
    isAnyOf "%#&" (charUnit c) = false ∧ isUric (charUnit c) = true ∧
    jstr (String.ofList [c]) = [charUnit c] := by
  unfold isSafe at h
  obtain ⟨hascii, hin⟩ := Bool.and_eq_true_iff.mp h
  rw [decide_eq_true_eq] at hascii
  have hall : ∀ n < 128, (isAlphanum (UInt16.ofNat n) || isAnyOf "-_.*" (UInt16.ofNat n)) = true →
      plusToSpace (UInt16.ofNat n) = UInt16.ofNat n ∧ isAnyOf "%#&" (UInt16.ofNat n) = false ∧
      isUric (UInt16.ofNat n) = true := by
    decide +kernel
  obtain ⟨hplus, hmark, huric⟩ := hall c.toNat hascii hin
  exact ⟨hplus, hmark, huric, jstr_ascii fun d hd => List.mem_singleton.mp hd ▸ hascii⟩

/-- Behind the bytes of some characters come the characters that were encoded. -/
theorem decodeFrom_encode (ds cs : List Char) :
    decodeFrom (ds.flatMap String.utf8EncodeChar) ((cs.flatMap encodeChar).map plusToSpace)
      = jstr (String.ofList (ds ++ cs)) := by
  have hflush : ∀ ds : List Char,
      newString (ds.flatMap String.utf8EncodeChar) = jstr (String.ofList ds) := by
    intro ds
    rw [← asBytes_ofList, newString_asBytes]
  have hjoin : ∀ ds cs : List Char, jstr (String.ofList (ds ++ cs))
      = jstr (String.ofList ds) ++ jstr (String.ofList cs) := by
    intro ds cs
    rw [String.ofList_append, jstr_append]
  have hcons : ∀ (c : Char) (cs : List Char), jstr (String.ofList (c :: cs))
      = jstr (String.ofList [c]) ++ jstr (String.ofList cs) :=
    fun c cs => hjoin [c] cs
  induction cs generalizing ds with
  | nil =>
      rw [List.append_nil, ← hflush ds]
      exact List.append_nil _
  | cons c cs ih =>
      rw [List.flatMap_cons, List.map_append]
      have hstart := ih []
      rw [List.flatMap_nil, List.nil_append] at hstart
      generalize (cs.flatMap encodeChar).map plusToSpace = more at ih hstart ⊢
      unfold encodeChar
      split_ifs with hsafe hspace
      · obtain ⟨hplus, hmark, -, hunit⟩ := isSafe_unit hsafe
        have hpercent : charUnit c ≠ charUnit '%' := fun he => absurd (he ▸ hmark) (by decide)
        rw [List.map_singleton, hplus, List.singleton_append, decodeFrom_cons hpercent, hflush,
          hstart, hjoin, hcons, hunit, List.singleton_append]
      · subst hspace
        rw [List.map_singleton, List.singleton_append, decodeFrom_cons (by decide), hflush, hstart,
          hjoin, hcons]
        rfl
      · rw [map_percentBytes, decodeFrom_percentBytes]
        have hbytes : ds.flatMap String.utf8EncodeChar ++ String.utf8EncodeChar c
            = (ds ++ [c]).flatMap String.utf8EncodeChar := by simp
        rw [hbytes, ih, List.append_assoc, List.singleton_append]

/-- A string without unpaired surrogates. -/
def IsText (s : JString) : Prop := ∃ t : String, s = jstr t

/-- The text that is encoded for a string. -/
def asText (s : JString) : JString := jstr (String.ofList (decodeUtf16 s))

/-- **What was encoded is decoded**, but for unpaired surrogates. -/
theorem formDecode_urlEncode (s : JString) : formDecode (urlEncode s) = asText s :=
  decodeFrom_encode [] (decodeUtf16 s)

theorem asText_eq_self {s : JString} : asText s = s ↔ IsText s := by
  unfold asText
  constructor
  · intro h
    exact ⟨_, h.symm⟩
  · rintro ⟨t, rfl⟩
    have htext := decodeUtf16_jstr t.toList
    rw [String.ofList_toList] at htext
    rw [htext, String.ofList_toList]

/-! ## Encoded text in a query -/

theorem percentByte_legal (b : UInt8) : legal isUric (percentByte b) = true := by
  obtain ⟨hhigh, hlow, -⟩ := byte_halves b
  have hhex : (isHex (upperHex (b.toNat / 16)) && isHex (upperHex (b.toNat % 16))) = true := by
    rw [(upperHex_spec hhigh).1, (upperHex_spec hlow).1]
    rfl
  unfold legal percentByte
  rw [decide_eq_true_eq, scanEscaped_escape (by decide) hhex]
  rfl

theorem flatMap_legal {α : Type*} {f : α → JString} (hf : ∀ a, legal isUric (f a) = true)
    (as : List α) : legal isUric (as.flatMap f) = true := by
  induction as with
  | nil => rfl
  | cons a as ih =>
      rw [List.flatMap_cons]
      exact legal_append (hf a) ih

/-- Encoded text may stand in a query. -/
theorem urlEncode_legal (s : JString) : legal isUric (urlEncode s) = true := by
  apply flatMap_legal
  intro c
  unfold encodeChar
  split_ifs with hsafe hspace
  · unfold legal
    rw [decide_eq_true_eq, scanEscaped_char (isSafe_unit hsafe).2.2.1]
    rfl
  · decide
  · exact flatMap_legal percentByte_legal _

/-- Encoded text ends neither a parameter nor the query. -/
theorem urlEncode_unmarked (s : JString) : ∀ u ∈ urlEncode s, isAnyOf "#&" u = false := by
  intro u hu
  obtain ⟨c, -, hu⟩ := List.mem_flatMap.mp hu
  unfold encodeChar at hu
  split_ifs at hu with hsafe hspace
  · obtain rfl := List.mem_singleton.mp hu
    have hmark := (isSafe_unit hsafe).2.1
    simp only [isAnyOf, List.any_eq_false] at hmark ⊢
    exact fun d hd => hmark d (List.mem_cons_of_mem _ hd)
  · obtain rfl := List.mem_singleton.mp hu
    decide
  · obtain ⟨b, -, hu⟩ := List.mem_flatMap.mp hu
    obtain ⟨hhigh, hlow, -⟩ := byte_halves b
    simp only [percentByte, List.mem_cons, List.not_mem_nil, or_false] at hu
    rcases hu with rfl | rfl | rfl
    · decide
    · exact (upperHex_spec hhigh).2.2.2
    · exact (upperHex_spec hlow).2.2.2

/-- A parameter of an encoded query. -/
theorem formParam_encoded {name : JString} (hname : charUnit '=' ∉ name) (value : JString) :
    formParam (name ++ charUnit '=' :: urlEncode value)
      = (formDecode name, asText value) := by
  have hspan : (name ++ charUnit '=' :: urlEncode value).span (· ≠ charUnit '=')
      = (name, charUnit '=' :: urlEncode value) := by
    have hall : ∀ u ∈ name, decide (u ≠ charUnit '=') = true := by
      intro u hu
      rw [decide_eq_true_eq]
      rintro rfl
      exact hname hu
    exact span_append (span_of_all hall) (decide_eq_false (not_not.mpr rfl)) (urlEncode value)
  unfold formParam
  rw [hspan]
  dsimp only
  rw [List.drop_one, List.tail_cons, formDecode_urlEncode]

theorem pieceParams_append (pieces pieces' : List JString) :
    pieceParams (pieces ++ pieces') = pieceParams pieces ++ pieceParams pieces' := by
  unfold pieceParams
  rw [List.filter_append, List.map_append]

theorem pieceParams_cons {piece : JString} (h : piece ≠ []) (pieces : List JString) :
    pieceParams (piece :: pieces) = formParam piece :: pieceParams pieces := by
  cases piece with
  | nil => exact absurd rfl h
  | cons u piece => rfl

end McpGateway.OAuth
