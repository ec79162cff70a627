import McpGateway.Gateway.Aspects
import McpGateway.Gateway.ContentEncryptor

/-! # The text of a fragment

`fetchChunk` cuts a decrypted text behind its 500th UTF-16 unit, wherever that is.

* `wellFormed_iff` — what is well-formed is the encoding of some text.
* `wellFormed_take` — a cut leaves a well-formed part unless it goes through a surrogate pair.
* `fragment_iff` — so the fragment of a stored text is a well-formed prefix exactly when the text is
  short or the 500th unit is not the first half of a pair. -/

namespace McpGateway.Gateway

open Foundation Foundation.Act

/-- No unpaired surrogate. -/
def wellFormed : JString → Bool
  | [] => true
  | [u] => !isHighSurrogate u && !isLowSurrogate u
  | u :: v :: us =>
      if isHighSurrogate u then isLowSurrogate v && wellFormed us
      else !isLowSurrogate u && wellFormed (v :: us)

/-! ## Characters and units -/

/-- The units of one character. -/
def charUnits (c : Char) : JString :=
  if c.toNat < 0x10000 then [UInt16.ofNat c.toNat]
  else [UInt16.ofNat (0xD800 + (c.toNat - 0x10000) / 1024),
    UInt16.ofNat (0xDC00 + (c.toNat - 0x10000) % 1024)]

theorem jstr_cons (c : Char) (cs : List Char) :
    jstr (String.ofList (c :: cs)) = charUnits c ++ jstr (String.ofList cs) := by
  unfold jstr
  rw [String.toList_ofList, String.toList_ofList, List.flatMap_cons]
  rfl

theorem wellFormed_cons {u : UInt16} (hhigh : isHighSurrogate u = false)
    (hlow : isLowSurrogate u = false) (us : JString) : wellFormed (u :: us) = wellFormed us := by
  cases us with
  | nil => simp [wellFormed, hhigh, hlow]
  | cons v us => simp [wellFormed, hhigh, hlow]

theorem wellFormed_pair {u v : UInt16} (hhigh : isHighSurrogate u = true)
    (hlow : isLowSurrogate v = true) (us : JString) :
    wellFormed (u :: v :: us) = wellFormed us := by
  simp [wellFormed, hhigh, hlow]

/-- A character is one unit that is no surrogate, or a pair. -/
theorem charUnits_cases (c : Char) :
    (∃ u, charUnits c = [u] ∧ isHighSurrogate u = false ∧ isLowSurrogate u = false) ∨
    ∃ u v, charUnits c = [u, v] ∧ isHighSurrogate u = true ∧ isHighSurrogate v = false ∧
      isLowSurrogate v = true := by
  unfold charUnits
  split_ifs with hc
  · exact Or.inl ⟨_, rfl, not_surrogate_ofNat hc c.valid⟩
  · obtain ⟨-, hlo, hhigh, hlow⟩ := supplementary_units hc
    refine Or.inr ⟨_, _, rfl, hhigh, ?_, hlow⟩
    simp only [isHighSurrogate, hlo, Bool.and_eq_false_iff, decide_eq_false_iff_not]
    omega

/-- A unit that is no surrogate is a character. -/
theorem charUnits_of_unit {u : UInt16} (hhigh : isHighSurrogate u = false)
    (hlow : isLowSurrogate u = false) : ∃ c, charUnits c = [u] := by
  have hlt := u.toNat_lt
  have hvalid : u.toNat.isValidChar := by
    unfold Nat.isValidChar
    simp only [isHighSurrogate, isLowSurrogate, Bool.and_eq_false_iff, decide_eq_false_iff_not]
      at hhigh hlow
    omega
  refine ⟨Char.ofNat u.toNat, ?_⟩
  have hn : (Char.ofNat u.toNat).toNat = u.toNat := toNat_ofNat hvalid
  rw [charUnits, hn, if_pos (by omega), UInt16.ofNat_toNat]

/-- A pair is a character. -/
theorem charUnits_of_pair {u v : UInt16} (hhigh : isHighSurrogate u = true)
    (hlow : isLowSurrogate v = true) : ∃ c, charUnits c = [u, v] := by
  simp only [isHighSurrogate, isLowSurrogate, Bool.and_eq_true, decide_eq_true_eq] at hhigh hlow
  refine ⟨Char.ofNat (0x10000 + (u.toNat - 0xD800) * 1024 + (v.toNat - 0xDC00)), ?_⟩
  have hn := toNat_ofNat (n := 0x10000 + (u.toNat - 0xD800) * 1024 + (v.toNat - 0xDC00)) (by
    unfold Nat.isValidChar
    omega)
  have hu : 0xD800 + (0x10000 + (u.toNat - 0xD800) * 1024 + (v.toNat - 0xDC00) - 0x10000) / 1024 =
      u.toNat := by omega
  have hv : 0xDC00 + (0x10000 + (u.toNat - 0xD800) * 1024 + (v.toNat - 0xDC00) - 0x10000) % 1024 =
      v.toNat := by omega
  rw [charUnits, hn, if_neg (by omega), hu, hv, UInt16.ofNat_toNat, UInt16.ofNat_toNat]

/-- **What is well-formed** is the encoding of some text. -/
theorem wellFormed_iff (us : JString) : wellFormed us = true ↔ ∃ s, us = jstr s := by
  constructor
  · intro h
    have hchars : ∃ cs, us = jstr (String.ofList cs) := by
      induction us using wellFormed.induct with
      | case1 => exact ⟨[], rfl⟩
      | case2 u =>
          simp only [wellFormed, Bool.and_eq_true, Bool.not_eq_true'] at h
          obtain ⟨c, hc⟩ := charUnits_of_unit h.1 h.2
          refine ⟨[c], ?_⟩
          rw [jstr_cons, hc]
          rfl
      | case3 u v us hhigh ih =>
          rw [wellFormed, if_pos hhigh, Bool.and_eq_true] at h
          obtain ⟨c, hc⟩ := charUnits_of_pair hhigh h.1
          obtain ⟨cs, hcs⟩ := ih h.2
          refine ⟨c :: cs, ?_⟩
          rw [jstr_cons, hc, ← hcs]
          rfl
      | case4 u v us hhigh ih =>
          rw [wellFormed, if_neg hhigh, Bool.and_eq_true, Bool.not_eq_true'] at h
          obtain ⟨c, hc⟩ := charUnits_of_unit (by simpa using hhigh) h.1
          obtain ⟨cs, hcs⟩ := ih h.2
          refine ⟨c :: cs, ?_⟩
          rw [jstr_cons, hc, ← hcs]
          rfl
    obtain ⟨cs, hcs⟩ := hchars
    exact ⟨String.ofList cs, hcs⟩
  · rintro ⟨s, rfl⟩
    obtain ⟨cs, rfl⟩ : ∃ cs, s = String.ofList cs := ⟨s.toList, String.ofList_toList.symm⟩
    induction cs with
    | nil => rfl
    | cons c cs ih =>
        rw [jstr_cons]
        rcases charUnits_cases c with ⟨u, hu, hhigh, hlow⟩ | ⟨u, v, huv, hhigh, -, hlow⟩
        · rw [hu, List.singleton_append, wellFormed_cons hhigh hlow, ih]
        · rw [huv, List.cons_append, List.singleton_append, wellFormed_pair hhigh hlow, ih]

/-- **A cut** leaves a well-formed part unless the last unit kept is the first half of a pair. -/
theorem wellFormed_take (s : String) (n : Nat) :
    wellFormed ((jstr s).take (n + 1)) = true ↔
      (jstr s).length ≤ n + 1 ∨ ∀ u, (jstr s)[n]? = some u → isHighSurrogate u = false := by
  obtain ⟨cs, rfl⟩ : ∃ cs, s = String.ofList cs := ⟨s.toList, String.ofList_toList.symm⟩
  induction cs generalizing n with
  | nil => simp [jstr, wellFormed]
  | cons c cs ih =>
      rw [jstr_cons]
      rcases charUnits_cases c with ⟨u, hu, hhigh, hlow⟩ | ⟨u, v, huv, hhigh, hvhigh, hlow⟩
      · rw [hu, List.singleton_append, List.take_succ_cons, wellFormed_cons hhigh hlow]
        cases n with
        | zero => simp [wellFormed, hhigh]
        | succ n =>
            rw [ih n, List.length_cons, List.getElem?_cons_succ, Nat.add_le_add_iff_right]
      · rw [huv, List.cons_append, List.singleton_append, List.take_succ_cons]
        rcases n with _ | _ | n
        · simp [wellFormed, hhigh]
        · rw [List.take_succ_cons, wellFormed_pair hhigh hlow]
          simp [wellFormed, hvhigh]
        · rw [List.take_succ_cons, wellFormed_pair hhigh hlow, ih n, List.length_cons,
            List.length_cons, List.getElem?_cons_succ, List.getElem?_cons_succ,
            Nat.add_le_add_iff_right, Nat.add_le_add_iff_right]

/-! ## The fragment of a stored text -/

/-- The query of `fetchChunk` finds a row with this text, encrypted. -/
def Stored (p : Platform) (env : Env) (s : GatewaySession) (chunkId : Uuid) (text : String) :
    Prop :=
  ∃ row iv ciphertext,
    statementAnswer (env.fetchFails chunkId) (fun db s =>
      (visibleRows p.rlsEnforced db s).map (·.find? fun row => row.id = chunkId)) s =
        some (some row) ∧
    row.encryptedContent = some (iv ++ ciphertext) ∧ iv.length = ivLengthBytes ∧
    p.aesGcmDecrypt p.contentKey iv ciphertext = some (asBytes text)

/-- What `fetchChunk` returns of a stored text. -/
theorem fetchChunk_stored {p : Platform} {env : Env} {s : GatewaySession} {chunkId : Uuid}
    {text : String} (h : Stored p env s chunkId text) :
    fetchChunk p env chunkId s = (.ok ((jstr text).take maxFragmentChars), s) := by
  obtain ⟨row, iv, ciphertext, hread, hrow, hiv, hopen⟩ := h
  have htext : chunkText p row = .ok ((jstr text).take maxFragmentChars) := by
    rw [chunkText, hrow]
    dsimp only
    rw [decrypt_wire hiv hopen]
    rfl
  unfold fetchChunk
  apply tryCatch_ok
  have hstatement : statement (env.fetchFails chunkId) (fun db s =>
      (visibleRows p.rlsEnforced db s).map (·.find? fun row => row.id = chunkId)) s =
        (.ok (some row), s) := by
    unfold statement
    rw [bind_ok (gets_apply _ s), hread]
    rfl
  rw [bind_ok hstatement]
  dsimp only
  rw [htext]
  rfl

/-- **The fragment of a stored text** is a prefix of at most 500 units, the whole text when that
fits, and well-formed exactly when the text fits or its 500th unit is not the first half of a
pair. -/
theorem fragment_iff {p : Platform} {env : Env} {s : GatewaySession} {chunkId : Uuid}
    {text : String} (h : Stored p env s chunkId text) :
    ∃ fragment, fetchChunk p env chunkId s = (.ok fragment, s) ∧
      fragment <+: jstr text ∧ fragment.length ≤ 500 ∧
      ((jstr text).length ≤ 500 → fragment = jstr text) ∧
      (wellFormed fragment = true ↔ (jstr text).length ≤ 500 ∨
        ∀ u, (jstr text)[499]? = some u → isHighSurrogate u = false) := by
  refine ⟨(jstr text).take maxFragmentChars, fetchChunk_stored h, List.take_prefix _ _, ?_, ?_,
    wellFormed_take text 499⟩
  · rw [List.length_take]
    exact Nat.min_le_left _ _
  · intro hshort
    exact List.take_of_length_le hshort

/-! ## A short text, and a pair at the cut -/

/-- AES-256-GCM under the key `02 … 02`, on one ciphertext under the IV `05 … 05`. -/
def opening (ciphertext : Bytes) (text : String) : Platform :=
  { samplePlatform false with
    contentKey := List.replicate 32 2
    aesGcmDecrypt := fun key iv c =>
      if key = List.replicate 32 2 ∧ iv = List.replicate 12 5 ∧ c = ciphertext then
        some (asBytes text)
      else none }

/-- The row that holds the ciphertext. -/
def sealedRow (ciphertext : Bytes) : DocumentChunk :=
  { planRow with encryptedContent := some (List.replicate 12 5 ++ ciphertext) }

theorem sealedRow_fits (ciphertext : Bytes) : ChunkFits (sealedRow ciphertext) := planRow_fits

/-- A session on a table with that row alone. -/
def sealedSession (ciphertext : Bytes) : GatewaySession :=
  ⟨(oneDocument _ (sealedRow_fits ciphertext)).db, ⟨none, none⟩, none, []⟩

theorem stored_sealed (ciphertext : Bytes) (text : String) :
    Stored (opening ciphertext text) calmEnv (sealedSession ciphertext) planRow.id text := by
  refine ⟨sealedRow ciphertext, List.replicate 12 5, ciphertext, ?_, rfl, rfl, ?_⟩
  · have hfind : [sealedRow ciphertext].find? (fun row => row.id = planRow.id) =
        some (sealedRow ciphertext) :=
      List.find?_cons_of_pos (decide_eq_true rfl)
    exact congrArg some hfind
  · exact if_pos ⟨rfl, rfl, rfl⟩

/-- `hello`, encrypted. -/
def sealedHello : Bytes := bytesBE 21 0x40350261cf2550a268d96d667db2692fa1ed80d76f

/-- The fragment of `hello` is `hello`. -/
theorem hello_fragment : ∃ fragment,
    fetchChunk (opening sealedHello "hello") calmEnv planRow.id (sealedSession sealedHello) =
      (.ok fragment, sealedSession sealedHello) ∧
    fragment = jstr "hello" ∧ wellFormed fragment = true := by
  obtain ⟨fragment, hfetch, -, -, hwhole, hiff⟩ := fragment_iff (stored_sealed sealedHello "hello")
  exact ⟨fragment, hfetch, hwhole (by decide), hiff.mpr (Or.inl (by decide))⟩

/-- `n` letters, one character outside the BMP, one letter. -/
def splitText (n : Nat) : String :=
  String.ofList (List.replicate n 'a' ++ [Char.ofNat 0x1F600, 'b'])

/-- The text with 499 letters, encrypted. -/
def sealedSplit : Bytes :=
  [0x49310f6cc11c572a0133b8992ec057b7caea14bf6adfd51468a04c4c17dd696c,
    0x9094d69ca1c5c5cc17c7ad27aad252db7ab96ab5e86bdf5bcf70fc8153e80c43,
    0xbe82c742d767fc6c965723e695a336eda1089ecdd9be5e00819782ec15a2affc,
    0x8284a6dbd4db2513867a3cb4d51860b1c1afeac1f7c4c9e8a53346d729b4d1cc,
    0x278e35d043a071f73b7ca588c76f64f85d63e131ab85e8bfdab405b1b5d0f7ca,
    0xfe94dc9e27a3d7ddce7063f72aba73edf618845ceff4682e1f3534b026931aeb,
    0xfdd6f8fb9f3e01f8b6705986f2f1f1cd0fdd50961f75bfb448ef8e0160a21791,
    0x431dc36ef36295b0da50f51d7d33273a082aeca18730dc3d23106a06a11b5a26,
    0x893dc5f3382d4f48ad23143f421abb0b53aaa88c0a11d8f92acc5e33f1e46112,
    0xe3f9d11261d0e2b4835ff691bfa2dab4e3a25b4bba848b03e5f667a2ea9b48f1,
    0x7cfea0e6bc0fd4846d69b068d1b1dbb2452f3c91408a2680825db294a3bbb738,
    0xebfbaf78f82a34ec7bf6b2327fd28e5aee44e87ec4d4295e54535252dcd59645,
    0x8d6442be51719b6ddd3b7d5ff727ad87aef96c94737c1a7be07b1b401d94c9e1,
    0x06a37ab75ddad1cbef2d3c2596051ba39ec465521cab1d19ae8ad86842b81107,
    0x79d3a910c3207c34e37a5bd4b65c2c53a5a8c3d7a5bad2a529a4925b66734ef4,
    0x463ee5c42df28e71b6f1d5bab56eeffa9e417cdc56561b3ba16b3f9578dcb988].flatMap (bytesBE 32) ++
    bytesBE 8 0x7968b1da67d39f4d

theorem jstr_letters (n : Nat) (rest : List Char) :
    jstr (String.ofList (List.replicate n 'a' ++ rest)) =
      List.replicate n (charUnit 'a') ++ jstr (String.ofList rest) := by
  have hascii : Ascii (List.replicate n 'a') := by
    intro c hc
    rw [List.eq_of_mem_replicate hc]
    decide
  rw [String.ofList_append, jstr_append, jstr_ascii hascii, List.map_replicate]

theorem splitText_units (n : Nat) : jstr (splitText n) =
    List.replicate n (charUnit 'a') ++ 0xD83D :: [0xDE00, 98] := by
  have hrest : jstr (String.ofList [Char.ofNat 0x1F600, 'b']) = 0xD83D :: [0xDE00, 98] := by decide
  rw [splitText, jstr_letters, hrest]

/-- What stands behind `n` units. -/
theorem getElem?_behind (n : Nat) (a u : UInt16) (us : JString) :
    (List.replicate n a ++ u :: us)[n]? = some u := by
  rw [List.getElem?_append_right (by rw [List.length_replicate]), List.length_replicate,
    Nat.sub_self]
  rfl

/-- The fragment of this text ends with the first half of a pair. -/
theorem pair_cut : ¬ ∀ (p : Platform) (env : Env) (s : GatewaySession) (chunkId : Uuid)
    (text : String), Stored p env s chunkId text →
      ∃ fragment, fetchChunk p env chunkId s = (.ok fragment, s) ∧ fragment <+: jstr text ∧
        fragment.length ≤ 500 ∧ wellFormed fragment = true ∧
        ((jstr text).length ≤ 500 → fragment = jstr text) := by
  intro hclaim
  have hstored := stored_sealed sealedSplit (splitText 499)
  obtain ⟨fragment, hfetch, -, -, hformed, -⟩ := hclaim _ _ _ _ _ hstored
  rw [fetchChunk_stored hstored] at hfetch
  have hfragment : (jstr (splitText 499)).take maxFragmentChars = fragment :=
    Except.ok.inj (Prod.mk.inj hfetch).1
  rw [← hfragment] at hformed
  rcases (wellFormed_take (splitText 499) 499).mp hformed with hshort | hunpaired
  · rw [splitText_units, List.length_append, List.length_replicate, List.length_cons,
      List.length_cons] at hshort
    omega
  · rw [splitText_units] at hunpaired
    have hhigh := hunpaired _ (getElem?_behind 499 _ _ _)
    exact absurd hhigh (by decide)

end McpGateway.Gateway
