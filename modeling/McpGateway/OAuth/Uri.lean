import Mathlib.Data.List.TakeDrop
import McpGateway.Foundation.Separator
import McpGateway.Gateway.JavaText

/-! # `java.net.URI`

The parser behind `new URI(s)` and `URI.create(s)`: a string with an illegal character, a malformed
escape or a misplaced part is refused.

* `parse_query` — a query put behind a URI that has none leaves the other parts as they are.
* `parse_parts` — where query and fragment of a URI with a path are. -/

namespace McpGateway.OAuth

open Foundation Gateway

/-- The authority of a URI; without a host it is registry-based. -/
structure Uri.Authority where
  text : JString
  userInfo : Option JString
  host : Option JString
  deriving DecidableEq, Repr

/-- The parts of a URI as they stand in it. An opaque URI has no path. -/
structure Uri where
  scheme : Option JString
  authority : Option Uri.Authority
  path : Option JString
  query : Option JString
  fragment : Option JString
  deriving DecidableEq, Repr

namespace Uri

/-! ## Characters -/

def isAnyOf (cs : String) (u : UInt16) : Bool := cs.toList.any fun c => charUnit c == u

def isDecimal (u : UInt16) : Bool := inRange 0x30 0x39 u
def isAlpha (u : UInt16) : Bool := inRange 0x41 0x5A u || inRange 0x61 0x7A u
def isAlphanum (u : UInt16) : Bool := isAlpha u || isDecimal u
def isHex (u : UInt16) : Bool := isDecimal u || inRange 0x41 0x46 u || inRange 0x61 0x66 u

def isUnreserved (u : UInt16) : Bool := isAlphanum u || isAnyOf "-_.!~*'()" u
def isScheme (u : UInt16) : Bool := isAlphanum u || isAnyOf "+-." u
def isUric (u : UInt16) : Bool := isUnreserved u || isAnyOf ";/?:@&=+$,[]" u
def isPath (u : UInt16) : Bool := isUnreserved u || isAnyOf ":@&=+$,;/" u
def isUserInfo (u : UInt16) : Bool := isUnreserved u || isAnyOf ";:&=+$," u
def isRegName (u : UInt16) : Bool := isUnreserved u || isAnyOf "$,;:@&=+" u
def isServer (u : UInt16) : Bool := isUserInfo u || isAnyOf "-.:@[]" u
def isScopeId (u : UInt16) : Bool := isAlphanum u || isAnyOf "_." u

/-- `Character.isSpaceChar` -/
def isSpaceChar (u : UInt16) : Bool :=
  u == 0x20 || u == 0xA0 || u == 0x1680 || inRange 0x2000 0x200A u || u == 0x2028 || u == 0x2029 ||
    u == 0x202F || u == 0x205F || u == 0x3000

/-- A visible character beyond ASCII: it may stand wherever an escape may. -/
def isOther (u : UInt16) : Bool :=
  128 < u.toNat && !isSpaceChar u && !inRange 0x80 0x9F u

/-- `scan` over characters of a class, escapes and other characters: what it stops at. A malformed
escape is a failure. -/
def scanEscaped (p : UInt16 → Bool) : JString → Option JString
  | [] => some []
  | c :: rest =>
      if p c then scanEscaped p rest
      else if c = charUnit '%' then
        match rest with
        | a :: b :: rest => if isHex a && isHex b then scanEscaped p rest else none
        | _ => none
      else if isOther c then scanEscaped p rest
      else some (c :: rest)

/-- `checkChars`, where escapes are allowed. -/
def legal (p : UInt16 → Bool) (s : JString) : Bool := scanEscaped p s = some []

/-! ## Hosts -/

def decimalValue (s : JString) : Nat := s.foldl (fun n u => 10 * n + (u.toNat - 0x30)) 0

/-- Four decimal numbers that fit in a byte. -/
def isIPv4 (s : JString) : Bool :=
  let parts := s.splitOn (charUnit '.')
  parts.length == 4 &&
    parts.all fun part => !part.isEmpty && part.all isDecimal && decimalValue part ≤ 255

/-- `parseIPv4Address`: the address, and what follows it. -/
def parseIPv4Address (s : JString) : Option (JString × JString) :=
  let (address, rest) := s.span fun u => isDecimal u || u == charUnit '.'
  if isIPv4 address && rest.head?.all (· == charUnit ':') then some (address, rest) else none

/-- The loop of `parseHostname`: what is left, and the text from the last label on. -/
def labelsFrom :
    (fuel : Nat) → JString → (last : Option JString) → Option (JString × Option JString)
  | 0, s, last => some (s, last)
  | fuel + 1, s, last =>
      if (s.takeWhile isAlphanum).isEmpty then some (s, last)
      else
        let (dashed, rest) := (s.dropWhile isAlphanum).span fun u =>
          isAlphanum u || u == charUnit '-'
        if dashed.getLast? = some (charUnit '-') then none
        else match rest with
          | [] => some ([], some s)
          | u :: next =>
              if u = charUnit '.' then labelsFrom fuel next (some s) else some (u :: next, some s)

/-- `parseHostname`. -/
def parseHostname (s : JString) : Option (JString × JString) := do
  let (rest, last) ← labelsFrom (s.length + 1) s none
  if rest.head?.all (· == charUnit ':') then
    let label ← last
    -- the rightmost of several labels begins with a letter
    if label.length < s.length && !label.head?.any isAlpha then none
    else some (s.take (s.length - rest.length), rest)
  else none

/-- The loop of `scanHexSeq`, with the bytes counted. -/
def hexGroupsFrom : (fuel : Nat) → JString → Nat → Option (JString × Nat)
  | 0, s, n => some (s, n)
  | fuel + 1, s, n =>
      match s with
      | [] => some ([], n)
      | u :: s' =>
          if u ≠ charUnit ':' ∨ s'.head? = some (charUnit ':') then some (u :: s', n)
          else
            let (group, rest) := s'.span isHex
            if group.isEmpty then none
            else if rest.head? = some (charUnit '.') then some (u :: s', n)
            else if group.length > 4 then none
            else hexGroupsFrom fuel rest (n + 2)

/-- `scanHexSeq`; the inner `none` is that no sequence begins here. -/
def scanHexSeq (s : JString) : Option (Option (JString × Nat)) :=
  let (group, rest) := s.span isHex
  if group.isEmpty || rest.head? = some (charUnit '.') then some none
  else if group.length > 4 then none
  else (hexGroupsFrom rest.length rest 2).map some

/-- What may follow a sequence: an IPv4 address behind a colon. -/
def thenIPv4 (s : JString) (n : Nat) : Option (JString × Nat) :=
  match s with
  | [] => some ([], n)
  | u :: s' => if u = charUnit ':' then (if isIPv4 s' then some ([], n + 4) else none)
      else some (u :: s', n)

/-- `scanHexPost`. -/
def scanHexPost (s : JString) (n : Nat) : Option (JString × Nat) :=
  if s.isEmpty then some ([], n)
  else do
    match ← scanHexSeq s with
    | some (rest, k) => thenIPv4 rest (n + k)
    | none => if isIPv4 s then some ([], n + 4) else none

/-- `parseIPv6Reference`. -/
def isIPv6 (s : JString) : Bool :=
  let compressed (s : JString) : Bool := [charUnit ':', charUnit ':'].isPrefixOf s
  let found : Option (JString × Nat × Bool) := do
    match ← scanHexSeq s with
    | some (rest, k) =>
        if compressed rest then
          let (rest, n) ← scanHexPost (rest.drop 2) k
          some (rest, n, true)
        else
          let (rest, n) ← thenIPv4 rest k
          some (rest, n, false)
    | none =>
        if compressed s then
          let (rest, n) ← scanHexPost (s.drop 2) 0
          some (rest, n, true)
        else some (s, 0, false)
  found.any fun (rest, n, compressed) =>
    rest.isEmpty && (if compressed then n < 16 else n == 16)

/-- The host of `parseServer`, and what follows it. -/
def parseHost (s : JString) : Option (JString × JString) :=
  match s with
  | [] => parseHostname []
  | u :: s' =>
      if u = charUnit '[' then
        match s'.span (· ≠ charUnit ']') with
        | (inner, close :: rest) =>
            let (address, scope) := inner.span (· ≠ charUnit '%')
            if inner.isEmpty || !isIPv6 (if address.isEmpty then inner else address) then none
            else if !address.isEmpty && !scope.isEmpty &&
                (scope.drop 1 == [] || !(scope.drop 1).all isScopeId) then none
            else some (u :: (inner ++ [close]), rest)
        | (_, []) => none
      else (parseIPv4Address (u :: s')).orElse fun _ => parseHostname (u :: s')

/-- `parseServer`: user info and host. -/
def parseServer (s : JString) : Option (Option JString × JString) := do
  let (userInfo, s) ← match s.span (· ≠ charUnit '@') with
    | (_, []) => some (none, s)
    | (userInfo, _ :: rest) =>
        if legal isUserInfo userInfo then some (some userInfo, rest) else none
  let (host, rest) ← parseHost s
  match rest with
  | [] => some (userInfo, host)
  | u :: port =>
      if u = charUnit ':' ∧ port.all isDecimal ∧ decimalValue port ≤ 2147483647 then
        some (userInfo, host)
      else none

/-- `parseAuthority`: what is no server may still be a registered name. -/
def parseAuthority (s : JString) : Option Authority := do
  let afterServer ← scanEscaped
    (fun u => isServer u || (u == charUnit '%' && s.head? ≠ some (charUnit ']'))) s
  let afterName ← scanEscaped isRegName s
  let server := if afterServer.isEmpty then parseServer s else none
  match server with
  | some (userInfo, host) => some ⟨s, userInfo, some host⟩
  | none => if afterName.isEmpty then some ⟨s, none, none⟩ else none

/-! ## The parser -/

/-- None of the characters at which a part of a URI can end. -/
def inPart (stops : String) (u : UInt16) : Bool := !isAnyOf stops u

/-- The authority, behind two slashes; it may be empty if something follows. -/
def takeAuthority (s : JString) : Option (Option Authority × JString) :=
  match s with
  | a :: b :: s' =>
      if a = charUnit '/' ∧ b = charUnit '/' then
        let (text, rest) := s'.span (inPart "/?#")
        if !text.isEmpty then (parseAuthority text).map fun authority => (some authority, rest)
        else if rest.isEmpty then none
        else some (none, rest)
      else some (none, s)
  | _ => some (none, s)

def takeQuery (s : JString) : Option (Option JString × JString) :=
  match s with
  | [] => some (none, [])
  | u :: s' =>
      if u = charUnit '?' then
        let (query, rest) := s'.span (inPart "#")
        if legal isUric query then some (some query, rest) else none
      else some (none, s)

def takeFragment (s : JString) : Option (Option JString) :=
  match s with
  | [] => some none
  | u :: fragment =>
      if u = charUnit '#' ∧ legal isUric fragment then some (some fragment) else none

/-- `parseHierarchical`, and the fragment. -/
def parseHierarchical (scheme : Option JString) (s : JString) : Option Uri := do
  let (authority, s) ← takeAuthority s
  let (path, s) := s.span (inPart "?#")
  if legal isPath path then
    let (query, s) ← takeQuery s
    let fragment ← takeFragment s
    some ⟨scheme, authority, some path, query, fragment⟩
  else none

/-- A part that is opaque, and the fragment. -/
def parseOpaque (scheme : JString) (s : JString) : Option Uri := do
  let (ssp, s) := s.span (inPart "#")
  if !ssp.isEmpty && legal isUric ssp then
    let fragment ← takeFragment s
    some ⟨some scheme, none, none, none, fragment⟩
  else none

/-- `Parser.parse`. -/
def parse (s : JString) : Option Uri :=
  match s.span (inPart ":/?#") with
  | (_, []) => parseHierarchical none s
  | (scheme, stop :: ssp) =>
      if stop = charUnit ':' then
        if scheme.head?.any isAlpha && scheme.all isScheme then
          if ssp.head? = some (charUnit '/') then parseHierarchical (some scheme) ssp
          else parseOpaque scheme ssp
        else none
      else parseHierarchical none s

/-! ## Where the parts are -/

theorem scanEscaped_char {p : UInt16 → Bool} {c : UInt16} (hc : p c = true) (rest : JString) :
    scanEscaped p (c :: rest) = scanEscaped p rest := by
  rw [scanEscaped.eq_def]
  exact if_pos hc

theorem scanEscaped_escape {p : UInt16 → Bool} {a b : UInt16} (hp : ¬p (charUnit '%') = true)
    (hhex : (isHex a && isHex b) = true) (rest : JString) :
    scanEscaped p (charUnit '%' :: a :: b :: rest) = scanEscaped p rest := by
  rw [scanEscaped.eq_def]
  dsimp only
  rw [if_neg hp, if_pos rfl, if_pos hhex]

theorem scanEscaped_other {p : UInt16 → Bool} {c : UInt16} (hp : ¬p c = true)
    (hpercent : c ≠ charUnit '%') (hother : isOther c = true) (rest : JString) :
    scanEscaped p (c :: rest) = scanEscaped p rest := by
  rw [scanEscaped.eq_def]
  dsimp only
  rw [if_neg hp, if_neg hpercent, if_pos hother]

theorem scanEscaped_append {p : UInt16 → Bool} {s : JString} (h : scanEscaped p s = some [])
    (t : JString) : scanEscaped p (s ++ t) = scanEscaped p t := by
  fun_induction scanEscaped p s with
  | case1 => rfl
  | case2 c rest hc ih =>
      rw [List.cons_append, scanEscaped_char hc]
      exact ih h
  | case3 a b rest hhex hp ih =>
      rw [List.cons_append, List.cons_append, List.cons_append, scanEscaped_escape hp hhex]
      exact ih h
  | case4 => cases h
  | case5 => cases h
  | case6 c rest hp hpercent hother ih =>
      rw [List.cons_append, scanEscaped_other hp hpercent hother]
      exact ih h
  | case7 => cases h

theorem legal_append {p : UInt16 → Bool} {s t : JString} (hs : legal p s = true)
    (ht : legal p t = true) : legal p (s ++ t) = true := by
  unfold legal at hs ht ⊢
  rw [decide_eq_true_eq] at hs ht ⊢
  rw [scanEscaped_append hs, ht]

/-- The parts stop no later for what is put behind the stop. -/
theorem span_append {p : UInt16 → Bool} {s part rest : JString} {stop : UInt16}
    (h : s.span p = (part, rest)) (hstop : p stop = false) (more : JString) :
    (s ++ stop :: more).span p = (part, rest ++ stop :: more) := by
  rw [List.span_eq_takeWhile_dropWhile] at h ⊢
  obtain ⟨rfl, rfl⟩ := Prod.mk.inj h
  induction s with
  | nil => simp [hstop]
  | cons c s ih =>
      rw [List.cons_append, List.takeWhile_cons, List.dropWhile_cons, List.takeWhile_cons,
        List.dropWhile_cons]
      cases hc : p c with
      | true =>
          obtain ⟨hpart, hrest⟩ := Prod.mk.inj (ih rfl)
          simp only [if_true, hpart, hrest]
      | false => rfl

theorem span_of_all {p : UInt16 → Bool} {s : JString} (h : ∀ u ∈ s, p u = true) :
    s.span p = (s, []) := by
  rw [List.span_eq_takeWhile_dropWhile, List.takeWhile_eq_self_iff.mpr h,
    List.dropWhile_eq_nil_iff.mpr h]

theorem append_of_span {p : UInt16 → Bool} {s part rest : JString} (h : s.span p = (part, rest)) :
    s = part ++ rest ∧ (∀ u ∈ part, p u = true) ∧ ∀ u, rest.head? = some u → p u = false := by
  rw [List.span_eq_takeWhile_dropWhile] at h
  obtain ⟨rfl, rfl⟩ := Prod.mk.inj h
  refine ⟨List.takeWhile_append_dropWhile.symm, fun u hu => List.mem_takeWhile_imp hu, ?_⟩
  intro u hu
  have hstop := List.head?_dropWhile_not p s
  rw [hu] at hstop
  simpa using hstop

/-- What is put behind the stop is no part of the authority. -/
theorem takeAuthority_append {s rest : JString} {authority : Option Authority}
    (h : takeAuthority s = some (authority, rest)) {stop : UInt16}
    (hstop : inPart "/?#" stop = false) (hslash : stop ≠ charUnit '/') (more : JString) :
    takeAuthority (s ++ stop :: more) = some (authority, rest ++ stop :: more) := by
  match s with
  | [] =>
      cases h
      cases more with
      | nil => rfl
      | cons u more => exact if_neg fun hboth => hslash hboth.1
  | [a] =>
      cases h
      exact if_neg fun hboth => hslash hboth.2
  | a :: b :: s =>
      simp only [takeAuthority, List.cons_append] at h ⊢
      by_cases hslashes : a = charUnit '/' ∧ b = charUnit '/'
      · obtain ⟨text, rest', hspan⟩ : ∃ text rest', s.span (inPart "/?#") = (text, rest') :=
          ⟨_, _, rfl⟩
        rw [if_pos hslashes, hspan] at h
        rw [if_pos hslashes, span_append hspan hstop more]
        dsimp only at h ⊢
        cases text with
        | nil =>
            cases rest' with
            | nil => cases h
            | cons u rest' =>
                cases h
                rfl
        | cons u text =>
            obtain ⟨authority', hparse, heq⟩ := Option.map_eq_some_iff.mp h
            cases heq
            show (parseAuthority (u :: text)).map _ = _
            rw [hparse]
            rfl
      · rw [if_neg hslashes] at h ⊢
        cases h
        rfl

theorem parseHierarchical_eq_some {scheme : Option JString} {s : JString} {u : Uri}
    (h : parseHierarchical scheme s = some u) : ∃ authority rest path rest' query rest'' fragment,
      takeAuthority s = some (authority, rest) ∧ rest.span (inPart "?#") = (path, rest') ∧
      legal isPath path = true ∧ takeQuery rest' = some (query, rest'') ∧
      takeFragment rest'' = some fragment ∧
      u = ⟨scheme, authority, some path, query, fragment⟩ := by
  unfold parseHierarchical at h
  obtain ⟨⟨authority, rest⟩, hauthority, h⟩ := Option.bind_eq_some_iff.mp h
  obtain ⟨path, rest', hspan⟩ : ∃ path rest', rest.span (inPart "?#") = (path, rest') := ⟨_, _, rfl⟩
  dsimp only at h
  rw [hspan] at h
  dsimp only at h
  split_ifs at h with hpath
  obtain ⟨⟨query, rest''⟩, hquery, h⟩ := Option.bind_eq_some_iff.mp h
  obtain ⟨fragment, hfragment, h⟩ := Option.bind_eq_some_iff.mp h
  cases h
  exact ⟨authority, rest, path, rest', query, rest'', fragment, hauthority, hspan, hpath, hquery,
    hfragment, rfl⟩

theorem parseOpaque_eq_some {scheme s : JString} {u : Uri} (h : parseOpaque scheme s = some u) :
    ∃ fragment, u = ⟨some scheme, none, none, none, fragment⟩ := by
  unfold parseOpaque at h
  dsimp only at h
  split_ifs at h
  obtain ⟨fragment, -, h⟩ := Option.bind_eq_some_iff.mp h
  cases h
  exact ⟨fragment, rfl⟩

/-- A URI with a scheme and a path. -/
theorem parse_eq_some {s scheme path : JString} {u : Uri} (h : parse s = some u)
    (hscheme : u.scheme = some scheme) (hpath : u.path = some path) : ∃ ssp,
      s.span (inPart ":/?#") = (scheme, charUnit ':' :: ssp) ∧
      (scheme.head?.any isAlpha && scheme.all isScheme) = true ∧
      ssp.head? = some (charUnit '/') ∧ parseHierarchical (some scheme) ssp = some u := by
  have hnone : parseHierarchical none s ≠ some u := by
    intro hparse
    obtain ⟨_, _, _, _, _, _, _, -, -, -, -, -, rfl⟩ := parseHierarchical_eq_some hparse
    cases hscheme
  unfold parse at h
  obtain ⟨scheme', rest, hspan⟩ : ∃ scheme' rest, s.span (inPart ":/?#") = (scheme', rest) :=
    ⟨_, _, rfl⟩
  rw [hspan] at h ⊢
  cases rest with
  | nil => exact absurd h hnone
  | cons stop ssp =>
      dsimp only at h
      split_ifs at h with hcolon hlegal hslash
      · obtain ⟨_, _, _, _, _, _, _, -, -, -, -, -, hu⟩ := parseHierarchical_eq_some h
        have hsame : scheme' = scheme := by
          rw [hu] at hscheme
          exact Option.some.inj hscheme
        subst hsame hcolon
        exact ⟨ssp, rfl, hlegal, hslash, h⟩
      · -- an opaque URI has no path
        obtain ⟨fragment, rfl⟩ := parseOpaque_eq_some h
        cases hpath
      · exact absurd h hnone

/-- A URI without a path is opaque. -/
theorem authority_of_parse {s : JString} {u : Uri} (h : parse s = some u) (hpath : u.path = none) :
    u.authority = none := by
  have hhierarchical : ∀ {scheme ssp}, parseHierarchical scheme ssp ≠ some u := by
    intro scheme ssp hparse
    obtain ⟨_, _, _, _, _, _, _, -, -, -, -, -, rfl⟩ := parseHierarchical_eq_some hparse
    cases hpath
  unfold parse at h
  obtain ⟨scheme, rest, hspan⟩ : ∃ scheme rest, s.span (inPart ":/?#") = (scheme, rest) :=
    ⟨_, _, rfl⟩
  rw [hspan] at h
  cases rest with
  | nil => exact absurd h hhierarchical
  | cons stop ssp =>
      dsimp only at h
      split_ifs at h
      · exact absurd h hhierarchical
      · obtain ⟨fragment, rfl⟩ := parseOpaque_eq_some h
        rfl
      · exact absurd h hhierarchical

theorem takeAuthority_front {s rest : JString} {authority : Option Authority}
    (h : takeAuthority s = some (authority, rest)) :
    ∃ front, s = front ++ rest ∧ ∀ c ∈ front, inPart "?#" c = true := by
  match s with
  | [] =>
      cases h
      exact ⟨[], rfl, nofun⟩
  | [a] =>
      cases h
      exact ⟨[], rfl, nofun⟩
  | a :: b :: s =>
      simp only [takeAuthority] at h
      by_cases hslashes : a = charUnit '/' ∧ b = charUnit '/'
      · obtain ⟨rfl, rfl⟩ := hslashes
        obtain ⟨text, rest', hspan⟩ : ∃ text rest', s.span (inPart "/?#") = (text, rest') :=
          ⟨_, _, rfl⟩
        obtain ⟨rfl, hall, -⟩ := append_of_span hspan
        have hrest : rest = rest' := by
          rw [if_pos ⟨rfl, rfl⟩, hspan] at h
          dsimp only at h
          split_ifs at h
          · obtain ⟨authority', -, heq⟩ := Option.map_eq_some_iff.mp h
            exact (congrArg Prod.snd heq).symm
          · exact (congrArg Prod.snd (Option.some.inj h)).symm
        subst hrest
        refine ⟨charUnit '/' :: charUnit '/' :: text, rfl, ?_⟩
        have htext : ∀ c ∈ text, inPart "?#" c = true := by
          intro c hc
          have hin := hall c hc
          simp only [inPart, isAnyOf, Bool.not_eq_true', List.any_eq_false] at hin ⊢
          intro d hd
          exact hin d (List.mem_cons_of_mem _ hd)
        exact List.forall_mem_cons.mpr ⟨rfl, List.forall_mem_cons.mpr ⟨rfl, htext⟩⟩
      · rw [if_neg hslashes] at h
        cases h
        exact ⟨[], rfl, nofun⟩

/-- A part behind its mark. -/
def marked (mark : Char) : Option JString → JString
  | none => []
  | some part => charUnit mark :: part

theorem takeQuery_eq_some {s rest : JString} {query : Option JString}
    (h : takeQuery s = some (query, rest)) :
    s = marked '?' query ++ rest ∧ ∀ q, query = some q → charUnit '#' ∉ q := by
  cases s with
  | nil =>
      cases h
      exact ⟨rfl, nofun⟩
  | cons u s =>
      unfold takeQuery at h
      dsimp only at h
      split_ifs at h with hmark hlegal
      · cases h
        obtain ⟨hs, hall, -⟩ := append_of_span (p := inPart "#") (s := s) rfl
        refine ⟨?_, ?_⟩
        · rw [hmark]
          exact congrArg (charUnit '?' :: ·) hs
        · rintro q ⟨⟩ hmem
          have hin := hall _ hmem
          revert hin
          decide
      · cases h
        exact ⟨rfl, nofun⟩

theorem takeFragment_eq_some {s : JString} {fragment : Option JString}
    (h : takeFragment s = some fragment) : s = marked '#' fragment := by
  cases s with
  | nil =>
      cases h
      rfl
  | cons u s =>
      unfold takeFragment at h
      dsimp only at h
      split_ifs at h with hmark
      cases h
      rw [hmark.1]
      rfl

/-- **The parts of a URI** make up its text again, and no mark is in a part before it. -/
theorem parse_parts {s scheme path : JString} {u : Uri} (h : parse s = some u)
    (hscheme : u.scheme = some scheme) (hpath : u.path = some path) : ∃ front,
      s = front ++ (marked '?' u.query ++ marked '#' u.fragment) ∧
      (∀ c ∈ front, inPart "?#" c = true) ∧ ∀ q, u.query = some q → charUnit '#' ∉ q := by
  obtain ⟨ssp, hspan, -, -, hparse⟩ := parse_eq_some h hscheme hpath
  obtain ⟨authority, rest, path', rest', query, rest'', fragment, hauthority, hspan', -, hquery,
    hfragment, rfl⟩ := parseHierarchical_eq_some hparse
  obtain ⟨rfl, hall, -⟩ := append_of_span hspan
  obtain ⟨front, rfl, hfront⟩ := takeAuthority_front hauthority
  obtain ⟨rfl, hall', -⟩ := append_of_span hspan'
  obtain ⟨rfl, hq⟩ := takeQuery_eq_some hquery
  obtain rfl := takeFragment_eq_some hfragment
  refine ⟨scheme ++ charUnit ':' :: (front ++ path'), by simp, ?_, hq⟩
  have hbefore : ∀ c ∈ scheme, inPart "?#" c = true := by
    intro c hc
    have hin := hall c hc
    simp only [inPart, isAnyOf, Bool.not_eq_true', List.any_eq_false] at hin ⊢
    intro d hd
    exact hin d (List.mem_cons_of_mem _ (List.mem_cons_of_mem _ hd))
  refine List.forall_mem_append.mpr ⟨hbefore, List.forall_mem_cons.mpr ⟨rfl, ?_⟩⟩
  exact List.forall_mem_append.mpr ⟨hfront, hall'⟩

theorem not_mem_of_inPart {front : JString} (h : ∀ c ∈ front, inPart "?#" c = true) :
    charUnit '?' ∉ front ∧ charUnit '#' ∉ front := by
  constructor
  · intro hmem
    exact absurd (h _ hmem) (by decide)
  · intro hmem
    exact absurd (h _ hmem) (by decide)

/-- The fragment is what is behind the first `#`. -/
theorem parse_fragment {s scheme path : JString} {u : Uri} (h : parse s = some u)
    (hscheme : u.scheme = some scheme) (hpath : u.path = some path) : ∃ front,
      s = front ++ marked '#' u.fragment ∧ charUnit '#' ∉ front := by
  obtain ⟨front, hs, hfront, hquery⟩ := parse_parts h hscheme hpath
  refine ⟨front ++ marked '?' u.query, by rw [List.append_assoc]; exact hs, ?_⟩
  rw [List.mem_append, not_or]
  refine ⟨(not_mem_of_inPart hfront).2, ?_⟩
  cases hq : u.query with
  | none => exact List.not_mem_nil
  | some q =>
      intro hmem
      rcases List.mem_cons.mp hmem with hmark | hmem
      · exact absurd hmark (by decide)
      · exact hquery q hq hmem

/-- Without a fragment, the query is what is behind the first `?`. -/
theorem parse_queried {s scheme path : JString} {u : Uri} (h : parse s = some u)
    (hscheme : u.scheme = some scheme) (hpath : u.path = some path) (hhash : charUnit '#' ∉ s) :
    ∃ front, s = front ++ marked '?' u.query ∧ charUnit '?' ∉ front := by
  obtain ⟨front, hs, hfront, -⟩ := parse_parts h hscheme hpath
  cases hfragment : u.fragment with
  | none =>
      rw [hfragment] at hs
      exact ⟨front, by rw [hs]; exact congrArg (front ++ ·) (List.append_nil _),
        (not_mem_of_inPart hfront).1⟩
  | some fragment =>
      rw [hs, hfragment] at hhash
      simp [marked] at hhash

theorem exists_of_marked {mark : Char} {s front : JString} {part : Option JString}
    (hs : s = front ++ marked mark part) (hfront : charUnit mark ∉ front)
    (hmem : charUnit mark ∈ s) : ∃ p, part = some p := by
  cases part with
  | none =>
      rw [hs, marked, List.append_nil] at hmem
      exact absurd hmem hfront
  | some p => exact ⟨p, rfl⟩

/-- What is put behind a marked part becomes part of it. -/
theorem marked_append {mark : Char} {s more front front' : JString} {part part' : Option JString}
    (hs : s = front ++ marked mark part) (hfront : charUnit mark ∉ front)
    (hs' : s ++ more = front' ++ marked mark part') (hfront' : charUnit mark ∉ front')
    (hmem : charUnit mark ∈ s) : ∃ p, part = some p ∧ part' = some (p ++ more) := by
  obtain ⟨p, rfl⟩ := exists_of_marked hs hfront hmem
  obtain ⟨p', rfl⟩ := exists_of_marked hs' hfront' (List.mem_append_left more hmem)
  have hcut : front ++ charUnit mark :: (p ++ more) = front' ++ charUnit mark :: p' := by
    calc front ++ charUnit mark :: (p ++ more) = (front ++ marked mark (some p)) ++ more := by
          rw [marked, List.append_assoc, List.cons_append]
      _ = front' ++ charUnit mark :: p' := by rw [← hs, hs', marked]
  obtain ⟨-, rfl⟩ := append_cons_inj hfront hfront' hcut
  exact ⟨p, rfl, rfl⟩

theorem takeQuery_marked {q : JString} (hq : charUnit '#' ∉ q) (hlegal : legal isUric q = true) :
    takeQuery (charUnit '?' :: q) = some (some q, []) := by
  have hspan : q.span (inPart "#") = (q, []) := by
    apply span_of_all
    intro c hc
    simp only [inPart, isAnyOf, Bool.not_eq_true', List.any_eq_false, beq_iff_eq]
    rintro d hd rfl
    obtain rfl := List.mem_singleton.mp hd
    exact hq hc
  simp only [takeQuery, if_pos, hspan, hlegal]

theorem parseHierarchical_query {scheme : Option JString} {s q : JString} {u : Uri}
    (h : parseHierarchical scheme s = some u) (hno : ∀ c ∈ s, inPart "?#" c = true)
    (hq : charUnit '#' ∉ q) (hlegal : legal isUric q = true) :
    parseHierarchical scheme (s ++ charUnit '?' :: q) = some { u with query := some q } := by
  have hmark : inPart "/?#" (charUnit '?') = false ∧ inPart "?#" (charUnit '?') = false := by decide
  obtain ⟨authority, rest, path, rest', query, rest'', fragment, hauthority, hspan, hpath, hquery,
    hfragment, rfl⟩ := parseHierarchical_eq_some h
  obtain ⟨front, hs, -⟩ := takeAuthority_front hauthority
  obtain ⟨hrest, -, hstop⟩ := append_of_span hspan
  -- nothing is left behind the path
  obtain rfl : rest' = [] := by
    cases rest' with
    | nil => rfl
    | cons c rest' =>
        have hin := hno c (by rw [hs, hrest]; simp)
        rw [hstop c rfl] at hin
        cases hin
  cases hquery
  cases hfragment
  unfold parseHierarchical
  rw [takeAuthority_append hauthority hmark.1 (by decide), Option.bind_eq_bind, Option.bind_some]
  dsimp only
  rw [span_append hspan hmark.2]
  dsimp only [List.nil_append]
  rw [if_pos hpath, takeQuery_marked hq hlegal]
  rfl

/-- **A query** put behind a URI that has neither query nor fragment. -/
theorem parse_query {s scheme path q : JString} {u : Uri} (h : parse s = some u)
    (hscheme : u.scheme = some scheme) (hpath : u.path = some path)
    (hno : ∀ c ∈ s, inPart "?#" c = true) (hq : charUnit '#' ∉ q) (hlegal : legal isUric q = true) :
    parse (s ++ charUnit '?' :: q) = some { u with query := some q } := by
  obtain ⟨ssp, hspan, hok, hslash, hparse⟩ := parse_eq_some h hscheme hpath
  obtain ⟨rfl, -, -⟩ := append_of_span hspan
  have hno' : ∀ c ∈ ssp, inPart "?#" c = true := fun c hc =>
    hno c (List.mem_append_right _ (List.mem_cons_of_mem _ hc))
  have hslash' : (ssp ++ charUnit '?' :: q).head? = some (charUnit '/') := by
    rw [List.head?_append, hslash, Option.some_or]
  unfold parse
  rw [span_append hspan (show inPart ":/?#" (charUnit '?') = false from rfl) q]
  dsimp only [List.cons_append]
  rw [if_pos rfl, if_pos hok, if_pos hslash']
  exact parseHierarchical_query hparse hno' hq hlegal

end Uri

end McpGateway.OAuth
