import McpGateway.OAuth.Exchange
import McpGateway.OAuth.Redirect

/-! # Where codes go

A browser does not read a `Location` with `java.net.URI`. What it goes by is the text: the scheme up
to the first colon, and the host between two slashes and the next delimiter.

* `isAllowed_trusted` — read that way, an allowed `redirect_uri` names a trusted host, and every unit
  of it is visible.
* `codes_stay` — so is every `Location` a code is sent to, in every run of submissions and exchanges. -/

namespace McpGateway.OAuth

open Foundation Gateway Uri

/-! ## What a browser reads -/

/-- A unit that is neither a control, a space nor a backslash. -/
def isVisible (u : UInt16) : Bool :=
  (0x20 < u.toNat && u.toNat < 0x7F && u != charUnit '\\') || isOther u

def isTrustedHost (allowedHosts : List JString) (host : JString) : Bool :=
  loopbackHosts.contains (toLowerCase host) || allowedHosts.contains (toLowerCase host)

/-- What follows the colon of the scheme leads to a trusted host: it stands between the slashes and
what ends it, alone but for a port. -/
def LeadsToTrusted (allowedHosts : List JString) (s : JString) : Prop :=
  ∃ host port rest, s = jstr "//" ++ (host ++ port ++ rest) ∧ host ≠ [] ∧
    isTrustedHost allowedHosts host = true ∧
    (port = [] ∨ ∃ digits, port = charUnit ':' :: digits ∧ digits.all isDecimal = true) ∧
    (∀ c ∈ host ++ port, inPart "/?#@\\" c = true) ∧
    ∀ u, rest.head? = some u → inPart "/?#" u = false

/-- An address that codes may be sent to. -/
def Trusted (allowedHosts : List JString) (s : JString) : Prop :=
  (∀ c ∈ s, isVisible c = true) ∧ ∃ scheme rest, s = scheme ++ charUnit ':' :: rest ∧
    charUnit ':' ∉ scheme ∧ matchesScheme (toLowerCase scheme) = true ∧
    toLowerCase scheme ∉ dangerousSchemes ∧
    (toLowerCase scheme = jstr "http" ∨ toLowerCase scheme = jstr "https" →
      LeadsToTrusted allowedHosts rest)

/-! ## Legal text is visible -/

theorem visible_of_isAnyOf {cs : String}
    (hcs : (cs.toList.all fun c => isVisible (charUnit c)) = true) {u : UInt16}
    (h : isAnyOf cs u = true) : isVisible u = true := by
  obtain ⟨c, hc, hu⟩ := List.any_eq_true.mp h
  rw [← eq_of_beq hu]
  exact List.all_eq_true.mp hcs c hc

theorem visible_of_isAlphanum {u : UInt16} (h : isAlphanum u = true) : isVisible u = true := by
  have hrange : (0x41 ≤ u.toNat ∧ u.toNat ≤ 0x5A) ∨ (0x61 ≤ u.toNat ∧ u.toNat ≤ 0x7A) ∨
      (0x30 ≤ u.toNat ∧ u.toNat ≤ 0x39) := by
    simpa [isAlphanum, isAlpha, isDecimal, inRange, or_assoc] using h
  have hne : u ≠ charUnit '\\' := by
    rintro rfl
    revert hrange
    decide
  have hlow : 0x20 < u.toNat ∧ u.toNat < 0x7F := by omega
  simp [isVisible, hlow, hne]

theorem visible_of_isUnreserved {u : UInt16} (h : isUnreserved u = true) : isVisible u = true := by
  rcases Bool.or_eq_true_iff.mp h with h | h
  · exact visible_of_isAlphanum h
  · exact visible_of_isAnyOf (by decide) h

theorem visible_of_isUric {u : UInt16} (h : isUric u = true) : isVisible u = true := by
  rcases Bool.or_eq_true_iff.mp h with h | h
  · exact visible_of_isUnreserved h
  · exact visible_of_isAnyOf (by decide) h

theorem visible_of_isPath {u : UInt16} (h : isPath u = true) : isVisible u = true := by
  rcases Bool.or_eq_true_iff.mp h with h | h
  · exact visible_of_isUnreserved h
  · exact visible_of_isAnyOf (by decide) h

theorem visible_of_isRegName {u : UInt16} (h : isRegName u = true) : isVisible u = true := by
  rcases Bool.or_eq_true_iff.mp h with h | h
  · exact visible_of_isUnreserved h
  · exact visible_of_isAnyOf (by decide) h

theorem visible_of_isScheme {u : UInt16} (h : isScheme u = true) : isVisible u = true := by
  rcases Bool.or_eq_true_iff.mp h with h | h
  · exact visible_of_isAlphanum h
  · exact visible_of_isAnyOf (by decide) h

theorem visible_of_isServer {u : UInt16} (h : isServer u = true) : isVisible u = true := by
  rcases Bool.or_eq_true_iff.mp h with h | h
  · rcases Bool.or_eq_true_iff.mp h with h | h
    · exact visible_of_isUnreserved h
    · exact visible_of_isAnyOf (by decide) h
  · exact visible_of_isAnyOf (by decide) h

theorem visible_of_isHex {u : UInt16} (h : isHex u = true) : isVisible u = true := by
  apply visible_of_isAlphanum
  simp only [isHex, isAlphanum, isAlpha, isDecimal, inRange, Bool.or_eq_true, Bool.and_eq_true,
    decide_eq_true_eq] at h ⊢
  have h41 : (0x41 : UInt16).toNat = 0x41 ∧ (0x46 : UInt16).toNat = 0x46 := by decide
  have h61 : (0x61 : UInt16).toNat = 0x61 ∧ (0x66 : UInt16).toNat = 0x66 := by decide
  have h5A : (0x5A : UInt16).toNat = 0x5A ∧ (0x7A : UInt16).toNat = 0x7A := by decide
  omega

/-- A scan that comes to the end has seen nothing invisible. -/
theorem scanEscaped_visible {p : UInt16 → Bool} (hp : ∀ u, p u = true → isVisible u = true)
    {s : JString} (h : scanEscaped p s = some []) : ∀ c ∈ s, isVisible c = true := by
  have hpercent : isVisible (charUnit '%') = true := by decide
  fun_induction scanEscaped p s with
  | case1 => simp
  | case2 c rest hc ih => exact List.forall_mem_cons.mpr ⟨hp c hc, ih h⟩
  | case3 a b rest hhex _ ih =>
      obtain ⟨ha, hb⟩ := Bool.and_eq_true_iff.mp hhex
      exact List.forall_mem_cons.mpr ⟨hpercent, List.forall_mem_cons.mpr
        ⟨visible_of_isHex ha, List.forall_mem_cons.mpr ⟨visible_of_isHex hb, ih h⟩⟩⟩
  | case4 => cases h
  | case5 => cases h
  | case6 c rest _ _ hother ih =>
      refine List.forall_mem_cons.mpr ⟨?_, ih h⟩
      rw [isVisible, hother, Bool.or_true]
  | case7 => cases h

theorem legal_visible {p : UInt16 → Bool} (hp : ∀ u, p u = true → isVisible u = true)
    {s : JString} (h : legal p s = true) : ∀ c ∈ s, isVisible c = true :=
  scanEscaped_visible hp (of_decide_eq_true h)

theorem parseAuthority_visible {text : JString} {authority : Authority}
    (h : parseAuthority text = some authority) : ∀ c ∈ text, isVisible c = true := by
  obtain ⟨afterServer, hserver, h⟩ := Option.bind_eq_some_iff.mp h
  obtain ⟨afterName, hname, h⟩ := Option.bind_eq_some_iff.mp h
  dsimp only at h
  by_cases hempty : afterServer.isEmpty = true
  · rw [List.isEmpty_iff] at hempty
    rw [hempty] at hserver
    refine scanEscaped_visible ?_ hserver
    intro u hu
    rcases Bool.or_eq_true_iff.mp hu with hu | hu
    · exact visible_of_isServer hu
    · obtain ⟨hu, -⟩ := Bool.and_eq_true_iff.mp hu
      rw [eq_of_beq hu]
      decide
  · rw [if_neg hempty] at h
    dsimp only at h
    split_ifs at h with hend
    rw [List.isEmpty_iff] at hend
    rw [hend] at hname
    exact scanEscaped_visible (fun _ => visible_of_isRegName) hname

/-! ## Where the host is -/

/-- The loop of `parseHostname` leaves an end of the text. -/
theorem labelsFrom_suffix {fuel : Nat} {s rest : JString} {last last' : Option JString}
    (h : labelsFrom fuel s last = some (rest, last')) : ∃ labels, s = labels ++ rest := by
  induction fuel generalizing s last with
  | zero =>
      cases h
      exact ⟨[], rfl⟩
  | succ fuel ih =>
      unfold labelsFrom at h
      split_ifs at h with hempty
      · cases h
        exact ⟨[], rfl⟩
      · obtain ⟨dashed, left, hspan⟩ : ∃ dashed left, (s.dropWhile isAlphanum).span
            (fun u => isAlphanum u || u == charUnit '-') = (dashed, left) := ⟨_, _, rfl⟩
        rw [hspan] at h
        dsimp only at h
        have hs : s = s.takeWhile isAlphanum ++ (dashed ++ left) := by
          rw [← (append_of_span hspan).1, List.takeWhile_append_dropWhile]
        split_ifs at h with hdash
        cases left with
        | nil =>
            cases h
            exact ⟨s, (List.append_nil s).symm⟩
        | cons u next =>
            dsimp only at h
            split_ifs at h with hdot
            · obtain ⟨labels, rfl⟩ := ih h
              exact ⟨s.takeWhile isAlphanum ++ (dashed ++ u :: labels), by simpa using hs⟩
            · cases h
              exact ⟨s.takeWhile isAlphanum ++ dashed, by simpa using hs⟩

theorem parseHostname_append {s host rest : JString} (h : parseHostname s = some (host, rest)) :
    s = host ++ rest := by
  obtain ⟨⟨left, last⟩, hlabels, h⟩ := Option.bind_eq_some_iff.mp h
  dsimp only at h
  split_ifs at h with hport
  obtain ⟨label, -, h⟩ := Option.bind_eq_some_iff.mp h
  split_ifs at h with hletter
  cases h
  obtain ⟨labels, rfl⟩ := labelsFrom_suffix hlabels
  have hlength : (labels ++ rest).length - rest.length = labels.length := by simp
  rw [hlength, List.take_left]

theorem parseHost_append {s host rest : JString} (h : parseHost s = some (host, rest)) :
    s = host ++ rest := by
  unfold parseHost at h
  cases s with
  | nil => exact parseHostname_append h
  | cons u s =>
      dsimp only at h
      split_ifs at h with hbracket
      · obtain ⟨inner, left, hspan⟩ : ∃ inner left,
            s.span (· ≠ charUnit ']') = (inner, left) := ⟨_, _, rfl⟩
        rw [hspan] at h
        obtain ⟨hs, -, -⟩ := append_of_span hspan
        cases left with
        | nil => cases h
        | cons close left =>
            have hfound : some (u :: (inner ++ [close]), left) = some (host, rest) := by
              dsimp only at h
              split_ifs at h <;> exact h
            cases hfound
            rw [hs, List.cons_append, List.append_assoc, List.singleton_append]
      · rcases hv4 : parseIPv4Address (u :: s) with _ | ⟨address, left⟩
        · rw [hv4] at h
          exact parseHostname_append h
        · rw [hv4] at h
          cases h
          unfold parseIPv4Address at hv4
          dsimp only at hv4
          split_ifs at hv4
          cases hv4
          exact (append_of_span rfl).1

/-- Without user info, the host begins the text and a port may follow. -/
theorem parseServer_host {s host : JString} (h : parseServer s = some (none, host)) :
    charUnit '@' ∉ s ∧ ∃ port, s = host ++ port ∧
      (port = [] ∨ ∃ digits, port = charUnit ':' :: digits ∧ digits.all isDecimal = true) := by
  unfold parseServer at h
  obtain ⟨before, after, hspan⟩ : ∃ before after,
      s.span (· ≠ charUnit '@') = (before, after) := ⟨_, _, rfl⟩
  obtain ⟨hs, hbefore, -⟩ := append_of_span hspan
  rw [hspan] at h
  cases after with
  | cons mark after =>
      -- there would be user info
      dsimp only at h
      split_ifs at h
      · rw [Option.bind_eq_bind, Option.bind_some] at h
        obtain ⟨⟨host', rest⟩, -, h⟩ := Option.bind_eq_some_iff.mp h
        cases rest with
        | nil => cases h
        | cons u digits =>
            dsimp only at h
            split_ifs at h
            cases h
      · cases h
  | nil =>
      dsimp only at h
      rw [Option.bind_eq_bind, Option.bind_some] at h
      obtain ⟨⟨host', rest⟩, hhost, h⟩ := Option.bind_eq_some_iff.mp h
      have hport : host' = host ∧
          (rest = [] ∨ ∃ digits, rest = charUnit ':' :: digits ∧ digits.all isDecimal = true) := by
        cases rest with
        | nil =>
            cases h
            exact ⟨rfl, Or.inl rfl⟩
        | cons u digits =>
            dsimp only at h
            split_ifs at h with hport
            cases h
            obtain ⟨rfl, hdigits, -⟩ := hport
            exact ⟨rfl, Or.inr ⟨digits, rfl, hdigits⟩⟩
      obtain ⟨rfl, hport⟩ := hport
      refine ⟨?_, rest, parseHost_append hhost, hport⟩
      intro hmem
      rw [hs, List.append_nil] at hmem
      exact absurd (hbefore _ hmem) (by simp)

/-- What stands between the slashes and what ends it. -/
theorem takeAuthority_some {s rest : JString} {authority : Authority}
    (h : takeAuthority s = some (some authority, rest)) : ∃ text, s = jstr "//" ++ (text ++ rest) ∧
      parseAuthority text = some authority ∧ (∀ c ∈ text, inPart "/?#" c = true) ∧
      ∀ u, rest.head? = some u → inPart "/?#" u = false := by
  match s with
  | [] => cases h
  | [a] => cases h
  | a :: b :: s =>
      simp only [takeAuthority] at h
      by_cases hslashes : a = charUnit '/' ∧ b = charUnit '/'
      · rw [if_pos hslashes] at h
        obtain ⟨rfl, rfl⟩ := hslashes
        obtain ⟨text, rest', hspan⟩ : ∃ text rest', s.span (inPart "/?#") = (text, rest') :=
          ⟨_, _, rfl⟩
        obtain ⟨rfl, hall, hstop⟩ := append_of_span hspan
        rw [hspan] at h
        dsimp only at h
        split_ifs at h with hempty
        · obtain ⟨authority', hparse, heq⟩ := Option.map_eq_some_iff.mp h
          cases heq
          exact ⟨text, rfl, hparse, hall, hstop⟩
        · cases h
      · rw [if_neg hslashes] at h
        cases h

/-- A host that is allowed is where a browser looks for it. -/
theorem leadsToTrusted {allowedHosts : List JString} {ssp rest : JString} {authority : Authority}
    (hauthority : takeAuthority ssp = some (some authority, rest)) {host : JString}
    (hhost : authority.host = some host) (huser : authority.userInfo = none) (hne : host ≠ [])
    (htrusted : isTrustedHost allowedHosts host = true) : LeadsToTrusted allowedHosts ssp := by
  obtain ⟨text, rfl, hparse, htext, hstop⟩ := takeAuthority_some hauthority
  have hvisible := parseAuthority_visible hparse
  have hserver : parseServer text = some (none, host) := by
    obtain ⟨afterServer, -, h⟩ := Option.bind_eq_some_iff.mp hparse
    obtain ⟨afterName, -, h⟩ := Option.bind_eq_some_iff.mp h
    dsimp only at h
    cases hserver : (if afterServer.isEmpty then parseServer text else none) with
    | none =>
        rw [hserver] at h
        dsimp only at h
        split_ifs at h
        cases h
        cases hhost
    | some server =>
        rw [hserver] at h
        cases h
        split_ifs at hserver
        cases hhost
        obtain ⟨userInfo, host⟩ := server
        cases huser
        exact hserver
  obtain ⟨hat, port, rfl, hport⟩ := parseServer_host hserver
  -- a browser would also stop at `@` and at a backslash, and the authority has neither
  refine ⟨host, port, rest, rfl, hne, htrusted, hport, ?_, hstop⟩
  intro c hc
  have hdelimiter := htext c hc
  have hbackslash : c ≠ charUnit '\\' := by
    rintro rfl
    exact absurd (hvisible _ hc) (by decide)
  simp only [inPart, isAnyOf, Bool.not_eq_true', List.any_eq_false, beq_iff_eq] at hdelimiter ⊢
  rintro d hd rfl
  have hcases : d ∈ ['/', '?', '#'] ∨ d = '@' ∨ d = '\\' := by
    simpa [or_assoc] using hd
  rcases hcases with hd | rfl | rfl
  · exact hdelimiter d hd rfl
  · exact hat hc
  · exact hbackslash rfl

/-! ## What is allowed is trusted -/

theorem takeAuthority_visible {s rest : JString} {authority : Option Authority}
    (h : takeAuthority s = some (authority, rest)) (hrest : ∀ c ∈ rest, isVisible c = true) :
    ∀ c ∈ s, isVisible c = true := by
  cases authority with
  | some authority =>
      obtain ⟨text, rfl, hparse, -, -⟩ := takeAuthority_some h
      exact List.forall_mem_append.mpr ⟨List.all_eq_true.mp (by decide),
        List.forall_mem_append.mpr ⟨parseAuthority_visible hparse, hrest⟩⟩
  | none =>
      match s with
      | [] => simp
      | [a] =>
          cases h
          exact hrest
      | a :: b :: s =>
          simp only [takeAuthority] at h
          by_cases hslashes : a = charUnit '/' ∧ b = charUnit '/'
          · rw [if_pos hslashes] at h
            obtain ⟨rfl, rfl⟩ := hslashes
            obtain ⟨text, rest', hspan⟩ : ∃ text rest', s.span (inPart "/?#") = (text, rest') :=
              ⟨_, _, rfl⟩
            obtain ⟨rfl, -, -⟩ := append_of_span hspan
            rw [hspan] at h
            dsimp only at h
            split_ifs at h with hempty
            · obtain ⟨authority', -, heq⟩ := Option.map_eq_some_iff.mp h
              cases heq
            · cases h
              have htext : text = [] := by simpa using hempty
              subst htext
              exact List.forall_mem_cons.mpr ⟨by decide, List.forall_mem_cons.mpr ⟨by decide, hrest⟩⟩
          · rw [if_neg hslashes] at h
            cases h
            exact hrest

theorem takeQuery_visible {s rest : JString} {query : Option JString}
    (h : takeQuery s = some (query, rest)) (hrest : ∀ c ∈ rest, isVisible c = true) :
    ∀ c ∈ s, isVisible c = true := by
  cases s with
  | nil => simp
  | cons u s =>
      unfold takeQuery at h
      dsimp only at h
      split_ifs at h with hmark hlegal
      · cases h
        obtain ⟨hs, -, -⟩ := append_of_span (p := inPart "#") (s := s) rfl
        rw [hs, hmark]
        refine List.forall_mem_cons.mpr ⟨by decide, List.forall_mem_append.mpr ⟨?_, hrest⟩⟩
        exact legal_visible (fun _ => visible_of_isUric) hlegal
      · cases h
        exact hrest

theorem takeFragment_visible {s : JString} {fragment : Option JString}
    (h : takeFragment s = some fragment) : ∀ c ∈ s, isVisible c = true := by
  cases s with
  | nil => simp
  | cons u s =>
      unfold takeFragment at h
      dsimp only at h
      split_ifs at h with hmark
      rw [hmark.1]
      exact List.forall_mem_cons.mpr
        ⟨by decide, legal_visible (fun _ => visible_of_isUric) hmark.2⟩

/-- A URI with a scheme and a path has nothing invisible in it. -/
theorem parse_visible {s scheme path : JString} {u : Uri} (h : parse s = some u)
    (hscheme : u.scheme = some scheme) (hpath : u.path = some path) :
    ∀ c ∈ s, isVisible c = true := by
  obtain ⟨ssp, hspan, hok, -, hparse⟩ := parse_eq_some h hscheme hpath
  obtain ⟨rfl, -, -⟩ := append_of_span hspan
  obtain ⟨authority, rest, path', rest', query, rest'', fragment, hauthority, hspan', hlegal, hquery,
    hfragment, rfl⟩ := parseHierarchical_eq_some hparse
  obtain ⟨rfl, -, -⟩ := append_of_span hspan'
  have hbefore : ∀ c ∈ scheme, isVisible c = true := fun c hc =>
    visible_of_isScheme (List.all_eq_true.mp (Bool.and_eq_true_iff.mp hok).2 c hc)
  refine List.forall_mem_append.mpr ⟨hbefore, List.forall_mem_cons.mpr ⟨by decide, ?_⟩⟩
  apply takeAuthority_visible hauthority
  refine List.forall_mem_append.mpr ⟨legal_visible (fun _ => visible_of_isPath) hlegal, ?_⟩
  exact takeQuery_visible hquery (takeFragment_visible hfragment)

/-- **What is allowed is trusted**, for whoever reads its text. -/
theorem isAllowed_trusted {allowedHosts : List JString} {redirectUri : JString}
    (h : isAllowed allowedHosts redirectUri = true) : Trusted allowedHosts redirectUri := by
  obtain ⟨u, scheme, path, hparse, hscheme, hpath⟩ := isAllowed_spec h
  have hu : isAllowedUri allowedHosts u = true := by
    unfold isAllowed at h
    split_ifs at h
    rw [hparse] at h
    exact h
  obtain ⟨ssp, hspan, -, -, hparse'⟩ := parse_eq_some hparse hscheme hpath
  obtain ⟨hs, hall, -⟩ := append_of_span hspan
  unfold isAllowedUri at hu
  rw [hscheme] at hu
  dsimp only at hu
  split_ifs at hu with hbad hhttp
  all_goals
    simp only [Bool.or_eq_true, not_or, Bool.not_eq_true, Bool.not_eq_false', List.contains_iff_mem]
      at hbad
    refine ⟨parse_visible hparse hscheme hpath, scheme, ssp, hs, ?_, hbad.2, by simpa using hbad.1.2, ?_⟩
  · exact fun hmem => absurd (hall _ hmem) (by decide)
  · intro _
    obtain ⟨authority, rest, _, _, _, _, _, hauthority, -, -, -, -, rfl⟩ :=
      parseHierarchical_eq_some hparse'
    unfold isAllowedHttpHost at hu
    cases authority with
    | none => cases hu
    | some authority =>
        dsimp only at hu
        cases hhost : authority.host with
        | none =>
            rw [hhost] at hu
            cases hu
        | some host =>
            rw [hhost] at hu
            simp only [Bool.and_eq_true, Bool.not_eq_true', List.isEmpty_eq_false_iff,
              Option.isNone_iff_eq_none] at hu
            exact leadsToTrusted hauthority hhost hu.1.2 hu.1.1 hu.2
  · exact fun hmem => absurd (hall _ hmem) (by decide)
  · exact fun hhttp' => absurd hhttp' hhttp

/-- The response put behind an address leads nowhere else. -/
theorem location_trusted {allowedHosts : List JString} {redirectUri : JString}
    (h : Trusted allowedHosts redirectUri) (code issuer state : JString) :
    Trusted allowedHosts (location redirectUri code issuer state) := by
  obtain ⟨hvisible, scheme, ssp, rfl, hcolon, hmatches, hdangerous, hleads⟩ := h
  rw [location_eq]
  refine ⟨?_, scheme, ssp ++ charUnit '?' :: responseQuery code issuer state, by simp, hcolon,
    hmatches, hdangerous, ?_⟩
  · refine List.forall_mem_append.mpr ⟨hvisible, List.forall_mem_cons.mpr ⟨by decide, ?_⟩⟩
    exact legal_visible (fun _ => visible_of_isUric) (responseQuery_legal code issuer state)
  · intro hhttp
    obtain ⟨host, port, rest, rfl, hne, htrusted, hport, hin, hstop⟩ := hleads hhttp
    refine ⟨host, port, rest ++ charUnit '?' :: responseQuery code issuer state, by simp, hne,
      htrusted, hport, hin, ?_⟩
    intro u hu
    cases rest with
    | nil =>
        cases hu
        decide
    | cons c rest => exact hstop u hu

/-! ## Every run -/

section Runs

variable {sha256 hmacSha256 : Bytes → Bytes} {issuer : JString} {allowedHosts : List JString}
  {authenticate : Nat → JString → Option Identity} {s s' : Exchange JString}

/-- The submission a call is at, once its `redirect_uri` has been checked. -/
def SubmitPhase.checked {T : Type} : SubmitPhase T → Option (Submission T)
  | .purging sub => some sub
  | .issued sub _ _ => some sub
  | _ => none

/-- What an `authorizeSubmit` call has returned. -/
def SubmitPhase.response {T : Type} (cfg : Config T) : SubmitPhase T → Option (SubmitResponse T)
  | .refused response => some response
  | .issued sub code _ =>
      some (.found sub.request.redirectUri code (cfg.ofJava cfg.issuer) sub.request.state)
  | _ => none

/-- Every submission past the check was allowed, and a refused one has no `Location`. -/
structure Checked (cfg : Config JString) (s : Exchange JString) : Prop where
  allowed : ∀ i sub, (s.submits i).checked = some sub → cfg.isAllowed sub.request.redirectUri = true
  refused : ∀ i r, s.submits i = .refused r → r.location = none

theorem checked_beginSubmit (cfg : Config JString) (identity : Option Identity) (rawKey : JString)
    (moment : Nat) (request : SubmitRequest JString) :
    (∀ sub, (beginSubmit cfg identity rawKey moment request).checked = some sub →
      cfg.isAllowed sub.request.redirectUri = true) ∧
    ∀ r, beginSubmit cfg identity rawKey moment request = .refused r → r.location = none := by
  unfold beginSubmit
  split_ifs with hallowed
  · refine ⟨nofun, ?_⟩
    rintro r ⟨⟩
    rfl
  · cases identity with
    | none =>
        refine ⟨nofun, ?_⟩
        rintro r ⟨⟩
        rfl
    | some key =>
        refine ⟨?_, nofun⟩
        rintro sub ⟨⟩
        simpa using hallowed

variable {cfg : Config JString}

/-- A step that changes one submission. -/
theorem Checked.setSubmit (h : Checked cfg s) {i : Nat} {phase : SubmitPhase JString}
    (hallowed : ∀ sub, phase.checked = some sub → cfg.isAllowed sub.request.redirectUri = true)
    (hrefused : ∀ r, phase = .refused r → r.location = none) : Checked cfg (s.setSubmit i phase) := by
  constructor
  · intro k sub hk
    replace hk : (if k = i then phase else s.submits k).checked = some sub := hk
    split_ifs at hk
    · exact hallowed sub hk
    · exact h.allowed k sub hk
  · intro k r hk
    replace hk : (if k = i then phase else s.submits k) = .refused r := hk
    split_ifs at hk
    · exact hrefused r hk
    · exact h.refused k r hk

theorem checked_step {a : ExchangeAction JString} (h : Checked cfg s)
    (hstep : (exchange cfg authenticate).step s a = some s') : Checked cfg s' := by
  rcases exchange_cases hstep with ⟨i, rawKey, moment, request, -, rfl⟩ | ⟨code, now, rfl⟩ |
    ⟨i, sub, code, now, hi, -, rfl⟩ | ⟨j, -, rfl⟩ | ⟨j, request, -, rfl⟩ |
    ⟨j, request, entry, now, jwtNow, jti, -, rfl⟩
  · obtain ⟨hallowed, hrefused⟩ :=
      checked_beginSubmit cfg (authenticate moment rawKey) rawKey moment request
    exact h.setSubmit hallowed hrefused
  · exact ⟨h.allowed, h.refused⟩
  · have hset : Checked cfg (s.setSubmit i (.issued sub code now)) := by
      apply h.setSubmit
      · rintro sub' ⟨⟩
        apply h.allowed i
        rw [hi]
        rfl
      · exact nofun
    exact ⟨hset.allowed, hset.refused⟩
  · exact ⟨h.allowed, h.refused⟩
  · exact ⟨h.allowed, h.refused⟩
  · exact ⟨h.allowed, h.refused⟩

/-- **Codes stay with trusted hosts.** In every run of submissions and exchanges, every `Location`
sent names a trusted address by its text, and what is exchanged for an access token names the
address its code was sent to. -/
theorem codes_stay (hs : (exchange (javaConfig sha256 hmacSha256 issuer (isAllowed allowedHosts))
      authenticate).Reachable s) :
    let cfg := javaConfig sha256 hmacSha256 issuer (isAllowed allowedHosts)
    (∀ i r l, (s.submits i).response cfg = some r → r.location = some l → Trusted allowedHosts l) ∧
    ∀ j request entry now jwtNow jti jwt, s.tokens j = .answered request entry now jwtNow jti →
      (s.tokens j).response cfg = some (.accessToken jwt) →
      ∃ i l, ((s.submits i).response cfg).bind SubmitResponse.location = some l ∧
        Trusted allowedHosts l ∧ ∃ state, l = location request.redirectUri request.code issuer state := by
  intro cfg
  have hchecked : Checked cfg s := by
    refine hs.invariant ?_ fun _ _ _ h hstep => checked_step h hstep
    rintro _ rfl
    exact ⟨nofun, nofun⟩
  have hissued : ∀ i sub code issuedAt, s.submits i = .issued sub code issuedAt →
      Trusted allowedHosts (location sub.request.redirectUri code issuer sub.request.state) := by
    intro i sub code issuedAt hi
    apply location_trusted
    apply isAllowed_trusted
    apply hchecked.allowed i
    rw [hi]
    rfl
  constructor
  · -- only a submission that drew a code is answered with a `Location`
    intro i r l hr hl
    cases hi : s.submits i with
    | idle =>
        rw [hi] at hr
        cases hr
    | purging sub =>
        rw [hi] at hr
        cases hr
    | refused response =>
        rw [hi] at hr
        cases hr
        rw [hchecked.refused i _ hi] at hl
        cases hl
    | issued sub code issuedAt =>
        rw [hi] at hr
        cases hr
        cases hl
        exact hissued i sub code issuedAt hi
  · intro j request entry now jwtNow jti jwt hj hresponse
    obtain ⟨i, sub, issuedAt, hi, -, -, huri, -⟩ :=
      (accounted_of_reachable hs).earned hj hresponse
    refine ⟨i, _, ?_, hissued i sub _ issuedAt hi, sub.request.state, by rw [huri]⟩
    rw [hi]
    rfl

end Runs

/-- The code of a local client is sent to it. -/
theorem plainSubmit_stays : Trusted [] (location plainSubmit.redirectUri
    (codeText sampleConfig Uuid.nil) sampleIssuer plainSubmit.state) := by
  have hallowed : sampleConfig.isAllowed plainSubmit.redirectUri = true := by decide +kernel
  let sub : Submission JString := ⟨[], 0, ⟨"hash", .readOnly⟩, plainSubmit⟩
  have hbegin : (exchange sampleConfig fun _ _ => some ⟨"hash", .readOnly⟩).step Exchange.initial
      (.submit 0 [] 0 plainSubmit) = some (Exchange.initial.setSubmit 0 (.purging sub)) := by
    show some (Exchange.initial.setSubmit 0 (if !sampleConfig.isAllowed plainSubmit.redirectUri
      then _ else _)) = _
    rw [hallowed]
    rfl
  have hs : (exchange sampleConfig fun _ _ => some ⟨"hash", .readOnly⟩).Reachable _ :=
    ⟨_, _, rfl, .cons trivial hbegin (.cons trivial (a := .issue 0 Uuid.nil 0) rfl (.nil _))⟩
  exact (codes_stay hs).1 0 _ _ rfl rfl

end McpGateway.OAuth
