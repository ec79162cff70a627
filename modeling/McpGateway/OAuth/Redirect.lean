import McpGateway.OAuth.Controller
import McpGateway.OAuth.FormEncoding

/-! # The authorization redirect

`OAuthRedirectValidator`, and the `Location` that `authorizeSubmit` puts together from a
`redirect_uri` it allows.

* `authorizeSubmit_wellFormed_iff` — for which submissions the `Location` is well formed. -/

namespace McpGateway.OAuth

open Foundation Gateway Uri

/-! ## `OAuthRedirectValidator` -/

def dangerousSchemes : List JString :=
  ["javascript", "data", "file", "vbscript", "blob", "about", "jar"].map jstr

def loopbackHosts : List JString := ["localhost", "127.0.0.1", "::1", "[::1]"].map jstr

/-- `toLowerCase`, on the ASCII text that schemes and hosts are. -/
def toLowerCase (s : JString) : JString :=
  s.map fun u => if inRange 0x41 0x5A u then u + 0x20 else u

/-- `[a-z][a-z0-9+.-]{0,30}` -/
def matchesScheme : JString → Bool
  | [] => false
  | c :: rest => inRange 0x61 0x7A c && rest.length ≤ 30 &&
      rest.all fun u => inRange 0x61 0x7A u || isDecimal u || isAnyOf "+.-" u

def isAllowedHttpHost (allowedHosts : List JString) (uri : Uri) : Bool :=
  match uri.authority with
  | none => false
  | some authority =>
      match authority.host with
      | none => false
      | some host =>
          !host.isEmpty && authority.userInfo.isNone &&
            (loopbackHosts.contains (toLowerCase host) || allowedHosts.contains (toLowerCase host))

/-- The checks of `isAllowed` on a URI that was parsed. -/
def isAllowedUri (allowedHosts : List JString) (uri : Uri) : Bool :=
  match uri.scheme with
  | none => false
  | some scheme =>
      if isBlank scheme || dangerousSchemes.contains (toLowerCase scheme)
          || !matchesScheme (toLowerCase scheme) then false
      else if toLowerCase scheme = jstr "http" ∨ toLowerCase scheme = jstr "https" then
        isAllowedHttpHost allowedHosts uri
      else
        -- escapes inside brackets stay, but a bracket is not blank anyway
        uri.authority.any (fun authority => !isBlank (decodeEscapes authority.text)) ||
          uri.path.any fun path => !isBlank (decodeEscapes path)

/-- `isAllowed`, for the hosts of `mcp.oauth.allowed-redirect-hosts`. -/
def isAllowed (allowedHosts : List JString) (redirectUri : JString) : Bool :=
  if isBlank redirectUri || redirectUri.any (fun u => u < 0x20 || u == 0x7F) then false
  else (parse redirectUri).any (isAllowedUri allowedHosts)

example : isAllowed [] (jstr "http://localhost:6274/cb?app=1") = true ∧
    isAllowed [] (jstr "https://example.org/cb") = false ∧
    isAllowed [] (jstr "mistral-le-chat://callback") = true := by
  decide +kernel

theorem isAllowedUri_parts {allowedHosts : List JString} {u : Uri}
    (h : isAllowedUri allowedHosts u = true) :
    u.scheme ≠ none ∧ (u.authority ≠ none ∨ u.path ≠ none) := by
  unfold isAllowedUri at h
  cases hscheme : u.scheme with
  | none =>
      rw [hscheme] at h
      cases h
  | some scheme =>
      refine ⟨Option.some_ne_none scheme, ?_⟩
      rw [hscheme] at h
      dsimp only at h
      split_ifs at h
      · left
        intro hnone
        rw [isAllowedHttpHost, hnone] at h
        cases h
      · rcases Bool.or_eq_true_iff.mp h with hauthority | hpath
        · left
          rintro hnone
          rw [hnone] at hauthority
          cases hauthority
        · right
          rintro hnone
          rw [hnone] at hpath
          cases hpath

/-- What is allowed is a URI with a scheme and a path, not an opaque one. -/
theorem isAllowed_spec {allowedHosts : List JString} {redirectUri : JString}
    (h : isAllowed allowedHosts redirectUri = true) : ∃ u scheme path,
      parse redirectUri = some u ∧ u.scheme = some scheme ∧ u.path = some path := by
  unfold isAllowed at h
  split_ifs at h
  obtain ⟨u, hparse, hu⟩ := (Option.any_eq_true _ _).mp h
  obtain ⟨hscheme, hpart⟩ := isAllowedUri_parts hu
  have hpath : u.path ≠ none := by
    rcases hpart with hauthority | hpath
    · exact mt (authority_of_parse hparse) hauthority
    · exact hpath
  obtain ⟨scheme, hscheme⟩ := Option.ne_none_iff_exists'.mp hscheme
  obtain ⟨path, hpath⟩ := Option.ne_none_iff_exists'.mp hpath
  exact ⟨u, scheme, path, hparse, hscheme, hpath⟩

/-! ## The `Location` -/

/-- What `authorizeSubmit` gives to `URI.create`. -/
def location (redirectUri code issuer state : JString) : JString :=
  redirectUri ++ jstr "?code=" ++ urlEncode code ++ jstr "&iss=" ++ urlEncode issuer ++
    (if isBlank state then [] else jstr "&state=" ++ urlEncode state)

def SubmitResponse.location : SubmitResponse JString → Option JString
  | .found redirectUri code issuer state => some (OAuth.location redirectUri code issuer state)
  | _ => none

def responseParams (code issuer state : JString) : List (JString × JString) :=
  (jstr "code", code) :: (jstr "iss", issuer) ::
    (if isBlank state then [] else [(jstr "state", state)])

/-- The redirect is the `redirect_uri` with some parameters behind its own, and without a fragment
that the `redirect_uri` does not have. -/
def WellFormedRedirect (redirectUri location : JString) (params : List (JString × JString)) :
    Prop :=
  ∃ u u', parse redirectUri = some u ∧ parse location = some u' ∧
    u'.scheme = u.scheme ∧ u'.authority = u.authority ∧ u'.path = u.path ∧
    (∀ fragment, u'.fragment = some fragment → u.fragment = some fragment) ∧
    formParams u'.query = formParams u.query ++ params

/-! ## The query that is put behind -/

/-- The pieces behind the code. -/
def laterPieces (issuer state : JString) : List JString :=
  (jstr "iss=" ++ urlEncode issuer) ::
    (if isBlank state then [] else [jstr "state=" ++ urlEncode state])

def responseQuery (code issuer state : JString) : JString :=
  (jstr "code=" ++ urlEncode code) ++ (jstr "&iss=" ++ urlEncode issuer ++
    (if isBlank state then [] else jstr "&state=" ++ urlEncode state))

theorem location_eq (redirectUri code issuer state : JString) :
    location redirectUri code issuer state
      = redirectUri ++ charUnit '?' :: responseQuery code issuer state := by
  have hmark : jstr "?code=" = charUnit '?' :: jstr "code=" := by decide
  unfold location responseQuery
  rw [hmark]
  simp only [List.append_assoc, List.cons_append]

theorem responseQuery_legal (code issuer state : JString) :
    legal isUric (responseQuery code issuer state) = true := by
  have hliteral : ∀ name ∈ ["code=", "&iss=", "&state="], legal isUric (jstr name) = true := by
    decide +kernel
  have hcode := legal_append (hliteral "code=" (by decide)) (urlEncode_legal code)
  have hissuer := legal_append (hliteral "&iss=" (by decide)) (urlEncode_legal issuer)
  refine legal_append hcode (legal_append hissuer ?_)
  split_ifs
  · rfl
  · exact legal_append (hliteral "&state=" (by decide)) (urlEncode_legal state)

theorem not_mem_urlEncode (s : JString) :
    charUnit '#' ∉ urlEncode s ∧ charUnit '&' ∉ urlEncode s := by
  constructor
  · intro hmem
    exact absurd (urlEncode_unmarked s _ hmem) (by decide)
  · intro hmem
    exact absurd (urlEncode_unmarked s _ hmem) (by decide)

theorem responseQuery_unmarked (code issuer state : JString) :
    charUnit '#' ∉ responseQuery code issuer state := by
  have hliteral : ∀ name ∈ ["code=", "&iss=", "&state="], charUnit '#' ∉ jstr name := by
    decide
  unfold responseQuery
  simp only [List.mem_append, not_or]
  refine ⟨⟨hliteral _ (by decide), (not_mem_urlEncode code).1⟩,
    ⟨hliteral _ (by decide), (not_mem_urlEncode issuer).1⟩, ?_⟩
  split_ifs
  · exact List.not_mem_nil
  · rw [List.mem_append, not_or]
    exact ⟨hliteral _ (by decide), (not_mem_urlEncode state).1⟩

/-- The pieces of the query: the first of them continues what the text before ended with. -/
theorem splitOn_responseQuery {q last : JString} {parts : List JString}
    (hmore : ∀ t, charUnit '&' ∉ t → (q ++ t).splitOn (charUnit '&') = parts ++ [last ++ t])
    {mark : JString} (hmark : charUnit '&' ∉ mark) (code issuer state : JString) :
    (q ++ (mark ++ responseQuery code issuer state)).splitOn (charUnit '&')
      = parts ++ (last ++ (mark ++ (jstr "code=" ++ urlEncode code))) ::
          laterPieces issuer state := by
  have hamp : ∀ name : String, charUnit '&' ∉ jstr name → ∀ s,
      charUnit '&' ∉ jstr name ++ urlEncode s := by
    intro name hname s
    rw [List.mem_append, not_or]
    exact ⟨hname, (not_mem_urlEncode s).2⟩
  have hcode := hamp "code=" (by decide) code
  have hissuer := hamp "iss=" (by decide) issuer
  have hstate := hamp "state=" (by decide) state
  have hfirst : charUnit '&' ∉ mark ++ (jstr "code=" ++ urlEncode code) := by
    rw [List.mem_append, not_or]
    exact ⟨hmark, hcode⟩
  have hlater : (jstr "iss=" ++ urlEncode issuer ++
      (if isBlank state then [] else jstr "&state=" ++ urlEncode state)).splitOn (charUnit '&')
        = laterPieces issuer state := by
    unfold laterPieces
    split_ifs with hblank
    · rw [List.append_nil, List.splitOn_eq_singleton hissuer]
    · have hstate' : jstr "&state=" = charUnit '&' :: jstr "state=" := by decide
      rw [hstate', List.cons_append, List.splitOn_append_cons_self_of_not_mem hissuer,
        List.splitOn_eq_singleton hstate]
  have hiss : jstr "&iss=" = charUnit '&' :: jstr "iss=" := by decide
  have hsplit : q ++ (mark ++ responseQuery code issuer state)
      = (q ++ (mark ++ (jstr "code=" ++ urlEncode code))) ++ charUnit '&' ::
        (jstr "iss=" ++ urlEncode issuer ++
          (if isBlank state then [] else jstr "&state=" ++ urlEncode state)) := by
    unfold responseQuery
    rw [hiss]
    simp only [List.append_assoc, List.cons_append]
  rw [hsplit, List.splitOn_append_cons_self, hmore _ hfirst, hlater, List.append_assoc,
    List.singleton_append]

/-- The parameters behind the code, as they are read. -/
def laterParams (issuer state : JString) : List (JString × JString) :=
  (jstr "iss", asText issuer) :: (if isBlank state then [] else [(jstr "state", asText state)])

theorem pieceParams_laterPieces (issuer state : JString) :
    pieceParams (laterPieces issuer state) = laterParams issuer state := by
  have hissuer : jstr "iss=" ++ urlEncode issuer
      = jstr "iss" ++ charUnit '=' :: urlEncode issuer := rfl
  have hstate : jstr "state=" ++ urlEncode state
      = jstr "state" ++ charUnit '=' :: urlEncode state := rfl
  have hne : ∀ name value : JString, name ++ charUnit '=' :: value ≠ [] :=
    fun name value => List.append_ne_nil_of_right_ne_nil name (List.cons_ne_nil _ value)
  have hdecode : ∀ name ∈ ["iss", "state"],
      charUnit '=' ∉ jstr name ∧ formDecode (jstr name) = jstr name := by
    decide +kernel
  obtain ⟨hname, hiss⟩ := hdecode "iss" (by decide)
  obtain ⟨hname', hstate'⟩ := hdecode "state" (by decide)
  unfold laterPieces laterParams
  rw [hissuer, hstate, pieceParams_cons (hne _ _), formParam_encoded hname, hiss]
  split_ifs with hblank
  · rfl
  · rw [pieceParams_cons (hne _ _), formParam_encoded hname', hstate']
    rfl

/-- The parameters of a query with the response put behind it. -/
theorem formParams_responseQuery {q last : JString} {parts : List JString}
    (hmore : ∀ t, charUnit '&' ∉ t → (q ++ t).splitOn (charUnit '&') = parts ++ [last ++ t])
    {mark : JString} (hmark : charUnit '&' ∉ mark) (code issuer state : JString) :
    formParams (some (q ++ (mark ++ responseQuery code issuer state)))
      = pieceParams parts ++ formParam (last ++ (mark ++ (jstr "code=" ++ urlEncode code))) ::
          laterParams issuer state := by
  have hne : last ++ (mark ++ (jstr "code=" ++ urlEncode code)) ≠ [] := by
    intro hnil
    obtain ⟨-, hnil⟩ := List.append_eq_nil_iff.mp hnil
    obtain ⟨-, hnil⟩ := List.append_eq_nil_iff.mp hnil
    exact absurd (List.append_eq_nil_iff.mp hnil).1 (by decide)
  show pieceParams (List.splitOn _ (q ++ _)) = _
  rw [splitOn_responseQuery hmore hmark, pieceParams_append, pieceParams_cons hne,
    pieceParams_laterPieces]

/-- Behind a query there is no room for another: the code would be part of what the query ends with,
or its parameter would be called `?code`. -/
theorem formParams_queried (q code issuer state : JString) :
    formParams (some (q ++ charUnit '?' :: responseQuery code issuer state))
      ≠ formParams (some q) ++ responseParams code issuer state := by
  intro heq
  obtain ⟨parts, last, hq, hmore⟩ := splitOn_last (charUnit '&') q
  have hleft := @formParams_responseQuery q last parts hmore [charUnit '?'] (by decide) code issuer
    state
  have hright : formParams (some q) = pieceParams parts ++ pieceParams [last] := by
    show pieceParams (List.splitOn _ q) = _
    rw [hq, pieceParams_append]
  rw [List.singleton_append] at hleft
  rw [hleft, hright, List.append_assoc] at heq
  have htail := List.append_cancel_left heq
  cases last with
  | nil =>
      have hcode : [] ++ ([charUnit '?'] ++ (jstr "code=" ++ urlEncode code))
          = jstr "?code" ++ charUnit '=' :: urlEncode code := rfl
      rw [hcode, formParam_encoded (by decide)] at htail
      obtain ⟨hparam, -⟩ := List.cons.inj htail
      have hname : formDecode (jstr "?code") ≠ jstr "code" := by decide +kernel
      exact hname (congrArg Prod.fst hparam)
  | cons u last =>
      -- there is one parameter too few
      have hlength := congrArg List.length htail
      unfold laterParams responseParams at hlength
      split_ifs at hlength
      · cases hlength
      · cases hlength

theorem formParams_response (code issuer state : JString) :
    formParams (some (responseQuery code issuer state))
      = (jstr "code", asText code) :: laterParams issuer state := by
  have hparams := @formParams_responseQuery [] [] [] (fun t ht => List.splitOn_eq_singleton ht) []
    List.not_mem_nil code issuer state
  have hcode : [] ++ ([] ++ (jstr "code=" ++ urlEncode code))
      = jstr "code" ++ charUnit '=' :: urlEncode code := rfl
  have hname : formDecode (jstr "code") = jstr "code" := by decide +kernel
  rw [hcode, formParam_encoded (by decide), hname] at hparams
  exact hparams

theorem responseParams_iff {code issuer state : JString} :
    (jstr "code", asText code) :: laterParams issuer state = responseParams code issuer state ↔
      IsText code ∧ IsText issuer ∧ (isBlank state = true ∨ IsText state) := by
  unfold laterParams responseParams
  split_ifs with hblank
  · simp [hblank, asText_eq_self]
  · simp [hblank, asText_eq_self]

/-! ## When the redirect is well formed -/

section Marks

variable {redirectUri scheme path : JString} {u : Uri} (hparse : parse redirectUri = some u)
  (hscheme : u.scheme = some scheme) (hpath : u.path = some path)
include hparse hscheme hpath

/-- Without a query and a fragment of its own, all that can go wrong is an unpaired surrogate. -/
theorem wellFormed_of_unmarked (hquestion : charUnit '?' ∉ redirectUri)
    (hhash : charUnit '#' ∉ redirectUri) (code issuer state : JString) :
    WellFormedRedirect redirectUri (location redirectUri code issuer state)
        (responseParams code issuer state) ↔
      IsText code ∧ IsText issuer ∧ (isBlank state = true ∨ IsText state) := by
  have hall : ∀ c ∈ redirectUri, inPart "?#" c = true := by
    intro c hc
    simp only [inPart, isAnyOf, Bool.not_eq_true', List.any_eq_false, beq_iff_eq]
    rintro d hd rfl
    have hmark : d = '?' ∨ d = '#' := by
      simpa using hd
    rcases hmark with rfl | rfl
    · exact hquestion hc
    · exact hhash hc
  have hlocation : parse (location redirectUri code issuer state)
      = some { u with query := some (responseQuery code issuer state) } := by
    rw [location_eq]
    exact parse_query hparse hscheme hpath hall (responseQuery_unmarked code issuer state)
      (responseQuery_legal code issuer state)
  -- the response is all the query there is
  have hquery : u.query = none := by
    obtain ⟨front, hparts, -⟩ := parse_queried hparse hscheme hpath hhash
    cases hq : u.query with
    | none => rfl
    | some q =>
        rw [hparts, hq] at hquestion
        simp [marked] at hquestion
  unfold WellFormedRedirect
  rw [← responseParams_iff, ← formParams_response]
  constructor
  · rintro ⟨v, v', hv, hv', -, -, -, -, hparams⟩
    obtain rfl := Option.some.inj (hparse.symm.trans hv)
    obtain rfl := Option.some.inj (hlocation.symm.trans hv')
    rw [hquery] at hparams
    exact hparams
  · intro hparams
    refine ⟨u, _, hparse, hlocation, rfl, rfl, rfl, fun _ h => h, ?_⟩
    rw [hquery]
    exact hparams

/-- Behind a fragment the response becomes part of the fragment. -/
theorem not_wellFormed_of_fragment (hhash : charUnit '#' ∈ redirectUri)
    (code issuer state : JString) (params : List (JString × JString)) :
    ¬WellFormedRedirect redirectUri (location redirectUri code issuer state) params := by
  rintro ⟨v, v', hv, hv', hscheme', -, hpath', hbeyond, -⟩
  obtain rfl := Option.some.inj (hparse.symm.trans hv)
  obtain ⟨front, huri, hfront⟩ := parse_fragment hparse hscheme hpath
  obtain ⟨front', hlocation, hfront'⟩ :=
    parse_fragment hv' (hscheme'.trans hscheme) (hpath'.trans hpath)
  rw [location_eq] at hlocation
  obtain ⟨fragment, hfragment, hfragment'⟩ := marked_append huri hfront hlocation hfront' hhash
  have hsame := Option.some.inj (hfragment.symm.trans (hbeyond _ hfragment'))
  have hlength := congrArg List.length hsame
  rw [List.length_append, List.length_cons] at hlength
  omega

/-- Behind a query the response becomes part of the query. -/
theorem not_wellFormed_of_query (hhash : charUnit '#' ∉ redirectUri)
    (hquestion : charUnit '?' ∈ redirectUri) (code issuer state : JString) :
    ¬WellFormedRedirect redirectUri (location redirectUri code issuer state)
      (responseParams code issuer state) := by
  rintro ⟨v, v', hv, hv', hscheme', -, hpath', -, hparams⟩
  obtain rfl := Option.some.inj (hparse.symm.trans hv)
  have hhash' : charUnit '#' ∉ location redirectUri code issuer state := by
    rw [location_eq, List.mem_append, List.mem_cons]
    rintro (hmem | hmem | hmem)
    · exact hhash hmem
    · exact absurd hmem (by decide)
    · exact responseQuery_unmarked code issuer state hmem
  obtain ⟨front, huri, hfront⟩ := parse_queried hparse hscheme hpath hhash
  obtain ⟨front', hlocation, hfront'⟩ :=
    parse_queried hv' (hscheme'.trans hscheme) (hpath'.trans hpath) hhash'
  rw [location_eq] at hlocation
  obtain ⟨q, hq, hq'⟩ := marked_append huri hfront hlocation hfront' hquestion
  rw [hq, hq'] at hparams
  exact formParams_queried q code issuer state hparams

/-- A redirect is well formed if nothing of a query or a fragment is there before. -/
theorem location_wellFormed_iff (code issuer state : JString) :
    WellFormedRedirect redirectUri (location redirectUri code issuer state)
        (responseParams code issuer state) ↔
      (charUnit '?' ∉ redirectUri ∧ charUnit '#' ∉ redirectUri) ∧
        IsText code ∧ IsText issuer ∧ (isBlank state = true ∨ IsText state) := by
  by_cases hhash : charUnit '#' ∈ redirectUri
  · have hno := not_wellFormed_of_fragment hparse hscheme hpath hhash code issuer state
      (responseParams code issuer state)
    exact iff_of_false hno fun h => h.1.2 hhash
  by_cases hquestion : charUnit '?' ∈ redirectUri
  · have hno := not_wellFormed_of_query hparse hscheme hpath hhash hquestion code issuer state
    exact iff_of_false hno fun h => h.1.1 hquestion
  rw [wellFormed_of_unmarked hparse hscheme hpath hquestion hhash]
  exact (and_iff_right ⟨hquestion, hhash⟩).symm

end Marks

section Submit

variable (sha256 hmacSha256 : Bytes → Bytes) (issuer : JString) (allowedHosts : List JString)

theorem authorizeSubmit_location (key : Identity) (request : SubmitRequest JString) (code : Uuid)
    (now : Nat) (codes : AuthCodeStore JString)
    (hallowed : isAllowed allowedHosts request.redirectUri = true) :
    let cfg := javaConfig sha256 hmacSha256 issuer (isAllowed allowedHosts)
    (authorizeSubmit cfg (some key) request code now codes).1.location
      = some (location request.redirectUri (codeText cfg code) issuer request.state) := by
  intro cfg
  have hsubmit : (authorizeSubmit cfg (some key) request code now codes).1
      = .found request.redirectUri (codeText cfg code) issuer request.state := by
    show (if !isAllowed allowedHosts request.redirectUri then _ else _ : _ × _).1 = _
    rw [hallowed]
    rfl
  exact congrArg SubmitResponse.location hsubmit

/-- **For which submissions the redirect is well formed.** -/
theorem authorizeSubmit_wellFormed_iff (key : Identity) (request : SubmitRequest JString)
    (code : Uuid) (now : Nat) (codes : AuthCodeStore JString)
    (hallowed : isAllowed allowedHosts request.redirectUri = true) :
    let cfg := javaConfig sha256 hmacSha256 issuer (isAllowed allowedHosts)
    ∃ l, (authorizeSubmit cfg (some key) request code now codes).1.location = some l ∧
      (WellFormedRedirect request.redirectUri l
          (responseParams (codeText cfg code) issuer request.state) ↔
        charUnit '?' ∉ request.redirectUri ∧ charUnit '#' ∉ request.redirectUri ∧
          IsText issuer ∧ (isBlank request.state = true ∨ IsText request.state)) := by
  intro cfg
  have hcode : IsText (codeText cfg code) := by
    dsimp only [cfg, codeText, javaConfig, javaStrings]
    exact ⟨_, rfl⟩
  obtain ⟨u, scheme, path, hparse, hscheme, hpath⟩ := isAllowed_spec hallowed
  refine ⟨_, authorizeSubmit_location sha256 hmacSha256 issuer allowedHosts key request code now
    codes hallowed, ?_⟩
  rw [location_wellFormed_iff hparse hscheme hpath, and_assoc, and_iff_right hcode]

end Submit

def sampleIssuer : JString := jstr "https://gateway.example"

/-- A server whose digests are the texts themselves. -/
def sampleConfig : Config JString := javaConfig id id sampleIssuer (isAllowed [])

def plainSubmit : SubmitRequest JString :=
  ⟨jstr "http://localhost/cb", jstr "challenge", jstr "S256", jstr "xyz"⟩

/-- A client whose `redirect_uri` has a parameter. -/
def queriedSubmit : SubmitRequest JString :=
  ⟨jstr "http://localhost/cb?app=1", jstr "challenge", jstr "S256", jstr "xyz"⟩

theorem plainSubmit_wellFormed : ∃ l,
    (authorizeSubmit sampleConfig (some ⟨"hash", .readOnly⟩) plainSubmit Uuid.nil 0
      fun _ => none).1.location = some l ∧
    WellFormedRedirect plainSubmit.redirectUri l
      (responseParams (codeText sampleConfig Uuid.nil) sampleIssuer plainSubmit.state) := by
  obtain ⟨l, hl, hiff⟩ := authorizeSubmit_wellFormed_iff id id sampleIssuer [] ⟨"hash", .readOnly⟩
    plainSubmit Uuid.nil 0 (fun _ => none) (by decide +kernel)
  exact ⟨l, hl, hiff.mpr ⟨by decide, by decide, ⟨_, rfl⟩, Or.inr ⟨_, rfl⟩⟩⟩

/-- The code becomes part of the client's own parameter. -/
theorem queriedSubmit_malformed : isAllowed [] queriedSubmit.redirectUri = true ∧ ∃ l,
    (authorizeSubmit sampleConfig (some ⟨"hash", .readOnly⟩) queriedSubmit Uuid.nil 0
      fun _ => none).1.location = some l ∧
    ¬WellFormedRedirect queriedSubmit.redirectUri l
      (responseParams (codeText sampleConfig Uuid.nil) sampleIssuer queriedSubmit.state) := by
  have hallowed : isAllowed [] queriedSubmit.redirectUri = true := by decide +kernel
  obtain ⟨u, scheme, path, hparse, hscheme, hpath⟩ := isAllowed_spec hallowed
  refine ⟨hallowed, _, authorizeSubmit_location id id sampleIssuer [] ⟨"hash", .readOnly⟩
    queriedSubmit Uuid.nil 0 (fun _ => none) hallowed, ?_⟩
  exact not_wellFormed_of_query hparse hscheme hpath (by decide) (by decide) _ _ _

end McpGateway.OAuth
