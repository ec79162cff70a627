import McpGateway.Foundation.Separator
import McpGateway.Gateway.JavaText
import McpGateway.OAuth.Controller

/-! # The page of `GET /oauth/authorize`

`escapeHtml` is five replacements, one on the output of the other. The first one must be that of the
ampersand: then each of the others only sees ampersands that begin an entity, and all five together
are one pass over the characters.

* `escapeHtml_eq` — the five replacements as one pass.
* `unescapeHtml_escapeHtml` — reading the entities gives the string back.
* `holes_inert` — a reader of the page stays, through every parameter, where it was before it.
* `html_escaping` — all of it, with the page as a whole. -/

namespace McpGateway.OAuth

open Foundation Gateway

/-! ## Escaping -/

/-- `input.replace(target, replacement)` for a target of one unit. -/
def replaceUnit (target : UInt16) (replacement : JString) (input : JString) : JString :=
  input.flatMap fun u => if u = target then replacement else [u]

/-- `escapeHtml` -/
def escapeHtml : Option JString → JString
  | none => []
  | some input =>
      replaceUnit (charUnit '\x27') (jstr "&#39;")
        (replaceUnit (charUnit '\x22') (jstr "&quot;")
          (replaceUnit (charUnit '>') (jstr "&gt;")
            (replaceUnit (charUnit '<') (jstr "&lt;")
              (replaceUnit (charUnit '&') (jstr "&amp;") input))))

/-- The characters with an entity. -/
def entities : List (UInt16 × JString) := [
  (charUnit '&', jstr "&amp;"),
  (charUnit '<', jstr "&lt;"),
  (charUnit '>', jstr "&gt;"),
  (charUnit '\x22', jstr "&quot;"),
  (charUnit '\x27', jstr "&#39;")]

/-- What one pass writes for a unit. -/
def escapeUnit (u : UInt16) : JString :=
  ((entities.find? fun e => e.1 = u).map Prod.snd).getD [u]

/-- Entities back to characters, from left to right; the next `skip` units are those of an entity
already read. -/
def unescapeFrom : Nat → JString → JString
  | _, [] => []
  | skip + 1, _ :: us => unescapeFrom skip us
  | 0, u :: us =>
      match entities.find? fun e => e.2.isPrefixOf (u :: us) with
      | some e => e.1 :: unescapeFrom (e.2.length - 1) us
      | none => u :: unescapeFrom 0 us

def unescapeHtml (s : JString) : JString := unescapeFrom 0 s

section Escape

variable {u : UInt16}

/-- A unit has an entity, or is none of the five. -/
theorem entity_cases (u : UInt16) :
    (∃ e ∈ entities, e.1 = u ∧ escapeUnit u = e.2) ∨
      (∀ e ∈ entities, e.1 ≠ u) ∧ escapeUnit u = [u] := by
  unfold escapeUnit
  cases hfind : entities.find? fun e => e.1 = u with
  | none =>
      right
      refine ⟨?_, rfl⟩
      intro e he
      simpa using List.find?_eq_none.mp hfind e he
  | some e =>
      left
      exact ⟨e, List.mem_of_find?_eq_some hfind, by simpa using List.find?_some hfind, rfl⟩

/-- **The five replacements are one pass.** -/
theorem escapeHtml_eq (x : JString) : escapeHtml (some x) = x.flatMap escapeUnit := by
  unfold escapeHtml replaceUnit
  dsimp only
  simp only [List.flatMap_assoc]
  congr 1
  funext u
  rcases entity_cases u with ⟨e, he, rfl, hescape⟩ | ⟨hne, hescape⟩
  · rw [hescape]
    revert e
    decide +kernel
  · -- no replacement touches another unit
    have hunit : ∀ (e : UInt16 × JString), e ∈ entities → ¬ u = e.1 := by
      intro e he h
      exact hne e he h.symm
    rw [hescape, if_neg (hunit (charUnit '&', jstr "&amp;") (by decide)), List.flatMap_singleton,
      if_neg (hunit (charUnit '<', jstr "&lt;") (by decide)), List.flatMap_singleton,
      if_neg (hunit (charUnit '>', jstr "&gt;") (by decide)), List.flatMap_singleton,
      if_neg (hunit (charUnit '\x22', jstr "&quot;") (by decide)), List.flatMap_singleton,
      if_neg (hunit (charUnit '\x27', jstr "&#39;") (by decide))]

/-- An entity is an ampersand and units of which none has an entity. -/
theorem entity_text {e : UInt16 × JString} (he : e ∈ entities) :
    ∃ t, e.2 = charUnit '&' :: t ∧ ∀ u ∈ t, ∀ e' ∈ entities, e'.1 ≠ u := by
  have hall : ∀ e ∈ entities, e.2 = charUnit '&' :: e.2.tail ∧
      ∀ e' ∈ entities, e'.1 ∉ e.2.tail := by
    decide +kernel
  obtain ⟨htext, hplain⟩ := hall e he
  refine ⟨e.2.tail, htext, ?_⟩
  rintro u hu e' he' rfl
  exact hplain e' he' hu

theorem amp_mem_entities : ∃ e ∈ entities, e.1 = charUnit '&' :=
  ⟨(charUnit '&', jstr "&amp;"), List.mem_cons_self, rfl⟩

/-- **What is not written.** Of the five characters only the ampersand is left. -/
theorem not_mem_escapeHtml (x : JString) :
    ∀ e ∈ entities, e.1 ≠ charUnit '&' → e.1 ∉ escapeHtml (some x) := by
  intro e he hamp hmem
  rw [escapeHtml_eq] at hmem
  obtain ⟨u, -, hu⟩ := List.mem_flatMap.mp hmem
  rcases entity_cases u with ⟨e', he', -, hescape⟩ | ⟨hne, hescape⟩
  · obtain ⟨t, ht, hplain⟩ := entity_text he'
    rw [hescape, ht] at hu
    rcases List.mem_cons.mp hu with hu | hu
    · exact hamp hu
    · exact hplain _ hu e he rfl
  · rw [hescape, List.mem_singleton] at hu
    exact hne e he hu

/-- A unit of a string written unit by unit is in what was written for one of them. -/
theorem flatMap_split {α β : Type} {f : α → List β} {xs : List α} {before after : List β} {b : β}
    (h : xs.flatMap f = before ++ b :: after) :
    ∃ x ∈ xs, ∃ u v rest, f x = u ++ b :: v ∧ after = v ++ rest := by
  induction xs generalizing before with
  | nil => simp at h
  | cons x xs ih =>
      rw [List.flatMap_cons] at h
      rcases List.append_eq_append_iff.mp h with ⟨u, rfl, hrest⟩ | ⟨u, hx, hu⟩
      · obtain ⟨y, hy, hsplit⟩ := ih hrest
        exact ⟨y, List.mem_cons_of_mem _ hy, hsplit⟩
      · cases u with
        | nil =>
            have hbehind : xs.flatMap f = [] ++ b :: after := hu.symm
            obtain ⟨y, hy, hsplit⟩ := ih hbehind
            exact ⟨y, List.mem_cons_of_mem _ hy, hsplit⟩
        | cons c u =>
            cases hu
            exact ⟨x, List.mem_cons_self, before, u, xs.flatMap f, hx, rfl⟩

/-- **Every ampersand begins an entity.** -/
theorem ampersand_escapeHtml {x before after : JString}
    (h : escapeHtml (some x) = before ++ charUnit '&' :: after) :
    ∃ e ∈ entities, e.2 <+: charUnit '&' :: after := by
  rw [escapeHtml_eq] at h
  obtain ⟨u, -, pre, post, rest, hsplit, rfl⟩ := flatMap_split h
  rcases entity_cases u with ⟨e, he, -, hescape⟩ | ⟨hne, hescape⟩
  · obtain ⟨t, ht, hplain⟩ := entity_text he
    rw [hescape, ht] at hsplit
    obtain ⟨amp, hamp, hamp'⟩ := amp_mem_entities
    cases pre with
    | nil =>
        cases hsplit
        exact ⟨e, he, rest, by rw [ht]; rfl⟩
    | cons c pre =>
        -- the ampersand would be inside the entity
        cases hsplit
        exact absurd hamp' (hplain _ (by simp) amp hamp)
  · rw [hescape] at hsplit
    obtain ⟨amp, hamp, hamp'⟩ := amp_mem_entities
    have hmem : charUnit '&' ∈ [u] := by
      rw [hsplit]
      simp
    rw [List.mem_singleton] at hmem
    exact absurd (hamp'.trans hmem) (hne amp hamp)

/-- An entity is read as its character. -/
theorem unescapeFrom_entity {e : UInt16 × JString} (he : e ∈ entities) (rest : JString) :
    unescapeFrom 0 (e.2 ++ rest) = e.1 :: unescapeFrom 0 rest := by
  have htexts : entities =
      [(38, [38, 97, 109, 112, 59]), (60, [38, 108, 116, 59]), (62, [38, 103, 116, 59]),
        (34, [38, 113, 117, 111, 116, 59]), (39, [38, 35, 51, 57, 59])] := by
    decide +kernel
  rw [htexts] at he
  simp only [List.mem_cons, List.not_mem_nil, or_false] at he
  rcases he with rfl | rfl | rfl | rfl | rfl
  all_goals simp [unescapeFrom, htexts]

/-- Any other unit is read as itself. -/
theorem unescapeFrom_plain (hu : ∀ e ∈ entities, e.1 ≠ u) (rest : JString) :
    unescapeFrom 0 (u :: rest) = u :: unescapeFrom 0 rest := by
  have hnone : (entities.find? fun e => e.2.isPrefixOf (u :: rest)) = none := by
    rw [List.find?_eq_none]
    intro e he hbegin
    obtain ⟨t, ht, -⟩ := entity_text he
    obtain ⟨amp, hamp, hamp'⟩ := amp_mem_entities
    rw [ht, List.isPrefixOf_iff_prefix, List.cons_prefix_cons] at hbegin
    exact hu amp hamp (hamp'.trans hbegin.1)
  rw [unescapeFrom, hnone]

/-- **Reading the entities** gives the string back. -/
theorem unescapeHtml_escapeHtml (x : JString) : unescapeHtml (escapeHtml (some x)) = x := by
  rw [escapeHtml_eq, unescapeHtml]
  induction x with
  | nil => rfl
  | cons u us ih =>
      rw [List.flatMap_cons]
      rcases entity_cases u with ⟨e, he, rfl, hescape⟩ | ⟨hne, hescape⟩
      · rw [hescape, unescapeFrom_entity he, ih]
      · rw [hescape, List.singleton_append, unescapeFrom_plain hne, ih]

theorem escapeHtml_injective {x y : JString} (h : escapeHtml (some x) = escapeHtml (some y)) :
    x = y := by
  rw [← unescapeHtml_escapeHtml x, h, unescapeHtml_escapeHtml]

/-- The two delimiters of the page are not written, for null neither. -/
theorem delimiter_not_mem (v : Option JString) :
    charUnit '<' ∉ escapeHtml v ∧ charUnit '\x22' ∉ escapeHtml v := by
  cases v with
  | none => exact ⟨List.not_mem_nil, List.not_mem_nil⟩
  | some x =>
      exact ⟨not_mem_escapeHtml x (charUnit '<', jstr "&lt;") (by decide) (by decide),
        not_mem_escapeHtml x (charUnit '\x22', jstr "&quot;") (by decide) (by decide)⟩

end Escape

/-! ## The page -/

/-- The text block up to the line of the first parameter. -/
def formHead : List String := [
  "<!DOCTYPE html>",
  "<html lang=\"en\">",
  "<head>",
  "  <meta charset=\"UTF-8\">",
  "  <meta name=\"viewport\" content=\"width=device-width,initial-scale=1\">",
  "  <title>MCP Data Gateway — Authenticate</title>",
  "  <style>",
  "    *\x7bbox-sizing:border-box;margin:0;padding:0\x7d",
  "    body\x7bfont-family:-apple-system,BlinkMacSystemFont,'Segoe UI',sans-serif;",
  "         background:#f0f2f5;display:flex;align-items:center;",
  "         justify-content:center;min-height:100vh\x7d",
  "    .card\x7bbackground:#fff;border-radius:10px;padding:2rem 2.5rem;",
  "          box-shadow:0 2px 12px rgba(0,0,0,.1);max-width:380px;width:90%\x7d",
  "    h1\x7bfont-size:1.15rem;color:#111;margin-bottom:.4rem\x7d",
  "    p\x7bfont-size:.875rem;color:#555;margin-bottom:1.5rem;line-height:1.5\x7d",
  "    label\x7bdisplay:block;font-size:.8rem;font-weight:600;",
  "          color:#333;margin-bottom:.35rem\x7d",
  "    input[type=password]\x7bwidth:100%;padding:.55rem .75rem;border:1px solid #ccc;",
  "                         border-radius:6px;font-size:.875rem;margin-bottom:1.25rem\x7d",
  "    input[type=password]:focus\x7boutline:none;border-color:#1a56db;",
  "                               box-shadow:0 0 0 3px rgba(26,86,219,.15)\x7d",
  "    button\x7bwidth:100%;padding:.6rem;background:#1a56db;color:#fff;border:none;",
  "           border-radius:6px;font-size:.9rem;cursor:pointer;font-weight:500\x7d",
  "    button:hover\x7bbackground:#1648c4\x7d",
  "  </style>",
  "</head>",
  "<body>",
  "  <div class=\"card\">",
  "    <h1>MCP Data Gateway</h1>"]

def formLine (l : String) : JString := jstr l ++ [charUnit '\n']

/-- Up to the first parameter. -/
def formStart : JString :=
  formHead.flatMap formLine ++ jstr "    <p>Enter your API key to allow <strong>"

/-- From the first parameter to the second. -/
def formOpen : JString :=
  jstr "</strong> to access MCP tools.</p>\n" ++
    jstr "    <form method=\"post\" action=\"/oauth/authorize\">\n" ++
    jstr "      <input type=\"hidden\" name=\"redirect_uri\" value=\""

/-- From one hidden field to the next. -/
def formField (name : String) : JString :=
  jstr "\">\n      <input type=\"hidden\" name=\"" ++ jstr name ++ jstr "\" value=\""

/-- From the last parameter on. -/
def formEnd : JString := [
  "\">",
  "      <label for=\"api_key\">API Key</label>",
  "      <input type=\"password\" id=\"api_key\" name=\"api_key\"",
  "             placeholder=\"Enter your API key\" autocomplete=\"current-password\">",
  "      <button type=\"submit\">Authorise</button>",
  "    </form>",
  "  </div>",
  "</body>",
  "</html>"].flatMap formLine

/-- `buildAuthorizeForm` -/
def buildAuthorizeForm (page : AuthorizeForm (Option JString)) : JString :=
  formStart ++ (escapeHtml page.clientId ++
    (formOpen ++ (escapeHtml page.redirectUri ++
      (formField "code_challenge" ++ (escapeHtml page.codeChallenge ++
        (formField "code_challenge_method" ++ (escapeHtml page.codeChallengeMethod ++
          (formField "state" ++ (escapeHtml page.state ++ formEnd)))))))))

/-- The parameters, null as the empty string it is shown as. -/
def shownParams (page : AuthorizeForm (Option JString)) : AuthorizeForm JString :=
  ⟨page.clientId.getD [], page.redirectUri.getD [], page.codeChallenge.getD [],
    page.codeChallengeMethod.getD [], page.state.getD []⟩

theorem escapeHtml_getD {v w : Option JString} (h : escapeHtml v = escapeHtml w) :
    v.getD [] = w.getD [] := by
  have hnull : ∀ v : Option JString, escapeHtml v = escapeHtml (some (v.getD [])) := by
    intro v
    cases v with
    | none => rfl
    | some x => rfl
  rw [hnull v, hnull w] at h
  exact escapeHtml_injective h

theorem formOpen_head : ∃ t, formOpen = charUnit '<' :: t := by
  have hhead : formOpen.head? = some (charUnit '<') := by decide +kernel
  exact ⟨_, (List.cons_head?_tail hhead).symm⟩

theorem formField_head (name : String) : ∃ t, formField name = charUnit '\x22' :: t := by
  have hhead : (jstr "\">\n      <input type=\"hidden\" name=\"").head? =
      some (charUnit '\x22') := by
    decide +kernel
  unfold formField
  rw [← List.cons_head?_tail hhead]
  exact ⟨_, rfl⟩

theorem formEnd_head : ∃ t, formEnd = charUnit '\x22' :: t := by
  have hhead : (jstr "\">").head? = some (charUnit '\x22') := by decide +kernel
  unfold formEnd
  rw [List.flatMap_cons, formLine, ← List.cons_head?_tail hhead]
  exact ⟨_, rfl⟩

/-- **The page determines its parameters.** -/
theorem buildAuthorizeForm_injective {page page' : AuthorizeForm (Option JString)}
    (h : buildAuthorizeForm page = buildAuthorizeForm page') :
    shownParams page = shownParams page' := by
  have hfield : ∀ {v w : Option JString} {name : String} {s t : JString},
      escapeHtml v ++ (formField name ++ s) = escapeHtml w ++ (formField name ++ t) →
        escapeHtml v = escapeHtml w ∧ s = t := by
    intro v w name s t hvw
    obtain ⟨u, hu⟩ := formField_head name
    rw [hu] at hvw
    obtain ⟨hfirst, hrest⟩ :=
      append_cons_inj (delimiter_not_mem v).2 (delimiter_not_mem w).2 hvw
    exact ⟨hfirst, List.append_cancel_left hrest⟩
  unfold buildAuthorizeForm at h
  have h := List.append_cancel_left h
  obtain ⟨t, ht⟩ := formOpen_head
  rw [ht] at h
  obtain ⟨hclient, h⟩ := append_cons_inj (delimiter_not_mem _).1 (delimiter_not_mem _).1 h
  obtain ⟨huri, h⟩ := hfield (List.append_cancel_left h)
  obtain ⟨hchallenge, h⟩ := hfield h
  obtain ⟨hmethod, h⟩ := hfield h
  obtain ⟨e, he⟩ := formEnd_head
  rw [he] at h
  obtain ⟨hstate, -⟩ := append_cons_inj (delimiter_not_mem _).2 (delimiter_not_mem _).2 h
  unfold shownParams
  rw [escapeHtml_getD hclient, escapeHtml_getD huri, escapeHtml_getD hchallenge,
    escapeHtml_getD hmethod, escapeHtml_getD hstate]

/-! ## A reader of the page -/

/-- Where a reader of the page is: in text, inside a tag, or inside a quoted attribute value. The
page has no comment and no script, and no markup in its style sheet. -/
inductive HtmlState where
  | text
  | tag
  | quoted (quote : UInt16)
  deriving DecidableEq, Repr

def htmlStep : HtmlState → UInt16 → HtmlState
  | .text, u => if u = charUnit '<' then .tag else .text
  | .tag, u =>
      if u = charUnit '>' then .text
      else if u = charUnit '\x22' ∨ u = charUnit '\x27' then .quoted u
      else .tag
  | .quoted quote, u => if u = quote then .tag else .quoted quote

def htmlRun (state : HtmlState) (s : JString) : HtmlState := s.foldl htmlStep state

/-- The units read as markup: those of tags, with the delimiters of tags and attribute values. -/
def markupFrom : HtmlState → JString → JString
  | _, [] => []
  | state, u :: us =>
      if state ≠ .tag ∧ htmlStep state u = state then markupFrom (htmlStep state u) us
      else u :: markupFrom (htmlStep state u) us

/-- What stands before each parameter of the page, and the parameter as it is written. -/
def holes (page : AuthorizeForm (Option JString)) : List (JString × JString) :=
  let client := formStart
  let uri := client ++ (escapeHtml page.clientId ++ formOpen)
  let challenge := uri ++ (escapeHtml page.redirectUri ++ formField "code_challenge")
  let method := challenge ++ (escapeHtml page.codeChallenge ++ formField "code_challenge_method")
  let state := method ++ (escapeHtml page.codeChallengeMethod ++ formField "state")
  [(client, escapeHtml page.clientId), (uri, escapeHtml page.redirectUri),
    (challenge, escapeHtml page.codeChallenge), (method, escapeHtml page.codeChallengeMethod),
    (state, escapeHtml page.state)]

section Reader

variable {state : HtmlState} {s : JString}

theorem htmlRun_append (state : HtmlState) (s t : JString) :
    htmlRun state (s ++ t) = htmlRun (htmlRun state s) t :=
  List.foldl_append

theorem markupFrom_append (state : HtmlState) (s t : JString) :
    markupFrom state (s ++ t) = markupFrom state s ++ markupFrom (htmlRun state s) t := by
  induction s generalizing state with
  | nil => rfl
  | cons u us ih =>
      rw [List.cons_append, markupFrom, markupFrom, ih]
      split_ifs
      · rfl
      · rfl

/-- A reader stays where it is through units that do not move it. -/
theorem htmlRun_inert (h : ∀ u ∈ s, htmlStep state u = state) : htmlRun state s = state := by
  induction s with
  | nil => rfl
  | cons u us ih =>
      have hstep : htmlRun state (u :: us) = htmlRun (htmlStep state u) us := rfl
      rw [hstep, h u List.mem_cons_self]
      exact ih fun v hv => h v (List.mem_cons_of_mem _ hv)

/-- Outside of tags such units are no markup. -/
theorem markupFrom_inert (hstate : state ≠ .tag) (h : ∀ u ∈ s, htmlStep state u = state) :
    markupFrom state s = [] := by
  induction s with
  | nil => rfl
  | cons u us ih =>
      have hu := h u List.mem_cons_self
      rw [markupFrom, if_pos ⟨hstate, hu⟩, hu]
      exact ih fun v hv => h v (List.mem_cons_of_mem _ hv)

/-- A parameter of the page moves the reader neither in text nor in a quoted value. -/
theorem htmlStep_escaped (v : Option JString) :
    (∀ u ∈ escapeHtml v, htmlStep .text u = .text) ∧
      ∀ u ∈ escapeHtml v, htmlStep (.quoted (charUnit '\x22')) u = .quoted (charUnit '\x22') := by
  obtain ⟨hless, hquote⟩ := delimiter_not_mem v
  constructor
  · intro u hu
    have hne : u ≠ charUnit '<' := fun he => hless (he ▸ hu)
    exact if_neg hne
  · intro u hu
    have hne : u ≠ charUnit '\x22' := fun he => hquote (he ▸ hu)
    exact if_neg hne

/-- Reading a literal, whose characters are all one unit. -/
theorem htmlRun_literal {text : String} {cs : List Char} {state' : HtmlState}
    (htext : text = String.ofList cs) (hunits : (cs.all fun c => c.toNat < 0x10000) = true)
    (hrun : htmlRun state (cs.map charUnit) = state') : htmlRun state (jstr text) = state' := by
  have hjstr : jstr (String.ofList cs) = cs.map charUnit := by
    unfold jstr
    rw [String.toList_ofList]
    clear htext hrun
    induction cs with
    | nil => rfl
    | cons c cs ih =>
        rw [List.all_cons, Bool.and_eq_true, decide_eq_true_eq] at hunits
        rw [List.flatMap_cons, if_pos hunits.1, ih hunits.2]
        rfl
  rw [htext, hjstr]
  exact hrun

/-- Every line of the head is read from text to text. -/
theorem formHead_text : ∀ l ∈ formHead, htmlRun .text (jstr l) = .text := by
  simp only [formHead, List.forall_mem_cons, List.not_mem_nil, false_imp_iff, implies_true,
    and_true]
  and_intros
  all_goals exact htmlRun_literal rfl (by decide +kernel) (by decide +kernel)

theorem formStart_text : htmlRun .text formStart = .text := by
  have hlines : ∀ ls : List String, (∀ l ∈ ls, htmlRun .text (jstr l) = .text) →
      htmlRun .text (ls.flatMap formLine) = .text := by
    intro ls hls
    induction ls with
    | nil => rfl
    | cons l ls ih =>
        rw [List.flatMap_cons, formLine, htmlRun_append, htmlRun_append, hls l List.mem_cons_self]
        exact ih fun l' hl' => hls l' (List.mem_cons_of_mem _ hl')
  rw [formStart, htmlRun_append, hlines formHead formHead_text]
  exact htmlRun_literal rfl (by decide +kernel) (by decide +kernel)

theorem formOpen_quoted : htmlRun .text formOpen = .quoted (charUnit '\x22') := by
  decide +kernel

theorem formField_quoted : ∀ name ∈ ["code_challenge", "code_challenge_method", "state"],
    htmlRun (.quoted (charUnit '\x22')) (formField name) = .quoted (charUnit '\x22') := by
  decide +kernel

/-- From inside a value through its parameter into the next value. -/
theorem htmlRun_field (name : String)
    (hname : name ∈ ["code_challenge", "code_challenge_method", "state"]) {before : JString}
    (h : htmlRun .text before = .quoted (charUnit '\x22')) (v : Option JString) :
    htmlRun .text (before ++ (escapeHtml v ++ formField name)) = .quoted (charUnit '\x22') := by
  rw [htmlRun_append, h, htmlRun_append, htmlRun_inert (htmlStep_escaped v).2,
    formField_quoted name hname]

/-- **No parameter moves the reader.** The first stands in text, the others in quoted values, and
the reader is there before, in and behind them. -/
theorem holes_inert (page : AuthorizeForm (Option JString)) : ∀ hole ∈ holes page,
    hole.1 ++ hole.2 <+: buildAuthorizeForm page ∧
    (htmlRun .text hole.1 = .text ∨ htmlRun .text hole.1 = .quoted (charUnit '\x22')) ∧
    ∀ k, htmlRun .text (hole.1 ++ hole.2.take k) = htmlRun .text hole.1 := by
  have hinert : ∀ (before : JString) (v : Option JString),
      (htmlRun .text before = .text ∨ htmlRun .text before = .quoted (charUnit '\x22')) →
      ∀ k, htmlRun .text (before ++ (escapeHtml v).take k) = htmlRun .text before := by
    intro before v hstate k
    rw [htmlRun_append]
    apply htmlRun_inert
    intro u hu
    have hmem := List.mem_of_mem_take hu
    rcases hstate with hstate | hstate
    · rw [hstate]
      exact (htmlStep_escaped v).1 u hmem
    · rw [hstate]
      exact (htmlStep_escaped v).2 u hmem
  have huri : htmlRun .text (formStart ++ (escapeHtml page.clientId ++ formOpen)) =
      .quoted (charUnit '\x22') := by
    rw [htmlRun_append, formStart_text, htmlRun_append,
      htmlRun_inert (htmlStep_escaped page.clientId).1, formOpen_quoted]
  have hchallenge := htmlRun_field "code_challenge" (by simp) huri page.redirectUri
  have hmethod := htmlRun_field "code_challenge_method" (by simp) hchallenge page.codeChallenge
  have hstate := htmlRun_field "state" (by simp) hmethod page.codeChallengeMethod
  simp only [holes, List.forall_mem_cons, List.not_mem_nil, false_imp_iff, implies_true, and_true]
  refine ⟨⟨?_, Or.inl formStart_text, hinert _ _ (Or.inl formStart_text)⟩,
    ⟨?_, Or.inr huri, hinert _ _ (Or.inr huri)⟩,
    ⟨?_, Or.inr hchallenge, hinert _ _ (Or.inr hchallenge)⟩,
    ⟨?_, Or.inr hmethod, hinert _ _ (Or.inr hmethod)⟩,
    ⟨?_, Or.inr hstate, hinert _ _ (Or.inr hstate)⟩⟩
  all_goals
    simp only [buildAuthorizeForm, List.append_assoc, List.prefix_append_right_inj,
      List.prefix_append]

/-- The markup of the page does not depend on its parameters. -/
theorem markup_eq (page : AuthorizeForm (Option JString)) :
    markupFrom .text (buildAuthorizeForm page) =
      markupFrom .text (buildAuthorizeForm ⟨none, none, none, none, none⟩) := by
  have htext : ∀ (v : Option JString) (s : JString),
      markupFrom .text (escapeHtml v ++ s) = markupFrom .text s := by
    intro v s
    rw [markupFrom_append, markupFrom_inert (by simp) (htmlStep_escaped v).1,
      htmlRun_inert (htmlStep_escaped v).1, List.nil_append]
  have hquoted : ∀ (v : Option JString) (s : JString),
      markupFrom (.quoted (charUnit '\x22')) (escapeHtml v ++ s) =
        markupFrom (.quoted (charUnit '\x22')) s := by
    intro v s
    rw [markupFrom_append, markupFrom_inert (by simp) (htmlStep_escaped v).2,
      htmlRun_inert (htmlStep_escaped v).2, List.nil_append]
  have hpage : ∀ page, markupFrom .text (buildAuthorizeForm page) =
      markupFrom .text formStart ++ (markupFrom .text formOpen ++
        (markupFrom (.quoted (charUnit '\x22')) (formField "code_challenge") ++
          (markupFrom (.quoted (charUnit '\x22')) (formField "code_challenge_method") ++
            (markupFrom (.quoted (charUnit '\x22')) (formField "state") ++
              markupFrom (.quoted (charUnit '\x22')) formEnd)))) := by
    intro page
    rw [buildAuthorizeForm, markupFrom_append, formStart_text, htext, markupFrom_append,
      formOpen_quoted, hquoted, markupFrom_append, formField_quoted _ (by simp), hquoted,
      markupFrom_append, formField_quoted _ (by simp), hquoted, markupFrom_append,
      formField_quoted _ (by simp), hquoted]
  rw [hpage, hpage]

end Reader

/-- **HTML escaping is safe and lossless.** What is written for a string has none of the four other
characters, its ampersands begin the five entities, and reading these gives the string back. The
page determines its parameters, no parameter moves a reader of the page out of the text or the
value it stands in, and so the page has the same markup for all of them. -/
theorem html_escaping (x : JString) (page page' : AuthorizeForm (Option JString)) :
    (∀ c ∈ ['<', '>', '\x22', '\x27'], charUnit c ∉ escapeHtml (some x)) ∧
    (∀ before after, escapeHtml (some x) = before ++ charUnit '&' :: after →
      ∃ e ∈ entities, e.2 <+: charUnit '&' :: after) ∧
    unescapeHtml (escapeHtml (some x)) = x ∧
    (∀ y, escapeHtml (some x) = escapeHtml (some y) → x = y) ∧
    (buildAuthorizeForm page = buildAuthorizeForm page' → shownParams page = shownParams page') ∧
    (∀ hole ∈ holes page, hole.1 ++ hole.2 <+: buildAuthorizeForm page ∧
      (htmlRun .text hole.1 = .text ∨ htmlRun .text hole.1 = .quoted (charUnit '\x22')) ∧
      ∀ k, htmlRun .text (hole.1 ++ hole.2.take k) = htmlRun .text hole.1) ∧
    markupFrom .text (buildAuthorizeForm page) = markupFrom .text (buildAuthorizeForm page') := by
  refine ⟨?_, fun _ _ h => ampersand_escapeHtml h, unescapeHtml_escapeHtml x,
    fun _ h => escapeHtml_injective h, buildAuthorizeForm_injective, holes_inert page, ?_⟩
  · intro c hc
    simp only [List.mem_cons, List.not_mem_nil, or_false] at hc
    have hentity : ∃ e ∈ entities, e.1 = charUnit c ∧ e.1 ≠ charUnit '&' := by
      rcases hc with rfl | rfl | rfl | rfl <;> decide +kernel
    obtain ⟨e, he, heq, hne⟩ := hentity
    rw [← heq]
    exact not_mem_escapeHtml x e he hne
  · rw [markup_eq page, markup_eq page']

end McpGateway.OAuth
