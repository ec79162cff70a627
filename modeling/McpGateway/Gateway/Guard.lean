import McpGateway.Foundation.Regex
import McpGateway.Gateway.Session

/-! # `QueryGuard`

The three-tier filter for free-text queries, with its patterns as regular expressions over UTF-16
code units. Whether a query is accepted depends on the query alone (`rejection`). -/

namespace McpGateway.Gateway

open Foundation

/-! ## Character classes -/

/-- The code unit of an ASCII character. -/
def unit (c : Char) : UInt16 := UInt16.ofNat c.toNat

/-- `\w` -/
def isAsciiWord (n : Nat) : Bool :=
  (48 ≤ n && n ≤ 57) || (65 ≤ n && n ≤ 90) || (97 ≤ n && n ≤ 122) || n == 95

/-- `\s` -/
def space : Regex UInt16 :=
  .one fun u => u == unit ' ' || inRange 0x09 0x0D u

/-- A letter under `CASE_INSENSITIVE`, any other character as it stands. -/
def charIgnoringCase (c : Char) : Regex UInt16 :=
  .one fun u => u == unit c || u == unit c.toUpper || u == unit c.toLower

def literalIgnoringCase (s : String) : Regex UInt16 := .seqs (s.toList.map charIgnoringCase)

def anyLiteral (ss : List String) : Regex UInt16 := .alts (ss.map literalIgnoringCase)

/-! ## Assertions -/

/-- `^` in multiline mode: at the beginning of the text or after a line terminator, but not at its
end and not inside `\r\n`. -/
def lineStart : Regex UInt16 :=
  .look fun
    | (_, []) => false
    | ([], _ :: _) => true
    | (b :: _, c :: _) =>
        (b == 0x0A || b == 0x0D || b == 0x2028 || b == 0x2029 || b == 0x85) &&
          !(b == 0x0D && c == 0x0A)

def supplementary (high low : UInt16) : Nat :=
  0x10000 + (high.toNat - 0xD800) * 1024 + (low.toNat - 0xDC00)

/-- `Character.codePointAt`, for the text from the index on. -/
def codePointAt : JString → Nat
  | [] => 0
  | [u] => u.toNat
  | u :: v :: _ =>
      if isHighSurrogate u && isLowSurrogate v then supplementary u v else u.toNat

/-- `Character.codePointBefore`, for the text before the index, reversed. -/
def codePointBefore : JString → Nat
  | [] => 0
  | [u] => u.toNat
  | v :: u :: _ =>
      if isHighSurrogate u && isLowSurrogate v then supplementary u v else v.toNat

/-- `Pattern.hasBaseCharacter`, going back from the first character of `units`. -/
def hasBaseCharacter (p : Platform) : (units after : JString) → Bool
  | [], _ => false
  | u :: before, after =>
      let ch := codePointAt (u :: after)
      p.isLetterOrDigit ch || (p.isNonSpacingMark ch && hasBaseCharacter p before (u :: after))

/-- `\b`: a mark counts as a word character where it has a base. -/
def wordBoundary (p : Platform) : Regex UInt16 :=
  .look fun (before, after) =>
    let left := !before.isEmpty && (isAsciiWord (codePointBefore before) ||
      (p.isNonSpacingMark (codePointBefore before) && hasBaseCharacter p before after))
    let right := match after with
      | [] => false
      | u :: rest => isAsciiWord (codePointAt after) ||
          (p.isNonSpacingMark (codePointAt after) && hasBaseCharacter p (u :: before) rest)
    left != right

/-! ## The patterns -/

/-- `(?im)^\s*(system|user|assistant)\s*:` -/
def chatRoleMarkers : Regex UInt16 :=
  .seqs [lineStart, .atLeast 0 space, anyLiteral ["system", "user", "assistant"],
    .atLeast 0 space, charIgnoringCase ':']

def specialTokens : Regex UInt16 :=
  .seqs [literalIgnoringCase "<|",
    anyLiteral ["im_start", "im_end", "endoftext", "system", "assistant", "user", "startoftext",
      "fim_prefix", "fim_middle", "fim_suffix"],
    literalIgnoringCase "|>"]

/-- `\b[A-Za-z0-9+/=]{256,}\b` -/
def longBase64 (p : Platform) : Regex UInt16 :=
  .seqs [wordBoundary p,
    .atLeast 256 (.one fun u => inRange (unit 'A') (unit 'Z') u || inRange (unit 'a') (unit 'z') u ||
      inRange (unit '0') (unit '9') u || u == unit '+' || u == unit '/' || u == unit '='),
    wordBoundary p]

/-- Control characters except tab, line feed and carriage return. -/
def controlChars : Regex UInt16 :=
  .one fun u => inRange 0 8 u || u == 0x0B || u == 0x0C || inRange 0x0E 0x1F u || u == 0x7F

/-- `[\x{E0000}-\x{E007F}]`, a surrogate pair in UTF-16. -/
def unicodeTags : Regex UInt16 :=
  .seq (.one fun u => u == 0xDB40) (.one fun u => inRange 0xDC00 0xDC7F u)

/-- `UNICODE_TAGS.matcher(s).replaceAll("")` -/
def stripUnicodeTags : JString → JString
  | [] => []
  | [u] => [u]
  | u :: v :: rest =>
      if u == 0xDB40 && inRange 0xDC00 0xDC7F v then stripUnicodeTags rest
      else u :: stripUnicodeTags (v :: rest)

/-- The second tier: without the tags, if there are any. -/
def sanitize (raw : JString) : JString :=
  if unicodeTags.find raw then stripUnicodeTags raw else raw

def instructionOverride (p : Platform) : Regex UInt16 :=
  .seq (wordBoundary p) (.alts [
    .seqs [literalIgnoringCase "ignore ",
      anyLiteral ["all", "any", "the", "previous", "prior", "above"], charIgnoringCase ' ',
      .optional (anyLiteral ["prior", "previous", "above"]), .atLeast 0 space,
      literalIgnoringCase "instruction", .optional (charIgnoringCase 's')],
    .seqs [literalIgnoringCase "disregard ", anyLiteral ["the", "any", "all", "previous"],
      charIgnoringCase ' ', .optional (anyLiteral ["above", "prior", "previous"]),
      .atLeast 0 space,
      .alt (.seq (literalIgnoringCase "instruction") (.optional (charIgnoringCase 's')))
        (.alt (.seq (literalIgnoringCase "prompt") (.optional (charIgnoringCase 's')))
          (.seq (literalIgnoringCase "rule") (.optional (charIgnoringCase 's'))))],
    .seqs [literalIgnoringCase "forget ", anyLiteral ["the", "all", "your"], charIgnoringCase ' ',
      .optional (anyLiteral ["above", "prior", "previous"]), .optional (charIgnoringCase ' '),
      .alt (.seq (literalIgnoringCase "instruction") (.optional (charIgnoringCase 's')))
        (.alt (.seq (literalIgnoringCase "rule") (.optional (charIgnoringCase 's')))
          (literalIgnoringCase "prompt"))],
    .seqs [literalIgnoringCase "system prompt ", anyLiteral ["override", "bypass", "reset"]],
    literalIgnoringCase "you are now",
    literalIgnoringCase "act as "])

/-! ## `validate` -/

/-- `QueryGuard.MAX_QUERY_LENGTH`. -/
def guardMaxQueryLength : Nat := 2000

/-- `ValidationResult`. -/
structure ValidationResult where
  accepted : Bool
  sanitizedQuery : JString
  flagged : Bool
  rejectionReason : Option String
  deriving DecidableEq, Repr

/-- The entries of the guard; the length is only given for an overlong query. -/
def rejectEntry (auth : Authentication) (pattern : String) (metric : Option Int) : AuditEntry :=
  ⟨"query_guard_reject", auth.key?.map ApiKey.id,
    match metric with
    | some n => [("pattern", .text (jstr pattern)), ("length", .number n)]
    | none => [("pattern", .text (jstr pattern))],
    jstr "rejected"⟩

def flagEntry (auth : Authentication) (pattern : String) : AuditEntry :=
  ⟨"query_guard_flag", auth.key?.map ApiKey.id, [("pattern", .text (jstr pattern))],
    jstr "flagged"⟩

/-- `auditReject`: an audit that fails is passed over. -/
def auditReject (env : Env) (auth : Authentication) (pattern : String) (metric : Option Int) :
    GatewayM Unit :=
  tryCatch (log env (rejectEntry auth pattern metric)) fun _ => pure ()

def auditFlag (env : Env) (auth : Authentication) (pattern : String) : GatewayM Unit :=
  tryCatch (log env (flagEntry auth pattern)) fun _ => pure ()

/-- A reject tier: its pattern, the name it is audited under, and the reason it gives. -/
def rejectTiers (p : Platform) : List (Regex UInt16 × String × String) := [
  (chatRoleMarkers, "chat_role_marker", "chat-role marker detected"),
  (specialTokens, "model_special_token", "model special token detected"),
  (longBase64 p, "long_base64_blob", "suspicious long base64 blob detected"),
  (controlChars, "control_chars", "control characters detected")]

/-- `QueryGuard.validate`. -/
def validate (p : Platform) (env : Env) (auth : Authentication) (rawQuery : Option JString) :
    GatewayM ValidationResult := do
  match rawQuery with
  | none => throw (.toolInputRejected "query is null")
  | some raw =>
      if raw.length > guardMaxQueryLength then
        auditReject env auth "length_exceeded" (some raw.length)
        throw (.toolInputRejected ("query exceeds " ++ guardMaxQueryLength.repr ++ " chars (got " ++
          raw.length.repr ++ ")"))
      else
        match (rejectTiers p).find? fun tier => tier.1.find raw with
        | some (_, pattern, reason) =>
            auditReject env auth pattern none
            throw (.toolInputRejected reason)
        | none =>
            let stripped := sanitize raw
            Act.when (unicodeTags.find raw) (auditReject env auth "unicode_tags_stripped" none)
            let flagged := (instructionOverride p).find stripped
            Act.when flagged (auditFlag env auth "instruction_override")
            pure ⟨true, stripped, flagged, none⟩

/-! ## What the guard decides -/

/-- The reason a query is rejected for, if it is. -/
def rejection (p : Platform) (raw : JString) : Option String :=
  if raw.length > guardMaxQueryLength then
    some ("query exceeds " ++ guardMaxQueryLength.repr ++ " chars (got " ++ raw.length.repr ++ ")")
  else ((rejectTiers p).find? fun tier => tier.1.find raw).map fun tier => tier.2.2

/-- A query that passes with an entry in the audit trail: tags were stripped, or a phrase flagged. -/
def isAudited (p : Platform) (raw : JString) : Bool :=
  unicodeTags.find raw || (instructionOverride p).find (sanitize raw)

section Decided

variable {p : Platform} {raw : JString}

theorem rejection_eq_none_iff : rejection p raw = none ↔
    raw.length ≤ guardMaxQueryLength ∧ ∀ tier ∈ rejectTiers p, tier.1.find raw = false := by
  unfold rejection
  by_cases hlength : raw.length > guardMaxQueryLength
  · rw [if_pos hlength]
    constructor
    · intro h
      cases h
    · rintro ⟨hle, -⟩
      exact absurd hle (Nat.not_le_of_gt hlength)
  · rw [if_neg hlength, Option.map_eq_none_iff, List.find?_eq_none]
    simp only [Bool.not_eq_true]
    exact (and_iff_right (Nat.le_of_not_gt hlength)).symm

/-- A rejected query is audited, then the reason thrown. -/
theorem validate_rejected (env : Env) (auth : Authentication) {reason : String}
    (h : rejection p raw = some reason) : ∃ pattern metric, validate p env auth (some raw) = (do
      auditReject env auth pattern metric
      throw (.toolInputRejected reason)) := by
  unfold rejection at h
  unfold validate
  dsimp only
  by_cases hlength : raw.length > guardMaxQueryLength
  · rw [if_pos hlength] at h ⊢
    cases h
    exact ⟨_, _, rfl⟩
  · rw [if_neg hlength] at h ⊢
    cases htier : (rejectTiers p).find? fun tier => tier.1.find raw with
    | none =>
        rw [htier] at h
        cases h
    | some tier =>
        rw [htier] at h
        cases h
        exact ⟨_, _, rfl⟩

/-- An accepted one is audited for its tags and for a phrase, where it has them. -/
theorem validate_accepted (env : Env) (auth : Authentication) (h : rejection p raw = none) :
    validate p env auth (some raw) = (do
      Act.when (unicodeTags.find raw) (auditReject env auth "unicode_tags_stripped" none)
      Act.when ((instructionOverride p).find (sanitize raw))
        (auditFlag env auth "instruction_override")
      pure ⟨true, sanitize raw, (instructionOverride p).find (sanitize raw), none⟩) := by
  obtain ⟨hlength, -⟩ := rejection_eq_none_iff.mp h
  simp only [rejection, if_neg (Nat.not_lt_of_ge hlength), Option.map_eq_none_iff] at h
  simp only [validate, if_neg (Nat.not_lt_of_ge hlength), h]

end Decided

end McpGateway.Gateway
