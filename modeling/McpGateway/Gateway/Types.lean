import McpGateway.Schema

/-! # Gateway data

The values the four tools take, return, throw and log. A Java string is its UTF-16 code units. -/

namespace McpGateway.Gateway

/-! ## Java strings -/

/-- `java.lang.String`. -/
abbrev JString := List UInt16

/-- A string as Java holds it. -/
def jstr (s : String) : JString :=
  s.toList.flatMap fun c =>
    if c.toNat < 0x10000 then [UInt16.ofNat c.toNat]
    else [UInt16.ofNat (0xD800 + (c.toNat - 0x10000) / 1024),
      UInt16.ofNat (0xDC00 + (c.toNat - 0x10000) % 1024)]

def isHighSurrogate (u : UInt16) : Bool := 0xD800 ≤ u.toNat && u.toNat ≤ 0xDBFF
def isLowSurrogate (u : UInt16) : Bool := 0xDC00 ≤ u.toNat && u.toNat ≤ 0xDFFF

/-- The units outside the two ranges are no surrogates. -/
theorem not_surrogate {u : UInt16} (h : u.toNat < 0xD800 ∨ 0xDFFF < u.toNat) :
    isHighSurrogate u = false ∧ isLowSurrogate u = false := by
  simp only [isHighSurrogate, isLowSurrogate, Bool.and_eq_false_iff, decide_eq_false_iff_not]
  omega

/-- One code unit on its own; an unpaired surrogate is replaced, as `getBytes(UTF_8)` does. -/
def decodeUnit (u : UInt16) : Char :=
  if isHighSurrogate u || isLowSurrogate u then '?' else Char.ofNat u.toNat

/-- The characters of a Java string. -/
def decodeUtf16 : JString → List Char
  | [] => []
  | [u] => [decodeUnit u]
  | u :: v :: rest =>
      if isHighSurrogate u && isLowSurrogate v then
        Char.ofNat (0x10000 + (u.toNat - 0xD800) * 1024 + (v.toNat - 0xDC00)) :: decodeUtf16 rest
      else
        decodeUnit u :: decodeUtf16 (v :: rest)

/-- `getBytes(UTF_8)`. -/
def getBytes (s : JString) : Bytes := asBytes (String.ofList (decodeUtf16 s))

def inRange (lo hi u : UInt16) : Bool := lo.toNat ≤ u.toNat && u.toNat ≤ hi.toNat

/-- `Character.isWhitespace`; all such characters are single code units. -/
def isWhitespaceUnit (u : UInt16) : Bool :=
  inRange 0x09 0x0D u || inRange 0x1C 0x20 u || u == 0x1680 || inRange 0x2000 0x2006 u ||
    inRange 0x2008 0x200A u || u == 0x2028 || u == 0x2029 || u == 0x205F || u == 0x3000

/-- `String.isBlank`. -/
def isBlank (s : JString) : Bool := s.all isWhitespaceUnit

/-- The text a bound string parameter reaches the server as; the server refuses a zero character. -/
def bindText (s : JString) : Option String :=
  if s.contains 0 then none else some (String.ofList (decodeUtf16 s))

/-! ## Callers -/

/-- `AccessRole`. -/
inductive AccessRole where
  | readOnly | admin
  deriving DecidableEq, Repr

/-- `AccessRole.name()`. -/
def AccessRole.name : AccessRole → String
  | .readOnly => "READ_ONLY"
  | .admin    => "ADMIN"

def AccessRole.canAccessConfidential : AccessRole → Bool
  | .readOnly => false
  | .admin    => true

/-- The fields of `ApiKey` the tools and aspects read. Ids are random, hence of version 4. -/
structure ApiKey where
  id : Uuid
  role : AccessRole
  allowedTools : Option (List String)
  id_version : id.version = 4

/-- `SecurityContextHolder.getContext().getAuthentication()`: absent, an `ApiKey` principal, or
some other principal. -/
inductive Authentication where
  | absent
  | apiKey (key : ApiKey)
  | otherPrincipal

/-! ## Errors -/

/-- What leaves a tool as an exception, by class. -/
inductive Throwable where
  | nullPointer
  | classCast
  | illegalArgument (message : String)
  | illegalState (message : String)
  | security (message : String)
  | toolInputRejected (reason : String)
  | budgetExceeded (retryAfterSeconds : Nat)
  | dataAccess
  | embedding
  | cannotCreateTransaction
  | unexpectedRollback
  | transactionSystem
  deriving DecidableEq, Repr

/-! ## The audit trail -/

/-- A filter map: a Java map has each key once; a key or value may be null. -/
structure Filters where
  entries : List (Option JString × Option JString)
  keys_nodup : (entries.map Prod.fst).Nodup
  deriving DecidableEq, Repr

/-- `Map.of()`. -/
def Filters.empty : Filters := ⟨[], by simp⟩

/-- A value of an audit entry's parameter map. -/
inductive ParamValue where
  | text (s : JString)
  | number (n : Int)
  | flag (b : Bool)
  | filters (f : Filters)
  deriving DecidableEq, Repr

/-- A row of `audit_logs`, as `AuditService.log` gets it. -/
structure AuditEntry where
  toolName : String
  apiKeyId : Option Uuid
  params : List (String × ParamValue)
  resultSummary : JString
  deriving DecidableEq, Repr

/-! ## Results -/

/-- `DataFragment`. -/
structure DataFragment where
  sourceId : String
  docName : String
  classification : String
  fragmentText : JString
  chunkIndex : Int
  deriving DecidableEq, Repr

/-- `DenialFragment.queryRejected`. -/
def queryRejected (reason : String) : DataFragment :=
  ⟨"denial", "__denial__", "PUBLIC", jstr "[QUERY_REJECTED] " ++ jstr reason, 0⟩

/-- `DenialFragment.budgetExceeded`. -/
def budgetExceeded (retryAfterSeconds : Nat) : DataFragment :=
  ⟨"denial", "__denial__", "PUBLIC",
    jstr "[BUDGET_EXCEEDED retryAfter=" ++ jstr retryAfterSeconds.repr ++ jstr "s]", 0⟩

/-- A column value of a query result. -/
inductive SqlValue where
  | null
  | text (s : String)
  | int (n : Int)
  | uuid (u : Uuid)
  | timestamp (t : Nat)
  | numeric (hundredths : Int)
  deriving DecidableEq, Repr

/-- A row of a query result: column names and values in column order. -/
abbrev SqlRow := List (String × SqlValue)

/-- An entry of the `sources` list of `list_sources`. -/
structure SourceInfo where
  name : String
  type : String
  accessibleClassifications : Option (List String)
  columns : List String
  deriving DecidableEq, Repr

inductive ToolResult where
  | sources (role : String) (sources : List SourceInfo)
  | rows (rows : List SqlRow)
  | fragments (fragments : List DataFragment)
  deriving DecidableEq, Repr

/-- The four tools and their arguments; `none` is a null argument. -/
inductive ToolCall where
  | listSources
  | queryDatabase (table : Option JString) (filters : Option Filters) (maxRows : Option Int)
  | searchDocuments (query : Option JString) (maxResults : Option Int)
  | semanticSearchDocuments (query : Option JString) (maxResults : Option Int)

/-- The `name` of the `@Tool` annotation. -/
def ToolCall.toolName : ToolCall → String
  | .listSources => "list_sources"
  | .queryDatabase .. => "query_database"
  | .searchDocuments .. => "search_documents"
  | .semanticSearchDocuments .. => "semantic_search_documents"

end McpGateway.Gateway
