import McpGateway.Foundation.Symbolic
import McpGateway.Gateway.Types
import McpGateway.Text

/-! # Tokens and client secrets

The authorization server is written over a type of strings, with the operations it applies to them:
`javaStrings` for the strings it really runs on, `symbolicStrings` for the analysis of an attacker.
The second half is `JwtTokenService`, as far as the authorization server calls it. -/

namespace McpGateway.OAuth

open Foundation Gateway

/-! ## Strings -/

/-- What the authorization server does with strings. -/
structure Strings (T : Type) where
  ofJava : JString → T
  append : T → T → T
  isBlank : T → Bool
  /-- `startsWith s p` — the string `s` starts with `p`. -/
  startsWith : T → T → Bool
  /-- The base64url text of the SHA-256 digest of the UTF-8 bytes. -/
  sha256 : T → T
  /-- The base64url text of the HMAC-SHA256 of the UTF-8 bytes under `mcp.oauth.jwt-secret`. -/
  hmacSha256 : T → T

/-- Java strings, for the digest and the HMAC of the JDK. -/
def javaStrings (sha256 hmacSha256 : Bytes → Bytes) : Strings JString where
  ofJava s := s
  append s t := s ++ t
  isBlank := isBlank
  startsWith s p := p.isPrefixOf s
  sha256 s := jstr (String.ofList (base64Url (sha256 (getBytes s))))
  hmacSha256 s := jstr (String.ofList (base64Url (hmacSha256 (getBytes s))))

/-- Whitespace; blocks are not blank. -/
def isWhitespaceSymbol : Symbol → Bool
  | .unit u => isWhitespaceUnit u
  | _ => false

/-- Symbolic strings; `jwtSecret` names the secret. -/
def symbolicStrings (jwtSecret : Nat) : Strings SymbolicString where
  ofJava s := s.map Symbol.unit
  append s t := s ++ t
  isBlank s := s.all isWhitespaceSymbol
  startsWith s p := p.isPrefixOf s
  sha256 s := [.hash s]
  hmacSha256 s := [.mac [.fresh jwtSecret] s]

section TokenService

variable {T : Type} (S : Strings T)

/-! ## `JwtTokenService` -/

/-- What the secret of a client is made from. -/
def clientSecretInput (clientId : T) : T := S.append (S.ofJava (jstr "client-secret:")) clientId

def deriveClientSecret (clientId : T) : T := S.hmacSha256 (clientSecretInput S clientId)

def tokenTtlSeconds : Nat := 3600

/-- `HEADER_B64`. -/
def headerB64 : String :=
  String.ofList (base64Url (asBytes "\x7b\"alg\":\"HS256\",\"typ\":\"JWT\"\x7d"))

def payloadJson (keyHash : String) (role : AccessRole) (now : Nat) (jti : Uuid) : String :=
  "\x7b\"sub\":\"" ++ keyHash ++ "\",\"role\":\"" ++ role.name ++ "\",\"iat\":" ++ now.repr ++
    ",\"exp\":" ++ (now + tokenTtlSeconds).repr ++ ",\"jti\":\"" ++ jti.toText ++ "\"\x7d"

/-- The signed part of a token. -/
def signing (keyHash : String) (role : AccessRole) (now : Nat) (jti : Uuid) : JString :=
  jstr headerB64 ++ jstr "." ++
    jstr (String.ofList (base64Url (asBytes (payloadJson keyHash role now jti))))

/-- `JwtTokenService.issue`, at an instant in nanoseconds. -/
def issueJwt (keyHash : String) (role : AccessRole) (now : Nat) (jti : Uuid) : T :=
  let signed := S.ofJava (signing keyHash role (now / nanosPerSecond) jti)
  S.append (S.append signed (S.ofJava (jstr "."))) (S.hmacSha256 signed)

end TokenService

example : headerB64 = "eyJhbGciOiJIUzI1NiIsInR5cCI6IkpXVCJ9" := by decide

/-- A token and a client secret are codes of different strings. -/
theorem signing_head (keyHash : String) (role : AccessRole) (now : Nat) (jti : Uuid) :
    ∃ rest, signing keyHash role now jti = 101 :: rest := by
  have hheader : (jstr headerB64).head? = some 101 := by decide
  obtain ⟨rest, hrest⟩ := List.head?_eq_some_iff.mp hheader
  unfold signing
  rw [hrest]
  exact ⟨_, rfl⟩

end McpGateway.OAuth
