import McpGateway.Gateway.Types

/-! # `AuthCodeStore`

The authorization codes in circulation. The map is the function that looks a code up; each of its
operations is one atomic step of the concurrent map. -/

namespace McpGateway.OAuth

open Gateway

/-- `AuthCodeEntry`; instants are in nanoseconds. -/
structure AuthCodeEntry (T : Type) where
  keyHash : String
  role : AccessRole
  redirectUri : T
  codeChallenge : T
  codeChallengeMethod : T
  expiresAt : Nat

/-- `CODE_TTL_SECONDS`. -/
def codeTtlSeconds : Nat := 60

abbrev AuthCodeStore (T : Type) := T → Option (AuthCodeEntry T)

namespace AuthCodeStore

variable {T : Type}

def empty : AuthCodeStore T := fun _ => none

/-- An entry lives up to and including the instant it expires at. -/
def ifAlive (now : Nat) (entry : Option (AuthCodeEntry T)) : Option (AuthCodeEntry T) :=
  entry.filter fun e => !decide (e.expiresAt < now)

def purgeExpired (now : Nat) (store : AuthCodeStore T) : AuthCodeStore T :=
  fun code => ifAlive now (store code)

theorem ifAlive_eq_some {now : Nat} {entry : Option (AuthCodeEntry T)} {e : AuthCodeEntry T} :
    ifAlive now entry = some e ↔ entry = some e ∧ now ≤ e.expiresAt := by
  simp [ifAlive, Option.filter_eq_some_iff]

theorem purgeExpired_eq_some {now : Nat} {c : T} {e : AuthCodeEntry T} {store : AuthCodeStore T} :
    store.purgeExpired now c = some e ↔ store c = some e ∧ now ≤ e.expiresAt :=
  ifAlive_eq_some

variable [DecidableEq T]

def put (code : T) (entry : AuthCodeEntry T) (store : AuthCodeStore T) : AuthCodeStore T :=
  fun c => if c = code then some entry else store c

def remove (code : T) (store : AuthCodeStore T) : AuthCodeStore T :=
  fun c => if c = code then none else store c

/-- The entry made for a code at `now`. -/
def newEntry (keyHash : String) (role : AccessRole) (redirectUri codeChallenge codeChallengeMethod : T)
    (now : Nat) : AuthCodeEntry T :=
  ⟨keyHash, role, redirectUri, codeChallenge, codeChallengeMethod,
    now + codeTtlSeconds * nanosPerSecond⟩

/-- `issue`, for the code drawn. -/
def issue (keyHash : String) (role : AccessRole) (redirectUri codeChallenge codeChallengeMethod : T)
    (code : T) (now : Nat) (store : AuthCodeStore T) : AuthCodeStore T :=
  (store.purgeExpired now).put code
    (newEntry keyHash role redirectUri codeChallenge codeChallengeMethod now)

/-- `consume`: the entry is gone, whether or not it was alive. -/
def consume (code : T) (now : Nat) (store : AuthCodeStore T) :
    Option (AuthCodeEntry T) × AuthCodeStore T :=
  (ifAlive now (store code), store.remove code)

/-! ## Lookups -/

theorem put_eq_some {code c : T} {entry e : AuthCodeEntry T} {store : AuthCodeStore T} :
    store.put code entry c = some e ↔ c = code ∧ e = entry ∨ c ≠ code ∧ store c = some e := by
  unfold put
  by_cases h : c = code
  · simp [h, eq_comm]
  · simp [h]

theorem remove_eq_some {code c : T} {e : AuthCodeEntry T} {store : AuthCodeStore T} :
    store.remove code c = some e ↔ c ≠ code ∧ store c = some e := by
  unfold remove
  by_cases h : c = code
  · simp [h]
  · simp [h]

@[simp] theorem issue_self {keyHash : String} {role : AccessRole}
    {redirectUri codeChallenge codeChallengeMethod code : T} {now : Nat} {store : AuthCodeStore T} :
    store.issue keyHash role redirectUri codeChallenge codeChallengeMethod code now code
      = some (newEntry keyHash role redirectUri codeChallenge codeChallengeMethod now) :=
  if_pos rfl

@[simp] theorem remove_self {code : T} {store : AuthCodeStore T} :
    store.remove code code = none :=
  if_pos rfl

end AuthCodeStore

end McpGateway.OAuth
