import Mathlib.Data.List.Basic

/-! # Symbolic strings and attackers

A string is a list of symbols: code units, which anyone can write down, and blocks that only their
makers can produce: random strings, digests and message authentication codes. Digests and codes are
terms over what they were made from, so that they have no collisions and cannot be inverted.

* `Derives K s` — an attacker who knows the strings of `K` can make `s`: it writes, joins and cuts
  strings, hashes them, and makes codes under keys it can make.
* `Derives.avoids` — what is unforgeable and not exposed by `K` is in no string it can make. -/

namespace McpGateway.Foundation

/-- A code unit or an opaque block. -/
inductive Symbol where
  /-- A code unit. -/
  | unit (u : UInt16)
  /-- A random string. -/
  | fresh (n : Nat)
  /-- The digest of a string. -/
  | hash (s : List Symbol)
  /-- The authentication code of a string under a key. -/
  | mac (key s : List Symbol)

abbrev SymbolicString := List Symbol

namespace Symbol

/-! ## Equality -/

mutual

def decEq : (a b : Symbol) → Decidable (a = b)
  | .unit u, .unit v => decidable_of_iff (u = v) (by simp)
  | .fresh m, .fresh n => decidable_of_iff (m = n) (by simp)
  | .hash s, .hash t =>
      have := decEqList s t
      decidable_of_iff (s = t) (by simp)
  | .mac key s, .mac key' t =>
      have := decEqList key key'
      have := decEqList s t
      decidable_of_iff (key = key' ∧ s = t) (by simp)
  | .unit _, .fresh _ | .unit _, .hash _ | .unit _, .mac _ _ => isFalse nofun
  | .fresh _, .unit _ | .fresh _, .hash _ | .fresh _, .mac _ _ => isFalse nofun
  | .hash _, .unit _ | .hash _, .fresh _ | .hash _, .mac _ _ => isFalse nofun
  | .mac _ _, .unit _ | .mac _ _, .fresh _ | .mac _ _, .hash _ => isFalse nofun

def decEqList : (s t : List Symbol) → Decidable (s = t)
  | [], [] => isTrue rfl
  | a :: s, b :: t =>
      have := decEq a b
      have := decEqList s t
      decidable_of_iff (a = b ∧ s = t) (by simp)
  | [], _ :: _ | _ :: _, [] => isFalse nofun

end

instance : DecidableEq Symbol := decEq

end Symbol

/-! ## What an attacker can make -/

/-- An attacker who knows the strings of `K` can make the string. -/
inductive Derives (K : List SymbolicString) : SymbolicString → Prop
  | known {s : SymbolicString} : s ∈ K → Derives K s
  | nil : Derives K []
  | unit (u : UInt16) : Derives K [.unit u]
  | append {s t : SymbolicString} : Derives K s → Derives K t → Derives K (s ++ t)
  | cut {s t u : SymbolicString} : Derives K (s ++ t ++ u) → Derives K t
  | hash {s : SymbolicString} : Derives K s → Derives K [.hash s]
  | mac {key s : SymbolicString} : Derives K key → Derives K s → Derives K [.mac key s]

/-- Text can be written down. -/
theorem Derives.text {K : List SymbolicString} (us : List UInt16) :
    Derives K (us.map Symbol.unit) := by
  induction us with
  | nil => exact .nil
  | cons u us ih => exact .append (.unit u) ih

/-! ## What it cannot make -/

/-- The secret symbols do not occur in the string. Under a digest or a code they may. -/
def Avoids (secret : Symbol → Prop) (s : SymbolicString) : Prop := ∀ a ∈ s, ¬ secret a

/-- Symbols that cannot be made without exposing one of them. -/
structure Unforgeable (secret : Symbol → Prop) : Prop where
  unit : ∀ u, ¬ secret (.unit u)
  hash : ∀ s, ¬ secret (.hash s)
  mac : ∀ key s, secret (.mac key s) → ¬ Avoids secret key

variable {secret : Symbol → Prop}

@[simp] theorem avoids_nil : Avoids secret [] := by
  intro a ha
  cases ha

@[simp] theorem avoids_cons {a : Symbol} {s : SymbolicString} :
    Avoids secret (a :: s) ↔ ¬ secret a ∧ Avoids secret s :=
  List.forall_mem_cons

@[simp] theorem avoids_append {s t : SymbolicString} :
    Avoids secret (s ++ t) ↔ Avoids secret s ∧ Avoids secret t :=
  List.forall_mem_append

theorem avoids_text (hsecret : Unforgeable secret) (us : List UInt16) :
    Avoids secret (us.map Symbol.unit) := by
  intro a ha
  obtain ⟨u, -, rfl⟩ := List.mem_map.mp ha
  exact hsecret.unit u

theorem Avoids.mono {secret' : Symbol → Prop} (h : ∀ a, secret' a → secret a)
    {s : SymbolicString} (hs : Avoids secret s) : Avoids secret' s :=
  fun a ha ha' => hs a ha (h a ha')

/-- **Secrecy.** If nothing known exposes a secret, nothing the attacker can make does. -/
theorem Derives.avoids {K : List SymbolicString} (hsecret : Unforgeable secret)
    (hK : ∀ s ∈ K, Avoids secret s) {s : SymbolicString} (h : Derives K s) : Avoids secret s := by
  induction h with
  | known hs => exact hK _ hs
  | nil => exact avoids_nil
  | unit u => exact avoids_cons.mpr ⟨hsecret.unit u, avoids_nil⟩
  | append _ _ ihs iht => exact avoids_append.mpr ⟨ihs, iht⟩
  | cut _ ih => exact (avoids_append.mp (avoids_append.mp ih).1).2
  | hash _ _ => exact avoids_cons.mpr ⟨hsecret.hash _, avoids_nil⟩
  | mac _ _ ihkey _ =>
      exact avoids_cons.mpr ⟨fun h => hsecret.mac _ _ h ihkey, avoids_nil⟩

end McpGateway.Foundation
