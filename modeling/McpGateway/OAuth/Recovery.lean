import Mathlib.Data.List.Dedup
import McpGateway.Foundation.Transition
import McpGateway.OAuth.Attacker

/-! # Form recovery

`formServer` is the history of `pendingForms`: requests write entries, the cache may evict any entry
at any time, entries expire. A request that lost its other parameters gets a recovered form.

* `recovery_iff` — whatever the order of the map, a recovered form is the right one exactly when no
  two pending client ids start with what was received. -/

namespace McpGateway.OAuth

open Foundation Gateway

/-! ## Histories of the cache -/

inductive FormAction where
  | request (request : FormRequest JString) (values : List (AuthorizeParams JString)) (now : Nat)
  | evict (clientId : JString)

/-- The pending authorizations at `now`. -/
def Pending (forms : PendingForms JString) (now : Nat) (p : AuthorizeParams JString) : Prop :=
  livePending forms now p.clientId = some p

instance (forms : PendingForms JString) (now : Nat) (p : AuthorizeParams JString) :
    Decidable (Pending forms now p) :=
  inferInstanceAs (Decidable (livePending forms now p.clientId = some p))

/-- What iterating over the map yields: the pending authorizations, in some order. -/
def Lists (forms : PendingForms JString) (now : Nat) (values : List (AuthorizeParams JString)) :
    Prop :=
  values.Nodup ∧ ∀ p, p ∈ values ↔ Pending forms now p

def formServer (cfg : Config JString) : System (PendingForms JString) FormAction where
  init forms := forms = fun _ => none
  step forms
    | .request request values now => some (authorizeForm cfg request values now forms).2
    | .evict clientId => some fun c => if c = clientId then none else forms c

/-- Entries are stored under their client id, and there are finitely many of them. -/
structure WellKept (forms : PendingForms JString) : Prop where
  key : ∀ c f, forms c = some f → f.params.clientId = c
  finite : ∃ keys : List JString, ∀ c, forms c ≠ none → c ∈ keys

variable {cfg : Config JString} {forms forms' : PendingForms JString} {now : Nat}

theorem wellKept_step {a : FormAction} (h : WellKept forms)
    (hstep : (formServer cfg).step forms a = some forms') : WellKept forms' := by
  obtain ⟨keys, hkeys⟩ := h.finite
  cases a with
  | request request values now =>
      cases hstep
      rcases authorizeForm_cases cfg request values now forms with ⟨hsame, -⟩ | ⟨p, -, -, hput⟩
      · rw [hsame]
        exact h
      · rw [hput]
        constructor
        · intro c f hf
          split_ifs at hf with hc
          · cases hf
            exact hc.symm
          · exact h.key c f hf
        · refine ⟨p.clientId :: keys, ?_⟩
          intro c hc
          split_ifs at hc with hcp
          · rw [hcp]
            exact List.mem_cons_self
          · exact List.mem_cons_of_mem _ (hkeys c hc)
  | evict clientId =>
      cases hstep
      constructor
      · intro c f hf
        split_ifs at hf
        exact h.key c f hf
      · refine ⟨keys, ?_⟩
        intro c hc
        split_ifs at hc
        · exact absurd rfl hc
        · exact hkeys c hc

theorem wellKept (h : (formServer cfg).Reachable forms) : WellKept forms := by
  refine h.invariant ?_ fun _ _ _ h hstep => wellKept_step h hstep
  rintro _ rfl
  exact ⟨nofun, [], fun _ hc => absurd rfl hc⟩

theorem WellKept.pending (h : WellKept forms) {c : JString} {p : AuthorizeParams JString}
    (hp : livePending forms now c = some p) : p.clientId = c := by
  obtain ⟨f, hf, rfl, -⟩ := livePending_eq_some hp
  exact h.key c f hf

/-- Pending authorizations have different client ids. -/
theorem pending_eq {p q : AuthorizeParams JString} (hp : Pending forms now p)
    (hq : Pending forms now q) (hid : p.clientId = q.clientId) : p = q := by
  unfold Pending at hp hq
  rw [hid, hq] at hp
  exact (Option.some.inj hp).symm

/-- The map can be iterated over, from any entry on. -/
theorem WellKept.lists_from (h : WellKept forms) {p : AuthorizeParams JString}
    (hp : Pending forms now p) : ∃ rest, Lists forms now (p :: rest) := by
  obtain ⟨keys, hkeys⟩ := h.finite
  refine ⟨((keys.filterMap (livePending forms now)).dedup).erase p, ?_, ?_⟩
  · rw [List.nodup_cons]
    exact ⟨(List.nodup_dedup _).not_mem_erase, (List.nodup_dedup _).erase p⟩
  · intro q
    have hall : q ∈ (keys.filterMap (livePending forms now)).dedup ↔ Pending forms now q := by
      rw [List.mem_dedup, List.mem_filterMap]
      constructor
      · rintro ⟨c, -, hc⟩
        have hid := h.pending hc
        rw [← hid] at hc
        exact hc
      · intro hq
        obtain ⟨f, hf, -, -⟩ := livePending_eq_some hq
        refine ⟨q.clientId, hkeys _ ?_, hq⟩
        rw [hf]
        exact nofun
    rw [List.mem_cons]
    constructor
    · rintro (rfl | hq)
      · exact hp
      · exact hall.mp (List.mem_of_mem_erase hq)
    · intro hq
      by_cases hqp : q = p
      · exact Or.inl hqp
      · exact Or.inr ((List.mem_erase_of_ne hqp).mpr (hall.mpr hq))

/-! ## Recovery -/

/-- A request that did not arrive with all its parameters. -/
def Truncated (cfg : Config JString) (request : FormRequest JString) : Prop :=
  present cfg request.redirectUri = none ∨ present cfg request.codeChallenge = none ∨
    present cfg request.codeChallengeMethod = none

theorem authorizeForm_truncated {request : FormRequest JString} (h : Truncated cfg request)
    (values : List (AuthorizeParams JString)) (now : Nat) (forms : PendingForms JString) :
    (authorizeForm cfg request values now forms).1 = recoverForm cfg values request.clientId := by
  unfold authorizeForm
  split
  case h_1 _ _ _ _ huri hchallenge hmethod =>
    rcases h with h | h | h
    · rw [huri] at h
      cases h
    · rw [hchallenge] at h
      cases h
    · rw [hmethod] at h
      cases h
  case h_2 => rfl

/-- The response is not a form of another client: a form shown is that of a pending authorization
whose client id starts with `c`, and is the only one or that of `c` itself. -/
def RightForm (forms : PendingForms JString) (now : Nat) (c : JString)
    (response : FormResponse JString) : Prop :=
  ∀ page, response = .form page → ∃ p, Pending forms now p ∧ page = p.form ∧ c <+: p.clientId ∧
    (p.clientId = c ∨ ∀ q, Pending forms now q → c <+: q.clientId → q = p)

/-- No two pending client ids start with `c`. -/
def Unambiguous (forms : PendingForms JString) (now : Nat) (c : JString) : Prop :=
  ∀ p q, Pending forms now p → Pending forms now q → c <+: p.clientId → c <+: q.clientId → p = q

section Java

variable {sha256 hmacSha256 : Bytes → Bytes} {issuer : JString} {isAllowed : JString → Bool}

/-- What `recoverForm` finds, for a client id that is not blank. -/
theorem recoverForm_eq {values : List (AuthorizeParams JString)} {c : JString}
    (hc : isBlank c = false) :
    recoverForm (javaConfig sha256 hmacSha256 issuer isAllowed) values (some c) =
      match values.find? fun p => c.isPrefixOf p.clientId with
      | some p => .form p.form
      | none => .sessionExpired := by
  have hpresent : present (javaConfig sha256 hmacSha256 issuer isAllowed) (some c) = some c := by
    simp [present, javaConfig, javaStrings, Option.filter, hc]
  have hstarts : (values.find? fun p =>
      (javaConfig sha256 hmacSha256 issuer isAllowed).startsWith p.clientId c) =
        values.find? fun p => c.isPrefixOf p.clientId := rfl
  unfold recoverForm
  rw [hpresent, Option.bind_some, hstarts]
  cases values.find? fun p => c.isPrefixOf p.clientId <;> rfl

/-- A form of an ambiguous client id is not the right one, if it is not that of `c` itself. -/
theorem not_rightForm {c : JString} {p q : AuthorizeParams JString} (hp : Pending forms now p)
    (hq : Pending forms now q) (hqc : c <+: q.clientId) (hne : p.clientId ≠ c)
    (hpq : q ≠ p) : ¬ RightForm forms now c (.form p.form) := by
  intro hright
  obtain ⟨p', hp', hform, -, hown⟩ := hright p.form rfl
  have hid : p.clientId = p'.clientId := congrArg AuthorizeForm.clientId hform
  have hsame : p = p' := pending_eq hp hp' hid
  subst hsame
  rcases hown with hc | honly
  · exact hne hc
  · exact hpq (honly q hq hqc)

/-- One of two entries is not that of `c` itself. -/
theorem exists_other_client {c : JString} {p q : AuthorizeParams JString}
    (hp : Pending forms now p) (hq : Pending forms now q) (hpc : c <+: p.clientId)
    (hqc : c <+: q.clientId) (hpq : p ≠ q) :
    ∃ a b, Pending forms now a ∧ Pending forms now b ∧ c <+: a.clientId ∧ c <+: b.clientId ∧
      a.clientId ≠ c ∧ b ≠ a := by
  by_cases hpid : p.clientId = c
  · refine ⟨q, p, hq, hp, hqc, hpc, ?_, hpq⟩
    intro hqid
    exact hpq (pending_eq hp hq (hpid.trans hqid.symm))
  · exact ⟨p, q, hp, hq, hpc, hqc, hpid, Ne.symm hpq⟩

/-- A blank client id recovers nothing. -/
theorem recoverForm_blank (values : List (AuthorizeParams JString)) {c : JString}
    (hc : isBlank c = true) :
    recoverForm (javaConfig sha256 hmacSha256 issuer isAllowed) values (some c) =
      .sessionExpired := by
  have hnone : present (javaConfig sha256 hmacSha256 issuer isAllowed) (some c) = none := by
    simp [present, javaConfig, javaStrings, Option.filter, hc]
  unfold recoverForm
  rw [hnone]
  rfl

/-- What is recovered for an unambiguous client id is the right form. -/
theorem rightForm_of_unambiguous {c : JString} (hc : isBlank c = false)
    (hone : Unambiguous forms now c) {values : List (AuthorizeParams JString)}
    (hlists : Lists forms now values) :
    RightForm forms now c
      (recoverForm (javaConfig sha256 hmacSha256 issuer isAllowed) values (some c)) := by
  intro page hpage
  rw [recoverForm_eq hc] at hpage
  cases hfind : values.find? fun p => c.isPrefixOf p.clientId with
  | none =>
      rw [hfind] at hpage
      cases hpage
  | some p =>
      rw [hfind] at hpage
      cases hpage
      have hp : Pending forms now p := (hlists.2 p).mp (List.mem_of_find?_eq_some hfind)
      have hprefix : c.isPrefixOf p.clientId = true :=
        List.find?_some (p := fun q : AuthorizeParams JString => c.isPrefixOf q.clientId) hfind
      have hpc : c <+: p.clientId := List.isPrefixOf_iff_prefix.mp hprefix
      exact ⟨p, hp, rfl, hpc, Or.inr fun q hq hqc => hone q p hq hp hqc hpc⟩

/-- **Form recovery.** In every state the cache can reach, a request that lost its parameters gets
the right form, in whatever order the map is iterated over, exactly when its client id is blank or
unambiguous. -/
theorem recovery_iff
    (hforms : (formServer (javaConfig sha256 hmacSha256 issuer isAllowed)).Reachable forms)
    {request : FormRequest JString} {c : JString} (hclient : request.clientId = some c)
    (htruncated : Truncated (javaConfig sha256 hmacSha256 issuer isAllowed) request) (now : Nat) :
    (∀ values, Lists forms now values → RightForm forms now c
      (authorizeForm (javaConfig sha256 hmacSha256 issuer isAllowed) request values now forms).1) ↔
      (isBlank c = true ∨ Unambiguous forms now c) := by
  have hkept := wellKept hforms
  have hresponse := authorizeForm_truncated htruncated
  simp only [hclient] at hresponse
  constructor
  · intro hright
    by_cases hblank : isBlank c = true
    · exact Or.inl hblank
    · right
      intro p q hp hq hpc hqc
      by_contra hpq
      -- an order that starts with the other client's entry shows its form
      obtain ⟨a, b, ha, hb, hac, hbc, hne, hab⟩ := exists_other_client hp hq hpc hqc hpq
      obtain ⟨rest, hlists⟩ := hkept.lists_from ha
      have hform := hright _ hlists
      have hfind : (a :: rest).find? (fun p => c.isPrefixOf p.clientId) = some a :=
        List.find?_cons_of_pos (List.isPrefixOf_iff_prefix.mpr hac)
      rw [hresponse, recoverForm_eq (by simpa using hblank), hfind] at hform
      exact not_rightForm ha hb hbc hne hab hform
  · intro hcond values hlists
    rw [hresponse]
    by_cases hblank : isBlank c = true
    · rw [recoverForm_blank values hblank]
      exact nofun
    · exact rightForm_of_unambiguous (by simpa using hblank) (hcond.resolve_left hblank) hlists

end Java

/-! ## Two clients -/

def sampleFormConfig : Config JString :=
  javaConfig id id (jstr "http://localhost") fun uri => (jstr "http://localhost").isPrefixOf uri

def sampleParams (clientId redirectUri : JString) : AuthorizeParams JString :=
  ⟨jstr "code", clientId, redirectUri, jstr "E9Melhoa2Ow", jstr "S256", jstr "x"⟩

def firstParams : AuthorizeParams JString :=
  sampleParams (jstr "aa1") (jstr "http://localhost:1/cb")

def secondParams : AuthorizeParams JString :=
  sampleParams (jstr "aa2") (jstr "http://localhost:2/cb")

/-- Both authorizations are pending. -/
def sampleForms : PendingForms JString := fun c =>
  if c = jstr "aa2" then some ⟨secondParams, 0⟩
  else if c = jstr "aa1" then some ⟨firstParams, 0⟩
  else none

/-- A request with nothing but a client id. -/
def truncatedRequest (clientId : JString) : FormRequest JString :=
  ⟨none, some clientId, none, none, none, []⟩

theorem truncated (cfg : Config JString) (clientId : JString) :
    Truncated cfg (truncatedRequest clientId) :=
  Or.inl rfl

theorem sampleForms_reachable : (formServer sampleFormConfig).Reachable sampleForms := by
  have hblank : ∀ p ∈ [firstParams, secondParams], sampleFormConfig.isBlank p.clientId = false ∧
      sampleFormConfig.isBlank p.redirectUri = false ∧
      sampleFormConfig.isAllowed p.redirectUri = true := by
    decide +kernel
  have hrest : sampleFormConfig.isBlank (jstr "E9Melhoa2Ow") = false ∧
      sampleFormConfig.isBlank (jstr "S256") = false := by
    decide +kernel
  have hrequest : ∀ client uri : JString, sampleFormConfig.isBlank client = false ∧
      sampleFormConfig.isBlank uri = false ∧ sampleFormConfig.isAllowed uri = true →
      ∀ forms, (formServer sampleFormConfig).step forms (.request ⟨some (jstr "code"), some client,
        some uri, some (jstr "E9Melhoa2Ow"), some (jstr "S256"), jstr "x"⟩ [] 0) =
          some fun c => if c = client then some ⟨sampleParams client uri, 0⟩ else forms c := by
    intro client uri h forms
    exact congrArg (fun r => some r.2) (authorizeForm_complete sampleFormConfig
      ⟨client, uri, jstr "E9Melhoa2Ow", jstr "S256", jstr "x"⟩ [] 0 forms h.1 h.2.1 hrest.1 hrest.2
      rfl h.2.2)
  have hfirst := hrequest _ _ (hblank firstParams (by simp)) fun _ => none
  have hsecond := hrequest _ _ (hblank secondParams (by simp)) fun c =>
    if c = firstParams.clientId then some ⟨firstParams, 0⟩ else none
  exact ⟨_, _, rfl, .cons trivial hfirst (.cons trivial hsecond (.nil _))⟩

theorem pending_sampleForms {p : AuthorizeParams JString} :
    Pending sampleForms 0 p ↔ p = firstParams ∨ p = secondParams := by
  constructor
  · intro hp
    obtain ⟨f, hf, hparams, -⟩ := livePending_eq_some hp
    unfold sampleForms at hf
    split_ifs at hf
    · cases hf
      exact Or.inr hparams.symm
    · cases hf
      exact Or.inl hparams.symm
  · rintro (rfl | rfl) <;> decide +kernel

theorem lists_sampleForms : Lists sampleForms 0 [firstParams, secondParams] := by
  refine ⟨by decide +kernel, fun p => ?_⟩
  rw [pending_sampleForms, List.mem_pair]

/-- The second client, with its whole client id, gets its own form. -/
theorem second_recovers : RightForm sampleForms 0 (jstr "aa2")
    (authorizeForm sampleFormConfig (truncatedRequest (jstr "aa2")) [firstParams, secondParams] 0
      sampleForms).1 := by
  refine (recovery_iff sampleForms_reachable rfl (truncated _ _) 0).mpr (Or.inr ?_) _
    lists_sampleForms
  intro p q hp hq hpc hqc
  have hsecond : ∀ p, Pending sampleForms 0 p → jstr "aa2" <+: p.clientId → p = secondParams := by
    intro p hp hpc
    rcases pending_sampleForms.mp hp with rfl | rfl
    · exact absurd hpc (by decide +kernel)
    · rfl
  rw [hsecond p hp hpc, hsecond q hq hqc]

/-- Cut to `aa`, the client id of the second client shows the form of the first. -/
theorem first_shown_to_second : ¬ ∀ (cfg : Config JString) (forms : PendingForms JString),
    (formServer cfg).Reachable forms → ∀ (request : FormRequest JString) (c : JString) (now : Nat),
      request.clientId = some c → Truncated cfg request →
        ∀ values, Lists forms now values →
          RightForm forms now c (authorizeForm cfg request values now forms).1 := by
  intro hclaim
  have hright := hclaim _ _ sampleForms_reachable (truncatedRequest (jstr "aa")) (jstr "aa") 0 rfl
    (truncated _ _) _ lists_sampleForms
  have hform : (authorizeForm sampleFormConfig (truncatedRequest (jstr "aa"))
      [firstParams, secondParams] 0 sampleForms).1 = .form firstParams.form := by
    rw [authorizeForm_truncated (truncated _ _)]
    exact (recoverForm_eq (by decide +kernel)).trans rfl
  rw [hform] at hright
  exact not_rightForm (pending_sampleForms.mpr (Or.inl rfl)) (pending_sampleForms.mpr (Or.inr rfl))
    (by decide +kernel) (by decide +kernel) (by decide +kernel) hright

end McpGateway.OAuth
