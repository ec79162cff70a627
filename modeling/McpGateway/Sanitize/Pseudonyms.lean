import McpGateway.Foundation.Keyed
import McpGateway.Sanitize.Exact
import McpGateway.Vault.Stability

/-! # What a sanitized text gives away

Texts are sanitized one after another with one vault, which starts empty. Two such histories that
differ only in the values that are replaced come out the same, if the same of these coincide: all
that a token says of a value is its kind, and where else it stands.

* `sanitizeWith_cut` — `sanitize` cuts a text into what it copies and what it renders.
* `upsert_related` — the vaults of the two histories stay alike, up to the keys and ciphertexts of
  their rows.
* `outputs_blind` — the two histories. -/

namespace McpGateway.Sanitize

open Foundation Vault

/-! ## Cutting a text -/

/-- A stretch that is replaced, and what is copied before it. -/
structure Piece where
  gap : List Char
  kind : EntityKind
  raw : List Char

structure Cut where
  pieces : List Piece
  rest : List Char

/-- The text from a cursor on, cut at these spans. -/
def cutFrom (text : List Char) : (cursor : Nat) → List Span → Option Cut
  | cursor, [] => (sliceFrom text cursor).map fun rest => ⟨[], rest⟩
  | cursor, s :: spans => do
      let gap ← slice text cursor s.start
      let raw ← slice text s.start s.stop
      let cut ← cutFrom text s.stop spans
      some ⟨⟨gap, s.kind, raw⟩ :: cut.pieces, cut.rest⟩

/-- The text cut at the spans that `sanitize` replaces. -/
def cut (u : UnicodeClasses) (ner : List Span) (text : List Char) : Option Cut := do
  let spans ← scan u text
  cutFrom text 0 ((mergeAndDedup (spans ++ ner)).filter (lies text))

theorem le_of_boundary {text : List Char} {n : Nat} (h : isCharBoundary text n = true) :
    n ≤ utf8Len text := by
  obtain ⟨before, after, rfl, rfl⟩ := isCharBoundary_iff.mp h
  rw [utf8Len_append]
  exact Nat.le_add_right _ _

section Render

variable {σ : Type}

/-- The pieces rendered from left to right. -/
def renderPieces (render : Render σ) : List Piece → σ → List Char × σ
  | [], st => ([], st)
  | p :: pieces, st =>
      let (token, st) := render p.raw p.kind st
      let (out, st) := renderPieces render pieces st
      (p.gap ++ (token ++ out), st)

def Cut.render (c : Cut) (render : Render σ) (st : σ) : List Char × σ :=
  ((renderPieces render c.pieces st).1 ++ c.rest, (renderPieces render c.pieces st).2)

/-- The loop renders the cuts. -/
theorem substituteWith_cut (render : Render σ) {text : List Char} {cursor : Nat} {spans : List Span}
    (hlies : ∀ s ∈ spans, lies text s = true) (st : σ) :
    substituteWith render text cursor spans st
      = (cutFrom text cursor spans).map fun c => c.render render st := by
  induction spans generalizing cursor st with
  | nil =>
      unfold substituteWith cutFrom
      rw [Option.map_map]
      rfl
  | cons s spans ih =>
      obtain ⟨hs, hspans⟩ := List.forall_mem_cons.mp hlies
      obtain ⟨hstart, hstop⟩ := Bool.and_eq_true_iff.mp hs
      have hinside : ¬(s.start > utf8Len text || s.stop > utf8Len text) = true := by
        have hle := le_of_boundary hstart
        have hle' := le_of_boundary hstop
        rw [Bool.or_eq_true, decide_eq_true_eq, decide_eq_true_eq]
        omega
      unfold substituteWith cutFrom
      rw [if_neg hinside, hstart, hstop]
      cases slice text cursor s.start with
      | none => rfl
      | some gap =>
          cases slice text s.start s.stop with
          | none => rfl
          | some raw =>
              simp only [ih hspans]
              cases cutFrom text s.stop spans with
              | none => rfl
              | some c => simp [Cut.render, renderPieces]

theorem sanitizeWith_cut (u : UnicodeClasses) (render : Render σ) (ner : List Span)
    (text : List Char) (st : σ) :
    sanitizeWith u render ner text st = (cut u ner text).map fun c => c.render render st := by
  unfold sanitizeWith cut
  cases scan u text with
  | none => rfl
  | some spans =>
      simp only [Option.bind_eq_bind, Option.bind_some]
      cases hmerged : mergeAndDedup (spans ++ ner) with
      | nil =>
          -- an empty merge hands the text back, which is one cut without pieces
          have hrest : sliceFrom text 0 = some text := sliceFrom_append [] text
          simp [cutFrom, hrest, Cut.render, renderPieces]
      | cons s merged =>
          rw [if_neg (by simp), substituteWith_filter]
          exact substituteWith_cut render (fun s hs => (List.mem_filter.mp hs).2) st

end Render

/-! ## Two vaults that number alike -/

/-- The keys of two vaults that stand for each other. -/
structure Renames (R : Key → Key → Prop) : Prop where
  workspaceId : ∀ {k k'}, R k k' → k.workspaceId = k'.workspaceId
  entityKind : ∀ {k k'}, R k k' → k.entityKind = k'.entityKind
  one_to_one : ∀ {k₁ k₁' k₂ k₂'}, R k₁ k₁' → R k₂ k₂' → (k₁ = k₂ ↔ k₁' = k₂')

/-- Two rows with one token. -/
def SameToken (R : Key → Key → Prop) (r r' : TokenRow) : Prop := r.token = r'.token ∧ R r.key r'.key

/-- The vaults differ in the keys of the rows, and in what is encrypted there. -/
structure SameTokens (R : Key → Key → Prop) (db db' : VaultDb) : Prop where
  counter : db.counter = db'.counter
  rows : List.Forall₂ (SameToken R) db.map.rows db'.map.rows

section Rename

variable {R : Key → Key → Prop} {db db' : VaultDb} {k k' : Key}

theorem SameTokens.find (hR : Renames R) (h : SameTokens R db db') (hk : R k k') :
    Option.Rel (SameToken R) (db.map.find k) (db'.map.find k') := by
  refine find?_related (fun r r' hr => ?_) h.rows
  exact decide_eq_decide.mpr (hR.one_to_one hr.2 hk)

theorem SameTokens.tokens (h : SameTokens R db db') :
    db.map.rows.map TokenRow.token = db'.map.rows.map TokenRow.token := by
  rw [← List.forall₂_eq_eq_eq, List.forall₂_map_left_iff, List.forall₂_map_right_iff]
  exact h.rows.imp fun r r' hr => hr.1

/-- A token is taken in both or in neither. -/
theorem SameTokens.free (h : SameTokens R db db') (t : String) :
    (∀ r ∈ db.map.rows, r.token ≠ t) ↔ ∀ r ∈ db'.map.rows, r.token ≠ t := by
  have hread : ∀ rows : List TokenRow,
      (∀ r ∈ rows, r.token ≠ t) ↔ ∀ t' ∈ rows.map TokenRow.token, t' ≠ t :=
    fun rows => List.forall_mem_map (P := (· ≠ t)).symm
  rw [hread, hread, h.tokens]

/-- **One upsert** of keys that stand for each other. -/
theorem upsert_related (hR : Renames R) (h : SameTokens R db db') (hk : R k k')
    (ct ct' : Bytes) : (upsert db k ct).1 = (upsert db' k' ct').1 ∧
      SameTokens R (upsert db k ct).2 (upsert db' k' ct').2 := by
  have hfind := h.find hR hk
  unfold upsert
  cases hrow : db.map.find k with
  | some r =>
      rw [hrow] at hfind
      cases hrow' : db'.map.find k' with
      | none =>
          rw [hrow'] at hfind
          cases hfind
      | some r' =>
          rw [hrow'] at hfind
          cases hfind with
          | some hr => exact ⟨congrArg Except.ok hr.1, h⟩
  | none =>
      rw [hrow] at hfind
      have hrow' : db'.map.find k' = none := by
        cases hrow' : db'.map.find k' with
        | none => rfl
        | some r' =>
            rw [hrow'] at hfind
            cases hfind
      rw [hrow']
      -- both counters hand out the same number, which is free in both tables or in neither
      unfold cteUpsert
      rw [← h.counter, ← hR.workspaceId hk, ← hR.entityKind hk]
      cases bump db.counter k.workspaceId k.entityKind with
      | error e => exact ⟨rfl, h⟩
      | ok bumped =>
          obtain ⟨current, counter⟩ := bumped
          dsimp only
          by_cases hfree : ∀ r ∈ db.map.rows, r.token ≠ tokenText k.entityKind current
          · rw [TokenMap.ins_fresh hrow hfree, TokenMap.ins_fresh hrow' ((h.free _).mp hfree)]
            refine ⟨rfl, rfl, ?_⟩
            exact List.rel_append h.rows (.cons ⟨rfl, hk⟩ .nil)
          · rw [TokenMap.ins_clash hrow hfree,
              TokenMap.ins_clash hrow' (fun hfree' => hfree ((h.free _).mpr hfree'))]
            exact ⟨rfl, h⟩

/-- A call that can encrypt comes down to the upsert. -/
theorem tokenize_of_ciphertext {v : PiiVault} {req : Request} {ct : Bytes}
    (h : v.ciphertext req = .ok ct) : v.tokenize db req = upsert db (v.keyOf req) ct := by
  unfold PiiVault.tokenize
  rw [h]

end Rename

/-! ## Texts one after another -/

/-- One call of `sanitize`. -/
structure Job where
  workspaceId : Uuid
  ner : List Span
  text : List Char

/-- What a piece asks of the vault, before an IV is drawn. -/
def Piece.request (workspaceId : Uuid) (p : Piece) : Request :=
  ⟨workspaceId, p.kind, String.ofList p.raw, []⟩

/-- What a text asks of the vault. -/
def Job.requests (u : UnicodeClasses) (job : Job) : List Request :=
  match cut u job.ner job.text with
  | some c => c.pieces.map (Piece.request job.workspaceId)
  | none => []

/-- A text without what is replaced in it: all that is copied, and the kind of what is not. -/
structure Mask where
  gaps : List (List Char × EntityKind)
  rest : List Char
  deriving DecidableEq

def Cut.mask (c : Cut) : Mask := ⟨c.pieces.map fun p => (p.gap, p.kind), c.rest⟩

def Job.mask (u : UnicodeClasses) (job : Job) : Uuid × Option Mask :=
  (job.workspaceId, (cut u job.ner job.text).map Cut.mask)

/-- A history of texts, with one vault. -/
def sanitizeAll {ρ : Type} (u : UnicodeClasses) (v : PiiVault) (draw : ρ → Bytes × ρ) :
    List Job → VaultDb × ρ → Option (List (List Char) × (VaultDb × ρ))
  | [], st => some ([], st)
  | job :: jobs, st => do
      let (out, st) ←
        sanitizeWith u (vaultRender v job.workspaceId draw) job.ner job.text st
      let (outs, st) ← sanitizeAll u v draw jobs st
      some (out :: outs, st)

/-- What the same places of two histories ask for: of the first, the same is asked twice exactly
where it is of the second. -/
def SamePattern (v v' : PiiVault) (reqs reqs' : List Request) : Prop :=
  ∀ p ∈ reqs.zip reqs', ∀ q ∈ reqs.zip reqs',
    v.triple p.1 = v.triple q.1 ↔ v'.triple p.2 = v'.triple q.2

/-- The cipher reports no error on these values, whatever IV is drawn. -/
def Encrypts {ρ : Type} (v : PiiVault) (draw : ρ → Bytes × ρ) (reqs : List Request) : Prop :=
  ∀ req ∈ reqs, ∀ rng, ∃ ct, v.ciphertext { req with iv := (draw rng).1 } = .ok ct

theorem Encrypts.mono {ρ : Type} {v : PiiVault} {draw : ρ → Bytes × ρ} {reqs reqs' : List Request}
    (h : Encrypts v draw reqs) (hsub : reqs' ⊆ reqs) : Encrypts v draw reqs' :=
  fun req hreq => h req (hsub hreq)

section Histories

variable {ρ ρ' : Type} {u : UnicodeClasses} {v v' : PiiVault} {draw : ρ → Bytes × ρ}
  {draw' : ρ' → Bytes × ρ'} {R : Key → Key → Prop}

/-- Two outcomes with one text, and vaults that number alike. -/
def SameText {α : Type} (R : Key → Key → Prop) (out : α × (VaultDb × ρ))
    (out' : α × (VaultDb × ρ')) : Prop :=
  out.1 = out'.1 ∧ SameTokens R out.2.1 out'.2.1

/-- **One token**. -/
theorem vaultRender_related (hR : Renames R) {st : VaultDb × ρ} {st' : VaultDb × ρ'}
    (h : SameTokens R st.1 st'.1) {w : Uuid} {p p' : Piece} (hkind : p.kind = p'.kind)
    (hkey : R (v.keyOf (p.request w)) (v'.keyOf (p'.request w)))
    (henc : Encrypts v draw [p.request w]) (henc' : Encrypts v' draw' [p'.request w]) :
    SameText R (vaultRender v w draw p.raw p.kind st)
      (vaultRender v' w draw' p'.raw p'.kind st') := by
  obtain ⟨ct, hct⟩ := henc _ List.mem_cons_self st.2
  obtain ⟨ct', hct'⟩ := henc' _ List.mem_cons_self st'.2
  obtain ⟨hans, hdb⟩ := upsert_related hR h hkey ct ct'
  have hcall : v.tokenize st.1 ⟨w, p.kind, String.ofList p.raw, (draw st.2).1⟩
      = upsert st.1 (v.keyOf (p.request w)) ct := tokenize_of_ciphertext hct
  have hcall' : v'.tokenize st'.1 ⟨w, p'.kind, String.ofList p'.raw, (draw' st'.2).1⟩
      = upsert st'.1 (v'.keyOf (p'.request w)) ct' := tokenize_of_ciphertext hct'
  unfold vaultRender SameText PiiVault.renderToken
  dsimp only
  rw [hcall, hcall', hans, hkind]
  exact ⟨rfl, hdb⟩

/-- **One text**, piece by piece. -/
theorem renderPieces_related (hR : Renames R) {w : Uuid} {pieces pieces' : List Piece}
    (hmask : pieces.map (fun p => (p.gap, p.kind)) = pieces'.map fun p => (p.gap, p.kind))
    (hkeys : ∀ p ∈ (pieces.map (Piece.request w)).zip (pieces'.map (Piece.request w)),
      R (v.keyOf p.1) (v'.keyOf p.2))
    (henc : Encrypts v draw (pieces.map (Piece.request w)))
    (henc' : Encrypts v' draw' (pieces'.map (Piece.request w)))
    {st : VaultDb × ρ} {st' : VaultDb × ρ'} (h : SameTokens R st.1 st'.1) :
    SameText R (renderPieces (vaultRender v w draw) pieces st)
      (renderPieces (vaultRender v' w draw') pieces' st') := by
  induction pieces generalizing pieces' st st' with
  | nil =>
      rw [List.map_nil, eq_comm, List.map_eq_nil_iff] at hmask
      subst hmask
      exact ⟨rfl, h⟩
  | cons p pieces ih =>
      cases pieces' with
      | nil => cases hmask
      | cons p' pieces' =>
          rw [List.map_cons, List.map_cons, List.cons.injEq, Prod.mk.injEq] at hmask
          obtain ⟨⟨hgap, hkind⟩, hmask⟩ := hmask
          simp only [List.map_cons, List.zip_cons_cons, List.forall_mem_cons] at hkeys
          have hone := vaultRender_related hR h hkind hkeys.1
            (henc.mono (by simp)) (henc'.mono (by simp))
          have hrest := ih hmask hkeys.2 (henc.mono (by simp)) (henc'.mono (by simp)) hone.2
          simp only [renderPieces]
          refine ⟨?_, hrest.2⟩
          show p.gap ++ (_ ++ _) = p'.gap ++ (_ ++ _)
          rw [hgap, hone.1, hrest.1]

/-- **One call of `sanitize`**. -/
theorem sanitizeWith_related (hR : Renames R) {job job' : Job} (hmask : job.mask u = job'.mask u)
    (hkeys : ∀ p ∈ (job.requests u).zip (job'.requests u), R (v.keyOf p.1) (v'.keyOf p.2))
    (henc : Encrypts v draw (job.requests u)) (henc' : Encrypts v' draw' (job'.requests u))
    {st : VaultDb × ρ} {st' : VaultDb × ρ'} (h : SameTokens R st.1 st'.1) :
    Option.Rel (SameText R)
      (sanitizeWith u (vaultRender v job.workspaceId draw) job.ner job.text st)
      (sanitizeWith u (vaultRender v' job'.workspaceId draw') job'.ner job'.text st') := by
  obtain ⟨hw, hcuts⟩ := Prod.mk.inj hmask
  rw [sanitizeWith_cut, sanitizeWith_cut]
  unfold Job.requests at hkeys henc henc'
  cases hcut : cut u job.ner job.text with
  | none =>
      rw [hcut, Option.map_none, eq_comm, Option.map_eq_none_iff] at hcuts
      rw [hcuts]
      exact Option.Rel.none
  | some c =>
      rw [hcut, Option.map_some, eq_comm, Option.map_eq_some_iff] at hcuts
      obtain ⟨c', hcut', hc⟩ := hcuts
      obtain ⟨hpieces, hrest⟩ := Mask.mk.inj hc
      rw [hcut, hcut', ← hw] at hkeys
      rw [hcut] at henc
      rw [hcut', ← hw] at henc'
      rw [hcut', ← hw]
      have hrel := renderPieces_related hR hpieces.symm hkeys henc henc' h
      refine Option.Rel.some ⟨?_, hrel.2⟩
      show _ ++ c.rest = _ ++ c'.rest
      rw [hrel.1, hrest]

/-- The counter a request draws its number from. -/
def counterOf (req : Request) : Uuid × EntityKind := (req.workspaceId, req.kind)

/-- The mask of a text says which counters it draws from. -/
theorem requests_counters {job job' : Job} (hmask : job.mask u = job'.mask u) :
    (job.requests u).map counterOf = (job'.requests u).map counterOf := by
  have hread : ∀ job : Job, (job.requests u).map counterOf
      = (((job.mask u).2.map Mask.gaps).getD []).map fun g => ((job.mask u).1, g.2) := by
    intro job
    unfold Job.requests Job.mask
    cases cut u job.ner job.text with
    | none => rfl
    | some c => simp [Cut.mask, Piece.request, counterOf]
  rw [hread, hread, hmask]

theorem histories_counters {jobs jobs' : List Job}
    (hmask : jobs.map (Job.mask u) = jobs'.map (Job.mask u)) :
    (jobs.flatMap (Job.requests u)).map counterOf
      = (jobs'.flatMap (Job.requests u)).map counterOf := by
  induction jobs generalizing jobs' with
  | nil =>
      rw [List.map_nil, eq_comm, List.map_eq_nil_iff] at hmask
      rw [hmask]
  | cons job jobs ih =>
      cases jobs' with
      | nil => cases hmask
      | cons job' jobs' =>
          obtain ⟨hjob, hjobs⟩ := List.cons.inj hmask
          rw [List.flatMap_cons, List.flatMap_cons, List.map_append, List.map_append, ih hjobs,
            requests_counters hjob]

/-- **The whole history**. -/
theorem sanitizeAll_related (hR : Renames R) {jobs jobs' : List Job}
    (hmask : jobs.map (Job.mask u) = jobs'.map (Job.mask u))
    (hkeys : ∀ p ∈ (jobs.flatMap (Job.requests u)).zip (jobs'.flatMap (Job.requests u)),
      R (v.keyOf p.1) (v'.keyOf p.2))
    (henc : Encrypts v draw (jobs.flatMap (Job.requests u)))
    (henc' : Encrypts v' draw' (jobs'.flatMap (Job.requests u)))
    {st : VaultDb × ρ} {st' : VaultDb × ρ'} (h : SameTokens R st.1 st'.1) :
    Option.Rel (SameText R) (sanitizeAll u v draw jobs st) (sanitizeAll u v' draw' jobs' st') := by
  induction jobs generalizing jobs' st st' with
  | nil =>
      rw [List.map_nil, eq_comm, List.map_eq_nil_iff] at hmask
      subst hmask
      exact Option.Rel.some ⟨rfl, h⟩
  | cons job jobs ih =>
      cases jobs' with
      | nil => cases hmask
      | cons job' jobs' =>
          obtain ⟨hjob, hjobs⟩ := List.cons.inj hmask
          have hlength : (job.requests u).length = (job'.requests u).length := by
            have hlength := congrArg List.length (requests_counters hjob)
            rwa [List.length_map, List.length_map] at hlength
          rw [List.flatMap_cons, List.flatMap_cons, List.zip_append hlength,
            List.forall_mem_append] at hkeys
          have hone := sanitizeWith_related hR hjob hkeys.1 (henc.mono (by simp))
            (henc'.mono (by simp)) h
          unfold sanitizeAll
          refine rel_bind hone fun out out' hout => ?_
          have hall := ih hjobs hkeys.2 (henc.mono (by simp)) (henc'.mono (by simp)) hout.2
          refine rel_bind hall fun outs outs' houts => ?_
          exact Option.Rel.some ⟨congrArg₂ List.cons hout.1 houts.1, houts.2⟩

/-- The keys at one place of the two histories. -/
def Aligned (v v' : PiiVault) (reqs reqs' : List Request) (k k' : Key) : Prop :=
  ∃ p ∈ reqs.zip reqs', v.keyOf p.1 = k ∧ v'.keyOf p.2 = k'

theorem keyOf_of_triple {r r' : Request} (h : v.triple r = v.triple r') :
    v.keyOf r = v.keyOf r' := by
  obtain ⟨hw, hkind, hvalue⟩ : r.workspaceId = r'.workspaceId ∧ r.kind = r'.kind ∧
      v.normalized r = v.normalized r' := by
    simpa [PiiVault.triple] using h
  unfold PiiVault.keyOf
  rw [hw, hkind, hvalue]

/-- Where nothing collides, what is asked for at one place has keys that stand for each other. -/
theorem aligned_renames {reqs reqs' : List Request}
    (hcounters : reqs.map counterOf = reqs'.map counterOf) (hsame : SamePattern v v' reqs reqs')
    (hcol : CollisionFree v reqs) (hcol' : CollisionFree v' reqs') :
    Renames (Aligned v v' reqs reqs') := by
  have halike : ∀ p ∈ reqs.zip reqs', counterOf p.1 = counterOf p.2 := by
    rw [← List.forall₂_eq_eq_eq, List.forall₂_map_left_iff, List.forall₂_map_right_iff] at hcounters
    exact fun p hp => List.forall₂_zip hcounters hp
  constructor
  · rintro _ _ ⟨p, hp, rfl, rfl⟩
    exact (Prod.mk.inj (halike p hp)).1
  · rintro _ _ ⟨p, hp, rfl, rfl⟩
    exact (Prod.mk.inj (halike p hp)).2
  · rintro _ _ _ _ ⟨p, hp, rfl, rfl⟩ ⟨q, hq, rfl, rfl⟩
    obtain ⟨hp₁, hp₂⟩ := List.of_mem_zip hp
    obtain ⟨hq₁, hq₂⟩ := List.of_mem_zip hq
    constructor
    · exact fun h => keyOf_of_triple ((hsame p hp q hq).mp (hcol.triple_eq hp₁ hq₁ h))
    · exact fun h => keyOf_of_triple ((hsame p hp q hq).mpr (hcol'.triple_eq hp₂ hq₂ h))

end Histories

/-- **What comes out** says where which kind of value stands, and which of them coincide: not what
they are, nor which secrets and IVs the vault used. -/
theorem outputs_blind {ρ ρ' : Type} (u : UnicodeClasses) {v v' : PiiVault} {draw : ρ → Bytes × ρ}
    {draw' : ρ' → Bytes × ρ'} {jobs jobs' : List Job}
    (hmask : jobs.map (Job.mask u) = jobs'.map (Job.mask u))
    (hsame : SamePattern v v' (jobs.flatMap (Job.requests u)) (jobs'.flatMap (Job.requests u)))
    (hcol : CollisionFree v (jobs.flatMap (Job.requests u)))
    (hcol' : CollisionFree v' (jobs'.flatMap (Job.requests u)))
    (henc : Encrypts v draw (jobs.flatMap (Job.requests u)))
    (henc' : Encrypts v' draw' (jobs'.flatMap (Job.requests u))) (rng : ρ) (rng' : ρ') :
    (sanitizeAll u v draw jobs (VaultDb.empty, rng)).map Prod.fst
      = (sanitizeAll u v' draw' jobs' (VaultDb.empty, rng')).map Prod.fst := by
  have hR := aligned_renames (histories_counters hmask) hsame hcol hcol'
  have hempty : SameTokens (Aligned v v' (jobs.flatMap (Job.requests u))
      (jobs'.flatMap (Job.requests u))) VaultDb.empty VaultDb.empty := ⟨rfl, .nil⟩
  have hrel := @sanitizeAll_related _ _ u v v' draw draw' _ hR _ _ hmask
    (fun p hp => ⟨p, hp, rfl, rfl⟩) henc henc' (VaultDb.empty, rng) (VaultDb.empty, rng') hempty
  exact map_eq_of_rel hrel fun out out' hout => hout.1

/-! ## Two addresses in two texts -/

/-- Two texts with the addresses, of which the first one stands in both. -/
def addressJobs (first second : String) : List Job :=
  [⟨Uuid.ofDigit 1, [], ("de " ++ first).toList⟩,
    ⟨Uuid.ofDigit 1, [], (second ++ " ou " ++ first).toList⟩]

/-- Two IVs by turns. -/
def byTurns (odd : Bool) : Bytes × Bool := (List.replicate 12 (if odd then 1 else 3), !odd)

def addressRequest (address : String) : Request := ⟨Uuid.ofDigit 1, .email, address, []⟩

theorem requests_addressJobs :
    (addressJobs "a@b.fr" "c@d.fr").flatMap (Job.requests asciiClasses)
        = ["a@b.fr", "c@d.fr", "a@b.fr"].map addressRequest ∧
      (addressJobs "c@d.fr" "a@b.fr").flatMap (Job.requests asciiClasses)
        = ["c@d.fr", "a@b.fr", "c@d.fr"].map addressRequest := by
  decide +kernel

example : (sanitizeAll asciiClasses sampleVault byTurns (addressJobs "a@b.fr" "c@d.fr")
    (VaultDb.empty, true)).map Prod.fst
      = some ["de PII_EMAIL_1".toList, "PII_EMAIL_2 ou PII_EMAIL_1".toList] := by
  decide +kernel

theorem addresses_encrypted {reqs : List Request}
    (hreqs : ∀ req ∈ reqs, req = addressRequest "a@b.fr" ∨ req = addressRequest "c@d.fr") :
    Encrypts sampleVault byTurns reqs := by
  intro req hreq odd
  rcases hreqs req hreq with rfl | rfl <;> cases odd <;> exact exists_ok_of_isSome (by decide)

/-- Which address is which does not show. -/
theorem addresses_blind :
    (sanitizeAll asciiClasses sampleVault byTurns (addressJobs "a@b.fr" "c@d.fr")
        (VaultDb.empty, true)).map Prod.fst
      = (sanitizeAll asciiClasses sampleVault byTurns (addressJobs "c@d.fr" "a@b.fr")
        (VaultDb.empty, false)).map Prod.fst := by
  obtain ⟨hreqs, hreqs'⟩ := requests_addressJobs
  apply outputs_blind asciiClasses
  · decide +kernel
  · rw [hreqs, hreqs']
    unfold SamePattern
    decide
  · rw [hreqs]
    unfold CollisionFree
    decide
  · rw [hreqs']
    unfold CollisionFree
    decide
  · rw [hreqs]
    exact addresses_encrypted (by simp)
  · rw [hreqs']
    exact addresses_encrypted (by simp)

end McpGateway.Sanitize
