import McpGateway.Deployment.Provenance
import McpGateway.Rotation.Embeddings
import McpGateway.Rotation.WireFormat

/-! # Changing the content key under a running gateway

The key rotation rewrites the table batch by batch while the gateway serves, and at some point the
gateway is deployed with the new key. The system of this file runs both on one table.

* `Parallel` — the history beside the same history without the rotation.
* `rotation_unnoticed` — callers get the same in both, but for texts that are missing as long as
  the key of the gateway is not that of the contents. -/

namespace McpGateway.Deployment

open Foundation Gateway

/-! ## The system -/

/-- A call that was answered. -/
structure ServedCall where
  inv : Invocation
  answer : Except Throwable ToolResult
  /-- whether the contents were all under the key of the gateway -/
  settled : Bool

structure Changeover where
  gateway : GatewayState
  /-- whether the gateway was last deployed with the new key -/
  renewed : Bool
  run : Option (Rotation.Args × Rotation.Phase)
  rotated : Bool
  /-- every call so far; not part of the programs -/
  answered : List ServedCall

inductive ChangeAction where
  | invoke (inv : Invocation)
  | rotate (a : Rotation.RotationAction)
  /-- the gateway starts with the new key or the old one, and its `EmbeddingInitializer` runs -/
  | deploy (renewed : Bool) (embed : String → Option Vector32)

def Changeover.contentKey (c : Changeover) (keys : Rotation.Keys) : Rotation.Key :=
  if c.renewed then keys.new else keys.old

/-- With the old key before any rotation has been started, with the new one after one has completed. -/
def Changeover.settled (c : Changeover) : Bool := if c.renewed then c.rotated else c.run.isNone

def Changeover.rotation (c : Changeover) : Rotation.RotationState :=
  ⟨c.gateway.db.chunks, c.run, c.rotated⟩

/-- The rows the connection of the initializer reaches. -/
def initializerAccess (p : Platform) (db : Database) : Rotation.Access :=
  if p.rlsEnforced then Rotation.accessOf db.grants Rotation.initializerSettings else .all

/-- What starting the gateway makes of the table. -/
def startup (p : Platform) (embed : String → Option Vector32) (db : Database) : Option Database := do
  let table ← Rotation.onApplicationEvent (initializerAccess p db) embed db.chunks
  withChunks db table

def serve (p : Platform) (keys : Rotation.Keys) (c : Changeover) (inv : Invocation) : Changeover :=
  let p' := p.withKey (c.contentKey keys).bytes
  { c with
    gateway := after p' inv c.gateway
    answered := c.answered ++ [⟨inv, answer p' inv c.gateway, c.settled⟩] }

def rotate (job : Rotation.Job) (c : Changeover) (a : Rotation.RotationAction) :
    Option Changeover := do
  let r ← c.rotation.step job a
  let db ← withChunks c.gateway.db r.table
  some { c with gateway := ⟨db, c.gateway.conn⟩, run := r.run, rotated := r.rotated }

def Changeover.start (g : GatewayState) : Changeover := ⟨g, false, none, false, []⟩

/-- The gateway, the rotation and the deployments. -/
def changeover (p : Platform) (job : Rotation.Job) : System Changeover ChangeAction where
  init c := ∃ g, c = .start g
  step c
    | .invoke inv => some (serve p job.keys c inv)
    | .rotate a => rotate job c a
    | .deploy renewed embed => (startup p embed c.gateway.db).map fun db =>
        { c with gateway := ⟨db, ⟨none, none⟩⟩, renewed := renewed }

/-- No run is started with `--reembed`. -/
def ContentsOnly (_ : Changeover) : ChangeAction → Prop
  | .rotate (.start args) => args.reembed = false
  | _ => True

/-- The history without the rotation; every deployment is with the old key. -/
def unrotated : ChangeAction → Option ChangeAction
  | .invoke inv => some (.invoke inv)
  | .rotate _ => none
  | .deploy _ embed => some (.deploy false embed)

/-! ## What callers notice -/

/-- The same text, or none. -/
def OrMissing (t t' : JString) : Prop := t' = t ∨ t' = []

/-- What a call gets beside what it would have got. -/
structure Unnoticed (a a' : ServedCall) : Prop where
  inv : a'.inv = a.inv
  missing : Act.Outcomes (Resembles OrMissing) (fun e e' => e = e') a.answer a'.answer
  settled : a'.settled = true → a'.answer = a.answer

/-! ## Texts -/

section Texts

variable {p : Platform} {aead : Rotation.Aead} {keys : Rotation.Keys}

/-- The gateway decrypts with the library of the rotation. -/
def SameCipher (p : Platform) (aead : Rotation.Aead) : Prop :=
  ∀ (key : Rotation.Key) iv sealed, p.aesGcmDecrypt key.bytes iv sealed = aead.openInPlace key iv sealed

/-- The text of a content that opens, or does not. -/
def openedText : Option Bytes → JString
  | some plain => (decodeUtf8 plain).take maxFragmentChars
  | none => []

theorem length_of_opens {key : Rotation.Key} {wire plain : Bytes}
    (h : Rotation.opens aead key wire = some plain) : Rotation.minLen ≤ wire.length := by
  unfold Rotation.opens Rotation.decrypt at h
  split_ifs at h with hshort
  · cases h
  · exact Nat.le_of_not_lt hshort

theorem textOf_content (hcipher : SameCipher p aead) {key : Rotation.Key} {row : DocumentChunk}
    {wire : Bytes} (hrow : row.encryptedContent = some wire)
    (hlong : Rotation.minLen ≤ wire.length) :
    textOf (p.withKey key.bytes) row = openedText (Rotation.opens aead key wire) := by
  have hmin : Rotation.minLen = 28 := rfl
  have hiv : ¬ wire.length < ivLengthBytes := by
    have hlen : ivLengthBytes = 12 := rfl
    omega
  have hopen : (p.withKey key.bytes).aesGcmDecrypt (p.withKey key.bytes).contentKey
      (wire.take ivLengthBytes) (wire.drop ivLengthBytes)
        = aead.openInPlace key (wire.take Rotation.ivLen) (wire.drop Rotation.ivLen) :=
    hcipher key _ _
  unfold textOf chunkText Gateway.decrypt Rotation.opens Rotation.decrypt
  rw [hrow]
  dsimp only
  rw [if_neg hiv, if_neg (Nat.not_lt.mpr hlong), hopen]
  cases aead.openInPlace key (wire.take Rotation.ivLen) (wire.drop Rotation.ivLen) <;> rfl

theorem textOf_preview {k k' : Bytes} {row row' : DocumentChunk} (hrow : row.encryptedContent = none)
    (hrow' : row'.encryptedContent = none) (hpreview : row'.textPreview = row.textPreview) :
    textOf (p.withKey k') row' = textOf (p.withKey k) row := by
  unfold textOf chunkText
  rw [hrow, hrow', hpreview]

/-- The contents are under the old key. -/
def UnderOld (aead : Rotation.Aead) (keys : Rotation.Keys) (rows : List DocumentChunk) : Prop :=
  ∀ row ∈ rows, ∀ wire, row.encryptedContent = some wire →
    ∃ plain, Rotation.Encrypts aead keys.old plain wire

theorem no_content {row₀ row : DocumentChunk} (h : Rotation.KeepsPlaintext aead keys row₀ row)
    (hrow : row₀.encryptedContent = none) : row.encryptedContent = none := by
  have hsome := h.encrypted
  rw [hrow] at hsome
  simpa using hsome

/-- A row under the old key, and what the rotation has made of it. -/
theorem texts_kept (hc : aead.Correct keys) (hcipher : SameCipher p aead) {row₀ row : DocumentChunk}
    (hold : ∀ wire, row₀.encryptedContent = some wire →
      ∃ plain, Rotation.Encrypts aead keys.old plain wire)
    (hkeeps : Rotation.KeepsPlaintext aead keys row₀ row)
    (hpreview : row.textPreview = row₀.textPreview) (key : Rotation.Key)
    (hkey : key = keys.old ∨ key = keys.new) :
    OrMissing (textOf (p.withKey keys.old.bytes) row₀) (textOf (p.withKey key.bytes) row) := by
  cases hcontent : row₀.encryptedContent with
  | none =>
      exact Or.inl (textOf_preview hcontent (no_content hkeeps hcontent) hpreview)
  | some wire₀ =>
      obtain ⟨plain, henc⟩ := hold wire₀ hcontent
      obtain ⟨wire, hwire, hone⟩ := hkeeps.plain plain ⟨wire₀, hcontent, Or.inl henc⟩
      have hopen₀ := Rotation.opens_of_encrypts hc henc
      have hlong : Rotation.minLen ≤ wire.length := by
        rcases hone with ⟨h, -⟩ | ⟨h, -⟩
        · exact length_of_opens h
        · exact length_of_opens h
      unfold OrMissing
      rw [textOf_content hcipher hcontent (length_of_opens hopen₀), hopen₀,
        textOf_content hcipher hwire hlong]
      rcases hone with ⟨hopen, hclosed⟩ | ⟨hopen, hclosed⟩ <;> rcases hkey with rfl | rfl
      · exact Or.inl (by rw [hopen])
      · exact Or.inr (by rw [hclosed]; rfl)
      · exact Or.inr (by rw [hclosed]; rfl)
      · exact Or.inl (by rw [hopen])

/-- The same when the row is under the new key and the gateway has it. -/
theorem texts_rotated (hc : aead.Correct keys) (hcipher : SameCipher p aead)
    {row₀ row : DocumentChunk}
    (hold : ∀ wire, row₀.encryptedContent = some wire →
      ∃ plain, Rotation.Encrypts aead keys.old plain wire)
    (hkeeps : Rotation.KeepsPlaintext aead keys row₀ row)
    (hnew : Rotation.RowUnderNew (Rotation.unrestricted aead keys) row)
    (hpreview : row.textPreview = row₀.textPreview) :
    textOf (p.withKey keys.old.bytes) row₀ = textOf (p.withKey keys.new.bytes) row := by
  cases hcontent : row₀.encryptedContent with
  | none => exact (textOf_preview hcontent (no_content hkeeps hcontent) hpreview).symm
  | some wire₀ =>
      obtain ⟨plain, henc⟩ := hold wire₀ hcontent
      obtain ⟨wire, hwire, hone⟩ := hkeeps.plain plain ⟨wire₀, hcontent, Or.inl henc⟩
      have hopen₀ := Rotation.opens_of_encrypts hc henc
      obtain ⟨plain', hopen⟩ : ∃ plain', Rotation.opens aead keys.new wire = some plain' :=
        hnew wire hwire
      have heq : plain' = plain := hone.plain_eq (Or.inr hopen)
      rw [textOf_content hcipher hcontent (length_of_opens hopen₀), hopen₀,
        textOf_content hcipher hwire (length_of_opens hopen), hopen, heq]

end Texts

/-! ## The same tables but for contents -/

theorem withChunks_chunks {db d : Database} {rows : List DocumentChunk}
    (h : withChunks db rows = some d) : d.chunks = rows := by
  unfold withChunks at h
  split_ifs at h
  cases h
  rfl

theorem withChunks_self (db : Database) : withChunks db db.chunks = some db := by
  unfold withChunks
  rw [dif_pos ⟨db.chunks_pk, db.chunks_fit⟩]

theorem eq_of_rest {db db' : Database} (hdb : db.withoutContents = db'.withoutContents)
    (hchunks : db.chunks = db'.chunks) : db = db' := by
  cases db
  cases db'
  simp only [Database.withoutContents, Database.mk.injEq] at hdb hchunks ⊢
  exact ⟨hchunks, hdb.2⟩

/-- The server's checks do not look at contents. -/
theorem withChunks_rest {db d db' : Database} {rows rows' : List DocumentChunk}
    (h : withChunks db rows = some d) (hdb : db.withoutContents = db'.withoutContents)
    (hrows : rows.map withoutContent = rows'.map withoutContent) :
    ∃ d', withChunks db' rows' = some d' ∧ d.withoutContents = d'.withoutContents := by
  unfold withChunks at h
  split_ifs at h with hok
  cases h
  have hpk : (rows'.map DocumentChunk.id).Nodup := by
    rw [← ids_withoutContent rows', ← hrows, ids_withoutContent]
    exact hok.1
  have hfit : ∀ row ∈ rows', ChunkFits row := by
    intro row hrow
    have hmem : withoutContent row ∈ rows.map withoutContent :=
      hrows ▸ List.mem_map_of_mem hrow
    exact (fits_withoutContent hok.2 _ hmem :)
  refine ⟨{ db' with chunks := rows', chunks_pk := hpk, chunks_fit := hfit }, ?_, ?_⟩
  · unfold withChunks
    rw [dif_pos ⟨hpk, hfit⟩]
  · simp only [Database.withoutContents, Database.mk.injEq] at hdb ⊢
    exact ⟨hrows, hdb.2⟩

/-- Starting the gateway does not depend on contents. -/
theorem startup_rest {p : Platform} {embed : String → Option Vector32} {db db' d : Database}
    (h : startup p embed db = some d) (hdb : db.withoutContents = db'.withoutContents) :
    ∃ d', startup p embed db' = some d' ∧ d.withoutContents = d'.withoutContents := by
  have hchunks : db.chunks.map withoutContent = db'.chunks.map withoutContent :=
    (congrArg Database.chunks hdb :)
  have hgrants : db.grants = db'.grants := (congrArg Database.grants hdb :)
  obtain ⟨table, htable, h⟩ := Option.bind_eq_some_iff.mp h
  have haccess : initializerAccess p db' = initializerAccess p db := by
    unfold initializerAccess
    rw [hgrants]
  have hrows := congrArg (Option.map (List.map withoutContent)) htable
  rw [Rotation.onApplicationEvent_map, hchunks, ← Rotation.onApplicationEvent_map,
    Option.map_some] at hrows
  obtain ⟨table', htable', hsame⟩ := Option.map_eq_some_iff.mp hrows
  obtain ⟨d', hd', hrest⟩ := withChunks_rest h hdb hsame.symm
  refine ⟨d', ?_, hrest⟩
  unfold startup
  rw [haccess, htable']
  exact hd'

theorem startup_chunks {p : Platform} {embed : String → Option Vector32} {db d : Database}
    (h : startup p embed db = some d) :
    ∃ f, d.chunks = db.chunks.map f ∧ ∀ row, Rotation.OnlyEmbedding row (f row) := by
  obtain ⟨table, htable, h⟩ := Option.bind_eq_some_iff.mp h
  obtain ⟨f, rfl, hf⟩ := Rotation.backfill_onlyEmbedding htable
  exact ⟨f, withChunks_chunks h, hf⟩

/-! ## The two histories -/

section Histories

variable {p : Platform} {aead : Rotation.Aead} {keys : Rotation.Keys} {q c : Changeover}

/-- The history without the rotation, `q`, beside the history with it. -/
structure Parallel (aead : Rotation.Aead) (keys : Rotation.Keys) (q c : Changeover) : Prop where
  kept : q.renewed = false
  quiet : q.run = none
  old : UnderOld aead keys q.gateway.db.chunks
  rest : q.gateway.db.withoutContents = c.gateway.db.withoutContents
  rotation : Rotation.RotationInv (Rotation.unrestricted aead keys) q.gateway.db.chunks c.rotation
  untouched : c.run = none → c.gateway.db.chunks = q.gateway.db.chunks
  contents : c.rotation.ContentsOnly
  answered : List.Forall₂ Unnoticed q.answered c.answered

theorem Parallel.start {g : GatewayState} (hc : aead.Correct keys)
    (hold : UnderOld aead keys g.db.chunks) : Parallel aead keys (.start g) (.start g) where
  kept := rfl
  quiet := rfl
  old := hold
  rest := rfl
  rotation := by
    refine ⟨?_, g.db.chunks_pk, fun _ _ h => (by cases h), fun h => (by cases h)⟩
    exact List.forall₂_same.mpr fun row _ => Rotation.keepsPlaintext_refl hc row
  untouched := fun _ => rfl
  contents := fun _ _ h => by cases h
  answered := .nil

/-- Rows of one id in two tables are related as the tables are. -/
theorem related_of_id {R : DocumentChunk → DocumentChunk → Prop} {rows rows' : List DocumentChunk}
    (h : List.Forall₂ R rows rows') (hid : ∀ row row', R row row' → row'.id = row.id)
    (hnodup : (rows'.map DocumentChunk.id).Nodup) {row row' : DocumentChunk} (hrow : row ∈ rows)
    (hrow' : row' ∈ rows') (heq : row.id = row'.id) : R row row' := by
  obtain ⟨row'', hmem, hR⟩ := Rotation.forall₂_mem_left h hrow
  have hsame : row'' = row' := Rotation.row_unique hnodup hmem hrow' ((hid _ _ hR).trans heq)
  rw [← hsame]
  exact hR

/-- The rows of one id in the two histories. -/
theorem Parallel.rows (h : Parallel aead keys q c) {row row' : DocumentChunk}
    (hrow : row ∈ q.gateway.db.chunks) (hrow' : row' ∈ c.gateway.db.chunks)
    (hid : row.id = row'.id) :
    Rotation.KeepsPlaintext aead keys row row' ∧ row'.textPreview = row.textPreview := by
  have hmap : q.gateway.db.chunks.map withoutContent = c.gateway.db.chunks.map withoutContent :=
    (congrArg Database.chunks h.rest :)
  have hrest : List.Forall₂ (fun a b => withoutContent a = withoutContent b)
      q.gateway.db.chunks c.gateway.db.chunks := by
    rw [← List.forall₂_map_right_iff (f := withoutContent) (R := fun a b => withoutContent a = b),
      ← List.forall₂_map_left_iff (f := withoutContent) (R := fun a b => a = b),
      List.forall₂_eq_eq_eq]
    exact hmap
  have hpk := c.gateway.db.chunks_pk
  refine ⟨related_of_id h.rotation.rows (fun _ _ hk => hk.id) hpk hrow hrow' hid, ?_⟩
  have hsame := related_of_id hrest (fun _ _ hw => (congrArg DocumentChunk.id hw.symm :)) hpk hrow
    hrow' hid
  exact (congrArg DocumentChunk.textPreview hsame.symm :)

/-- The texts the two gateways make of the two tables. -/
theorem Parallel.sameButContents (hc : aead.Correct keys) (hcipher : SameCipher p aead)
    (h : Parallel aead keys q c) : SameButContents OrMissing (p.withKey keys.old.bytes)
      (p.withKey (c.contentKey keys).bytes) q.gateway.db c.gateway.db where
  rest := h.rest
  texts := by
    intro row hrow row' hrow' hid
    obtain ⟨hkeeps, hpreview⟩ := h.rows hrow hrow' hid
    apply texts_kept hc hcipher (h.old row hrow) hkeeps hpreview
    unfold Changeover.contentKey
    split_ifs
    · exact Or.inr rfl
    · exact Or.inl rfl

/-- They are the same when the key of the gateway is that of the contents. -/
theorem Parallel.same_of_settled (hc : aead.Correct keys) (hcipher : SameCipher p aead)
    (h : Parallel aead keys q c) (hsettled : c.settled = true) :
    SameButContents (fun t t' => t = t') (p.withKey keys.old.bytes)
      (p.withKey (c.contentKey keys).bytes) q.gateway.db c.gateway.db where
  rest := h.rest
  texts := by
    intro row hrow row' hrow' hid
    unfold Changeover.settled at hsettled
    unfold Changeover.contentKey
    split_ifs at hsettled ⊢ with hrenewed
    · -- a rotation is complete
      obtain ⟨hkeeps, hpreview⟩ := h.rows hrow hrow' hid
      exact texts_rotated hc hcipher (h.old row hrow) hkeeps (h.rotation.rotated hsettled row' hrow')
        hpreview
    · -- none has been started
      have hsame := h.untouched (Option.isNone_iff_eq_none.mp hsettled)
      rw [hsame] at hrow'
      rw [Rotation.row_unique q.gateway.db.chunks_pk hrow hrow' hid]

/-! ## Steps -/

/-- **A call**, in both histories. -/
theorem Parallel.serve (hc : aead.Correct keys) (hcipher : SameCipher p aead)
    (h : Parallel aead keys q c) (inv : Invocation) :
    Parallel aead keys (serve p keys q inv) (serve p keys c inv) := by
  have hkey : q.contentKey keys = keys.old := by
    unfold Changeover.contentKey
    rw [h.kept]
    rfl
  obtain ⟨hmissing, hafter⟩ := answers_related (T := OrMissing) (Or.inl rfl)
    (h.sameButContents hc hcipher) inv
  have hq := (after_frame (p.withKey (q.contentKey keys).bytes) inv q.gateway).chunks
  have hchunks := (after_frame (p.withKey (c.contentKey keys).bytes) inv c.gateway).chunks
  refine ⟨h.kept, h.quiet, ?_, ?_, ?_, ?_, ?_, ?_⟩
  · show UnderOld aead keys (after _ inv q.gateway).db.chunks
    rw [hq]
    exact h.old
  · show (after _ inv q.gateway).db.withoutContents = (after _ inv c.gateway).db.withoutContents
    rw [hkey]
    exact hafter.rest
  · show Rotation.RotationInv _ (after _ inv q.gateway).db.chunks
      ⟨(after _ inv c.gateway).db.chunks, c.run, c.rotated⟩
    rw [hq, hchunks]
    exact h.rotation
  · intro hrun
    show (after _ inv c.gateway).db.chunks = (after _ inv q.gateway).db.chunks
    rw [hq, hchunks]
    exact h.untouched hrun
  · exact h.contents
  · refine List.rel_append h.answered (.cons ⟨rfl, ?_, ?_⟩ .nil)
    · rw [hkey]
      exact hmissing
    · intro hsettled
      obtain ⟨hsame, -⟩ := answers_related (T := fun t t' => t = t') rfl
        (h.same_of_settled hc hcipher hsettled) inv
      rw [hkey]
      exact (hsame.mono fun _ _ hr => hr.eq.symm).eq.symm

/-- **A statement of the rotation**, in one of them. -/
theorem Parallel.rotate (hc : aead.Correct keys) (h : Parallel aead keys q c)
    {a : Rotation.RotationAction} (ha : ContentsOnly c (.rotate a)) {c' : Changeover}
    (hs : rotate (Rotation.unrestricted aead keys) c a = some c') : Parallel aead keys q c' := by
  obtain ⟨r, hr, hs⟩ := Option.bind_eq_some_iff.mp hs
  obtain ⟨db, hdb, hs⟩ := Option.bind_eq_some_iff.mp hs
  cases hs
  have hstart : ∀ args, a = .start args → args.reembed = false := by
    rintro args rfl
    exact ha
  obtain ⟨hcontents, hrest⟩ := Rotation.RotationState.step_rest h.contents hstart hr
  have hrotation := h.rotation.step hc (Rotation.reach_unrestricted aead keys) hr
  obtain ⟨d, hd, hsame⟩ := withChunks_rest hdb rfl hrest
  rw [show c.rotation.table = c.gateway.db.chunks from rfl, withChunks_self] at hd
  cases hd
  have hchunks := withChunks_chunks hdb
  have hstate : Changeover.rotation { c with
      gateway := ⟨db, c.gateway.conn⟩
      run := r.run
      rotated := r.rotated } = r := by
    unfold Changeover.rotation
    rw [hchunks]
  refine ⟨h.kept, h.quiet, h.old, h.rest.trans hsame.symm, ?_, ?_, ?_, h.answered⟩
  · rw [hstate]
    exact hrotation
  · intro hrun
    have hsome := Rotation.RotationState.step_started hr
    rw [show r.run = none from hrun] at hsome
    cases hsome
  · rw [hstate]
    exact hcontents

/-- **A deployment**, in both histories. -/
theorem Parallel.deploy (h : Parallel aead keys q c) (renewed : Bool)
    {embed : String → Option Vector32} {db : Database}
    (hs : startup p embed c.gateway.db = some db) :
    ∃ db', startup p embed q.gateway.db = some db' ∧
      Parallel aead keys { q with gateway := ⟨db', ⟨none, none⟩⟩, renewed := false }
        { c with gateway := ⟨db, ⟨none, none⟩⟩, renewed := renewed } := by
  obtain ⟨db', hdb', hrest⟩ := startup_rest hs h.rest.symm
  obtain ⟨f, hf, honly⟩ := startup_chunks hs
  obtain ⟨f', hf', honly'⟩ := startup_chunks hdb'
  refine ⟨db', hdb', rfl, h.quiet, ?_, hrest.symm, ?_, ?_, h.contents, h.answered⟩
  · show UnderOld aead keys db'.chunks
    rw [hf']
    intro row' hrow' wire hwire
    obtain ⟨row, hrow, rfl⟩ := List.mem_map.mp hrow'
    obtain ⟨e, he⟩ := honly' row
    rw [he] at hwire
    exact h.old row hrow wire hwire
  · show Rotation.RotationInv _ db'.chunks ⟨db.chunks, c.run, c.rotated⟩
    rw [hf, hf']
    exact h.rotation.embedded honly' honly
  · intro hrun
    rw [eq_of_rest h.rest.symm (h.untouched hrun), hdb'] at hs
    cases hs
    rfl

end Histories

/-! ## Whole histories -/

/-- **Nobody notices the rotation.** Take the rotation out of a history of calls, rotation runs that may
be killed at any statement, and deployments with either key, and deploy with the old key throughout:
every call gets the same, but for texts that are missing while the key of the gateway is not that of
the contents, and the tables end the same but for contents. -/
theorem rotation_unnoticed {p : Platform} {aead : Rotation.Aead} {keys : Rotation.Keys}
    (hc : aead.Correct keys) (hcipher : SameCipher p aead) {g : GatewayState}
    (hold : UnderOld aead keys g.db.chunks) {as : List ChangeAction} {c : Changeover}
    (h : (changeover p (Rotation.unrestricted aead keys)).Steps ContentsOnly (.start g) as c) :
    ∃ q, (changeover p (Rotation.unrestricted aead keys)).Steps System.anyStep (.start g)
        (as.filterMap unrotated) q ∧
      List.Forall₂ Unnoticed q.answered c.answered ∧
      q.gateway.db.withoutContents = c.gateway.db.withoutContents := by
  have hskip : ∀ q c a c', Parallel aead keys q c → ContentsOnly c a →
      (changeover p (Rotation.unrestricted aead keys)).step c a = some c' → unrotated a = none →
      Parallel aead keys q c' := by
    intro q c a c' hpar ha hs herase
    cases a with
    | rotate a => exact hpar.rotate hc ha hs
    | invoke inv => cases herase
    | deploy renewed embed => cases herase
  have hfollow : ∀ q c a c' b, Parallel aead keys q c → ContentsOnly c a →
      (changeover p (Rotation.unrestricted aead keys)).step c a = some c' → unrotated a = some b →
      ∃ q', (changeover p (Rotation.unrestricted aead keys)).step q b = some q' ∧
        Parallel aead keys q' c' := by
    intro q c a c' b hpar _ hs herase
    cases a with
    | rotate a => cases herase
    | invoke inv =>
        cases herase
        cases hs
        exact ⟨_, rfl, hpar.serve hc hcipher inv⟩
    | deploy renewed embed =>
        cases herase
        obtain ⟨db, hdb, rfl⟩ := Option.map_eq_some_iff.mp hs
        obtain ⟨db', hdb', hpar'⟩ := hpar.deploy renewed hdb
        refine ⟨_, ?_, hpar'⟩
        show (startup p embed q.gateway.db).map _ = _
        rw [hdb']
        rfl
  obtain ⟨q, hq, hpar⟩ := h.erased hskip hfollow (Parallel.start hc hold)
  exact ⟨q, hq, hpar.answered, hpar.rest⟩

/-- Calls made while everything is under the key of the gateway get the same. -/
theorem answers_eq {as as' : List ServedCall} (h : List.Forall₂ Unnoticed as as')
    (hsettled : ∀ a' ∈ as', a'.settled = true) :
    as'.map ServedCall.answer = as.map ServedCall.answer := by
  induction h with
  | nil => rfl
  | @cons a a' as as' ha _ ih =>
      rw [List.map_cons, List.map_cons, ha.settled (hsettled a' List.mem_cons_self),
        ih fun b hb => hsettled b (List.mem_cons_of_mem _ hb)]

/-! ## A concrete history -/

theorem rotate_some {job : Rotation.Job} {c : Changeover} {a : Rotation.RotationAction}
    {r : Rotation.RotationState} (hcontents : c.rotation.ContentsOnly)
    (ha : ContentsOnly c (.rotate a)) (hr : c.rotation.step job a = some r) :
    ∃ c', rotate job c a = some c' ∧ c'.rotation = r ∧ c'.renewed = c.renewed ∧
      c'.answered = c.answered := by
  have hstart : ∀ args, a = .start args → args.reembed = false := by
    rintro args rfl
    exact ha
  obtain ⟨-, hrest⟩ := Rotation.RotationState.step_rest hcontents hstart hr
  obtain ⟨db, hdb, -⟩ := withChunks_rest (withChunks_self c.gateway.db) rfl hrest.symm
  refine ⟨{ c with gateway := ⟨db, c.gateway.conn⟩, run := r.run, rotated := r.rotated }, ?_, ?_,
    rfl, rfl⟩
  · unfold rotate
    rw [hr]
    dsimp only [Option.bind_eq_bind, Option.bind_some]
    rw [hdb]
    rfl
  · unfold Changeover.rotation
    rw [withChunks_chunks hdb]

/-- The server refuses nothing that a rotation does. -/
theorem rotation_lifts (p : Platform) {job : Rotation.Job} {table₀ : Rotation.Table}
    {as : List Rotation.RotationAction} {c : Changeover} {r : Rotation.RotationState}
    (hcontents : c.rotation.ContentsOnly) (has : ∀ a ∈ as, ContentsOnly c (.rotate a))
    (h : (Rotation.rotations job table₀).Steps System.anyStep c.rotation as r) :
    ∃ c', (changeover p job).Steps ContentsOnly c (as.map .rotate) c' ∧ c'.rotation = r ∧
      c'.renewed = c.renewed ∧ c'.answered = c.answered := by
  induction as generalizing c with
  | nil =>
      cases h
      exact ⟨c, .nil c, rfl, rfl, rfl⟩
  | cons a as ih =>
      cases h with
      | @cons _ u _ _ _ _ hu h =>
          have ha := has a List.mem_cons_self
          obtain ⟨c₁, hc₁, rfl, hrenewed₁, hanswered₁⟩ := rotate_some hcontents ha hu
          have hstart : ∀ args, a = .start args → args.reembed = false := by
            rintro args rfl
            exact ha
          obtain ⟨hcontents₁, -⟩ := Rotation.RotationState.step_rest hcontents hstart hu
          obtain ⟨c', hc', hr, hrenewed, hanswered⟩ :=
            ih hcontents₁ (fun b hb => has b (List.mem_cons_of_mem _ hb)) h
          exact ⟨c', .cons ha hc₁ hc', hr, hrenewed.trans hrenewed₁, hanswered.trans hanswered₁⟩

/-- A start with an embedding model that is not warmed up. -/
theorem startup_cold (p : Platform) (db : Database) :
    startup p (fun _ => none) db = some db := by
  have hnone : ∀ access pending, Rotation.backfill access (fun _ => none) pending db.chunks
      = some db.chunks := by
    intro access pending
    induction pending with
    | nil => rfl
    | cons row pending ih =>
        unfold Rotation.backfill
        split
        · exact ih
        · split_ifs <;> exact ih
  unfold startup Rotation.onApplicationEvent
  rw [hnone]
  exact withChunks_self db

theorem sampleTable_fits : ∀ row ∈ Rotation.sampleTable, ChunkFits row := by decide

def twoDocuments : GatewayState :=
  ⟨databaseOf Rotation.sampleTable Rotation.sampleTable_encrypted.nodup sampleTable_fits,
    ⟨none, none⟩⟩

theorem twoDocuments_old : UnderOld Rotation.sampleAead Rotation.sampleKeys twoDocuments.db.chunks := by
  intro row hrow wire hwire
  have hsample : row.encryptedContent = some Rotation.sampleWire := by
    rcases List.mem_cons.mp hrow with rfl | hrow
    · rfl
    · rw [List.mem_singleton.mp hrow]
      rfl
  rw [hsample] at hwire
  cases hwire
  exact ⟨asBytes "hello", Rotation.encrypts_sampleWire⟩

/-- A rotation that is killed and run again, a deployment with the new key, and a search. -/
def sampleChange : List ChangeAction :=
  Rotation.sampleHistory.map .rotate ++ [.deploy true fun _ => none, .invoke helloSearch]

/-- The search finds what it would have found without the rotation. -/
theorem sample_unnoticed : ∃ q c : Changeover,
    (changeover Rotation.sampleGateway (Rotation.unrestricted Rotation.sampleAead
      Rotation.sampleKeys)).Steps ContentsOnly (.start twoDocuments) sampleChange c ∧
    (changeover Rotation.sampleGateway (Rotation.unrestricted Rotation.sampleAead
      Rotation.sampleKeys)).Steps System.anyStep (.start twoDocuments)
        [.deploy false fun _ => none, .invoke helloSearch] q ∧
    c.answered.map ServedCall.settled = [true] ∧
    c.answered.map ServedCall.answer = q.answered.map ServedCall.answer := by
  have hrun : ((Rotation.rotations (Rotation.unrestricted Rotation.sampleAead Rotation.sampleKeys)
      Rotation.sampleTable).run ⟨Rotation.sampleTable, none, false⟩
        Rotation.sampleHistory).map Rotation.RotationState.rotated = some true := by decide
  obtain ⟨r, hr, hrotated⟩ := Option.map_eq_some_iff.mp hrun
  obtain ⟨c, hc, rfl, -, hanswered⟩ := rotation_lifts Rotation.sampleGateway
    (c := .start twoDocuments) (fun _ _ h => by cases h)
    (by simp [Rotation.sampleHistory, Rotation.sampleBatch, ContentsOnly])
    (System.steps_of_run hr)
  let c₁ : Changeover := { c with gateway := ⟨c.gateway.db, ⟨none, none⟩⟩, renewed := true }
  have hdeploy : (changeover Rotation.sampleGateway (Rotation.unrestricted Rotation.sampleAead
      Rotation.sampleKeys)).step c (.deploy true fun _ => none) = some c₁ := by
    show (startup Rotation.sampleGateway (fun _ => none) c.gateway.db).map _ = _
    rw [startup_cold]
    rfl
  let c₂ := serve Rotation.sampleGateway Rotation.sampleKeys c₁ helloSearch
  have hsteps : (changeover Rotation.sampleGateway (Rotation.unrestricted Rotation.sampleAead
      Rotation.sampleKeys)).Steps ContentsOnly (.start twoDocuments) sampleChange c₂ :=
    hc.append (.cons (show ContentsOnly c _ from trivial) hdeploy
      (.single (show ContentsOnly c₁ (.invoke helloSearch) from trivial) rfl))
  obtain ⟨q, hq, hall, -⟩ := rotation_unnoticed Rotation.sampleAead_correct
    (fun key _ _ => dif_pos key.length_bytes) twoDocuments_old hsteps
  have hsettled : c₂.answered.map ServedCall.settled = [true] := by
    show (c.answered ++ [_]).map ServedCall.settled = [true]
    rw [hanswered]
    exact congrArg (fun b => [b]) hrotated
  refine ⟨q, c₂, hsteps, hq, hsettled, answers_eq hall ?_⟩
  intro a' ha'
  have hmem := List.mem_map_of_mem (f := ServedCall.settled) ha'
  rw [hsettled] at hmem
  exact List.mem_singleton.mp hmem

end McpGateway.Deployment
