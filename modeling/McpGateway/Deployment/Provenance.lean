import McpGateway.Gateway.ContentEncryptor
import McpGateway.Gateway.Effects
import McpGateway.Gateway.TrustFrame
import McpGateway.Ingestion.Namespaces

/-! # Where the text of a search comes from

The ingestion daemon and the gateway meet in one database: the daemon encrypts the chunks of what
its connectors download, and a search decrypts what it finds. The system of this file runs both.

* `Sourced` — what a row of `document_chunks` goes back to: one chunk of one download.
* `poll_sourced` — the daemon keeps that, whatever fails.
* `fragments_sourced` — so whatever a search returns, in any state the two programs can get into, is
  a lone denial, or the beginnings of chunks of downloads under the downloads' own names. -/

namespace McpGateway.Deployment

open Foundation Foundation.Act Gateway Ingestion

/-! ## Both programs -/

/-- What a connector has delivered for an item. -/
structure Download where
  remoteId : String
  name : String
  content : Bytes
  deriving DecidableEq

/-- The database, the saved cursors, and everything that was ever downloaded; the last is not part
of the program. -/
structure State where
  gateway : GatewayState
  cursors : String → Option String
  downloads : List Download

inductive Action where
  | poll (connectorId : String) (a : Cycle)
  | invoke (inv : Invocation)
  /-- the operator changes `api_key_workspaces` -/
  | grant (grants : List Grant)

instance (row : DocumentChunk) : Decidable (ChunkFits row) := inferInstanceAs (Decidable (_ ∧ _))

/-- The database with these rows; the server keeps no others. -/
def withChunks (db : Database) (rows : List DocumentChunk) : Option Database :=
  if h : (rows.map DocumentChunk.id).Nodup ∧ ∀ row ∈ rows, ChunkFits row then
    some { db with chunks := rows, chunks_pk := h.1, chunks_fit := h.2 }
  else none

def withGrants (db : Database) (grants : List Grant) : Option Database :=
  if h : ∀ g ∈ grants, g.apiKeyId.version = 4 then
    some { db with grants := grants, grants_version := h }
  else none

/-- The files among some changes that could be downloaded. -/
def downloadsOf (xs : List Report) : List Download :=
  xs.filterMap fun x =>
    if x.1.deleted then none
    else match x.2.download with
      | .ok content => some ⟨x.1.remoteId, x.1.name, content⟩
      | .error _ => none

/-- The two tables the daemon works on. -/
def State.tables (d : State) : Db := ⟨d.gateway.db.chunks, d.cursors⟩

/-- The daemon with its connectors and the gateway, on a table that starts empty. A call is one
step, as a poll is: nothing is committed between its search and its reads of what was found. In the
program a row that the daemon removes in between gives a fragment without text. -/
def deployment (p : Platform) (cfg : Config) : System State Action where
  init d := d.gateway.db.chunks = [] ∧ d.downloads = []
  step d
    | .poll connectorId a =>
        let tables := (runCycle (cfg.at connectorId) d.tables a).2
        (withChunks d.gateway.db tables.chunks).map fun db =>
          ⟨⟨db, d.gateway.conn⟩, tables.cursors,
            d.downloads ++ downloadsOf (batchAt (cfg.at connectorId) d.tables a)⟩
    | .invoke inv => some { d with gateway := after p inv d.gateway }
    | .grant grants => (withGrants d.gateway.db grants).map fun db =>
        { d with gateway := ⟨db, d.gateway.conn⟩ }

/-- The random number generator fills 12 bytes. -/
def FullIvs (_ : State) : Action → Prop
  | .poll _ a => ∀ i k iv, (a.items i).iv k = some iv → iv.length = ivLengthBytes
  | _ => True

/-! ## What a row goes back to -/

/-- The row holds an encrypted chunk of this download. -/
structure ChunkOf (cfg : Config) (d : Download) (c : String) (row : DocumentChunk) : Prop where
  chunk_mem : c ∈ chunk (extractText cfg.unicode d.content d.name)
  docName : row.docName = d.name
  sourceItemId : row.sourceItemId = some d.remoteId
  classification : row.classification = cfg.classification
  encrypted : ∃ iv sealed, iv.length = ivLengthBytes ∧
    cfg.aesGcm cfg.contentKey iv (asBytes c) = some sealed ∧
    row.encryptedContent = some (iv ++ sealed)

def Sourced (cfg : Config) (downloads : List Download) (row : DocumentChunk) : Prop :=
  ∃ d ∈ downloads, ∃ c, ChunkOf cfg d c row

theorem Sourced.mono {cfg : Config} {downloads : List Download} {row : DocumentChunk}
    (h : Sourced cfg downloads row) (more : List Download) :
    Sourced cfg (downloads ++ more) row := by
  obtain ⟨d, hd, hrow⟩ := h
  exact ⟨d, List.mem_append_left _ hd, hrow⟩

/-- A ciphertext of the loop is that of one of the chunks, under an IV of the generator. -/
theorem encryptFrom_mem {cfg : Config} {env : ItemEnv} {i : Nat} {chunks : List String}
    {encrypted : List Bytes} (h : encryptFrom cfg env i chunks = some encrypted) {e : Bytes}
    (he : e ∈ encrypted) : ∃ c ∈ chunks, ∃ k iv sealed, env.iv k = some iv ∧
      cfg.aesGcm cfg.contentKey iv (asBytes c) = some sealed ∧ e = iv ++ sealed := by
  induction chunks generalizing i encrypted with
  | nil =>
      cases h
      cases he
  | cons c cs ih =>
      obtain ⟨first, hfirst, h⟩ := Option.bind_eq_some_iff.mp h
      obtain ⟨rest, hrest, h⟩ := Option.bind_eq_some_iff.mp h
      cases h
      rcases List.mem_cons.mp he with rfl | he
      · obtain ⟨iv, hiv, hfirst⟩ := Option.bind_eq_some_iff.mp hfirst
        obtain ⟨buf, hbuf, heq⟩ := Option.bind_eq_some_iff.mp hfirst
        cases heq
        exact ⟨c, List.mem_cons_self, i, iv, buf, hiv, hbuf, rfl⟩
      · obtain ⟨c', hc', hrow⟩ := ih hrest he
        exact ⟨c', List.mem_cons_of_mem _ hc', hrow⟩

theorem insertFrom_mem {cfg : Config} {x : Report} {pairs : List (Bytes × Vector32)} {i : Nat}
    {rows rows' : List DocumentChunk} (h : insertFrom cfg x i pairs rows = some rows')
    {row : DocumentChunk} (hrow : row ∈ rows') :
    row ∈ rows ∨ ∃ j pair, pair ∈ pairs ∧ row = newRow cfg x j pair.1 pair.2 := by
  induction pairs generalizing i rows with
  | nil =>
      cases h
      exact Or.inl hrow
  | cons pair pairs ih =>
      rw [insertFrom] at h
      split_ifs at h
      rcases ih h with hold | ⟨j, pair', hpair', heq⟩
      · rcases List.mem_append.mp hold with hold | hnew
        · exact Or.inl hold
        · exact Or.inr ⟨i, pair, List.mem_cons_self, List.mem_singleton.mp hnew⟩
      · exact Or.inr ⟨j, pair', List.mem_cons_of_mem _ hpair', heq⟩

theorem upsertChunks_mem {cfg : Config} {rows rows' : List DocumentChunk} {x : Report}
    {encrypted : List Bytes} {embeddings : List Vector32}
    (h : upsertChunks cfg rows x encrypted embeddings = some rows') {row : DocumentChunk}
    (hrow : row ∈ rows') :
    row ∈ deleteChunks rows x.1.remoteId ∨ ∃ j e v, e ∈ encrypted ∧ row = newRow cfg x j e v := by
  rcases insertFrom_mem h hrow with hold | ⟨j, ⟨e, v⟩, hpair, heq⟩
  · exact Or.inl hold
  · exact Or.inr ⟨j, e, v, (List.of_mem_zip hpair).1, heq⟩

/-- A row that a change inserts holds a chunk of its download. -/
theorem chunkOf_newRow {cfg : Config} {x : Report} {content : Bytes} {encrypted : List Bytes}
    (henc : encryptFrom cfg x.2 0 (chunk (extractText cfg.unicode content x.1.name)) = some encrypted)
    (hiv : ∀ k iv, x.2.iv k = some iv → iv.length = ivLengthBytes) {e : Bytes} (he : e ∈ encrypted)
    (j : Nat) (v : Vector32) :
    ∃ c, ChunkOf cfg ⟨x.1.remoteId, x.1.name, content⟩ c (newRow cfg x j e v) := by
  obtain ⟨c, hc, k, iv, sealed, hk, hsealed, rfl⟩ := encryptFrom_mem henc he
  exact ⟨c, hc, rfl, rfl, rfl, iv, sealed, hiv k iv hk, hsealed, rfl⟩

/-- What an item does to the table, and where its body is left: it is removed or stored, and the log
may still call that a failure, or the table stays as it is. -/
inductive ItemEffect (cfg : Config) (rows : List DocumentChunk) (x : Report) :
    List DocumentChunk × ItemOutcome → Prop
  | unchanged {o : ItemOutcome} (hdeleted : o ≠ .deleted) (hprocessed : o ≠ .processed) :
      ItemEffect cfg rows x (rows, o)
  | deleted {o : ItemOutcome} (hdel : x.1.deleted = true) (ho : o = .deleted ∨ o = .deleteFailed) :
      ItemEffect cfg rows x (deleteChunks rows x.1.remoteId, o)
  | stored {o : ItemOutcome} {content : Bytes} {encrypted : List Bytes} {embeddings : List Vector32}
      {rows' : List DocumentChunk} (hdel : x.1.deleted = false) (hdown : x.2.download = .ok content)
      (henc : encryptFrom cfg x.2 0 (chunk (extractText cfg.unicode content x.1.name))
        = some encrypted)
      (hemb : embedBatch cfg x.2 (chunk (extractText cfg.unicode content x.1.name))
        = some embeddings)
      (hup : upsertChunks cfg rows x encrypted embeddings = some rows')
      (ho : o = .processed ∨ o = .upsertFailed) :
      ItemEffect cfg rows x (rows', o)

theorem processItem_effect (cfg : Config) (rows : List DocumentChunk) (x : Report) :
    ItemEffect cfg rows x (processItem cfg rows x) := by
  obtain ⟨item, env⟩ := x
  unfold processItem
  by_cases hdel : item.deleted
  · simp only [hdel, if_true]
    cases env.delete with
    | done => exact .deleted hdel (Or.inl rfl)
    | lost => exact .deleted hdel (Or.inr rfl)
    | failed => exact .unchanged nofun nofun
  · simp only [hdel, if_false, Bool.false_eq_true]
    cases hdown : env.download with
    | error e => exact .unchanged nofun nofun
    | ok content =>
        dsimp only
        split_ifs
        · exact .unchanged nofun nofun
        · exact .unchanged nofun nofun
        · exact .unchanged nofun nofun
        · cases henc : encryptFrom cfg env 0 (chunk (extractText cfg.unicode content item.name)) with
          | none => exact .unchanged nofun nofun
          | some encrypted =>
              dsimp only
              cases hemb : embedBatch cfg env (chunk (extractText cfg.unicode content item.name)) with
              | none => exact .unchanged nofun nofun
              | some embeddings =>
                  dsimp only
                  cases hup : upsertChunks cfg rows (item, env) encrypted embeddings with
                  | none => exact .unchanged nofun nofun
                  | some rows' =>
                      have hdel' : item.deleted = false := by simpa using hdel
                      dsimp only
                      cases env.upsert with
                      | done => exact .stored hdel' hdown henc hemb hup (Or.inl rfl)
                      | lost => exact .stored hdel' hdown henc hemb hup (Or.inr rfl)
                      | failed => exact .unchanged nofun nofun

/-- **One change** adds rows of its own download only. -/
theorem processItem_sourced {cfg : Config} {rows : List DocumentChunk} {x : Report}
    {downloads : List Download} (hrows : ∀ row ∈ rows, Sourced cfg downloads row)
    (hiv : ∀ k iv, x.2.iv k = some iv → iv.length = ivLengthBytes) :
    ∀ row ∈ (processItem cfg rows x).1, Sourced cfg (downloads ++ downloadsOf [x]) row := by
  have hold : ∀ row ∈ rows, Sourced cfg (downloads ++ downloadsOf [x]) row :=
    fun row hrow => (hrows row hrow).mono _
  have heffect := processItem_effect cfg rows x
  obtain ⟨rows', outcome, hrun⟩ : ∃ rows' outcome, processItem cfg rows x = (rows', outcome) :=
    ⟨_, _, rfl⟩
  rw [hrun] at heffect ⊢
  cases heffect with
  | unchanged => exact hold
  | deleted => exact fun row hrow => hold row (List.mem_of_mem_filter hrow)
  | stored hdel hdown henc hemb hup =>
      intro row hrow
      rcases upsertChunks_mem hup hrow with hrow | ⟨j, e, v, he, rfl⟩
      · exact hold row (List.mem_of_mem_filter hrow)
      · obtain ⟨c, hchunk⟩ := chunkOf_newRow henc hiv he j v
        refine ⟨_, List.mem_append_right _ ?_, c, hchunk⟩
        simp [downloadsOf, hdel, hdown]

/-- **The item loop.** -/
theorem itemsTable_sourced {cfg : Config} {rows : List DocumentChunk} {xs : List Report}
    {downloads : List Download} (hrows : ∀ row ∈ rows, Sourced cfg downloads row)
    (hiv : ∀ x ∈ xs, ∀ k iv, x.2.iv k = some iv → iv.length = ivLengthBytes) :
    ∀ row ∈ itemsTable cfg rows xs, Sourced cfg (downloads ++ downloadsOf xs) row := by
  induction xs generalizing rows downloads with
  | nil => simpa [downloadsOf] using hrows
  | cons x xs ih =>
      have hfirst := processItem_sourced hrows (hiv x List.mem_cons_self)
      have hrest := ih hfirst fun y hy => hiv y (List.mem_cons_of_mem _ hy)
      have hsplit : downloadsOf (x :: xs) = downloadsOf [x] ++ downloadsOf xs := by
        unfold downloadsOf
        rw [← List.filterMap_append]
        rfl
      rw [itemsTable_cons, hsplit, ← List.append_assoc]
      exact hrest

theorem batchAt_iv {cfg : Config} {db : Db} {a : Cycle}
    (hiv : ∀ i k iv, (a.items i).iv k = some iv → iv.length = ivLengthBytes) :
    ∀ x ∈ batchAt cfg db a, ∀ k iv, x.2.iv k = some iv → iv.length = ivLengthBytes := by
  intro x hx k iv hk
  obtain ⟨i, henv⟩ := batchAt_env hx
  rw [henv] at hk
  exact hiv i k iv hk

/-- **A poll.** -/
theorem poll_sourced {cfg : Config} {db : Db} {a : Cycle} {downloads : List Download}
    (hrows : ∀ row ∈ db.chunks, Sourced cfg downloads row)
    (hiv : ∀ i k iv, (a.items i).iv k = some iv → iv.length = ivLengthBytes) :
    ∀ row ∈ (runCycle cfg db a).2.chunks,
      Sourced cfg (downloads ++ downloadsOf (batchAt cfg db a)) row := by
  rw [(runCycle_db cfg db a).1]
  exact itemsTable_sourced hrows (batchAt_iv hiv)

/-! ## What a search returns -/

section Search

variable {p : Platform} {env : Env} {caller : Option Uuid} {g : GatewayState}

/-- A statement of a call reads the rows the call began with. -/
theorem statement_value {α : Type} {fails : Bool} {run : Database → Settings → Option α}
    {Q : α → Prop} (h : ∀ db σ a, db.chunks = g.db.chunks → run db σ = some a → Q a) :
    Triple (InCall caller g) (statement fails run) (fun a s => InCall caller g s ∧ Q a)
      (fun _ => InCall caller g) := by
  intro s hs
  have hstatement : Keeps caller g (statement fails run) := keeps_statement fails run
  have hkeeps := hstatement s hs
  cases hans : statementAnswer fails run s with
  | some a =>
      rw [statement_some hans] at hkeeps ⊢
      refine ⟨hkeeps, ?_⟩
      unfold statementAnswer at hans
      split_ifs at hans
      exact h s.store s.settings a hs.chunks hans
  | none =>
      rw [statement_none hans] at hkeeps ⊢
      exact hkeeps

/-- What the searches find: stored rows of the classifications the role may see. -/
def Found (g : GatewayState) (role : AccessRole) (rows : List DocumentChunk) : Prop :=
  ∀ row ∈ rows, row ∈ g.db.chunks ∧ row.classification ∈ allowedClassifications role

theorem mem_of_limitRows {α : Type} {limit : Int} {rows found : List α}
    (h : limitRows limit rows = some found) {a : α} (ha : a ∈ found) : a ∈ rows := by
  unfold limitRows at h
  split_ifs at h
  cases h
  exact List.mem_of_mem_take ha

theorem retrieveByText_found (role : AccessRole) (q : JString) (limit : Int) :
    Triple (InCall caller g) (retrieveByText p env role q limit)
      (fun rows s => InCall caller g s ∧ Found g role rows) (fun _ => InCall caller g) := by
  apply statement_value
  intro db σ rows hdb h row hrow
  obtain ⟨text, -, h⟩ := Option.bind_eq_some_iff.mp h
  obtain ⟨visible, hvisible, h⟩ := Option.bind_eq_some_iff.mp h
  obtain ⟨hmem, htest⟩ := List.mem_filter.mp (mem_of_limitRows h hrow)
  rw [← hdb]
  exact ⟨visibleRows_subset hvisible hmem, (of_decide_eq_true htest).1⟩

theorem retrieveByVector_found (role : AccessRole) (q : JString) (limit : Int) :
    Triple (InCall caller g) (retrieveByVector p env role q limit)
      (fun rows s => InCall caller g s ∧ Found g role rows) (fun _ => InCall caller g) := by
  unfold retrieveByVector
  apply Triple.bind (keeps_embed q)
  intro v
  apply statement_value
  intro db σ rows hdb h row hrow
  unfold selectByVector at h
  split_ifs at h
  obtain ⟨visible, hvisible, h⟩ := Option.bind_eq_some_iff.mp h
  dsimp only at h
  split_ifs at h
  have hsorted := List.mem_mergeSort.mp (mem_of_limitRows h hrow)
  obtain ⟨hmem, htest⟩ := List.mem_filter.mp hsorted
  rw [← hdb]
  exact ⟨visibleRows_subset hvisible hmem, (of_decide_eq_true htest).1⟩

/-- A fetch returns the text of the row with that id, or nothing. -/
theorem fetchChunk_text (chunkId : Uuid) :
    Triple (InCall caller g) (fetchChunk p env chunkId)
      (fun text s => InCall caller g s ∧ (text = [] ∨
        ∃ row ∈ g.db.chunks, row.id = chunkId ∧ chunkText p row = .ok text))
      (fun _ => InCall caller g) := by
  unfold fetchChunk
  -- whatever the read throws, the text is empty
  refine Triple.tryCatch ?_ fun _ =>
    Triple.pure fun s (hs : InCall caller g s) => ⟨hs, Or.inl rfl⟩
  apply Triple.bind (statement_value (Q := fun found => ∀ row, found = some row →
      row ∈ g.db.chunks ∧ row.id = chunkId) ?_)
  · intro found
    cases found with
    | none => exact Triple.throw fun s hs => hs.1
    | some row =>
        dsimp only
        cases htext : chunkText p row with
        | ok text =>
            apply Triple.pure
            rintro s ⟨hs, hrow⟩
            obtain ⟨hmem, hid⟩ := hrow row rfl
            exact ⟨hs, Or.inr ⟨row, hmem, hid, htext⟩⟩
        | error e => exact Triple.throw fun s hs => hs.1
  · intro db σ found hdb h row hfound
    obtain ⟨visible, hvisible, rfl⟩ := Option.map_eq_some_iff.mp h
    refine ⟨?_, by simpa using List.find?_some hfound⟩
    rw [← hdb]
    exact visibleRows_subset hvisible (List.mem_of_find?_eq_some hfound)

/-- The fragment of a stored row: its text, or nothing. -/
def FragmentOf (p : Platform) (row : DocumentChunk) (f : DataFragment) : Prop :=
  ∃ text, f = fragmentOf row text ∧ (text = [] ∨ chunkText p row = .ok text)

theorem row_eq_of_id {db : Database} {row row' : DocumentChunk} (h : row ∈ db.chunks)
    (h' : row' ∈ db.chunks) (hid : row'.id = row.id) : row' = row :=
  List.inj_on_of_nodup_map db.chunks_pk h' h hid

theorem fetchFragments_of {rows : List DocumentChunk} (hrows : rows ⊆ g.db.chunks) :
    Triple (InCall caller g) (fetchFragments p env rows)
      (fun fs s => InCall caller g s ∧ ∀ f ∈ fs, ∃ row ∈ rows, FragmentOf p row f)
      (fun _ => InCall caller g) := by
  induction rows with
  | nil =>
      apply Triple.pure
      intro s hs
      exact ⟨hs, by simp⟩
  | cons row rows ih =>
      have hrest := ih fun r hr => hrows (List.mem_cons_of_mem _ hr)
      unfold fetchFragments
      apply Triple.bind (fetchChunk_text row.id)
      intro text
      apply Triple.assume
      intro htext
      apply Triple.bind hrest
      intro fs
      apply Triple.pure
      rintro s ⟨hs, hfs⟩
      refine ⟨hs, ?_⟩
      intro f hf
      rcases List.mem_cons.mp hf with rfl | hf
      · refine ⟨row, List.mem_cons_self, text, rfl, ?_⟩
        rcases htext with h | ⟨row', hmem, hid, h⟩
        · exact Or.inl h
        · rw [row_eq_of_id (hrows List.mem_cons_self) hmem hid] at h
          exact Or.inr h
      · obtain ⟨row', hrow', hof⟩ := hfs f hf
        exact ⟨row', List.mem_cons_of_mem _ hrow', hof⟩

/-- What a tool that returns fragments returns. -/
def Answered (p : Platform) (g : GatewayState) (auth : Authentication) (r : ToolResult) : Prop :=
  ∀ fragments, r = .fragments fragments →
    (∃ denial, fragments = [denial] ∧ denial.sourceId = "denial") ∨
    ∃ key, auth.key? = some key ∧ ∀ f ∈ fragments, ∃ row ∈ g.db.chunks,
      row.classification ∈ allowedClassifications key.role ∧ FragmentOf p row f

theorem answerWith_answered {auth : Authentication} {key : ApiKey} (hkey : auth.key? = some key)
    (toolName : String) (q : JString) (limit : Int) (flagged : Bool) {rows : List DocumentChunk}
    (hrows : Found g key.role rows) (hcaller : caller = some key.id) :
    Triple (InCall caller g) (answerWith p env toolName key q limit flagged rows)
      (fun r s => InCall caller g s ∧ Answered p g auth r) (fun _ => InCall caller g) := by
  unfold answerWith
  apply Triple.bind (fetchFragments_of fun row hrow => (hrows row hrow).1)
  intro fragments
  apply Triple.assume
  intro hfragments
  subst hcaller
  apply Triple.bind (keeps_spendBudget key.id _)
  intro exceeded
  cases exceeded with
  | some retryAfterSeconds =>
      apply Triple.pure
      intro s hs
      refine ⟨hs, ?_⟩
      intro fs hfs
      cases hfs
      exact Or.inl ⟨_, rfl, rfl⟩
  | none =>
      apply Triple.bind (keeps_log _)
      intro _
      apply Triple.pure
      intro s hs
      refine ⟨hs, ?_⟩
      intro fs hfs
      cases hfs
      right
      refine ⟨key, hkey, ?_⟩
      intro f hf
      obtain ⟨row, hrow, hof⟩ := hfragments f hf
      exact ⟨row, (hrows row hrow).1, (hrows row hrow).2, hof⟩

theorem searchTool_answered {auth : Authentication} (toolName : String) (retrieve : Retrieval)
    (hretrieve : ∀ role q limit, Triple (InCall (auth.key?.map ApiKey.id) g) (retrieve role q limit)
      (fun rows s => InCall (auth.key?.map ApiKey.id) g s ∧ Found g role rows)
      (fun _ => InCall (auth.key?.map ApiKey.id) g))
    (q : Option JString) (maxResults : Option Int) :
    Triple (InCall (auth.key?.map ApiKey.id) g)
      (searchTool p env auth toolName retrieve q maxResults)
      (fun r s => InCall (auth.key?.map ApiKey.id) g s ∧ Answered p g auth r)
      (fun _ => InCall (auth.key?.map ApiKey.id) g) := by
  unfold searchTool
  cases acceptedQuery q with
  | none => exact Triple.throw fun _ hs => hs
  | some q =>
      apply Triple.bind (keeps_guardQuery q)
      intro guardResult
      cases guardResult with
      | error reason =>
          apply Triple.pure
          intro s hs
          refine ⟨hs, ?_⟩
          intro fs hfs
          cases hfs
          exact Or.inl ⟨_, rfl, rfl⟩
      | ok result =>
          dsimp only
          unfold searchAccepted
          cases auth with
          | absent => exact Triple.throw fun _ hs => hs
          | otherPrincipal => exact Triple.throw fun _ hs => hs
          | apiKey key =>
              apply Triple.bind (hretrieve key.role result.sanitizedQuery (searchLimit maxResults))
              intro rows
              apply Triple.assume
              intro hrows
              exact answerWith_answered rfl _ _ _ _ hrows rfl

/-- **A call that returns fragments** is a search. -/
theorem toolBody_answered {auth : Authentication} {call : ToolCall} {s : GatewaySession}
    {fragments : List DataFragment} (hin : InCall (auth.key?.map ApiKey.id) g s)
    (h : (toolBody p env auth call s).1 = .ok (.fragments fragments)) :
    (∃ denial, fragments = [denial] ∧ denial.sourceId = "denial") ∨
    ∃ key, auth.key? = some key ∧ ∀ f ∈ fragments, ∃ row ∈ g.db.chunks,
      row.classification ∈ allowedClassifications key.role ∧ FragmentOf p row f := by
  obtain ⟨out, s', hrun⟩ : ∃ out s', toolBody p env auth call s = (out, s') := ⟨_, _, rfl⟩
  rw [hrun] at h
  cases h
  cases call with
  | listSources =>
      obtain ⟨key, s₁, -, hrun⟩ := of_bind_ok hrun
      obtain ⟨-, s₂, -, hrun⟩ := of_bind_ok hrun
      cases hrun
  | queryDatabase table filters maxRows =>
      obtain ⟨key, s₁, -, hrun⟩ := of_bind_ok hrun
      obtain ⟨rows, s₂, -, hrun⟩ := of_bind_ok hrun
      obtain ⟨-, s₃, -, hrun⟩ := of_bind_ok hrun
      cases hrun
  | searchDocuments q maxResults =>
      have hanswered := @searchTool_answered p env g auth "search_documents" (retrieveByText p env)
        (fun role q limit => retrieveByText_found role q limit) q maxResults s hin
      rw [show searchTool p env auth "search_documents" (retrieveByText p env) q maxResults s = _
        from hrun] at hanswered
      exact hanswered.2 fragments rfl
  | semanticSearchDocuments q maxResults =>
      have hanswered := @searchTool_answered p env g auth "semantic_search_documents"
        (retrieveByVector p env) (fun role q limit => retrieveByVector_found role q limit) q maxResults s hin
      rw [show searchTool p env auth "semantic_search_documents" (retrieveByVector p env) q
        maxResults s = _ from hrun] at hanswered
      exact hanswered.2 fragments rfl

/-- **An invocation that returns fragments.** -/
theorem answer_answered {inv : Invocation} {fragments : List DataFragment}
    (h : answer p inv g = .ok (.fragments fragments)) :
    (∃ denial, fragments = [denial] ∧ denial.sourceId = "denial") ∨
    ∃ key, inv.auth.key? = some key ∧ ∀ f ∈ fragments, ∃ row ∈ g.db.chunks,
      row.classification ∈ allowedClassifications key.role ∧ FragmentOf p row f := by
  obtain ⟨s, hrun, -⟩ := answer_ran h
  have hbegin : InCall inv.caller g (inContext inv.auth g.session) :=
    ⟨rfl, rfl, rfl, rfl, fun _ _ _ => rfl, rfl, _, [], rfl, rfl, rfl⟩
  exact toolBody_answered hbegin (congrArg Prod.fst hrun)

end Search

/-! ## The text of a fragment -/

/-- The gateway opens what the daemon has sealed. -/
def Opens (p : Platform) (cfg : Config) : Prop :=
  ∀ iv plaintext sealed, cfg.aesGcm cfg.contentKey iv plaintext = some sealed →
    p.aesGcmDecrypt p.contentKey iv sealed = some plaintext

/-- The text of a row is the beginning of its chunk. -/
theorem ChunkOf.chunkText {p : Platform} {cfg : Config} (hopens : Opens p cfg) {d : Download}
    {c : String} {row : DocumentChunk} (h : ChunkOf cfg d c row) :
    chunkText p row = .ok ((jstr c).take maxFragmentChars) := by
  obtain ⟨iv, sealed, hlength, hsealed, hencrypted⟩ := h.encrypted
  have hlong : ¬ (iv ++ sealed).length < ivLengthBytes := by
    rw [List.length_append, hlength]
    omega
  have hopened := hopens iv (asBytes c) sealed hsealed
  unfold Gateway.chunkText
  simp only [hencrypted]
  unfold decrypt
  rw [if_neg hlong, List.take_left' hlength, List.drop_left' hlength, hopened]
  simp [Except.map, decodeUtf8_asBytes]

/-- Another connector has the same key and the same chunker. -/
theorem sourced_at {cfg : Config} {connectorId : String} {downloads : List Download}
    {row : DocumentChunk} :
    Sourced (cfg.at connectorId) downloads row ↔ Sourced cfg downloads row := by
  constructor
  · rintro ⟨d, hd, c, h⟩
    exact ⟨d, hd, c, h.chunk_mem, h.docName, h.sourceItemId, h.classification, h.encrypted⟩
  · rintro ⟨d, hd, c, h⟩
    exact ⟨d, hd, c, h.chunk_mem, h.docName, h.sourceItemId, h.classification, h.encrypted⟩

/-- Every stored row goes back to a download. -/
def AllSourced (cfg : Config) (d : State) : Prop :=
  ∀ row ∈ d.gateway.db.chunks, Sourced cfg d.downloads row

/-- **One step.** -/
theorem AllSourced.step {p : Platform} {cfg : Config} {d d' : State} {a : Action}
    (h : AllSourced cfg d) (hiv : FullIvs d a) (hst : (deployment p cfg).step d a = some d') :
    AllSourced cfg d' := by
  cases a with
  | poll connectorId a =>
      obtain ⟨db, hdb, rfl⟩ := Option.map_eq_some_iff.mp hst
      unfold withChunks at hdb
      split_ifs at hdb with hvalid
      cases hdb
      intro row hrow
      apply sourced_at.mp
      exact @poll_sourced (cfg.at connectorId) d.tables a d.downloads
        (fun row hrow => sourced_at.mpr (h row hrow)) hiv row hrow
  | invoke inv =>
      cases hst
      intro row hrow
      apply h row
      rw [← (after_frame p inv d.gateway).chunks]
      exact hrow
  | grant grants =>
      obtain ⟨db, hdb, rfl⟩ := Option.map_eq_some_iff.mp hst
      unfold withGrants at hdb
      split_ifs at hdb with hvalid
      cases hdb
      exact h

/-- **Provenance.** In every state the daemon and the gateway can get into, whatever has failed, an
invocation that returns fragments returns a lone denial, or fragments that each frame the beginning
of a chunk of a download (or nothing, when the chunk could not be fetched), under the name of that
download and with a classification the caller may see. -/
theorem fragments_sourced {p : Platform} {cfg : Config} (hopens : Opens p cfg) {d₀ d : State}
    {as : List Action} (hinit : (deployment p cfg).init d₀)
    (hrun : (deployment p cfg).Steps FullIvs d₀ as d) {inv : Invocation}
    {fragments : List DataFragment} (h : answer p inv d.gateway = .ok (.fragments fragments)) :
    (∃ denial, fragments = [denial] ∧ denial.sourceId = "denial") ∨
    ∃ key, inv.auth.key? = some key ∧ ∀ f ∈ fragments, ∃ dl ∈ d.downloads,
      ∃ c ∈ chunk (extractText cfg.unicode dl.content dl.name),
        f.docName = dl.name ∧ f.classification = cfg.classification.text ∧
        cfg.classification ∈ allowedClassifications key.role ∧
        (f.fragmentText = framed [] ∨ f.fragmentText = framed ((jstr c).take maxFragmentChars)) := by
  have hsourced : AllSourced cfg d := by
    apply hrun.preserves (P := AllSourced cfg) fun d a d' h hiv hst => h.step hiv hst
    intro row hrow
    rw [hinit.1] at hrow
    cases hrow
  rcases answer_answered h with hdenial | ⟨key, hkey, hfragments⟩
  · exact Or.inl hdenial
  · refine Or.inr ⟨key, hkey, ?_⟩
    intro f hf
    obtain ⟨row, hrow, hclass, text, rfl, htext⟩ := hfragments f hf
    obtain ⟨dl, hdl, c, hchunk⟩ := hsourced row hrow
    rw [hchunk.classification] at hclass
    refine ⟨dl, hdl, c, hchunk.chunk_mem, hchunk.docName,
      congrArg Classification.text hchunk.classification, hclass, ?_⟩
    rcases htext with rfl | htext
    · exact Or.inl rfl
    · rw [hchunk.chunkText hopens] at htext
      cases htext
      exact Or.inr rfl

/-! ## One document, downloaded and found -/

/-- The AES-256-GCM ciphertext and tag of `hello`. -/
def helloSealed : Bytes := bytesBE 21 0x40350261cf2550a268d96d667db2692fa1ed80d76f

/-- That of `world`. -/
def worldSealed : Bytes := bytesBE 21 0xb99fb6745da9fa421b3a19aae146bad02d37cdcaeb

/-- A gateway that opens these ciphertexts, and whose text search finds everything. -/
def helloPlatform : Platform :=
  { findEverything with
    aesGcmDecrypt := fun _ iv sealed =>
      if iv = List.replicate 12 5 ∧ sealed = helloSealed then some (asBytes "hello")
      else if iv = List.replicate 12 6 ∧ sealed = worldSealed then some (asBytes "world")
      else none }

theorem hello_opens : Opens helloPlatform sampleConfig := by
  intro iv plaintext sealed h
  have h' : (if iv = List.replicate 12 5 ∧ plaintext = asBytes "hello" then some helloSealed
      else if iv = List.replicate 12 6 ∧ plaintext = asBytes "world" then some worldSealed
      else none) = some sealed := h
  show (if iv = List.replicate 12 5 ∧ sealed = helloSealed then some (asBytes "hello")
    else if iv = List.replicate 12 6 ∧ sealed = worldSealed then some (asBytes "world")
    else none) = _
  split_ifs at h' with hhello hworld
  · cases h'
    rw [if_pos ⟨hhello.1, rfl⟩, hhello.2]
  · cases h'
    have hiv : iv ≠ List.replicate 12 5 := by
      rw [hworld.1]
      decide
    rw [if_neg fun hboth => hiv hboth.1, if_pos ⟨hworld.1, rfl⟩, hworld.2]

def helloRow : DocumentChunk :=
  newRow sampleConfig (sampleItem false, sampleEnv "hello") 0 (List.replicate 12 5 ++ helloSealed)
    sampleVector

theorem helloRow_fits : ChunkFits helloRow := by
  unfold ChunkFits
  decide

/-- The operator has granted a key, and nothing has been ingested. -/
def helloStart : State := ⟨noDocuments, fun _ => none, []⟩

def helloPoll : Action :=
  .poll "drive" (sampleCycle [sampleItem false] (fun _ => sampleEnv "hello") "1")

/-- The document is in the table. -/
def helloEnd : State where
  gateway := oneDocument helloRow helloRow_fits
  cursors := saveCursor (fun _ => none) "drive" "1"
  downloads := [⟨"item-1", "a.txt", asBytes "hello"⟩]

theorem hello_processed :
    processItem sampleConfig [] (sampleItem false, sampleEnv "hello") = ([helloRow], .processed) := by
  have htext : extractText sampleConfig.unicode (asBytes "hello") "a.txt" = "hello" := by decide
  have hdel : (sampleItem false).deleted = false := rfl
  have hname : (sampleItem false).name = "a.txt" := rfl
  have hdown : (sampleEnv "hello").download = .ok (asBytes "hello") := rfl
  have hchunker : (sampleEnv "hello").chunkerFails = false := rfl
  have henc : encryptFrom sampleConfig (sampleEnv "hello") 0 ["hello"]
      = some [List.replicate 12 5 ++ helloSealed] := rfl
  have hup : upsertChunks sampleConfig [] (sampleItem false, sampleEnv "hello")
      [List.replicate 12 5 ++ helloSealed] [sampleVector] = some [helloRow] := rfl
  have hdone : (sampleEnv "hello").upsert = .done := rfl
  unfold processItem
  simp only [hdel, hname, hdown, htext, hchunker, sample_chunk, henc, sample_embedBatch, hup, hdone,
    Bool.false_eq_true, if_false, String.reduceEq, reduceCtorEq]

theorem hello_polled : (runCycle (sampleConfig.at "drive") helloStart.tables
    (sampleCycle [sampleItem false] (fun _ => sampleEnv "hello") "1")).2
      = ⟨[helloRow], saveCursor (fun _ => none) "drive" "1"⟩ := by
  have hcfg : sampleConfig.at "drive" = sampleConfig := rfl
  have hbatch : (sampleCycle [sampleItem false] (fun _ => sampleEnv "hello") "1").batch
      ⟨some "1", [sampleItem false], false⟩ = [(sampleItem false, sampleEnv "hello")] := rfl
  have hchunks : helloStart.tables.chunks = [] := rfl
  have hlist : ∀ cursor, (sampleCycle [sampleItem false] (fun _ => sampleEnv "hello") "1").listChanges
      cursor = .ok ⟨some "1", [sampleItem false], false⟩ := fun _ => rfl
  have hload : (sampleCycle [sampleItem false] (fun _ => sampleEnv "hello") "1").loadFails = false := rfl
  have hsave : (sampleCycle [sampleItem false] (fun _ => sampleEnv "hello") "1").save = .done := rfl
  unfold runCycle
  simp only [hcfg, hload, hlist, hbatch, hchunks, hsave, runItems, hello_processed,
    Bool.false_eq_true, if_false]
  rfl

theorem hello_step : (deployment helloPlatform sampleConfig).step helloStart helloPoll
    = some helloEnd := by
  show ((withChunks noDocuments.db (runCycle (sampleConfig.at "drive") helloStart.tables
    (sampleCycle [sampleItem false] (fun _ => sampleEnv "hello") "1")).2.chunks).map _) = _
  rw [hello_polled]
  unfold withChunks
  rw [dif_pos ⟨nodup_single_id helloRow, fits_single helloRow_fits⟩]
  rfl

theorem hello_accepted : rejection helloPlatform planQuery = none := by
  simp only [rejection_eq_none_iff, Regex.find_eq_run]
  decide +kernel

/-- A search for it by a key of the workspace. -/
def helloSearch : Invocation where
  env := calmEnv
  auth := .apiKey (sampleKey .readOnly 2)
  call := .searchDocuments (some planQuery) none

theorem hello_guarded : guardQuery helloPlatform calmEnv (.apiKey (sampleKey .readOnly 2)) planQuery
    = pure (.ok ⟨true, planQuery, false, none⟩) := by
  obtain ⟨htags, hphrase⟩ := Bool.or_eq_false_iff.mp planQuery_unaudited
  have hsanitize : sanitize planQuery = planQuery := by
    unfold sanitize
    rw [htags, if_neg Bool.false_ne_true]
  rw [hsanitize] at hphrase
  have hphrase' : (instructionOverride helloPlatform).find planQuery = false := hphrase
  unfold guardQuery
  rw [validate_accepted calmEnv _ hello_accepted, htags, hsanitize, hphrase']
  rfl

theorem hello_body : toolBody helloPlatform calmEnv (.apiKey (sampleKey .readOnly 2))
    (.searchDocuments (some planQuery) none) = searchAccepted helloPlatform calmEnv
      (.apiKey (sampleKey .readOnly 2)) "search_documents"
      (retrieveByText helloPlatform calmEnv) planQuery none ⟨true, planQuery, false, none⟩ := by
  have hquery : acceptedQuery (some planQuery) = some planQuery := by decide
  simp only [toolBody, searchDocuments, searchTool, hquery, hello_guarded]
  rfl

theorem hello_answer : answer helloPlatform helloSearch helloEnd.gateway
    = .ok (.fragments [fragmentOf helloRow (jstr "hello")]) := by
  unfold answer invoke callTool
  show (enforceAllowlist calmEnv (.apiKey (sampleKey .readOnly 2)) "search_documents"
    (applyRlsRole calmEnv (.apiKey (sampleKey .readOnly 2)) (toolBody helloPlatform calmEnv
      (.apiKey (sampleKey .readOnly 2)) (.searchDocuments (some planQuery) none))) _).1 = _
  rw [hello_body]
  rfl

/-- The document is downloaded, and the search frames its text. -/
theorem hello_sourced : answer helloPlatform helloSearch helloEnd.gateway
      = .ok (.fragments [fragmentOf helloRow (jstr "hello")]) ∧
    ∃ dl ∈ helloEnd.downloads, (fragmentOf helloRow (jstr "hello")).docName = dl.name := by
  refine ⟨hello_answer, ?_⟩
  have hivs : FullIvs helloStart helloPoll := by
    intro i k iv hiv
    have hiv' : some (List.replicate 12 5) = some iv := hiv
    cases hiv'
    rfl
  have hinit : (deployment helloPlatform sampleConfig).init helloStart := ⟨rfl, rfl⟩
  rcases fragments_sourced hello_opens hinit (.cons hivs hello_step (.nil _)) hello_answer with
    ⟨denial, hdenial, hid⟩ | ⟨key, -, hfragments⟩
  · cases hdenial
    exact absurd hid (by decide)
  · obtain ⟨dl, hdl, c, -, hname, -⟩ := hfragments _ List.mem_cons_self
    exact ⟨dl, hdl, hname⟩

end McpGateway.Deployment
