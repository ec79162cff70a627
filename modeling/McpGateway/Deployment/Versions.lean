import McpGateway.Deployment.Provenance
import McpGateway.Foundation.WriteLog
import McpGateway.Gateway.Meaning

/-! # Which version a search quotes

Of every item the daemon keeps the chunks of one version, or none. Which one is a matter of the
writes its log reports: a write that is logged as done was done, one that is logged as failed may
have been done too, and nothing else was.

* `Holds` — the table is that of one version for each of some items.
* `processItem_holds`, `Holds.step` — an item, and a step of the deployment, do what the log says.
* `fragments_current` — so a search quotes the versions that the log leads to. What has been
  replaced is not quoted any more, nor is what has been deleted. -/

namespace McpGateway.Deployment

open Foundation Foundation.WriteLog Gateway Ingestion

/-! ## What the log says -/

/-- The version a report is of. -/
def downloaded (x : Report) : Option Download :=
  x.2.download.toOption.map fun content => ⟨x.1.remoteId, x.1.name, content⟩

/-- The write that the line for an item reports. -/
def entryOf (x : Report) : ItemOutcome → Option (Entry String Download)
  | .deleted => some ⟨x.1.remoteId, none, true⟩
  | .deleteFailed => some ⟨x.1.remoteId, none, false⟩
  | .processed => some ⟨x.1.remoteId, downloaded x, true⟩
  | .upsertFailed => some ⟨x.1.remoteId, downloaded x, false⟩
  | _ => none

def itemsLog (cfg : Config) : List DocumentChunk → List Report → List (Entry String Download)
  | _, [] => []
  | rows, x :: xs =>
      (entryOf x (processItem cfg rows x).2).toList ++ itemsLog cfg (processItem cfg rows x).1 xs

def stepLog (cfg : Config) (d : State) : Action → List (Entry String Download)
  | .poll connectorId a => itemsLog (cfg.at connectorId) d.gateway.db.chunks
      (batchAt (cfg.at connectorId) d.tables a)
  | _ => []

/-- The log of a run, oldest line first. -/
def runLog (p : Platform) (cfg : Config) : State → List Action → List (Entry String Download)
  | _, [] => []
  | d, a :: as =>
      stepLog cfg d a ++ ((deployment p cfg).step d a).elim [] fun d' => runLog p cfg d' as

/-! ## The table and the versions -/

/-- A version as a change, as far as its rows go. -/
def Download.item (d : Download) : ChangeItem := ⟨d.remoteId, none, d.name, false, none, false⟩

/-- The table holds these versions: all chunks of each, in their order, and no other rows. -/
structure Holds (cfg : Config) (versions : String → Option Download) (rows : List DocumentChunk) :
    Prop where
  mirrors : ∀ id d, versions id = some d → d.remoteId = id ∧
    Mirrors cfg asI32 rows d.item (chunk (extractText cfg.unicode d.content d.name))
  of_version : ∀ row ∈ rows, ∃ d c, versions d.remoteId = some d ∧ ChunkOf cfg d c row

theorem holds_nil (cfg : Config) : Holds cfg (fun _ => none) [] where
  mirrors _ _ h := by cases h
  of_version _ h := by cases h

section Writes

variable {cfg : Config} {versions : String → Option Download} {rows rows' : List DocumentChunk}
  {x : Report}

/-- The rows of an item mirror its version as long as they are not touched. -/
theorem Holds.kept (h : Holds cfg versions rows) {id : String} {d : Download}
    (hd : versions id = some d) (hrows : rowsOf rows' id = rowsOf rows id) :
    d.remoteId = id ∧
      Mirrors cfg asI32 rows' d.item (chunk (extractText cfg.unicode d.content d.name)) := by
  obtain ⟨rfl, hm⟩ := h.mirrors id d hd
  refine ⟨rfl, ?_⟩
  unfold Mirrors at hm ⊢
  rw [show rowsOf rows' d.item.remoteId = rowsOf rows d.item.remoteId from hrows]
  exact hm

/-- A row of another item is of a version that a write of this one leaves alone. -/
theorem Holds.of_kept (h : Holds cfg versions rows) {id : String} {row : DocumentChunk}
    (hrow : row ∈ deleteChunks rows id) (v : Option Download) :
    ∃ d c, Function.update versions id v d.remoteId = some d ∧ ChunkOf cfg d c row := by
  obtain ⟨hmem, hother⟩ := List.mem_filter.mp hrow
  obtain ⟨d, c, hd, hc⟩ := h.of_version row hmem
  have hne : d.remoteId ≠ id := by
    rintro rfl
    exact absurd hc.sourceItemId (of_decide_eq_true hother)
  exact ⟨d, c, by rw [Function.update_of_ne hne, hd], hc⟩

/-- **Deleting an item.** -/
theorem Holds.delete (h : Holds cfg versions rows) (id : String) :
    Holds cfg (Function.update versions id none) (deleteChunks rows id) where
  mirrors := by
    intro id' d hd
    by_cases hid : id' = id
    · rw [hid, Function.update_self] at hd
      cases hd
    · rw [Function.update_of_ne hid] at hd
      exact h.kept hd (rowsOf_deleteChunks_of_ne rows hid)
  of_version _ hrow := h.of_kept hrow none

/-- **Storing a version.** -/
theorem Holds.store (h : Holds cfg versions rows) {content : Bytes} {encrypted : List Bytes}
    {embeddings : List Vector32} (hdel : x.1.deleted = false) (hdown : x.2.download = .ok content)
    (henc : encryptFrom cfg x.2 0 (chunk (extractText cfg.unicode content x.1.name)) = some encrypted)
    (hemb : embedBatch cfg x.2 (chunk (extractText cfg.unicode content x.1.name)) = some embeddings)
    (hup : upsertChunks cfg rows x encrypted embeddings = some rows')
    (hiv : ∀ k iv, x.2.iv k = some iv → iv.length = ivLengthBytes) :
    Holds cfg (Function.update versions x.1.remoteId (downloaded x)) rows' := by
  have hdownloaded : downloaded x = some ⟨x.1.remoteId, x.1.name, content⟩ := by
    unfold downloaded
    rw [hdown]
    rfl
  rw [hdownloaded]
  obtain ⟨⟨chunks, hchunks, hm⟩, hother⟩ :=
    upsertChunks_applied (expected_of_download hdel hdown) henc hemb hup
  rw [expected_of_download hdel hdown] at hchunks
  cases hchunks
  constructor
  · intro id d hd
    by_cases hid : id = x.1.remoteId
    · rw [hid, Function.update_self] at hd
      cases hd
      exact ⟨hid.symm, hm.congr rfl rfl⟩
    · rw [Function.update_of_ne hid] at hd
      exact h.kept hd (hother id hid)
  · intro row hrow
    rcases upsertChunks_mem hup hrow with hrow | ⟨j, e, v, he, rfl⟩
    · exact h.of_kept hrow _
    · obtain ⟨c, hchunk⟩ := chunkOf_newRow henc hiv he j v
      exact ⟨_, c, Function.update_self _ _ _, hchunk⟩

end Writes

/-! ## The daemon does what its log says -/

/-- **One change.** -/
theorem processItem_holds {cfg : Config} {versions : String → Option Download}
    {rows : List DocumentChunk} {x : Report} (h : Holds cfg versions rows)
    (hiv : ∀ k iv, x.2.iv k = some iv → iv.length = ivLengthBytes) :
    ∃ versions', Leads versions (entryOf x (processItem cfg rows x).2).toList versions' ∧
      Holds cfg versions' (processItem cfg rows x).1 := by
  have heffect := processItem_effect cfg rows x
  obtain ⟨rows', outcome, hrun⟩ : ∃ rows' outcome, processItem cfg rows x = (rows', outcome) :=
    ⟨_, _, rfl⟩
  rw [hrun] at heffect ⊢
  cases heffect with
  | unchanged hdeleted hprocessed =>
      -- nothing is said, or a write that was not made
      refine ⟨versions, ?_, h⟩
      cases outcome with
      | deleted => exact absurd rfl hdeleted
      | processed => exact absurd rfl hprocessed
      | deleteFailed => exact .lost rfl (.nil _)
      | upsertFailed => exact .lost rfl (.nil _)
      | downloadFailed => exact .nil _
      | emptyText => exact .nil _
      | noChunks => exact .nil _
      | chunkingFailed => exact .nil _
      | encryptionFailed => exact .nil _
      | embeddingFailed => exact .nil _
  | deleted hdel ho =>
      refine ⟨_, ?_, h.delete x.1.remoteId⟩
      rcases ho with rfl | rfl
      · exact .written (.nil _)
      · exact .written (.nil _)
  | stored hdel hdown henc hemb hup ho =>
      refine ⟨_, ?_, h.store hdel hdown henc hemb hup hiv⟩
      rcases ho with rfl | rfl
      · exact .written (.nil _)
      · exact .written (.nil _)

/-- **The item loop.** -/
theorem itemsTable_holds {cfg : Config} {versions : String → Option Download}
    {rows : List DocumentChunk} {xs : List Report} (h : Holds cfg versions rows)
    (hiv : ∀ x ∈ xs, ∀ k iv, x.2.iv k = some iv → iv.length = ivLengthBytes) :
    ∃ versions', Leads versions (itemsLog cfg rows xs) versions' ∧
      Holds cfg versions' (itemsTable cfg rows xs) := by
  induction xs generalizing rows versions with
  | nil => exact ⟨versions, .nil _, h⟩
  | cons x xs ih =>
      obtain ⟨versions₁, hfirst, h₁⟩ := processItem_holds h (hiv x List.mem_cons_self)
      obtain ⟨versions₂, hrest, h₂⟩ := ih h₁ fun y hy => hiv y (List.mem_cons_of_mem _ hy)
      exact ⟨versions₂, hfirst.append hrest, h₂⟩

/-- Another connector has the same key and the same chunker. -/
theorem Holds.of_same {cfg cfg' : Config} {versions : String → Option Download}
    {rows : List DocumentChunk} (h : Holds cfg versions rows) (hunicode : cfg.unicode = cfg'.unicode)
    (haesGcm : cfg.aesGcm = cfg'.aesGcm) (hkey : cfg.contentKey = cfg'.contentKey)
    (hclass : cfg.classification = cfg'.classification) : Holds cfg' versions rows := by
  have hencrypt : ∀ iv plaintext, Ingestion.encrypt cfg iv plaintext = Ingestion.encrypt cfg' iv plaintext := by
    intro iv plaintext
    unfold Ingestion.encrypt
    rw [haesGcm, hkey]
  constructor
  · intro id d hd
    obtain ⟨hid, hm⟩ := h.mirrors id d hd
    rw [hunicode] at hm
    refine ⟨hid, hm.mono ?_⟩
    intro c j r hr
    have hencrypted := hr.encrypted
    simp only [hencrypt] at hencrypted
    exact ⟨hr.sourceItemId, hr.docName, hr.classification.trans hclass, hr.chunkIndex, hencrypted⟩
  · intro row hrow
    obtain ⟨d, c, hd, hc⟩ := h.of_version row hrow
    have hencrypted := hc.encrypted
    rw [haesGcm, hkey] at hencrypted
    have hchunk := hc.chunk_mem
    rw [hunicode] at hchunk
    exact ⟨d, c, hd, hchunk, hc.docName, hc.sourceItemId, hc.classification.trans hclass, hencrypted⟩

/-- **One step** of the deployment. -/
theorem Holds.step {p : Platform} {cfg : Config} {d d' : State} {a : Action}
    {versions : String → Option Download} (h : Holds cfg versions d.gateway.db.chunks)
    (hiv : FullIvs d a) (hst : (deployment p cfg).step d a = some d') :
    ∃ versions', Leads versions (stepLog cfg d a) versions' ∧
      Holds cfg versions' d'.gateway.db.chunks := by
  cases a with
  | poll connectorId a =>
      obtain ⟨db, hdb, rfl⟩ := Option.map_eq_some_iff.mp hst
      unfold withChunks at hdb
      split_ifs at hdb with hvalid
      cases hdb
      have hat : Holds (cfg.at connectorId) versions d.gateway.db.chunks :=
        h.of_same rfl rfl rfl rfl
      obtain ⟨versions', hlog, hholds⟩ := itemsTable_holds hat (batchAt_iv hiv)
      refine ⟨versions', hlog, ?_⟩
      show Holds cfg versions' (runCycle (cfg.at connectorId) d.tables a).2.chunks
      rw [(runCycle_db _ _ _).1]
      exact hholds.of_same rfl rfl rfl rfl
  | invoke inv =>
      cases hst
      refine ⟨versions, .nil _, ?_⟩
      rw [show (after p inv d.gateway).db.chunks = d.gateway.db.chunks from
        (after_frame p inv d.gateway).chunks]
      exact h
  | grant grants =>
      obtain ⟨db, hdb, rfl⟩ := Option.map_eq_some_iff.mp hst
      unfold withGrants at hdb
      split_ifs at hdb with hvalid
      cases hdb
      exact ⟨versions, .nil _, h⟩

/-- **A run.** -/
theorem Holds.run {p : Platform} {cfg : Config} {d d' : State} {as : List Action}
    {versions : String → Option Download} (h : Holds cfg versions d.gateway.db.chunks)
    (hrun : (deployment p cfg).Steps FullIvs d as d') :
    ∃ versions', Leads versions (runLog p cfg d as) versions' ∧
      Holds cfg versions' d'.gateway.db.chunks := by
  induction hrun generalizing versions with
  | nil => exact ⟨versions, .nil _, h⟩
  | cons hiv hst _ ih =>
      obtain ⟨versions₁, hfirst, h₁⟩ := h.step hiv hst
      obtain ⟨versions₂, hrest, h₂⟩ := ih h₁
      refine ⟨versions₂, ?_, h₂⟩
      unfold runLog
      rw [hst]
      exact hfirst.append hrest

/-! ## What a search quotes -/

section Search

variable {p : Platform} {g : GatewayState} {key : ApiKey}

theorem matchesText_stored {q : JString} {limit : Int} {rows : List DocumentChunk}
    (h : MatchesText p g.db key q limit rows) : rows ⊆ g.db.chunks := by
  obtain ⟨-, text, -, hrows⟩ := h
  intro row hrow
  exact readableRows_subset (findable_readable (hrows.sublist.subset hrow))

theorem nearestByVector_stored {q : JString} {limit : Int} {rows : List DocumentChunk}
    (h : NearestByVector p g.db key q limit rows) : rows ⊆ g.db.chunks := by
  obtain ⟨-, v, -, -, -, hrows⟩ := h
  intro row hrow
  exact readableRows_subset (findable_readable (hrows.subperm.subset hrow))

theorem searchAnswers_rows {now : Nat} {meaning : SearchMeaning} {query : Option JString}
    {maxResults : Option Int} {fragments : List DataFragment}
    (hmeaning : ∀ {q limit rows}, meaning q limit rows → rows ⊆ g.db.chunks)
    (h : SearchAnswers p now g.db key meaning query maxResults (.fragments fragments)) :
    (∃ denial, fragments = [denial] ∧ denial.sourceId = "denial") ∨
    ∃ rows, rows ⊆ g.db.chunks ∧ fragments = rows.map (fragmentFor p) := by
  cases h with
  | rejected => exact Or.inl ⟨_, rfl, rfl⟩
  | exceeded => exact Or.inl ⟨_, rfl, rfl⟩
  | found _ _ hrows => exact Or.inr ⟨_, hmeaning hrows, rfl⟩

/-- **A search returns** a lone denial, or the fragments of stored rows. -/
theorem answer_rows (hdistance : p.OrdersDistances) {inv : Invocation}
    {fragments : List DataFragment} (h : answer p inv g = .ok (.fragments fragments)) :
    (∃ denial, fragments = [denial] ∧ denial.sourceId = "denial") ∨
    ∃ rows, rows ⊆ g.db.chunks ∧ fragments = rows.map (fragmentFor p) := by
  rcases answer_answered h with hdenial | ⟨key, hkey, -⟩
  · exact Or.inl hdenial
  obtain ⟨env, auth, call⟩ := inv
  cases auth with
  | absent => cases hkey
  | otherPrincipal => cases hkey
  | apiKey key' =>
      have hright := (means_toolBody env hdistance call).answer rfl h
      cases call with
      | listSources => cases hright
      | queryDatabase table filters maxRows => cases hright
      | searchDocuments query maxResults => exact searchAnswers_rows matchesText_stored hright
      | semanticSearchDocuments query maxResults =>
          exact searchAnswers_rows nearestByVector_stored hright

end Search

/-- **Searches are current.** In every state the daemon and the gateway can get into, whatever has
failed, the table is that of the versions the log leads to, and whatever a search returns is a lone
denial, or fragments that each frame the beginning of a chunk of such a version. -/
theorem fragments_current {p : Platform} {cfg : Config} (hopens : Opens p cfg)
    (hdistance : p.OrdersDistances) {d₀ d : State} {as : List Action}
    (hinit : (deployment p cfg).init d₀) (hrun : (deployment p cfg).Steps FullIvs d₀ as d) :
    ∃ versions, Leads (fun _ => none) (runLog p cfg d₀ as) versions ∧
      Holds cfg versions d.gateway.db.chunks ∧
      ∀ inv fragments, answer p inv d.gateway = .ok (.fragments fragments) →
        (∃ denial, fragments = [denial] ∧ denial.sourceId = "denial") ∨
        ∀ f ∈ fragments, ∃ dl c, versions dl.remoteId = some dl ∧
          c ∈ chunk (extractText cfg.unicode dl.content dl.name) ∧ f.docName = dl.name ∧
          f.fragmentText = framed ((jstr c).take maxFragmentChars) := by
  have hempty : Holds cfg (fun _ => none) d₀.gateway.db.chunks := by
    rw [hinit.1]
    exact holds_nil cfg
  obtain ⟨versions, hlog, hholds⟩ := hempty.run hrun
  refine ⟨versions, hlog, hholds, ?_⟩
  intro inv fragments h
  rcases answer_rows hdistance h with hdenial | ⟨rows, hrows, rfl⟩
  · exact Or.inl hdenial
  right
  intro f hf
  obtain ⟨row, hrow, rfl⟩ := List.mem_map.mp hf
  obtain ⟨dl, c, hdl, hc⟩ := hholds.of_version row (hrows hrow)
  refine ⟨dl, c, hdl, hc.chunk_mem, hc.docName, ?_⟩
  have htext : textOf p row = (jstr c).take maxFragmentChars := by
    unfold textOf
    rw [hc.chunkText hopens]
  show framed (textOf p row) = _
  rw [htext]

/-! ## One document, downloaded and replaced -/

/-- The second download, under an IV of its own. -/
def worldEnv : ItemEnv := { sampleEnv "world" with iv := fun _ => some (List.replicate 12 6) }

def worldPoll : Action := .poll "drive" (sampleCycle [sampleItem false] (fun _ => worldEnv) "2")

def worldRow : DocumentChunk :=
  newRow sampleConfig (sampleItem false, worldEnv) 0 (List.replicate 12 6 ++ worldSealed)
    sampleVector

theorem worldRow_fits : ChunkFits worldRow := by
  unfold ChunkFits
  decide

theorem world_processed : processItem sampleConfig [helloRow] (sampleItem false, worldEnv)
    = ([worldRow], .processed) := by
  have htext : extractText sampleConfig.unicode (asBytes "world") "a.txt" = "world" := by decide
  have hchunk : chunk "world" = ["world"] := chunk_short (by decide) (by decide)
  have hdel : (sampleItem false).deleted = false := rfl
  have hname : (sampleItem false).name = "a.txt" := rfl
  have hdown : worldEnv.download = .ok (asBytes "world") := rfl
  have hchunker : worldEnv.chunkerFails = false := rfl
  have henc : encryptFrom sampleConfig worldEnv 0 ["world"]
      = some [List.replicate 12 6 ++ worldSealed] := rfl
  have hemb : embedBatch sampleConfig worldEnv ["world"] = some [sampleVector] := by
    simp [embedBatch, batches, embedFrom, embedOneBatch, sampleConfig, sampleEnv, worldEnv]
  have hgone : deleteChunks [helloRow] (sampleItem false).remoteId = [] := by decide
  have hup : upsertChunks sampleConfig [helloRow] (sampleItem false, worldEnv)
      [List.replicate 12 6 ++ worldSealed] [sampleVector] = some [worldRow] := by
    unfold upsertChunks
    rw [hgone]
    rfl
  have hdone : worldEnv.upsert = .done := rfl
  unfold processItem
  simp only [hdel, hname, hdown, htext, hchunker, hchunk, henc, hemb, hup, hdone,
    Bool.false_eq_true, if_false, String.reduceEq, reduceCtorEq]

/-- The new version is in the table. -/
def worldEnd : State where
  gateway := oneDocument worldRow worldRow_fits
  cursors := saveCursor helloEnd.cursors "drive" "2"
  downloads := helloEnd.downloads ++ [⟨"item-1", "a.txt", asBytes "world"⟩]

theorem world_polled : (runCycle (sampleConfig.at "drive") helloEnd.tables
    (sampleCycle [sampleItem false] (fun _ => worldEnv) "2")).2
      = ⟨[worldRow], saveCursor helloEnd.cursors "drive" "2"⟩ := by
  have hcfg : sampleConfig.at "drive" = sampleConfig := rfl
  have hbatch : (sampleCycle [sampleItem false] (fun _ => worldEnv) "2").batch
      ⟨some "2", [sampleItem false], false⟩ = [(sampleItem false, worldEnv)] := rfl
  have hchunks : helloEnd.tables.chunks = [helloRow] := rfl
  have hlist : ∀ cursor, (sampleCycle [sampleItem false] (fun _ => worldEnv) "2").listChanges
      cursor = .ok ⟨some "2", [sampleItem false], false⟩ := fun _ => rfl
  have hload : (sampleCycle [sampleItem false] (fun _ => worldEnv) "2").loadFails = false := rfl
  have hsave : (sampleCycle [sampleItem false] (fun _ => worldEnv) "2").save = .done := rfl
  unfold runCycle
  simp only [hcfg, hload, hlist, hbatch, hchunks, hsave, runItems, world_processed,
    Bool.false_eq_true, if_false]
  rfl

theorem world_step : (deployment helloPlatform sampleConfig).step helloEnd worldPoll
    = some worldEnd := by
  unfold worldPoll
  dsimp only [deployment]
  rw [world_polled]
  unfold withChunks
  rw [dif_pos ⟨nodup_single_id worldRow, fits_single worldRow_fits⟩]
  rfl

theorem world_answer : answer helloPlatform helloSearch worldEnd.gateway
    = .ok (.fragments [fragmentOf worldRow (jstr "world")]) := by
  unfold answer invoke callTool
  show (enforceAllowlist calmEnv (.apiKey (sampleKey .readOnly 2)) "search_documents"
    (applyRlsRole calmEnv (.apiKey (sampleKey .readOnly 2)) (toolBody helloPlatform calmEnv
      (.apiKey (sampleKey .readOnly 2)) (.searchDocuments (some planQuery) none))) _).1 = _
  rw [hello_body]
  rfl

def hello : Download := ⟨"item-1", "a.txt", asBytes "hello"⟩

def world : Download := ⟨"item-1", "a.txt", asBytes "world"⟩

theorem world_log : runLog helloPlatform sampleConfig helloStart [helloPoll, worldPoll]
    = [⟨"item-1", some hello, true⟩, ⟨"item-1", some world, true⟩] := by
  unfold runLog
  rw [hello_step]
  show stepLog sampleConfig helloStart helloPoll ++ runLog _ _ helloEnd [worldPoll] = _
  unfold runLog
  rw [world_step]
  show (entryOf _ (processItem sampleConfig [] (sampleItem false, sampleEnv "hello")).2).toList ++ []
    ++ ((entryOf _ (processItem sampleConfig [helloRow] (sampleItem false, worldEnv)).2).toList
      ++ [] ++ []) = _
  rw [hello_processed, world_processed]
  rfl

/-- The document has been replaced, and the search quotes the new version. -/
theorem hello_replaced : answer helloPlatform helloSearch worldEnd.gateway
      = .ok (.fragments [fragmentOf worldRow (jstr "world")]) ∧
    ∃ versions, versions "item-1" = some world ∧
      Holds sampleConfig versions worldEnd.gateway.db.chunks ∧
      ∃ dl c, versions dl.remoteId = some dl ∧
        c ∈ chunk (extractText sampleConfig.unicode dl.content dl.name) ∧
        framed (jstr "world") = framed ((jstr c).take maxFragmentChars) := by
  have hinit : (deployment helloPlatform sampleConfig).init helloStart := ⟨rfl, rfl⟩
  have hdistance : helloPlatform.OrdersDistances := ⟨fun _ _ _ _ _ _ => rfl, fun _ _ _ => rfl⟩
  have hhello : FullIvs helloStart helloPoll := by
    intro i k iv hiv
    have hiv' : some (List.replicate 12 5) = some iv := hiv
    cases hiv'
    rfl
  have hworld : FullIvs helloEnd worldPoll := by
    intro i k iv hiv
    have hiv' : some (List.replicate 12 6) = some iv := hiv
    cases hiv'
    rfl
  obtain ⟨versions, hlog, hholds, hcurrent⟩ := fragments_current hello_opens hdistance hinit
    (.cons hhello hello_step (.cons hworld world_step (.nil _)))
  refine ⟨world_answer, versions, ?_, hholds, ?_⟩
  · have hlog' : Leads (fun _ => none) (runLog helloPlatform sampleConfig helloStart
        [helloPoll, worldPoll]) versions := hlog
    rw [world_log] at hlog'
    have hlast : Leads (fun _ => none)
        ([⟨"item-1", some hello, true⟩] ++ ⟨"item-1", some world, true⟩ :: []) versions := hlog'
    exact hlast.settled rfl nofun
  · rcases hcurrent helloSearch _ world_answer with ⟨denial, hdenial, hid⟩ | hfragments
    · cases hdenial
      exact absurd hid (by decide)
    · obtain ⟨dl, c, hdl, hc, -, htext⟩ := hfragments _ List.mem_cons_self
      exact ⟨dl, c, hdl, hc, htext⟩

end McpGateway.Deployment
