import McpGateway.Graph.Drive
import McpGateway.Zoho.Crawl

/-! # Does the first crawl fill the table?

The first crawl of a WorkDrive is spread over many cycles of the daemon: each takes one folder off
the queue of the saved cursor. Cycles may fail, and the daemon may be killed in the middle of one.

* `Truthful` — what is assumed of Zoho, poll by poll: the folders stay as they are, and so does one
  file.
* `Keeps` — what the daemon has to get right for that file: its last report, in a poll that saves the
  cursor.
* `crawl_fills` — wherever the saved cursor says that the first crawl is over, the table shows the
  file, if its text yields a chunk. -/

namespace McpGateway.Zoho

open Foundation Ingestion
open McpGateway.Graph (Entry Shown Stored ReportOf LastSucceeds)

/-! ## The daemon with this connector -/

/-- The outside world during one poll. `fuel` bounds the requests: a poll that is not done by then
is none. -/
structure Poll where
  loadFails : Bool
  nowMs : Nat
  server : Server
  fuel : Nat
  items : Nat → ItemEnv
  save : DbOutcome

/-- The poll as a cycle of the daemon. -/
def Poll.cycle (g : Poll) (result : Except ConnectorError Listing) : Cycle where
  loadFails := g.loadFails
  listChanges := fun _ => result.map Listing.delta
  items := g.items
  save := g.save

inductive WorkdriveAction where
  | poll (g : Poll)
  /-- the daemon is killed after so many changes of the poll: no cursor is saved -/
  | killed (g : Poll) (done : Nat)
  /-- a cycle of another connector -/
  | other (connectorId : String) (a : Cycle)

section Daemon

variable (json : CursorJson) (rootId : String) (cfg : Config)

/-- What the call of the poll returns. -/
def Poll.result (g : Poll) (db : Db) : Option (Except ConnectorError Listing) :=
  listChanges json rootId g.nowMs g.server g.fuel (db.cursors cfg.connectorId)

/-- The daemon, from the empty cursor on. -/
def workdrive : System Db WorkdriveAction where
  init db := db.cursors cfg.connectorId = none
  step db
    | .poll g => (g.result json rootId cfg db).map fun result =>
        (runCycle cfg db (g.cycle result)).2
    | .killed g done => (g.result json rootId cfg db).map fun result =>
        { db with
          chunks := itemsTable cfg db.chunks ((batchAt cfg db (g.cycle result)).take done) }
    | .other connectorId a =>
        if connectorId = cfg.connectorId then none
        else some (runCycle (cfg.at connectorId) db a).2

end Daemon

/-! ## What Zoho promises -/

/-- A file of the drive, and the folders. -/
structure Placement where
  kids : String → List String
  home : String
  id : String
  entry : Option Entry

/-- The item as Zoho lists this entry. -/
def Depicts (item : ZohoFileItem) : Option Entry → Prop
  | none => item.isDeleted = true
  | some (.file name _) => item.isDeleted = false ∧ item.name.getD "" = name
  | some (.folder _) => False

/-- A listing without a date has the subfolders of a folder, and the file if it is there; whenever
the file is listed or downloaded, it is as the entry says. -/
structure Feed (w : Placement) (cfg : Config) (db : Db) (g : Poll)
    (result : Except ConnectorError Listing) : Prop where
  folders : ∀ folderId pages, PagesFrom g.server folderId 0 0 0 pages →
    subfolders pages.flatten = w.kids folderId
  present : ∀ pages, PagesFrom g.server w.home 0 0 0 pages →
    ∃ item ∈ pages.flatten, item.isFolder = false ∧ item.id = w.id
  depicted : ∀ folderId fromMs offset pages, PagesFrom g.server folderId fromMs 0 offset pages →
    ∀ item ∈ pages.flatten, item.isFolder = false → item.id = w.id → Depicts item w.entry
  downloaded : ∀ x ∈ batchAt cfg db (g.cycle result), x.1.remoteId = w.id →
    ∀ name content bytes, w.entry = some (.file name content) → x.2.download = .ok bytes →
      bytes = content

/-- Zoho keeps its promises. -/
def Truthful (json : CursorJson) (rootId : String) (w : Placement) (cfg : Config) (db : Db) :
    WorkdriveAction → Prop
  | .poll g | .killed g _ => ∀ result, g.result json rootId cfg db = some result →
      Feed w cfg db g result
  | .other _ _ => True

/-- A poll that saves a cursor processes the last report of the file, and the other connectors have
no item of this name. -/
def Keeps (json : CursorJson) (rootId : String) (w : Placement) (cfg : Config) (db : Db) :
    WorkdriveAction → Prop
  | .poll g => ∀ listing, g.result json rootId cfg db = some (.ok listing) → g.save ≠ .failed →
      LastSucceeds cfg db.chunks w.id (batchAt cfg db (g.cycle (.ok listing)))
  | .killed _ _ => True
  | .other connectorId a => ∀ x ∈ batchAt (cfg.at connectorId) db a, x.1.remoteId ≠ w.id

/-! ## The search -/

/-- The first crawl is going on, and has taken these folders off the queue. -/
def Crawling (json : CursorJson) (rootId : String) (kids : String → List String)
    (cursor : Option String) (taken : List String) : Prop :=
  ∀ nowMs, ∃ state, loadState json rootId nowMs cursor = some state ∧ state.watermarkMs = 0 ∧
    (∀ f ∈ state.queue, f.nextOffset = 0) ∧
    Worklist.Explored kids rootId taken state.worklist

section Search

variable {json : CursorJson} {rootId : String} {kids : String → List String}
  {cursor : Option String} {taken : List String}

theorem Crawling.start : Crawling json rootId kids none [] := by
  intro nowMs
  refine ⟨_, rfl, rfl, ?_, Worklist.Explored.nil⟩
  simp [ZohoCursor.bootstrap]

/-- Behind the last folder everything has been taken off. -/
theorem Crawling.over (h : Crawling json rootId kids cursor taken) {nowMs : Nat}
    {state : ZohoCursor} (hload : loadState json rootId nowMs cursor = some state)
    (hover : state.queue = [] ∨ state.watermarkMs ≠ 0) {folderId : String}
    (hreached : Worklist.Reaches kids rootId folderId) : folderId ∈ taken := by
  obtain ⟨state', hload', hfirst, -, hexplored⟩ := h nowMs
  rw [hload] at hload'
  cases hload'
  rcases hover with hqueue | hlater
  · exact hexplored.closed (by simp [ZohoCursor.worklist, hqueue]) hreached
  · exact absurd hfirst hlater

/-- **A call** of the first crawl that succeeds lists a whole folder, unless there is none left. -/
theorem Crawling.call (h : Crawling json rootId kids cursor taken) {nowMs fuel : Nat}
    {server : Server} {listing : Listing}
    (hcall : listChanges json rootId nowMs server fuel cursor = some (.ok listing)) :
    (∀ f, Worklist.Reaches kids rootId f → f ∈ taken) ∨
    ∃ folderId pages next, PagesFrom server folderId 0 0 0 pages ∧
      listing.delta.changes = pages.flatten.filterMap (changeOf folderId) ∧
      listing.delta.nextCursor = some next ∧
      (subfolders pages.flatten = kids folderId →
        Crawling json rootId kids (some next) (taken ++ [folderId])) := by
  obtain ⟨state, hload, ⟨hqueue, -⟩ | ⟨folder, queue, pages, new, hqueue, hpages, hwork, rfl⟩⟩ :=
    listChanges_ok hcall
  · exact Or.inl fun f hf => h.over hload (Or.inl hqueue) hf
  right
  obtain ⟨state', hload', hfirst, hoffsets, hexplored⟩ := h nowMs
  rw [hload] at hload'
  cases hload'
  have hfrom : state.fromMs = 0 := by
    rw [ZohoCursor.fromMs, hfirst]
    rfl
  have hoffset : folder.nextOffset = 0 := hoffsets folder (by simp [hqueue])
  rw [hfrom, hoffset] at hpages
  refine ⟨folder.folderId, pages, _, hpages, rfl, rfl, ?_⟩
  intro hfolders nowMs'
  refine ⟨_, json.fromJson_toJson _, hfirst, ?_, ?_⟩
  · intro f hf
    rcases List.mem_append.mp hf with hf | hf
    · exact hoffsets f (by simp [hqueue, hf])
    · obtain ⟨id, -, rfl⟩ := List.mem_map.mp hf
      rfl
  · have hqueue' : state.worklist.queue = folder.folderId :: queue.map FolderCursor.folderId := by
      simp [ZohoCursor.worklist, hqueue]
    rw [← hwork, hfolders]
    exact hexplored.step hqueue'

end Search

/-! ## One step -/

section Step

variable {json : CursorJson} {rootId : String} {w : Placement} {cfg : Config} {db db' : Db}
  {g : Poll} {folderId : String}

/-- The changes of a poll, with what happens while they are processed. -/
theorem batchAt_cycle (listing : Listing) (hload : g.loadFails = false) :
    batchAt cfg db (g.cycle (.ok listing))
      = listing.delta.changes.mapIdx fun i item => (item, g.items i) := by
  unfold batchAt
  simp [Poll.cycle, hload, Except.map, Cycle.batch]

theorem mem_batchAt_cycle {result : Except ConnectorError Listing} {x : Report}
    (hx : x ∈ batchAt cfg db (g.cycle result)) :
    ∃ listing, result = .ok listing ∧ x.1 ∈ listing.delta.changes := by
  unfold batchAt at hx
  split_ifs at hx with hload
  · cases hx
  · cases result with
    | error e => cases hx
    | ok listing =>
        obtain ⟨i, hi, rfl⟩ := List.mem_mapIdx.mp hx
        exact ⟨listing, rfl, List.getElem_mem hi⟩

/-- What is stored comes with a listing. -/
theorem storedToken_cycle {result : Except ConnectorError Listing} {token : String}
    (h : storedToken cfg db (g.cycle result) = some token) :
    g.loadFails = false ∧ g.save ≠ .failed ∧
      ∃ listing, result = .ok listing ∧ listing.delta.nextCursor = some token := by
  unfold storedToken at h
  cases hload : g.loadFails with
  | true => simp [Poll.cycle, hload] at h
  | false =>
      cases result with
      | error e => simp [Poll.cycle, hload, Except.map] at h
      | ok listing =>
          have h' : (if g.save = .failed then none else listing.delta.nextCursor) = some token := by
            simpa [Poll.cycle, hload, Except.map] using h
          split_ifs at h' with hsave
          exact ⟨rfl, hsave, listing, rfl, h'⟩

/-- What is reported of the file is of its entry. -/
theorem Feed.reportOf {result : Except ConnectorError Listing} (hf : Feed w cfg db g result)
    (hresult : g.result json rootId cfg db = some result) {x : Report}
    (hx : x ∈ batchAt cfg db (g.cycle result)) (hid : x.1.remoteId = w.id) :
    ReportOf x w.entry := by
  obtain ⟨listing, rfl, hchange⟩ := mem_batchAt_cycle hx
  obtain ⟨state, -, ⟨-, rfl⟩ | ⟨folder, queue, pages, new, -, hpages, -, rfl⟩⟩ :=
    listChanges_ok hresult
  · cases hchange
  obtain ⟨item, hitem, hof⟩ := List.mem_filterMap.mp hchange
  unfold changeOf at hof
  split_ifs at hof with hfolder
  have hx₁ := Option.some.inj hof
  have hitemId : item.id = w.id := by
    rw [← hid, ← hx₁]
  have hdepicts := hf.depicted _ _ _ _ hpages item hitem (by simpa using hfolder) hitemId
  have hdownloaded := hf.downloaded x hx hid
  cases hentry : w.entry with
  | none =>
      rw [hentry] at hdepicts
      show x.1.deleted = true
      rw [← hx₁]
      exact hdepicts
  | some entry =>
      rw [hentry] at hdepicts
      cases entry with
      | folder name => exact hdepicts.elim
      | file name content =>
          refine ⟨?_, ?_, fun bytes hbytes => hdownloaded name content bytes hentry hbytes⟩
          · rw [← hx₁]
            exact hdepicts.1
          · rw [← hx₁]
            exact hdepicts.2

/-- A file that is shown goes on to be shown, however many changes of a poll are done. -/
theorem Feed.quiet {result : Except ConnectorError Listing} (hf : Feed w cfg db g result)
    (hresult : g.result json rootId cfg db = some result)
    (hshown : Shown cfg db.chunks w.id w.entry) {xs : List Report}
    (hxs : xs ⊆ batchAt cfg db (g.cycle result)) :
    Shown cfg (itemsTable cfg db.chunks xs) w.id w.entry :=
  Graph.itemsTable_quiet (fun _ hx hid => hf.reportOf hresult (hxs hx) hid) hshown

/-- A poll that lists the folder of the file, and processes the last report of it, shows it. -/
theorem Feed.shows {listing : Listing} (hf : Feed w cfg db g (.ok listing))
    (hstored : Stored cfg w.entry)
    (hresult : g.result json rootId cfg db = some (.ok listing)) (hload : g.loadFails = false)
    {pages : List (List ZohoFileItem)} (hpages : PagesFrom g.server w.home 0 0 0 pages)
    (hchanges : listing.delta.changes = pages.flatten.filterMap (changeOf w.home))
    (hlast : LastSucceeds cfg db.chunks w.id (batchAt cfg db (g.cycle (.ok listing)))) :
    Shown cfg (itemsTable cfg db.chunks (batchAt cfg db (g.cycle (.ok listing)))) w.id w.entry := by
  obtain ⟨item, hitem, hfile, hid⟩ := hf.present pages hpages
  obtain ⟨change, hchange, hchangeId⟩ := changeOf_file w.home hfile
  have hmem : change ∈ listing.delta.changes := by
    rw [hchanges]
    exact List.mem_filterMap.mpr ⟨item, hitem, hchange⟩
  have hreported : ∃ x ∈ batchAt cfg db (g.cycle (.ok listing)), x.1.remoteId = w.id := by
    obtain ⟨i, hi, rfl⟩ := List.getElem_of_mem hmem
    rw [batchAt_cycle listing hload]
    exact ⟨_, List.mem_mapIdx.mpr ⟨i, hi, rfl⟩, hchangeId.trans hid⟩
  obtain ⟨before, x, after, hsplit, hx, hafter⟩ := exists_last hreported
  have hof : ReportOf x w.entry := by
    apply hf.reportOf hresult ?_ hx
    rw [hsplit]
    simp
  have hshown := Graph.itemsTable_last hof hstored (hlast before x after hsplit hx hafter)
    fun y hy => hx ▸ hafter y hy
  rw [hx] at hshown
  rw [hsplit]
  exact hshown

/-- The file is shown, or the first crawl has not come to its folder. -/
def Fills (json : CursorJson) (rootId : String) (w : Placement) (cfg : Config) (db : Db) : Prop :=
  Shown cfg db.chunks w.id w.entry ∨
    ∃ taken, w.home ∉ taken ∧ Crawling json rootId w.kids (db.cursors cfg.connectorId) taken

/-- **A poll.** -/
theorem Fills.poll (hhome : Worklist.Reaches w.kids rootId w.home) (hstored : Stored cfg w.entry)
    (h : Fills json rootId w cfg db) (htruthful : Truthful json rootId w cfg db (.poll g))
    (hkeeps : Keeps json rootId w cfg db (.poll g)) {result : Except ConnectorError Listing}
    (hresult : g.result json rootId cfg db = some result) :
    Fills json rootId w cfg (runCycle cfg db (g.cycle result)).2 := by
  have hf := htruthful result hresult
  obtain ⟨hchunks, hcursor⟩ := runCycle_db cfg db (g.cycle result)
  unfold Fills
  rw [hchunks, hcursor]
  rcases h with hshown | ⟨taken, hnot, hcrawling⟩
  · exact Or.inl (hf.quiet hresult hshown (List.Subset.refl _))
  cases htoken : storedToken cfg db (g.cycle result) with
  | none => exact Or.inr ⟨taken, hnot, hcrawling⟩
  | some token =>
      obtain ⟨hload, hsave, listing, rfl, hnext⟩ := storedToken_cycle htoken
      rcases hcrawling.call hresult with hall | ⟨folderId, pages, next, hpages, hchanges, hnext', hcall⟩
      · exact absurd (hall w.home hhome) hnot
      rw [hnext] at hnext'
      cases hnext'
      by_cases hat : folderId = w.home
      · subst hat
        exact Or.inl (hf.shows hstored hresult hload hpages hchanges (hkeeps listing hresult hsave))
      · refine Or.inr ⟨taken ++ [folderId], ?_, hcall (hf.folders folderId pages hpages)⟩
        intro hmem
        rcases List.mem_append.mp hmem with hmem | hmem
        · exact hnot hmem
        · exact hat (List.mem_singleton.mp hmem).symm

/-- **One step.** -/
theorem Fills.step (hhome : Worklist.Reaches w.kids rootId w.home) (hstored : Stored cfg w.entry)
    {a : WorkdriveAction} (h : Fills json rootId w cfg db)
    (htruthful : Truthful json rootId w cfg db a) (hkeeps : Keeps json rootId w cfg db a)
    (hst : (workdrive json rootId cfg).step db a = some db') : Fills json rootId w cfg db' := by
  cases a with
  | poll g =>
      obtain ⟨result, hresult, rfl⟩ := Option.map_eq_some_iff.mp hst
      exact h.poll hhome hstored htruthful hkeeps hresult
  | killed g done =>
      obtain ⟨result, hresult, rfl⟩ := Option.map_eq_some_iff.mp hst
      rcases h with hshown | hcrawling
      · exact Or.inl ((htruthful result hresult).quiet hresult hshown (List.take_subset done _))
      · exact Or.inr hcrawling
  | other connectorId a =>
      have hst' : (if connectorId = cfg.connectorId then none
          else some (runCycle (cfg.at connectorId) db a).2) = some db' := hst
      split_ifs at hst' with hne
      cases hst'
      unfold Fills
      rw [Graph.other_cursor hne, (runCycle_db (cfg.at connectorId) db a).1]
      rcases h with hshown | hcrawling
      · exact Or.inl (hshown.of_rowsOf (Graph.itemsTable_other hkeeps))
      · exact Or.inr hcrawling

end Step

/-! ## The run -/

/-- **The first crawl fills the table.** However often polls fail or are killed, and whatever the
other connectors do in between: once the saved cursor says that the first crawl is over, and from
then on, the rows of a file whose text yields a chunk are those of its version, if only the polls
that save a cursor get the last report of the file right. -/
theorem crawl_fills (json : CursorJson) {rootId : String} (cfg : Config) {w : Placement}
    (hhome : Worklist.Reaches w.kids rootId w.home) (hstored : Stored cfg w.entry) {db₀ db : Db}
    {as : List WorkdriveAction}
    (hinit : (workdrive json rootId cfg).init db₀)
    (hrun : (workdrive json rootId cfg).Steps (fun db a => Truthful json rootId w cfg db a ∧
      Keeps json rootId w cfg db a) db₀ as db) {c : String} {state : ZohoCursor}
    (hcursor : db.cursors cfg.connectorId = some c) (hstate : json.fromJson c = some state)
    (hover : state.queue = [] ∨ state.watermarkMs ≠ 0) :
    Shown cfg db.chunks w.id w.entry := by
  have hempty : Fills json rootId w cfg db₀ := by
    have hnone : db₀.cursors cfg.connectorId = none := hinit
    refine Or.inr ⟨[], by simp, ?_⟩
    rw [hnone]
    exact Crawling.start
  have hfills : Fills json rootId w cfg db :=
    hrun.preserves (fun _ _ _ h hc hst => h.step hhome hstored hc.1 hc.2 hst) hempty
  rcases hfills with hshown | ⟨taken, hnot, hcrawling⟩
  · exact hshown
  · have hload : loadState json rootId 0 (db.cursors cfg.connectorId) = some state := by
      rw [hcursor]
      exact hstate
    exact absurd (hcrawling.over hload hover hhome) hnot

/-! ## One document in a folder -/

def treeEntries (folderId : String) : List ZohoFileItem :=
  if folderId = "r" then [⟨"a", none, some "folder", none, none⟩]
  else if folderId = "a" then [⟨"item-1", some "a.txt", some "files", none, none⟩]
  else []

/-- A server that puts a folder on one page. -/
def wholeServer (entries : String → List ZohoFileItem) : Server := fun _ folderId _ _ =>
  .response 200 none (.ok (some (entries folderId), none))

theorem wholeServer_pages {entries : String → List ZohoFileItem} {folderId : String} {fromMs : Int}
    {request : Nat} {offset : UInt32} {pages : List (List ZohoFileItem)}
    (h : PagesFrom (wholeServer entries) folderId fromMs request offset pages) :
    pages = [entries folderId] := by
  have hread : listFolderPage (wholeServer entries request folderId offset fromMs)
      = .ok (entries folderId, false) := rfl
  match pages, h with
  | [page], h =>
      have hpage := hread.symm.trans h
      cases hpage
      rfl
  | page :: next :: pages, h =>
      have hpage := hread.symm.trans h.1
      cases hpage

def treePlacement : Placement :=
  ⟨childFolders treeEntries, "a", "item-1", some (.file "a.txt" (asBytes "hello"))⟩

def treePoll : Poll where
  loadFails := false
  nowMs := 0
  server := wholeServer treeEntries
  fuel := 1
  items := fun _ => sampleEnv "hello"
  save := .done

theorem tree_feed (db : Db) (result : Except ConnectorError Listing) :
    Feed treePlacement sampleConfig db treePoll result where
  folders folderId pages hpages := by
    rw [wholeServer_pages hpages, List.flatten_singleton]
    rfl
  present pages hpages := by
    rw [wholeServer_pages hpages, List.flatten_singleton]
    exact ⟨_, List.mem_singleton_self _, rfl, rfl⟩
  depicted folderId fromMs offset pages hpages item hitem hfile hid := by
    rw [wholeServer_pages hpages, List.flatten_singleton] at hitem
    unfold treeEntries at hitem
    split_ifs at hitem
    · obtain rfl := List.mem_singleton.mp hitem
      cases hfile
    · obtain rfl := List.mem_singleton.mp hitem
      exact ⟨rfl, rfl⟩
    · cases hitem
  downloaded x hx _ name content bytes hentry hbytes := by
    obtain ⟨i, henv⟩ := batchAt_env hx
    rw [henv] at hbytes
    cases hentry
    cases hbytes
    rfl

/-- The cursor behind the root, and behind the folder in it. -/
def treeState (queue : List FolderCursor) : ZohoCursor := ⟨0, queue, ["a"], "r", 0⟩

def treeDb (json : CursorJson) : Db :=
  ⟨[], saveCursor (fun _ => none) "drive" (json.toJson (treeState [⟨"a", 0⟩]))⟩

theorem tree_first (json : CursorJson) :
    (workdrive json "r" sampleConfig).step ⟨[], fun _ => none⟩ (.poll treePoll)
      = some (treeDb json) := rfl

def treeListing (json : CursorJson) : Listing :=
  ⟨⟨some (json.toJson (treeState [])), [⟨"item-1", some "a", "a.txt", false, none, false⟩], false⟩,
    [⟨"a", 0, 0, treeEntries "a", false⟩]⟩

theorem tree_result (json : CursorJson) :
    treePoll.result json "r" sampleConfig (treeDb json) = some (.ok (treeListing json)) := by
  have hload : loadState json "r" 0 ((treeDb json).cursors "drive")
      = some (treeState [⟨"a", 0⟩]) := json.fromJson_toJson _
  show listChanges json "r" 0 (wholeServer treeEntries) 1 ((treeDb json).cursors "drive") = _
  unfold listChanges
  rw [hload]
  rfl

def treeEnd (json : CursorJson) : Db :=
  (runCycle sampleConfig (treeDb json) (treePoll.cycle (.ok (treeListing json)))).2

theorem tree_second (json : CursorJson) :
    (workdrive json "r" sampleConfig).step (treeDb json) (.poll treePoll) = some (treeEnd json) := by
  show (treePoll.result json "r" sampleConfig (treeDb json)).map _ = _
  rw [tree_result]
  rfl

theorem tree_cursor (json : CursorJson) :
    (treeEnd json).cursors sampleConfig.connectorId = some (json.toJson (treeState [])) := by
  unfold treeEnd
  rw [(runCycle_db sampleConfig _ _).2]
  rfl

theorem tree_succeeds : Succeeds sampleConfig []
    (⟨"item-1", some "a", "a.txt", false, none, false⟩, sampleEnv "hello") := by
  have hexpected : expected sampleConfig
      (⟨"item-1", some "a", "a.txt", false, none, false⟩, sampleEnv "hello") = some ["hello"] :=
    sample_expected
  apply Succeeds.of_download rfl rfl rfl hexpected
  intro _
  exact ⟨_, _, _, rfl, sample_embedBatch, rfl, rfl⟩

theorem tree_keeps (json : CursorJson) :
    Keeps json "r" treePlacement sampleConfig (treeDb json) (.poll treePoll) := by
  intro listing hresult _ before x after hsplit _ _
  rw [tree_result] at hresult
  cases hresult
  obtain ⟨rfl, rfl, rfl⟩ := Graph.singleton_split (show [_] = _ from hsplit)
  exact tree_succeeds

theorem root_keeps (json : CursorJson) :
    Keeps json "r" treePlacement sampleConfig ⟨[], fun _ => none⟩ (.poll treePoll) := by
  intro listing hresult _ before x after hsplit _ _
  cases hresult
  cases before <;> cases hsplit

/-- The root is listed by the first poll and the folder by the second, and then the document is
there. -/
theorem tree_filled : (workdrive compactJson "r" sampleConfig).Steps System.anyStep
      ⟨[], fun _ => none⟩ [.poll treePoll, .poll treePoll] (treeEnd compactJson) ∧
    Shown sampleConfig (treeEnd compactJson).chunks "item-1"
      (some (.file "a.txt" (asBytes "hello"))) := by
  have hhome : Worklist.Reaches treePlacement.kids "r" treePlacement.home := .single (by decide)
  have hrun : (workdrive compactJson "r" sampleConfig).Steps
      (fun db a => Truthful compactJson "r" treePlacement sampleConfig db a ∧
        Keeps compactJson "r" treePlacement sampleConfig db a)
      ⟨[], fun _ => none⟩ [.poll treePoll, .poll treePoll] (treeEnd compactJson) :=
    .cons ⟨fun result _ => tree_feed _ result, root_keeps compactJson⟩ (tree_first compactJson)
      (.cons ⟨fun result _ => tree_feed _ result, tree_keeps compactJson⟩ (tree_second compactJson)
        (.nil _))
  have hinit : (workdrive compactJson "r" sampleConfig).init ⟨[], fun _ => none⟩ := rfl
  refine ⟨hrun.anyStep, ?_⟩
  exact crawl_fills compactJson sampleConfig hhome Graph.sample_stored hinit hrun
    (tree_cursor compactJson) (compactJson.fromJson_toJson _) (Or.inl rfl)

end McpGateway.Zoho
