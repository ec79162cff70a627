import McpGateway.Foundation.Transition
import McpGateway.Zoho.CursorJson

/-! # Modified files

The folders of a drive stay as they are, and files in them are modified. A listing with
`filter[fromDate]` has the files and the folders whose own time is late enough, and the search only
descends into folders that it has. Modifying a file does not change the time of its folder.

* `Searching` — what holds in the middle of a run.
* `modified_files_found` — runs in which the search can get to the modified files. -/

namespace McpGateway.Zoho

open Foundation Ingestion

/-! ## The drive -/

/-- The entries of each folder, and when each folder was last modified. -/
structure Drive where
  children : String → List ZohoFileItem
  folderTime : String → Nat

def Drive.time (d : Drive) (fileTime : String → Nat) (item : ZohoFileItem) : Nat :=
  if item.isFolder then d.folderTime item.id else fileTime item.id

/-- What a listing from `fromMs` on has. -/
def Drive.listing (d : Drive) (fileTime : String → Nat) (fromMs : Int) (folderId : String) :
    List ZohoFileItem :=
  ((d.children folderId).filter fun item => decide (fromMs ≤ d.time fileTime item)).map fun item =>
    { item with modifiedTime := some (d.time fileTime item) }

/-- The folders that a listing from `fromMs` on has. -/
def Drive.found (d : Drive) (fromMs : Int) (folderId : String) : List String :=
  ((d.children folderId).filter fun item =>
    item.isFolder && decide (fromMs ≤ d.folderTime item.id)).map ZohoFileItem.id

def Drive.IsFileOf (d : Drive) (file folderId : String) : Prop :=
  ∃ item ∈ d.children folderId, item.isFolder = false ∧ item.id = file

/-- The file is somewhere in the drive. -/
def Drive.HasFile (d : Drive) (rootId file : String) : Prop :=
  ∃ folderId, Worklist.Reaches (fun f => subfolders (d.children f)) rootId folderId ∧
    d.IsFileOf file folderId

/-- The time of the file is late enough, and so are the times of the folders on a way to it from the
root. -/
def Drive.Recent (d : Drive) (rootId : String) (fileTime : String → Nat) (fromMs : Int)
    (file : String) : Prop :=
  fromMs ≤ fileTime file ∧
    ∃ folderId, Worklist.Reaches (d.found fromMs) rootId folderId ∧ d.IsFileOf file folderId

/-! ## The daemon and the drive -/

/-- `dirty`: the files that were modified since they were last reported, or were never reported.
`owed`: those of them that were dirty when the run began. Neither is part of the program. -/
structure Crawler where
  fileTime : String → Nat
  cursor : Option String
  dirty : String → Bool
  owed : String → Bool

inductive CrawlerAction where
  | modify (file : String) (time : Nat)
  | call (nowMs : Nat) (server : Server) (fuel : Nat)
  | fail

/-- The files that are no longer waiting when these changes have been reported. -/
def unreported (waiting : String → Bool) (changes : List ChangeItem) (file : String) : Bool :=
  waiting file && !(file ∈ changes.map ChangeItem.remoteId)

section System

variable (json : CursorJson) (rootId : String) (d : Drive)

/-- A run begins with the empty cursor, and when the queue has been drained. -/
def Crawler.begins (s : Crawler) (listing : Listing) : Bool :=
  s.cursor.isNone || listing.pages.isEmpty

/-- The changes are reported, and the cursor is saved. -/
def Crawler.report (s : Crawler) (listing : Listing) : Crawler where
  fileTime := s.fileTime
  cursor := listing.delta.nextCursor
  dirty := unreported s.dirty listing.delta.changes
  owed := unreported (if s.begins listing then s.dirty else s.owed) listing.delta.changes

/-- The server's time never goes back. -/
def Crawler.step (s : Crawler) : CrawlerAction → Option Crawler
  | .modify file time =>
      if s.fileTime file ≤ time then
        some { s with
          fileTime := fun f => if f = file then time else s.fileTime f
          dirty := fun f => f = file || s.dirty f }
      else none
  | .call nowMs server fuel =>
      match listChanges json rootId nowMs server fuel s.cursor with
      | some (.ok listing) => some (s.report listing)
      | _ => none
  | .fail => some s

/-- Nothing has been reported. -/
def crawlerSystem : System Crawler CrawlerAction where
  init s := s.cursor = none ∧ ∀ file, s.dirty file = true
  step := Crawler.step json rootId

/-- The server lists the drive as it is at the time of the call. -/
def HonestCall (s : Crawler) : CrawlerAction → Prop
  | .call _ server _ => ∀ folderId fromMs,
      Serves server folderId fromMs (d.listing s.fileTime fromMs folderId)
  | _ => True

/-- When the queue has been drained, the next run can get to every dirty file. -/
def DirtyRecent (s : Crawler) : CrawlerAction → Prop
  | .call nowMs _ _ => ∀ state, loadState json rootId nowMs s.cursor = some state → state.queue = [] →
      ∀ file, d.HasFile rootId file → s.dirty file = true →
        d.Recent rootId s.fileTime (state.restart nowMs).fromMs file
  | _ => True

/-- In the middle of a run that has taken these folders off the queue: what is owed is in a folder
that the search will get to. -/
structure Searching (s : Crawler) (state : ZohoCursor) (taken : List String) : Prop where
  root : state.rootId = rootId
  offsets : ∀ f ∈ state.queue, f.nextOffset = 0
  explored : Worklist.Explored (d.found state.fromMs) rootId taken state.worklist
  owed : ∀ file, d.HasFile rootId file → s.owed file = true →
    state.fromMs ≤ s.fileTime file ∧ ∃ folderId,
      Worklist.Reaches (d.found state.fromMs) rootId folderId ∧ folderId ∉ taken ∧
        d.IsFileOf file folderId

end System

variable {json : CursorJson} {rootId : String} {d : Drive} {s s' : Crawler} {state : ZohoCursor}
  {taken : List String}

/-! ## What a listing has -/

theorem subfolders_listing (d : Drive) (fileTime : String → Nat) (fromMs : Int) (folderId : String) :
    subfolders (d.listing fileTime fromMs folderId) = d.found fromMs folderId := by
  simp only [subfolders, Drive.listing, Drive.found]
  induction d.children folderId with
  | nil => rfl
  | cons item items ih =>
      cases hfolder : item.isFolder with
      | false => by_cases hle : fromMs ≤ d.time fileTime item <;> simp_all [ZohoFileItem.isFolder]
      | true =>
          have htime : d.time fileTime item = d.folderTime item.id := if_pos hfolder
          by_cases hle : fromMs ≤ d.folderTime item.id <;> simp_all [ZohoFileItem.isFolder]

/-- A file that is late enough is reported. -/
theorem mem_changes {fileTime : String → Nat} {fromMs : Int} {file folderId : String}
    (hfile : d.IsFileOf file folderId) (hle : fromMs ≤ fileTime file) :
    file ∈ ((d.listing fileTime fromMs folderId).filterMap (changeOf folderId)).map
      ChangeItem.remoteId := by
  obtain ⟨item, hitem, hkind, rfl⟩ := hfile
  have htime : d.time fileTime item = fileTime item.id := if_neg (by simp [hkind])
  let stamped : ZohoFileItem := { item with modifiedTime := some (d.time fileTime item) }
  have hmem : stamped ∈ d.listing fileTime fromMs folderId := by
    refine List.mem_map.mpr ⟨item, List.mem_filter.mpr ⟨hitem, ?_⟩, rfl⟩
    rw [htime]
    exact decide_eq_true hle
  obtain ⟨change, hchange, hid⟩ := changeOf_file folderId (show stamped.isFolder = false from hkind)
  exact List.mem_map.mpr ⟨change, List.mem_filterMap.mpr ⟨stamped, hmem, hchange⟩, hid⟩

/-- From the beginning of time on, a listing has everything. -/
theorem Drive.HasFile.recent {file : String} (h : d.HasFile rootId file) (fileTime : String → Nat) :
    d.Recent rootId fileTime 0 file := by
  obtain ⟨folderId, hreach, hfile⟩ := h
  have hfound : d.found 0 = fun f => subfolders (d.children f) := by
    funext f
    simp [Drive.found, subfolders]
  refine ⟨Int.natCast_nonneg _, folderId, ?_, hfile⟩
  rw [hfound]
  exact hreach

/-! ## What a call does to a search -/

theorem unreported_eq_true {waiting : String → Bool} {changes : List ChangeItem} {file : String} :
    unreported waiting changes file = true ↔
      waiting file = true ∧ file ∉ changes.map ChangeItem.remoteId := by
  simp [unreported]

/-- A run begins: everything owed has still to be found. -/
theorem Searching.begin (hroot : state.rootId = rootId)
    (hqueue : state.queue = [⟨state.rootId, 0⟩]) (hvisited : state.visited = [])
    (howed : ∀ file, d.HasFile rootId file → s.owed file = true →
      d.Recent rootId s.fileTime state.fromMs file) : Searching rootId d s state [] where
  root := hroot
  offsets := by simp [hqueue]
  explored := by
    have hwork : state.worklist = ⟨[rootId], []⟩ := by
      simp [ZohoCursor.worklist, hqueue, hvisited, hroot]
    rw [hwork]
    exact .nil
  owed file hfile h := by
    obtain ⟨hle, folderId, hreach, hof⟩ := howed file hfile h
    exact ⟨hle, folderId, hreach, List.not_mem_nil, hof⟩

/-- **A folder is listed**: what is owed of its files is reported. -/
theorem Searching.list (h : Searching rootId d s state taken) {folder : FolderCursor}
    {queue : List FolderCursor} {new : List String} {changes : List ChangeItem}
    (hqueue : state.queue = folder :: queue)
    (hwork : Worklist.enqueueAll ⟨queue.map FolderCursor.folderId, state.visited⟩
      (d.found state.fromMs folder.folderId) = ({ state with queue := queue }.add new).worklist)
    (hchanges : changes = (d.listing s.fileTime state.fromMs folder.folderId).filterMap
      (changeOf folder.folderId))
    (htime : s'.fileTime = s.fileTime) (howed : s'.owed = unreported s.owed changes) :
    Searching rootId d s' ({ state with queue := queue }.add new) (taken ++ [folder.folderId]) where
  root := h.root
  offsets := by
    intro f hf
    rcases List.mem_append.mp hf with hf | hf
    · exact h.offsets f (by simp [hqueue, hf])
    · obtain ⟨id, -, rfl⟩ := List.mem_map.mp hf
      rfl
  explored := by
    have hfront : state.worklist.queue = folder.folderId :: queue.map FolderCursor.folderId := by
      simp [ZohoCursor.worklist, hqueue]
    rw [← hwork]
    exact h.explored.step hfront
  owed file hfile hwaits := by
    rw [howed, unreported_eq_true] at hwaits
    obtain ⟨hle, folderId, hreach, hnew, hof⟩ := h.owed file hfile hwaits.1
    refine ⟨by rw [htime]; exact hle, folderId, hreach, ?_, hof⟩
    intro htaken
    rcases List.mem_append.mp htaken with htaken | htaken
    · exact hnew htaken
    · -- the file is in the folder that has just been listed
      rw [List.mem_singleton.mp htaken] at hof
      apply hwaits.2
      rw [hchanges]
      exact mem_changes hof hle

/-- **At the end of a run nothing is owed.** -/
theorem Searching.done (h : Searching rootId d s state taken) (hqueue : state.queue = [])
    {file : String} (hfile : d.HasFile rootId file) : s.owed file = false := by
  by_contra howed
  obtain ⟨-, folderId, hreach, hnew, -⟩ := h.owed file hfile (by simpa using howed)
  exact hnew (h.explored.closed (by simp [ZohoCursor.worklist, hqueue]) hreach)

/-! ## Runs -/

/-- What the saved cursor stands for. -/
def CrawlerInv (json : CursorJson) (rootId : String) (d : Drive) (s : Crawler) : Prop :=
  match s.cursor with
  | none => ∀ file, s.dirty file = true
  | some c => ∃ state taken, json.fromJson c = some state ∧ Searching rootId d s state taken

/-- Later times do not hide a file. -/
theorem Searching.later (h : Searching rootId d s state taken)
    (htime : ∀ file, s.fileTime file ≤ s'.fileTime file) (howed : s'.owed = s.owed) :
    Searching rootId d s' state taken where
  root := h.root
  offsets := h.offsets
  explored := h.explored
  owed file hfile hwaits := by
    rw [howed] at hwaits
    obtain ⟨hle, hfolder⟩ := h.owed file hfile hwaits
    exact ⟨Int.le_trans hle (Int.ofNat_le.mpr (htime file)), hfolder⟩

/-- The call of an honest server that lists a folder. -/
theorem honest_pages {server : Server} {folder : FolderCursor} {fromMs : Int}
    {pages : List (List ZohoFileItem)} {fileTime : String → Nat}
    (hhonest : Serves server folder.folderId fromMs (d.listing fileTime fromMs folder.folderId))
    (hoffset : folder.nextOffset = 0)
    (hpages : PagesFrom server folder.folderId fromMs 0 folder.nextOffset pages) :
    pages.flatten = d.listing fileTime fromMs folder.folderId := by
  obtain ⟨pages', hpages', hflatten⟩ := hhonest
  rw [hoffset] at hpages
  rw [hpages.det hpages', hflatten]

/-- The state of a call is new, or it is the saved one. -/
theorem CrawlerInv.load (h : CrawlerInv json rootId d s) {nowMs : Nat}
    (hload : loadState json rootId nowMs s.cursor = some state) :
    (s.cursor = none ∧ state = .bootstrap rootId nowMs) ∨
      (s.cursor.isSome ∧ ∃ taken, Searching rootId d s state taken) := by
  cases hcursor : s.cursor with
  | none =>
      rw [hcursor] at hload
      cases hload
      exact .inl ⟨rfl, rfl⟩
  | some c =>
      rw [CrawlerInv, hcursor] at h
      obtain ⟨state', taken, hread, hsearch⟩ := h
      rw [hcursor] at hload
      obtain rfl := Option.some.inj (hread.symm.trans hload)
      exact .inr ⟨rfl, taken, hsearch⟩

theorem CrawlerInv.load_rootId (h : CrawlerInv json rootId d s) {nowMs : Nat}
    (hload : loadState json rootId nowMs s.cursor = some state) : state.rootId = rootId := by
  obtain ⟨-, rfl⟩ | ⟨-, taken, hsearch⟩ := h.load hload
  · rfl
  · exact hsearch.root

/-- The search that a call goes on with. -/
theorem CrawlerInv.resume (h : CrawlerInv json rootId d s) {nowMs : Nat}
    (hload : loadState json rootId nowMs s.cursor = some state) (listing : Listing)
    (hpages : listing.pages ≠ []) :
    ∃ (start : Crawler) (taken : List String), Searching rootId d start state taken ∧
      start.fileTime = s.fileTime ∧
      (s.report listing).owed = unreported start.owed listing.delta.changes := by
  obtain ⟨hcursor, rfl⟩ | ⟨hcursor, taken, hsearch⟩ := h.load hload
  · -- the first run begins with this call
    refine ⟨{ s with owed := s.dirty }, [], ?_, rfl, ?_⟩
    · refine Searching.begin rfl rfl rfl ?_
      intro file hfile _
      exact hfile.recent s.fileTime
    · simp [Crawler.report, Crawler.begins, hcursor]
  · refine ⟨s, taken, hsearch, rfl, ?_⟩
    have hbegins : s.begins listing = false := by
      simp [Crawler.begins, Option.isNone_eq_false_iff.mpr hcursor, hpages]
    simp [Crawler.report, hbegins]

/-- **One call.** -/
theorem CrawlerInv.call (h : CrawlerInv json rootId d s) {nowMs fuel : Nat} {server : Server}
    {listing : Listing} (hhonest : HonestCall d s (.call nowMs server fuel))
    (hrecent : DirtyRecent json rootId d s (.call nowMs server fuel))
    (hlist : listChanges json rootId nowMs server fuel s.cursor = some (.ok listing)) :
    CrawlerInv json rootId d (s.report listing) := by
  obtain ⟨state, hload, ⟨hqueue, rfl⟩ | ⟨folder, queue, pages, new, hqueue, hpages, hwork, rfl⟩⟩ :=
    listChanges_ok hlist
  · -- the queue has been drained, and a run begins with what is dirty now
    refine ⟨state.restart nowMs, [], json.fromJson_toJson _, ?_⟩
    have hroot := h.load_rootId hload
    refine Searching.begin hroot (by simp [ZohoCursor.restart, hqueue]) rfl ?_
    intro file hfile howed
    refine hrecent state hload hqueue file hfile ?_
    simpa [Crawler.report, Crawler.begins, unreported] using howed
  · obtain ⟨start, taken, hsearch, htime, howed⟩ := h.resume hload ⟨_, pageLog _ _ _ pages⟩
      (pageLog_ne_nil hpages.ne_nil)
    have hoffset := hsearch.offsets folder (by simp [hqueue])
    have hflatten := honest_pages (hhonest folder.folderId state.fromMs) hoffset hpages
    rw [hflatten, subfolders_listing] at hwork
    refine ⟨_, taken ++ [folder.folderId], json.fromJson_toJson _, ?_⟩
    refine hsearch.list hqueue hwork ?_ htime.symm howed
    rw [hflatten, htime]

/-- **One step.** -/
theorem CrawlerInv.step (h : CrawlerInv json rootId d s) {a : CrawlerAction}
    (hhonest : HonestCall d s a) (hrecent : DirtyRecent json rootId d s a)
    (hstep : s.step json rootId a = some s') : CrawlerInv json rootId d s' := by
  cases a with
  | fail =>
      cases hstep
      exact h
  | modify file time =>
      simp only [Crawler.step] at hstep
      split_ifs at hstep with hle
      cases hstep
      unfold CrawlerInv at h ⊢
      dsimp only
      split at h
      · simp [h]
      · obtain ⟨state, taken, hread, hsearch⟩ := h
        refine ⟨state, taken, hread, hsearch.later ?_ rfl⟩
        intro f
        dsimp only
        split
        · next heq => rwa [heq]
        · exact Nat.le_refl _
  | call nowMs server fuel =>
      simp only [Crawler.step] at hstep
      split at hstep
      · next listing hlist =>
          cases hstep
          exact h.call hhonest hrecent hlist
      · cases hstep

/-- **Modified files are found**: in a run whose breadth-first runs begin when they can get to every
dirty file, the end of each of them finds nothing owed. -/
theorem modified_files_found {s₀ : Crawler} {as : List CrawlerAction} {c : String}
    (hinit : (crawlerSystem json rootId).init s₀)
    (hrun : (crawlerSystem json rootId).Steps
      (fun s a => HonestCall d s a ∧ DirtyRecent json rootId d s a) s₀ as s)
    (hcursor : s.cursor = some c) (hstate : json.fromJson c = some state)
    (hqueue : state.queue = []) :
    ∀ file, d.HasFile rootId file → s.owed file = false := by
  have hinv : CrawlerInv json rootId d s := by
    refine hrun.preserves (P := CrawlerInv json rootId d) ?_ ?_
    · exact fun _ _ _ hs hc hst => hs.step hc.1 hc.2 hst
    · rw [CrawlerInv, hinit.1]
      exact hinit.2
  rw [CrawlerInv, hcursor] at hinv
  obtain ⟨state', taken, hread, hsearch⟩ := hinv
  obtain rfl := Option.some.inj (hstate.symm.trans hread)
  exact fun file hfile => hsearch.done hqueue hfile

/-! ## A drive with one folder -/

/-- A server that puts a folder on one page. -/
def driveServer (d : Drive) (fileTime : String → Nat) : Server := fun _ folderId _ fromMs =>
  .response 200 none (.ok (some (d.listing fileTime fromMs folderId), none))

theorem driveServer_serves (d : Drive) (fileTime : String → Nat) (folderId : String)
    (fromMs : Int) :
    Serves (driveServer d fileTime) folderId fromMs (d.listing fileTime fromMs folderId) :=
  ⟨[d.listing fileTime fromMs folderId], rfl, by simp⟩

/-- What a call makes of this server. -/
def driveListing (json : CursorJson) (d : Drive) (fileTime : String → Nat) (nowMs : Nat)
    (state : ZohoCursor) : Listing :=
  match state.queue with
  | [] => ⟨⟨some (json.toJson (state.restart nowMs)), [], false⟩, []⟩
  | folder :: queue =>
      let start : ListState := ⟨{ state with queue := queue }, [], folder.nextOffset, false, []⟩
      (start.addPage ⟨folder.folderId, folder.nextOffset, state.fromMs,
        d.listing fileTime state.fromMs folder.folderId, false⟩).finish json folder.folderId

theorem step_driveServer {json : CursorJson} {rootId : String} {s : Crawler} {nowMs : Nat}
    {state : ZohoCursor} (d : Drive) (hload : loadState json rootId nowMs s.cursor = some state) :
    s.step json rootId (.call nowMs (driveServer d s.fileTime) 1) =
      some (s.report (driveListing json d s.fileTime nowMs state)) := by
  have hlist : listChanges json rootId nowMs (driveServer d s.fileTime) 1 s.cursor =
      some (.ok (driveListing json d s.fileTime nowMs state)) := by
    unfold listChanges driveListing
    rw [hload]
    dsimp only
    cases state.queue with
    | nil => rfl
    | cons folder queue => rfl
  simp only [Crawler.step, hlist]

/-- The folder `a` with the file `x` in it, and the file `y` beside it. -/
def sampleDrive : Drive where
  children folderId :=
    if folderId = "r" then
      [⟨"a", none, some "folder", none, none⟩, ⟨"y", none, some "files", none, none⟩]
    else if folderId = "a" then [⟨"x", none, some "files", none, none⟩]
    else []
  folderTime _ := 100

/-- The states of a run: `a` is listed, a file is modified, and the root is listed again. -/
def sampleCall (json : CursorJson) (nowMs : Nat) (state : ZohoCursor) (s : Crawler) : Crawler :=
  s.report (driveListing json sampleDrive s.fileTime nowMs state)

def sampleStart : Crawler := ⟨fun _ => 100, none, fun _ => true, fun _ => false⟩

def sampleBefore (json : CursorJson) : Crawler :=
  sampleCall json 1000100 ⟨0, [⟨"a", 0⟩], ["a"], "r", 1000000⟩
    (sampleCall json 1000000 (.bootstrap "r" 1000000) sampleStart)

def sampleModified (json : CursorJson) (file : String) : Crawler :=
  { sampleBefore json with
    fileTime := fun f => if f = file then 1000500 else (sampleBefore json).fileTime f
    dirty := fun f => f = file || (sampleBefore json).dirty f }

def sampleDrained (json : CursorJson) (file : String) : Crawler :=
  sampleCall json 1001000 ⟨0, [], ["a"], "r", 1000000⟩ (sampleModified json file)

def sampleAfter (json : CursorJson) (file : String) : Crawler :=
  sampleCall json 1001100 ⟨1000000, [⟨"r", 0⟩], [], "r", 1001000⟩ (sampleDrained json file)

def sampleCallAt (nowMs : Nat) (s : Crawler) : CrawlerAction :=
  .call nowMs (driveServer sampleDrive s.fileTime) 1

def sampleRun (json : CursorJson) (file : String) : List CrawlerAction := [
  sampleCallAt 1000000 sampleStart,
  sampleCallAt 1000100 (sampleCall json 1000000 (.bootstrap "r" 1000000) sampleStart),
  .modify file 1000500,
  sampleCallAt 1001000 (sampleModified json file),
  sampleCallAt 1001100 (sampleDrained json file)]

theorem sample_steps {json : CursorJson} {file : String} {C : Crawler → CrawlerAction → Prop}
    (hmodify : C (sampleBefore json) (.modify file 1000500))
    (hcall : ∀ nowMs (s : Crawler) state, loadState json "r" nowMs s.cursor = some state →
      (state.queue = [] → nowMs = 1001000 ∧ s = sampleModified json file) →
      C s (sampleCallAt nowMs s)) :
    (crawlerSystem json "r").Steps C sampleStart (sampleRun json file) (sampleAfter json file) := by
  have hread := json.fromJson_toJson
  have hcalls : ∀ nowMs (s : Crawler) state, loadState json "r" nowMs s.cursor = some state →
      (crawlerSystem json "r").step s (sampleCallAt nowMs s) =
        some (sampleCall json nowMs state s) :=
    fun _ _ _ hload => step_driveServer sampleDrive hload
  have htime : (sampleBefore json).fileTime file ≤ 1000500 := by
    show 100 ≤ 1000500
    omega
  have hstep : (sampleBefore json).step json "r" (.modify file 1000500) =
      some (sampleModified json file) := by
    rw [Crawler.step, if_pos htime]
    rfl
  refine .cons (hcall _ _ _ rfl ?_) (hcalls _ _ _ rfl) ?_
  · exact fun hqueue => nomatch hqueue
  refine .cons (hcall _ _ _ (hread _) ?_) (hcalls _ _ _ (hread _)) ?_
  · exact fun hqueue => nomatch hqueue
  refine .cons hmodify hstep ?_
  refine .cons (hcall _ _ _ (hread _) ?_) (hcalls _ _ _ (hread _)) ?_
  · exact fun _ => ⟨rfl, rfl⟩
  refine .cons (hcall _ _ _ (hread _) ?_) (hcalls _ _ _ (hread _)) ?_
  · exact fun hqueue => nomatch hqueue
  exact .nil _

theorem sampleDrive_files {file : String} (h : sampleDrive.HasFile "r" file) :
    file = "x" ∨ file = "y" := by
  obtain ⟨folderId, -, item, hitem, hkind, rfl⟩ := h
  simp only [sampleDrive] at hitem
  split_ifs at hitem
  · rcases List.mem_cons.mp hitem with rfl | hitem
    · cases hkind
    · rw [List.mem_singleton.mp hitem]
      exact .inr rfl
  · rw [List.mem_singleton.mp hitem]
    exact .inl rfl
  · cases hitem

theorem recent_file_found :
    (crawlerSystem compactJson "r").Steps System.anyStep sampleStart (sampleRun compactJson "y")
      (sampleAfter compactJson "y") ∧
    (sampleDrained compactJson "y").owed "y" = true ∧
    ∀ file, sampleDrive.HasFile "r" file → (sampleAfter compactJson "y").owed file = false := by
  have hrun : (crawlerSystem compactJson "r").Steps
      (fun s a => HonestCall sampleDrive s a ∧ DirtyRecent compactJson "r" sampleDrive s a)
      sampleStart (sampleRun compactJson "y") (sampleAfter compactJson "y") := by
    refine sample_steps ⟨trivial, trivial⟩ ?_
    intro nowMs s state hload hdrained
    refine ⟨driveServer_serves sampleDrive s.fileTime, ?_⟩
    intro state' hload' hqueue file hfile hdirty
    obtain rfl := Option.some.inj (hload.symm.trans hload')
    obtain ⟨rfl, rfl⟩ := hdrained hqueue
    obtain rfl := Option.some.inj (hload.symm.trans (compactJson.fromJson_toJson _))
    rcases sampleDrive_files hfile with rfl | rfl
    · cases hdirty
    · exact ⟨by decide, "r", .refl, _, List.mem_cons_of_mem _ List.mem_cons_self, rfl, rfl⟩
  refine ⟨hrun.anyStep, rfl, ?_⟩
  exact modified_files_found ⟨rfl, fun _ => rfl⟩ hrun rfl (compactJson.fromJson_toJson _) rfl

/-- The file in the folder is modified: the folder is older than the window of the next run. -/
theorem old_folder_hides_file : ¬ ∀ (json : CursorJson) (rootId : String) (d : Drive)
    (s₀ s : Crawler) (as : List CrawlerAction) (c : String) (state : ZohoCursor),
      (crawlerSystem json rootId).init s₀ →
      (crawlerSystem json rootId).Steps (HonestCall d) s₀ as s →
      s.cursor = some c → json.fromJson c = some state → state.queue = [] →
      ∀ file, d.HasFile rootId file → s.owed file = false := by
  intro hclaim
  have hrun : (crawlerSystem compactJson "r").Steps (HonestCall sampleDrive)
      sampleStart (sampleRun compactJson "x") (sampleAfter compactJson "x") := by
    refine sample_steps trivial ?_
    intro nowMs s _ _ _
    exact driveServer_serves sampleDrive s.fileTime
  have hfile : sampleDrive.HasFile "r" "x" :=
    ⟨"a", .single (by decide), _, List.mem_singleton.mpr rfl, rfl, rfl⟩
  have hfound := hclaim compactJson "r" sampleDrive sampleStart _ _ _ _ ⟨rfl, fun _ => rfl⟩ hrun rfl
    (compactJson.fromJson_toJson _) rfl "x" hfile
  cases hfound

end McpGateway.Zoho
