import McpGateway.Foundation.Worklist
import McpGateway.Ingestion.RunCycle

/-! # `ZohoClient::list_changes`

One call takes one folder off the queue of the cursor and reads all its pages. The cursor travels
between the calls as JSON; what is used of `serde_json` is that a cursor is read back as written.

* `listChanges_listing` — a call that gets all pages of its folder.
* `listChanges_error` — a call that gets an error: the cursor it was called with is all that is left.
* `listChanges_drained` — a call on an empty queue: the next run begins. -/

namespace McpGateway.Zoho

open Foundation Ingestion

/-! ## The cursor -/

def watermarkOverlapMs : Int := 60000

structure FolderCursor where
  folderId : String
  nextOffset : UInt32
  deriving DecidableEq, Repr

structure ZohoCursor where
  watermarkMs : Int
  queue : List FolderCursor
  visited : List String
  rootId : String
  runStartedMs : Int
  deriving DecidableEq, Repr

/-- `bootstrap`; `now_ms` is never negative. -/
def ZohoCursor.bootstrap (rootId : String) (nowMs : Nat) : ZohoCursor :=
  ⟨0, [⟨rootId, 0⟩], [], rootId, nowMs⟩

/-- `to_json` and `from_json`: `serde_json` on the derived implementations. -/
structure CursorJson where
  toJson : ZohoCursor → String
  fromJson : String → Option ZohoCursor
  fromJson_toJson : ∀ c, fromJson (toJson c) = some c

/-! ## What the API returns -/

/-- `ZohoFileItem` with its attributes; the permalink only goes into the raw envelope. -/
structure ZohoFileItem where
  id : String
  name : Option String
  kind : Option String
  modifiedTime : Option Int
  status : Option String
  deriving DecidableEq, Repr

def ZohoFileItem.isFolder (item : ZohoFileItem) : Bool := item.kind = some "folder"

def ZohoFileItem.isDeleted (item : ZohoFileItem) : Bool := item.status = some "deleted"

/-- What comes back for a page: no token, no response, or a response whose body decodes or not. -/
inductive FolderReply where
  | tokenError (e : ConnectorError)
  | sendError (e : String)
  | response (status : Nat) (retryAfter : Option String)
      (body : Except String (Option (List ZohoFileItem) × Option (Option Bool)))

/-- `str::parse::<u64>` -/
def parseU64 (s : String) : Option Nat :=
  let digits := match s.toList with
    | '+' :: rest => rest
    | cs => cs
  if digits.isEmpty || !digits.all Char.isDigit then none
  else
    let n := digits.foldl (fun n c => 10 * n + (c.toNat - 48)) 0
    if n < 18446744073709551616 then some n else none

/-- `list_folder_page`, once the reply is there. -/
def listFolderPage (reply : FolderReply) : Except ConnectorError (List ZohoFileItem × Bool) :=
  match reply with
  | .tokenError e => .error e
  | .sendError e => .error (.other ("folder list request failed: " ++ e))
  | .response status retryAfter body =>
      -- the statuses come before the body is read
      if status = 401 ∨ status = 403 then .error (.auth .accessDenied)
      else if status = 429 then .error (.throttled ((retryAfter.bind parseU64).getD 60))
      else if !(200 ≤ status && status < 300) then .error (.http status)
      else match body with
        | .error e => .error (.other ("failed to decode folder list: " ++ e))
        | .ok (data, info) => .ok (data.getD [], (info.bind id).getD false)

/-- What the server replies to the requests of one call. -/
abbrev Server := (request : Nat) → (folderId : String) → (offset : UInt32) → (fromMs : Int) →
  FolderReply

/-! ## Dates -/

/-- `{:02}` and `{:04}` -/
def padded (width n : Nat) : String :=
  let digits := toString n
  String.ofList (List.replicate (width - digits.length) '0') ++ digits

/-- `format_epoch_ms`, whose months have 30 days and whose years have 365. -/
def formatEpochMs (ms : Int) : String :=
  let nanos := (Int.tmod ms 1000 * 1000000 % 4294967296).toNat
  let totalSecs := (max (Int.tdiv ms 1000) 0).toNat + nanos / 1000000000
  let days := totalSecs / 86400
  padded 4 (1970 + days / 365) ++ "-" ++ padded 2 (days % 365 / 30 + 1) ++ "-" ++
    padded 2 (days % 365 % 30 + 1) ++ "T" ++ padded 2 (totalSecs / 3600 % 24) ++ ":" ++
    padded 2 (totalSecs / 60 % 60) ++ ":" ++ padded 2 (totalSecs % 60) ++ "Z"

/-! ## One call -/

/-- A page that was read: not part of the program. -/
structure FolderPage where
  folderId : String
  offset : UInt32
  fromMs : Int
  items : List ZohoFileItem
  more : Bool

/-- The variables of the loop; `pages` is not part of the program. -/
structure ListState where
  cursor : ZohoCursor
  changes : List ChangeItem
  offset : UInt32
  moreInFolder : Bool
  pages : List FolderPage

/-- Enqueue an unseen subfolder. -/
def visitItem (state : ZohoCursor) (item : ZohoFileItem) : ZohoCursor :=
  if item.isFolder && !(item.id ∈ state.visited) then
    { state with
      visited := state.visited ++ [item.id]
      queue := state.queue ++ [⟨item.id, 0⟩] }
  else state

/-- The change a file is reported as; folders are not reported. -/
def changeOf (folderId : String) (item : ZohoFileItem) : Option ChangeItem :=
  if item.isFolder then none
  else some ⟨item.id, some folderId, item.name.getD "", false, item.modifiedTime.map formatEpochMs,
    item.isDeleted⟩

theorem changeOf_file (folderId : String) {item : ZohoFileItem} (h : item.isFolder = false) :
    ∃ c, changeOf folderId item = some c ∧ c.remoteId = item.id :=
  ⟨_, if_neg (by simp [h]), rfl⟩

/-- The body of the loop, for one page. -/
def ListState.addPage (st : ListState) (page : FolderPage) : ListState where
  cursor := page.items.foldl visitItem st.cursor
  changes := st.changes ++ page.items.filterMap (changeOf page.folderId)
  offset := page.offset
  moreInFolder := page.more
  pages := st.pages ++ [page]

/-- The loop over the pages; `none` when it has not ended after so many requests. -/
def listPages (server : Server) (folderId : String) (fromMs : Int) :
    (fuel request : Nat) → ListState → Option (Except ConnectorError ListState)
  | 0, _, _ => none
  | fuel + 1, request, st =>
      match listFolderPage (server request folderId st.offset fromMs) with
      -- `?`: the pages read so far go with the error, and the saved cursor stays
      | .error e => some (.error e)
      | .ok (items, more) =>
          let st := st.addPage ⟨folderId, st.offset, fromMs, items, more⟩
          if !more then some (.ok st)
          else listPages server folderId fromMs fuel (request + 1)
            { st with offset := st.offset + UInt32.ofNat items.length }

/-- A call that returned, and the pages it read. -/
structure Listing where
  delta : DeltaResult
  pages : List FolderPage

/-- `filter[fromDate]` -/
def ZohoCursor.fromMs (state : ZohoCursor) : Int := max (state.watermarkMs - watermarkOverlapMs) 0

/-- The queue is drained: the watermark advances, and the search starts again. -/
def ZohoCursor.restart (state : ZohoCursor) (nowMs : Nat) : ZohoCursor where
  watermarkMs := state.runStartedMs
  queue := state.queue ++ [⟨state.rootId, 0⟩]
  visited := []
  rootId := state.rootId
  runStartedMs := nowMs

def loadState (json : CursorJson) (rootId : String) (nowMs : Nat) : Option String → Option ZohoCursor
  | some s => json.fromJson s
  | none => some (.bootstrap rootId nowMs)

/-- After the loop. -/
def ListState.finish (json : CursorJson) (folderId : String) (st : ListState) : Listing :=
  let state : ZohoCursor :=
    if st.moreInFolder then { st.cursor with queue := ⟨folderId, st.offset⟩ :: st.cursor.queue }
    else st.cursor
  ⟨⟨some (json.toJson state), st.changes, !state.queue.isEmpty⟩, st.pages⟩

/-- `list_changes`. -/
def listChanges (json : CursorJson) (rootId : String) (nowMs : Nat) (server : Server) (fuel : Nat)
    (cursor : Option String) : Option (Except ConnectorError Listing) :=
  match loadState json rootId nowMs cursor with
  | none => some (.error .cursorInvalid)
  | some state =>
      match state.queue with
      -- a drained queue: no request, and the cursor of the next run
      | [] => some (.ok ⟨⟨some (json.toJson (state.restart nowMs)), [], false⟩, []⟩)
      | folder :: queue =>
          (listPages server folder.folderId state.fromMs fuel 0
              ⟨{ state with queue := queue }, [], folder.nextOffset, false, []⟩).map
            (Except.map (ListState.finish json folder.folderId))

/-- The call returns this. -/
def Returns (json : CursorJson) (rootId : String) (nowMs : Nat) (server : Server)
    (cursor : Option String) (result : Except ConnectorError Listing) : Prop :=
  ∃ fuel, listChanges json rootId nowMs server fuel cursor = some result

/-! ## The pages of a folder -/

/-- From a request on, the server returns these pages, and only the last is the last. -/
def PagesFrom (server : Server) (folderId : String) (fromMs : Int) :
    (request : Nat) → (offset : UInt32) → List (List ZohoFileItem) → Prop
  | _, _, [] => False
  | request, offset, [page] =>
      listFolderPage (server request folderId offset fromMs) = .ok (page, false)
  | request, offset, page :: next :: pages =>
      listFolderPage (server request folderId offset fromMs) = .ok (page, true) ∧
        PagesFrom server folderId fromMs (request + 1) (offset + UInt32.ofNat page.length)
          (next :: pages)

/-- From a request on, the server returns these pages, then an error. -/
def FailsFrom (server : Server) (folderId : String) (fromMs : Int) (e : ConnectorError) :
    (request : Nat) → (offset : UInt32) → List (List ZohoFileItem) → Prop
  | request, offset, [] => listFolderPage (server request folderId offset fromMs) = .error e
  | request, offset, page :: pages =>
      listFolderPage (server request folderId offset fromMs) = .ok (page, true) ∧
        FailsFrom server folderId fromMs e (request + 1) (offset + UInt32.ofNat page.length) pages

/-- The pages as they are read. -/
def pageLog (folderId : String) (fromMs : Int) : UInt32 → List (List ZohoFileItem) → List FolderPage
  | _, [] => []
  | offset, [page] => [⟨folderId, offset, fromMs, page, false⟩]
  | offset, page :: next :: pages => ⟨folderId, offset, fromMs, page, true⟩ ::
      pageLog folderId fromMs (offset + UInt32.ofNat page.length) (next :: pages)

/-- The server returns the listing of the folder, in pages. -/
def Serves (server : Server) (folderId : String) (fromMs : Int) (entries : List ZohoFileItem) :
    Prop :=
  ∃ pages, PagesFrom server folderId fromMs 0 0 pages ∧ pages.flatten = entries

/-- The call has read these entries of the folder, from the offset 0 to the end. -/
def Listing.IsOf (l : Listing) (folderId : String) (fromMs : Int) (entries : List ZohoFileItem) :
    Prop :=
  ∃ pages, pages ≠ [] ∧ l.pages = pageLog folderId fromMs 0 pages ∧ pages.flatten = entries

theorem pageLog_mem (folderId : String) (fromMs : Int) (offset : UInt32)
    (pages : List (List ZohoFileItem)) :
    ∀ p ∈ pageLog folderId fromMs offset pages, p.folderId = folderId ∧ p.fromMs = fromMs := by
  induction pages generalizing offset with
  | nil => simp [pageLog]
  | cons page pages ih =>
      cases pages with
      | nil => simp [pageLog]
      | cons next pages =>
          intro p hp
          rcases List.mem_cons.mp hp with rfl | hp
          · exact ⟨rfl, rfl⟩
          · exact ih _ p hp

theorem pageLog_ne_nil {folderId : String} {fromMs : Int} {offset : UInt32}
    {pages : List (List ZohoFileItem)} (h : pages ≠ []) :
    pageLog folderId fromMs offset pages ≠ [] := by
  match pages, h with
  | [_], _ => simp [pageLog]
  | _ :: _ :: _, _ => simp [pageLog]

theorem PagesFrom.ne_nil {server : Server} {folderId : String} {fromMs : Int} {request : Nat}
    {offset : UInt32} {pages : List (List ZohoFileItem)}
    (h : PagesFrom server folderId fromMs request offset pages) : pages ≠ [] := by
  rintro rfl
  exact h

/-- The pages are determined by the server. -/
theorem PagesFrom.det {server : Server} {folderId : String} {fromMs : Int} {request : Nat}
    {offset : UInt32} {pages pages' : List (List ZohoFileItem)}
    (h : PagesFrom server folderId fromMs request offset pages)
    (h' : PagesFrom server folderId fromMs request offset pages') : pages = pages' := by
  induction pages generalizing pages' request offset with
  | nil => exact h.elim
  | cons page pages ih =>
      match pages, pages', h, h' with
      | [], [page'], h, h' =>
          simp only [PagesFrom] at h h'
          rw [h] at h'
          cases h'
          rfl
      | [], page' :: _ :: _, h, h' =>
          simp only [PagesFrom] at h h'
          rw [h] at h'
          cases h'.1
      | next :: pages, [page'], h, h' =>
          simp only [PagesFrom] at h h'
          rw [h.1] at h'
          cases h'
      | next :: pages, page' :: next' :: pages', h, h' =>
          have heq := Except.ok.inj (h.1.symm.trans h'.1)
          obtain rfl : page = page' := congrArg Prod.fst heq
          rw [ih h.2 h'.2]

/-- What the loop makes of all the pages. -/
theorem listPages_pages {server : Server} {folderId : String} {fromMs : Int}
    {pages : List (List ZohoFileItem)} {fuel request : Nat} {st : ListState}
    (h : PagesFrom server folderId fromMs request st.offset pages) (hfuel : pages.length ≤ fuel) :
    ∃ offset, listPages server folderId fromMs fuel request st = some (.ok
      ⟨pages.flatten.foldl visitItem st.cursor,
        st.changes ++ pages.flatten.filterMap (changeOf folderId), offset, false,
        st.pages ++ pageLog folderId fromMs st.offset pages⟩) := by
  induction pages generalizing fuel request st with
  | nil => exact h.elim
  | cons page pages ih =>
      obtain ⟨fuel, rfl⟩ : ∃ n, fuel = n + 1 := ⟨fuel - 1, by simp at hfuel; omega⟩
      cases pages with
      | nil =>
          refine ⟨st.offset, ?_⟩
          simp only [PagesFrom] at h
          simp only [listPages, h]
          simp [ListState.addPage, pageLog]
      | cons next pages =>
          obtain ⟨hpage, hrest⟩ := h
          let read : ListState :=
            { st.addPage ⟨folderId, st.offset, fromMs, page, true⟩ with
              offset := st.offset + UInt32.ofNat page.length }
          have hlength : (next :: pages).length ≤ fuel := by simpa using hfuel
          obtain ⟨offset, hih⟩ := @ih fuel (request + 1) read hrest hlength
          refine ⟨offset, ?_⟩
          simp only [listPages, hpage]
          refine Eq.trans hih ?_
          simp [read, ListState.addPage, pageLog, List.foldl_append]

/-- What the loop makes of an error, behind whatever pages. -/
theorem listPages_fails {server : Server} {folderId : String} {fromMs : Int} {e : ConnectorError}
    {pages : List (List ZohoFileItem)} {request : Nat} {st : ListState}
    (h : FailsFrom server folderId fromMs e request st.offset pages) :
    listPages server folderId fromMs (pages.length + 1) request st = some (.error e) := by
  induction pages generalizing request st with
  | nil =>
      simp only [FailsFrom] at h
      simp only [listPages, h]
  | cons page pages ih =>
      obtain ⟨hpage, hrest⟩ := h
      let read : ListState :=
        { st.addPage ⟨folderId, st.offset, fromMs, page, true⟩ with
          offset := st.offset + UInt32.ofNat page.length }
      have hih := @ih (request + 1) read hrest
      rw [List.length_cons]
      simp only [listPages, hpage]
      exact hih

/-- The loop only ends well after such pages. -/
theorem listPages_ok {server : Server} {folderId : String} {fromMs : Int} {fuel request : Nat}
    {st st' : ListState} (h : listPages server folderId fromMs fuel request st = some (.ok st')) :
    ∃ pages offset, PagesFrom server folderId fromMs request st.offset pages ∧
      st' = ⟨pages.flatten.foldl visitItem st.cursor,
        st.changes ++ pages.flatten.filterMap (changeOf folderId), offset, false,
        st.pages ++ pageLog folderId fromMs st.offset pages⟩ := by
  induction fuel generalizing request st with
  | zero => cases h
  | succ fuel ih =>
      simp only [listPages] at h
      cases hpage : listFolderPage (server request folderId st.offset fromMs) with
      | error e =>
          rw [hpage] at h
          cases h
      | ok read =>
          obtain ⟨page, more⟩ := read
          rw [hpage] at h
          cases more with
          | false =>
              cases h
              refine ⟨[page], st.offset, hpage, ?_⟩
              simp [ListState.addPage, pageLog]
          | true =>
              obtain ⟨pages, offset, hpages, rfl⟩ := ih h
              cases pages with
              | nil => exact hpages.elim
              | cons next pages =>
                  refine ⟨page :: next :: pages, offset, ⟨hpage, hpages⟩, ?_⟩
                  simp [ListState.addPage, pageLog, List.foldl_append]

/-- More fuel changes nothing. -/
theorem listPages_mono {server : Server} {folderId : String} {fromMs : Int} {fuel more request : Nat}
    {st : ListState} {result : Except ConnectorError ListState}
    (h : listPages server folderId fromMs fuel request st = some result) :
    listPages server folderId fromMs (fuel + more) request st = some result := by
  induction fuel generalizing request st with
  | zero => cases h
  | succ fuel ih =>
      rw [Nat.succ_add]
      simp only [listPages] at h ⊢
      cases hpage : listFolderPage (server request folderId st.offset fromMs) with
      | error e =>
          rw [hpage] at h
          exact h
      | ok page =>
          obtain ⟨items, more⟩ := page
          rw [hpage] at h
          cases more with
          | false => exact h
          | true => exact ih h

/-! ## The queue as a worklist -/

/-- The folders to be listed and those that have been enqueued. -/
def ZohoCursor.worklist (state : ZohoCursor) : Worklist String :=
  ⟨state.queue.map FolderCursor.folderId, state.visited⟩

/-- The cursor with folders at the back of its queue. -/
def ZohoCursor.add (state : ZohoCursor) (folders : List String) : ZohoCursor :=
  { state with
    queue := state.queue ++ folders.map (⟨·, 0⟩)
    visited := state.visited ++ folders }

def subfolders (items : List ZohoFileItem) : List String :=
  (items.filter ZohoFileItem.isFolder).map ZohoFileItem.id

theorem visitItem_folder {state : ZohoCursor} {item : ZohoFileItem} (h : item.isFolder = true) :
    visitItem state item = if item.id ∈ state.visited then state else state.add [item.id] := by
  unfold visitItem
  by_cases hseen : item.id ∈ state.visited
  · simp [h, hseen]
  · simp [h, hseen, ZohoCursor.add]

theorem visitItem_file {state : ZohoCursor} {item : ZohoFileItem} (h : item.isFolder = false) :
    visitItem state item = state := by
  unfold visitItem
  simp [h]

/-- **The loop over the items enqueues the new subfolders.** -/
theorem foldl_visitItem (state : ZohoCursor) (items : List ZohoFileItem) :
    ∃ new, items.foldl visitItem state = state.add new ∧
      state.worklist.enqueueAll (subfolders items) = (state.add new).worklist := by
  induction items generalizing state with
  | nil => exact ⟨[], by simp [ZohoCursor.add], by simp [subfolders, ZohoCursor.add]⟩
  | cons item items ih =>
      cases hfolder : item.isFolder with
      | false =>
          obtain ⟨new, hfold, hwork⟩ := ih state
          refine ⟨new, ?_, ?_⟩
          · rw [List.foldl_cons, visitItem_file hfolder, hfold]
          · simpa [subfolders, hfolder] using hwork
      | true =>
          have hsub : subfolders (item :: items) = item.id :: subfolders items := by
            simp [subfolders, hfolder]
          by_cases hseen : item.id ∈ state.worklist.visited
          · obtain ⟨new, hfold, hwork⟩ := ih state
            refine ⟨new, ?_, ?_⟩
            · rw [List.foldl_cons, visitItem_folder hfolder,
                if_pos (show item.id ∈ state.visited from hseen), hfold]
            · rw [hsub, Worklist.enqueueAll_cons, Worklist.enqueue, if_pos hseen, hwork]
          · obtain ⟨new, hfold, hwork⟩ := ih (state.add [item.id])
            have hadd : (state.add [item.id]).add new = state.add (item.id :: new) := by
              simp [ZohoCursor.add]
            refine ⟨item.id :: new, ?_, ?_⟩
            · rw [List.foldl_cons, visitItem_folder hfolder,
                if_neg (show item.id ∉ state.visited from hseen), hfold, hadd]
            · rw [hsub, Worklist.enqueueAll_cons, Worklist.enqueue, if_neg hseen, ← hadd, ← hwork]
              simp [ZohoCursor.worklist, ZohoCursor.add]

/-! ## What a call does -/

variable {json : CursorJson} {rootId : String} {nowMs : Nat} {server : Server}
  {cursor : Option String} {state : ZohoCursor} {folder : FolderCursor} {queue : List FolderCursor}

/-- **A listing.** -/
theorem listChanges_listing {pages : List (List ZohoFileItem)}
    (hload : loadState json rootId nowMs cursor = some state)
    (hqueue : state.queue = folder :: queue)
    (hpages : PagesFrom server folder.folderId state.fromMs 0 folder.nextOffset pages) :
    ∃ new, Returns json rootId nowMs server cursor (.ok
        ⟨⟨some (json.toJson ({ state with queue := queue }.add new)),
          pages.flatten.filterMap (changeOf folder.folderId),
          !({ state with queue := queue }.add new).queue.isEmpty⟩,
        pageLog folder.folderId state.fromMs folder.nextOffset pages⟩) ∧
      Worklist.enqueueAll ⟨queue.map FolderCursor.folderId, state.visited⟩
        (subfolders pages.flatten) = ({ state with queue := queue }.add new).worklist := by
  obtain ⟨new, hfold, hwork⟩ := foldl_visitItem { state with queue := queue } pages.flatten
  let start : ListState := ⟨{ state with queue := queue }, [], folder.nextOffset, false, []⟩
  have hstart : PagesFrom server folder.folderId state.fromMs 0 start.offset pages := hpages
  obtain ⟨offset, hlist⟩ := listPages_pages hstart (Nat.le_refl pages.length)
  refine ⟨new, ⟨pages.length, ?_⟩, hwork⟩
  unfold listChanges
  rw [hload]
  dsimp only
  rw [hqueue]
  dsimp only
  refine (congrArg _ hlist).trans ?_
  simp [start, hfold, ListState.finish, Except.map]

/-- The only ways for a call to succeed. -/
theorem listChanges_ok {fuel : Nat} {listing : Listing}
    (h : listChanges json rootId nowMs server fuel cursor = some (.ok listing)) :
    ∃ state, loadState json rootId nowMs cursor = some state ∧
      (state.queue = [] ∧ listing = ⟨⟨some (json.toJson (state.restart nowMs)), [], false⟩, []⟩ ∨
      ∃ folder queue pages new, state.queue = folder :: queue ∧
        PagesFrom server folder.folderId state.fromMs 0 folder.nextOffset pages ∧
        Worklist.enqueueAll ⟨queue.map FolderCursor.folderId, state.visited⟩
          (subfolders pages.flatten) = ({ state with queue := queue }.add new).worklist ∧
        listing = ⟨⟨some (json.toJson ({ state with queue := queue }.add new)),
            pages.flatten.filterMap (changeOf folder.folderId),
            !({ state with queue := queue }.add new).queue.isEmpty⟩,
          pageLog folder.folderId state.fromMs folder.nextOffset pages⟩) := by
  unfold listChanges at h
  cases hload : loadState json rootId nowMs cursor with
  | none =>
      rw [hload] at h
      cases h
  | some state =>
      refine ⟨state, rfl, ?_⟩
      rw [hload] at h
      dsimp only at h
      cases hqueue : state.queue with
      | nil =>
          rw [hqueue] at h
          cases h
          exact .inl ⟨rfl, rfl⟩
      | cons folder queue =>
          rw [hqueue] at h
          obtain ⟨result, hlist, hresult⟩ := Option.map_eq_some_iff.mp h
          cases result with
          | error e => cases hresult
          | ok st =>
              -- the loop has read the folder to its end
              obtain ⟨pages, offset, hpages, rfl⟩ := listPages_ok hlist
              obtain ⟨new, hfold, hwork⟩ := foldl_visitItem { state with queue := queue } pages.flatten
              refine .inr ⟨folder, queue, pages, new, rfl, hpages, hwork, ?_⟩
              cases hresult
              simp [hfold, ListState.finish]

/-- **A failed listing.** -/
theorem listChanges_error {e : ConnectorError} {pages : List (List ZohoFileItem)}
    (hload : loadState json rootId nowMs cursor = some state)
    (hqueue : state.queue = folder :: queue)
    (hfails : FailsFrom server folder.folderId state.fromMs e 0 folder.nextOffset pages) :
    Returns json rootId nowMs server cursor (.error e) := by
  let start : ListState := ⟨{ state with queue := queue }, [], folder.nextOffset, false, []⟩
  have hstart : FailsFrom server folder.folderId state.fromMs e 0 start.offset pages := hfails
  have hlist := listPages_fails hstart
  refine ⟨pages.length + 1, ?_⟩
  unfold listChanges
  rw [hload]
  dsimp only
  rw [hqueue]
  dsimp only
  exact congrArg (Option.map (Except.map (ListState.finish json folder.folderId))) hlist

/-- **The end of a run.** -/
theorem listChanges_drained (hload : loadState json rootId nowMs cursor = some state)
    (hqueue : state.queue = []) :
    Returns json rootId nowMs server cursor
      (.ok ⟨⟨some (json.toJson (state.restart nowMs)), [], false⟩, []⟩) := by
  refine ⟨0, ?_⟩
  unfold listChanges
  rw [hload]
  dsimp only
  rw [hqueue]

/-- A call returns one thing. -/
theorem Returns.det {result result' : Except ConnectorError Listing}
    (h : Returns json rootId nowMs server cursor result)
    (h' : Returns json rootId nowMs server cursor result') : result = result' := by
  obtain ⟨fuel, h⟩ := h
  obtain ⟨fuel', h'⟩ := h'
  unfold listChanges at h h'
  cases hload : loadState json rootId nowMs cursor with
  | none =>
      rw [hload] at h h'
      exact Option.some.inj (h.symm.trans h')
  | some state =>
      rw [hload] at h h'
      dsimp only at h h'
      cases hqueue : state.queue with
      | nil =>
          rw [hqueue] at h h'
          exact Option.some.inj (h.symm.trans h')
      | cons folder queue =>
          rw [hqueue] at h h'
          obtain ⟨r, hr, rfl⟩ := Option.map_eq_some_iff.mp h
          obtain ⟨r', hr', rfl⟩ := Option.map_eq_some_iff.mp h'
          have hmore := @listPages_mono _ _ _ _ fuel' _ _ _ hr
          have hmore' := @listPages_mono _ _ _ _ fuel _ _ _ hr'
          rw [Nat.add_comm] at hmore'
          rw [Option.some.inj (hmore.symm.trans hmore')]

end McpGateway.Zoho
