import McpGateway.Ingestion.Runs
import McpGateway.Zoho.ListChanges

/-! # `GraphClient`

The Microsoft Graph connector. One call of `list_changes` follows the `@odata.nextLink`s from the
saved link, or from the root of the drive, to the page that has an `@odata.deltaLink`; the bearer
token is taken once, from a cache that all calls share.

* `runPages_iff` — what a call returns is what the chain of pages behind its first link amounts to.
* `runPoll` — `run_cycle` with this connector; `runPoll_cases` says what it can do to the tables. -/

namespace McpGateway.Graph

open Foundation Ingestion
open Zoho (parseU64)

/-! ## What Graph answers -/

/-- `RawItem`; of `file` and `deleted` only whether they are there is used. -/
structure RawItem where
  id : String
  name : Option String
  file : Bool
  deleted : Bool
  downloadUrl : Option String
  deriving DecidableEq, Repr

structure DeltaPage where
  value : List RawItem
  nextLink : Option String
  deltaLink : Option String
  deriving DecidableEq, Repr

/-- What comes back for a link: no response, or one whose body decodes or not. -/
inductive DeltaReply where
  | sendError (e : String)
  | response (status : Nat) (retryAfter : Option String) (body : Except String DeltaPage)

inductive TokenReply where
  | sendError (e : String)
  | errorStatus (e : String)
  | decodeError (e : String)
  | granted (accessToken : String) (expiresIn : Nat)

inductive DownloadReply where
  | sendError (e : String)
  | response (status : Nat) (body : Except String Bytes)

def isSuccess (status : Nat) : Bool := 200 ≤ status && status < 300

/-! ## The token -/

/-- The instants are seconds of the monotone clock. -/
structure CachedToken where
  value : String
  expiresAt : Nat
  deriving DecidableEq, Repr

/-- `fetch_token`; the error is the chain of contexts `{e:#}` prints. -/
def fetchToken : TokenReply → Except String (String × Nat)
  | .sendError e => .error ("token request failed: " ++ e)
  | .errorStatus e => .error ("token request returned error status: " ++ e)
  | .decodeError e => .error ("failed to decode token response: " ++ e)
  | .granted accessToken expiresIn => .ok (accessToken, expiresIn)

/-- `access_token`, with the cache as it leaves it; `stored` is the instant after the request. -/
def accessToken (cached : Option CachedToken) (now : Nat) (reply : TokenReply) (stored : Nat) :
    Except ConnectorError String × Option CachedToken :=
  let refreshed :=
    match fetchToken reply with
    | .error e => (.error (.other ("token fetch failed: " ++ e)), cached)
    | .ok (value, expiresIn) => (.ok value, some ⟨value, stored + (expiresIn - 60)⟩)
  match cached with
  | some token => if now + 60 < token.expiresAt then (.ok token.value, cached) else refreshed
  | none => refreshed

/-! ## The delta loop -/

/-- A `ChangeItem`; of the `raw` envelope only the `@microsoft.graph.downloadUrl` is ever read. -/
structure GraphChange where
  item : ChangeItem
  downloadUrl : Option String
  deriving DecidableEq, Repr

/-- The change an item is reported as; folders have neither `deleted` nor `file`. -/
def changeOf (item : RawItem) : Option GraphChange :=
  if item.deleted then some ⟨⟨item.id, none, item.name.getD "", false, none, true⟩, none⟩
  else if item.file then
    some ⟨⟨item.id, none, item.name.getD "", false, none, false⟩, item.downloadUrl⟩
  else none

/-- The reply to one request. -/
def readPage : DeltaReply → Except ConnectorError DeltaPage
  | .sendError e => .error (.other ("Graph delta request failed: " ++ e))
  | .response status retryAfter body =>
      -- the statuses come before the body is read
      if status = 401 ∨ status = 403 then .error (.auth .unexpected)
      else if status = 429 then .error (.throttled ((retryAfter.bind parseU64).getD 60))
      else if !isSuccess status then .error (.http status)
      else match body with
        | .error e => .error (.other ("failed to decode delta page: " ++ e))
        | .ok page => .ok page

/-- What Graph replies to the requests of one call, by bearer token, number and link. -/
abbrev Server := (token : String) → (request : Nat) → (url : String) → DeltaReply

/-- The variables of the loop. -/
structure DeltaCycle where
  changes : List GraphChange
  deletedIds : List String
  deriving DecidableEq, Repr

/-- The `for` loop over the items of a page. -/
def DeltaCycle.addPage (d : DeltaCycle) (page : DeltaPage) : DeltaCycle where
  changes := d.changes ++ page.value.filterMap changeOf
  deletedIds := d.deletedIds ++ (page.value.filter RawItem.deleted).map RawItem.id

def neitherLink : ConnectorError :=
  .other "Graph delta response has neither @odata.nextLink nor @odata.deltaLink"

/-- The loop from a link on; `none` when it has not ended after so many requests. -/
def runPages (server : Server) (token : String) :
    (fuel request : Nat) → (url : String) → DeltaCycle → Option (Except ConnectorError (DeltaCycle × String))
  | 0, _, _, _ => none
  | fuel + 1, request, url, d =>
      match readPage (server token request url) with
      | .error e => some (.error e)
      | .ok page =>
          match page.nextLink, page.deltaLink with
          | some next, _ => runPages server token fuel (request + 1) next (d.addPage page)
          | none, some link => some (.ok (d.addPage page, link))
          | none, none => some (.error neitherLink)

def startUrl (driveId : String) : Option String → String
  | some url => url
  | none => "https://graph.microsoft.com/v1.0/drives/" ++ driveId ++ "/root/delta"

/-- `list_changes`, once there is a token. -/
def listChanges (driveId : String) (server : Server) (token : String) (fuel : Nat)
    (cursor : Option String) : Option (Except ConnectorError (DeltaCycle × String)) :=
  runPages server token fuel 0 (startUrl driveId cursor) ⟨[], []⟩

/-- `download`; the link needs no token. -/
def download (fetch : (url : String) → DownloadReply) (change : GraphChange) :
    Except ConnectorError Bytes :=
  match change.downloadUrl with
  | none => .error (.other ("ChangeItem " ++ change.item.remoteId ++
      " has no @microsoft.graph.downloadUrl in raw"))
  | some url =>
      match fetch url with
      | .sendError e => .error (.other ("file download request failed: " ++ e))
      | .response status body =>
          if !isSuccess status then .error (.http status)
          else match body with
            | .error e => .error (.other ("failed to read download body: " ++ e))
            | .ok bytes => .ok bytes

/-! ## The pages behind a link -/

/-- From this link on, the server gives these pages, and the last one ends the chain like this. -/
def PagesFrom (server : Server) (token : String) :
    (request : Nat) → (url : String) → List DeltaPage → Except ConnectorError String → Prop
  | request, url, [], r => ∃ e, readPage (server token request url) = .error e ∧ r = .error e
  | request, url, page :: pages, r =>
      readPage (server token request url) = .ok page ∧
        match page.nextLink with
        | some next => PagesFrom server token (request + 1) next pages r
        | none => pages = [] ∧ r = match page.deltaLink with
            | some link => .ok link
            | none => .error neitherLink

/-- The items of the pages, in order. -/
def itemsOf (pages : List DeltaPage) : List RawItem := pages.flatMap DeltaPage.value

/-- The items, as changes. -/
def DeltaCycle.ofItems (items : List RawItem) : DeltaCycle where
  changes := items.filterMap changeOf
  deletedIds := (items.filter RawItem.deleted).map RawItem.id

def DeltaCycle.append (d d' : DeltaCycle) : DeltaCycle :=
  ⟨d.changes ++ d'.changes, d.deletedIds ++ d'.deletedIds⟩

@[simp] theorem itemsOf_nil : itemsOf [] = [] := rfl

@[simp] theorem itemsOf_cons (page : DeltaPage) (pages : List DeltaPage) :
    itemsOf (page :: pages) = page.value ++ itemsOf pages := by
  simp [itemsOf]

theorem DeltaCycle.addPage_append (d : DeltaCycle) (page : DeltaPage) (items : List RawItem) :
    (d.addPage page).append (.ofItems items) = d.append (.ofItems (page.value ++ items)) := by
  simp [addPage, append, ofItems, List.filterMap_append]

@[simp] theorem DeltaCycle.append_ofItems_nil (d : DeltaCycle) : d.append (.ofItems []) = d := by
  simp [append, ofItems]

@[simp] theorem DeltaCycle.nil_append (d : DeltaCycle) : DeltaCycle.append ⟨[], []⟩ d = d := by
  simp [append]

/-- **The loop** returns what the chain of pages amounts to, and nothing else. -/
theorem runPages_iff {server : Server} {token : String} {request : Nat} {url : String}
    {d : DeltaCycle} {r : Except ConnectorError (DeltaCycle × String)} :
    (∃ fuel, runPages server token fuel request url d = some r) ↔
    ∃ pages last, PagesFrom server token request url pages last ∧
      r = last.map fun link => (d.append (.ofItems (itemsOf pages)), link) := by
  constructor
  · rintro ⟨fuel, h⟩
    induction fuel generalizing request url d with
    | zero => cases h
    | succ fuel ih =>
        rw [runPages] at h
        cases hread : readPage (server token request url) with
        | error e =>
            rw [hread] at h
            cases h
            exact ⟨[], .error e, ⟨e, hread, rfl⟩, rfl⟩
        | ok page =>
            rw [hread] at h
            dsimp only at h
            cases hnext : page.nextLink with
            | some next =>
                -- a next link: the rest of the chain is what the loop finds from there
                rw [hnext] at h
                obtain ⟨pages, last, hpages, hr⟩ := ih h
                refine ⟨page :: pages, last, ⟨hread, ?_⟩, ?_⟩
                · rw [hnext]
                  exact hpages
                · rw [hr, itemsOf_cons, d.addPage_append]
            | none =>
                rw [hnext] at h
                cases hlink : page.deltaLink with
                | some link =>
                    rw [hlink] at h
                    cases h
                    refine ⟨[page], .ok link, ⟨hread, ?_⟩, ?_⟩
                    · rw [hnext, hlink]
                      exact ⟨rfl, rfl⟩
                    · rw [itemsOf_cons, itemsOf_nil, ← d.addPage_append]
                      simp [Except.map]
                | none =>
                    -- neither link: the cycle ends in an error, and its items are lost
                    rw [hlink] at h
                    cases h
                    refine ⟨[page], .error neitherLink, ⟨hread, ?_⟩, rfl⟩
                    rw [hnext, hlink]
                    exact ⟨rfl, rfl⟩
  · -- one unit of fuel a page is enough
    rintro ⟨pages, last, hpages, rfl⟩
    induction pages generalizing request url d with
    | nil =>
        obtain ⟨e, hread, rfl⟩ := hpages
        refine ⟨1, ?_⟩
        simp only [runPages, hread]
        rfl
    | cons page pages ih =>
        obtain ⟨hread, hrest⟩ := hpages
        cases hnext : page.nextLink with
        | some next =>
            rw [hnext] at hrest
            obtain ⟨fuel, hfuel⟩ := @ih (request + 1) next (d.addPage page) hrest
            refine ⟨fuel + 1, ?_⟩
            rw [d.addPage_append, ← itemsOf_cons] at hfuel
            simp only [runPages, hread, hnext]
            exact hfuel
        | none =>
            rw [hnext] at hrest
            obtain ⟨rfl, rfl⟩ := hrest
            refine ⟨1, ?_⟩
            simp only [runPages, hread, hnext, itemsOf_cons, itemsOf_nil, ← d.addPage_append]
            cases page.deltaLink <;> simp [Except.map]

/-! ## `run_cycle` with this connector -/

/-- The outside world during one poll. `fuel` bounds the requests: a poll that is not done by then
is none. -/
structure Poll where
  loadFails : Bool
  now : Nat
  tokenReply : TokenReply
  stored : Nat
  server : Server
  fuel : Nat
  fetch : Nat → (url : String) → DownloadReply
  items : Nat → ItemEnv
  save : DbOutcome

/-- The outside world while one change is processed. -/
def Poll.itemEnv (g : Poll) (i : Nat) (change : GraphChange) : ItemEnv :=
  { g.items i with download := download (g.fetch i) change }

/-- The poll as a cycle of the daemon. -/
def Poll.cycle (g : Poll) (listing : Except ConnectorError (DeltaCycle × String)) : Cycle where
  loadFails := g.loadFails
  listChanges := fun _ =>
    listing.map fun (d, link) => ⟨some link, d.changes.map GraphChange.item, false⟩
  items := fun i =>
    match listing with
    | .error _ => g.items i
    | .ok (d, _) => (d.changes[i]?).elim (g.items i) (g.itemEnv i)
  save := g.save

/-- `run_cycle`, with the token cache of the client. -/
def runPoll (cfg : Config) (cached : Option CachedToken) (db : Db) (g : Poll) :
    Option (Option CachedToken × Except CycleError Nat × Db) :=
  if g.loadFails then some (cached, .error .loadCursor, db)
  else
    match accessToken cached g.now g.tokenReply g.stored with
    | (.error e, cached) => some (cached, runCycle cfg db (g.cycle (.error e)))
    | (.ok token, cached) =>
        (listChanges cfg.connectorId g.server token g.fuel (db.cursors cfg.connectorId)).map
          fun listing => (cached, runCycle cfg db (g.cycle listing))

/-- The reports of a poll that has listed these items. -/
def Poll.reports (g : Poll) (items : List RawItem) : List Report :=
  (items.filterMap changeOf).mapIdx fun i change => (change.item, g.itemEnv i change)

/-- The poll lists these pages and gets this link, with some token. -/
def Lists (cfg : Config) (db : Db) (g : Poll) (pages : List DeltaPage) (link : String) : Prop :=
  ∃ token, PagesFrom g.server token 0 (startUrl cfg.connectorId (db.cursors cfg.connectorId)) pages
    (.ok link)

/-- The daemon is killed after so many changes of the poll: what they did to the table is committed,
no link is saved, and the next client starts without a token. -/
def killedPoll (cfg : Config) (cached : Option CachedToken) (db : Db) (g : Poll) (done : Nat) :
    Option Db :=
  if g.loadFails then some db
  else
    match accessToken cached g.now g.tokenReply g.stored with
    | (.error _, _) => some db
    | (.ok token, _) =>
        (listChanges cfg.connectorId g.server token g.fuel (db.cursors cfg.connectorId)).map fun
          | .error _ => db
          | .ok (d, _) => { db with
              chunks := itemsTable cfg db.chunks
                ((d.changes.mapIdx fun i change => (change.item, g.itemEnv i change)).take done) }

theorem cycle_batch (g : Poll) (items : List RawItem) (link : String) :
    (g.cycle (.ok (.ofItems items, link))).batch
        ⟨some link, (DeltaCycle.ofItems items).changes.map GraphChange.item, false⟩
      = g.reports items := by
  unfold Cycle.batch Poll.reports
  apply List.ext_getElem?
  intro i
  simp only [DeltaCycle.ofItems, List.getElem?_mapIdx, List.getElem?_map]
  cases h : (items.filterMap changeOf)[i]? with
  | none => rfl
  | some change => simp [Poll.cycle, h]

theorem runCycle_error (cfg : Config) (db : Db) (g : Poll) (e : ConnectorError) :
    (runCycle cfg db (g.cycle (.error e))).2 = db := by
  unfold runCycle Poll.cycle
  by_cases hload : g.loadFails
  · simp [hload]
  · simp [hload, Except.map]

/-- A cycle that gets a listing works on all its changes, and then saves its link. -/
theorem runCycle_listed (cfg : Config) (db : Db) {g : Poll} (hload : g.loadFails = false)
    (items : List RawItem) (link : String) :
    (runCycle cfg db (g.cycle (.ok (.ofItems items, link)))).2
      = ⟨itemsTable cfg db.chunks (g.reports items),
        if g.save = .failed then db.cursors else saveCursor db.cursors cfg.connectorId link⟩ := by
  have hlist : (g.cycle (.ok (.ofItems items, link))).listChanges (db.cursors cfg.connectorId)
      = .ok ⟨some link, (DeltaCycle.ofItems items).changes.map GraphChange.item, false⟩ := rfl
  have hload' : (g.cycle (.ok (.ofItems items, link))).loadFails = false := hload
  have hsave : (g.cycle (.ok (.ofItems items, link))).save = g.save := rfl
  unfold runCycle
  simp only [hload', hlist, cycle_batch, hsave, Bool.false_eq_true, if_false, itemsTable]
  cases g.save <;> simp

/-- **What a poll can do to the tables**: nothing, or the item loop over all the changes of the
drive since the saved link, before the new link is saved. -/
theorem runPoll_cases {cfg : Config} {cached cached' : Option CachedToken} {db db' : Db} {g : Poll}
    {result : Except CycleError Nat} (h : runPoll cfg cached db g = some (cached', result, db')) :
    db' = db ∨ ∃ pages link, Lists cfg db g pages link ∧
      db' = ⟨itemsTable cfg db.chunks (g.reports (itemsOf pages)),
        if g.save = .failed then db.cursors else saveCursor db.cursors cfg.connectorId link⟩ := by
  unfold runPoll at h
  by_cases hload : g.loadFails
  · simp only [hload, if_true, Option.some.injEq, Prod.mk.injEq] at h
    exact Or.inl h.2.2.symm
  have hload' : g.loadFails = false := by simpa using hload
  simp only [hload', if_false, Bool.false_eq_true] at h
  split at h
  · have hdb : (runCycle cfg db (g.cycle (.error _))).2 = db' :=
      congrArg (fun r => r.2.2) (Option.some.inj h)
    rw [runCycle_error] at hdb
    exact Or.inl hdb.symm
  · obtain ⟨listing, hlisting, heq⟩ := Option.map_eq_some_iff.mp h
    have hdb : (runCycle cfg db (g.cycle listing)).2 = db' := congrArg (fun r => r.2.2) heq
    obtain ⟨pages, last, hpages, rfl⟩ := runPages_iff.mp ⟨g.fuel, hlisting⟩
    cases last with
    | error e =>
        left
        rw [← hdb]
        exact runCycle_error cfg db g e
    | ok link =>
        right
        refine ⟨pages, link, ⟨_, hpages⟩, ?_⟩
        rw [← hdb]
        simp only [Except.map, DeltaCycle.nil_append]
        exact runCycle_listed cfg db hload' (itemsOf pages) link

theorem killedPoll_cases {cfg : Config} {cached : Option CachedToken} {db db' : Db} {g : Poll}
    {done : Nat} (h : killedPoll cfg cached db g done = some db') :
    db' = db ∨ ∃ pages link, Lists cfg db g pages link ∧
      db' = { db with chunks := itemsTable cfg db.chunks ((g.reports (itemsOf pages)).take done) } := by
  unfold killedPoll at h
  by_cases hload : g.loadFails
  · simp only [hload, if_true, Option.some.injEq] at h
    exact Or.inl h.symm
  have hload' : g.loadFails = false := by simpa using hload
  simp only [hload', if_false, Bool.false_eq_true] at h
  split at h
  · exact Or.inl (Option.some.inj h).symm
  · obtain ⟨listing, hlisting, rfl⟩ := Option.map_eq_some_iff.mp h
    obtain ⟨pages, last, hpages, rfl⟩ := runPages_iff.mp ⟨g.fuel, hlisting⟩
    cases last with
    | error e => exact Or.inl rfl
    | ok link =>
        right
        refine ⟨pages, link, ⟨_, hpages⟩, ?_⟩
        simp only [Except.map, DeltaCycle.nil_append]
        rfl

end McpGateway.Graph
