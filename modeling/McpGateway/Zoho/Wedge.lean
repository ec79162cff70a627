import McpGateway.Ingestion.Runs
import McpGateway.Zoho.CursorJson

/-! # A folder that cannot be listed

`list_changes` takes a folder off the queue in memory. When its listing fails, the error goes up
through `run_cycle`, which saves no cursor, and the next cycle takes the same folder again. An item
that fails is skipped with `continue`; a folder that fails is not.

* `cycle_lists`, `cycle_fails` — one iteration of `run_cycle`.
* `listed_iff` — what has been listed after enough iterations. -/

namespace McpGateway.Zoho

open Foundation Ingestion

/-! ## Iterations of `run_cycle` -/

/-- The connector is this client, and the database works. -/
structure ZohoCycle (json : CursorJson) (rootId : String) (nowMs : Nat) (server : Server)
    (a : Cycle) : Prop where
  calls : ∀ cursor result, Returns json rootId nowMs server cursor result →
    a.listChanges cursor = result.map Listing.delta
  loads : a.loadFails = false
  saves : a.save ≠ .failed

/-- The database after so many iterations. -/
def after (cfg : Config) (db : Db) (cycles : Nat → Cycle) : Nat → Db
  | 0 => db
  | n + 1 => (runCycle cfg (after cfg db cycles n) (cycles n)).2

/-- The listing of this entry of the queue succeeds whenever it is tried. -/
def AlwaysSucceeds (servers : Nat → Server) (fromMs : Int) (f : FolderCursor) : Prop :=
  ∀ i, ∃ pages, PagesFrom (servers i) f.folderId fromMs 0 f.nextOffset pages

/-- The listing of this entry of the queue fails with an HTTP error whenever it is tried. -/
def AlwaysFails (servers : Nat → Server) (fromMs : Int) (f : FolderCursor) : Prop :=
  ∀ i, ∃ status pages, FailsFrom (servers i) f.folderId fromMs (.http status) 0 f.nextOffset pages

/-- The call with this cursor lists this entry of the queue to its end. -/
def Lists (json : CursorJson) (rootId : String) (nowMs : Nat) (server : Server) (fromMs : Int)
    (cursor : Option String) (f : FolderCursor) : Prop :=
  ∃ listing pages, Returns json rootId nowMs server cursor (.ok listing) ∧
    PagesFrom server f.folderId fromMs 0 f.nextOffset pages ∧
    listing.pages = pageLog f.folderId fromMs f.nextOffset pages

section Cycle

variable {json : CursorJson} {rootId : String} {nowMs : Nat} {server : Server} {cfg : Config}
  {db : Db} {a : Cycle} {c : String} {state : ZohoCursor} {f : FolderCursor}
  {queue : List FolderCursor}

theorem ZohoCycle.saved (ha : ZohoCycle json rootId nowMs server a) {listing : Listing}
    (hreturns : Returns json rootId nowMs server (db.cursors cfg.connectorId) (.ok listing)) :
    (runCycle cfg db a).2.cursors cfg.connectorId =
      listing.delta.nextCursor.or (db.cursors cfg.connectorId) := by
  have hcall := ha.calls _ _ hreturns
  rw [(runCycle_db cfg db a).2, storedToken, hcall]
  simp [ha.loads, ha.saves, Except.map]

theorem ZohoCycle.not_saved (ha : ZohoCycle json rootId nowMs server a) {e : ConnectorError}
    (hreturns : Returns json rootId nowMs server (db.cursors cfg.connectorId) (.error e)) :
    (runCycle cfg db a).2.cursors cfg.connectorId = db.cursors cfg.connectorId := by
  have hcall := ha.calls _ _ hreturns
  rw [(runCycle_db cfg db a).2, storedToken, hcall]
  simp [ha.loads, Except.map]

/-- **The front of the queue is listed**, and the folders found go to its back. -/
theorem cycle_lists (ha : ZohoCycle json rootId nowMs server a)
    (hcursor : db.cursors cfg.connectorId = some c) (hstate : json.fromJson c = some state)
    (hqueue : state.queue = f :: queue) {pages : List (List ZohoFileItem)}
    (hpages : PagesFrom server f.folderId state.fromMs 0 f.nextOffset pages) :
    Lists json rootId nowMs server state.fromMs (db.cursors cfg.connectorId) f ∧
    ∃ next new, (runCycle cfg db a).2.cursors cfg.connectorId = some next ∧
      json.fromJson next = some ({ state with queue := queue }.add new) := by
  have hload : loadState json rootId nowMs (db.cursors cfg.connectorId) = some state := by
    rw [hcursor]
    exact hstate
  obtain ⟨new, hreturns, -⟩ := listChanges_listing hload hqueue hpages
  refine ⟨⟨_, pages, hreturns, hpages, rfl⟩, _, new, ?_, json.fromJson_toJson _⟩
  rw [ha.saved hreturns]
  rfl

/-- **The front of the queue fails**, and stays where it is. -/
theorem cycle_fails (ha : ZohoCycle json rootId nowMs server a)
    (hcursor : db.cursors cfg.connectorId = some c) (hstate : json.fromJson c = some state)
    (hqueue : state.queue = f :: queue) {e : ConnectorError} {pages : List (List ZohoFileItem)}
    (hfails : FailsFrom server f.folderId state.fromMs e 0 f.nextOffset pages) :
    Returns json rootId nowMs server (db.cursors cfg.connectorId) (.error e) ∧
    (runCycle cfg db a).2.cursors cfg.connectorId = db.cursors cfg.connectorId := by
  have hload : loadState json rootId nowMs (db.cursors cfg.connectorId) = some state := by
    rw [hcursor]
    exact hstate
  have hreturns := listChanges_error hload hqueue hfails
  exact ⟨hreturns, ha.not_saved hreturns⟩

end Cycle

/-! ## A listing that succeeds does not fail -/

theorem PagesFrom.not_fails {server : Server} {folderId : String} {fromMs : Int}
    {e : ConnectorError} {pages pages' : List (List ZohoFileItem)} {request : Nat} {offset : UInt32}
    (h : PagesFrom server folderId fromMs request offset pages)
    (h' : FailsFrom server folderId fromMs e request offset pages') : False := by
  induction pages generalizing pages' request offset with
  | nil => exact h
  | cons page pages ih =>
      cases pages' with
      | nil =>
          have hfail : listFolderPage (server request folderId offset fromMs) = .error e := h'
          cases pages with
          | nil => exact absurd (hfail.symm.trans h) (by simp)
          | cons next pages => exact absurd (hfail.symm.trans h.1) (by simp)
      | cons page' pages' =>
          obtain ⟨hpage', hrest'⟩ := h'
          cases pages with
          | nil =>
              have heq := Except.ok.inj (hpage'.symm.trans h)
              exact absurd (congrArg Prod.snd heq) (by simp)
          | cons next pages =>
              have heq := Except.ok.inj (hpage'.symm.trans h.1)
              obtain rfl : page' = page := congrArg Prod.fst heq
              exact ih h.2 hrest'

theorem AlwaysSucceeds.not_fails {servers : Nat → Server} {fromMs : Int} {f : FolderCursor}
    (h : AlwaysSucceeds servers fromMs f) : ¬ AlwaysFails servers fromMs f := by
  intro hfails
  obtain ⟨pages, hpages⟩ := h 0
  obtain ⟨status, pages', hpages'⟩ := hfails 0
  exact hpages.not_fails hpages'

/-- The pages show which entry of the queue they are of. -/
theorem pageLog_inj {f g : FolderCursor} {fromMs : Int} {pages pages' : List (List ZohoFileItem)}
    (hpages : pages ≠ [])
    (h : pageLog f.folderId fromMs f.nextOffset pages =
      pageLog g.folderId fromMs g.nextOffset pages') : f = g := by
  have hhead : ∀ (f : FolderCursor) (pages : List (List ZohoFileItem)),
      ∀ p ∈ (pageLog f.folderId fromMs f.nextOffset pages).head?,
        p.folderId = f.folderId ∧ p.offset = f.nextOffset := by
    intro f pages p hp
    match pages, hp with
    | [_], hp =>
        cases hp
        exact ⟨rfl, rfl⟩
    | _ :: _ :: _, hp =>
        cases hp
        exact ⟨rfl, rfl⟩
  obtain ⟨p, log, hlog⟩ := List.exists_cons_of_ne_nil
    (@pageLog_ne_nil f.folderId fromMs f.nextOffset pages hpages)
  have hf := hhead f pages p (by simp [hlog])
  have hg := hhead g pages' p (by simp [← h, hlog])
  cases f
  cases g
  simp_all

/-! ## Many iterations -/

section Run

variable {json : CursorJson} {rootId : String} {cfg : Config} {db : Db} {cycles : Nat → Cycle}
  {nows : Nat → Nat} {servers : Nat → Server} {fromMs : Int}

/-- The saved cursor has this queue, and maybe more behind it. -/
def Stands (json : CursorJson) (fromMs : Int) (cursor : Option String)
    (queue : List FolderCursor) : Prop :=
  ∃ c state new, cursor = some c ∧ json.fromJson c = some state ∧ state.queue = queue ++ new ∧
    state.fromMs = fromMs

theorem stands_lists (hcycles : ∀ i, ZohoCycle json rootId (nows i) (servers i) (cycles i)) {i : Nat}
    {f : FolderCursor} {queue : List FolderCursor}
    (h : Stands json fromMs ((after cfg db cycles i).cursors cfg.connectorId) (f :: queue))
    (hf : AlwaysSucceeds servers fromMs f) :
    Lists json rootId (nows i) (servers i) fromMs
      ((after cfg db cycles i).cursors cfg.connectorId) f ∧
    Stands json fromMs ((after cfg db cycles (i + 1)).cursors cfg.connectorId) queue := by
  obtain ⟨c, state, new, hcursor, hstate, hqueue, rfl⟩ := h
  obtain ⟨pages, hpages⟩ := hf i
  obtain ⟨hlists, next, new', hnext, hread⟩ := cycle_lists (hcycles i) hcursor hstate hqueue hpages
  refine ⟨hlists, next, _, new ++ new'.map (⟨·, 0⟩), hnext, hread, ?_, rfl⟩
  simp [ZohoCursor.add]

/-- **The folders before the first that fails are listed**, one in each iteration. -/
theorem prefix_listed (hcycles : ∀ i, ZohoCycle json rootId (nows i) (servers i) (cycles i))
    {good rest : List FolderCursor}
    (h : Stands json fromMs (db.cursors cfg.connectorId) (good ++ rest))
    (hgood : ∀ f ∈ good, AlwaysSucceeds servers fromMs f) {k : Nat} (hk : k ≤ good.length) :
    Stands json fromMs ((after cfg db cycles k).cursors cfg.connectorId) (good.drop k ++ rest) := by
  induction k with
  | zero => exact h
  | succ k ih =>
      have hlt : k < good.length := hk
      have hstands := ih (Nat.le_of_lt hlt)
      rw [List.drop_eq_getElem_cons hlt] at hstands
      exact (stands_lists hcycles hstands (hgood _ (List.getElem_mem hlt))).2

/-- **From the first that fails on, nothing is listed.** -/
theorem rest_fails (hcycles : ∀ i, ZohoCycle json rootId (nows i) (servers i) (cycles i))
    {bad : FolderCursor} {rest : List FolderCursor} (hbad : AlwaysFails servers fromMs bad)
    {start : Nat} (h : Stands json fromMs ((after cfg db cycles start).cursors cfg.connectorId)
      (bad :: rest)) {k : Nat} (hk : start ≤ k) :
    Stands json fromMs ((after cfg db cycles k).cursors cfg.connectorId) (bad :: rest) ∧
    ∃ e, Returns json rootId (nows k) (servers k)
      ((after cfg db cycles k).cursors cfg.connectorId) (.error e) := by
  have hfails : ∀ k, Stands json fromMs ((after cfg db cycles k).cursors cfg.connectorId)
        (bad :: rest) →
      (∃ e, Returns json rootId (nows k) (servers k)
        ((after cfg db cycles k).cursors cfg.connectorId) (.error e)) ∧
      (after cfg db cycles (k + 1)).cursors cfg.connectorId =
        (after cfg db cycles k).cursors cfg.connectorId := by
    rintro k ⟨c, state, new, hcursor, hstate, hqueue, rfl⟩
    obtain ⟨status, pages, hpages⟩ := hbad k
    obtain ⟨hreturns, hsame⟩ := cycle_fails (hcycles k) hcursor hstate hqueue hpages
    exact ⟨⟨_, hreturns⟩, hsame⟩
  have hstands : Stands json fromMs ((after cfg db cycles k).cursors cfg.connectorId)
      (bad :: rest) := by
    induction k, hk using Nat.le_induction with
    | base => exact h
    | succ k _ ih =>
        rw [(hfails k ih).2]
        exact ih
  exact ⟨hstands, (hfails k hstands).1⟩

/-- The folders before the first that fails. -/
theorem exists_good_prefix {queue : List FolderCursor}
    (h : ∀ f ∈ queue, AlwaysSucceeds servers fromMs f ∨ AlwaysFails servers fromMs f) :
    ∃ good rest, queue = good ++ rest ∧ (∀ f ∈ good, AlwaysSucceeds servers fromMs f) ∧
      ∀ f ∈ rest.head?, AlwaysFails servers fromMs f := by
  induction queue with
  | nil => exact ⟨[], [], rfl, by simp, by simp⟩
  | cons f queue ih =>
      rcases h f List.mem_cons_self with hgood | hbad
      · obtain ⟨good, rest, rfl, hall, hrest⟩ := ih fun g hg => h g (List.mem_cons_of_mem _ hg)
        exact ⟨f :: good, rest, rfl, by simpa using ⟨hgood, hall⟩, hrest⟩
      · refine ⟨[], f :: queue, rfl, by simp, ?_⟩
        rintro g hg
        cases hg
        exact hbad

/-- Each of the folders before the first that fails is listed in the iteration of its place. -/
theorem good_listed (hcycles : ∀ i, ZohoCycle json rootId (nows i) (servers i) (cycles i))
    {good rest : List FolderCursor}
    (h : Stands json fromMs (db.cursors cfg.connectorId) (good ++ rest))
    (hgood : ∀ f ∈ good, AlwaysSucceeds servers fromMs f) {i : Nat} (hi : i < good.length) :
    Lists json rootId (nows i) (servers i) fromMs
      ((after cfg db cycles i).cursors cfg.connectorId) good[i] := by
  have hat := prefix_listed hcycles h hgood (Nat.le_of_lt hi)
  rw [List.drop_eq_getElem_cons hi] at hat
  exact (stands_lists hcycles hat (hgood _ (List.getElem_mem hi))).1

/-- And a folder of the queue that is listed at any time is one of them. -/
theorem mem_good_of_listed (hcycles : ∀ i, ZohoCycle json rootId (nows i) (servers i) (cycles i))
    {good rest : List FolderCursor}
    (h : Stands json fromMs (db.cursors cfg.connectorId) (good ++ rest))
    (hgood : ∀ f ∈ good, AlwaysSucceeds servers fromMs f)
    (hrest : ∀ f ∈ rest.head?, AlwaysFails servers fromMs f) {f : FolderCursor}
    (hf : f ∈ good ++ rest) {i : Nat} (hlists : Lists json rootId (nows i) (servers i) fromMs
      ((after cfg db cycles i).cursors cfg.connectorId) f) : f ∈ good := by
  obtain ⟨listing, pages, hreturns, hpages, hlog⟩ := hlists
  by_cases hi : i < good.length
  · -- the folder of that iteration, which its pages tell
    obtain ⟨listing', pages', hreturns', -, hlog'⟩ := good_listed hcycles h hgood hi
    obtain rfl := Except.ok.inj (hreturns.det hreturns')
    rw [pageLog_inj hpages.ne_nil (hlog.symm.trans hlog')]
    exact List.getElem_mem hi
  · cases rest with
    | nil =>
        rw [List.append_nil] at hf
        exact hf
    | cons bad rest =>
        have hend := prefix_listed hcycles h hgood (Nat.le_refl good.length)
        rw [List.drop_length, List.nil_append] at hend
        obtain ⟨-, e, herror⟩ := rest_fails hcycles (hrest bad rfl) hend (Nat.le_of_not_lt hi)
        cases hreturns.det herror

/-- A folder is one of them when it can be listed, and those before it can. -/
theorem lt_good_of_before {good rest before behind : List FolderCursor} {f : FolderCursor}
    (hrest : ∀ f ∈ rest.head?, AlwaysFails servers fromMs f)
    (hsplit : good ++ rest = before ++ f :: behind)
    (hbefore : ∀ b ∈ before, AlwaysSucceeds servers fromMs b)
    (hf : AlwaysSucceeds servers fromMs f) : before.length < good.length := by
  rcases List.append_eq_append_iff.mp hsplit with ⟨passed, rfl, hpassed⟩ | ⟨kept, rfl, hkept⟩
  · -- then the first that fails is one of those before it, or the folder itself
    cases passed with
    | nil =>
        rw [List.nil_append] at hpassed
        exact absurd (hrest f (by rw [hpassed]; rfl)) hf.not_fails
    | cons b passed =>
        have hb := hbefore b (List.mem_append_right _ List.mem_cons_self)
        exact absurd (hrest b (by rw [hpassed]; rfl)) hb.not_fails
  · cases kept with
    | nil =>
        rw [List.nil_append] at hkept
        exact absurd (hrest f (by rw [← hkept]; rfl)) hf.not_fails
    | cons g kept => simp

/-- **What is listed**: in as many iterations as the queue is long, or in more of them, every folder
that can be listed, if and only if no folder that cannot stands before it. -/
theorem listed_iff {c : String} {state : ZohoCursor} {n : Nat}
    (hcycles : ∀ i, ZohoCycle json rootId (nows i) (servers i) (cycles i))
    (hcursor : db.cursors cfg.connectorId = some c) (hstate : json.fromJson c = some state)
    (hservers : ∀ f ∈ state.queue, AlwaysSucceeds servers state.fromMs f ∨
      AlwaysFails servers state.fromMs f)
    (hn : state.queue.length ≤ n) :
    (∀ f ∈ state.queue, AlwaysSucceeds servers state.fromMs f → ∃ i < n,
      Lists json rootId (nows i) (servers i) state.fromMs
        ((after cfg db cycles i).cursors cfg.connectorId) f) ↔
    ∀ f ∈ state.queue, AlwaysSucceeds servers state.fromMs f →
      ∃ before behind, state.queue = before ++ f :: behind ∧
        ∀ b ∈ before, AlwaysSucceeds servers state.fromMs b := by
  -- `good` ends before the first folder that cannot be listed, and the queue stays there
  obtain ⟨good, rest, hqueue, hgood, hrest⟩ := exists_good_prefix hservers
  have hstands : Stands json state.fromMs (db.cursors cfg.connectorId) (good ++ rest) :=
    ⟨c, state, [], hcursor, hstate, by simp [hqueue], rfl⟩
  have hlength : good.length ≤ state.queue.length := by
    rw [hqueue, List.length_append]
    exact Nat.le_add_right _ _
  constructor
  · intro hall f hf hsucceeds
    obtain ⟨i, -, hlists⟩ := hall f hf hsucceeds
    rw [hqueue] at hf
    obtain ⟨before, behind, rfl⟩ :=
      List.append_of_mem (mem_good_of_listed hcycles hstands hgood hrest hf hlists)
    refine ⟨before, behind ++ rest, by simp [hqueue], ?_⟩
    exact fun b hb => hgood b (List.mem_append_left _ hb)
  · intro hcond f hf hsucceeds
    obtain ⟨before, behind, hsplit, hbefore⟩ := hcond f hf hsucceeds
    have hlt := lt_good_of_before hrest (hqueue.symm.trans hsplit) hbefore hsucceeds
    have hplace : good[before.length] = f := by
      have := congrArg (·[before.length]?) (hqueue.symm.trans hsplit)
      simpa [List.getElem?_append_left hlt, hlt] using this
    refine ⟨before.length, by omega, ?_⟩
    rw [← hplace]
    exact good_listed hcycles hstands hgood hlt

end Run

/-! ## A folder that is gone -/

/-- The folder `gone` is answered with 404, and the others are empty. -/
def goneServer : Server := fun _ folderId _ _ =>
  if folderId = "gone" then .response 404 none (.error "not found")
  else .response 200 none (.ok (none, none))

/-- An iteration with this server; one request is enough for every call. -/
def goneCycle : Cycle where
  loadFails := false
  listChanges cursor :=
    match listChanges compactJson "root" 0 goneServer 1 cursor with
    | some result => result.map Listing.delta
    | none => .error (.other "still listing")
  items _ := sampleEnv ""
  save := .done

theorem goneServer_gone (request : Nat) (offset : UInt32) (fromMs : Int) :
    listFolderPage (goneServer request "gone" offset fromMs) = .error (.http 404) := by
  simp [goneServer, listFolderPage]

theorem goneServer_other {folderId : String} (h : folderId ≠ "gone") (request : Nat)
    (offset : UInt32) (fromMs : Int) :
    listFolderPage (goneServer request folderId offset fromMs) = .ok ([], false) := by
  simp [goneServer, h, listFolderPage]

theorem goneCycle_zohoCycle : ZohoCycle compactJson "root" 0 goneServer goneCycle where
  calls := by
    intro cursor result hreturns
    have hone : ∃ r, listChanges compactJson "root" 0 goneServer 1 cursor = some r := by
      unfold listChanges
      cases loadState compactJson "root" 0 cursor with
      | none => exact ⟨_, rfl⟩
      | some state =>
          cases hqueue : state.queue with
          | nil => simp [hqueue]
          | cons f queue =>
              by_cases hgone : f.folderId = "gone"
              · simp [hqueue, listPages, hgone, goneServer_gone]
              · simp [hqueue, listPages, goneServer_other hgone]
    obtain ⟨r, hr⟩ := hone
    obtain rfl := hreturns.det ⟨1, hr⟩
    simp only [goneCycle, hr]
  loads := rfl
  saves := by decide

theorem gone_fails (fromMs : Int) : AlwaysFails (fun _ => goneServer) fromMs ⟨"gone", 0⟩ :=
  fun _ => ⟨404, [], goneServer_gone 0 0 fromMs⟩

theorem kept_succeeds (fromMs : Int) : AlwaysSucceeds (fun _ => goneServer) fromMs ⟨"kept", 0⟩ :=
  fun _ => ⟨[[]], goneServer_other (by decide) 0 0 fromMs⟩

/-- A cursor in the middle of a crawl. -/
def goneCursor (queue : List String) : ZohoCursor :=
  ⟨0, queue.map (⟨·, 0⟩), queue, "root", 0⟩

def goneDb (queue : List String) : Db := ⟨[], fun _ => some (compactJson.toJson (goneCursor queue))⟩

theorem goneServer_decides {queue : List String} (hqueue : ∀ q ∈ queue, q = "kept" ∨ q = "gone") :
    ∀ f ∈ (goneCursor queue).queue,
      AlwaysSucceeds (fun _ => goneServer) 0 f ∨ AlwaysFails (fun _ => goneServer) 0 f := by
  intro f hf
  obtain ⟨q, hq, rfl⟩ := List.mem_map.mp hf
  rcases hqueue q hq with rfl | rfl
  · exact .inl (kept_succeeds 0)
  · exact .inr (gone_fails 0)

theorem kept_before_gone : ∃ i < 2, Lists compactJson "root" 0 goneServer 0
    ((after sampleConfig (goneDb ["kept", "gone"]) (fun _ => goneCycle) i).cursors "drive")
    ⟨"kept", 0⟩ := by
  have hservers := @goneServer_decides ["kept", "gone"] (by simp)
  have hiff := @listed_iff compactJson "root" sampleConfig (goneDb ["kept", "gone"])
    (fun _ => goneCycle) (fun _ => 0) (fun _ => goneServer) _ (goneCursor ["kept", "gone"]) 2
    (fun _ => goneCycle_zohoCycle) rfl (compactJson.fromJson_toJson _) hservers (Nat.le_refl 2)
  refine hiff.mpr ?_ ⟨"kept", 0⟩ List.mem_cons_self (kept_succeeds 0)
  intro f hf hsucceeds
  rcases List.mem_cons.mp hf with rfl | hf
  · exact ⟨[], [⟨"gone", 0⟩], rfl, by simp⟩
  · rw [List.mem_singleton.mp hf] at hsucceeds
    exact absurd (gone_fails 0) hsucceeds.not_fails

/-- The folder that is gone stands first: the other is never listed. -/
theorem gone_wedges : ¬ ∀ (json : CursorJson) (rootId : String) (cfg : Config) (db : Db)
    (cycles : Nat → Cycle) (nows : Nat → Nat) (servers : Nat → Server) (c : String)
    (state : ZohoCursor), (∀ i, ZohoCycle json rootId (nows i) (servers i) (cycles i)) →
      db.cursors cfg.connectorId = some c → json.fromJson c = some state →
      (∀ f ∈ state.queue, AlwaysSucceeds servers state.fromMs f ∨
        AlwaysFails servers state.fromMs f) →
      ∃ n, ∀ f ∈ state.queue, AlwaysSucceeds servers state.fromMs f → ∃ i < n,
        Lists json rootId (nows i) (servers i) state.fromMs
          ((after cfg db cycles i).cursors cfg.connectorId) f := by
  intro hclaim
  have hservers := @goneServer_decides ["gone", "kept"] (by simp)
  obtain ⟨n, hn⟩ := hclaim compactJson "root" sampleConfig (goneDb ["gone", "kept"])
    (fun _ => goneCycle) (fun _ => 0) (fun _ => goneServer) _ (goneCursor ["gone", "kept"])
    (fun _ => goneCycle_zohoCycle) rfl (compactJson.fromJson_toJson _) hservers
  obtain ⟨i, -, listing, pages, hreturns, -, -⟩ :=
    hn ⟨"kept", 0⟩ (List.mem_cons_of_mem _ List.mem_cons_self) (kept_succeeds 0)
  have hstands : Stands compactJson 0
      ((after sampleConfig (goneDb ["gone", "kept"]) (fun _ => goneCycle) 0).cursors
        sampleConfig.connectorId) [⟨"gone", 0⟩, ⟨"kept", 0⟩] :=
    ⟨_, goneCursor ["gone", "kept"], [], rfl, compactJson.fromJson_toJson _, rfl, rfl⟩
  obtain ⟨-, e, herror⟩ := @rest_fails compactJson "root" sampleConfig _ _ (fun _ => 0) _ 0
    (fun _ => goneCycle_zohoCycle) _ _ (gone_fails 0) 0 hstands i (Nat.zero_le i)
  cases hreturns.det herror

end McpGateway.Zoho
