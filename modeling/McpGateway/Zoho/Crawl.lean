import McpGateway.Zoho.CursorJson

/-! # The first crawl

Calls of `list_changes`, each with the cursor that the call before returned, over folders that stay
as they are. The queue and the visited list of the cursor are a breadth-first search
(`Foundation/Worklist.lean`) whose steps are the calls.

* `crawl_step` — one call takes one folder off the queue and lists it.
* `crawl_complete` — the crawl ends, and everything that is reachable has been listed. -/

namespace McpGateway.Zoho

open Foundation Ingestion

/-- Calls from the empty cursor on: the cursor that the last one returned, and what they listed. The
pages may be cut differently in every call. -/
inductive Crawl (json : CursorJson) (rootId : String) (clock : Nat → Nat) (servers : Nat → Server) :
    Option String → List Listing → Prop
  | start : Crawl json rootId clock servers none []
  | call {cursor : Option String} {calls : List Listing} {listing : Listing} :
      Crawl json rootId clock servers cursor calls →
      Returns json rootId (clock calls.length) (servers calls.length) cursor (.ok listing) →
      Crawl json rootId clock servers listing.delta.nextCursor (calls ++ [listing])

/-- A request was made for the folder. -/
def Listing.Requests (l : Listing) (folderId : String) : Prop :=
  folderId ∈ l.pages.map FolderPage.folderId

instance (l : Listing) (folderId : String) : Decidable (l.Requests folderId) :=
  inferInstanceAs (Decidable (_ ∈ _))

/-- A listing of one folder makes no request for another. -/
theorem Listing.IsOf.requests_iff {l : Listing} {folderId : String} {fromMs : Int}
    {entries : List ZohoFileItem} (h : l.IsOf folderId fromMs entries) (other : String) :
    l.Requests other ↔ folderId = other := by
  obtain ⟨pages, hne, hlog, -⟩ := h
  have hall := pageLog_mem folderId fromMs 0 pages
  unfold Listing.Requests
  rw [hlog]
  constructor
  · intro hmem
    obtain ⟨p, hp, rfl⟩ := List.mem_map.mp hmem
    exact (hall p hp).1.symm
  · rintro rfl
    obtain ⟨p, hp⟩ := List.exists_mem_of_ne_nil _ (@pageLog_ne_nil folderId fromMs 0 pages hne)
    exact List.mem_map.mpr ⟨p, hp, (hall p hp).1⟩

/-! ## Pages by offset -/

/-- The server cuts the listing into pages where it is asked to; a page is empty behind the end
only. -/
def Paginates (server : Server) (folderId : String) (fromMs : Int) (entries : List ZohoFileItem) :
    Prop :=
  ∀ (request : Nat) (offset : UInt32), ∃ page,
    listFolderPage (server request folderId offset fromMs) =
      .ok (page, decide (offset.toNat + page.length < entries.length)) ∧
    page <+: entries.drop offset.toNat ∧ (page = [] → entries.length ≤ offset.toNat)

/-- The pages from an offset on are the rest of the listing; what is left gets less with each of
them. -/
theorem Paginates.pagesFrom {server : Server} {folderId : String} {fromMs : Int}
    {entries : List ZohoFileItem} (h : Paginates server folderId fromMs entries)
    (hlength : entries.length < 4294967296) (request : Nat) (offset : UInt32) :
    ∃ pages, PagesFrom server folderId fromMs request offset pages ∧
      pages.flatten = entries.drop offset.toNat := by
  induction hleft : entries.length - offset.toNat using Nat.strongRecOn generalizing request offset with
  | ind left ih =>
      obtain ⟨page, hpage, hprefix, hempty⟩ := h request offset
      by_cases hmore : offset.toNat + page.length < entries.length
      · have hnonempty : page.length ≠ 0 := by
          intro hzero
          have := hempty (List.eq_nil_of_length_eq_zero hzero)
          omega
        have hoffset : (offset + UInt32.ofNat page.length).toNat = offset.toNat + page.length := by
          rw [UInt32.toNat_add, UInt32.toNat_ofNat']
          omega
        obtain ⟨pages, hpages, hflatten⟩ :=
          ih _ (by omega) (request + 1) (offset + UInt32.ofNat page.length) rfl
        obtain ⟨next, rest, rfl⟩ := List.exists_cons_of_ne_nil hpages.ne_nil
        refine ⟨page :: next :: rest, ⟨?_, hpages⟩, ?_⟩
        · rw [hpage, decide_eq_true hmore]
        · rw [List.flatten_cons, hflatten, hoffset, ← List.drop_drop]
          exact List.prefix_iff_eq_append.mp hprefix
      · refine ⟨[page], ?_, ?_⟩
        · rw [PagesFrom, hpage, decide_eq_false hmore]
        · rw [List.flatten_singleton]
          refine hprefix.eq_of_length ?_
          have hle := hprefix.length_le
          rw [List.length_drop] at hle ⊢
          omega

/-- **Honest pagination.** An offset is a `u32`. -/
theorem Paginates.serves {server : Server} {folderId : String} {fromMs : Int}
    {entries : List ZohoFileItem} (h : Paginates server folderId fromMs entries)
    (hlength : entries.length < 4294967296) : Serves server folderId fromMs entries :=
  h.pagesFrom hlength 0 0

/-! ## The search -/

section Graph

variable {json : CursorJson} {rootId : String} {clock : Nat → Nat} {servers : Nat → Server}
  {entries : String → List ZohoFileItem} {cursor : Option String} {calls : List Listing}

/-- The folders in a folder. -/
abbrev childFolders (entries : String → List ZohoFileItem) (folderId : String) : List String :=
  subfolders (entries folderId)

/-- What the call for a folder listed and reported. -/
def Listed (entries : String → List ZohoFileItem) (l : Listing) (folderId : String) : Prop :=
  l.IsOf folderId 0 (entries folderId) ∧
    l.delta.changes = (entries folderId).filterMap (changeOf folderId)

/-- The cursor is the search `w`, and the calls have listed what it has taken off. -/
structure Progress (json : CursorJson) (rootId : String) (clock : Nat → Nat)
    (entries : String → List ZohoFileItem) (cursor : Option String) (calls : List Listing)
    (taken : List String) (state : ZohoCursor) : Prop where
  loaded : loadState json rootId (clock calls.length) cursor = some state
  first : state.watermarkMs = 0
  offsets : ∀ f ∈ state.queue, f.nextOffset = 0
  explored : Worklist.Explored (childFolders entries) rootId taken state.worklist
  listed : List.Forall₂ (Listed entries) calls taken

theorem Progress.start :
    Progress json rootId clock entries none [] [] (.bootstrap rootId (clock 0)) where
  loaded := rfl
  first := rfl
  offsets := by simp [ZohoCursor.bootstrap]
  explored := Worklist.Explored.nil
  listed := .nil

/-- **One call.** -/
theorem crawl_step {taken : List String} {state : ZohoCursor} {folder : FolderCursor}
    {queue : List FolderCursor}
    (hserves : ∀ i f, Worklist.Reaches (childFolders entries) rootId f →
      Serves (servers i) f 0 (entries f))
    (hcrawl : Crawl json rootId clock servers cursor calls)
    (hprogress : Progress json rootId clock entries cursor calls taken state)
    (hqueue : state.queue = folder :: queue) :
    ∃ next listing state', Crawl json rootId clock servers (some next) (calls ++ [listing]) ∧
      Progress json rootId clock entries (some next) (calls ++ [listing])
        (taken ++ [folder.folderId]) state' := by
  have hwork : state.worklist.queue = folder.folderId :: queue.map FolderCursor.folderId := by
    simp [ZohoCursor.worklist, hqueue]
  have hreached := hprogress.explored.queue_reached (a := folder.folderId) (by simp [hwork])
  have hoffset : folder.nextOffset = 0 := hprogress.offsets folder (by simp [hqueue])
  have hfrom : state.fromMs = 0 := by
    rw [ZohoCursor.fromMs, hprogress.first]
    rfl
  -- every folder of the queue has been reached, so the server serves it
  obtain ⟨pages, hpages, hflatten⟩ := hserves calls.length folder.folderId hreached
  obtain ⟨new, hreturns, hadded⟩ := listChanges_listing hprogress.loaded hqueue
    (hfrom ▸ hoffset ▸ hpages)
  have hstep := hprogress.explored.step hwork
  refine ⟨_, _, { state with queue := queue }.add new, .call hcrawl hreturns, ?_⟩
  constructor
  · exact json.fromJson_toJson _
  · exact hprogress.first
  · intro f hf
    rcases List.mem_append.mp hf with hf | hf
    · exact hprogress.offsets f (by simp [hqueue, hf])
    · obtain ⟨id, -, rfl⟩ := List.mem_map.mp hf
      rfl
  · rw [← hadded, hflatten]
    exact hstep
  · -- the log of the calls grows with the folders that were taken
    refine List.rel_append hprogress.listed (.cons ⟨⟨pages, hpages.ne_nil, ?_, hflatten⟩, ?_⟩ .nil)
    · rw [hfrom, hoffset]
    · rw [hflatten]

/-- **The crawl ends.** No more calls can succeed than there are folders. -/
theorem crawl_ends {taken folders : List String} {state : ZohoCursor}
    (hfinite : ∀ f, Worklist.Reaches (childFolders entries) rootId f → f ∈ folders)
    (hserves : ∀ i f, Worklist.Reaches (childFolders entries) rootId f →
      Serves (servers i) f 0 (entries f))
    (hcrawl : Crawl json rootId clock servers cursor calls)
    (hprogress : Progress json rootId clock entries cursor calls taken state) :
    ∃ cursor' calls' taken' state', Crawl json rootId clock servers cursor' calls' ∧
      Progress json rootId clock entries cursor' calls' taken' state' ∧ state'.queue = [] := by
  -- what is still to be taken off decreases
  induction hleft : folders.length + 1 - taken.length generalizing cursor calls taken state with
  | zero =>
      cases hqueue : state.queue with
      | nil => exact ⟨_, _, _, _, hcrawl, hprogress, hqueue⟩
      | cons folder queue =>
          obtain ⟨next, listing, state', -, hprogress'⟩ := crawl_step hserves hcrawl hprogress hqueue
          have hle := hprogress'.explored.length_le hfinite
          rw [List.length_append, List.length_singleton] at hle
          omega
  | succ left ih =>
      cases hqueue : state.queue with
      | nil => exact ⟨_, _, _, _, hcrawl, hprogress, hqueue⟩
      | cons folder queue =>
          obtain ⟨next, listing, state', hcrawl', hprogress'⟩ :=
            crawl_step hserves hcrawl hprogress hqueue
          refine ih hcrawl' hprogress' ?_
          rw [List.length_append, List.length_singleton]
          omega

/-- A folder is requested by as many calls as it was taken off. -/
theorem Progress.countP_requests {taken : List String} {state : ZohoCursor}
    (h : Progress json rootId clock entries cursor calls taken state) (folderId : String) :
    calls.countP (fun l => l.Requests folderId) = taken.count folderId := by
  have hlisted := h.listed
  clear h
  induction hlisted with
  | nil => rfl
  | @cons l f calls taken hl _ ih =>
      rw [List.countP_cons, List.count_cons, ih]
      by_cases hf : f = folderId <;> simp [hl.1.requests_iff, hf]

/-- What was taken off has been listed. -/
theorem Progress.exists_listed {taken : List String} {state : ZohoCursor}
    (h : Progress json rootId clock entries cursor calls taken state) {folderId : String}
    (hmem : folderId ∈ taken) : ∃ l ∈ calls, Listed entries l folderId := by
  obtain ⟨i, hi, rfl⟩ := List.getElem_of_mem hmem
  have hlength := h.listed.length_eq
  have hi' : i < calls.length := by omega
  exact ⟨calls[i], List.getElem_mem hi', h.listed.get hi' hi⟩

/-- The empty cursor still has the root on its queue. -/
theorem Crawl.cursor_some {taken : List String} {state : ZohoCursor}
    (h : Crawl json rootId clock servers cursor calls)
    (hprogress : Progress json rootId clock entries cursor calls taken state)
    (hqueue : state.queue = []) : ∃ next, cursor = some next ∧ json.fromJson next = some state := by
  have hloaded := hprogress.loaded
  cases cursor with
  | none =>
      cases hloaded
      simp [ZohoCursor.bootstrap] at hqueue
  | some next => exact ⟨next, rfl, hloaded⟩

end Graph

/-- **The first crawl is complete and ends.** -/
theorem crawl_complete (json : CursorJson) (rootId : String) (clock : Nat → Nat)
    (servers : Nat → Server) (entries : String → List ZohoFileItem) (folders : List String)
    (hfinite : ∀ f, Worklist.Reaches (childFolders entries) rootId f → f ∈ folders)
    (hserves : ∀ i f, Worklist.Reaches (childFolders entries) rootId f →
      Serves (servers i) f 0 (entries f)) :
    ∃ next state calls, Crawl json rootId clock servers (some next) calls ∧
      json.fromJson next = some state ∧ state.queue = [] ∧
      calls.length ≤ folders.length + 1 ∧
      (∀ f, Worklist.Reaches (childFolders entries) rootId f →
        (∃ l ∈ calls, l.IsOf f 0 (entries f)) ∧
        (f ≠ rootId → calls.countP (fun l => l.Requests f) = 1) ∧
        ∀ item ∈ entries f, item.isFolder = false →
          ∃ l ∈ calls, ∃ c ∈ l.delta.changes, changeOf f item = some c) := by
  obtain ⟨cursor, calls, taken, state, hcrawl, hprogress, hqueue⟩ :=
    @crawl_ends json rootId clock servers entries none [] [] folders _ hfinite hserves .start .start
  obtain ⟨next, rfl, hload⟩ := hcrawl.cursor_some hprogress hqueue
  have hdone : state.worklist.queue = [] := by simp [ZohoCursor.worklist, hqueue]
  have hlength := hprogress.listed.length_eq
  refine ⟨next, state, calls, hcrawl, hload, hqueue, ?_, ?_⟩
  · rw [hlength]
    exact hprogress.explored.length_le hfinite
  · intro f hf
    have htaken := hprogress.explored.closed hdone hf
    obtain ⟨l, hl, hlists, hchanges⟩ := hprogress.exists_listed htaken
    refine ⟨⟨l, hl, hlists⟩, ?_, ?_⟩
    · intro hne
      rw [hprogress.countP_requests]
      exact hprogress.explored.count_eq_one hdone hf hne
    · intro item hitem hfile
      refine ⟨l, hl, _, ?_, by rw [changeOf, if_neg (by simp [hfile])]⟩
      rw [hchanges]
      refine List.mem_filterMap.mpr ⟨item, hitem, ?_⟩
      rw [changeOf, if_neg (by simp [hfile])]

/-- A server that puts one entry on a page. -/
def onePerPage (entries : String → List ZohoFileItem) : Server := fun _ folderId offset _ =>
  .response 200 none (.ok (some ((entries folderId).drop offset.toNat |>.take 1),
    some (some (decide (offset.toNat + 1 < (entries folderId).length)))))

theorem onePerPage_paginates (entries : String → List ZohoFileItem) (folderId : String)
    (fromMs : Int) : Paginates (onePerPage entries) folderId fromMs (entries folderId) := by
  intro request offset
  refine ⟨((entries folderId).drop offset.toNat).take 1, ?_, List.take_prefix _ _, ?_⟩
  · have hmore : offset.toNat + 1 < (entries folderId).length ↔
        offset.toNat + (((entries folderId).drop offset.toNat).take 1).length <
          (entries folderId).length := by
      rw [List.length_take, List.length_drop]
      omega
    simp only [hmore, onePerPage, listFolderPage]
    rfl
  · intro hnil
    have hlength := congrArg List.length hnil
    rw [List.length_take, List.length_drop, List.length_nil] at hlength
    omega

/-- Two folders that contain each other, and the root is in one of them. -/
def sharedEntries (folderId : String) : List ZohoFileItem :=
  let folder (id : String) : ZohoFileItem := ⟨id, none, some "folder", none, none⟩
  let file (id : String) : ZohoFileItem := ⟨id, none, some "files", none, none⟩
  if folderId = "r" then [folder "a", file "x", folder "b"]
  else if folderId = "a" then [folder "b", folder "r", file "y"]
  else if folderId = "b" then [folder "a", file "z"]
  else []

theorem shared_folder_crawled :
    ∃ next state calls,
      Crawl compactJson "r" id (fun _ => onePerPage sharedEntries) (some next) calls ∧
      compactJson.fromJson next = some state ∧ state.queue = [] ∧ calls.length ≤ 4 ∧
      calls.countP (fun l => l.Requests "b") = 1 := by
  have hclosed : ∀ a ∈ ["r", "a", "b"], ∀ b ∈ childFolders sharedEntries a, b ∈ ["r", "a", "b"] := by
    decide
  have hlength : ∀ f, (sharedEntries f).length < 4294967296 := by
    intro f
    unfold sharedEntries
    split_ifs <;> simp
  obtain ⟨next, state, calls, hcrawl, hload, hqueue, hcalls, hall⟩ :=
    crawl_complete compactJson "r" id (fun _ => onePerPage sharedEntries) sharedEntries ["r", "a", "b"]
      (fun f hf => hf.mem_of_closed (by simp) hclosed)
      (fun _ f _ => (onePerPage_paginates sharedEntries f 0).serves (hlength f))
  have hb : Worklist.Reaches (childFolders sharedEntries) "r" "b" := .single (by decide)
  exact ⟨next, state, calls, hcrawl, hload, hqueue, hcalls, (hall "b" hb).2.1 (by decide)⟩

end McpGateway.Zoho
