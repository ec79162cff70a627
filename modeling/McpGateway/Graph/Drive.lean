import McpGateway.Foundation.ChangeLog
import McpGateway.Foundation.Keyed
import McpGateway.Graph.Delta
import McpGateway.Ingestion.Namespaces

/-! # Does the table follow the drive?

The drive is the log of its edits, and a saved link is a position in it. Graph need not report every
edit, only the state of what has changed; what it reports, and what a download returns, may be newer
than the link it hands out.

* `Truthful` — what is assumed of Graph, poll by poll.
* `Keeps` — what the daemon has to get right for one item: its last report, in a poll that moves the
  saved link past the last edit.
* `drive_heals` — polls may fail or be killed anywhere: from any edit of an item on, whatever had
  happened to it before, the table shows the item as soon as the link has passed its last edit, if
  the item is gone or a file whose text yields a chunk. A version without text leaves the old rows. -/

namespace McpGateway.Graph

open Foundation Foundation.ChangeLog Ingestion

/-! ## The drive -/

inductive Entry where
  | file (name : String) (content : Bytes)
  | folder (name : String)
  deriving DecidableEq, Repr

/-- The drive, which is not part of the program, the client's token cache and the database. -/
structure DriveState where
  log : List (String × Option Entry)
  cached : Option CachedToken
  db : Db

inductive DriveAction where
  | edit (id : String) (entry : Option Entry)
  | poll (g : Poll)
  | killed (g : Poll) (done : Nat)
  /-- a cycle of another connector -/
  | other (connectorId : String) (a : Cycle)

/-- The drive and the daemon. What is edited during a poll is edited before it. -/
def drive (cfg : Config) : System DriveState DriveAction where
  init s := s = ⟨[], none, ⟨[], fun _ => none⟩⟩
  step s
    | .edit id entry => some { s with log := s.log ++ [(id, entry)] }
    | .poll g => (runPoll cfg s.cached s.db g).map fun r => { s with cached := r.1, db := r.2.2 }
    | .killed g done =>
        (killedPoll cfg s.cached s.db g done).map fun db => { s with cached := none, db := db }
    | .other connectorId a =>
        if connectorId = cfg.connectorId then none
        else some { s with db := (runCycle (cfg.at connectorId) s.db a).2 }

def DriveState.cursor (s : DriveState) (cfg : Config) : Option String := s.db.cursors cfg.connectorId

/-! ## What Graph promises -/

/-- The item as Graph reports an entry, or that there is none. -/
def Depicts (item : RawItem) : Option Entry → Prop
  | none => item.deleted = true
  | some (.file name _) => item.deleted = false ∧ item.file = true ∧ item.name = some name
  | some (.folder _) => item.deleted = false ∧ item.file = false

/-- The position a link stands for; without a link it is the beginning of the log. -/
def StandsAt (links : Nat → String) (n : Nat) : Option String → Prop
  | none => n = 0
  | some link => link = links n

/-- How old a report can be, when these come after it: the last report of an item is no older than
the link. -/
def oldest (n m : Nat) (id : String) (later : List String) : Nat := if id ∈ later then n else m

/-- What Graph does in a poll that lists the edits from position `n` on: the link it hands out is
that of a later position `m`, up to which no change is left out. A crawl of the whole drive only
has what is there. -/
structure Feed (cfg : Config) (links : Nat → String) (s : DriveState) (g : Poll)
    (items : List RawItem) (link : String) (n m : Nat) : Prop where
  link_eq : link = links m
  le : n ≤ m
  le_length : m ≤ s.log.length
  complete : ∀ id, EditedIn s.log n m id → (s.cursor cfg = none → stateAt s.log m id ≠ none) →
    ∃ item ∈ items, item.id = id
  depicted : ∀ before item after, items = before ++ item :: after →
    ∃ t, oldest n m item.id (after.map RawItem.id) ≤ t ∧ t ≤ s.log.length ∧
      Depicts item (stateAt s.log t item.id)
  downloaded : ∀ before change after content,
    items.filterMap changeOf = before ++ change :: after → change.item.deleted = false →
    download (g.fetch before.length) change = .ok content →
    ∃ t name, oldest n m change.item.remoteId (after.map fun c => c.item.remoteId) ≤ t ∧
      t ≤ s.log.length ∧ stateAt s.log t change.item.remoteId = some (.file name content)

/-- Graph keeps its promises. -/
def Truthful (cfg : Config) (links : Nat → String) (s : DriveState) : DriveAction → Prop
  | .poll g | .killed g _ => ∀ n pages link, StandsAt links n (s.cursor cfg) →
      Lists cfg s.db g pages link → ∃ m, Feed cfg links s g (itemsOf pages) link n m
  | _ => True

/-! ## What the daemon has to get right -/

/-- Every call made for the last report of the item returns `Ok`. -/
def LastSucceeds (cfg : Config) (rows : List DocumentChunk) (id : String) (xs : List Report) : Prop :=
  ∀ before x after, xs = before ++ x :: after → x.1.remoteId = id →
    (∀ y ∈ after, y.1.remoteId ≠ id) → Succeeds cfg (itemsTable cfg rows before) x

/-- A poll that moves the saved link past the last edit of the item processes its last report, and
the other connectors have no item of this name. -/
def Keeps (cfg : Config) (links : Nat → String) (id : String) (s : DriveState) : DriveAction → Prop
  | .edit _ _ | .killed _ _ => True
  | .poll g => ∀ n m pages, StandsAt links n (s.cursor cfg) → Lists cfg s.db g pages (links m) →
      g.save ≠ .failed → EditedIn s.log n m id → ¬ EditedIn s.log m s.log.length id →
      LastSucceeds cfg s.db.chunks id (g.reports (itemsOf pages))
  | .other connectorId a => ∀ x ∈ batchAt (cfg.at connectorId) s.db a, x.1.remoteId ≠ id

/-! ## What the table shows -/

/-- The rows of the item are those of the entry. -/
def Shown (cfg : Config) (rows : List DocumentChunk) (id : String) : Option Entry → Prop
  | none | some (.folder _) => rowsOf rows id = []
  | some (.file name content) =>
      Mirrors cfg asI32 rows ⟨id, none, name, false, none, false⟩
        (chunk (extractText cfg.unicode content name))

/-- The daemon makes the rows those of the entry: it is gone, or a file whose text yields a chunk.
Of a file without text the old rows stay, and folders are not reported. -/
def Stored (cfg : Config) : Option Entry → Prop
  | none => True
  | some (.file name content) => chunk (extractText cfg.unicode content name) ≠ []
  | some (.folder _) => False

/-- The report is of this entry. -/
def ReportOf (x : Report) : Option Entry → Prop
  | none => x.1.deleted = true
  | some (.file name content) => x.1.deleted = false ∧ x.1.name = name ∧
      ∀ bytes, x.2.download = .ok bytes → bytes = content
  | some (.folder _) => False

theorem Shown.of_rowsOf {cfg : Config} {rows rows' : List DocumentChunk} {id : String}
    {entry : Option Entry} (h : Shown cfg rows id entry) (hrows : rowsOf rows' id = rowsOf rows id) :
    Shown cfg rows' id entry := by
  cases entry with
  | none =>
      show rowsOf rows' id = []
      rw [hrows]
      exact h
  | some entry =>
      cases entry with
      | folder name =>
          show rowsOf rows' id = []
          rw [hrows]
          exact h
      | file name content =>
          have hm : Mirrors cfg asI32 rows _ _ := h
          show Mirrors cfg asI32 rows' _ _
          unfold Mirrors at hm ⊢
          rw [hrows]
          exact hm

/-- An applied report shows what it is of. -/
theorem ReportOf.shown {cfg : Config} {rows : List DocumentChunk} {x : Report} {entry : Option Entry}
    (h : ReportOf x entry) (happ : Applied cfg rows x) : Shown cfg rows x.1.remoteId entry := by
  obtain ⟨chunks, hchunks, hm⟩ := happ
  cases entry with
  | none =>
      have hdel : x.1.deleted = true := h
      simp only [expected, hdel, if_true, Option.some.injEq] at hchunks
      subst hchunks
      exact hm
  | some entry =>
      cases entry with
      | folder name => exact h.elim
      | file name content =>
          obtain ⟨hdel, rfl, hcontent⟩ := h
          cases hdown : x.2.download with
          | error e => simp [expected, hdel, hdown] at hchunks
          | ok bytes =>
              rw [hcontent bytes hdown] at hdown
              rw [expected_of_download hdel hdown] at hchunks
              show Mirrors cfg asI32 rows _ (chunk (extractText cfg.unicode content x.1.name))
              rw [Option.some.inj hchunks]
              exact Mirrors.congr hm rfl rfl

/-! ## The item loop and one item -/

/-- Reports of other items leave the rows of this one alone. -/
theorem itemsTable_other {cfg : Config} {rows : List DocumentChunk} {id : String} {xs : List Report}
    (h : ∀ x ∈ xs, x.1.remoteId ≠ id) : rowsOf (itemsTable cfg rows xs) id = rowsOf rows id := by
  induction xs generalizing rows with
  | nil => rfl
  | cons x xs ih =>
      have hx := h x List.mem_cons_self
      rw [itemsTable_cons, ih fun y hy => h y (List.mem_cons_of_mem _ hy)]
      rcases processItem_cases cfg rows x with hsame | ⟨-, hother⟩
      · rw [hsame]
      · exact hother id fun heq => hx heq.symm

/-- As long as every report of the item is of what is shown, it goes on to be shown, whatever
fails. -/
theorem itemsTable_quiet {cfg : Config} {rows : List DocumentChunk} {id : String} {xs : List Report}
    {entry : Option Entry} (h : ∀ x ∈ xs, x.1.remoteId = id → ReportOf x entry)
    (hshown : Shown cfg rows id entry) : Shown cfg (itemsTable cfg rows xs) id entry := by
  induction xs generalizing rows with
  | nil => exact hshown
  | cons x xs ih =>
      rw [itemsTable_cons]
      apply ih fun y hy => h y (List.mem_cons_of_mem _ hy)
      rcases processItem_cases cfg rows x with hsame | ⟨happ, hother⟩
      · rw [hsame]
        exact hshown
      · by_cases hid : x.1.remoteId = id
        · have hof := h x List.mem_cons_self hid
          rw [← hid]
          exact hof.shown happ
        · exact hshown.of_rowsOf (hother id fun heq => hid heq.symm)

/-- When the last report of the item succeeds, what it is of is shown. -/
theorem itemsTable_last {cfg : Config} {rows : List DocumentChunk} {x : Report}
    {before after : List Report} {entry : Option Entry} (hof : ReportOf x entry)
    (hstored : Stored cfg entry)
    (hs : Succeeds cfg (itemsTable cfg rows before) x)
    (hafter : ∀ y ∈ after, y.1.remoteId ≠ x.1.remoteId) :
    Shown cfg (itemsTable cfg rows (before ++ x :: after)) x.1.remoteId entry := by
  rw [itemsTable_append, itemsTable_cons]
  by_cases hb : Blank cfg x
  · -- a blank version is only reported of a file without text
    cases entry with
    | none =>
        have hdel : x.1.deleted = true := hof
        rw [hb.1] at hdel
        cases hdel
    | some entry =>
        cases entry with
        | folder name => exact hof.elim
        | file name content =>
            obtain ⟨hdel, rfl, hcontent⟩ := hof
            have hblank := hb.2
            cases hdown : x.2.download with
            | error e => simp [expected, hdel, hdown] at hblank
            | ok bytes =>
                rw [hcontent bytes hdown] at hdown
                rw [expected_of_download hdel hdown] at hblank
                exact absurd (Option.some.inj hblank) hstored
  · obtain ⟨happ, -⟩ := processItem_effective hs hb
    exact (hof.shown happ).of_rowsOf (itemsTable_other hafter)

/-! ## The reports of a poll -/

theorem changeOf_id {item : RawItem} {change : GraphChange} (h : changeOf item = some change) :
    change.item.remoteId = item.id := by
  unfold changeOf at h
  split_ifs at h
  · cases h
    rfl
  · cases h
    rfl

/-- The report an item becomes, behind these items. -/
def Poll.report (g : Poll) (before : List RawItem) (change : GraphChange) : Report :=
  (change.item, g.itemEnv (before.filterMap changeOf).length change)

theorem reports_split (g : Poll) {before after : List RawItem} {item : RawItem}
    {change : GraphChange} (h : changeOf item = some change) :
    ∃ later, g.reports (before ++ item :: after)
        = g.reports before ++ g.report before change :: later ∧
      ∀ y ∈ later, ∃ item' ∈ after, y.1.remoteId = item'.id := by
  refine ⟨(after.filterMap changeOf).mapIdx fun i c =>
    (c.item, g.itemEnv (i + 1 + (before.filterMap changeOf).length) c), ?_, ?_⟩
  · unfold Poll.reports Poll.report
    rw [List.filterMap_append, List.filterMap_cons_some h, List.mapIdx_append, List.mapIdx_cons,
      Nat.zero_add]
  · intro y hy
    obtain ⟨i, hi, rfl⟩ := List.mem_mapIdx.mp hy
    obtain ⟨item', hitem', hchange⟩ := List.mem_filterMap.mp (List.getElem_mem hi)
    exact ⟨item', hitem', changeOf_id hchange⟩

theorem mem_reports {g : Poll} {items : List RawItem} {x : Report} (h : x ∈ g.reports items) :
    ∃ before item after change, items = before ++ item :: after ∧ changeOf item = some change ∧
      x = g.report before change := by
  obtain ⟨i, hi, rfl⟩ := List.mem_mapIdx.mp h
  have hsplit : items.filterMap changeOf = (items.filterMap changeOf).take i ++
      (items.filterMap changeOf)[i] :: (items.filterMap changeOf).drop (i + 1) := by
    rw [← List.drop_eq_getElem_cons hi, List.take_append_drop]
  obtain ⟨before, rest, rfl, hbefore, hrest⟩ := List.filterMap_eq_append_iff.mp hsplit
  obtain ⟨skipped, item, after, rfl, hskipped, hchange, -⟩ := List.filterMap_eq_cons_iff.mp hrest
  have hlength : (((before ++ skipped).filterMap changeOf).length) = i := by
    rw [List.filterMap_append, hbefore, List.filterMap_eq_nil_iff.mpr hskipped, List.append_nil,
      List.length_take]
    omega
  refine ⟨before ++ skipped, item, after, _, by simp, hchange, ?_⟩
  unfold Poll.report
  rw [hlength]

/-- What Graph reports of an item that has been the same for long enough is of its entry. -/
theorem Feed.reportOf {cfg : Config} {links : Nat → String} {s : DriveState} {g : Poll}
    {before after : List RawItem} {item : RawItem} {change : GraphChange} {link : String}
    {n m since : Nat} {entry : Option Entry}
    (hf : Feed cfg links s g (before ++ item :: after) link n m) (hchange : changeOf item = some change)
    (hsince : since ≤ oldest n m item.id (after.map RawItem.id))
    (hsame : ∀ t, since ≤ t → t ≤ s.log.length → stateAt s.log t item.id = entry) :
    ReportOf (g.report before change) entry := by
  obtain ⟨t, ht, htn, hdepicts⟩ := hf.depicted before item after rfl
  rw [hsame t (Nat.le_trans hsince ht) htn] at hdepicts
  cases entry with
  | none =>
      have hdel : item.deleted = true := hdepicts
      unfold changeOf at hchange
      rw [if_pos hdel] at hchange
      cases hchange
      rfl
  | some entry =>
      cases entry with
      | folder name =>
          obtain ⟨hdel, hfile⟩ := hdepicts
          simp [changeOf, hdel, hfile] at hchange
      | file name content =>
          obtain ⟨hdel, hfile, hname⟩ := hdepicts
          simp only [changeOf, hdel, hfile, Bool.false_eq_true, if_false, if_true,
            Option.some.injEq] at hchange
          subst hchange
          refine ⟨rfl, by simp [Poll.report, hname], ?_⟩
          intro bytes hbytes
          have hsplit : (before ++ item :: after).filterMap changeOf = before.filterMap changeOf ++
              ⟨⟨item.id, none, item.name.getD "", false, none, false⟩, item.downloadUrl⟩ ::
                after.filterMap changeOf := by
            simp [List.filterMap_append, changeOf, hdel, hfile]
          obtain ⟨t', name', ht', htn', hstate⟩ := hf.downloaded _ _ _ bytes hsplit rfl hbytes
          -- a later change of the item is a later report of it
          have hle : oldest n m item.id (after.map RawItem.id) ≤ oldest n m item.id
              ((after.filterMap changeOf).map fun c => c.item.remoteId) := by
            unfold oldest
            split_ifs with h₁ h₂ h₂
            · exact Nat.le_refl n
            · exact hf.le
            · exfalso
              obtain ⟨c, hc, hid⟩ := List.mem_map.mp h₂
              obtain ⟨item', hitem', hc'⟩ := List.mem_filterMap.mp hc
              apply h₁
              rw [← hid, changeOf_id hc']
              exact List.mem_map_of_mem hitem'
            · exact Nat.le_refl m
          rw [hsame t' (Nat.le_trans hsince (Nat.le_trans hle ht')) htn'] at hstate
          cases hstate
          rfl

/-- Whatever the position of the link, nothing older than the call's own link is reported. -/
theorem Feed.le_oldest {cfg : Config} {links : Nat → String} {s : DriveState} {g : Poll}
    {items : List RawItem} {link : String} {n m : Nat} (hf : Feed cfg links s g items link n m)
    (id : String) (later : List String) : n ≤ oldest n m id later := by
  unfold oldest
  split_ifs
  · exact Nat.le_refl n
  · exact hf.le

/-! ## One step -/

section Step

variable {cfg : Config} {links : Nat → String} {id : String} {s s' : DriveState} {n m : Nat}

/-- The table follows the drive on this item from the position of the saved link on; without a saved
link, nothing is said about an item that is gone, and nothing ever about versions that are not
stored. -/
def Follows (cfg : Config) (links : Nat → String) (id : String) (saved : Prop) (s : DriveState) :
    Prop :=
  (saved → s.cursor cfg ≠ none) ∧ ∃ n, StandsAt links n (s.cursor cfg) ∧ n ≤ s.log.length ∧
    Tracks s.log n (fun entry => (saved ∨ entry ≠ none) ∧ Stored cfg entry →
      Shown cfg s.db.chunks id entry) id

/-- What a poll shows of an item that nothing happened to, however many of its changes are done. -/
theorem Feed.quiet {g : Poll} {items : List RawItem} {link : String} {entry : Option Entry}
    (hf : Feed cfg links s g items link n m)
    (hsame : ∀ t, n ≤ t → t ≤ s.log.length → stateAt s.log t id = entry)
    (hshown : Shown cfg s.db.chunks id entry) {xs : List Report} (hxs : xs ⊆ g.reports items) :
    Shown cfg (itemsTable cfg s.db.chunks xs) id entry := by
  apply itemsTable_quiet _ hshown
  intro x hx hid
  obtain ⟨before, item, after, change, rfl, hchange, rfl⟩ := mem_reports (hxs hx)
  have hitem : item.id = id := (changeOf_id hchange).symm.trans hid
  apply hf.reportOf hchange (hf.le_oldest _ _)
  rw [hitem]
  exact hsame

/-- What a poll shows of an item whose last edit it passes. -/
theorem Feed.passed {g : Poll} {items : List RawItem} {link : String}
    (hf : Feed cfg links s g items link n m) (hedited : EditedIn s.log n m id)
    (hthere : s.cursor cfg = none → stateAt s.log m id ≠ none)
    (hstored : Stored cfg (stateAt s.log m id)) (hpast : ¬ EditedIn s.log m s.log.length id)
    (hlast : LastSucceeds cfg s.db.chunks id (g.reports items)) :
    Shown cfg (itemsTable cfg s.db.chunks (g.reports items)) id (stateAt s.log m id) := by
  have hsame : ∀ t, m ≤ t → t ≤ s.log.length → stateAt s.log t id = stateAt s.log m id := by
    intro t hmt ht
    apply stateAt_eq hmt
    intro hed
    exact hpast (hed.mono (Nat.le_refl m) ht)
  obtain ⟨before, item, after, rfl, rfl, hnone⟩ := exists_last (hf.complete id hedited hthere)
  have holdest : oldest n m item.id (after.map RawItem.id) = m := by
    apply if_neg
    intro hmem
    obtain ⟨item', hitem', hid⟩ := List.mem_map.mp hmem
    exact hnone item' hitem' hid
  cases hchange : changeOf item with
  | none =>
      -- only a folder is not reported, and none is stored
      obtain ⟨t, ht, htn, hdepicts⟩ := hf.depicted before item after rfl
      rw [holdest] at ht
      rw [hsame t ht htn] at hdepicts
      cases hentry : stateAt s.log m item.id with
      | none =>
          rw [hentry] at hdepicts
          have hdel : item.deleted = true := hdepicts
          simp [changeOf, hdel] at hchange
      | some entry =>
          rw [hentry] at hdepicts
          cases entry with
          | folder name =>
              rw [hentry] at hstored
              exact hstored.elim
          | file name content =>
              obtain ⟨hdel, hfile, -⟩ := hdepicts
              simp [changeOf, hdel, hfile] at hchange
  | some change =>
      have hof := hf.reportOf hchange (Nat.le_of_eq holdest.symm) hsame
      obtain ⟨later, hsplit, hlater⟩ :=
        @reports_split g before after item change hchange
      have hid : (g.report before change).1.remoteId = item.id := changeOf_id hchange
      have hother : ∀ y ∈ later, y.1.remoteId ≠ item.id := by
        intro y hy
        obtain ⟨item', hitem', heq⟩ := hlater y hy
        rw [heq]
        exact hnone item' hitem'
      have hshown := itemsTable_last hof hstored (hlast _ _ _ hsplit hid hother) (by rwa [hid])
      rw [hid] at hshown
      rw [hsplit]
      exact hshown

/-- A cycle of another connector leaves this one's link alone. -/
theorem other_cursor {connectorId : String} (hne : connectorId ≠ cfg.connectorId) (db : Db)
    (a : Cycle) :
    (runCycle (cfg.at connectorId) db a).2.cursors cfg.connectorId = db.cursors cfg.connectorId := by
  have hid : (cfg.at connectorId).connectorId = connectorId := rfl
  have hsaved : ∀ token, saveCursor db.cursors connectorId token cfg.connectorId
      = db.cursors cfg.connectorId := by
    intro token
    exact if_neg fun h => hne h.symm
  unfold runCycle
  by_cases hload : a.loadFails
  · simp [hload]
  · simp only [hload, if_false, Bool.false_eq_true, hid]
    cases a.listChanges (db.cursors connectorId) with
    | error e => rfl
    | ok delta =>
        dsimp only
        cases delta.nextCursor with
        | none => rfl
        | some token => cases a.save <;> simp [hsaved]

theorem StandsAt.eq (hlinks : Function.Injective links) {cursor : Option String}
    (hn : StandsAt links n cursor) (hm : StandsAt links m cursor) : n = m := by
  cases cursor with
  | none =>
      have hn' : n = 0 := hn
      have hm' : m = 0 := hm
      rw [hn', hm']
  | some link =>
      have hn' : link = links n := hn
      have hm' : link = links m := hm
      exact hlinks (hn'.symm.trans hm')

/-- A step that changes neither the log nor the saved link nor the item's rows. -/
theorem Follows.frame {saved : Prop} (h : Follows cfg links id saved s) (hlog : s'.log = s.log)
    (hcursor : s'.cursor cfg = s.cursor cfg)
    (hrows : rowsOf s'.db.chunks id = rowsOf s.db.chunks id) : Follows cfg links id saved s' := by
  obtain ⟨hsaved, n, hn, hle, htracks⟩ := h
  unfold Follows
  rw [hlog, hcursor]
  refine ⟨hsaved, n, hn, hle, ?_⟩
  rcases htracks with hed | hshown
  · exact Or.inl hed
  · exact Or.inr fun hsome => (hshown hsome).of_rowsOf hrows

/-- **A poll.** -/
theorem Follows.poll {saved : Prop} {g : Poll} {cached : Option CachedToken} {db : Db}
    {result : Except CycleError Nat} (h : Follows cfg links id saved s)
    (htruthful : Truthful cfg links s (.poll g)) (hkeeps : Keeps cfg links id s (.poll g))
    (hpoll : runPoll cfg s.cached s.db g = some (cached, result, db)) :
    Follows cfg links id saved { s with cached := cached, db := db } := by
  rcases runPoll_cases hpoll with rfl | ⟨pages, link, hlists, rfl⟩
  · exact h.frame rfl rfl rfl
  obtain ⟨hsaved, n, hn, hle, htracks⟩ := h
  obtain ⟨m, hf⟩ := htruthful n pages link hn hlists
  have hquiet : ∀ entry, (∀ t, n ≤ t → t ≤ s.log.length → stateAt s.log t id = entry) →
      ((saved ∨ entry ≠ none) ∧ Stored cfg entry → Shown cfg s.db.chunks id entry) →
      ((saved ∨ entry ≠ none) ∧ Stored cfg entry →
        Shown cfg (itemsTable cfg s.db.chunks (g.reports (itemsOf pages))) id entry) :=
    fun entry hsame hshown hsome => hf.quiet hsame (hshown hsome) (List.Subset.refl _)
  by_cases hfails : g.save = .failed
  · -- the link stays, and so does every edit that is ahead of it
    simp only [hfails, if_true]
    refine ⟨hsaved, n, hn, hle, htracks.advance (Nat.le_refl n) hquiet ?_⟩
    rintro ⟨i, hin, hni, -⟩
    omega
  · simp only [hfails, if_false]
    have hcursor : saveCursor s.db.cursors cfg.connectorId link cfg.connectorId = some link :=
      if_pos rfl
    refine ⟨?_, m, ?_, hf.le_length, htracks.advance hf.le hquiet ?_⟩
    · intro _ hnone
      exact absurd (hcursor.symm.trans hnone) (by simp)
    · show StandsAt links m (saveCursor s.db.cursors cfg.connectorId link cfg.connectorId)
      rw [hcursor]
      exact hf.link_eq
    · rintro hedited hpast ⟨hsome, hstored⟩
      have hthere : s.cursor cfg = none → stateAt s.log m id ≠ none := by
        intro hnone
        rcases hsome with hs | hne
        · exact absurd hnone (hsaved hs)
        · exact hne
      rw [hf.link_eq] at hlists
      exact hf.passed hedited hthere hstored hpast (hkeeps n m pages hn hlists hfails hedited hpast)

/-- **A poll that is killed.** The link stays, and so does every edit that is ahead of it. -/
theorem Follows.killed {saved : Prop} {g : Poll} {done : Nat} {db : Db}
    (h : Follows cfg links id saved s) (htruthful : Truthful cfg links s (.killed g done))
    (hkilled : killedPoll cfg s.cached s.db g done = some db) :
    Follows cfg links id saved { s with cached := none, db := db } := by
  rcases killedPoll_cases hkilled with rfl | ⟨pages, link, hlists, rfl⟩
  · exact h.frame rfl rfl rfl
  obtain ⟨hsaved, n, hn, hle, htracks⟩ := h
  obtain ⟨m, hf⟩ := htruthful n pages link hn hlists
  refine ⟨hsaved, n, hn, hle, htracks.advance (Nat.le_refl n) ?_ ?_⟩
  · intro entry hsame hshown hsome
    exact hf.quiet hsame (hshown hsome) (List.take_subset done _)
  · rintro ⟨i, hin, hni, -⟩
    omega

/-- **One step.** -/
theorem Follows.step {saved : Prop} {a : DriveAction} (h : Follows cfg links id saved s)
    (htruthful : Truthful cfg links s a) (hkeeps : Keeps cfg links id s a)
    (hst : (drive cfg).step s a = some s') : Follows cfg links id saved s' := by
  cases a with
  | edit id' entry =>
      cases hst
      obtain ⟨hsaved, n, hn, hle, htracks⟩ := h
      exact ⟨hsaved, n, hn, by simpa using Nat.le_succ_of_le hle, htracks.push hle _⟩
  | poll g =>
      obtain ⟨⟨cached, result, db⟩, hpoll, rfl⟩ := Option.map_eq_some_iff.mp hst
      exact h.poll htruthful hkeeps hpoll
  | killed g done =>
      obtain ⟨db, hkilled, rfl⟩ := Option.map_eq_some_iff.mp hst
      exact h.killed htruthful hkilled
  | other connectorId a =>
      have hst' : (if connectorId = cfg.connectorId then none
          else some { s with db := (runCycle (cfg.at connectorId) s.db a).2 }) = some s' := hst
      split_ifs at hst' with hne
      cases hst'
      refine h.frame ?_ ?_ ?_
      · rfl
      · exact other_cursor hne s.db a
      · show rowsOf (runCycle (cfg.at connectorId) s.db a).2.chunks id = _
        rw [(runCycle_db (cfg.at connectorId) s.db a).1]
        exact itemsTable_other hkeeps

/-- Where the saved link stands, whatever fails. -/
def Placed (cfg : Config) (links : Nat → String) (s : DriveState) : Prop :=
  ∃ n, StandsAt links n (s.cursor cfg) ∧ n ≤ s.log.length

theorem Placed.step {a : DriveAction} (h : Placed cfg links s) (htruthful : Truthful cfg links s a)
    (hst : (drive cfg).step s a = some s') : Placed cfg links s' := by
  obtain ⟨n, hn, hle⟩ := h
  cases a with
  | edit id' entry =>
      cases hst
      exact ⟨n, hn, by simpa using Nat.le_succ_of_le hle⟩
  | poll g =>
      obtain ⟨⟨cached, result, db⟩, hpoll, rfl⟩ := Option.map_eq_some_iff.mp hst
      rcases runPoll_cases hpoll with rfl | ⟨pages, link, hlists, rfl⟩
      · exact ⟨n, hn, hle⟩
      · obtain ⟨m, hf⟩ := htruthful n pages link hn hlists
        by_cases hfails : g.save = .failed
        · simp only [hfails, if_true]
          exact ⟨n, hn, hle⟩
        · simp only [hfails, if_false]
          refine ⟨m, ?_, hf.le_length⟩
          show StandsAt links m (saveCursor s.db.cursors cfg.connectorId link cfg.connectorId)
          rw [show saveCursor s.db.cursors cfg.connectorId link cfg.connectorId = some link from
            if_pos rfl]
          exact hf.link_eq
  | killed g done =>
      obtain ⟨db, hkilled, rfl⟩ := Option.map_eq_some_iff.mp hst
      rcases killedPoll_cases hkilled with rfl | ⟨pages, link, -, rfl⟩
      · exact ⟨n, hn, hle⟩
      · exact ⟨n, hn, hle⟩
  | other connectorId a =>
      have hst' : (if connectorId = cfg.connectorId then none
          else some { s with db := (runCycle (cfg.at connectorId) s.db a).2 }) = some s' := hst
      split_ifs at hst' with hne
      cases hst'
      refine ⟨n, ?_, hle⟩
      show StandsAt links n ((runCycle (cfg.at connectorId) s.db a).2.cursors cfg.connectorId)
      rw [other_cursor hne]
      exact hn

end Step

/-! ## The run -/

/-- Links of growing length. -/
def sampleLinks (n : Nat) : String := String.ofList (List.replicate n 'x')

theorem singleton_split {α : Type*} {a b : α} {before after : List α}
    (h : [a] = before ++ b :: after) : before = [] ∧ b = a ∧ after = [] := by
  cases before with
  | nil =>
      cases h
      exact ⟨rfl, rfl, rfl⟩
  | cons c before => simp at h

def sampleFile : RawItem := ⟨"item-1", some "a.txt", true, false, some "https://cdn/a"⟩

/-- One page with the document. -/
def samplePage : DeltaPage := ⟨[sampleFile], none, some (sampleLinks 1)⟩

/-- The document is on the drive, and nothing has been polled. -/
def sampleDrive : DriveState :=
  ⟨[("item-1", some (.file "a.txt" (asBytes "hello")))], none, ⟨[], fun _ => none⟩⟩

theorem sample_stored : Stored sampleConfig (some (.file "a.txt" (asBytes "hello"))) := by
  have hchunks : some (chunk (extractText sampleConfig.unicode (asBytes "hello") "a.txt"))
      = some ["hello"] := sample_expected
  show chunk (extractText sampleConfig.unicode (asBytes "hello") "a.txt") ≠ []
  rw [Option.some.inj hchunks]
  exact List.cons_ne_nil _ _

end McpGateway.Graph
