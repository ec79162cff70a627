import Mathlib.Order.Monotone.Basic
import McpGateway.Foundation.Transition
import McpGateway.Zoho.CursorJson

/-! # The watermark

The daemon calls `list_changes` again and again, and time goes by during the calls and between them.
A moment is a number; both clocks show something at every moment. A call reads the daemon's clock
when it begins. When it fails, or when its result is not saved, the next call has the same cursor.

* `WindowInv` — the watermark was read before the listings of the run before, and the start of the
  run before its own listings.
* `no_gap` — the windows of consecutive runs overlap. -/

namespace McpGateway.Zoho

open Foundation Ingestion

/-- A page that was listed, in which run, by a call that began when: not part of the program. -/
structure Request where
  page : FolderPage
  run : Nat
  began : Nat

structure Call where
  began : Nat
  server : Server

/-- The daemon between and during its calls. `run` counts how often the queue was drained; it and
`requests` are not part of the program. -/
structure Daemon where
  time : Nat
  cursor : Option String
  inFlight : Option Call
  run : Nat
  requests : List Request

inductive DaemonAction where
  | tick
  | begin (server : Server)
  | finish (fuel : Nat)
  | fail

/-- The result is saved. -/
def Daemon.save (s : Daemon) (call : Call) (listing : Listing) : Daemon where
  time := s.time
  cursor := listing.delta.nextCursor
  inFlight := none
  run := if listing.pages.isEmpty then s.run + 1 else s.run
  requests := s.requests ++ listing.pages.map (⟨·, s.run, call.began⟩)

section System

variable (json : CursorJson) (rootId : String) (daemonClock : Nat → Nat)

def Daemon.step (s : Daemon) : DaemonAction → Option Daemon
  | .tick => some { s with time := s.time + 1 }
  | .begin server =>
      match s.inFlight with
      | some _ => none
      | none => some { s with inFlight := some ⟨s.time, server⟩ }
  | .finish fuel =>
      match s.inFlight with
      | none => none
      | some call =>
          match listChanges json rootId (daemonClock call.began) call.server fuel s.cursor with
          | none => none
          | some (.error _) => some { s with inFlight := none }
          | some (.ok listing) => some (s.save call listing)
  | .fail => some { s with inFlight := none }

def daemonSystem : System Daemon DaemonAction where
  init s := s.cursor = none ∧ s.inFlight = none ∧ s.run = 0 ∧ s.requests = []
  step := Daemon.step json rootId daemonClock

/-- The watermark of the saved cursor. -/
def Daemon.watermark (s : Daemon) : Int :=
  match s.cursor with
  | none => 0
  | some c => ((json.fromJson c).map ZohoCursor.watermarkMs).getD 0

/-- The state of a call that begins at `moment`. -/
def Daemon.Loads (s : Daemon) (moment : Nat) (state : ZohoCursor) : Prop :=
  loadState json rootId (daemonClock moment) s.cursor = some state

/-- What holds of the saved cursor and the listings so far. -/
structure WindowInv (s : Daemon) : Prop where
  call_le : ∀ call ∈ s.inFlight, call.began ≤ s.time
  run_le : ∀ r ∈ s.requests, r.run ≤ s.run
  watermark_le : ∀ moment state, s.Loads json rootId daemonClock moment state →
    0 ≤ state.watermarkMs ∧ state.watermarkMs ≤ state.runStartedMs
  started : ∀ state, s.Loads json rootId daemonClock s.time state →
    state.runStartedMs ≤ daemonClock s.time
  started_call : ∀ call ∈ s.inFlight, ∀ state, s.Loads json rootId daemonClock call.began state →
    state.runStartedMs ≤ daemonClock call.began
  this_run : ∀ moment state, s.Loads json rootId daemonClock moment state →
    ∀ r ∈ s.requests, r.run = s.run → state.runStartedMs ≤ daemonClock r.began
  last_run : ∀ moment state, s.Loads json rootId daemonClock moment state →
    ∀ r ∈ s.requests, r.run + 1 = s.run → state.watermarkMs ≤ daemonClock r.began
  window : ∀ r₁ ∈ s.requests, ∀ r₂ ∈ s.requests, r₂.run = r₁.run + 1 →
    r₂.page.fromMs ≤ max ((daemonClock r₁.began : Int) - watermarkOverlapMs) 0

end System

variable {json : CursorJson} {rootId : String} {daemonClock : Nat → Nat} {s s' : Daemon}

theorem WindowInv.init (h : (daemonSystem json rootId daemonClock).init s) :
    WindowInv json rootId daemonClock s := by
  obtain ⟨hcursor, hflight, hrun, hrequests⟩ := h
  have hload : ∀ moment state, s.Loads json rootId daemonClock moment state →
      state = .bootstrap rootId (daemonClock moment) := by
    intro moment state hstate
    rw [Daemon.Loads, hcursor] at hstate
    exact (Option.some.inj hstate).symm
  constructor
  case call_le => simp [hflight]
  case run_le => simp [hrequests]
  case watermark_le =>
    rintro moment state hstate
    rw [hload moment state hstate]
    exact ⟨Int.le_refl 0, Int.natCast_nonneg _⟩
  case started =>
    rintro state hstate
    rw [hload _ state hstate]
    exact Int.le_refl _
  case started_call => simp [hflight]
  case this_run => simp [hrequests]
  case last_run => simp [hrequests]
  case window => simp [hrequests]

/-- The run did not start later than a call that begins later. -/
theorem WindowInv.started_later (h : WindowInv json rootId daemonClock s) (hmono : Monotone daemonClock)
    {moment : Nat} (hle : s.time ≤ moment) {state : ZohoCursor}
    (hstate : s.Loads json rootId daemonClock moment state) :
    state.runStartedMs ≤ daemonClock moment := by
  unfold Daemon.Loads at hstate
  cases hcursor : s.cursor with
  | none =>
      rw [hcursor] at hstate
      cases hstate
      exact Int.le_refl _
  | some c =>
      have hnow : s.Loads json rootId daemonClock s.time state := by
        rw [hcursor] at hstate
        rw [Daemon.Loads, hcursor]
        exact hstate
      have := h.started state hnow
      have := hmono hle
      omega

theorem WindowInv.tick (h : WindowInv json rootId daemonClock s) (hmono : Monotone daemonClock) :
    WindowInv json rootId daemonClock { s with time := s.time + 1 } where
  call_le call hcall := Nat.le_succ_of_le (h.call_le call hcall)
  run_le := h.run_le
  watermark_le := h.watermark_le
  started _ hstate := h.started_later hmono (Nat.le_succ _) hstate
  started_call := h.started_call
  this_run := h.this_run
  last_run := h.last_run
  window := h.window

theorem WindowInv.begin (h : WindowInv json rootId daemonClock s) (server : Server) :
    WindowInv json rootId daemonClock { s with inFlight := some ⟨s.time, server⟩ } where
  call_le := by
    rintro call hcall
    cases hcall
    exact Nat.le_refl _
  run_le := h.run_le
  watermark_le := h.watermark_le
  started := h.started
  started_call := by
    rintro call hcall state hstate
    cases hcall
    exact h.started state hstate
  this_run := h.this_run
  last_run := h.last_run
  window := h.window

/-- The call leaves nothing behind. -/
theorem WindowInv.fail (h : WindowInv json rootId daemonClock s) :
    WindowInv json rootId daemonClock { s with inFlight := none } where
  call_le := by simp
  run_le := h.run_le
  watermark_le := h.watermark_le
  started := h.started
  started_call := by simp
  this_run := h.this_run
  last_run := h.last_run
  window := h.window

/-- The saved cursor is what the next call loads, whenever it begins. -/
theorem loads_saved {call : Call} {listing : Listing} {saved : ZohoCursor}
    (hnext : listing.delta.nextCursor = some (json.toJson saved)) {moment : Nat} {state : ZohoCursor}
    (hstate : (s.save call listing).Loads json rootId daemonClock moment state) : state = saved := by
  have hload : (s.save call listing).cursor = some (json.toJson saved) := hnext
  rw [Daemon.Loads, hload] at hstate
  exact Option.some.inj (hstate.symm.trans (json.fromJson_toJson saved))

/-- **The queue is drained.** The start of the run becomes the watermark. -/
theorem WindowInv.drained (h : WindowInv json rootId daemonClock s) (hmono : Monotone daemonClock)
    {call : Call} (hcall : s.inFlight = some call) {state : ZohoCursor}
    (hload : s.Loads json rootId daemonClock call.began state) :
    WindowInv json rootId daemonClock (s.save call
      ⟨⟨some (json.toJson (state.restart (daemonClock call.began))), [], false⟩, []⟩) := by
  have hstarted := h.started_call call hcall state hload
  have hwatermark := h.watermark_le _ state hload
  have hclock := hmono (h.call_le call hcall)
  constructor
  case call_le => simp [Daemon.save]
  case run_le =>
    intro r hr
    have := h.run_le r (by simpa [Daemon.save] using hr)
    exact Nat.le_succ_of_le this
  case watermark_le =>
    intro moment saved hsaved
    obtain rfl := loads_saved rfl hsaved
    exact ⟨Int.le_trans hwatermark.1 hwatermark.2, hstarted⟩
  case started =>
    intro saved hsaved
    obtain rfl := loads_saved rfl hsaved
    exact Int.ofNat_le.mpr hclock
  case started_call => simp [Daemon.save]
  -- nothing has been reported by the run that begins
  case this_run =>
    intro moment saved hsaved r hr hrun
    have := h.run_le r (by simpa [Daemon.save] using hr)
    have : (s.save call ⟨⟨some (json.toJson (state.restart (daemonClock call.began))), [], false⟩,
        []⟩).run = s.run + 1 := rfl
    omega
  case last_run =>
    intro moment saved hsaved r hr hrun
    obtain rfl := loads_saved rfl hsaved
    exact h.this_run _ state hload r (by simpa [Daemon.save] using hr) (Nat.succ.inj hrun)
  case window =>
    intro r₁ hr₁ r₂ hr₂
    exact h.window r₁ (by simpa [Daemon.save] using hr₁) r₂ (by simpa [Daemon.save] using hr₂)

/-- **A folder is listed.** -/
theorem WindowInv.listed (h : WindowInv json rootId daemonClock s) (hmono : Monotone daemonClock)
    {call : Call} (hcall : s.inFlight = some call) {state saved : ZohoCursor}
    (hload : s.Loads json rootId daemonClock call.began state) {listing : Listing}
    (hnext : listing.delta.nextCursor = some (json.toJson saved))
    (hwatermark : saved.watermarkMs = state.watermarkMs)
    (hstart : saved.runStartedMs = state.runStartedMs) (hpages : listing.pages ≠ [])
    (hfrom : ∀ p ∈ listing.pages, p.fromMs = state.fromMs) :
    WindowInv json rootId daemonClock (s.save call listing) := by
  have hstarted := h.started_call call hcall state hload
  have hwindow := h.watermark_le _ state hload
  have hclock := hmono (h.call_le call hcall)
  have hrun : (s.save call listing).run = s.run := by simp [Daemon.save, hpages]
  -- a request is an old one, or one of this call
  have hrequest : ∀ r ∈ (s.save call listing).requests, r ∈ s.requests ∨
      r.run = s.run ∧ r.began = call.began ∧ r.page.fromMs = state.fromMs := by
    intro r hr
    rcases List.mem_append.mp hr with hr | hr
    · exact .inl hr
    · obtain ⟨p, hp, rfl⟩ := List.mem_map.mp hr
      exact .inr ⟨rfl, rfl, hfrom p hp⟩
  constructor
  case call_le => simp [Daemon.save]
  case run_le =>
    intro r hr
    rw [hrun]
    rcases hrequest r hr with hold | ⟨hnew, -, -⟩
    · exact h.run_le r hold
    · omega
  case watermark_le =>
    intro moment st hst
    obtain rfl := loads_saved hnext hst
    rwa [hwatermark, hstart]
  case started =>
    intro st hst
    obtain rfl := loads_saved hnext hst
    rw [hstart]
    exact Int.le_trans hstarted (Int.ofNat_le.mpr hclock)
  case started_call => simp [Daemon.save]
  case this_run =>
    intro moment st hst r hr hr_run
    obtain rfl := loads_saved hnext hst
    rw [hstart]
    rcases hrequest r hr with hold | ⟨-, hbegan, -⟩
    · exact h.this_run _ state hload r hold (hr_run.trans hrun)
    · rwa [hbegan]
  case last_run =>
    intro moment st hst r hr hr_run
    obtain rfl := loads_saved hnext hst
    rw [hwatermark]
    rcases hrequest r hr with hold | ⟨hnew, -, -⟩
    · exact h.last_run _ state hload r hold (hr_run.trans hrun)
    · omega
  case window =>
    intro r₁ hr₁ r₂ hr₂ hruns
    rcases hrequest r₁ hr₁ with hold₁ | ⟨hnew₁, -, -⟩
    · rcases hrequest r₂ hr₂ with hold₂ | ⟨hnew₂, -, hfrom₂⟩
      · exact h.window r₁ hold₁ r₂ hold₂ hruns
      · have hlast := h.last_run _ state hload r₁ hold₁ (hruns.symm.trans hnew₂)
        rw [hfrom₂, ZohoCursor.fromMs]
        omega
    · have : r₂.run ≤ s.run := by
        rcases hrequest r₂ hr₂ with hold₂ | ⟨hnew₂, -, -⟩
        · exact h.run_le r₂ hold₂
        · omega
      omega

/-- What finishing a call does, whichever way it ends. -/
theorem finish_cases {fuel : Nat} (hstep : s.step json rootId daemonClock (.finish fuel) = some s') :
    s' = { s with inFlight := none } ∨
    ∃ call listing, s.inFlight = some call ∧ s' = s.save call listing ∧
      listChanges json rootId (daemonClock call.began) call.server fuel s.cursor =
        some (.ok listing) := by
  simp only [Daemon.step] at hstep
  cases hcall : s.inFlight with
  | none =>
      rw [hcall] at hstep
      cases hstep
  | some call =>
      rw [hcall] at hstep
      dsimp only at hstep
      cases hresult : listChanges json rootId (daemonClock call.began) call.server fuel s.cursor with
      | none =>
          rw [hresult] at hstep
          cases hstep
      | some result =>
          rw [hresult] at hstep
          cases result with
          | error e =>
              cases hstep
              exact .inl rfl
          | ok listing =>
              cases hstep
              exact .inr ⟨call, listing, rfl, rfl, hresult⟩

/-- **One step.** -/
theorem WindowInv.step (hmono : Monotone daemonClock) (h : WindowInv json rootId daemonClock s)
    {a : DaemonAction} (hstep : s.step json rootId daemonClock a = some s') :
    WindowInv json rootId daemonClock s' := by
  cases a with
  | tick =>
      cases hstep
      exact h.tick hmono
  | begin server =>
      simp only [Daemon.step] at hstep
      split at hstep
      · cases hstep
      · cases hstep
        exact h.begin server
  | fail =>
      cases hstep
      exact h.fail
  | finish fuel =>
      rcases finish_cases hstep with rfl | ⟨call, listing, hcall, rfl, hlist⟩
      · exact h.fail
      obtain ⟨state, hload, hdone | hfolder⟩ := listChanges_ok hlist
      · obtain ⟨-, rfl⟩ := hdone
        exact h.drained hmono hcall hload
      · obtain ⟨folder, queue, pages, new, -, hpages, -, rfl⟩ := hfolder
        refine h.listed hmono hcall hload rfl rfl rfl (pageLog_ne_nil hpages.ne_nil) ?_
        exact fun p hp => (pageLog_mem _ _ _ _ p hp).2

/-- **Every run.** -/
theorem windowInv_reachable (hmono : Monotone daemonClock)
    (h : (daemonSystem json rootId daemonClock).Reachable s) : WindowInv json rootId daemonClock s :=
  h.invariant (P := WindowInv json rootId daemonClock) (fun _ => WindowInv.init)
    (fun _ _ _ hs hst => hs.step hmono hst)

/-- The watermark of the saved cursor is that of the state a call loads. -/
theorem watermark_loads {moment : Nat} {state : ZohoCursor}
    (h : s.Loads json rootId daemonClock moment state) : s.watermark json = state.watermarkMs := by
  unfold Daemon.Loads at h
  unfold Daemon.watermark
  cases hcursor : s.cursor with
  | none =>
      rw [hcursor] at h
      cases h
      rfl
  | some c =>
      rw [hcursor] at h
      have hread : json.fromJson c = some state := h
      simp [hread]

theorem watermark_saved {call : Call} {listing : Listing} {saved : ZohoCursor}
    (hnext : listing.delta.nextCursor = some (json.toJson saved)) :
    (s.save call listing).watermark json = saved.watermarkMs := by
  have hload : (s.save call listing).cursor = some (json.toJson saved) := hnext
  simp [Daemon.watermark, hload, json.fromJson_toJson]

/-- The watermark only moves when the queue is drained, and then forward. -/
theorem watermark_step (h : WindowInv json rootId daemonClock s) {a : DaemonAction}
    (hstep : s.step json rootId daemonClock a = some s') :
    s.watermark json ≤ s'.watermark json := by
  cases a with
  | tick =>
      cases hstep
      exact Int.le_refl _
  | begin server =>
      simp only [Daemon.step] at hstep
      split at hstep
      · cases hstep
      · cases hstep
        exact Int.le_refl _
  | fail =>
      cases hstep
      exact Int.le_refl _
  | finish fuel =>
      rcases finish_cases hstep with rfl | ⟨call, listing, hcall, rfl, hlist⟩
      · exact Int.le_refl _
      obtain ⟨state, hload, hdone | hfolder⟩ := listChanges_ok hlist
      · obtain ⟨-, rfl⟩ := hdone
        rw [watermark_loads hload, watermark_saved rfl]
        exact (h.watermark_le _ state hload).2
      · obtain ⟨folder, queue, pages, new, -, -, -, rfl⟩ := hfolder
        rw [watermark_loads hload, watermark_saved rfl]
        exact Int.le_refl _

/-- **No gap between the windows, and the watermark never decreases.** -/
theorem no_gap {serverClock : Nat → Nat} (hmono : Monotone daemonClock)
    (hskew : ∀ moment, daemonClock moment ≤ serverClock moment + 60000 ∧
      serverClock moment ≤ daemonClock moment + 60000)
    (h : (daemonSystem json rootId daemonClock).Reachable s) :
    (∀ r₁ ∈ s.requests, ∀ r₂ ∈ s.requests, r₁.page.folderId = r₂.page.folderId →
      r₂.run = r₁.run + 1 →
      ∀ moment, r₁.began ≤ moment → r₂.page.fromMs ≤ serverClock moment) ∧
    ∀ as s', (daemonSystem json rootId daemonClock).Steps System.anyStep s as s' →
      s.watermark json ≤ s'.watermark json := by
  have hinv := windowInv_reachable hmono h
  constructor
  · intro r₁ hr₁ r₂ hr₂ _ hruns moment hmoment
    have hwindow := hinv.window r₁ hr₁ r₂ hr₂ hruns
    have hclock := hmono hmoment
    have hserver := (hskew moment).1
    have hoverlap : watermarkOverlapMs = 60000 := rfl
    omega
  · intro as s' hrun
    refine (hrun.preserves (P := fun t => WindowInv json rootId daemonClock t ∧
      s.watermark json ≤ t.watermark json) ?_ ⟨hinv, Int.le_refl _⟩).2
    rintro t a t' ⟨ht, hle⟩ - hst
    exact ⟨ht.step hmono hst, Int.le_trans hle (watermark_step ht hst)⟩

/-- A server whose folders are empty. -/
def emptyServer : Server := fun _ _ _ _ => .response 200 none (.ok (none, none))

/-- The root is listed, the queue is drained, and the root is listed again. -/
theorem root_listed_twice (json : CursorJson) :
    ∃ s, (daemonSystem json "r" (· + 100000)).run ⟨0, none, none, 0, []⟩ [
        .begin emptyServer, .tick, .finish 1, .begin emptyServer, .tick, .finish 1,
        .begin emptyServer, .tick, .finish 1] = some s ∧
      s.requests = [⟨⟨"r", 0, 0, [], false⟩, 0, 0⟩, ⟨⟨"r", 0, 40000, [], false⟩, 1, 2⟩] := by
  simp [System.run, daemonSystem, Daemon.step, listChanges, loadState, json.fromJson_toJson,
    Daemon.save, listPages, listFolderPage, emptyServer, ZohoCursor.bootstrap, ListState.finish,
    ListState.addPage, ZohoCursor.restart, ZohoCursor.fromMs, watermarkOverlapMs, Except.map]

theorem windows_overlap :
    ∃ s r₁ r₂, (daemonSystem compactJson "r" (· + 100000)).Reachable s ∧
      r₁ ∈ s.requests ∧ r₂ ∈ s.requests ∧ r₂.run = r₁.run + 1 ∧
      ∀ moment, r₁.began ≤ moment → r₂.page.fromMs ≤ (moment + 41000 : Nat) := by
  obtain ⟨s, hrun, hrequests⟩ := root_listed_twice compactJson
  have hreach : (daemonSystem compactJson "r" (· + 100000)).Reachable s :=
    ⟨_, _, ⟨rfl, rfl, rfl, rfl⟩, System.steps_of_run hrun⟩
  have hmono : Monotone fun moment : Nat => moment + 100000 := fun _ _ h => Nat.add_le_add_right h _
  have hskew : ∀ moment : Nat, moment + 100000 ≤ moment + 41000 + 60000 ∧
      moment + 41000 ≤ moment + 100000 + 60000 := by
    intro moment
    omega
  have hgap := (no_gap hmono hskew hreach).1
  rw [hrequests] at hgap
  exact ⟨s, _, _, hreach, by rw [hrequests]; exact List.mem_cons_self,
    by rw [hrequests]; exact List.mem_cons_of_mem _ List.mem_cons_self, rfl,
    hgap _ List.mem_cons_self _ (List.mem_cons_of_mem _ List.mem_cons_self) rfl rfl⟩

end McpGateway.Zoho
