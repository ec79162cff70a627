import Mathlib.Data.List.Dedup
import Mathlib.Data.List.Induction
import Mathlib.Data.List.Perm.Subperm
import McpGateway.Gateway.RateLimit

/-! # The rate limiter, one request after another

Requests that enter in the order of their timestamps, beside a cache that drops the deque of an
address when nobody has looked it up for two minutes, or when there are too many of them.

* `decisions_exact` — the filter refines a limiter that knows every earlier decision (`Exact`).
* `sliding_window_exact` — so a request is admitted exactly when there is room among the admitted
  requests of its address in its window; rejected requests, other addresses and dropped deques do
  not matter. -/

namespace McpGateway.Gateway

open Foundation

/-! ## The cache -/

/-- `expireAfterAccess(2, TimeUnit.MINUTES)`, in milliseconds. -/
def expireAfterAccess : Int := 120000

/-- `maximumSize(10_000)` -/
def maximumSize : Nat := 10000

/-- The deque of an address, and when it was last looked up. -/
structure WindowEntry where
  ip : String
  times : List Int
  lastAccess : Int
  deriving DecidableEq, Repr

/-- `requestLog`: one entry for an address. -/
structure RequestLog where
  entries : List WindowEntry
  ips_nodup : (entries.map WindowEntry.ip).Nodup

namespace RequestLog

def empty : RequestLog := ⟨[], List.nodup_nil⟩

def find (log : RequestLog) (ip : String) : Option WindowEntry :=
  log.entries.find? fun e => e.ip = ip

/-- `requestLog.get(ip, k -> new ArrayDeque<>())` -/
def times (log : RequestLog) (ip : String) : List Int :=
  match log.find ip with
  | some e => e.times
  | none => []

theorem remove_nodup (log : RequestLog) (ip : String) :
    ((log.entries.filter fun e => e.ip ≠ ip).map WindowEntry.ip).Nodup :=
  log.ips_nodup.sublist (List.filter_sublist.map _)

def remove (log : RequestLog) (ip : String) : RequestLog :=
  ⟨log.entries.filter fun e => e.ip ≠ ip, log.remove_nodup ip⟩

theorem put_nodup (log : RequestLog) (e : WindowEntry) :
    ((e :: (log.remove e.ip).entries).map WindowEntry.ip).Nodup := by
  rw [List.map_cons, List.nodup_cons]
  refine ⟨?_, log.remove_nodup e.ip⟩
  intro hmem
  obtain ⟨e', he', hip⟩ := List.mem_map.mp hmem
  have hne := (List.mem_filter.mp he').2
  simp [hip] at hne

def put (log : RequestLog) (e : WindowEntry) : RequestLog :=
  ⟨e :: (log.remove e.ip).entries, log.put_nodup e⟩

variable {log : RequestLog} {ip : String}

theorem find_put_self (log : RequestLog) (e : WindowEntry) : (log.put e).find e.ip = some e := by
  simp [find, put]

theorem find_remove_self (log : RequestLog) (ip : String) : (log.remove ip).find ip = none := by
  simp [find, remove]

theorem find_remove_of_ne {ip' : String} (h : ip ≠ ip') : (log.remove ip').find ip = log.find ip := by
  unfold find remove
  rw [List.find?_filter]
  apply congrArg (List.find? · log.entries)
  funext e
  by_cases hip : e.ip = ip
  · simp [hip, h]
  · simp [hip]

theorem find_put_of_ne {e : WindowEntry} (h : ip ≠ e.ip) : (log.put e).find ip = log.find ip := by
  have hremove : (log.remove e.ip).find ip = log.find ip := find_remove_of_ne h
  rw [← hremove]
  unfold find put
  rw [List.find?_cons_of_neg (by simpa using fun h' => h h'.symm)]

theorem times_of_find {e : WindowEntry} (h : log.find ip = some e) : log.times ip = e.times := by
  unfold times
  rw [h]

theorem times_of_none (h : log.find ip = none) : log.times ip = [] := by
  unfold times
  rw [h]

/-- The addresses of a cache that has only these. -/
theorem size_le {ips : List String} (h : ∀ e ∈ log.entries, e.ip ∈ ips) :
    log.entries.length ≤ ips.length := by
  have hsub : log.entries.map WindowEntry.ip ⊆ ips := by
    intro ip hip
    obtain ⟨e, he, rfl⟩ := List.mem_map.mp hip
    exact h e he
  have hlen := (log.ips_nodup.subperm hsub).length_le
  rwa [List.length_map] at hlen

end RequestLog

/-! ## The filter -/

/-- What the filter decided about a request. -/
structure Decision where
  ip : String
  time : Int
  outcome : FilterOutcome
  deriving DecidableEq, Repr

/-- `decisions` is not part of the program: what was decided so far, in order. -/
structure SerialState where
  now : Int
  requestLog : RequestLog
  decisions : List Decision

/-- A request runs `doFilterInternal` at a time; the cache drops a deque that has expired, or one of
too many. -/
inductive SerialAction where
  | request (ip : String) (time : Int)
  | expire (ip : String) (time : Int)
  | evict (ip : String)
  deriving DecidableEq, Repr

/-- `doFilterInternal`. -/
def SerialState.request (maxRequestsPerWindow : Int) (s : SerialState) (ip : String) (time : Int) :
    SerialState :=
  let (times, outcome) := enterWindow maxRequestsPerWindow time (s.requestLog.times ip)
  { now := time
    requestLog := s.requestLog.put ⟨ip, times, time⟩
    decisions := s.decisions ++ [⟨ip, time, outcome⟩] }

def SerialState.step (maxRequestsPerWindow : Int) (s : SerialState) :
    SerialAction → Option SerialState
  | .request ip time => if time < s.now then none else some (s.request maxRequestsPerWindow ip time)
  | .expire ip time =>
      match s.requestLog.find ip with
      | none => none
      | some e =>
          if time < s.now ∨ time < e.lastAccess + expireAfterAccess then none
          else some { s with now := time, requestLog := s.requestLog.remove ip }
  | .evict ip =>
      if maximumSize < s.requestLog.entries.length then
        some { s with requestLog := s.requestLog.remove ip }
      else none

/-- The filter with its requests one after another. -/
def serialLimiter (maxRequestsPerWindow : Int) : System SerialState SerialAction where
  init s := s.requestLog.entries = [] ∧ s.decisions = []
  step := SerialState.step maxRequestsPerWindow

/-- The requests of a run. -/
def requestsOf (as : List SerialAction) : List (String × Int) :=
  as.filterMap fun
    | .request ip time => some (ip, time)
    | .expire .. => none
    | .evict _ => none

/-! ## The abstract window -/

/-- The times of the admitted requests of an address. -/
def admittedTimes (ip : String) (decisions : List Decision) : List Int :=
  (decisions.filter fun d => d.ip = ip && d.outcome = .passed).map Decision.time

/-- What a limiter decides that knows every earlier decision. -/
def windowDecision (maxRequestsPerWindow : Int) (decisions : List Decision) (request : String × Int) :
    Decision :=
  ⟨request.1, request.2,
    if ((inWindow request.2 (admittedTimes request.1 decisions)).length : Int) ≥ maxRequestsPerWindow
    then .tooManyRequests else .passed⟩

def Decision.request (d : Decision) : String × Int := (d.ip, d.time)

/-- Each decision is the one that the decisions before it ask for. -/
def Exact (maxRequestsPerWindow : Int) (decisions : List Decision) : Prop :=
  ∀ earlier d later, decisions = earlier ++ d :: later →
    d = windowDecision maxRequestsPerWindow earlier d.request

/-! ## Windows of the history -/

variable {maxRequestsPerWindow : Int} {s s' : SerialState} {ip : String}

theorem mem_inWindow {t x : Int} {times : List Int} :
    x ∈ inWindow t times ↔ x ∈ times ∧ t - windowMillis ≤ x ∧ x ≤ t := by
  simp [inWindow]

/-- In a deque in order, the front is what is too old. -/
theorem evict_eq_inWindow {t : Int} {times : List Int} (hsorted : times.Pairwise (· ≤ ·))
    (hpast : ∀ x ∈ times, x ≤ t) : evict (t - windowMillis) times = inWindow t times := by
  induction times with
  | nil => rfl
  | cons x times ih =>
      obtain ⟨hfirst, hsorted⟩ := List.pairwise_cons.mp hsorted
      have hx := hpast x List.mem_cons_self
      have hrest := ih hsorted fun y hy => hpast y (List.mem_cons_of_mem _ hy)
      unfold evict inWindow at *
      by_cases hold : x < t - windowMillis
      · rw [List.dropWhile_cons_of_pos (by simpa using hold), hrest, List.filter_cons_of_neg]
        simp only [Bool.and_eq_true, decide_eq_true_eq]
        omega
      · rw [List.dropWhile_cons_of_neg (by simpa using hold)]
        symm
        apply List.filter_eq_self.mpr
        intro y hy
        have hy' := hpast y hy
        rcases List.mem_cons.mp hy with rfl | hy
        · simp only [Bool.and_eq_true, decide_eq_true_eq]
          omega
        · have hxy := hfirst y hy
          simp only [Bool.and_eq_true, decide_eq_true_eq]
          omega

/-- A later window of what an earlier one kept. -/
theorem inWindow_inWindow {t t' : Int} {times : List Int} (hle : t ≤ t')
    (hpast : ∀ x ∈ times, x ≤ t) : inWindow t' (inWindow t times) = inWindow t' times := by
  unfold inWindow
  rw [List.filter_filter]
  apply List.filter_congr
  intro x hx
  have hxt := hpast x hx
  apply Bool.eq_iff_iff.mpr
  simp only [Bool.and_eq_true, decide_eq_true_eq]
  omega

theorem admittedTimes_append (ip : String) (ds ds' : List Decision) :
    admittedTimes ip (ds ++ ds') = admittedTimes ip ds ++ admittedTimes ip ds' := by
  simp [admittedTimes]

theorem admittedTimes_self (ip : String) (t : Int) (outcome : FilterOutcome) :
    admittedTimes ip [⟨ip, t, outcome⟩] = recorded t outcome := by
  cases outcome <;> simp [admittedTimes, recorded]

theorem admittedTimes_of_ne {d : Decision} (h : d.ip ≠ ip) : admittedTimes ip [d] = [] := by
  simp [admittedTimes, h]

theorem admittedTimes_of_rejected {d : Decision} (h : d.outcome = .tooManyRequests) (ip : String) :
    admittedTimes ip [d] = [] := by
  simp [admittedTimes, h]

theorem mem_admittedTimes {x : Int} {ds : List Decision} (h : x ∈ admittedTimes ip ds) :
    ∃ d ∈ ds, d.time = x := by
  obtain ⟨d, hd, rfl⟩ := List.mem_map.mp h
  exact ⟨d, (List.mem_filter.mp hd).1, rfl⟩

/-! ## Exact histories -/

/-- The decision depends on the admitted requests of the address alone. -/
theorem windowDecision_congr {ds ds' : List Decision} {request : String × Int}
    (h : admittedTimes request.1 ds = admittedTimes request.1 ds') :
    windowDecision maxRequestsPerWindow ds request
      = windowDecision maxRequestsPerWindow ds' request := by
  unfold windowDecision
  rw [h]

theorem exact_nil : Exact maxRequestsPerWindow [] := by
  intro earlier d later h
  simp at h

theorem exact_snoc {ds : List Decision} {d : Decision} :
    Exact maxRequestsPerWindow (ds ++ [d]) ↔
      Exact maxRequestsPerWindow ds ∧ d = windowDecision maxRequestsPerWindow ds d.request := by
  constructor
  · intro h
    refine ⟨?_, h ds d [] rfl⟩
    rintro earlier e later rfl
    exact h earlier e (later ++ [d]) (by simp)
  · rintro ⟨hds, hd⟩ earlier e later h
    rcases List.eq_nil_or_concat later with rfl | ⟨later, f, rfl⟩
    · obtain ⟨rfl, he⟩ := List.append_inj' h rfl
      cases he
      exact hd
    · rw [List.concat_eq_append, ← List.cons_append, ← List.append_assoc] at h
      exact hds earlier e later (List.append_inj' h rfl).1

/-- The requests determine an exact history. -/
theorem Exact.unique {ds ds' : List Decision} (h : Exact maxRequestsPerWindow ds)
    (h' : Exact maxRequestsPerWindow ds')
    (hreq : ds.map Decision.request = ds'.map Decision.request) : ds = ds' := by
  induction ds using List.reverseRecOn generalizing ds' with
  | nil => exact (List.map_eq_nil_iff.mp hreq.symm).symm
  | append_singleton ds d ih =>
      rcases List.eq_nil_or_concat ds' with rfl | ⟨ds', d', rfl⟩
      · simp at hreq
      · rw [List.concat_eq_append] at h' hreq ⊢
        rw [List.map_append, List.map_append] at hreq
        obtain ⟨hinit, hlast⟩ := List.append_inj' hreq rfl
        obtain ⟨hds, hd⟩ := exact_snoc.mp h
        obtain ⟨hds', hd'⟩ := exact_snoc.mp h'
        obtain rfl := ih hds hds' hinit
        rw [hd, hd', List.head_eq_of_cons_eq hlast]

/-- **Other addresses** can be left out. -/
theorem Exact.filter_ip {ds : List Decision} (h : Exact maxRequestsPerWindow ds) (ip : String) :
    Exact maxRequestsPerWindow (ds.filter fun d => d.ip = ip) := by
  induction ds using List.reverseRecOn with
  | nil => exact exact_nil
  | append_singleton ds d ih =>
      obtain ⟨hds, hd⟩ := exact_snoc.mp h
      rw [List.filter_append]
      by_cases hip : d.ip = ip
      · rw [List.filter_cons_of_pos (by simpa using hip), List.filter_nil, exact_snoc]
        refine ⟨ih hds, hd.trans (windowDecision_congr ?_)⟩
        show admittedTimes d.ip ds = admittedTimes d.ip (ds.filter fun e => e.ip = ip)
        unfold admittedTimes
        rw [List.filter_filter, hip]
        apply congrArg (List.map Decision.time)
        apply List.filter_congr
        intro e _
        by_cases he : e.ip = ip <;> simp [he]
      · rw [List.filter_cons_of_neg (by simpa using hip), List.filter_nil, List.append_nil]
        exact ih hds

/-- **A rejected request** can be left out. -/
theorem Exact.erase_rejected {earlier later : List Decision} {d : Decision}
    (h : Exact maxRequestsPerWindow (earlier ++ d :: later)) (hd : d.outcome = .tooManyRequests) :
    Exact maxRequestsPerWindow (earlier ++ later) := by
  induction later using List.reverseRecOn with
  | nil =>
      rw [List.append_nil]
      exact (exact_snoc.mp h).1
  | append_singleton later e ih =>
      rw [← List.cons_append, ← List.append_assoc] at h
      obtain ⟨hinit, he⟩ := exact_snoc.mp h
      rw [← List.append_assoc, exact_snoc]
      refine ⟨ih hinit, he.trans (windowDecision_congr ?_)⟩
      rw [← List.singleton_append, admittedTimes_append, admittedTimes_append,
        admittedTimes_of_rejected hd, List.nil_append, ← admittedTimes_append]

/-! ## The invariant -/

/-- From now on, no window can tell the deque of an address from the times of all its admitted
requests. -/
structure SerialState.Inv (s : SerialState) (ip : String) : Prop where
  past : ∀ d ∈ s.decisions, d.time ≤ s.now
  sorted : (s.requestLog.times ip).Pairwise (· ≤ ·)
  times_past : ∀ x ∈ s.requestLog.times ip, x ≤ s.now
  recent : ∀ t, s.now ≤ t →
    inWindow t (s.requestLog.times ip) = inWindow t (admittedTimes ip s.decisions)
  accessed : ∀ e, s.requestLog.find ip = some e →
    ∀ x ∈ admittedTimes ip s.decisions, x ≤ e.lastAccess

namespace SerialState.Inv

theorem admitted_past (hinv : s.Inv ip) : ∀ x ∈ admittedTimes ip s.decisions, x ≤ s.now := by
  intro x hx
  obtain ⟨d, hd, rfl⟩ := mem_admittedTimes hx
  exact hinv.past d hd

/-- What is left after the eviction: the window of the history. -/
theorem evict_eq (hinv : s.Inv ip) {t : Int} (hle : s.now ≤ t) :
    evict (t - windowMillis) (s.requestLog.times ip)
      = inWindow t (admittedTimes ip s.decisions) := by
  rw [evict_eq_inWindow hinv.sorted fun x hx => Int.le_trans (hinv.times_past x hx) hle]
  exact hinv.recent t hle

theorem enterWindow_eq (hinv : s.Inv ip) {t : Int} (hle : s.now ≤ t) :
    enterWindow maxRequestsPerWindow t (s.requestLog.times ip)
      = (inWindow t (admittedTimes ip s.decisions)
          ++ recorded t (windowDecision maxRequestsPerWindow s.decisions (ip, t)).outcome,
        (windowDecision maxRequestsPerWindow s.decisions (ip, t)).outcome) := by
  unfold enterWindow windowDecision
  rw [hinv.evict_eq hle]
  dsimp only
  split_ifs
  · rw [recorded, List.append_nil]
  · rfl

/-- **One decision.** -/
theorem request_decisions (hinv : s.Inv ip) (maxRequestsPerWindow : Int) {t : Int}
    (hle : s.now ≤ t) :
    (s.request maxRequestsPerWindow ip t).decisions
      = s.decisions ++ [windowDecision maxRequestsPerWindow s.decisions (ip, t)] := by
  unfold SerialState.request
  rw [hinv.enterWindow_eq hle]
  rfl

/-- The entry a request leaves. -/
theorem request_find (hinv : s.Inv ip) (maxRequestsPerWindow : Int) {t : Int} (hle : s.now ≤ t) :
    (s.request maxRequestsPerWindow ip t).requestLog.find ip
      = some ⟨ip, inWindow t (admittedTimes ip s.decisions)
          ++ recorded t (windowDecision maxRequestsPerWindow s.decisions (ip, t)).outcome, t⟩ := by
  unfold SerialState.request
  rw [hinv.enterWindow_eq hle]
  exact RequestLog.find_put_self _ _

theorem mem_recorded {x t : Int} {outcome : FilterOutcome} (h : x ∈ recorded t outcome) : x = t := by
  cases outcome with
  | passed => exact List.mem_singleton.mp h
  | tooManyRequests => cases h

/-- The address of the request. -/
theorem request_self (hinv : s.Inv ip) {t : Int} (hle : s.now ≤ t) :
    (s.request maxRequestsPerWindow ip t).Inv ip := by
  have hdecisions := hinv.request_decisions maxRequestsPerWindow hle
  have hfind := hinv.request_find maxRequestsPerWindow hle
  have htimes := RequestLog.times_of_find hfind
  have hadmitted : admittedTimes ip (s.request maxRequestsPerWindow ip t).decisions
      = admittedTimes ip s.decisions
        ++ recorded t (windowDecision maxRequestsPerWindow s.decisions (ip, t)).outcome := by
    rw [hdecisions, admittedTimes_append]
    congr 1
    exact admittedTimes_self ip t _
  have hpast : ∀ x ∈ admittedTimes ip s.decisions, x ≤ t := fun x hx =>
    Int.le_trans (hinv.admitted_past x hx) hle
  have hbefore : ∀ x ∈ inWindow t (admittedTimes ip s.decisions), x ≤ t := fun x hx =>
    (mem_inWindow.mp hx).2.2
  constructor
  · intro d hd
    rw [hdecisions] at hd
    rcases List.mem_append.mp hd with hd | hd
    · exact Int.le_trans (hinv.past d hd) hle
    · rw [List.mem_singleton.mp hd]
      exact Int.le_refl t
  · rw [htimes]
    apply List.pairwise_append.mpr
    refine ⟨?_, ?_, ?_⟩
    · rw [← hinv.recent t hle]
      exact hinv.sorted.sublist List.filter_sublist
    · cases (windowDecision maxRequestsPerWindow s.decisions (ip, t)).outcome with
      | passed => exact List.pairwise_singleton _ _
      | tooManyRequests => exact List.Pairwise.nil
    · intro x hx y hy
      rw [mem_recorded hy]
      exact hbefore x hx
  · intro x hx
    rw [htimes] at hx
    rcases List.mem_append.mp hx with hx | hx
    · exact hbefore x hx
    · exact Int.le_of_eq (mem_recorded hx)
  · -- what has left the window by now has left every later one
    intro t' ht'
    rw [htimes, hadmitted, inWindow_append, inWindow_append]
    exact congrArg (· ++ _) (inWindow_inWindow ht' hpast)
  · intro e he x hx
    rw [hfind] at he
    cases he
    rw [hadmitted] at hx
    rcases List.mem_append.mp hx with hx | hx
    · exact hpast x hx
    · exact Int.le_of_eq (mem_recorded hx)

/-- What does not touch the entry or the decisions of an address, while time goes on. -/
theorem congr (hinv : s.Inv ip) (hnow : s.now ≤ s'.now)
    (hfind : s'.requestLog.find ip = s.requestLog.find ip)
    (hadmitted : admittedTimes ip s'.decisions = admittedTimes ip s.decisions)
    (hpast : ∀ d ∈ s'.decisions, d.time ≤ s'.now) : s'.Inv ip := by
  have htimes : s'.requestLog.times ip = s.requestLog.times ip := by
    unfold RequestLog.times
    rw [hfind]
  constructor
  · exact hpast
  · rw [htimes]
    exact hinv.sorted
  · intro x hx
    rw [htimes] at hx
    exact Int.le_trans (hinv.times_past x hx) hnow
  · intro t ht
    rw [htimes, hadmitted]
    exact hinv.recent t (Int.le_trans hnow ht)
  · intro e he
    rw [hfind] at he
    rw [hadmitted]
    exact hinv.accessed e he

/-- A request of another address. -/
theorem request_of_ne {ip' : String} (hinv : s.Inv ip) (hinv' : s.Inv ip') (hne : ip ≠ ip') {t : Int}
    (hle : s.now ≤ t) : (s.request maxRequestsPerWindow ip' t).Inv ip := by
  apply hinv.congr hle
  · exact RequestLog.find_put_of_ne hne
  · rw [hinv'.request_decisions maxRequestsPerWindow hle, admittedTimes_append]
    rw [admittedTimes_of_ne (fun h => hne h.symm), List.append_nil]
  · exact (hinv'.request_self hle).past

/-- A deque nobody has looked up for two minutes holds nothing of a window to come. -/
theorem expire {e : WindowEntry} (hinv : s.Inv ip) (hfind : s.requestLog.find ip = some e) {t : Int}
    (hle : s.now ≤ t) (hold : e.lastAccess + expireAfterAccess ≤ t) :
    { s with now := t, requestLog := s.requestLog.remove ip }.Inv ip := by
  have hnone := RequestLog.find_remove_self s.requestLog ip
  have htimes := RequestLog.times_of_none hnone
  constructor
  · intro d hd
    exact Int.le_trans (hinv.past d hd) hle
  · rw [htimes]
    exact List.Pairwise.nil
  · rw [htimes]
    simp
  · intro t' ht'
    have ht' : t ≤ t' := ht'
    rw [htimes]
    symm
    apply List.eq_nil_iff_forall_not_mem.mpr
    intro x hx
    obtain ⟨hadmitted, hfrom, -⟩ := mem_inWindow.mp hx
    have := hinv.accessed e hfind x hadmitted
    unfold expireAfterAccess at hold
    unfold windowMillis at hfrom
    omega
  · intro e' he'
    rw [hnone] at he'
    cases he'

theorem expire_of_ne {ip' : String} (hinv : s.Inv ip) (hne : ip ≠ ip') {t : Int} (hle : s.now ≤ t) :
    { s with now := t, requestLog := s.requestLog.remove ip' }.Inv ip := by
  apply hinv.congr hle
  · exact RequestLog.find_remove_of_ne hne
  · rfl
  · intro d hd
    exact Int.le_trans (hinv.past d hd) hle

end SerialState.Inv

/-! ## Runs -/

/-- The addresses of some requests. -/
def addresses (requests : List (String × Int)) : List String := (requests.map Prod.fst).dedup

/-- The invariant for every address, in a cache of few addresses, after an exact history. -/
structure SerialState.Serving (maxRequestsPerWindow : Int) (ips : List String) (s : SerialState) :
    Prop where
  inv : ∀ ip, s.Inv ip
  known : ∀ e ∈ s.requestLog.entries, e.ip ∈ ips
  exact : Exact maxRequestsPerWindow s.decisions

theorem requestsOf_cons (a : SerialAction) (as : List SerialAction) :
    requestsOf (a :: as) = requestsOf [a] ++ requestsOf as := by
  cases a <;> rfl

/-- A request is decided about as the history says, and nothing else is. -/
theorem SerialState.Serving.request {ips : List String}
    (hserving : s.Serving maxRequestsPerWindow ips) {ip : String} (hip : ip ∈ ips) {t : Int}
    (hle : s.now ≤ t) : (s.request maxRequestsPerWindow ip t).Serving maxRequestsPerWindow ips ∧
      (s.request maxRequestsPerWindow ip t).decisions.map Decision.request
        = s.decisions.map Decision.request ++ [(ip, t)] := by
  have hinv := hserving.inv ip
  have hdecisions := hinv.request_decisions maxRequestsPerWindow hle
  refine ⟨⟨?_, ?_, ?_⟩, ?_⟩
  · intro ip'
    by_cases hne : ip' = ip
    · rw [hne]
      exact hinv.request_self hle
    · exact (hserving.inv ip').request_of_ne hinv hne hle
  · intro e he
    rcases List.mem_cons.mp he with rfl | he
    · exact hip
    · exact hserving.known e (List.mem_filter.mp he).1
  · rw [hdecisions]
    exact exact_snoc.mpr ⟨hserving.exact, rfl⟩
  · rw [hdecisions, List.map_append]
    rfl

/-- **One step**: it decides about its request as the history says, and about nothing else. -/
theorem SerialState.Serving.step {ips : List String}
    (hserving : s.Serving maxRequestsPerWindow ips) (hfew : ips.length ≤ maximumSize)
    {a : SerialAction} (hin : ∀ r ∈ requestsOf [a], r.1 ∈ ips)
    (h : s.step maxRequestsPerWindow a = some s') :
    s'.Serving maxRequestsPerWindow ips ∧
      s'.decisions.map Decision.request = s.decisions.map Decision.request ++ requestsOf [a] := by
  cases a with
  | request ip t =>
      simp only [SerialState.step] at h
      split_ifs at h with hle
      cases h
      exact hserving.request (hin (ip, t) List.mem_cons_self) (Int.not_lt.mp hle)
  | expire ip t =>
      simp only [SerialState.step] at h
      cases hfind : s.requestLog.find ip with
      | none => simp [hfind] at h
      | some e =>
          rw [hfind] at h
          dsimp only at h
          split_ifs at h with hold
          cases h
          rw [not_or, Int.not_lt, Int.not_lt] at hold
          refine ⟨⟨?_, ?_, hserving.exact⟩, (List.append_nil _).symm⟩
          · intro ip'
            by_cases hip : ip' = ip
            · rw [hip]
              exact (hserving.inv ip).expire hfind hold.1 hold.2
            · exact (hserving.inv ip').expire_of_ne hip hold.1
          · intro e he
            exact hserving.known e (List.mem_filter.mp he).1
  | evict ip =>
      simp only [SerialState.step] at h
      split_ifs at h with hmany
      -- never with so few addresses
      have := RequestLog.size_le hserving.known
      omega

/-- **A run.** -/
theorem SerialState.Serving.run {ips : List String} {as : List SerialAction}
    (hrun : (serialLimiter maxRequestsPerWindow).Steps System.anyStep s as s')
    (hserving : s.Serving maxRequestsPerWindow ips) (hfew : ips.length ≤ maximumSize)
    (hin : ∀ r ∈ requestsOf as, r.1 ∈ ips) :
    Exact maxRequestsPerWindow s'.decisions ∧
      s'.decisions.map Decision.request = s.decisions.map Decision.request ++ requestsOf as := by
  induction hrun with
  | nil => exact ⟨hserving.exact, (List.append_nil _).symm⟩
  | @cons s t s'' a as _ hstep _ ih =>
      rw [requestsOf_cons] at hin ⊢
      obtain ⟨hserving', hone⟩ := hserving.step hfew
        (fun r hr => hin r (List.mem_append_left _ hr)) hstep
      obtain ⟨hexact, hrest⟩ := ih hserving' fun r hr => hin r (List.mem_append_right _ hr)
      refine ⟨hexact, ?_⟩
      rw [hrest, hone, List.append_assoc]

theorem serving_start (hinit : (serialLimiter maxRequestsPerWindow).init s) (ips : List String) :
    s.Serving maxRequestsPerWindow ips := by
  obtain ⟨hentries, hdecisions⟩ := hinit
  have hnone : ∀ ip, s.requestLog.find ip = none := by
    intro ip
    unfold RequestLog.find
    rw [hentries]
    rfl
  refine ⟨?_, by simp [hentries], by rw [hdecisions]; exact exact_nil⟩
  intro ip
  have htimes := RequestLog.times_of_none (hnone ip)
  constructor
  · simp [hdecisions]
  · rw [htimes]
    exact List.Pairwise.nil
  · simp [htimes]
  · intro t _
    rw [htimes, hdecisions]
    rfl
  · simp [hnone ip]

/-- **The filter is the abstract window**, with at most `maximumSize` addresses. -/
theorem decisions_exact {as : List SerialAction}
    (hinit : (serialLimiter maxRequestsPerWindow).init s)
    (hrun : (serialLimiter maxRequestsPerWindow).Steps System.anyStep s as s')
    (hfew : (addresses (requestsOf as)).length ≤ maximumSize) :
    Exact maxRequestsPerWindow s'.decisions ∧
      s'.decisions.map Decision.request = requestsOf as := by
  have h := (serving_start hinit (addresses (requestsOf as))).run hrun hfew fun r hr =>
    List.mem_dedup.mpr (List.mem_map_of_mem hr)
  rwa [hinit.2] at h

/-- Requests in the order of their times can all be made. -/
theorem requests_run {requests : List (String × Int)}
    (hsorted : requests.Pairwise fun r r' => r.2 ≤ r'.2) (hnow : ∀ r ∈ requests, s.now ≤ r.2) :
    ∃ s', (serialLimiter maxRequestsPerWindow).Steps System.anyStep s
      (requests.map fun r => .request r.1 r.2) s' := by
  induction requests generalizing s with
  | nil => exact ⟨s, .nil s⟩
  | cons r requests ih =>
      obtain ⟨hfirst, hsorted⟩ := List.pairwise_cons.mp hsorted
      obtain ⟨s', hrun⟩ := @ih (s.request maxRequestsPerWindow r.1 r.2) hsorted hfirst
      have hle := Int.not_lt.mpr (hnow r List.mem_cons_self)
      exact ⟨s', .cons trivial (if_neg hle) hrun⟩

/-- Who passes, according to an exact history. -/
theorem Exact.passed_iff {ds earlier later : List Decision} {d : Decision}
    (hexact : Exact maxRequestsPerWindow ds) (hsplit : ds = earlier ++ d :: later) :
    d.outcome = .passed ↔
      ((inWindow d.time (admittedTimes d.ip earlier)).length : Int) < maxRequestsPerWindow := by
  have hout : d.outcome = (windowDecision maxRequestsPerWindow earlier d.request).outcome :=
    congrArg Decision.outcome (hexact earlier d later hsplit)
  rw [hout]
  unfold windowDecision Decision.request
  dsimp only
  by_cases hfull : ((inWindow d.time (admittedTimes d.ip earlier)).length : Int)
      ≥ maxRequestsPerWindow
  · rw [if_pos hfull]
    exact ⟨fun h => (by cases h), fun h => absurd h (Int.not_lt.mpr hfull)⟩
  · rw [if_neg hfull]
    exact ⟨fun _ => Int.not_le.mp hfull, fun _ => rfl⟩

/-- A run with some of the requests ends with the exact history of them. -/
theorem decisions_of_some {requests : List (String × Int)} {ds : List Decision}
    (hfew : (addresses requests).length ≤ maximumSize) (hds : Exact maxRequestsPerWindow ds)
    (hsub : ds.map Decision.request ⊆ requests) {t t' : SerialState} {bs : List SerialAction}
    (hinit : (serialLimiter maxRequestsPerWindow).init t)
    (hrun : (serialLimiter maxRequestsPerWindow).Steps System.anyStep t bs t')
    (hbs : requestsOf bs = ds.map Decision.request) : t'.decisions = ds := by
  have hfew' : (addresses (requestsOf bs)).length ≤ maximumSize := by
    refine Nat.le_trans (List.Subperm.length_le ?_) hfew
    apply (List.nodup_dedup _).subperm
    intro ip hip
    obtain ⟨r, hr, rfl⟩ := List.mem_map.mp (List.mem_dedup.mp hip)
    exact List.mem_dedup.mpr (List.mem_map_of_mem (hsub (hbs ▸ hr)))
  obtain ⟨hexact, hreq⟩ := decisions_exact hinit hrun hfew'
  exact hexact.unique hds (hreq.trans hbs)

/-- **The sliding window is exact.** A request is admitted exactly when fewer than
`maxRequestsPerWindow` admitted requests of its address lie in its window. A run with the same
requests but for a rejected one, with those of one address alone, or with other drops decides the
same about them. -/
theorem sliding_window_exact {as : List SerialAction}
    (hinit : (serialLimiter maxRequestsPerWindow).init s)
    (hrun : (serialLimiter maxRequestsPerWindow).Steps System.anyStep s as s')
    (hfew : (addresses (requestsOf as)).length ≤ maximumSize) :
    s'.decisions.map Decision.request = requestsOf as ∧
    (∀ earlier d later, s'.decisions = earlier ++ d :: later →
      (d.outcome = .passed ↔
        ((inWindow d.time (admittedTimes d.ip earlier)).length : Int) < maxRequestsPerWindow)) ∧
    (∀ earlier d later, s'.decisions = earlier ++ d :: later → d.outcome = .tooManyRequests →
      ∀ t t' bs, (serialLimiter maxRequestsPerWindow).init t →
        (serialLimiter maxRequestsPerWindow).Steps System.anyStep t bs t' →
        requestsOf bs = (earlier ++ later).map Decision.request → t'.decisions = earlier ++ later) ∧
    (∀ ip t t' bs, (serialLimiter maxRequestsPerWindow).init t →
      (serialLimiter maxRequestsPerWindow).Steps System.anyStep t bs t' →
      requestsOf bs = (requestsOf as).filter (fun r => r.1 = ip) →
      t'.decisions = s'.decisions.filter fun d => d.ip = ip) ∧
    (∀ t t' bs, (serialLimiter maxRequestsPerWindow).init t →
      (serialLimiter maxRequestsPerWindow).Steps System.anyStep t bs t' →
      requestsOf bs = requestsOf as → t'.decisions = s'.decisions) := by
  obtain ⟨hexact, hreq⟩ := decisions_exact hinit hrun hfew
  refine ⟨hreq, fun earlier d later hsplit => hexact.passed_iff hsplit, ?_, ?_, ?_⟩
  · -- without a rejected request the others are decided the same
    intro earlier d later hsplit hrejected t t' bs
    rw [hsplit] at hexact hreq
    apply decisions_of_some hfew (hexact.erase_rejected hrejected)
    rw [← hreq]
    intro r hr
    rw [List.map_append, List.mem_append] at hr
    rw [List.map_append, List.map_cons, List.mem_append, List.mem_cons]
    rcases hr with hr | hr
    · exact Or.inl hr
    · exact Or.inr (Or.inr hr)
  · -- nor do the requests of other addresses matter
    intro ip t t' bs hinit' hrun' hbs
    have hfilter : (s'.decisions.filter fun d => d.ip = ip).map Decision.request
        = (requestsOf as).filter fun r => r.1 = ip := by
      rw [← hreq, List.filter_map]
      rfl
    apply decisions_of_some hfew (hexact.filter_ip ip) ?_ hinit' hrun' (hbs.trans hfilter.symm)
    rw [hfilter]
    exact List.filter_sublist.subset
  · intro t t' bs hinit' hrun' hbs
    exact decisions_of_some hfew hexact (by rw [hreq]; exact List.Subset.refl _) hinit' hrun'
      (hbs.trans hreq.symm)

/-! ## A limit of one -/

def serialStart : SerialState := ⟨0, .empty, []⟩

/-- The second request is rejected, the deque expires two minutes later, and the third request is
admitted. -/
def threeRequests : List SerialAction := [
  .request "10.0.0.1" 0, .request "10.0.0.1" 60000, .expire "10.0.0.1" 180000,
  .request "10.0.0.1" 180000]

/-- Without the expiry the third request is admitted as well. -/
theorem three_requests_decided :
    ∃ s s', (serialLimiter 1).Steps System.anyStep serialStart threeRequests s ∧
      (serialLimiter 1).Steps System.anyStep serialStart
        ((requestsOf threeRequests).map fun r => .request r.1 r.2) s' ∧
      s'.decisions = s.decisions := by
  obtain ⟨s, hs⟩ := Option.isSome_iff_exists.mp
    (show ((serialLimiter 1).run serialStart threeRequests).isSome = true by decide)
  obtain ⟨s', hs'⟩ := Option.isSome_iff_exists.mp (show ((serialLimiter 1).run serialStart
    ((requestsOf threeRequests).map fun r => .request r.1 r.2)).isSome = true by decide)
  have hrun := System.steps_of_run hs
  have hrun' := System.steps_of_run hs'
  have hstart : (serialLimiter 1).init serialStart := ⟨rfl, rfl⟩
  exact ⟨s, s', hrun, hrun',
    (sliding_window_exact hstart hrun (by decide)).2.2.2.2 _ _ _ hstart hrun' rfl⟩

end McpGateway.Gateway
