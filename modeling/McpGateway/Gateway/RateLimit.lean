import McpGateway.Foundation.Transition

/-! # `RateLimiterFilter`

The sliding window of one address is an `ArrayDeque` of the timestamps of its admitted requests. A
request reads the clock first and enters the `synchronized` block some time later, so requests may
enter in another order than that of their timestamps.

* `limit_holds` — the limit holds in every run in which no request finds entries of its own window
  evicted by an earlier one.
* `late_request_exceeds` — a request with the earlier timestamp enters second and is one too many. -/

namespace McpGateway.Gateway

open Foundation

/-! ## The filter -/

def windowMillis : Int := 60000

/-- What the client gets: the rest of the chain, or `429`. -/
inductive FilterOutcome where
  | passed
  | tooManyRequests
  deriving DecidableEq, Repr

/-- `shouldNotFilter` -/
def shouldNotFilter (requestUri : String) : Bool :=
  "/actuator/health".toList.isPrefixOf requestUri.toList

/-- Evict the timestamps before the cutoff from the front of the deque. -/
def evict (cutoff : Int) (times : List Int) : List Int := times.dropWhile (· < cutoff)

/-- The `synchronized` block. -/
def enterWindow (maxRequestsPerWindow : Int) (now : Int) (times : List Int) :
    List Int × FilterOutcome :=
  let times := evict (now - windowMillis) times
  if (times.length : Int) ≥ maxRequestsPerWindow then (times, .tooManyRequests)
  else (times ++ [now], .passed)

/-! ## Concurrent requests -/

/-- The filter with its requests in flight. `waiting` holds those that have read the clock and are
still to enter the block. `admitted` is not part of the program: the timestamps recorded for an
address, in the order its requests entered. -/
structure LimiterState where
  currentTimeMillis : Int
  requestLog : String → List Int
  waiting : List (String × Int)
  admitted : String → List Int

inductive LimiterAction where
  | tick (elapsed : Nat)
  | arrive (ip requestUri : String)
  | enter (i : Nat)

def LimiterState.setTimes (s : LimiterState) (ip : String) (times admitted : List Int) :
    LimiterState :=
  { s with
    requestLog := fun k => if k = ip then times else s.requestLog k
    admitted := fun k => if k = ip then admitted else s.admitted k }

/-- The timestamps a request adds. -/
def recorded (now : Int) : FilterOutcome → List Int
  | .passed => [now]
  | .tooManyRequests => []

def LimiterState.step (maxRequestsPerWindow : Int) (s : LimiterState) :
    LimiterAction → Option LimiterState
  | .tick elapsed => some { s with currentTimeMillis := s.currentTimeMillis + elapsed }
  | .arrive ip requestUri =>
      if shouldNotFilter requestUri then some s
      -- the clock is read here, before the `synchronized` block
      else some { s with waiting := s.waiting ++ [(ip, s.currentTimeMillis)] }
  | .enter i =>
      match s.waiting[i]? with
      | none => none
      | some (ip, now) =>
          let (times, outcome) := enterWindow maxRequestsPerWindow now (s.requestLog ip)
          some ({ s with waiting := s.waiting.eraseIdx i }.setTimes ip times
            (s.admitted ip ++ recorded now outcome))

/-- The filter from its start on, with no eviction from the cache. -/
def rateLimiter (maxRequestsPerWindow : Int) : System LimiterState LimiterAction where
  init s := (∀ ip, s.requestLog ip = []) ∧ s.waiting = [] ∧ ∀ ip, s.admitted ip = []
  step := LimiterState.step maxRequestsPerWindow

/-- The admitted requests with a timestamp in `[t - 60000, t]`. -/
def inWindow (t : Int) (times : List Int) : List Int :=
  times.filter fun x => t - windowMillis ≤ x && x ≤ t

/-- The timestamps of an address that are in its deque no more. -/
def LimiterState.evicted (s : LimiterState) (ip : String) : List Int :=
  (s.admitted ip).take ((s.admitted ip).length - (s.requestLog ip).length)

/-- Nothing that an earlier request evicted lies in the window of the one that enters. -/
def findsItsWindow (s : LimiterState) : LimiterAction → Bool
  | .enter i =>
      match s.waiting[i]? with
      | none => true
      | some (ip, now) => (s.evicted ip).all fun x => x < now - windowMillis
  | _ => true

/-! ## The invariant -/

/-- The deque is what is left of the admitted timestamps, and no window holds too many of them. -/
structure LimiterState.Inv (maxRequestsPerWindow : Int) (s : LimiterState) (ip : String) : Prop where
  log_eq : ∃ gone, s.admitted ip = gone ++ s.requestLog ip
  bounded : ∀ t, (inWindow t (s.admitted ip)).length ≤ maxRequestsPerWindow.toNat

theorem inWindow_append (t : Int) (xs ys : List Int) :
    inWindow t (xs ++ ys) = inWindow t xs ++ inWindow t ys :=
  List.filter_append ..

theorem inWindow_length_le (t : Int) (xs : List Int) : (inWindow t xs).length ≤ xs.length :=
  List.length_filter_le ..

/-- A window that begins after all of them holds none of them. -/
theorem inWindow_of_lt {t cutoff : Int} {xs : List Int} (hxs : ∀ x ∈ xs, x < cutoff)
    (ht : cutoff ≤ t - windowMillis) : inWindow t xs = [] := by
  apply List.filter_eq_nil_iff.mpr
  intro x hx
  have := hxs x hx
  simp only [Bool.and_eq_true, decide_eq_true_eq, not_and]
  omega

/-- A window the timestamp is not in. -/
theorem inWindow_singleton_of_not {t now : Int} (h : ¬ (t - windowMillis ≤ now ∧ now ≤ t)) :
    inWindow t [now] = [] := by
  apply List.filter_eq_nil_iff.mpr
  intro x hx
  rw [List.mem_singleton.mp hx, Bool.and_eq_true, decide_eq_true_eq, decide_eq_true_eq]
  exact h

/-- Eviction takes a part from the front, all of it before the cutoff. -/
theorem evict_split (cutoff : Int) (times : List Int) :
    ∃ gone, times = gone ++ evict cutoff times ∧ ∀ x ∈ gone, x < cutoff := by
  refine ⟨times.takeWhile (· < cutoff), List.takeWhile_append_dropWhile.symm, ?_⟩
  intro x hx
  have hall := List.all_takeWhile (p := (· < cutoff)) (l := times)
  simpa using List.all_eq_true.mp hall x hx

/-- What is not in the deque any more is the front part. -/
theorem LimiterState.evicted_eq {s : LimiterState} {ip : String} {gone : List Int}
    (h : s.admitted ip = gone ++ s.requestLog ip) : s.evicted ip = gone := by
  unfold LimiterState.evicted
  rw [h, List.length_append, Nat.add_sub_cancel, List.take_left]

variable {maxRequestsPerWindow : Int} {s s' : LimiterState} {ip : String}

/-- **One request.** Whatever the deque has lost lies before the window of the request, so the
request counts every admitted one that shares a window with it. -/
theorem enter_bounded {now : Int} {gone : List Int} (hinv : s.Inv maxRequestsPerWindow ip)
    (hgone : s.admitted ip = gone ++ s.requestLog ip) (hbefore : ∀ x ∈ gone, x < now - windowMillis)
    (hroom : ((evict (now - windowMillis) (s.requestLog ip)).length : Int) < maxRequestsPerWindow)
    (t : Int) : (inWindow t (s.admitted ip ++ [now])).length ≤ maxRequestsPerWindow.toNat := by
  by_cases ht : t - windowMillis ≤ now ∧ now ≤ t
  · obtain ⟨front, hsplit, hfront⟩ := evict_split (now - windowMillis) (s.requestLog ip)
    have hcut : now - windowMillis ≤ t - windowMillis := by omega
    have hkept : inWindow t (s.admitted ip)
        = inWindow t (evict (now - windowMillis) (s.requestLog ip)) := by
      rw [hgone, hsplit, inWindow_append, inWindow_append, inWindow_of_lt hbefore hcut,
        inWindow_of_lt hfront hcut, List.nil_append, List.nil_append, ← hsplit]
    have hlen := inWindow_length_le t (evict (now - windowMillis) (s.requestLog ip))
    have hone := inWindow_length_le t [now]
    rw [inWindow_append, List.length_append, hkept]
    rw [List.length_singleton] at hone
    omega
  · -- a window without the new timestamp holds what it held before
    rw [inWindow_append, inWindow_singleton_of_not ht, List.append_nil]
    exact hinv.bounded t

theorem LimiterState.Inv.enter {now : Int} (hinv : s.Inv maxRequestsPerWindow ip)
    (hfinds : (s.evicted ip).all (fun x => x < now - windowMillis) = true) (waiting : List (String × Int)) :
    ({ s with waiting := waiting }.setTimes ip
      (enterWindow maxRequestsPerWindow now (s.requestLog ip)).1
      (s.admitted ip ++ recorded now
        (enterWindow maxRequestsPerWindow now (s.requestLog ip)).2)).Inv maxRequestsPerWindow ip := by
  obtain ⟨gone, hgone⟩ := hinv.log_eq
  obtain ⟨front, hsplit, -⟩ := evict_split (now - windowMillis) (s.requestLog ip)
  have hbefore : ∀ x ∈ gone, x < now - windowMillis := by
    rw [LimiterState.evicted_eq hgone] at hfinds
    simpa using hfinds
  have hadmitted : s.admitted ip = (gone ++ front) ++ evict (now - windowMillis) (s.requestLog ip) := by
    rw [List.append_assoc, ← hsplit, hgone]
  unfold enterWindow
  dsimp only
  split_ifs with hfull
  · constructor
    · exact ⟨gone ++ front, by simpa [LimiterState.setTimes, recorded] using hadmitted⟩
    · intro t
      simpa [LimiterState.setTimes, recorded] using hinv.bounded t
  · constructor
    · refine ⟨gone ++ front, ?_⟩
      simp [LimiterState.setTimes, recorded, hadmitted]
    · intro t
      have := enter_bounded hinv hgone hbefore (by omega) t
      simpa [LimiterState.setTimes, recorded] using this

/-- What happens to the other addresses does not matter. -/
theorem LimiterState.Inv.congr (hinv : s.Inv maxRequestsPerWindow ip)
    (hlog : s'.requestLog ip = s.requestLog ip) (hadmitted : s'.admitted ip = s.admitted ip) :
    s'.Inv maxRequestsPerWindow ip := by
  constructor
  · rw [hlog, hadmitted]
    exact hinv.log_eq
  · rw [hadmitted]
    exact hinv.bounded

/-- **One step.** -/
theorem LimiterState.Inv.step {a : LimiterAction} (hinv : s.Inv maxRequestsPerWindow ip)
    (hfinds : findsItsWindow s a = true) (h : s.step maxRequestsPerWindow a = some s') :
    s'.Inv maxRequestsPerWindow ip := by
  cases a with
  | tick elapsed =>
      cases h
      exact hinv.congr rfl rfl
  | arrive ip' requestUri =>
      simp only [LimiterState.step] at h
      split_ifs at h
      · cases h
        exact hinv
      · cases h
        exact hinv.congr rfl rfl
  | enter i =>
      simp only [LimiterState.step] at h
      simp only [findsItsWindow] at hfinds
      cases hi : s.waiting[i]? with
      | none => simp [hi] at h
      | some request =>
          obtain ⟨ip', now⟩ := request
          simp only [hi, Option.some.injEq] at h hfinds
          subst h
          by_cases hip : ip = ip'
          · subst hip
            exact hinv.enter hfinds _
          · exact hinv.congr (by simp [LimiterState.setTimes, hip])
              (by simp [LimiterState.setTimes, hip])

/-! ## The limit -/

/-- **The rate limit.** In every run whose requests find their windows as they were, at most
`maxRequestsPerWindow` admitted requests of an address lie in any 60 seconds. -/
theorem limit_holds {s₀ : LimiterState} {as : List LimiterAction}
    (hinit : (rateLimiter maxRequestsPerWindow).init s₀)
    (hrun : (rateLimiter maxRequestsPerWindow).Steps (fun s a => findsItsWindow s a = true) s₀ as s)
    (ip : String) (t : Int) :
    (inWindow t (s.admitted ip)).length ≤ maxRequestsPerWindow.toNat := by
  obtain ⟨hlog, -, hadmitted⟩ := hinit
  have hstart : s₀.Inv maxRequestsPerWindow ip := by
    constructor
    · exact ⟨[], by rw [hlog, hadmitted, List.nil_append]⟩
    · intro t
      rw [hadmitted]
      exact Nat.zero_le _
  have hend : s.Inv maxRequestsPerWindow ip :=
    hrun.preserves
      (fun _ _ _ (hinv : LimiterState.Inv maxRequestsPerWindow _ ip) hc hst => hinv.step hc hst) hstart
  exact hend.bounded t

/-! ## A request that comes late

Two requests of one address fill a limit of two at time 0. A third reads the clock at 60000 and a
fourth at 60001; the fourth enters first and evicts the two. -/

def limiterStart : LimiterState := ⟨0, fun _ => [], [], fun _ => []⟩

def twoAdmitted : List LimiterAction :=
  [.arrive "10.0.0.1" "/mcp", .arrive "10.0.0.1" "/mcp", .enter 0, .enter 0]

/-- A run to which the limit applies. -/
theorem limit_holds_in_order :
    ∃ s, (rateLimiter 2).Steps (fun s a => findsItsWindow s a = true) limiterStart
        (twoAdmitted ++ [.tick 60001, .arrive "10.0.0.1" "/mcp", .enter 0]) s ∧
      (inWindow 60001 (s.admitted "10.0.0.1")).length ≤ 2 := by
  obtain ⟨s, hs⟩ := Option.isSome_iff_exists.mp (show ((rateLimiter 2).runWhere findsItsWindow
    limiterStart (twoAdmitted ++ [.tick 60001, .arrive "10.0.0.1" "/mcp", .enter 0])).isSome = true
    by decide)
  have hrun := System.steps_of_runWhere hs
  exact ⟨s, hrun, limit_holds ⟨fun _ => rfl, rfl, fun _ => rfl⟩ hrun "10.0.0.1" 60001⟩

/-- **Three requests in one window.** -/
theorem late_request_exceeds :
    ∃ s, (rateLimiter 2).init limiterStart ∧
      (rateLimiter 2).Steps System.anyStep limiterStart
        (twoAdmitted ++ [.tick 60000, .arrive "10.0.0.1" "/mcp", .tick 1,
          .arrive "10.0.0.1" "/mcp", .enter 1, .enter 0]) s ∧
      (inWindow 60000 (s.admitted "10.0.0.1")).length = 3 := by
  obtain ⟨s, hs, hthree⟩ := Option.map_eq_some_iff.mp (show ((rateLimiter 2).run limiterStart
      (twoAdmitted ++ [.tick 60000, .arrive "10.0.0.1" "/mcp", .tick 1,
        .arrive "10.0.0.1" "/mcp", .enter 1, .enter 0])).map
      (fun s => (inWindow 60000 (s.admitted "10.0.0.1")).length) = some 3 by decide)
  exact ⟨s, ⟨fun _ => rfl, rfl, fun _ => rfl⟩, System.steps_of_run hs, hthree⟩

end McpGateway.Gateway
