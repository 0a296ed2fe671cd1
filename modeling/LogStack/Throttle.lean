/-
The sender's throttle (`sender/src/throttle.ts`), alone and against the receiver's rate limit.

The bounds hold of exact arithmetic, and of doubles as long as everything is a whole number of
milliseconds.

* `FixedWindowThrottle.tryAcquire` — one call;
* `tryAcquire_wait` — who is told to wait finds the next window open;
* `acquired_le` — what one window lets through, whatever restarts happen;
* `tryAcquire_whole` — nothing is rounded at whole milliseconds;
* `throttle_bounds` — the bounds of the throttle, and of the requests that the receiver's
  minutes see;
* `unlimited_window` — a window that is no whole number, and lets everything through.
-/
import LogStack.NearestDoubles
import LogStack.RateLimit

open FixedWindow

namespace Sender

structure ThrottleConfig where
  limitPerWindow : ℕ+
  windowMs : ℚ
  windowMs_pos : 0 < windowMs

/-- `windowStart` and `count`. -/
abbrev FixedWindowThrottle := Counter ℚ

namespace FixedWindowThrottle

/-- A throttle as it is constructed. -/
def new : FixedWindowThrottle := ⟨-1, 0⟩

/-- Zero is a slot; anything else is the time to wait for the next window. -/
def tryAcquire (D : Doubles) (config : ThrottleConfig) (throttle : FixedWindowThrottle)
    (nowMs : ℚ) : ℚ × FixedWindowThrottle :=
  let windowStart := D.round (⌊D.round (nowMs / config.windowMs)⌋ * config.windowMs)
  let throttle := if windowStart ≠ throttle.windowStart then ⟨windowStart, 0⟩ else throttle
  if throttle.count < config.limitPerWindow then
    (0, { throttle with count := throttle.count + 1 })
  else (D.round (D.round (windowStart + config.windowMs) - nowMs), throttle)

end FixedWindowThrottle

open FixedWindowThrottle (tryAcquire)

/-! ### Calls and restarts -/

inductive Action where
  | tryAcquire (time : ℚ)
  | restart (time : ℚ)

def Action.time : Action → ℚ
  | tryAcquire time => time
  | restart time => time

def Action.isRestart : Action → Bool
  | tryAcquire _ => false
  | restart _ => true

/-- The times of the calls, with what they return. A restart constructs a new throttle. -/
def results (D : Doubles) (config : ThrottleConfig) :
    FixedWindowThrottle → List Action → List (ℚ × ℚ)
  | _, [] => []
  | throttle, .tryAcquire time :: rest =>
    let (wait, throttle') := tryAcquire D config throttle time
    (time, wait) :: results D config throttle' rest
  | _, .restart _ :: rest => results D config .new rest

theorem results_tryAcquire (D : Doubles) (config : ThrottleConfig) (throttle : FixedWindowThrottle)
    (time : ℚ) (rest : List Action) : results D config throttle (.tryAcquire time :: rest) =
      (time, (tryAcquire D config throttle time).1) ::
        results D config (tryAcquire D config throttle time).2 rest := rfl

/-- What happens to one sender, at non-decreasing times. -/
structure Timeline where
  actions : List Action
  ordered : (actions.map Action.time).Pairwise (· ≤ ·)

section Throttle

variable {config : ThrottleConfig} {throttle : FixedWindowThrottle} {before : List ℚ}

/-- A call in terms of the counter that it finds. -/
theorem tryAcquire_eq (t : ℚ) : tryAcquire .exact config throttle t =
    if throttle.current config.windowMs t < config.limitPerWindow then
      (0, ⟨start config.windowMs t, throttle.current config.windowMs t + 1⟩)
    else (start config.windowMs t + config.windowMs - t,
      ⟨start config.windowMs t, throttle.current config.windowMs t⟩) := by
  unfold tryAcquire Counter.current
  simp only [Doubles.exact_round,
    show ⌊t / config.windowMs⌋ * config.windowMs = start config.windowMs t from rfl]
  by_cases h : throttle.windowStart = start config.windowMs t
  · rw [if_pos h, if_neg (not_not.mpr h.symm), ← h]
  · rw [if_neg h, if_pos (Ne.symm h)]

/-- Who is told to wait is told to wait for the next window. -/
theorem tryAcquire_of_wait {t : ℚ} (h : (tryAcquire .exact config throttle t).1 ≠ 0) :
    tryAcquire .exact config throttle t =
      (start config.windowMs t + config.windowMs - t,
        ⟨start config.windowMs t, throttle.current config.windowMs t⟩) := by
  rw [tryAcquire_eq] at h ⊢
  split_ifs at h ⊢ with hslot
  · exact absurd rfl h
  · rfl

/-- **Who is told to wait** waits no longer than a window, and then gets a slot. -/
theorem tryAcquire_wait (throttle : FixedWindowThrottle) (t : ℚ)
    (h : (tryAcquire .exact config throttle t).1 ≠ 0) :
    (0 < (tryAcquire .exact config throttle t).1 ∧
        (tryAcquire .exact config throttle t).1 ≤ config.windowMs) ∧
      (tryAcquire .exact config (tryAcquire .exact config throttle t).2
        (t + (tryAcquire .exact config throttle t).1)).1 = 0 := by
  have hW := config.windowMs_pos
  have hle : start config.windowMs t ≤ t := start_le hW
  have hlt : t < start config.windowMs t + config.windowMs := lt_start_add hW
  rw [tryAcquire_of_wait h]
  refine ⟨⟨by linarith, by linarith⟩, ?_⟩
  -- the next call opens the window that begins where this one ends
  have hnext : t + (start config.windowMs t + config.windowMs - t) =
      start config.windowMs t + ((1 : ℤ) : ℚ) * config.windowMs := by push_cast; ring
  have hindex : index config.windowMs (start config.windowMs t) = index config.windowMs t := by
    rw [index_eq_iff hW]
    exact ⟨le_rfl, by rw [start, add_mul, one_mul]; exact lt_add_of_pos_right _ hW⟩
  have hother : start config.windowMs t ≠
      start config.windowMs (start config.windowMs t + ((1 : ℤ) : ℚ) * config.windowMs) := by
    rw [ne_eq, start_eq_iff hW, index_add_mul hW, hindex]
    omega
  have hfresh : (⟨start config.windowMs t, throttle.current config.windowMs t⟩ :
      FixedWindowThrottle).current config.windowMs
        (start config.windowMs t + ((1 : ℤ) : ℚ) * config.windowMs) = 0 := if_neg hother
  have hlimit : 0 < (config.limitPerWindow : ℕ) := config.limitPerWindow.pos
  rw [hnext, tryAcquire_eq, hfresh, if_pos hlimit]

/-- A call is counted up to the limit. -/
theorem tracks_tryAcquire
    (h : Tracks config.windowMs (min (config.limitPerWindow : ℕ)) before throttle) {t : ℚ}
    (hle : ∀ s ∈ before, s ≤ t) :
    Tracks config.windowMs (min (config.limitPerWindow : ℕ)) (before ++ [t])
        (tryAcquire .exact config throttle t).2 ∧
      ((tryAcquire .exact config throttle t).1 = 0 ↔
        earlier config.windowMs before t < config.limitPerWindow) := by
  have hcurrent := h t hle
  have hlt : t < start config.windowMs t + config.windowMs := lt_start_add config.windowMs_pos
  rw [tryAcquire_eq, hcurrent]
  by_cases hslot : earlier config.windowMs before t < config.limitPerWindow
  · rw [if_pos (by omega)]
    refine ⟨tracks_snoc config.windowMs_pos (Nat.min_zero _) hle (by omega), ?_⟩
    simp only [hslot]
  · rw [if_neg (by omega)]
    refine ⟨tracks_snoc config.windowMs_pos (Nat.min_zero _) hle (by omega), ?_⟩
    have hne : start config.windowMs t + config.windowMs - t ≠ 0 := by linarith
    simp only [hslot, hne]

/-- The calls of a window `k` that get a slot. -/
def acquired (config : ThrottleConfig) (k : ℤ) (l : List (ℚ × ℚ)) : ℕ :=
  l.countP fun x => index config.windowMs x.1 = k ∧ decide (x.2 = 0) = true

def restarts (config : ThrottleConfig) (k : ℤ) (actions : List Action) : ℕ :=
  actions.countP fun a => index config.windowMs a.time = k ∧ a.isRestart = true

theorem mem_results {actions : List Action} {x : ℚ × ℚ}
    (h : x ∈ results .exact config throttle actions) : x.1 ∈ actions.map Action.time := by
  induction actions generalizing throttle with
  | nil => exact absurd h List.not_mem_nil
  | cons a rest ih =>
    cases a with
    | tryAcquire t =>
      rcases List.mem_cons.mp h with rfl | hrest
      · exact List.mem_cons_self
      · exact List.mem_cons_of_mem _ (ih hrest)
    | restart t => exact List.mem_cons_of_mem _ (ih h)

/-- **A window lets `limitPerWindow` calls through**, and as many again after every restart. -/
theorem acquired_le (before : List ℚ) (k : ℤ) {actions : List Action}
    (h : Tracks config.windowMs (min (config.limitPerWindow : ℕ)) before throttle)
    (hordered : (before ++ actions.map Action.time).Pairwise (· ≤ ·)) :
    acquired config k (results .exact config throttle actions) ≤
      restarts config k actions * config.limitPerWindow +
        (config.limitPerWindow - before.countP fun s => index config.windowMs s = k) := by
  induction actions generalizing before throttle with
  | nil => exact Nat.zero_le _
  | cons a rest ih =>
    obtain ⟨-, hrest, hbefore⟩ := List.pairwise_append.mp hordered
    have hle : ∀ s ∈ before, s ≤ a.time := fun s hs => hbefore s hs a.time List.mem_cons_self
    cases a with
    | tryAcquire t =>
      change ∀ s ∈ before, s ≤ t at hle
      obtain ⟨htracks, hslot⟩ := tracks_tryAcquire h hle
      rw [List.map_cons, List.append_cons] at hordered
      have hmore := ih _ htracks hordered
      have hrestarts : restarts config k (.tryAcquire t :: rest) = restarts config k rest := by
        simp [restarts, Action.isRestart]
      rw [List.countP_append, List.countP_singleton] at hmore
      rw [hrestarts, results, acquired, List.countP_cons, ← acquired]
      generalize restarts config k rest * (config.limitPerWindow : ℕ) = more at hmore ⊢
      by_cases hk : index config.windowMs t = k
      · subst hk
        simp only [hslot, earlier, decide_true, decide_eq_true_eq, true_and, if_true] at hmore ⊢
        split_ifs <;> omega
      · simp only [hk, false_and, decide_false, Bool.false_eq_true, if_false] at hmore ⊢
        exact hmore
    | restart t =>
      have hordered' : (rest.map Action.time).Pairwise (· ≤ ·) := (List.pairwise_cons.mp hrest).2
      have hmore := ih [] (tracks_nil (Nat.min_zero _) (-1)) hordered'
      rw [List.countP_nil, Nat.sub_zero] at hmore
      have hrestarts : restarts config k (.restart t :: rest) =
          restarts config k rest + if index config.windowMs t = k then 1 else 0 := by
        simp [restarts, List.countP_cons, Action.isRestart, Action.time]
      rw [results, hrestarts, Nat.add_mul]
      rcases lt_trichotomy (index config.windowMs t) k with hlt | rfl | hgt
      · -- what came before the restart lies in earlier windows
        have hnone : (before.countP fun s => index config.windowMs s = k) = 0 := by
          refine List.countP_eq_zero.mpr fun s hs => ?_
          have hmono := index_mono config.windowMs_pos (hle s hs)
          simp only [Action.time] at hmono
          simp only [decide_eq_true_eq]
          omega
        rw [hnone, Nat.sub_zero]
        exact hmore.trans (Nat.add_le_add_right (Nat.le_add_right _ _) _)
      · rw [if_pos rfl, Nat.one_mul]
        exact hmore.trans (Nat.le_add_right _ _)
      · -- nothing of the window is left
        have hnone : acquired config k (results .exact config .new rest) = 0 := by
          refine List.countP_eq_zero.mpr fun x hx => ?_
          have hlate := (List.pairwise_cons.mp hrest).1 x.1 (mem_results hx)
          have hmono := index_mono config.windowMs_pos hlate
          simp only [Action.time] at hmono
          simp only [decide_eq_true_eq]
          omega
        rw [hnone]
        exact Nat.zero_le _

end Throttle

/-! ### A whole timeline -/

/-- The slots that a sender gets, from its first start on. -/
def Timeline.results (R : Timeline) (D : Doubles) (config : ThrottleConfig) : List (ℚ × ℚ) :=
  Sender.results D config .new R.actions

/-- The calls of the interval of length `windowMs` from `s` on that get a slot. -/
def acquiredFrom (config : ThrottleConfig) (s : ℚ) (l : List (ℚ × ℚ)) : ℕ :=
  l.countP fun x => (s ≤ x.1 ∧ x.1 < s + config.windowMs) ∧ decide (x.2 = 0) = true

theorem Timeline.acquired_le (config : ThrottleConfig) (R : Timeline) (k : ℤ) :
    acquired config k (R.results .exact config) ≤
      (restarts config k R.actions + 1) * config.limitPerWindow := by
  have htracks : Tracks config.windowMs (min (config.limitPerWindow : ℕ)) []
      FixedWindowThrottle.new :=
    tracks_nil (Nat.min_zero _) (-1)
  have hle := Sender.acquired_le [] k htracks R.ordered
  rw [List.countP_nil, Nat.sub_zero] at hle
  rw [Nat.add_mul, Nat.one_mul]
  exact hle

theorem Timeline.acquiredFrom_le (config : ThrottleConfig) (R : Timeline)
    (hrestart : ∀ a ∈ R.actions, a.isRestart = false) (s : ℚ) :
    acquiredFrom config s (R.results .exact config) ≤ 2 * config.limitPerWindow := by
  have hnone : ∀ k, restarts config k R.actions = 0 := fun k =>
    List.countP_eq_zero.mpr fun a ha => by simp [hrestart a ha]
  have hwindow : ∀ k, acquired config k (R.results .exact config) ≤ config.limitPerWindow := by
    intro k
    have hle := R.acquired_le config k
    rwa [hnone, Nat.zero_add, Nat.one_mul] at hle
  have hinterval := countP_interval_le config.windowMs_pos s Prod.fst
    (fun x : ℚ × ℚ => decide (x.2 = 0)) (R.results .exact config)
  have hfirst := hwindow (index config.windowMs s)
  have hsecond := hwindow (index config.windowMs s + 1)
  rw [acquired] at hfirst hsecond
  rw [acquiredFrom]
  omega

/-! ### Against the receiver -/

/-- The throttle of the daemon, with windows of a minute. -/
def minuteThrottle (limitPerWindow : ℕ+) : ThrottleConfig :=
  ⟨limitPerWindow, Ingestion.RATE_LIMIT_WINDOW_MS, Ingestion.window_pos⟩

/-- One turn of the send loop: a call of `tryAcquire`, what it returned, and when its request
reached the receiver, if it did, on the sender's clock. -/
structure Turn where
  time : ℚ
  wait : ℚ
  arrival : Option ℚ

/-- A sender that is not restarted and has one request in flight: a request arrives before the
next call. -/
structure Sending (D : Doubles) (limitPerWindow : ℕ+) where
  turns : List Turn
  throttled : results D (minuteThrottle limitPerWindow) .new
    (turns.map fun x => .tryAcquire x.time) = turns.map fun x => (x.time, x.wait)
  acquired : ∀ x ∈ turns, x.arrival ≠ none → x.wait = 0
  sent : ∀ x ∈ turns, ∀ a ∈ x.arrival, x.time ≤ a
  ordered : turns.Pairwise fun x y => x.time ≤ y.time ∧ ∀ a ∈ x.arrival, a ≤ y.time

/-- What the receiver's store sees of it: its clock is `offset` ahead, and the calls of the
sender's key are the requests that arrive. -/
structure Meeting (D : Doubles) (limitPerWindow : ℕ+) extends Sending D limitPerWindow where
  key : JsString
  offset : ℚ
  history : Ingestion.History
  calls : Ingestion.times key history.calls =
    (turns.filterMap Turn.arrival).map fun a => a + offset

namespace Sending

variable {limitPerWindow : ℕ+} (S : Sending .exact limitPerWindow)

def timeline : Timeline where
  actions := S.turns.map fun x => .tryAcquire x.time
  ordered := by
    rw [List.map_map, List.pairwise_map]
    exact S.ordered.imp fun h => h.1

theorem not_restart : ∀ a ∈ S.timeline.actions, a.isRestart = false := by
  intro a ha
  obtain ⟨x, -, rfl⟩ := List.mem_map.mp ha
  rfl

/-- The turns of an interval that get a slot. -/
def slots (s : ℚ) : ℕ :=
  S.turns.countP fun x => (s ≤ x.time ∧ x.time < s + Ingestion.RATE_LIMIT_WINDOW_MS) ∧ x.wait = 0

theorem slots_le_two (s : ℚ) : S.slots s ≤ 2 * limitPerWindow := by
  have hle := S.timeline.acquiredFrom_le (minuteThrottle limitPerWindow) S.not_restart s
  rw [Timeline.results, timeline, S.throttled, acquiredFrom, List.countP_map] at hle
  refine le_trans (le_of_eq (List.countP_congr fun x _ => ?_)) hle
  simp [minuteThrottle]

/-- A minute of the sender has `limitPerWindow` slots. -/
theorem slots_le_one (k : ℤ) :
    S.slots (k * Ingestion.RATE_LIMIT_WINDOW_MS) ≤ limitPerWindow := by
  have hle := S.timeline.acquired_le (minuteThrottle limitPerWindow) k
  have hnone : restarts (minuteThrottle limitPerWindow) k S.timeline.actions = 0 :=
    List.countP_eq_zero.mpr fun a ha => by simp [S.not_restart a ha]
  rw [hnone, Nat.zero_add, Nat.one_mul, Timeline.results, timeline, S.throttled,
    Sender.acquired, List.countP_map] at hle
  refine le_trans (le_of_eq (List.countP_congr fun x _ => ?_)) hle
  have hindex := index_eq_iff (t := x.time) Ingestion.window_pos (k := k)
  rw [add_mul, one_mul] at hindex
  simp [minuteThrottle, hindex]

/-- The requests that arrive in an interval: those of its slots, and the one of a turn before it
that was still on its way. -/
theorem countP_arrival_le {s e : ℚ} {turns : List Turn}
    (hacquired : ∀ x ∈ turns, x.arrival ≠ none → x.wait = 0)
    (hsent : ∀ x ∈ turns, ∀ a ∈ x.arrival, x.time ≤ a)
    (hordered : turns.Pairwise fun x y => x.time ≤ y.time ∧ ∀ a ∈ x.arrival, a ≤ y.time) :
    (turns.filterMap Turn.arrival).countP (fun a => s ≤ a ∧ a < e) ≤
      turns.countP (fun x => (s ≤ x.time ∧ x.time < e) ∧ x.wait = 0) +
        if ∀ x ∈ turns, s ≤ x.time then 0 else 1 := by
  induction turns with
  | nil => exact Nat.zero_le _
  | cons x rest ih =>
    obtain ⟨hnext, hordered'⟩ := List.pairwise_cons.mp hordered
    have hrest := ih (fun y hy => hacquired y (List.mem_cons_of_mem _ hy))
      (fun y hy => hsent y (List.mem_cons_of_mem _ hy)) hordered'
    have hall : (∀ y ∈ x :: rest, s ≤ y.time) ↔ s ≤ x.time ∧ ∀ y ∈ rest, s ≤ y.time :=
      List.forall_mem_cons
    simp only [List.countP_cons, decide_eq_true_eq, hall]
    rcases harrival : x.arrival with - | a
    · rw [List.filterMap_cons_none harrival]
      split_ifs at hrest ⊢ <;> grind
    · have hwait : x.wait = 0 := hacquired x List.mem_cons_self (by rw [harrival]; simp)
      have hle : x.time ≤ a := hsent x List.mem_cons_self a harrival
      have hlate : s ≤ a → ∀ y ∈ rest, s ≤ y.time := fun hs y hy =>
        hs.trans ((hnext y hy).2 a harrival)
      have hlater : s ≤ x.time → ∀ y ∈ rest, s ≤ y.time := fun hs => hlate (hs.trans hle)
      rw [List.filterMap_cons_some harrival, List.countP_cons]
      simp only [decide_eq_true_eq]
      by_cases hs : s ≤ x.time
      · -- a slot of the interval
        rw [if_pos (hlater hs)] at hrest
        have hslot : s ≤ a ∧ a < e → (s ≤ x.time ∧ x.time < e) ∧ x.wait = 0 := fun h =>
          ⟨⟨hs, hle.trans_lt h.2⟩, hwait⟩
        have hnone : (if s ≤ x.time ∧ ∀ y ∈ rest, s ≤ y.time then 0 else 1) = 0 :=
          if_pos ⟨hs, hlater hs⟩
        rw [hnone]
        by_cases hin : s ≤ a ∧ a < e
        · rw [if_pos hin, if_pos (hslot hin)]
          omega
        · rw [if_neg hin]
          omega
      · have hone : (if s ≤ x.time ∧ ∀ y ∈ rest, s ≤ y.time then 0 else 1) = 1 :=
          if_neg fun h => hs h.1
        rw [hone]
        by_cases ha : s ≤ a
        · -- it was on its way: nobody after it was
          rw [if_pos (hlate ha)] at hrest
          split_ifs <;> omega
        · rw [if_neg fun h => ha h.1]
          split_ifs at hrest <;> omega

/-- **One request more** than the slots arrives in an interval. -/
theorem arrivals_le (s : ℚ) : (S.turns.filterMap Turn.arrival).countP
      (fun a => s ≤ a ∧ a < s + Ingestion.RATE_LIMIT_WINDOW_MS) ≤ S.slots s + 1 := by
  refine (countP_arrival_le S.acquired S.sent S.ordered).trans ?_
  rw [slots]
  split_ifs <;> omega

end Sending

namespace Meeting

variable {limitPerWindow : ℕ+} (M : Meeting .exact limitPerWindow)

/-- A minute of the receiver is an interval of the sender. -/
theorem countP_inMinute (m : ℤ) : M.history.calls.countP (Ingestion.inMinute M.key m) =
    (M.turns.filterMap Turn.arrival).countP fun a =>
      m * Ingestion.RATE_LIMIT_WINDOW_MS - M.offset ≤ a ∧
        a < m * Ingestion.RATE_LIMIT_WINDOW_MS - M.offset + Ingestion.RATE_LIMIT_WINDOW_MS := by
  rw [← Ingestion.countP_times, M.calls, List.countP_map]
  refine List.countP_congr fun a _ => ?_
  have hindex := index_eq_iff (t := a + M.offset) Ingestion.window_pos (k := m)
  rw [add_mul, one_mul] at hindex
  simp only [Function.comp_apply, decide_eq_true_eq, hindex]
  constructor
  · exact fun h => ⟨by linarith [h.1], by linarith [h.2]⟩
  · exact fun h => ⟨by linarith [h.1], by linarith [h.2]⟩

theorem countP_le (m : ℤ) :
    M.history.calls.countP (Ingestion.inMinute M.key m) ≤ 2 * limitPerWindow + 1 := by
  rw [M.countP_inMinute]
  exact (M.arrivals_le _).trans (Nat.add_le_add_right (M.slots_le_two _) 1)

theorem countP_le_aligned {k : ℤ} (h : M.offset = k * Ingestion.RATE_LIMIT_WINDOW_MS) (m : ℤ) :
    M.history.calls.countP (Ingestion.inMinute M.key m) ≤ limitPerWindow + 1 := by
  have hstart : m * Ingestion.RATE_LIMIT_WINDOW_MS - M.offset =
      ((m - k : ℤ) : ℚ) * Ingestion.RATE_LIMIT_WINDOW_MS := by
    rw [h]
    push_cast
    ring
  rw [M.countP_inMinute, hstart]
  exact (M.arrivals_le _).trans (Nat.add_le_add_right (M.slots_le_one _) 1)

/-- A limit that no minute exceeds refuses nothing. -/
theorem allowed {limit : ℕ} (hlimit : 1 ≤ limit)
    (h : ∀ m, M.history.calls.countP (Ingestion.inMinute M.key m) ≤ limit) :
    ∀ x ∈ M.history.results limit, x.1.key = M.key → x.2.allowed = true := by
  intro x hx hkey
  have hmem : x.2.allowed ∈ M.history.decisions limit M.key (Ingestion.minute x.1.time) :=
    List.mem_map_of_mem (List.mem_filter.mpr ⟨hx, by simp [Ingestion.inMinute, hkey]⟩)
  rw [Ingestion.decisions_eq hlimit, Nat.sub_eq_zero_of_le (h _), List.replicate_zero,
    List.append_nil] at hmem
  exact (List.mem_replicate.mp hmem).2

end Meeting

/-! ### In doubles -/

/-- Whole milliseconds, not beyond the whole numbers that are doubles. -/
def WholeMs (config : ThrottleConfig) (t : ℚ) : Prop :=
  ∃ (n : ℤ) (w : ℕ), t = n ∧ config.windowMs = w ∧ |n| + 2 * w ≤ 2 ^ 53

section Doubles

variable {config : ThrottleConfig} (D : NearestDoubles)

/-- **Nothing is rounded** that matters, at whole milliseconds. -/
theorem tryAcquire_int {n : ℤ} {w : ℕ} (hw : config.windowMs = w) (hsmall : |n| + w ≤ 2 ^ 53)
    (throttle : FixedWindowThrottle) :
    tryAcquire D.toDoubles config throttle n = tryAcquire .exact config throttle n := by
  have hpos : (0 : ℚ) < w := hw ▸ config.windowMs_pos
  obtain ⟨hle, hlt⟩ := (index_eq_iff (t := (n : ℚ)) hpos).mp rfl
  have hfloor := D.floor_round_div (by exact_mod_cast hpos) hsmall
  rw [index] at hle hlt
  set k := ⌊(n : ℚ) / w⌋ with hk
  have hle' : k * w ≤ n := by exact_mod_cast hle
  have hlt' : n < k * w + w := by
    rw [← add_one_mul]
    exact_mod_cast hlt
  have habs := abs_le.mp (le_refl |n|)
  have hstart : D.round ((k : ℚ) * w) = k * w := by
    exact_mod_cast D.round_int (k * w) (abs_le.mpr ⟨by omega, by omega⟩)
  have hnext : D.round ((k : ℚ) * w + w) = k * w + w := by
    exact_mod_cast D.round_int (k * w + w) (abs_le.mpr ⟨by omega, by omega⟩)
  have hwait : D.round ((k : ℚ) * w + w - n) = k * w + w - n := by
    exact_mod_cast D.round_int (k * w + w - n) (abs_le.mpr ⟨by omega, by omega⟩)
  unfold tryAcquire
  simp only [Doubles.exact_round, hw, hfloor, ← hk, hstart, hnext, hwait]

theorem tryAcquire_whole {t : ℚ} (h : WholeMs config t) (throttle : FixedWindowThrottle) :
    tryAcquire D.toDoubles config throttle t = tryAcquire .exact config throttle t := by
  obtain ⟨n, w, rfl, hw, hsmall⟩ := h
  exact tryAcquire_int D hw (by omega) throttle

theorem results_whole {actions : List Action} (h : ∀ a ∈ actions, WholeMs config a.time)
    (throttle : FixedWindowThrottle) :
    results D.toDoubles config throttle actions = results .exact config throttle actions := by
  induction actions generalizing throttle with
  | nil => rfl
  | cons a rest ih =>
    have hrest := ih fun b hb => h b (List.mem_cons_of_mem _ hb)
    cases a with
    | tryAcquire t =>
      have hcall : WholeMs config t := h (.tryAcquire t) List.mem_cons_self
      rw [results_tryAcquire, tryAcquire_whole D hcall, hrest, results_tryAcquire]
    | restart t => rw [results, hrest, results]

/-- The next window begins at a whole millisecond, too. -/
theorem tryAcquire_wait_whole {t : ℚ} (h : WholeMs config t) (throttle : FixedWindowThrottle)
    (hwait : (tryAcquire D.toDoubles config throttle t).1 ≠ 0) :
    (0 < (tryAcquire D.toDoubles config throttle t).1 ∧
        (tryAcquire D.toDoubles config throttle t).1 ≤ config.windowMs) ∧
      (tryAcquire D.toDoubles config (tryAcquire D.toDoubles config throttle t).2
        (t + (tryAcquire D.toDoubles config throttle t).1)).1 = 0 := by
  rw [tryAcquire_whole D h] at hwait ⊢
  obtain ⟨hbounds, hzero⟩ := tryAcquire_wait throttle t hwait
  refine ⟨hbounds, ?_⟩
  obtain ⟨n, w, rfl, hw, hsmall⟩ := h
  have hpos : (0 : ℚ) < w := hw ▸ config.windowMs_pos
  obtain ⟨hle, hlt⟩ := (index_eq_iff (t := (n : ℚ)) hpos).mp rfl
  set k := index (w : ℚ) n with hk
  have hle' : k * w ≤ n := by exact_mod_cast hle
  have hlt' : n < k * w + w := by
    rw [← add_one_mul]
    exact_mod_cast hlt
  have habs := abs_le.mp (le_refl |n|)
  have hstart : start (w : ℚ) n = k * w := rfl
  have hnext : (n : ℚ) + (tryAcquire .exact config throttle n).1 = ((k * w + w : ℤ) : ℚ) := by
    rw [tryAcquire_of_wait hwait, hw, hstart]
    push_cast
    ring
  have hnear : |k * w + w| ≤ |n| + w := abs_le.mpr ⟨by omega, by omega⟩
  rw [hnext] at hzero ⊢
  rw [tryAcquire_int D hw (by omega), hzero]

end Doubles

/-- A timeline of whole milliseconds. -/
structure WholeTimeline (config : ThrottleConfig) extends Timeline where
  whole : ∀ a ∈ actions, WholeMs config a.time

/-- A sender whose clock counts whole milliseconds. -/
structure WholeMeeting (D : NearestDoubles) (limitPerWindow : ℕ+) extends
    Meeting D.toDoubles limitPerWindow where
  whole : ∀ x ∈ turns, WholeMs (minuteThrottle limitPerWindow) x.time

def WholeMeeting.exact {D : NearestDoubles} {limitPerWindow : ℕ+}
    (M : WholeMeeting D limitPerWindow) : Meeting .exact limitPerWindow :=
  { M with
    throttled := by
      refine (results_whole D ?_ _).symm.trans M.throttled
      intro a ha
      obtain ⟨x, hx, rfl⟩ := List.mem_map.mp ha
      exact M.whole x hx }

/-- What the throttle guarantees on a timeline. -/
structure ThrottleBounds (D : Doubles) (config : ThrottleConfig) (R : Timeline) : Prop where
  restarted : ∀ k, acquired config k (R.results D config) ≤
    (restarts config k R.actions + 1) * config.limitPerWindow
  window : (∀ a ∈ R.actions, a.isRestart = false) →
    ∀ k, acquired config k (R.results D config) ≤ config.limitPerWindow
  interval : (∀ a ∈ R.actions, a.isRestart = false) →
    ∀ s, acquiredFrom config s (R.results D config) ≤ 2 * config.limitPerWindow
  wait : ∀ throttle t, WholeMs config t → (tryAcquire D config throttle t).1 ≠ 0 →
    (0 < (tryAcquire D config throttle t).1 ∧
        (tryAcquire D config throttle t).1 ≤ config.windowMs) ∧
      (tryAcquire D config (tryAcquire D config throttle t).2
        (t + (tryAcquire D config throttle t).1)).1 = 0

/-- What the receiver's minutes see, when at most `bound` requests of the key come in each. -/
structure WithinBound {D : Doubles} {limitPerWindow : ℕ+} (M : Meeting D limitPerWindow)
    (bound : ℕ) : Prop where
  seen : ∀ m, M.history.calls.countP (Ingestion.inMinute M.key m) ≤ bound
  never_limited : ∀ limit, bound ≤ limit →
    ∀ x ∈ M.history.results limit, x.1.key = M.key → x.2.allowed = true

/-- **The throttle keeps its bounds** at whole milliseconds, and a receiver whose limit is one
above them never refuses its sender. -/
theorem throttle_bounds (D : NearestDoubles) :
    (∀ config (R : WholeTimeline config), ThrottleBounds D.toDoubles config R.toTimeline) ∧
    ∀ (limitPerWindow : ℕ+) (M : WholeMeeting D limitPerWindow),
      ((∃ k : ℤ, M.offset = k * Ingestion.RATE_LIMIT_WINDOW_MS) →
        WithinBound M.toMeeting (limitPerWindow + 1)) ∧
      WithinBound M.toMeeting (2 * limitPerWindow + 1) := by
  refine ⟨fun config R => ?_, fun limitPerWindow M => ⟨?_, ?_⟩⟩
  · have hresults : R.results D.toDoubles config = R.results .exact config :=
      results_whole D R.whole _
    constructor
    case restarted =>
      rw [hresults]
      exact R.acquired_le config
    case window =>
      intro hrestart k
      have hnone : restarts config k R.actions = 0 :=
        List.countP_eq_zero.mpr fun a ha => by simp [hrestart a ha]
      have hle := R.acquired_le config k
      rwa [hnone, Nat.zero_add, Nat.one_mul, ← hresults] at hle
    case interval =>
      rw [hresults]
      exact R.acquiredFrom_le config
    case wait => exact fun throttle t h => tryAcquire_wait_whole D h throttle
  · rintro ⟨k, hk⟩
    exact ⟨M.exact.countP_le_aligned hk, fun limit hlimit =>
      M.exact.allowed (by omega) fun m => (M.exact.countP_le_aligned hk m).trans hlimit⟩
  · exact ⟨M.exact.countP_le, fun limit hlimit =>
      M.exact.allowed (by omega) fun m => (M.exact.countP_le m).trans hlimit⟩

/-! ### A window of 1153.9 ms -/

/-- The double nearest to 1153.9. -/
def fractionalConfig : ThrottleConfig := ⟨1, 2537452934581453 / 2 ^ 41, by norm_num⟩

/-- Two calls at one time. -/
def twice : Timeline := ⟨[.tryAcquire 69234, .tryAcquire 69234], by simp⟩

/-- The beginning of the window, its end and the wait, each rounded: the wait comes out as zero. -/
theorem tryAcquire_fractional (throttle : FixedWindowThrottle) :
    (tryAcquire nearestDoubles.toDoubles fractionalConfig throttle 69234).1 = 0 := by
  have hdiv : nearestDoubles.round (69234 / (2537452934581453 / 2 ^ 41)) =
      (60 * 2 ^ 47 - 1 : ℤ) / 2 ^ 47 :=
    nearestDoubles_round_eq (k := 5) (by decide) (by norm_num) (by norm_num)
      (by rw [abs_lt]; constructor <;> norm_num)
  have hfloor : ⌊(((60 * 2 ^ 47 - 1 : ℤ) : ℚ)) / 2 ^ 47⌋ = 59 := by
    rw [Int.floor_eq_iff]
    constructor <;> norm_num
  have hstart : nearestDoubles.round (59 * (2537452934581453 / 2 ^ 41)) =
      4678428848134554 / 2 ^ 36 :=
    nearestDoubles_round_eq (k := 16) (m := 4678428848134554) (by decide) (by norm_num)
      (by norm_num) (by rw [abs_lt]; constructor <;> norm_num)
  have hnext : nearestDoubles.round (4678428848134554 / 2 ^ 36 + 2537452934581453 / 2 ^ 41) =
      69234 :=
    (nearestDoubles_round_eq (k := 16) (m := 69234 * 2 ^ 36) (by decide) (by norm_num)
      (by norm_num) (by rw [abs_lt]; constructor <;> norm_num)).trans (by norm_num)
  have hzero : nearestDoubles.round (69234 - 69234) = 0 := by
    rw [sub_self]
    exact_mod_cast nearestDoubles.round_int 0 (by decide)
  unfold tryAcquire
  simp only [fractionalConfig, hdiv, hfloor, Int.cast_ofNat, hstart, hnext, hzero]
  split_ifs <;> rfl

/-- **A window of 1153.9 ms lets two calls through**, with a limit of one: its end is rounded down
to the time of the calls. -/
theorem unlimited_window : IsDouble fractionalConfig.windowMs ∧
    (∀ a ∈ twice.actions, a.isRestart = false) ∧
    ¬acquired fractionalConfig 59 (twice.results nearestDoubles.toDoubles fractionalConfig) ≤
      fractionalConfig.limitPerWindow := by
  have hresults : twice.results nearestDoubles.toDoubles fractionalConfig =
      [(69234, 0), (69234, 0)] := by
    rw [Timeline.results, twice, results_tryAcquire, results_tryAcquire, tryAcquire_fractional,
      tryAcquire_fractional, results]
  have hindex : index fractionalConfig.windowMs 69234 = 59 := by
    rw [index_eq_iff fractionalConfig.windowMs_pos, fractionalConfig]
    constructor <;> norm_num
  refine ⟨isDouble_div_two_pow (m := 2537452934581453) (by decide) (by decide),
    by simp [twice, Action.isRestart], ?_⟩
  rw [hresults, acquired, List.countP_cons, List.countP_singleton, hindex]
  decide

end Sender
