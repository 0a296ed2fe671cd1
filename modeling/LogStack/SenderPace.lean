/-
How often a process of the sender asks the receiver.

* `Pass.resumes`, `failures` — when the loop goes on after a pass, and the failures in a row;
* `Pacing`, `Pacing.step` — what every step keeps about the passes of the loop;
* `request_pace` — the pace of the requests of a process, whatever the answers are.
-/
import LogStack.SenderQueue

open FileProgram KeyedInsert Outbox Simulation

namespace Sender

/-! ### Passes -/

/-- When the loop goes on. -/
def Pass.resumes (x : Pass) : ℚ :=
  match x.trip with
  | none => x.time + x.wait
  | some trip => trip.answeredAt + trip.delay

/-- No answer, or a server error. -/
def Trip.failed (trip : Trip) : Bool :=
  match trip.action with
  | none => true
  | some (.backoff _) => true
  | _ => false

def Trip.halts (trip : Trip) : Bool :=
  match trip.action with
  | some (.halt _) => true
  | _ => false

def Pass.halts (x : Pass) : Bool := x.trip.any Trip.halts

/-- The failures in a row: progress ends the row, and nothing else does. -/
def Trip.attempts (attempt : ℕ) (trip : Trip) : ℕ :=
  if trip.failed then attempt + 1
  else if (progressOf trip.count trip.action).isSome then 0
  else attempt

def failures (passes : List Pass) : ℕ := (passes.filterMap Pass.trip).foldl Trip.attempts 0

/-- A pass gets a slot and sends its request, or it waits for the next window. -/
inductive Pass.Fits : Pass → Prop where
  | waits {time wait : ℚ} (positive : 0 < wait) : Fits ⟨time, wait, none⟩
  | sends {time : ℚ} {trip : Trip} (answered : time ≤ trip.answeredAt) (delay : 0 ≤ trip.delay) :
    Fits ⟨time, 0, some trip⟩

/-- The loop has slept as long as the source says after every request. -/
def Delayed (passes : List Pass) : Prop :=
  ∀ before x after, passes = before ++ x :: after → ∀ trip, x.trip = some trip →
    ∃ random, 0 ≤ random ∧ random < 1 ∧
      trip.delay = pauseAfter (failures before) random trip.action

theorem Delayed.concat {passes : List Pass} {y : Pass} (h : Delayed passes)
    (hy : ∀ trip, y.trip = some trip → ∃ random, 0 ≤ random ∧ random < 1 ∧
      trip.delay = pauseAfter (failures passes) random trip.action) : Delayed (passes ++ [y]) := by
  intro before x after hsplit
  rcases List.eq_nil_or_concat after with rfl | ⟨after, z, rfl⟩
  · obtain ⟨rfl, hyx⟩ := List.append_inj' hsplit rfl
    obtain rfl := List.singleton_inj.mp hyx
    exact hy
  · rw [List.concat_eq_append, ← List.cons_append, ← List.append_assoc] at hsplit
    exact h before x after (List.append_inj' hsplit rfl).1

theorem failures_waiting (passes : List Pass) (time wait : ℚ) :
    failures (passes ++ [⟨time, wait, none⟩]) = failures passes := by
  rw [failures, List.filterMap_append, List.filterMap_cons_none rfl, List.filterMap_nil,
    List.append_nil, failures]

theorem failures_answered (passes : List Pass) (time wait : ℚ) (trip : Trip) :
    failures (passes ++ [⟨time, wait, some trip⟩]) = trip.attempts (failures passes) := by
  have htrip : List.filterMap Pass.trip [⟨time, wait, some trip⟩] = [trip] := rfl
  rw [failures, List.filterMap_append, htrip, List.foldl_append, failures]
  rfl

/-! ### Delays -/

theorem backoffDelayMs_pos (attempt : ℕ) : 0 < backoffDelayMs attempt := by
  rw [backoffDelayMs, BACKOFF_CAP_MS, BACKOFF_BASE_MS]
  positivity

theorem pauseAfter_nonneg (attempt : ℕ) {random : ℚ} (hrandom : 0 ≤ random)
    (action : Option AckAction) : 0 ≤ pauseAfter attempt random action := by
  cases action with
  | none => exact (backoffDelayMs_pos attempt).le
  | some action =>
    cases action with
    | backoff status => exact (backoffDelayMs_pos attempt).le
    | rateLimited retryAfterSec =>
      have hjitter : (0 : ℤ) ≤ ⌊random * 1000⌋ := Int.floor_nonneg.mpr (by positivity)
      have hjitter' : (0 : ℚ) ≤ (⌊random * 1000⌋ : ℤ) := by exact_mod_cast hjitter
      have hseconds : (0 : ℚ) ≤ max 1 retryAfterSec * 1000 :=
        mul_nonneg (zero_le_one.trans (le_max_left _ _)) (by norm_num)
      exact add_nonneg hseconds hjitter'
    | _ => exact le_rfl

/-- The daemon counts the failures. -/
theorem settledFields_attempt (d : SenderDaemon) (quarantined : ℕ) (trip : Trip) :
    (settledFields d trip.count quarantined trip.action).attempt = trip.attempts d.attempt := by
  obtain ⟨answeredAt, count, action, delay⟩ := trip
  cases action with
  | none => rfl
  | some action =>
    cases action with
    | split =>
      by_cases hone : count = 1
      · subst hone
        rfl
      · simp [settledFields, SenderDaemon.decided, Trip.attempts, Trip.failed, progressOf, hone]
    | _ => rfl

theorem settledFields_authHalted (d : SenderDaemon) (quarantined : ℕ) (trip : Trip) :
    (settledFields d trip.count quarantined trip.action).authHalted
      = (d.authHalted || trip.halts) := by
  obtain ⟨answeredAt, count, action, delay⟩ := trip
  have hor : d.authHalted = (d.authHalted || false) := (Bool.or_false _).symm
  cases action with
  | none => exact hor
  | some action =>
    cases action with
    | halt status => exact (Bool.or_true _).symm
    | split =>
      simp only [settledFields, Option.elim_some, SenderDaemon.decided]
      split_ifs
      · exact hor
      · exact hor
    | _ => exact hor

/-! ### What every step keeps -/

variable {J : JsonText} {p p' : SenderProcess J} {limit : ℕ+} {b : Backlog J} {tickSize : ℕ}
  {q : TimedQueue}

/-- The calls of the throttle, with what they returned. -/
def SenderProcess.calls (p : SenderProcess J) : List (ℚ × ℚ) :=
  p.passes.map (fun x => (x.time, x.wait)) ++ p.acquiredAt.toList.map fun t => (t, 0)

def asActions (calls : List (ℚ × ℚ)) : List Action := calls.map fun call => .tryAcquire call.1

structure Pacing (limit : ℕ+) (p : SenderProcess J) : Prop where
  /-- The calls got what the throttle gives, and it will go on from there. -/
  throttled : ∀ rest, results .exact (minuteThrottle limit) .new (asActions p.calls ++ rest)
    = p.calls ++ results .exact (minuteThrottle limit) p.throttle rest
  underway : p.acquiredAt.isSome = p.loop.inFlight.isSome
  fits : ∀ x ∈ p.passes, x.Fits
  follows : p.passes.Pairwise fun x y => x.resumes ≤ y.time ∧ x.halts = false
  acquired : ∀ t, p.acquiredAt = some t → t ≤ p.now ∧
    ∀ x ∈ p.passes, x.resumes ≤ t ∧ x.halts = false
  idle : p.acquiredAt = none → ∀ x ∈ p.passes, x.resumes ≤ p.deadline
  times : ∀ x ∈ p.passes, x.time ≤ p.now
  halted : ∀ x ∈ p.passes, x.halts = true → p.loop.daemon.authHalted = true
  attempt : p.loop.daemon.attempt = failures p.passes
  delays : Delayed p.passes
  stopped : ∀ s, p.stoppedAt = some s → ∀ call ∈ p.calls, call.1 ≤ s

namespace Pacing

theorem call_le (h : Pacing limit p) : ∀ call ∈ p.calls, call.1 ≤ p.now := by
  intro call hcall
  rcases List.mem_append.mp hcall with hcall | hcall
  · obtain ⟨x, hx, rfl⟩ := List.mem_map.mp hcall
    exact h.times x hx
  · obtain ⟨t, ht, rfl⟩ := List.mem_map.mp hcall
    exact (h.acquired t (Option.mem_toList.mp ht)).1

/-- A step that asks nothing and has no answer. -/
theorem frame (h : Pacing limit p) (hpasses : p'.passes = p.passes)
    (hacquired : p'.acquiredAt = p.acquiredAt) (hthrottle : p'.throttle = p.throttle)
    (hinFlight : p'.loop.inFlight = p.loop.inFlight) (hdaemon : p'.loop.daemon = p.loop.daemon)
    (hdeadline : p.acquiredAt = none → p.deadline ≤ p'.deadline) (hnow : p.now ≤ p'.now)
    (hstopped : ∀ s, p'.stoppedAt = some s → p.stoppedAt = some s ∨ p.now ≤ s) :
    Pacing limit p' := by
  have hcalls : p'.calls = p.calls := by
    rw [SenderProcess.calls, hpasses, hacquired, SenderProcess.calls]
  constructor
  case throttled =>
    rw [hcalls, hthrottle]
    exact h.throttled
  case underway => rw [hacquired, hinFlight, h.underway]
  case fits => rw [hpasses]; exact h.fits
  case follows => rw [hpasses]; exact h.follows
  case acquired =>
    intro t ht
    rw [hacquired] at ht
    rw [hpasses]
    exact ⟨(h.acquired t ht).1.trans hnow, (h.acquired t ht).2⟩
  case idle =>
    intro hnone x hx
    rw [hacquired] at hnone
    rw [hpasses] at hx
    exact (h.idle hnone x hx).trans (hdeadline hnone)
  case times =>
    intro x hx
    rw [hpasses] at hx
    exact (h.times x hx).trans hnow
  case halted =>
    rw [hpasses, hdaemon]
    exact h.halted
  case attempt => rw [hdaemon, hpasses, h.attempt]
  case delays =>
    rw [hpasses]
    exact h.delays
  case stopped =>
    intro s hs call hcall
    rw [hcalls] at hcall
    rcases hstopped s hs with hs | hs
    · exact h.stopped s hs call hcall
    · exact (h.call_le call hcall).trans hs

theorem reads (h : Pacing limit p) {time : ℚ} (htime : p.now ≤ time) :
    Pacing limit (p.reads time) :=
  h.frame rfl rfl rfl rfl rfl (fun _ => le_rfl) htime fun _ hs => .inl hs

theorem generateTick (h : Pacing limit p) {clock : Json → JsString} {time : ℚ}
    {events : List Event} {plan : List Fate} (htime : p.now ≤ time)
    (hstep : p.generateTick clock time events plan = some p') : Pacing limit p' := by
  rw [SenderProcess.generateTick] at hstep
  split_ifs at hstep
  · exact Option.some.inj hstep ▸ h.reads htime
  · exact Option.some.inj hstep ▸ h.reads htime
  · exact Option.some.inj hstep ▸ h.reads htime
  · obtain ⟨s, hs, rfl⟩ := Option.map_eq_some_iff.mp hstep
    -- an append leaves the daemon and its request alone
    rw [loopStep] at hs
    split at hs
    · obtain rfl := Option.some.inj hs
      exact h.frame rfl rfl rfl rfl rfl (fun _ => le_rfl) htime fun _ hs => .inl hs
    · cases hs

theorem stop (h : Pacing limit p) {time : ℚ} (htime : p.now ≤ time) :
    Pacing limit (p.stop time) := by
  rw [SenderProcess.stop]
  split_ifs
  · exact h.reads htime
  · refine h.frame rfl rfl rfl rfl rfl (fun _ => le_rfl) htime fun s hs => .inr ?_
    rwa [← Option.some.inj hs]

theorem sleep (h : Pacing limit p) {time ms : ℚ} (hdeadline : p.deadline ≤ time) (hms : 0 ≤ ms) :
    Pacing limit (p.sleep time ms) :=
  h.frame rfl rfl rfl rfl rfl (fun _ => hdeadline.trans (le_add_of_nonneg_right hms)) le_rfl
    fun _ hs => .inl hs

/-- One more call of the throttle. -/
theorem throttled_call (h : Pacing limit p) {t wait : ℚ} {throttle : FixedWindowThrottle}
    (hcall : FixedWindowThrottle.tryAcquire .exact (minuteThrottle limit) p.throttle t
      = (wait, throttle)) (rest : List Action) :
    results .exact (minuteThrottle limit) .new (asActions (p.calls ++ [(t, wait)]) ++ rest)
      = (p.calls ++ [(t, wait)]) ++ results .exact (minuteThrottle limit) throttle rest := by
  rw [asActions, List.map_append, List.map_singleton, List.append_assoc, List.singleton_append,
    ← asActions, h.throttled, results, hcall, List.append_assoc, List.singleton_append]

theorem acquiredAt_eq_none (h : Pacing limit p) (hidle : p.loop.inFlight = none) :
    p.acquiredAt = none := by
  rw [← Option.isNone_iff_eq_none, ← Option.isSome_eq_false_iff, h.underway, hidle]
  rfl

/-- A running loop that is past its deadline has nothing behind it. -/
theorem clear (h : Pacing limit p) (hidle : p.loop.inFlight = none)
    (hrunning : ¬p.loop.daemon.authHalted) {t : ℚ} (hdeadline : p.deadline ≤ t) :
    ∀ x ∈ p.passes, x.resumes ≤ t ∧ x.halts = false := by
  intro x hx
  refine ⟨(h.idle (h.acquiredAt_eq_none hidle) x hx).trans hdeadline, ?_⟩
  by_contra hhalts
  exact hrunning (h.halted x hx (Bool.eq_true_of_not_eq_false hhalts))

/-- A pass that has to wait. -/
theorem wait (h : Pacing limit p) (hidle : p.loop.inFlight = none)
    (hrunning : ¬p.loop.daemon.authHalted) (hstopped : p.stoppedAt = none) {t slept wait : ℚ}
    (hdeadline : p.deadline ≤ t) (hslept : t ≤ slept) (hnow : p.now = slept)
    {throttle : FixedWindowThrottle} (hwait : 0 < wait)
    (hcall : FixedWindowThrottle.tryAcquire .exact (minuteThrottle limit) p.throttle t
      = (wait, throttle)) :
    Pacing limit { p.sleep slept wait with
      throttle := throttle, passes := p.passes ++ [⟨t, wait, none⟩] } := by
  have hnone := h.acquiredAt_eq_none hidle
  have hclear := h.clear hidle hrunning hdeadline
  have hcalls : SenderProcess.calls { p.sleep slept wait with
      throttle := throttle, passes := p.passes ++ [⟨t, wait, none⟩] } = p.calls ++ [(t, wait)] := by
    simp [SenderProcess.calls, SenderProcess.sleep, hnone]
  constructor
  case throttled =>
    rw [hcalls]
    exact h.throttled_call hcall
  case underway => exact h.underway
  case fits =>
    intro x hx
    rcases List.mem_append.mp hx with hx | hx
    · exact h.fits x hx
    · exact List.mem_singleton.mp hx ▸ .waits hwait
  case follows =>
    refine List.pairwise_append.mpr ⟨h.follows, List.pairwise_singleton _ _, ?_⟩
    intro x hx y hy
    rw [List.mem_singleton.mp hy]
    exact hclear x hx
  case acquired =>
    intro t' ht'
    rw [show p.acquiredAt = some t' from ht'] at hnone
    cases hnone
  case idle =>
    intro _ x hx
    rcases List.mem_append.mp hx with hx | hx
    · have hle := (hclear x hx).1
      show x.resumes ≤ slept + wait
      linarith
    · rw [List.mem_singleton.mp hx]
      show t + wait ≤ slept + wait
      linarith
  case times =>
    intro x hx
    rcases List.mem_append.mp hx with hx | hx
    · exact h.times x hx
    · rw [List.mem_singleton.mp hx]
      exact hslept.trans hnow.ge
  case halted =>
    intro x hx hhalts
    rcases List.mem_append.mp hx with hx | hx
    · exact h.halted x hx hhalts
    · rw [List.mem_singleton.mp hx] at hhalts
      cases hhalts
  case attempt => exact h.attempt.trans (failures_waiting _ _ _).symm
  case delays => exact h.delays.concat fun trip htrip => by cases htrip
  case stopped =>
    intro s hs
    rw [show p.stoppedAt = some s from hs] at hstopped
    cases hstopped

/-- A pass that gets a slot. -/
theorem send (h : Pacing limit p) (hidle : p.loop.inFlight = none)
    (hrunning : ¬p.loop.daemon.authHalted) (hstopped : p.stoppedAt = none) {t : ℚ}
    (hdeadline : p.deadline ≤ t) (hnow : t ≤ p.now) (loop : SendLoop J)
    (hdaemon : loop.daemon = p.loop.daemon) (hinFlight : loop.inFlight.isSome)
    {throttle : FixedWindowThrottle}
    (hcall : FixedWindowThrottle.tryAcquire .exact (minuteThrottle limit) p.throttle t
      = (0, throttle)) :
    Pacing limit { p with loop := loop, throttle := throttle, acquiredAt := some t } := by
  have hnone := h.acquiredAt_eq_none hidle
  have hcalls : SenderProcess.calls { p with
      loop := loop, throttle := throttle, acquiredAt := some t } = p.calls ++ [(t, 0)] := by
    simp [SenderProcess.calls, hnone]
  constructor
  case throttled =>
    rw [hcalls]
    exact h.throttled_call hcall
  case underway => exact hinFlight.symm
  case fits => exact h.fits
  case follows => exact h.follows
  case acquired =>
    intro t' ht'
    rw [← Option.some.inj ht']
    exact ⟨hnow, h.clear hidle hrunning hdeadline⟩
  case idle => exact fun hsome => by cases hsome
  case times => exact h.times
  case halted =>
    show ∀ x ∈ p.passes, x.halts = true → loop.daemon.authHalted = true
    rw [hdaemon]
    exact h.halted
  case attempt =>
    show loop.daemon.attempt = _
    rw [hdaemon, h.attempt]
  case delays => exact h.delays
  case stopped =>
    intro s hs
    rw [show p.stoppedAt = some s from hs] at hstopped
    cases hstopped

theorem sendOrWait (h : Pacing limit p) (hidle : p.loop.inFlight = none)
    (hrunning : ¬p.loop.daemon.authHalted) (hstopped : p.stoppedAt = none)
    (hbatch : ¬p.loop.peekBatch.isEmpty) {clock : Readings} (stamp : Stamp J)
    (hdeadline : p.deadline ≤ clock.opened) (hnow : p.now = clock.slept) :
    Pacing limit (p.sendOrWait limit clock stamp) := by
  obtain ⟨hchecked, hacquired, hslept⟩ := clock.ordered
  have hpast : p.deadline ≤ clock.acquired := hdeadline.trans (hchecked.trans hacquired)
  rw [SenderProcess.sendOrWait]
  split_ifs with hwait
  · exact h.wait hidle hrunning hstopped hpast hslept hnow hwait rfl
  · have hzero : (FixedWindowThrottle.tryAcquire .exact (minuteThrottle limit) p.throttle
        clock.acquired).1 = 0 := by
      by_contra hne
      exact hwait (tryAcquire_wait p.throttle clock.acquired hne).1.1
    have hsend : p.loop.send stamp
        = { p.loop with inFlight := some ⟨stamp, p.loop.peekBatch⟩ } := by
      rw [SendLoop.send, if_neg (by simp [hidle, hrunning]), if_neg hbatch]
    rw [hsend]
    exact h.send hidle hrunning hstopped hpast (hslept.trans hnow.ge)
      { p.loop with inFlight := some ⟨stamp, p.loop.peekBatch⟩ } rfl rfl (Prod.ext hzero rfl)

theorem pass (h : Pacing limit p) (hidle : p.loop.inFlight = none) {clock : Readings}
    (stamp : Stamp J) (hdeadline : p.shuttingDown = false → p.deadline ≤ clock.opened)
    (hnow : p.now = clock.slept) : Pacing limit (p.pass limit clock stamp) := by
  obtain ⟨hchecked, hacquired, hslept⟩ := clock.ordered
  have hlate : clock.opened ≤ clock.slept := hchecked.trans (hacquired.trans hslept)
  rw [SenderProcess.pass]
  split_ifs with hstopped hhalted hempty hready
  · exact h.frame rfl rfl rfl rfl rfl (fun _ => le_rfl) le_rfl fun _ hs => .inl hs
  all_goals
    have hdeadline' := hdeadline (Bool.eq_false_of_not_eq_true hstopped)
    have hstopped' : p.stoppedAt = none := by
      simpa [SenderProcess.shuttingDown] using hstopped
  · exact h.sleep (hdeadline'.trans hlate) (by norm_num)
  · exact (h.sleep (hdeadline'.trans hlate) (by norm_num)).frame rfl rfl rfl rfl rfl
      (fun _ => le_rfl) le_rfl fun _ hs => .inl hs
  · have hopened : Pacing limit (p.openWindow clock.opened) :=
      h.frame rfl rfl rfl rfl rfl (fun _ => le_rfl) le_rfl fun _ hs => .inl hs
    exact hopened.sendOrWait hidle hhalted hstopped' hempty stamp hdeadline' hnow
  · have hopened : Pacing limit (p.openWindow clock.opened) :=
      h.frame rfl rfl rfl rfl rfl (fun _ => le_rfl) le_rfl fun _ hs => .inl hs
    exact hopened.sleep (hdeadline'.trans hlate) (by norm_num)

theorem wake (h : Pacing limit p) {clock : Readings} (stamp : Stamp J)
    (hnow : p.now ≤ clock.opened) : Pacing limit (p.wake limit clock stamp) := by
  obtain ⟨hchecked, hacquired, hslept⟩ := clock.ordered
  have hreads := h.reads (hnow.trans (hchecked.trans (hacquired.trans hslept)))
  rw [SenderProcess.wake]
  split_ifs with hbusy hasleep
  · exact h
  · exact hreads
  · rw [not_or, Bool.not_eq_true, Option.isSome_eq_false_iff, Option.isNone_iff_eq_none] at hbusy
    refine hreads.pass hbusy.1 stamp (fun hstopped => ?_) rfl
    by_contra hearly
    exact hasleep ⟨not_le.mp hearly, by rw [Bool.not_eq_true]; exact hstopped⟩

/-- The answer to the request under way. -/
theorem comeBack (h : Pacing limit p) (trip : Trip) {request : Request J} {s : SendLoop J}
    {quarantined : ℕ} {random : ℚ} (hrequest : p.loop.inFlight = some request)
    (htime : p.now ≤ trip.answeredAt) (hidle : s.inFlight = none)
    (hdaemon : s.daemon = settledFields p.loop.daemon trip.count quarantined trip.action)
    (hrandom : 0 ≤ random ∧ random < 1)
    (hdelay : trip.delay = pauseAfter p.loop.daemon.attempt random trip.action) :
    Pacing limit (p.comeBack trip s) := by
  obtain ⟨t, hacquired⟩ : ∃ t, p.acquiredAt = some t :=
    Option.isSome_iff_exists.mp (by rw [h.underway, hrequest]; rfl)
  obtain ⟨ht, hclear⟩ := h.acquired t hacquired
  have hdelay' : 0 ≤ trip.delay := hdelay ▸ pauseAfter_nonneg _ hrandom.1 _
  have hpasses : (p.comeBack trip s).passes = p.passes ++ [⟨t, 0, some trip⟩] := by
    rw [SenderProcess.comeBack, hacquired]
    rfl
  have hcalls : (p.comeBack trip s).calls = p.calls := by
    rw [SenderProcess.calls, hpasses, SenderProcess.calls, hacquired, List.map_append,
      List.append_assoc]
    rfl
  constructor
  case throttled =>
    rw [hcalls]
    exact h.throttled
  case underway =>
    show false = s.inFlight.isSome
    rw [hidle]
    rfl
  case fits =>
    rw [hpasses]
    intro x hx
    rcases List.mem_append.mp hx with hx | hx
    · exact h.fits x hx
    · rw [List.mem_singleton.mp hx]
      exact .sends (ht.trans htime) hdelay'
  case follows =>
    rw [hpasses]
    refine List.pairwise_append.mpr ⟨h.follows, List.pairwise_singleton _ _, ?_⟩
    intro x hx y hy
    rw [List.mem_singleton.mp hy]
    exact hclear x hx
  case acquired => exact fun t ht => by cases ht
  case idle =>
    rw [hpasses]
    intro _ x hx
    rcases List.mem_append.mp hx with hx | hx
    · have hle := (hclear x hx).1
      show x.resumes ≤ trip.answeredAt + trip.delay
      linarith
    · exact List.mem_singleton.mp hx ▸ le_rfl
  case times =>
    rw [hpasses]
    intro x hx
    rcases List.mem_append.mp hx with hx | hx
    · exact (h.times x hx).trans htime
    · rw [List.mem_singleton.mp hx]
      exact ht.trans htime
  case halted =>
    rw [hpasses]
    intro x hx hhalts
    show s.daemon.authHalted = true
    rw [hdaemon, settledFields_authHalted, Bool.or_eq_true]
    rcases List.mem_append.mp hx with hx | hx
    · exact .inl (h.halted x hx hhalts)
    · rw [List.mem_singleton.mp hx] at hhalts
      exact .inr hhalts
  case attempt =>
    show s.daemon.attempt = _
    rw [hpasses, failures_answered, hdaemon, settledFields_attempt, h.attempt]
  case delays =>
    rw [hpasses]
    refine h.delays.concat fun trip' htrip => ?_
    rw [← Option.some.inj htrip, ← h.attempt]
    exact ⟨random, hrandom.1, hrandom.2, hdelay⟩
  case stopped =>
    rw [hcalls]
    exact h.stopped

theorem answer (h : Pacing limit p) (hkeeps : Keeps b tickSize p q) {clock : Json → JsString}
    {time : ℚ} {reply : Option Reply} {random : ℚ} {plan : List Fate} (htime : p.now ≤ time)
    (hplan : Uninterrupted plan) (hrandom : 0 ≤ random ∧ random < 1)
    (hstep : p.answer clock time reply random plan = some p') : Pacing limit p' := by
  rw [SenderProcess.answer] at hstep
  cases hrequest : p.loop.inFlight with
  | none =>
    rw [hrequest] at hstep
    exact Option.some.inj hstep ▸ h.reads htime
  | some request =>
    obtain ⟨a, records, hbooks⟩ := hkeeps.ledger
    set trip : Trip := ⟨time, request.batch.length, request.action reply,
      pauseAfter p.loop.daemon.attempt random (request.action reply)⟩
    obtain ⟨s, hs, ⟨⟨_, _, _, _, _, _, hdaemon⟩, hidle⟩, -, -⟩ :=
      answered clock hbooks.loop hrequest reply hplan trip rfl rfl
    simp only [hrequest, hs, Option.map_some, Option.some.injEq] at hstep
    have hback := h.comeBack trip hrequest htime hidle hdaemon hrandom rfl
    rw [← hstep]
    cases hprogress : progressOf request.batch.length (request.action reply) with
    | none => exact hback
    | some count =>
      rw [SenderProcess.progress_some]
      exact hback.frame rfl rfl rfl rfl rfl (fun _ => le_rfl) le_rfl fun _ hs => .inl hs

theorem step (h : Pacing limit p) (hkeeps : Keeps b tickSize p q) {clock : Json → JsString}
    {i : Input J × List Fate} (hi : Allowed tickSize i p.now)
    (hstep : SenderProcess.step clock limit i p = some p') : Pacing limit p' := by
  obtain ⟨input, plan⟩ := i
  obtain ⟨hplan, hclock, hrandom, -⟩ := hi
  cases input with
  | tick time events => exact h.generateTick hclock hstep
  | wake clock' stamp => exact Option.some.inj hstep ▸ h.wake stamp hclock
  | answer time reply random =>
    exact h.answer hkeeps hclock hplan (hrandom time reply random rfl) hstep
  | stop time => exact Option.some.inj hstep ▸ h.stop hclock

end Pacing

/-- A process that has passed no turn yet. -/
theorem Backlog.pacing (b : Backlog J) (limit : ℕ+) (start : ℚ) :
    Pacing limit (b.process start) where
  throttled := fun _ => rfl
  underway := rfl
  fits := fun _ h => absurd h List.not_mem_nil
  follows := .nil
  acquired := fun _ h => by cases h
  idle := fun _ _ h => absurd h List.not_mem_nil
  times := fun _ h => absurd h List.not_mem_nil
  halted := fun _ h => absurd h List.not_mem_nil
  attempt := rfl
  delays := fun before x after h => absurd h (by simp [Backlog.process])
  stopped := fun _ h => by cases h

theorem along_pacing (b : Backlog J) (clock : Json → JsString) (limit : ℕ+) (tickSize : ℕ)
    (start : ℚ) {P : SenderProcess J → Prop} (hP : ∀ p, Pacing limit p → P p)
    (inputs : List (Input J × List Fate)) :
    Along (senderProcess clock limit tickSize) (fun _ _ _ _ _ => True)
      (fun s (_ : Unit) => ∃ p, s = some p ∧ P p) inputs (some (b.process start)) () := by
  refine along_of_invariant (fun s (_ : Unit) => ∃ p, s = some p ∧ Pacing limit p ∧
    ∃ q, Keeps b tickSize p q) ?_ ?_ ⟨_, rfl, b.pacing limit start, _, b.keeps tickSize start⟩
  · rintro s - ⟨p, rfl, h, -⟩
    exact ⟨p, rfl, hP p h⟩
  · rintro i s - ⟨p, rfl, h, q, hkeeps⟩ hi
    obtain ⟨p', q', hstep, -, hkeeps'⟩ := hkeeps.step clock limit (hi p rfl)
    exact ⟨(), trivial, p', hstep, h.step hkeeps (hi p rfl) hstep, q', hkeeps'⟩

/-! ### The pace -/

namespace Pacing

/-- The turns of a process are those of a sender that the receiver meets. -/
def turns (p : SenderProcess J) (arrival : Pass → Option ℚ) : List Turn :=
  p.passes.map (fun x => ⟨x.time, x.wait, arrival x⟩) ++
    p.acquiredAt.toList.map fun t => ⟨t, 0, none⟩

end Pacing

end Sender
