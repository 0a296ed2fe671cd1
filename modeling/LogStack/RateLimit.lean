/-
The receiver's rate limit (`auth/rate-limit.store.ts`, `auth/rate-limit.guard.ts`) and the
sender's wait after a 429 (`sender/src/backoff.ts`).

Times are milliseconds. `Date.now()` gives integers; nothing here depends on it.

* `RateLimitStore.consume` — one call of a key;
* `consume_eq` — the call in terms of the key's counter;
* `run_key` — the decisions about one key are those of a fixed window;
* `rate_limit_exact` — every minute of a key has its first `limit` calls, and a sender that
  waits as it was told comes back in a later one.
-/
import LogStack.FixedWindow
import LogStack.JsText
import LogStack.Ack

open FixedWindow

namespace Ingestion

/-! ### The store -/

def RATE_LIMIT_WINDOW_MS : ℚ := 60000

structure ConsumeResult where
  allowed : Bool
  count : ℕ
  retryAfterSec : ℕ

/-- `windows`: the counter of every key that has called. -/
abbrev RateLimitStore := JsString → Option (Counter ℚ)

namespace RateLimitStore

def empty : RateLimitStore := fun _ => none

def consume (windows : RateLimitStore) (key : JsString) (limit : ℕ) (now : ℚ) :
    ConsumeResult × RateLimitStore :=
  let windowStart := ⌊now / RATE_LIMIT_WINDOW_MS⌋ * RATE_LIMIT_WINDOW_MS
  let newWindow : ConsumeResult × RateLimitStore :=
    (⟨true, 1, 0⟩, Function.update windows key (some ⟨windowStart, 1⟩))
  match windows key with
  | none => newWindow
  | some state =>
    if state.windowStart ≠ windowStart then newWindow
    else
      let count := state.count + 1
      let windows' := Function.update windows key (some ⟨windowStart, count⟩)
      if count ≤ limit then (⟨true, count, 0⟩, windows')
      else
        let retryAfterSec := max 1 ⌈(windowStart + RATE_LIMIT_WINDOW_MS - now) / 1000⌉
        (⟨false, count, retryAfterSec.toNat⟩, windows')

/-- The counter of a key; a key that has not called has counted nothing. -/
def window (windows : RateLimitStore) (key : JsString) : Counter ℚ :=
  (windows key).getD ⟨0, 0⟩

/-- The number of a call at `now` in its window. -/
def number (windows : RateLimitStore) (key : JsString) (now : ℚ) : ℕ :=
  (windows.window key).current RATE_LIMIT_WINDOW_MS now + 1

end RateLimitStore

/-! ### The guard -/

def DEFAULT_RATE_LIMIT_PER_MINUTE : ℕ := 120

/-- `RATE_LIMIT_PER_MINUTE`, when it is a positive integer. -/
def limitPerMinute (D : Doubles) (raw : Option JsString) : ℕ :=
  match raw.bind (JsString.toNumber D) with
  | some (.fin parsed) =>
    if parsed.den ≠ 1 ∨ parsed < 1 then DEFAULT_RATE_LIMIT_PER_MINUTE else parsed.num.toNat
  | _ => DEFAULT_RATE_LIMIT_PER_MINUTE

/-- The `Retry-After` header that the guard sets. -/
def retryAfterHeader (result : ConsumeResult) : Option JsString :=
  if result.allowed then none else some (decimal result.retryAfterSec)

theorem one_le_limitPerMinute (D : Doubles) (raw : Option JsString) : 1 ≤ limitPerMinute D raw := by
  unfold limitPerMinute
  split
  · rename_i parsed _
    split_ifs with h
    · decide
    · obtain ⟨hint, hone⟩ := not_or.mp h
      have hnum : ((1 : ℤ) : ℚ) ≤ (parsed.num : ℚ) := by
        rw [Rat.coe_int_num_of_den_eq_one (not_not.mp hint)]
        exact_mod_cast not_lt.mp hone
      have hpos : 1 ≤ parsed.num := Int.cast_le.mp hnum
      omega
  · decide

end Ingestion

namespace Sender

/-- `Number(retryAfterHeader)`, when it is finite; `Number(null)` is zero. -/
def retryAfterNumber (D : Doubles) (retryAfterHeader : Option JsString) : Option ℚ :=
  match retryAfterHeader with
  | none => some 0
  | some text =>
    match text.toNumber D with
    | some (.fin parsed) => some parsed
    | _ => none

def rateLimitedDelayMs (retryAfterSec random : ℚ) : ℚ :=
  max 1 retryAfterSec * 1000 + ⌊random * 1000⌋

end Sender

namespace Ingestion

/-! ### Runs -/

structure Call where
  key : JsString
  time : ℚ

/-- Calls at non-decreasing times. -/
structure History where
  calls : List Call
  ordered : calls.Pairwise fun a b => a.time ≤ b.time

/-- The results of calls, one after the other. -/
def run (limit : ℕ) : RateLimitStore → List Call → List (Call × ConsumeResult)
  | _, [] => []
  | windows, call :: rest =>
    let (result, windows') := windows.consume call.key limit call.time
    (call, result) :: run limit windows' rest

/-- The store after calls. -/
def after (limit : ℕ) (windows : RateLimitStore) (calls : List Call) : RateLimitStore :=
  calls.foldl (fun windows call => (windows.consume call.key limit call.time).2) windows

def minute (t : ℚ) : ℤ := index RATE_LIMIT_WINDOW_MS t

/-- The times at which a key calls. -/
def times (key : JsString) (calls : List Call) : List ℚ :=
  (calls.filter fun call => call.key = key).map Call.time

/-- What a refused call is told leads into the first second of the next minute. -/
structure Honest (t : ℚ) (retryAfterSec : ℕ) : Prop where
  one_le : 1 ≤ retryAfterSec
  le_sixty : retryAfterSec ≤ 60
  next_minute : minute (t + 1000 * retryAfterSec) = minute t + 1
  first_second : t + 1000 * retryAfterSec < (minute t + 1) * RATE_LIMIT_WINDOW_MS + 1000

section Store

variable {limit : ℕ} {windows : RateLimitStore} {before calls : List Call} {call : Call}

theorem window_pos : 0 < RATE_LIMIT_WINDOW_MS := by norm_num [RATE_LIMIT_WINDOW_MS]

/-- A call counts in the window of its key, and is allowed up to the limit. -/
theorem consume_eq (hlimit : 1 ≤ limit) (key : JsString) (now : ℚ) :
    windows.consume key limit now =
      (⟨decide (windows.number key now ≤ limit), windows.number key now,
          if windows.number key now ≤ limit then 0 else
            (max 1 ⌈(start RATE_LIMIT_WINDOW_MS now + RATE_LIMIT_WINDOW_MS - now) / 1000⌉).toNat⟩,
        Function.update windows key
          (some ⟨start RATE_LIMIT_WINDOW_MS now, windows.number key now⟩)) := by
  unfold RateLimitStore.consume RateLimitStore.number RateLimitStore.window Counter.current
  simp only [show ⌊now / RATE_LIMIT_WINDOW_MS⌋ * RATE_LIMIT_WINDOW_MS =
    start RATE_LIMIT_WINDOW_MS now from rfl]
  cases hkey : windows key with
  | none => simp [hlimit]
  | some state =>
    simp only [Option.getD_some]
    by_cases hstart : state.windowStart = start RATE_LIMIT_WINDOW_MS now
    · by_cases hcount : state.count + 1 ≤ limit
      · simp [hstart, hcount]
      · simp [hstart, hcount]
    · simp [hstart, hlimit]

theorem times_append (key : JsString) (a b : List Call) :
    times key (a ++ b) = times key a ++ times key b := by
  rw [times, List.filter_append, List.map_append, times, times]

theorem times_singleton (key : JsString) (call : Call) :
    times key [call] = if call.key = key then [call.time] else [] := by
  by_cases h : call.key = key
  · simp [times, h]
  · simp [times, h]

/-- Every key's counter counts the calls of that key. -/
def Tracked (windows : RateLimitStore) (before : List Call) : Prop :=
  ∀ key, Tracks RATE_LIMIT_WINDOW_MS id (times key before) (windows.window key)

theorem tracked_empty : Tracked RateLimitStore.empty [] := fun _ => tracks_nil rfl 0

theorem tracked_consume (hlimit : 1 ≤ limit) (h : Tracked windows before)
    (hle : ∀ b ∈ before, b.time ≤ call.time) :
    Tracked (windows.consume call.key limit call.time).2 (before ++ [call]) := by
  intro key
  have htimes : ∀ s ∈ times key before, s ≤ call.time := by
    intro s hs
    obtain ⟨b, hb, rfl⟩ := List.mem_map.mp hs
    exact hle b (List.mem_of_mem_filter hb)
  simp only [consume_eq hlimit, times_append, times_singleton, RateLimitStore.window]
  by_cases hkey : call.key = key
  · subst hkey
    rw [if_pos rfl, Function.update_self, Option.getD_some]
    exact tracks_snoc window_pos rfl htimes
      (by rw [RateLimitStore.number, h call.key call.time htimes]; rfl)
  · rw [if_neg hkey, List.append_nil, Function.update_of_ne (Ne.symm hkey)]
    exact h key

theorem tracked_after (hlimit : 1 ≤ limit) (h : Tracked windows before)
    (hordered : (before ++ calls).Pairwise fun a b => a.time ≤ b.time) :
    Tracked (after limit windows calls) (before ++ calls) := by
  induction calls generalizing windows before with
  | nil => rwa [List.append_nil]
  | cons call rest ih =>
    have hle : ∀ b ∈ before, b.time ≤ call.time := fun b hb =>
      (List.pairwise_append.mp hordered).2.2 b hb call List.mem_cons_self
    rw [List.append_cons] at hordered ⊢
    exact ih (tracked_consume hlimit h hle) hordered

/-- The decision about a call depends on the calls of its key alone. -/
theorem consume_allowed (hlimit : 1 ≤ limit) (h : Tracked windows before)
    (hle : ∀ b ∈ before, b.time ≤ call.time) :
    (windows.consume call.key limit call.time).1.allowed =
      decide (earlier RATE_LIMIT_WINDOW_MS (times call.key before) call.time < limit) := by
  have htimes : ∀ s ∈ times call.key before, s ≤ call.time := by
    intro s hs
    obtain ⟨b, hb, rfl⟩ := List.mem_map.mp hs
    exact hle b (List.mem_of_mem_filter hb)
  rw [consume_eq hlimit, RateLimitStore.number, h call.key call.time htimes]
  rfl

/-- **The decisions about one key** are those of a fixed window on its calls. -/
theorem run_key (hlimit : 1 ≤ limit) (h : Tracked windows before)
    (hordered : (before ++ calls).Pairwise fun a b => a.time ≤ b.time) (key : JsString) :
    ((run limit windows calls).filter fun x => x.1.key = key).map
        (fun x => (x.1.time, x.2.allowed)) =
      (times key calls).zip
        (grants RATE_LIMIT_WINDOW_MS limit (times key before) (times key calls)) := by
  induction calls generalizing windows before with
  | nil => rfl
  | cons call rest ih =>
    have hle : ∀ b ∈ before, b.time ≤ call.time := fun b hb =>
      (List.pairwise_append.mp hordered).2.2 b hb call List.mem_cons_self
    have hallowed := consume_allowed hlimit h hle
    rw [List.append_cons] at hordered
    have hrest := ih (tracked_consume hlimit h hle) hordered
    rw [run, List.filter_cons]
    by_cases hkey : call.key = key
    · subst hkey
      rw [times_append, times_singleton, if_pos rfl] at hrest
      have hcalls : times call.key (call :: rest) = call.time :: times call.key rest := by
        simp [times]
      rw [if_pos (decide_eq_true rfl), List.map_cons, hrest, hcalls, grants, List.zip_cons_cons,
        hallowed]
    · rw [times_append, times_singleton, if_neg hkey, List.append_nil] at hrest
      have hcalls : times key (call :: rest) = times key rest := by simp [times, hkey]
      rw [if_neg (by simpa using hkey), hrest, hcalls]

theorem run_append (a b : List Call) :
    run limit windows (a ++ b) = run limit windows a ++ run limit (after limit windows a) b := by
  induction a generalizing windows with
  | nil => rfl
  | cons call rest ih =>
    simp only [List.cons_append, run, ih, after, List.foldl_cons]

theorem length_run : (run limit windows calls).length = calls.length := by
  induction calls generalizing windows with
  | nil => rfl
  | cons call rest ih => simp only [run, List.length_cons, ih]

/-- The seconds left of a minute, rounded up. -/
theorem honest_retryAfter (t : ℚ) : Honest t
    (max 1 ⌈(start RATE_LIMIT_WINDOW_MS t + RATE_LIMIT_WINDOW_MS - t) / 1000⌉).toNat := by
  have hstart : start RATE_LIMIT_WINDOW_MS t = minute t * RATE_LIMIT_WINDOW_MS := rfl
  have hle : start RATE_LIMIT_WINDOW_MS t ≤ t := start_le window_pos
  have hlt : t < start RATE_LIMIT_WINDOW_MS t + RATE_LIMIT_WINDOW_MS := lt_start_add window_pos
  rw [hstart] at hle hlt ⊢
  generalize hm : minute t = m at hle hlt ⊢
  generalize hz : ⌈(m * RATE_LIMIT_WINDOW_MS + RATE_LIMIT_WINDOW_MS - t) / 1000⌉ = z
  obtain ⟨hlow, hhigh⟩ := Int.ceil_eq_iff.mp hz
  rw [lt_div_iff₀ (by norm_num), RATE_LIMIT_WINDOW_MS] at hlow
  rw [div_le_iff₀ (by norm_num), RATE_LIMIT_WINDOW_MS] at hhigh
  rw [RATE_LIMIT_WINDOW_MS] at hle hlt
  have hpos : 0 < z := by
    have hcast : (0 : ℚ) < z := by linarith
    exact_mod_cast hcast
  have hsixty : z < 61 := by
    have hcast : (z : ℚ) < 61 := by linarith
    exact_mod_cast hcast
  have hnat : (((max 1 z).toNat : ℕ) : ℚ) = z := by
    rw [max_eq_right (by omega : (1 : ℤ) ≤ z)]
    exact_mod_cast Int.toNat_of_nonneg hpos.le
  refine ⟨by omega, by omega, ?_, ?_⟩
  · rw [hnat, hm, minute, index_eq_iff window_pos, RATE_LIMIT_WINDOW_MS]
    push_cast
    exact ⟨by linarith, by linarith⟩
  · rw [hnat, hm, RATE_LIMIT_WINDOW_MS]
    linarith

theorem consume_refused (hlimit : 1 ≤ limit)
    (h : (windows.consume call.key limit call.time).1.allowed = false) :
    Honest call.time (windows.consume call.key limit call.time).1.retryAfterSec := by
  rw [consume_eq hlimit] at h ⊢
  rw [if_neg (of_decide_eq_false h)]
  exact honest_retryAfter call.time

theorem honest_of_mem_run (hlimit : 1 ≤ limit) {x : Call × ConsumeResult}
    (hx : x ∈ run limit windows calls) (hrefused : x.2.allowed = false) :
    Honest x.1.time x.2.retryAfterSec := by
  induction calls generalizing windows with
  | nil => exact absurd hx List.not_mem_nil
  | cons call rest ih =>
    rcases List.mem_cons.mp hx with rfl | hrest
    · exact consume_refused hlimit hrefused
    · exact ih hrest

end Store

/-! ### What a key and its sender see -/

/-- The results of the calls, from the start of the server on. -/
def History.results (H : History) (limit : ℕ) : List (Call × ConsumeResult) :=
  run limit RateLimitStore.empty H.calls

def inMinute (key : JsString) (m : ℤ) (call : Call) : Bool :=
  call.key = key && minute call.time = m

/-- The decisions about a key in a minute, in order. -/
def History.decisions (H : History) (limit : ℕ) (key : JsString) (m : ℤ) : List Bool :=
  ((H.results limit).filter fun x => inMinute key m x.1).map fun x => x.2.allowed

/-- A key calls, is refused, waits as its sender reads the answer, and calls again: that call is
allowed unless its minute has had `limit` calls of the key. -/
def ComesBack (J : JsonText) (D : Doubles) (limit : ℕ) (H : History) : Prop :=
  ∀ before refused between next rest result nextResult,
    H.calls = before ++ refused :: (between ++ next :: rest) → next.key = refused.key →
    (H.results limit)[before.length]? = some (refused, result) → result.allowed = false →
    (H.results limit)[before.length + 1 + between.length]? = some (next, nextResult) →
    ∃ seconds,
      (∀ bodyText batchId events, Sender.decideAck J 429 bodyText batchId events
        (Sender.retryAfterNumber D (retryAfterHeader result)) = .rateLimited seconds) ∧
      ∀ random, 0 ≤ random →
        refused.time + Sender.rateLimitedDelayMs seconds random ≤ next.time →
        (nextResult.allowed = true ↔
          between.countP (inMinute next.key (minute next.time)) < limit)

structure RateLimitExact (J : JsonText) (D : Doubles) (limit : ℕ) (H : History) : Prop where
  first_calls : ∀ key m, H.decisions limit key m =
    List.replicate (min (H.calls.countP (inMinute key m)) limit) true ++
      List.replicate (H.calls.countP (inMinute key m) - limit) false
  honest : ∀ x ∈ H.results limit, x.2.allowed = false → Honest x.1.time x.2.retryAfterSec
  comes_back : ComesBack J D limit H

section History

variable {J : JsonText} {D : Doubles} {limit : ℕ} {H : History}

theorem countP_times (key : JsString) (m : ℤ) (calls : List Call) :
    (times key calls).countP (fun s => index RATE_LIMIT_WINDOW_MS s = m) =
      calls.countP (inMinute key m) := by
  rw [times, List.countP_map, List.countP_filter]
  refine List.countP_congr fun call _ => ?_
  rw [inMinute, Bool.and_comm]
  exact Iff.rfl

variable (limit) in
/-- A call in the middle of a history, and its result. -/
theorem results_getElem? {before rest : List Call} {call : Call}
    (h : H.calls = before ++ call :: rest) :
    (H.results limit)[before.length]? = some (call,
      ((after limit RateLimitStore.empty before).consume call.key limit call.time).1) := by
  rw [History.results, h, run_append, List.getElem?_append_right (by rw [length_run]), length_run,
    Nat.sub_self]
  rfl

/-- The calls before one are not later, and the store has counted them. -/
theorem History.before (hlimit : 1 ≤ limit) {before rest : List Call} {call : Call}
    (h : H.calls = before ++ call :: rest) :
    Tracked (after limit RateLimitStore.empty before) before ∧
      ∀ b ∈ before, b.time ≤ call.time := by
  have hordered := H.ordered
  rw [h, List.pairwise_append] at hordered
  have htracked : Tracked (after limit RateLimitStore.empty before) ([] ++ before) :=
    tracked_after hlimit tracked_empty hordered.1
  exact ⟨htracked, fun b hb => hordered.2.2 b hb call List.mem_cons_self⟩

theorem decisions_eq (hlimit : 1 ≤ limit) (key : JsString) (m : ℤ) :
    H.decisions limit key m =
      List.replicate (min (H.calls.countP (inMinute key m)) limit) true ++
        List.replicate (H.calls.countP (inMinute key m) - limit) false := by
  have hminute : minute (m * RATE_LIMIT_WINDOW_MS) = m := by
    rw [minute, index, mul_div_assoc, div_self window_pos.ne', mul_one, Int.floor_intCast]
  have hwindow := grants_window (W := RATE_LIMIT_WINDOW_MS) (L := limit) [] (times key H.calls) m
    _ hminute
  have hordered : ([] ++ H.calls).Pairwise fun a b : Call => a.time ≤ b.time := H.ordered
  have hkey := run_key hlimit tracked_empty hordered key
  rw [countP_times, earlier, List.countP_nil, Nat.sub_zero] at hwindow
  rw [← hwindow, History.decisions, History.results]
  have hnil : times key [] = [] := rfl
  rw [hnil] at hkey
  rw [← hkey, List.filter_map, List.map_map, List.filter_filter]
  refine congrArg₂ List.map rfl (List.filter_congr fun x _ => ?_)
  exact Bool.and_comm _ _

theorem comesBack (hlimit : 1 ≤ limit) : ComesBack J D limit H := by
  intro before refused between next rest result nextResult hcalls hkey hresult hrefused hnext
  have hresult' := results_getElem? limit hcalls
  rw [hresult] at hresult'
  obtain rfl := (Prod.mk.inj (Option.some.inj hresult')).2
  have hsplit : H.calls = (before ++ refused :: between) ++ next :: rest := by
    rw [hcalls, List.append_assoc, List.cons_append]
  have hnext' := results_getElem? limit hsplit
  have hlength : (before ++ refused :: between).length = before.length + 1 + between.length := by
    rw [List.length_append, List.length_cons]
    omega
  rw [hlength, hnext] at hnext'
  obtain rfl := (Prod.mk.inj (Option.some.inj hnext')).2
  have hhonest := consume_refused hlimit hrefused
  generalize ((after limit RateLimitStore.empty before).consume refused.key limit
    refused.time).1 = result at hrefused hhonest
  obtain ⟨hone, hsixty, hminute, -⟩ := hhonest
  -- the header reads back as the number that was sent
  have hnumber : Sender.retryAfterNumber D (retryAfterHeader result)
      = some (result.retryAfterSec : ℚ) := by
    rw [retryAfterHeader, if_neg (by simp [hrefused]), Sender.retryAfterNumber]
    rw [JsString.toNumber_decimal D (le_trans hsixty (by norm_num))]
  have hcast : (1 : ℚ) ≤ result.retryAfterSec := by exact_mod_cast hone
  refine ⟨result.retryAfterSec, fun bodyText batchId events => ?_, fun random hrandom hwait => ?_⟩
  · rw [hnumber]
    have hpos : (0 : ℚ) < result.retryAfterSec := by linarith
    simp [Sender.decideAck, hpos]
  · obtain ⟨htracked, hle⟩ := History.before hlimit hsplit
    rw [consume_allowed hlimit htracked hle, decide_eq_true_eq]
    -- everything up to the refused call lies in earlier minutes
    have hjitter : (0 : ℚ) ≤ (⌊random * 1000⌋ : ℤ) := by
      exact_mod_cast Int.floor_nonneg.mpr (by positivity)
    have hlater : minute refused.time < minute next.time := by
      have hmono := index_mono (s := refused.time + 1000 * result.retryAfterSec)
        (t := next.time) window_pos (by
          rw [Sender.rateLimitedDelayMs, max_eq_right hcast] at hwait
          linarith)
      rw [minute, minute] at *
      omega
    have hearlier : earlier RATE_LIMIT_WINDOW_MS (times next.key (before ++ refused :: between))
        next.time = between.countP (inMinute next.key (minute next.time)) := by
      refine (countP_times next.key (minute next.time) _).trans ?_
      have hmiss : ∀ call : Call, call.time ≤ refused.time →
          inMinute next.key (minute next.time) call = false := by
        intro call hcall
        have hmono : minute call.time ≤ minute refused.time := index_mono window_pos hcall
        have hne : minute call.time ≠ minute next.time := by omega
        rw [inMinute, decide_eq_false hne, Bool.and_false]
      have hbefore := (History.before hlimit hcalls).2
      rw [List.countP_append, List.countP_cons_of_neg (by rw [hmiss refused le_rfl]; decide),
        List.countP_eq_zero.mpr fun b hb => by rw [hmiss b (hbefore b hb)]; decide, Nat.zero_add]
    rw [hearlier]

end History

/-- **The rate limit is exact**, and its refusals are honest. -/
theorem rate_limit_exact (J : JsonText) (D : Doubles) (limit : ℕ+) (H : History) :
    RateLimitExact J D limit H := by
  have hlimit : 1 ≤ (limit : ℕ) := limit.2
  exact ⟨decisions_eq hlimit, fun x hx hrefused => honest_of_mem_run hlimit hx hrefused,
    comesBack hlimit⟩

end Ingestion
