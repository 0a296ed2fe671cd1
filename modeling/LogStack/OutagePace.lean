/-
How many requests an outage sees (`sender/src/backoff.ts`, `sender/src/daemon.ts`).

* `sum_backoffDelayMs` — the pauses of failures in a row add up to the cap for each of them, but
  for a constant;
* `outage_span` — an outage lasts as long as its pauses;
* `outage_pace` — one request every 30 s, and five more.
-/
import LogStack.SenderPace
import Mathlib.Algebra.Order.BigOperators.Group.Finset

open FileProgram Outbox Simulation

namespace Sender

variable {J : JsonText} {p : SenderProcess J} {limit : ℕ+}

/-! ### Pauses -/

theorem backoffDelayMs_mono : Monotone backoffDelayMs := by
  intro m n h
  have hpow : (2 : ℚ) ^ m ≤ 2 ^ n := pow_le_pow_right₀ one_le_two h
  exact min_le_min_left _ (mul_le_mul_of_nonneg_left hpow (by norm_num [BACKOFF_BASE_MS]))

/-- From the sixth failure on every pause is as long as the cap. -/
theorem backoffDelayMs_of_le {n : ℕ} (h : 5 ≤ n) : backoffDelayMs n = BACKOFF_CAP_MS := by
  have hpow : (2 : ℚ) ^ 5 ≤ 2 ^ n := pow_le_pow_right₀ one_le_two h
  refine min_eq_left ?_
  rw [BACKOFF_CAP_MS, BACKOFF_BASE_MS]
  linarith

/-- The pauses of `n` failures in a row, but for the first ones as long as the cap. -/
theorem sum_backoffDelayMs (n : ℕ) :
    BACKOFF_CAP_MS * n ≤ ∑ j ∈ Finset.range n, backoffDelayMs j + 119000 := by
  induction n with
  | zero => norm_num
  | succ n ih =>
    rw [Finset.sum_range_succ]
    push_cast
    by_cases hn : 5 ≤ n
    · rw [backoffDelayMs_of_le hn]
      linarith
    · -- the first five pauses are 1 s, 2 s, 4 s, 8 s and 16 s
      interval_cases n <;>
        norm_num [Finset.sum_range_succ, backoffDelayMs, BACKOFF_CAP_MS, BACKOFF_BASE_MS]

/-! ### An outage -/

/-- The requests of some passes. -/
def requests (passes : List Pass) : ℕ := (passes.filterMap Pass.trip).length

/-- All requests of some passes failed. -/
def Failed (passes : List Pass) : Prop :=
  ∀ x ∈ passes, ∀ trip, x.trip = some trip → trip.failed = true

theorem pauseAfter_of_failed {trip : Trip} (h : trip.failed = true) (attempt : ℕ) (random : ℚ) :
    pauseAfter attempt random trip.action = backoffDelayMs attempt := by
  obtain ⟨answeredAt, count, action, delay⟩ := trip
  cases action with
  | none => rfl
  | some action =>
    cases action with
    | backoff status => rfl
    | _ => cases h

/-- The pauses in an outage, by induction on its passes. -/
theorem outage_span {outage before : List Pass} {s e : ℚ} (hfits : ∀ x ∈ outage, x.Fits)
    (hspaced : outage.Pairwise fun x y => x.resumes ≤ y.time) (hfailed : Failed outage)
    (hdelays : ∀ pre x post, outage = pre ++ x :: post → ∀ trip, x.trip = some trip →
      trip.delay = backoffDelayMs (failures (before ++ pre)))
    (hs : ∀ x ∈ outage, s ≤ x.time) (he : ∀ x ∈ outage, x.time ≤ e)
    (hpos : 0 < requests outage) :
    s + ∑ j ∈ Finset.range (requests outage - 1), backoffDelayMs (failures before + j) ≤ e := by
  induction outage generalizing before s with
  | nil => exact absurd hpos (lt_irrefl 0)
  | cons x rest ih =>
    obtain ⟨hnext, hspaced'⟩ := List.pairwise_cons.mp hspaced
    have hfits' : ∀ y ∈ rest, y.Fits := fun y hy => hfits y (List.mem_cons_of_mem _ hy)
    have hfailed' : Failed rest := fun y hy => hfailed y (List.mem_cons_of_mem _ hy)
    have he' : ∀ y ∈ rest, y.time ≤ e := fun y hy => he y (List.mem_cons_of_mem _ hy)
    have hdelays' : ∀ pre y post, rest = pre ++ y :: post → ∀ trip, y.trip = some trip →
        trip.delay = backoffDelayMs (failures ((before ++ [x]) ++ pre)) := by
      intro pre y post hsplit
      rw [List.append_assoc, List.singleton_append]
      exact hdelays (x :: pre) y post (by rw [hsplit, List.cons_append])
    cases hfits x List.mem_cons_self with
    | waits positive =>
      rename_i time wait
      have hsame : requests (⟨time, wait, none⟩ :: rest) = requests rest := by
        rw [requests, List.filterMap_cons_none rfl, requests]
      rw [hsame] at hpos ⊢
      have hspan := ih hfits' hspaced' hfailed' hdelays'
        (fun y hy => hs y (List.mem_cons_of_mem _ hy)) he' hpos
      rwa [failures_waiting] at hspan
    | sends answered delay =>
      rename_i time trip
      have hmore : requests (⟨time, 0, some trip⟩ :: rest) = requests rest + 1 := rfl
      rw [hmore, Nat.add_sub_cancel]
      have hx : s ≤ time := hs _ List.mem_cons_self
      by_cases hrest : requests rest = 0
      · rw [hrest, Finset.sum_range_zero, add_zero]
        exact hx.trans (he _ List.mem_cons_self)
      · have htrip : trip.failed = true := hfailed _ List.mem_cons_self trip rfl
        have hdelay : trip.delay = backoffDelayMs (failures before) := by
          have h := hdelays [] _ rest rfl trip rfl
          rwa [List.append_nil] at h
        have hfailures : failures (before ++ [⟨time, 0, some trip⟩]) = failures before + 1 := by
          rw [failures_answered, Trip.attempts, if_pos htrip]
        -- the next request waits for the pause after this one
        have hlate : ∀ y ∈ rest, s + backoffDelayMs (failures before) ≤ y.time := by
          intro y hy
          have hresumes : trip.answeredAt + trip.delay ≤ y.time := hnext y hy
          linarith
        have hspan := ih hfits' hspaced' hfailed' hdelays' hlate he' (Nat.pos_of_ne_zero hrest)
        obtain ⟨n, hn⟩ := Nat.exists_eq_succ_of_ne_zero hrest
        rw [hn, Nat.succ_sub_one, hfailures] at hspan
        rw [hn, Finset.sum_range_succ']
        simp only [Nat.add_right_comm _ 1, Nat.add_assoc, Nat.add_zero] at hspan ⊢
        linarith

/-- How many requests the passes of an outage make. -/
def OutagePace (p : SenderProcess J) : Prop :=
  ∀ before outage after, p.passes = before ++ outage ++ after → Failed outage →
    ∀ s e : ℚ, s ≤ e → (∀ x ∈ outage, s ≤ x.time ∧ x.time ≤ e) →
      BACKOFF_CAP_MS * requests outage ≤ e - s + 149000

theorem Pacing.outagePace (h : Pacing limit p) : OutagePace p := by
  intro before outage after hsplit hfailed s e hse hwithin
  by_cases hzero : requests outage = 0
  · rw [hzero, Nat.cast_zero, mul_zero]
    linarith
  · have hmem : ∀ x ∈ outage, x ∈ p.passes := fun x hx => by
      rw [hsplit]
      exact List.mem_append_left _ (List.mem_append_right _ hx)
    have hspaced : outage.Pairwise fun x y => x.resumes ≤ y.time := by
      have hfollows := h.follows
      rw [hsplit, List.pairwise_append, List.pairwise_append] at hfollows
      exact hfollows.1.2.1.imp And.left
    have hdelays : ∀ pre x post, outage = pre ++ x :: post → ∀ trip, x.trip = some trip →
        trip.delay = backoffDelayMs (failures (before ++ pre)) := by
      intro pre x post houtage trip htrip
      have hx : x ∈ outage := by
        rw [houtage]
        exact List.mem_append_right _ List.mem_cons_self
      obtain ⟨random, -, -, hdelay⟩ := h.delays (before ++ pre) x (post ++ after)
        (by rw [hsplit, houtage]; simp) trip htrip
      rw [hdelay, pauseAfter_of_failed (hfailed x hx trip htrip)]
    have hspan := outage_span (fun x hx => h.fits x (hmem x hx)) hspaced hfailed hdelays
      (fun x hx => (hwithin x hx).1) (fun x hx => (hwithin x hx).2) (Nat.pos_of_ne_zero hzero)
    have hmono : ∑ j ∈ Finset.range (requests outage - 1), backoffDelayMs j ≤
        ∑ j ∈ Finset.range (requests outage - 1), backoffDelayMs (failures before + j) :=
      Finset.sum_le_sum fun j _ => backoffDelayMs_mono (Nat.le_add_left j _)
    have hsum := sum_backoffDelayMs (requests outage - 1)
    obtain ⟨n, hn⟩ := Nat.exists_eq_succ_of_ne_zero hzero
    rw [hn, Nat.succ_sub_one] at hspan hmono hsum
    rw [hn, BACKOFF_CAP_MS] at *
    push_cast
    linarith

/-- **An outage is not hammered.** In every run, however the throttle is set: while the requests
of a process fail, without an answer or with a server error, no more than one goes out every
30 s, and five more at the beginning. -/
theorem outage_pace (b : Backlog J) (clock : Json → JsString) (limit : ℕ+) (tickSize : ℕ)
    (start : ℚ) (inputs : List (Input J × List Fate)) :
    Along (senderProcess clock limit tickSize) (fun _ _ _ _ _ => True)
      (fun s (_ : Unit) => ∃ p, s = some p ∧ OutagePace p) inputs (some (b.process start)) () :=
  along_pacing b clock limit tickSize start (fun _ h => h.outagePace) inputs

end Sender
