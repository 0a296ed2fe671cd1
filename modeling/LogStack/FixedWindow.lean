/-
Counting calls in windows of fixed length.

The windows of length `W` begin at the multiples of `W`; a rule grants the first `L` calls of
each. An implementation keeps one counter, for the window of the last call.

* `countP_interval_le` — an interval as long as a window meets two windows;
* `grants`, `grants_window` — the decisions of the rule, and those of one window;
* `Tracks`, `tracks_snoc` — what the counter says about the calls so far.
-/
import Mathlib.Algebra.Order.Floor.Ring
import Mathlib.Data.List.Count
import Mathlib.Data.Rat.Floor
import Mathlib.Tactic.FieldSimp
import Mathlib.Tactic.Linarith

namespace FixedWindow

variable {α : Type*} [Field α] [LinearOrder α] [IsStrictOrderedRing α] [FloorRing α]

/-- The window in which a time lies. -/
def index (W t : α) : ℤ := ⌊t / W⌋

/-- The beginning of the window in which a time lies. -/
def start (W t : α) : α := ⌊t / W⌋ * W

section Windows

variable {W s t : α}

theorem index_eq_iff (hW : 0 < W) {k : ℤ} : index W t = k ↔ k * W ≤ t ∧ t < (k + 1) * W := by
  rw [index, Int.floor_eq_iff, le_div_iff₀ hW, div_lt_iff₀ hW]

theorem index_mono (hW : 0 < W) (h : s ≤ t) : index W s ≤ index W t :=
  Int.floor_mono (div_le_div_of_nonneg_right h hW.le)

theorem start_eq_iff (hW : 0 < W) : start W s = start W t ↔ index W s = index W t := by
  have hchar : CharZero α := IsStrictOrderedRing.toCharZero
  refine ⟨fun h => ?_, fun h => congrArg (fun k : ℤ => (k : α) * W) h⟩
  exact Int.cast_injective (mul_right_cancel₀ hW.ne' h)

theorem start_le (hW : 0 < W) : start W t ≤ t := ((index_eq_iff hW).mp rfl).1

theorem lt_start_add (hW : 0 < W) : t < start W t + W := by
  have hlt := ((index_eq_iff hW).mp (rfl : index W t = index W t)).2
  rwa [add_mul, one_mul] at hlt

/-- An interval as long as a window meets two windows at most. -/
theorem index_of_interval (hW : 0 < W) (hle : s ≤ t) (hlt : t < s + W) :
    index W t = index W s ∨ index W t = index W s + 1 := by
  have hmono := index_mono hW hle
  have hnext : index W t ≤ index W (s + W) := index_mono hW hlt.le
  have hshift : index W (s + W) = index W s + 1 := by
    rw [index, add_div, div_self hW.ne', Int.floor_add_one, index]
  omega

/-- What happens in such an interval happens in the two windows. -/
theorem countP_interval_le {β : Type*} (hW : 0 < W) (s : α) (time : β → α) (p : β → Bool)
    (l : List β) : l.countP (fun x => (s ≤ time x ∧ time x < s + W) ∧ p x = true) ≤
      l.countP (fun x => index W (time x) = index W s ∧ p x = true) +
        l.countP (fun x => index W (time x) = index W s + 1 ∧ p x = true) := by
  induction l with
  | nil => exact Nat.zero_le _
  | cons x l ih =>
    simp only [List.countP_cons, decide_eq_true_eq]
    by_cases hx : (s ≤ time x ∧ time x < s + W) ∧ p x = true
    · rcases index_of_interval hW hx.1.1 hx.1.2 with hi | hi
      · simp only [hx, hi, and_self, if_true]
        omega
      · simp only [hx, hi, and_self, if_true]
        omega
    · simp only [hx, if_false]
      omega

theorem index_add_mul (hW : 0 < W) (k : ℤ) : index W (t + k * W) = index W t + k := by
  rw [index, add_div, mul_div_assoc, div_self hW.ne', mul_one, Int.floor_add_intCast, index]

end Windows

/-! ### The rule -/

/-- The calls in the window of `t`. -/
def earlier (W : α) (calls : List α) (t : α) : ℕ :=
  calls.countP fun s => index W s = index W t

/-- The first `L` calls of every window are granted. -/
def grants (W : α) (L : ℕ) : List α → List α → List Bool
  | _, [] => []
  | before, t :: rest => decide (earlier W before t < L) :: grants W L (before ++ [t]) rest

section Rule

variable {W : α} {L : ℕ} {before calls : List α}

omit [IsStrictOrderedRing α] in
theorem earlier_append (s t : α) : earlier W (before ++ [s]) t =
    earlier W before t + if index W s = index W t then 1 else 0 := by
  rw [earlier, List.countP_append, List.countP_singleton, earlier]
  simp only [decide_eq_true_eq]

omit [IsStrictOrderedRing α] in
theorem length_grants : (grants W L before calls).length = calls.length := by
  induction calls generalizing before with
  | nil => rfl
  | cons t rest ih => rw [grants, List.length_cons, List.length_cons, ih]

omit [IsStrictOrderedRing α] in
theorem grants_concat (t : α) : grants W L before (calls ++ [t]) =
    grants W L before calls ++ [decide (earlier W (before ++ calls) t < L)] := by
  induction calls generalizing before with
  | nil => rw [List.append_nil]; rfl
  | cons s rest ih =>
    rw [List.cons_append, grants, ih, grants, List.append_assoc, List.singleton_append,
      List.cons_append]

omit [IsStrictOrderedRing α] in
/-- The decisions about the calls of a window `k`: yes to the first `L`, no to the others. -/
theorem grants_window (before calls : List α) (k : ℤ) (t : α) (hk : index W t = k) :
    ((calls.zip (grants W L before calls)).filter fun x => index W x.1 = k).map Prod.snd =
      List.replicate (min (calls.countP fun s => index W s = k) (L - earlier W before t)) true ++
        List.replicate ((calls.countP fun s => index W s = k) - (L - earlier W before t))
          false := by
  induction calls generalizing before with
  | nil => simp [grants]
  | cons s rest ih =>
    have hrest := ih (before ++ [s])
    rw [earlier_append, hk] at hrest
    rw [grants, List.zip_cons_cons, List.filter_cons, List.countP_cons]
    by_cases hs : index W s = k
    · simp only [hs, decide_true, if_true] at hrest ⊢
      rw [List.map_cons, hrest]
      have hsame : earlier W before s = earlier W before t := by rw [earlier, hs, ← hk, earlier]
      rw [hsame]
      generalize earlier W before t = e
      generalize (rest.countP fun s => index W s = k) = n
      by_cases he : e < L
      · -- one of the grants left goes to this call
        have hleft : min (n + 1) (L - e) = min n (L - (e + 1)) + 1 := by omega
        have hright : n + 1 - (L - e) = n - (L - (e + 1)) := by omega
        rw [hleft, hright, List.replicate_succ, decide_eq_true he, List.cons_append]
      · have hleft : L - e = 0 := by omega
        have hright : L - (e + 1) = 0 := by omega
        simp only [hleft, hright, Nat.min_zero, List.replicate_zero, List.nil_append,
          Nat.sub_zero, decide_eq_false he, List.replicate_succ]
    · simp only [hs, decide_false, if_false, Bool.false_eq_true, add_zero] at hrest ⊢
      exact hrest

end Rule

/-! ### The counter -/

/-- The counter of the window that begins at `windowStart`. -/
structure Counter (α : Type*) where
  windowStart : α
  count : ℕ

/-- The counter as a call at `t` finds it: in another window it starts again. -/
def Counter.current (W : α) (c : Counter α) (t : α) : ℕ :=
  if c.windowStart = start W t then c.count else 0

/-- For every later call, the counter is `g` of the number of calls in its window. -/
def Tracks (W : α) (g : ℕ → ℕ) (calls : List α) (c : Counter α) : Prop :=
  ∀ t, (∀ s ∈ calls, s ≤ t) → c.current W t = g (earlier W calls t)

omit [IsStrictOrderedRing α] in
theorem tracks_nil {W : α} {g : ℕ → ℕ} (hg : g 0 = 0) (windowStart : α) :
    Tracks W g [] ⟨windowStart, 0⟩ := by
  intro t _
  rw [Counter.current, earlier, List.countP_nil, hg]
  exact ite_self 0

/-- A call counts in its window, and the windows before it are over. -/
theorem tracks_snoc {W : α} {g : ℕ → ℕ} {calls : List α} {t : α} {n : ℕ} (hW : 0 < W)
    (hg : g 0 = 0) (hle : ∀ s ∈ calls, s ≤ t) (hn : n = g (earlier W calls t + 1)) :
    Tracks W g (calls ++ [t]) ⟨start W t, n⟩ := by
  intro u hu
  rw [Counter.current, earlier_append]
  by_cases hsame : index W t = index W u
  · have hearlier : earlier W calls u = earlier W calls t := by rw [earlier, ← hsame, earlier]
    rw [if_pos ((start_eq_iff hW).mpr hsame), if_pos hsame, hearlier, hn]
  · have hnone : earlier W calls u = 0 := by
      refine List.countP_eq_zero.mpr fun s hs => ?_
      have hst := index_mono hW (hle s hs)
      have htu := index_mono hW (hu t (by simp))
      simp only [decide_eq_true_eq]
      omega
    rw [if_neg fun h => hsame ((start_eq_iff hW).mp h), if_neg hsame, hnone, hg]

end FixedWindow
