/-
Doubles, and rounding to the nearest of them.

* `IsDouble` — the finite doubles; `IsDouble.exists_int` — where the large ones lie;
* `NearestDoubles`, `nearestDoubles` — rounding that no double is nearer than;
* `nearestDoubles_round_eq` — the double that a number is rounded to;
* `NearestDoubles.floor_round_div` — a quotient of whole numbers of up to 53 bits keeps its whole
  part.
-/
import LogStack.JsText
import LogStack.Nearest
import Mathlib.Data.Finset.Prod
import Mathlib.Data.Int.ConditionallyCompleteOrder
import Mathlib.Data.Int.Interval
import Mathlib.Data.Nat.Log
import Mathlib.Data.Rat.Floor
import Mathlib.Tactic.FieldSimp
import Mathlib.Tactic.Positivity

/-- The finite doubles. -/
def IsDouble (q : ℚ) : Prop :=
  ∃ m e : ℤ, |m| ≤ 2 ^ 53 ∧ -1074 ≤ e ∧ e ≤ 971 ∧ q = m * (2 : ℚ) ^ e

/-- Rounding gives a nearest double. -/
structure NearestDoubles extends Doubles where
  nearest : ∀ q d, |q| < 2 ^ 1024 - 2 ^ 970 → IsDouble d → |round q - q| ≤ |d - q|

section Members

variable {q d : ℚ} {m z : ℤ} {k : ℕ}

theorem isDouble_div_two_pow (hm : |m| ≤ 2 ^ 53) (hk : k ≤ 1074) : IsDouble (m / 2 ^ k) := by
  refine ⟨m, -k, hm, by omega, by omega, ?_⟩
  rw [zpow_neg, zpow_natCast, div_eq_mul_inv]

theorem isDouble_int (h : |z| ≤ 2 ^ 53) : IsDouble z :=
  ⟨z, 0, h, by decide, by decide, by rw [zpow_zero, mul_one]⟩

/-- Beyond `2 ^ k` there are doubles at the multiples of `2 ^ (k - 52)` only. -/
theorem IsDouble.exists_int (h : IsDouble q) (hk : k ≤ 52) (hlt : 2 ^ k < q) :
    ∃ m : ℤ, q = m / 2 ^ (52 - k) := by
  obtain ⟨m, e, hm, -, -, rfl⟩ := h
  have hpow : (0 : ℚ) < (2 : ℚ) ^ e := zpow_pos two_pos e
  have hm' : (m : ℚ) ≤ 2 ^ 53 := by exact_mod_cast (abs_le.mp hm).2
  -- a smaller exponent would keep the product below
  have he : (k : ℤ) - 52 ≤ e := by
    by_contra hsmall
    have hexp : (2 : ℚ) ^ (53 + e) ≤ 2 ^ (k : ℤ) := zpow_le_zpow_right₀ one_le_two (by omega)
    rw [zpow_add₀ two_ne_zero, zpow_natCast] at hexp
    have hprod : (m : ℚ) * (2 : ℚ) ^ e ≤ 2 ^ (53 : ℤ) * 2 ^ e :=
      mul_le_mul_of_nonneg_right (by exact_mod_cast hm') hpow.le
    exact absurd (hlt.trans_le (hprod.trans hexp)) (lt_irrefl _)
  obtain ⟨n, hn⟩ := Int.eq_ofNat_of_zero_le (show 0 ≤ e + (52 - k : ℕ) by omega)
  refine ⟨m * 2 ^ n, ?_⟩
  have hsplit : (2 : ℚ) ^ n = 2 ^ e * 2 ^ (52 - k) := by
    rw [← zpow_natCast, ← hn, zpow_add₀ two_ne_zero, zpow_natCast]
  push_cast
  rw [eq_div_iff (by positivity), hsplit, mul_assoc]

noncomputable def doubles : Finset ℚ :=
  (Finset.Icc (-2 ^ 53 : ℤ) (2 ^ 53) ×ˢ Finset.Icc (-1074 : ℤ) 971).image fun p =>
    (p.1 : ℚ) * 2 ^ p.2

theorem mem_doubles : q ∈ doubles ↔ IsDouble q := by
  simp only [doubles, Finset.mem_image, Finset.mem_product, Finset.mem_Icc, Prod.exists, IsDouble,
    abs_le]
  constructor
  · rintro ⟨m, e, ⟨hm, he⟩, rfl⟩
    exact ⟨m, e, hm, he.1, he.2, rfl⟩
  · rintro ⟨m, e, hm, hlow, hhigh, rfl⟩
    exact ⟨m, e, ⟨hm, hlow, hhigh⟩, rfl⟩

attribute [irreducible] doubles

theorem doubles_nonempty : doubles.Nonempty := by
  have hzero : IsDouble 0 := ⟨0, 0, by norm_num, by decide, by decide, by norm_num⟩
  exact Finset.nonempty_of_ne_empty (Finset.ne_empty_of_mem (mem_doubles.mpr hzero))

/-- Rounding to the nearest double, between two of them to the smaller one. -/
noncomputable def nearestDoubles : NearestDoubles where
  round := Nearest.nearest doubles doubles_nonempty
  round_mono := Nearest.nearest_mono doubles_nonempty
  round_int _ h := Nearest.nearest_of_mem doubles_nonempty (mem_doubles.mpr (isDouble_int h))
  nearest _ _ _ h := Nearest.nearest_le doubles_nonempty (mem_doubles.mpr h)

/-- Beyond `2 ^ k`, a number is rounded to the multiple of `2 ^ (k - 52)` that is less than half of
it away. -/
theorem nearestDoubles_round_eq (hk : k ≤ 52) (hm : |m| ≤ 2 ^ 53) (hq : 2 ^ k + 1 ≤ q)
    (h : |m - q * 2 ^ (52 - k)| < 1 / 2) : nearestDoubles.round q = m / 2 ^ (52 - k) := by
  have hpos : (0 : ℚ) < 2 ^ (52 - k) := by positivity
  have hmem := mem_doubles.mp (Nearest.nearest_mem doubles_nonempty q)
  have hle := Nearest.nearest_le doubles_nonempty (q := q)
    (mem_doubles.mpr (isDouble_div_two_pow hm (show 52 - k ≤ 1074 by omega)))
  change IsDouble (nearestDoubles.round q) at hmem
  change |nearestDoubles.round q - q| ≤ _ at hle
  -- in units of `2 ^ (k - 52)`
  have hscale : ∀ x : ℚ, |x / 2 ^ (52 - k) - q| * 2 ^ (52 - k) = |x - q * 2 ^ (52 - k)| := by
    intro x
    rw [← abs_of_pos hpos, ← abs_mul, sub_mul, abs_of_pos hpos, div_mul_cancel₀ _ hpos.ne']
  have hnear : |nearestDoubles.round q - q| * 2 ^ (52 - k) < 1 / 2 := by
    refine (mul_le_mul_of_nonneg_right hle hpos.le).trans_lt ?_
    rwa [hscale]
  have hbelow : 2 ^ k < nearestDoubles.round q := by
    have hone : (1 : ℚ) ≤ 2 ^ (52 - k) := one_le_pow₀ one_le_two
    have hdist : |nearestDoubles.round q - q| < 1 :=
      (le_mul_of_one_le_right (abs_nonneg _) hone).trans_lt (hnear.trans (by norm_num))
    linarith [(abs_lt.mp hdist).1]
  obtain ⟨n, hn⟩ := hmem.exists_int hk hbelow
  rw [hn, hscale] at hnear
  have hnm : n = m := by
    have hlt : |((n - m : ℤ) : ℚ)| < 1 := by
      push_cast
      calc |(n : ℚ) - m| = |(n - q * 2 ^ (52 - k)) - (m - q * 2 ^ (52 - k))| := by ring_nf
        _ ≤ |n - q * 2 ^ (52 - k)| + |m - q * 2 ^ (52 - k)| := abs_sub _ _
        _ < 1 := by linarith
    have hint : |n - m| < 1 := by exact_mod_cast hlt
    exact sub_eq_zero.mp (Int.abs_lt_one_iff.mp hint)
  rw [hn, hnm]

/-- Just below a whole number there is a double, not as far away as `2 / n`. -/
theorem exists_double_below {n : ℕ} (hn : 0 < n) (hn' : n ≤ 2 ^ 53) (hlow : -(2 ^ 53) < z * n)
    (hhigh : z * n ≤ 2 ^ 53) :
    ∃ d, IsDouble d ∧ |d| ≤ 2 ^ 53 ∧ d < z ∧ (z : ℚ) < d + 2 * (1 / n) := by
  -- `1 / 2 ^ j` below, for the largest power of two up to `n`
  set j := Nat.log 2 n with hj
  have hjle : 2 ^ j ≤ n := Nat.pow_log_le_self 2 hn.ne'
  have hjlt : n < 2 ^ (j + 1) := Nat.lt_pow_succ_log_self one_lt_two n
  have hjle' : (2 ^ j : ℤ) ≤ n := by exact_mod_cast hjle
  have hjpos : (1 : ℤ) ≤ 2 ^ j := one_le_pow₀ (by decide)
  have hpos : (0 : ℚ) < 2 ^ j := by positivity
  have hone : (1 : ℚ) ≤ 2 ^ j := one_le_pow₀ one_le_two
  have hm : |z * 2 ^ j - 1| ≤ 2 ^ 53 := by
    rcases le_or_gt 0 z with hz | hz
    · have hprod := mul_le_mul_of_nonneg_left hjle' hz
      have hnonneg := mul_nonneg hz (zero_le_one.trans hjpos)
      exact abs_le.mpr ⟨by omega, by omega⟩
    · have hprod := mul_le_mul_of_nonpos_left hjle' hz.le
      have hneg := mul_neg_of_neg_of_pos hz (zero_lt_one.trans_le hjpos)
      exact abs_le.mpr ⟨by omega, by omega⟩
  have hj' : j ≤ 1074 := by
    by_contra hlarge
    have hpow : 2 ^ 54 ≤ 2 ^ j := Nat.pow_le_pow_right (by decide) (by omega)
    omega
  have hd : (((z * 2 ^ j - 1 : ℤ) : ℚ)) / 2 ^ j = z - 1 / 2 ^ j := by
    push_cast
    field_simp
  have hhalf : 1 / 2 ^ j < 2 * (1 / (n : ℚ)) := by
    have hnQ : (0 : ℚ) < n := by exact_mod_cast hn
    have hlt : (n : ℚ) < 2 ^ j * 2 := by exact_mod_cast pow_succ 2 j ▸ hjlt
    rw [mul_one_div, div_lt_div_iff₀ hpos hnQ]
    linarith
  have hposd : 0 < 1 / (2 : ℚ) ^ j := by positivity
  refine ⟨_, isDouble_div_two_pow hm hj', ?_, ?_, ?_⟩
  · rw [abs_div, abs_of_pos hpos]
    exact (div_le_self (abs_nonneg _) hone).trans (by exact_mod_cast hm)
  · rw [hd]
    linarith
  · rw [hd]
    linarith

end Members

namespace NearestDoubles

variable (M : NearestDoubles)

theorem round_double {q : ℚ} (h : IsDouble q) (hsmall : |q| ≤ 2 ^ 53) : M.round q = q := by
  have hself := M.nearest q q (hsmall.trans_lt two_pow_lt_overflow) h
  rw [sub_self, abs_zero, abs_nonpos_iff, sub_eq_zero] at hself
  exact hself

/-- A number that is nearer to a double below `z` than to `z` is rounded to less than `z`. -/
theorem round_lt {q d z : ℚ} (hsmall : |q| < 2 ^ 1024 - 2 ^ 970) (hd : IsDouble d)
    (hdsmall : |d| ≤ 2 ^ 53) (hdz : d < z) (hgap : 2 * q < d + z) : M.round q < z := by
  rcases le_total q d with hbelow | habove
  · have hmono := M.round_mono hbelow
    rw [M.round_double hd hdsmall] at hmono
    exact hmono.trans_lt hdz
  · have hnear := M.nearest q d hsmall hd
    rw [abs_of_nonpos (sub_nonpos.mpr habove)] at hnear
    linarith [le_abs_self (M.round q - q)]

/-- **The whole part of a quotient survives rounding.** The quotient is at least `1 / n` below
the next whole number, and there is a double that is nearer. -/
theorem floor_round_div {t : ℤ} {n : ℕ} (hn : 0 < n) (h : |t| + n ≤ 2 ^ 53) :
    ⌊M.round ((t : ℚ) / n)⌋ = ⌊(t : ℚ) / n⌋ := by
  have hnQ : (0 : ℚ) < n := by exact_mod_cast hn
  have hn1 : (1 : ℤ) ≤ n := by exact_mod_cast hn
  have habs := abs_le.mp (le_refl |t|)
  have hle := Int.floor_le ((t : ℚ) / n)
  have hlt := Int.lt_floor_add_one ((t : ℚ) / n)
  set q := (t : ℚ) / n with hq
  set k := ⌊q⌋ with hk
  have hqt : q * n = t := div_mul_cancel₀ _ hnQ.ne'
  have hkt : k * n ≤ t := by
    have hmul := mul_le_mul_of_nonneg_right hle hnQ.le
    rw [hqt] at hmul
    exact_mod_cast hmul
  have htk : t < (k + 1) * n := by
    have hmul := mul_lt_mul_of_pos_right hlt hnQ
    rw [hqt] at hmul
    exact_mod_cast hmul
  have hsmall : |q| < 2 ^ 1024 - 2 ^ 970 := by
    have hqabs : |q| ≤ |(t : ℚ)| := by
      rw [hq, abs_div, abs_of_pos hnQ]
      exact div_le_self (abs_nonneg _) (by exact_mod_cast hn)
    have ht : |(t : ℚ)| ≤ 2 ^ 53 := by exact_mod_cast (show |t| ≤ 2 ^ 53 by omega)
    exact (hqabs.trans ht).trans_lt two_pow_lt_overflow
  rw [Int.floor_eq_iff]
  constructor
  · have hklow : -(2 ^ 53) ≤ k := by nlinarith
    have hkhigh : k ≤ 2 ^ 53 := by nlinarith
    rw [← M.round_int k (abs_le.mpr ⟨hklow, hkhigh⟩)]
    exact M.round_mono hle
  · have hnext : (k + 1) * (n : ℤ) = k * n + n := by ring
    obtain ⟨d, hd, hdsmall, hdz, hzd⟩ :=
      exists_double_below hn (show n ≤ 2 ^ 53 by omega)
        (show -(2 ^ 53) < (k + 1) * (n : ℤ) by omega)
        (show (k + 1) * (n : ℤ) ≤ 2 ^ 53 by omega)
    push_cast at hdz hzd
    refine M.round_lt hsmall hd hdsmall hdz ?_
    have hgap : q ≤ k + 1 - 1 / n := by
      rw [hq, div_le_iff₀ hnQ, sub_mul, one_div, inv_mul_cancel₀ hnQ.ne']
      have hcast : ((t + 1 : ℤ) : ℚ) ≤ (((k + 1) * n : ℤ) : ℚ) := Int.cast_le.mpr htk
      push_cast at hcast
      linarith
    linarith

end NearestDoubles
