/-
Linear congruential generators modulo a power of two.

The states are distinct for a whole period, and the leading digits of a few of them determine the
first: a short integer relation between the powers of the multiplier holds exactly between the
differences of two sequences with the same leading digits, and enough such relations leave no
difference.

* `iterate_next` — a state as an affine function of the first one;
* `iterate_injOn` — `2 ^ k` states, all of them distinct;
* `Certificate` — relations that are short enough and determine the first state;
* `Certificate.eq_of_leading` — equal leading digits come from equal states.
-/
import Mathlib.Algebra.BigOperators.ModEq
import Mathlib.Algebra.Order.BigOperators.Ring.Finset
import Mathlib.Algebra.Ring.GeomSum
import Mathlib.Data.Int.ModEq
import Mathlib.Data.Matrix.Mul
import Mathlib.Data.Nat.Prime.Basic
import Mathlib.Data.Set.Function
import Mathlib.Tactic.Linarith
import Mathlib.Tactic.Ring

open Matrix

namespace LinearCongruential

/-- `a * x + c` modulo `m`. -/
def next (a c m x : ℕ) : ℕ := (a * x + c) % m

/-! ### The period -/

def geom (a n : ℕ) : ℕ := ∑ i ∈ Finset.range n, a ^ i

section Period

variable {a c k m n : ℕ}

theorem coprime_two_pow (k : ℕ) (h : Odd n) : Nat.Coprime (2 ^ k) n :=
  Nat.Coprime.pow_left k (Nat.coprime_two_left.mpr h)

theorem geom_double (a t : ℕ) : geom a (t + t) = geom a t * (1 + a ^ t) := by
  rw [geom, Finset.sum_range_add, geom, mul_add, mul_one, Finset.sum_mul]
  simp only [pow_add, mul_comm (a ^ t)]

theorem geom_mod_two (ha : a % 4 = 1) (n : ℕ) : geom a n % 2 = n % 2 := by
  induction n with
  | zero => rfl
  | succ n ih =>
    have hodd : a ^ n % 2 = 1 := Nat.odd_iff.mp ((Nat.odd_iff.mpr (by omega : a % 2 = 1)).pow)
    rw [geom, Finset.sum_range_succ, ← geom]
    omega

/-- A geometric sum is divisible by no higher power of two than the number of its terms. -/
theorem two_pow_dvd_of_dvd_geom (ha : a % 4 = 1) (h : 2 ^ k ∣ geom a n) : 2 ^ k ∣ n := by
  induction k generalizing n with
  | zero => exact one_dvd n
  | succ k ih =>
    have heven : n % 2 = 0 := by
      have htwo : 2 ∣ geom a n := (dvd_pow_self 2 k.succ_ne_zero).trans h
      have hmod := geom_mod_two ha n
      omega
    obtain ⟨t, rfl⟩ : ∃ t, n = t + t := ⟨n / 2, by omega⟩
    -- the second factor is twice an odd number
    have hpow : a ^ t % 4 = 1 := by rw [Nat.pow_mod, ha, one_pow, Nat.mod_eq_of_lt (by decide)]
    obtain ⟨u, hu⟩ : ∃ u, 1 + a ^ t = 2 * (2 * u + 1) := ⟨a ^ t / 4, by omega⟩
    rw [geom_double, hu, ← mul_assoc, mul_comm (geom a t), mul_assoc, pow_succ',
      Nat.mul_dvd_mul_iff_left two_pos] at h
    have hcoprime : Nat.Coprime (2 ^ k) (2 * u + 1) :=
      coprime_two_pow k ⟨u, rfl⟩
    rw [← two_mul, pow_succ']
    exact Nat.mul_dvd_mul_left 2 (ih (hcoprime.dvd_of_dvd_mul_right h))

theorem iterate_next (x : ℕ) :
    (next a c m)^[n] x ≡ a ^ n * x + c * geom a n [MOD m] := by
  induction n with
  | zero => simp [geom, Nat.ModEq.refl]
  | succ n ih =>
    rw [Function.iterate_succ_apply', next]
    refine (Nat.mod_modEq _ _).trans (((ih.mul_left a).add_right c).trans ?_)
    have hgeom : geom a (n + 1) = 1 + a * geom a n := by
      rw [geom, Finset.sum_range_succ', geom, Finset.mul_sum]
      simp only [pow_succ', pow_zero, add_comm]
    rw [hgeom, pow_succ']
    have hsum : a * (a ^ n * x + c * geom a n) + c =
        a * a ^ n * x + c * (1 + a * geom a n) := by ring
    rw [hsum]

/-- **The period.** No state comes back before `2 ^ k` steps. -/
theorem iterate_injOn (ha : a % 4 = 1) (hc : c % 2 = 1) (k x : ℕ) :
    Set.InjOn (fun n => (next a c (2 ^ k))^[n] x) (Set.Iio (2 ^ k)) := by
  have hcoprime : Nat.Coprime (2 ^ k) a := coprime_two_pow k (Nat.odd_iff.mpr (by omega))
  have hle : ∀ i j, i ≤ j → j < 2 ^ k →
      (next a c (2 ^ k))^[i] x = (next a c (2 ^ k))^[j] x → i = j := by
    intro i j hij hj h
    obtain ⟨n, rfl⟩ := Nat.exists_eq_add_of_le hij
    rw [Function.iterate_add_apply] at h
    -- the first `i` steps can be undone
    have hi := (iterate_next (a := a) (c := c) (m := 2 ^ k) (n := i) x).symm
    rw [h] at hi
    have hback : x ≡ (next a c (2 ^ k))^[n] x [MOD 2 ^ k] :=
      Nat.ModEq.cancel_left_of_coprime (hcoprime.pow_right i)
        (Nat.ModEq.add_right_cancel' _ (hi.trans (iterate_next _)))
    obtain ⟨b, rfl⟩ : ∃ b, a = b + 1 := ⟨a - 1, by omega⟩
    have hpow : (b + 1) ^ n = geom (b + 1) n * b + 1 := (geom_sum_mul_add b n).symm
    have hround : x + geom (b + 1) n * (b * x + c) ≡ x + 0 [MOD 2 ^ k] := by
      have hsum : x + geom (b + 1) n * (b * x + c) =
          (geom (b + 1) n * b + 1) * x + c * geom (b + 1) n := by ring
      rw [hsum, ← hpow]
      exact ((iterate_next x).symm.trans hback.symm)
    have hdvd := Nat.modEq_zero_iff_dvd.mp (Nat.ModEq.add_left_cancel' x hround)
    have hodd : Odd (b * x + c) := by
      refine Even.add_odd (Even.mul_right (Nat.even_iff.mpr (by omega)) x) (Nat.odd_iff.mpr hc)
    have hn := two_pow_dvd_of_dvd_geom ha ((coprime_two_pow k hodd).dvd_of_dvd_mul_right hdvd)
    have hzero := Nat.eq_zero_of_dvd_of_lt hn (by omega)
    omega
  intro i hi j hj h
  rcases Nat.le_total i j with hij | hji
  · exact hle i j hij hj h
  · exact (hle j i hji hi h.symm).symm

end Period

/-! ### Leading digits -/

/-- Relations between powers of `a` modulo `N` that are too short for differences of at most `B`
to meet them modulo `N` only, and that leave no other difference than zero at the first place. -/
structure Certificate (a N B : ℤ) (m : ℕ) where
  position : Fin (m + 1) → ℕ
  relations : Matrix (Fin (m + 1)) (Fin (m + 1)) ℤ
  weights : Fin (m + 1) → ℤ
  modulus_pos : 0 < N
  divides : ∀ i, N ∣ ∑ j, relations i j * a ^ position j
  short : ∀ i, (∑ j, |relations i j|) * B < N
  spans : weights ᵥ* relations = Pi.single 0 N

section Certificate

variable {a N B : ℤ} {m : ℕ} (C : Certificate a N B m) {d : Fin (m + 1) → ℤ} {x : ℤ}

/-- Small differences meet the relations exactly. -/
theorem Certificate.mulVec_eq_zero (hd : ∀ j, d j ≡ a ^ C.position j * x [ZMOD N])
    (hsmall : ∀ j, |d j| ≤ B) : C.relations *ᵥ d = 0 := by
  funext i
  show ∑ j, C.relations i j * d j = 0
  have hdvd : N ∣ ∑ j, C.relations i j * d j := by
    have hmod : ∑ j, C.relations i j * d j ≡ (∑ j, C.relations i j * a ^ C.position j) * x
        [ZMOD N] := by
      rw [Finset.sum_mul]
      refine Int.ModEq.sum fun j _ => ?_
      rw [mul_assoc]
      exact (hd j).mul_left _
    exact (Int.modEq_zero_iff_dvd.mp (hmod.trans
      (Int.modEq_zero_iff_dvd.mpr (Dvd.dvd.mul_right (C.divides i) x))))
  have hbound : |∑ j, C.relations i j * d j| < N := by
    calc |∑ j, C.relations i j * d j| ≤ ∑ j, |C.relations i j * d j| :=
          Finset.abs_sum_le_sum_abs _ _
      _ ≤ ∑ j, |C.relations i j| * B := Finset.sum_le_sum fun j _ => by
          rw [abs_mul]
          exact mul_le_mul_of_nonneg_left (hsmall j) (abs_nonneg _)
      _ = (∑ j, |C.relations i j|) * B := (Finset.sum_mul _ _ _).symm
      _ < N := C.short i
  exact Int.eq_zero_of_abs_lt_dvd hdvd hbound

theorem Certificate.eq_zero (hd : ∀ j, d j ≡ a ^ C.position j * x [ZMOD N])
    (hsmall : ∀ j, |d j| ≤ B) : d 0 = 0 := by
  have hzero : N * d 0 = 0 := by
    calc N * d 0 = Pi.single 0 N ⬝ᵥ d := (single_dotProduct d N 0).symm
      _ = C.weights ⬝ᵥ (C.relations *ᵥ d) := by rw [← C.spans, dotProduct_mulVec]
      _ = 0 := by rw [C.mulVec_eq_zero hd hsmall, dotProduct_zero]
  exact (mul_eq_zero.mp hzero).resolve_left C.modulus_pos.ne'

end Certificate

/-- **Leading digits.** States whose leading digits agree at the places of a certificate agree at
the first of them. -/
theorem Certificate.eq_of_leading {a c N B m : ℕ} (C : Certificate a N (B - 1) m) (hB : 0 < B)
    {x y : ℕ} (h : ∀ j, (next a c N)^[C.position j] x / B = (next a c N)^[C.position j] y / B) :
    (next a c N)^[C.position 0] x = (next a c N)^[C.position 0] y := by
  have hzero := C.eq_zero (d := fun j => ((next a c N)^[C.position j] x : ℤ) -
    (next a c N)^[C.position j] y) (x := (x : ℤ) - y) (fun j => ?_) fun j => ?_
  · omega
  · have hmod : ∀ z : ℕ, (((next a c N)^[C.position j] z : ℕ) : ℤ) ≡
        a ^ C.position j * z + c * geom a (C.position j) [ZMOD N] := fun z => by
      have hnext := Int.natCast_modEq_iff.mpr (iterate_next (a := a) (c := c) (m := N)
        (n := C.position j) z)
      push_cast at hnext ⊢
      exact hnext
    have hsub := (hmod x).sub (hmod y)
    rwa [add_sub_add_right_eq_sub, ← mul_sub] at hsub
  · -- equal quotients differ by less than the divisor
    have hx := Nat.div_add_mod ((next a c N)^[C.position j] x) B
    have hy := Nat.div_add_mod ((next a c N)^[C.position j] y) B
    have hxlt := Nat.mod_lt ((next a c N)^[C.position j] x) hB
    have hylt := Nat.mod_lt ((next a c N)^[C.position j] y) hB
    rw [h j] at hx
    rw [abs_le]
    constructor <;> omega

end LinearCongruential
