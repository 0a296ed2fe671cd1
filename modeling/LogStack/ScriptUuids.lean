/-
The UUIDs of the data set generator (`rngUuid` of `scripts/generate-events.ts`).

A UUID shows the leading four bits of 32 states, but for two of them. That is enough to determine
the states, so that no UUID comes twice before the random numbers come again.

* `certificate` — sixteen short relations between powers of the multiplier;
* `uuidAt`, `rngUuid_eq` — the UUID that 32 draws from a position make;
* `uuidAt_v4`, `uuidAt_injOn` — a version 4 UUID, and another one at each of `2 ^ 32` positions.
-/
import LogStack.EventScript
import Mathlib.Algebra.Order.Floor.Semifield
import Mathlib.LinearAlgebra.Matrix.Notation

open JsString (isDigit isHexDigit)
open LinearCongruential (Certificate next)
open Sampling
open Sender (NearestMath floorRandom isInstanceUuid isUuidV4 round_mul_lt)

namespace Dataset

/-! ### Leading digits determine the states -/

/-- Places of a UUID that are not overwritten. -/
def places : Fin 16 → ℕ := ![0, 1, 5, 6, 7, 8, 11, 17, 19, 21, 23, 25, 26, 27, 28, 31]

/-- A reduced basis of the integer relations between the powers of the multiplier. -/
def relations : Matrix (Fin 16) (Fin 16) ℤ :=
  !![1, 1, 2, 1, 0, 0, 2, 0, -2, 0, -1, 0, 0, -1, -2, -1;
     2, 0, 1, -3, 1, -1, 1, 0, -1, 0, 0, -1, -1, 0, -2, 0;
     1, 0, 0, -3, -1, 1, 1, 1, 0, 0, 4, -1, 0, 0, 0, 1;
     0, 0, 1, 1, 0, 0, -1, 2, 3, 0, 0, 2, 0, -4, 0, 0;
     1, 1, -2, 1, -1, 0, -2, 0, 1, 0, 1, 1, -1, -1, -2, -1;
     0, 0, 1, 1, -1, 2, -1, -1, -2, 0, -4, -1, 0, 1, 0, 1;
     2, 1, 1, 2, -2, 0, 0, -1, -2, 0, 0, 1, -1, 1, 0, 2;
     0, 3, 1, -2, -1, 2, 0, 0, 0, 1, -1, -2, 1, 2, 0, 0;
     0, 1, -1, 3, -1, -1, 0, -1, 1, -1, 0, 0, 1, 0, -3, 2;
     1, 0, -1, 1, -2, 1, 0, -1, -1, -4, -1, 1, 0, -1, -1, 0;
     1, -2, -3, 0, 1, 0, 1, 0, -1, -1, 0, 1, 1, 1, 2, -1;
     1, -2, -1, -1, 1, 0, 1, 0, 2, 2, 0, 3, 0, 2, 0, 0;
     2, 1, 3, 1, 1, 1, 0, -2, 1, 0, 0, 0, 3, 0, 0, 1;
     2, 0, -1, -1, -2, 0, -3, 1, 2, 0, -1, -1, 1, 0, -1, 0;
     2, 0, 1, 0, 1, 0, 2, 2, 0, -2, -2, -1, -2, 0, 0, -1;
     0, 0, 2, 0, 1, -1, 0, 2, -2, 0, 0, -1, 1, 1, -4, 1]

def weights : Fin 16 → ℤ :=
  ![160445107, 338558412, 188325111, 73879425, 352631189, 122272151, 393467102, -134218456,
    20903088, -357007184, 520781472, -70308161, 376155504, 336114164, 305754699, -175880679]

/-- Four bits of sixteen states determine the first of them. -/
def certificate : Certificate (1664525 : ℕ) (2 ^ 32 : ℕ) ((2 ^ 28 : ℕ) - 1) 15 where
  position := places
  relations := relations
  weights := weights
  modulus_pos := by decide +kernel
  divides := by decide +kernel
  short := by decide +kernel
  spans := by
    funext j
    revert j
    decide +kernel

section States

variable {seed : ℤ} {i j : ℕ}

theorem state_add (seed : ℤ) (i n : ℕ) :
    state seed (i + n) = (next 1664525 1013904223 (2 ^ 32))^[n] (state seed i) := by
  rw [state, state, Nat.add_comm, Function.iterate_add_apply]

/-- No state comes back before `2 ^ 32` draws. -/
theorem state_injOn (seed : ℤ) : Set.InjOn (fun i => state seed (i + 1)) (Set.Iio (2 ^ 32)) := by
  have h := LinearCongruential.iterate_injOn (a := 1664525) (c := 1013904223) (by decide)
    (by decide) 32 (state seed 1)
  intro i hi j hj hij
  refine h hi hj ?_
  dsimp only at hij ⊢
  rwa [← state_add, ← state_add, Nat.add_comm 1 i, Nat.add_comm 1 j]

theorem state_eq_of_leading
    (h : ∀ k, state seed (i + 1 + places k) / 2 ^ 28 = state seed (j + 1 + places k) / 2 ^ 28) :
    state seed (i + 1) = state seed (j + 1) := by
  have hplace : places 0 = 0 := rfl
  have hfirst := certificate.eq_of_leading (c := 1013904223) (B := 2 ^ 28) (x := state seed (i + 1))
    (y := state seed (j + 1)) (by decide) fun k => by
      have hk := h k
      rwa [state_add, state_add seed (j + 1)] at hk
  exact hfirst

end States

/-! ### Random numbers are doubles -/

section Doubles

variable (M : NearestMath) (seed : ℤ) (i : ℕ)

/-- A fraction of 32 bits with a short numerator. -/
theorem isDouble_div {n : ℕ} (h : n ≤ 2 ^ 53) : IsDouble (n / 2 ^ 32) :=
  isDouble_div_two_pow (m := n) (by rw [Nat.abs_cast]; exact_mod_cast h) (by decide)

theorem createRng_double : IsDouble (createRng seed i) :=
  isDouble_div ((state_lt seed i).le.trans (by decide))

/-- A random number times a short number is a double. -/
theorem round_createRng_mul {n : ℕ} (h : n ≤ 2 ^ 21) :
    M.round (createRng seed i * n) = createRng seed i * n := by
  have hproduct : createRng seed i * n = ((state seed (i + 1) * n : ℕ) : ℚ) / 2 ^ 32 := by
    rw [createRng]
    push_cast
    ring
  have hle : state seed (i + 1) * n ≤ 2 ^ 53 := by
    calc state seed (i + 1) * n ≤ 2 ^ 32 * 2 ^ 21 := Nat.mul_le_mul (state_lt seed i).le h
      _ = 2 ^ 53 := by norm_num
  refine M.round_double (hproduct ▸ isDouble_div hle) ?_
  have hunit := createRng_unit seed i
  have hn : (n : ℚ) ≤ 2 ^ 53 := by exact_mod_cast h.trans (by decide)
  rw [abs_of_nonneg (mul_nonneg hunit.1 n.cast_nonneg)]
  exact (mul_le_of_le_one_left n.cast_nonneg hunit.2.le).trans hn

/-- A draw of a digit takes the leading four bits. -/
theorem floorRandom_sixteen :
    floorRandom M.toJsMath 16 (scriptSource seed) i = (state seed (i + 1) / 2 ^ 28, i + 1) := by
  have hround := round_createRng_mul M seed i (n := 16) (by decide)
  have hquotient : createRng seed i * (16 : ℕ) = (state seed (i + 1) : ℚ) / (2 ^ 28 : ℕ) := by
    rw [createRng]
    push_cast
    ring
  have hdigit : ⌊M.round (createRng seed i * (16 : ℕ))⌋₊ = state seed (i + 1) / 2 ^ 28 := by
    rw [hround, hquotient, Nat.floor_div_eq_div]
  exact Prod.ext hdigit rfl

end Doubles

/-! ### UUIDs -/

/-- The digits that 32 draws give. -/
def nibbles (seed : ℤ) (i : ℕ) : List ℕ :=
  (List.range' (i + 1) 32).map fun k => state seed k / 2 ^ 28

def uuidAt (seed : ℤ) (i : ℕ) : JsString := hyphenated ((stamped (nibbles seed i)).map hexDigit)

theorem replicateM_digit (M : NearestMath) (seed : ℤ) : ∀ n i,
    replicateM (floorRandom M.toJsMath 16) n (scriptSource seed) i =
      ((List.range' (i + 1) n).map fun k => state seed k / 2 ^ 28, i + n)
  | 0, _ => rfl
  | n + 1, i => by
    have hrest : replicateM (floorRandom M.toJsMath 16) n (scriptSource seed) (i + 1) = _ :=
      replicateM_digit M seed n (i + 1)
    show ((floorRandom M.toJsMath 16 (scriptSource seed) i).1 ::
        (replicateM (floorRandom M.toJsMath 16) n (scriptSource seed)
          (floorRandom M.toJsMath 16 (scriptSource seed) i).2).1,
      (replicateM (floorRandom M.toJsMath 16) n (scriptSource seed)
        (floorRandom M.toJsMath 16 (scriptSource seed) i).2).2) = _
    rw [floorRandom_sixteen, hrest, List.range'_succ, List.map_cons]
    exact Prod.ext rfl (by show i + 1 + n = i + (n + 1); omega)

theorem rngUuid_eq (M : NearestMath) (seed : ℤ) (i : ℕ) :
    rngUuid M.toJsMath (scriptSource seed) i = (uuidAt seed i, i + 32) := by
  have hdigits := replicateM_digit M seed 32 i
  set drawn := replicateM (floorRandom M.toJsMath 16) 32 (scriptSource seed) i with hdrawn
  show (hyphenated ((stamped drawn.1).map hexDigit), drawn.2) = _
  rw [hdigits]
  rfl

theorem mem_nibbles {seed : ℤ} {i n : ℕ} (h : n ∈ nibbles seed i) : n < 16 := by
  obtain ⟨k, hk, rfl⟩ := List.mem_map.mp h
  obtain ⟨m, rfl⟩ : ∃ m, k = m + 1 := ⟨k - 1, by have := (List.mem_range'_1.mp hk).1; omega⟩
  have hlt := state_lt seed m
  exact Nat.div_lt_of_lt_mul (hlt.trans_le (by decide))

theorem length_nibbles (seed : ℤ) (i : ℕ) : (nibbles seed i).length = 32 := by
  rw [nibbles, List.length_map, List.length_range']

/-! ### Digits and hyphens -/

section Digits

variable {digits digits' : List ℕ} {s t : JsString}

theorem isHexDigit_hexDigit : ∀ k < 16, isHexDigit (hexDigit k) = true := by decide

theorem hexDigit_inj : ∀ k < 16, ∀ m < 16, hexDigit k = hexDigit m → k = m := by decide

theorem getElem?_stamped (hlength : digits.length = 32) (k : ℕ) : (stamped digits)[k]? =
    if k = 16 then some (digits.getD 16 0 % 4 + 8) else if k = 12 then some 4 else digits[k]? := by
  have hset : (digits.set 12 4).getD 16 0 = digits.getD 16 0 := by
    rw [List.getD_eq_getElem?_getD, List.getElem?_set_ne (by decide), List.getD_eq_getElem?_getD]
  rw [stamped, hset]
  by_cases h16 : k = 16
  · subst h16
    rw [if_pos rfl, List.getElem?_set_self (by rw [List.length_set, hlength]; decide)]
  rw [if_neg h16, List.getElem?_set_ne (Ne.symm h16)]
  by_cases h12 : k = 12
  · subst h12
    rw [if_pos rfl, List.getElem?_set_self (by rw [hlength]; decide)]
  · rw [if_neg h12, List.getElem?_set_ne (Ne.symm h12)]

theorem length_stamped : (stamped digits).length = digits.length := by
  rw [stamped, List.length_set, List.length_set]

theorem stamped_lt (h : ∀ n ∈ digits, n < 16) : ∀ n ∈ stamped digits, n < 16 := by
  intro n hn
  rcases List.mem_or_eq_of_mem_set hn with hn | rfl
  · rcases List.mem_or_eq_of_mem_set hn with hn | rfl
    · exact h n hn
    · decide
  · omega

/-- The place of a character among those that are no hyphens. -/
def digitPlace (p : ℕ) : ℕ := p - [8, 13, 18, 23].countP (· < p)

theorem getElem?_hyphenated (h : s.length = 32) {p : ℕ} (hp : p < 36) :
    (hyphenated s)[p]? = if p ∈ [8, 13, 18, 23] then some 0x2d else s[digitPlace p]? := by
  have hminus : js "-" = [0x2d] := by decide +kernel
  rw [hyphenated, hminus]
  simp only [List.getElem?_append, List.length_append, List.length_take, List.length_drop, h,
    List.length_singleton, List.getElem?_take, List.getElem?_drop]
  interval_cases p <;> simp [digitPlace]

theorem length_hyphenated (h : s.length = 32) : (hyphenated s).length = 36 := by
  have hminus : (js "-").length = 1 := rfl
  simp only [hyphenated, List.length_append, List.length_take, List.length_drop, h, hminus]
  decide

theorem hyphenated_inj (hs : s.length = 32) (ht : t.length = 32)
    (h : hyphenated s = hyphenated t) : s = t := by
  have hplace : ∀ k < 32, ∃ p < 36, p ∉ [8, 13, 18, 23] ∧ digitPlace p = k := by decide +kernel
  refine List.ext_getElem? fun k => ?_
  rcases Nat.lt_or_ge k 32 with hk | hk
  · obtain ⟨p, hp, hhyphen, rfl⟩ := hplace k hk
    have hleft := getElem?_hyphenated hs hp
    have hright := getElem?_hyphenated ht hp
    rw [if_neg hhyphen] at hleft hright
    rw [← hleft, ← hright, h]
  · rw [List.getElem?_eq_none (hs.trans_le hk), List.getElem?_eq_none (ht.trans_le hk)]

/-- Hyphens at their four places, and digits with the version and the variant of a random UUID. -/
theorem isUuidV4_hyphenated (hlength : digits.length = 32) (h : ∀ n ∈ digits, n < 16) :
    isUuidV4 (hyphenated ((stamped digits).map hexDigit)) = true := by
  set s := (stamped digits).map hexDigit with hs
  have hslength : s.length = 32 := by rw [hs, List.length_map, length_stamped, hlength]
  have hget : ∀ k, s[k]? = (stamped digits)[k]?.map hexDigit := fun k => by
    rw [hs, List.getElem?_map]
  have hvariant : ∀ n, hexDigit (n % 4 + 8) ∈ js "89abAB" := by
    have hall : ∀ n < 4, hexDigit (n + 8) ∈ js "89abAB" := by decide +kernel
    exact fun n => hall _ (Nat.mod_lt _ (by decide))
  simp only [isUuidV4, isInstanceUuid, Bool.and_eq_true, decide_eq_true_iff, List.all_eq_true,
    length_hyphenated hslength, true_and]
  constructor
  · rintro ⟨u, p⟩ hmem
    have hu : (hyphenated s)[p]? = some u := by
      simpa using List.mem_zipIdx_iff_getElem?.mp hmem
    have hp : p < 36 := length_hyphenated hslength ▸ (List.getElem?_eq_some_iff.mp hu).1
    rw [getElem?_hyphenated hslength hp] at hu
    dsimp only
    split_ifs at hu ⊢ with hhyphen hfourteen hnineteen
    · exact decide_eq_true (Option.some.inj hu).symm
    · -- the version
      subst hfourteen
      rw [hget, getElem?_stamped hlength] at hu
      obtain rfl : hexDigit 4 = u := Option.some.inj hu
      decide
    · -- the variant
      subst hnineteen
      rw [hget, getElem?_stamped hlength] at hu
      obtain rfl : hexDigit (digits.getD 16 0 % 4 + 8) = u := Option.some.inj hu
      exact decide_eq_true (hvariant _)
    · obtain ⟨n, hn, rfl⟩ := List.mem_map.mp (List.mem_of_getElem? hu)
      exact isHexDigit_hexDigit n (stamped_lt h n hn)
  · rw [getElem?_hyphenated hslength (by decide), if_neg (by decide), hget,
      getElem?_stamped hlength]
    rfl

/-- Equal UUIDs have equal digits, but for the version and the variant. -/
theorem getElem?_eq_of_hyphenated (hlength : digits.length = 32) (hlength' : digits'.length = 32)
    (h : ∀ n ∈ digits, n < 16) (h' : ∀ n ∈ digits', n < 16)
    (heq : hyphenated ((stamped digits).map hexDigit) = hyphenated ((stamped digits').map hexDigit))
    {k : ℕ} (hk : k ≠ 12 ∧ k ≠ 16) : digits[k]? = digits'[k]? := by
  have hmap := hyphenated_inj (by rw [List.length_map, length_stamped, hlength])
    (by rw [List.length_map, length_stamped, hlength']) heq
  have hplace : ∀ digits : List ℕ, digits.length = 32 →
      ((stamped digits).map hexDigit)[k]? = digits[k]?.map hexDigit := fun digits hlength => by
    rw [List.getElem?_map, getElem?_stamped hlength, if_neg hk.2, if_neg hk.1]
  have hdigit : digits[k]?.map hexDigit = digits'[k]?.map hexDigit := by
    rw [← hplace digits hlength, ← hplace digits' hlength', hmap]
  rcases Nat.lt_or_ge k 32 with hlt | hge
  · rw [List.getElem?_eq_getElem (hlt.trans_eq hlength.symm),
      List.getElem?_eq_getElem (hlt.trans_eq hlength'.symm)] at hdigit ⊢
    exact congrArg some (hexDigit_inj _ (h _ (List.getElem_mem _)) _ (h' _ (List.getElem_mem _))
      (Option.some.inj hdigit))
  · rw [List.getElem?_eq_none (hlength.trans_le hge), List.getElem?_eq_none (hlength'.trans_le hge)]

end Digits

theorem uuidAt_v4 (seed : ℤ) (i : ℕ) : isUuidV4 (uuidAt seed i) = true :=
  isUuidV4_hyphenated (length_nibbles seed i) fun _ => mem_nibbles

/-- **No UUID comes twice** before the random numbers come again. -/
theorem uuidAt_injOn (seed : ℤ) : Set.InjOn (uuidAt seed) (Set.Iio (2 ^ 32)) := by
  intro i hi j hj h
  refine state_injOn seed hi hj (state_eq_of_leading fun k => ?_)
  have hkept : ∀ k, places k < 32 ∧ places k ≠ 12 ∧ places k ≠ 16 := by decide +kernel
  have hdigit := getElem?_eq_of_hyphenated (length_nibbles seed i) (length_nibbles seed j)
    (fun _ => mem_nibbles) (fun _ => mem_nibbles) h (hkept k).2
  have hget : ∀ m, (nibbles seed m)[places k]? = some (state seed (m + 1 + places k) / 2 ^ 28) := by
    intro m
    rw [nibbles, List.getElem?_map, List.getElem?_range' (hkept k).1, Nat.one_mul]
    rfl
  rw [hget, hget] at hdigit
  exact Option.some.inj hdigit

end Dataset
