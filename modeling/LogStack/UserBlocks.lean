/-
The blocks of users that the instances share out (`instanceUserIdBase`).

A user id is made of a `BigInt` remainder and a random number, and a character id of the user
id, all of them doubles.

* `NearestMath`, `DoubleSource` — rounding to the nearest double, and random doubles;
* `round_mul_lt` — a random number times `n`, rounded, stays below `n`;
* `doubleUserId`, `doubleCharacterId` — the ids as the code computes them;
* `user_blocks` — they are exact and stay in the block of the instance; blocks are equal or
  disjoint.
-/
import LogStack.GeneratedTraffic
import LogStack.NearestDoubles
import Mathlib.Data.Int.ModEq
import Mathlib.Order.Interval.Finset.Nat

open JsString (isDigit isHexDigit ofDigits digitValue)
open Sampling

/-! ### Doubles -/

/-- The largest double below 1. -/
theorem IsDouble.le_of_lt_one {q : ℚ} (h : IsDouble q) (hlt : q < 1) : q ≤ 1 - 1 / 2 ^ 53 := by
  obtain ⟨m, e, hm, -, -, rfl⟩ := h
  rw [abs_le] at hm
  rcases lt_or_ge e 0 with he | he
  · obtain ⟨k, rfl⟩ : ∃ k : ℕ, e = -k := ⟨e.natAbs, by omega⟩
    have hpow : (0 : ℚ) < 2 ^ k := by positivity
    rw [zpow_neg, zpow_natCast, ← div_eq_mul_inv] at hlt ⊢
    rw [div_lt_one hpow] at hlt
    rw [div_le_iff₀ hpow]
    rcases Nat.lt_or_ge 53 k with hk | hk
    · -- the significand is at most half of the denominator
      have hdouble : (2 : ℚ) * 2 ^ 53 ≤ 2 ^ k := by
        rw [← pow_succ']
        exact pow_le_pow_right₀ one_le_two hk
      have hle : (m : ℚ) ≤ 2 ^ 53 := by exact_mod_cast hm.2
      have hhalf : (1 : ℚ) / 2 ≤ 1 - 1 / 2 ^ 53 := by norm_num
      nlinarith
    · have hle : (m : ℚ) + 1 ≤ 2 ^ k := by exact_mod_cast hlt
      have hinv : (2 : ℚ) ^ k * (1 / 2 ^ 53) ≤ 1 := by
        rw [mul_one_div, div_le_one (by positivity)]
        exact pow_le_pow_right₀ one_le_two hk
      linarith
  · -- an integer below 1
    obtain ⟨k, rfl⟩ := Int.eq_ofNat_of_zero_le he
    have hint : (m : ℚ) * (2 : ℚ) ^ (k : ℤ) = (m * 2 ^ k : ℤ) := by
      rw [zpow_natCast]
      push_cast
      rfl
    rw [hint] at hlt ⊢
    have hle : m * 2 ^ k ≤ 0 := by
      have hone : m * 2 ^ k < 1 := by exact_mod_cast hlt
      omega
    have hcast : ((m * 2 ^ k : ℤ) : ℚ) ≤ 0 := by exact_mod_cast hle
    have hpos : (0 : ℚ) ≤ 1 - 1 / 2 ^ 53 := by norm_num
    exact hcast.trans hpos

namespace Sender

/-- `Math`, with rounding to a nearest double. -/
structure NearestMath extends JsMath, NearestDoubles

/-- A source whose random numbers are doubles. -/
structure DoubleSource extends Source where
  random_double : ∀ i, IsDouble (random i)

section Rounding

variable {M : NearestMath} {r : ℚ} {n : ℕ}

theorem NearestMath.round_nat (M : NearestMath) {n : ℕ} (h : n ≤ 2 ^ 53) : M.round (n : ℚ) = n := by
  have hint := M.round_int (n : ℤ) (by rw [Nat.abs_cast]; exact_mod_cast h)
  exact_mod_cast hint

/-- A number lies in a binade. -/
theorem exists_binade (h : 0 < n) : ∃ k, n ≤ 2 ^ k ∧ 2 ^ k < 2 * n := by
  refine ⟨Nat.clog 2 n, Nat.le_pow_clog one_lt_two n, ?_⟩
  rcases Nat.lt_or_ge 1 n with hn | hn
  · have hlt := Nat.pow_pred_clog_lt_self one_lt_two hn
    have hpos := Nat.clog_pos one_lt_two hn
    obtain ⟨k, hk⟩ := Nat.exists_eq_succ_of_ne_zero hpos.ne'
    rw [hk, Nat.pred_succ] at hlt
    rw [hk, pow_succ]
    omega
  · obtain rfl : n = 1 := by omega
    decide

/-- The double below `n`, one unit in the last place away. -/
theorem isDouble_pred {k : ℕ} (hpos : 0 < n) (hk : k ≤ 53) (hn : n ≤ 2 ^ k) :
    IsDouble (n - 2 ^ k / 2 ^ 53) := by
  have hsplit : 2 ^ k * 2 ^ (53 - k) = 2 ^ 53 := by rw [← pow_add, Nat.add_sub_cancel' hk]
  have hle : n * 2 ^ (53 - k) ≤ 2 ^ 53 := hsplit ▸ Nat.mul_le_mul_right _ hn
  have hge : 1 ≤ n * 2 ^ (53 - k) := Nat.mul_pos hpos (by positivity)
  refine ⟨(n * 2 ^ (53 - k) : ℕ) - 1, k - 53, ?_, by omega, by omega, ?_⟩
  · rw [abs_le]
    constructor <;> omega
  · have hpow : (2 : ℚ) ^ ((k : ℤ) - 53) = 2 ^ k / 2 ^ 53 := by
      rw [zpow_sub₀ two_ne_zero]
      norm_cast
    have hcast : (2 : ℚ) ^ k * 2 ^ (53 - k) = 2 ^ 53 := by exact_mod_cast hsplit
    rw [hpow]
    push_cast
    rw [sub_mul, one_mul, mul_assoc, mul_div_assoc', mul_comm ((2 : ℚ) ^ (53 - k)), hcast,
      div_self (by positivity), mul_one]

/-- **Rounding does not reach `n`.** The product is more than half a unit in the last place
below `n`. -/
theorem round_mul_lt (M : NearestMath) (hr : IsDouble r) (hunit : 0 ≤ r ∧ r < 1) (hpos : 0 < n)
    (hn : n ≤ 2 ^ 53) : M.round (r * n) < n := by
  obtain ⟨k, hle, hlt⟩ := exists_binade hpos
  have hk : k ≤ 53 := by
    by_contra hk
    have hpow : 2 ^ 54 ≤ 2 ^ k := Nat.pow_le_pow_right (by decide) (by omega)
    omega
  have hdouble := isDouble_pred hpos hk hle
  have hcast : (n : ℚ) ≤ 2 ^ 53 := by exact_mod_cast hn
  have hposQ : (0 : ℚ) < n := by exact_mod_cast hpos
  set q := r * n with hq
  set ulp : ℚ := 2 ^ k / 2 ^ 53 with hulp
  have hulp_pos : 0 < ulp := by positivity
  have hhalf : ulp < 2 * (n / 2 ^ 53) := by
    rw [hulp, ← mul_div_assoc]
    exact div_lt_div_of_pos_right (by exact_mod_cast hlt) (by positivity)
  have hqle : q ≤ n - n / 2 ^ 53 := by
    calc q ≤ (1 - 1 / 2 ^ 53) * n := mul_le_mul_of_nonneg_right (hr.le_of_lt_one hunit.2) hposQ.le
      _ = n - n / 2 ^ 53 := by ring
  have hqnonneg : 0 ≤ q := mul_nonneg hunit.1 hposQ.le
  have hsmall : ∀ x : ℚ, 0 ≤ x → x ≤ n → |x| < 2 ^ 1024 - 2 ^ 970 := fun x hx hxn => by
    rw [abs_of_nonneg hx]
    exact (hxn.trans hcast).trans_lt two_pow_lt_overflow
  have hqn : q < n := by
    have hdiv : (0 : ℚ) < n / 2 ^ 53 := by positivity
    linarith
  by_contra hreach
  rw [not_lt] at hreach
  have hnear := M.nearest q _ (hsmall q hqnonneg hqn.le) hdouble
  rw [abs_of_nonneg (by linarith)] at hnear
  rcases le_total (n - ulp) q with hbelow | habove
  · -- `q` is nearer to the double below `n`
    rw [abs_of_nonpos (by linarith)] at hnear
    linarith
  · -- `q` rounds to at most that double
    have hself := M.nearest (n - ulp) _ (hsmall _ (hqnonneg.trans habove) (by linarith)) hdouble
    rw [sub_self, abs_zero, abs_nonpos_iff, sub_eq_zero] at hself
    have hmono := M.round_mono habove
    linarith

end Rounding

/-! ### Blocks -/

/-- A UUID as an integer. -/
def uuidInteger (instanceId : JsString) : ℕ :=
  ofDigits 16 digitValue (instanceId.filter fun u => u ≠ 0x2d)

/-- The thirty users of an instance. -/
def userBlock (instanceId : JsString) : Finset ℕ :=
  Finset.Ico (instanceUserIdBase instanceId) (instanceUserIdBase instanceId + 30)

section Blocks

variable {instanceId instanceId' : JsString}

theorem instanceUserIdBase_eq (instanceId : JsString) :
    instanceUserIdBase instanceId = uuidInteger instanceId % 30023997515803 * 30 + 1 := rfl

theorem userBlock_eq_iff : userBlock instanceId = userBlock instanceId' ↔
    uuidInteger instanceId ≡ uuidInteger instanceId' [MOD 30023997515803] := by
  have hbase := instanceUserIdBase_eq instanceId
  have hbase' := instanceUserIdBase_eq instanceId'
  constructor
  · intro h
    have hmem : instanceUserIdBase instanceId ∈ userBlock instanceId' :=
      h ▸ Finset.mem_Ico.mpr ⟨le_rfl, by omega⟩
    have hmem' : instanceUserIdBase instanceId' ∈ userBlock instanceId :=
      h ▸ Finset.mem_Ico.mpr ⟨le_rfl, by omega⟩
    have hle := (Finset.mem_Ico.mp hmem).1
    have hge := (Finset.mem_Ico.mp hmem').1
    show _ % _ = _ % _
    omega
  · intro h
    have hrem :
        uuidInteger instanceId % 30023997515803 = uuidInteger instanceId' % 30023997515803 := h
    rw [userBlock, userBlock, hbase, hbase', hrem]

theorem userBlock_disjoint (h : userBlock instanceId ≠ userBlock instanceId') :
    Disjoint (userBlock instanceId) (userBlock instanceId') := by
  rw [Ne, userBlock_eq_iff] at h
  have hrem :
      uuidInteger instanceId % 30023997515803 ≠ uuidInteger instanceId' % 30023997515803 := h
  have hbase := instanceUserIdBase_eq instanceId
  have hbase' := instanceUserIdBase_eq instanceId'
  refine Finset.disjoint_left.mpr fun u hu hu' => ?_
  have hu := Finset.mem_Ico.mp hu
  have hu' := Finset.mem_Ico.mp hu'
  omega

/-! ### 128 bits -/

theorem digitValue_lt {u : UInt16} (h : isHexDigit u = true) : digitValue u < 16 := by
  simp only [isHexDigit, isDigit, Bool.or_eq_true, Bool.and_eq_true, decide_eq_true_iff,
    UInt16.le_iff_toNat_le] at h
  simp only [digitValue, isDigit, Bool.and_eq_true, decide_eq_true_iff, UInt16.le_iff_toNat_le,
    UInt16.lt_iff_toNat_lt]
  simp only [UInt16.reduceToNat] at h ⊢
  split_ifs <;> omega

theorem ofDigits_lt {radix : ℕ} {value : UInt16 → ℕ} {s : JsString}
    (h : ∀ u ∈ s, value u < radix) : ofDigits radix value s < radix ^ s.length := by
  induction s using List.reverseRecOn with
  | nil => exact Nat.one_pos
  | append_singleton s u ih =>
    have hu := h u (by simp)
    have hs := ih fun v hv => h v (List.mem_append_left _ hv)
    rw [ofDigits] at hs ⊢
    rw [List.foldl_append, List.foldl_cons, List.foldl_nil, List.length_append,
      List.length_singleton, pow_succ]
    calc radix * _ + value u < radix * _ + radix := Nat.add_lt_add_left hu _
      _ = (_ + 1) * radix := by ring
      _ ≤ _ := Nat.mul_le_mul_right _ hs

/-- Four hyphens, and hexadecimal digits elsewhere. -/
theorem hyphen_or_hexDigit (h : isInstanceUuid instanceId = true) {u : UInt16} {i : ℕ}
    (hi : (u, i) ∈ instanceId.zipIdx) :
    if i ∈ [8, 13, 18, 23] then u = 0x2d else isHexDigit u = true := by
  simp only [isInstanceUuid, Bool.and_eq_true, List.all_eq_true] at h
  have hchar := h.2 (u, i) hi
  split_ifs at hchar ⊢ with hhyphen hversion hvariant
  · exact of_decide_eq_true hchar
  · simp only [Bool.and_eq_true, decide_eq_true_iff] at hchar
    simp only [isHexDigit, isDigit, Bool.or_eq_true, Bool.and_eq_true, decide_eq_true_iff]
    grind
  · have hall : ∀ u ∈ js "89abAB", isHexDigit u = true := List.all_eq_true.mp (by decide +kernel)
    exact hall u (by simpa using hchar)
  · exact hchar

theorem uuidInteger_lt (h : isInstanceUuid instanceId = true) :
    uuidInteger instanceId < 2 ^ 128 := by
  have hlength : instanceId.length = 36 := by
    simp only [isInstanceUuid, Bool.and_eq_true, decide_eq_true_iff] at h
    exact h.1
  have hminus : isHexDigit 0x2d = false := by decide
  -- the hyphens stand at four fixed places, which leaves 32 hexadecimal digits
  have hkept : ∀ p ∈ instanceId.zipIdx, decide (p.1 ≠ 0x2d) = decide (p.2 ∉ [8, 13, 18, 23]) := by
    rintro ⟨u, i⟩ hi
    have hchar := hyphen_or_hexDigit h hi
    rw [decide_eq_decide]
    split_ifs at hchar with hhyphen
    · exact iff_of_false (not_not.mpr hchar) (not_not.mpr hhyphen)
    · refine iff_of_true (fun hu => ?_) hhyphen
      obtain rfl : u = 0x2d := hu
      exact Bool.false_ne_true (hminus.symm.trans hchar)
  have hcount : (instanceId.filter fun u => u ≠ 0x2d).length = 32 := by
    have hfst : instanceId = instanceId.zipIdx.map Prod.fst := (List.zipIdx_map_fst _ _).symm
    have hsnd : instanceId.zipIdx.map Prod.snd = List.range' 0 36 := by
      rw [List.zipIdx_map_snd, hlength]
    rw [hfst, List.filter_map, List.length_map]
    rw [show ((fun u : UInt16 => decide (u ≠ 0x2d)) ∘ Prod.fst) = fun p : UInt16 × ℕ =>
      decide (p.1 ≠ 0x2d) from rfl, List.filter_congr hkept]
    have hrange :
        ((instanceId.zipIdx.map Prod.snd).filter fun i => i ∉ [8, 13, 18, 23]).length = 32 := by
      rw [hsnd]
      rfl
    rwa [List.filter_map, List.length_map] at hrange
  have hhex : ∀ u ∈ instanceId.filter fun u => u ≠ 0x2d, digitValue u < 16 := by
    intro u hu
    obtain ⟨hu, hne⟩ := List.mem_filter.mp hu
    obtain ⟨i, hi⟩ := List.mem_iff_getElem?.mp hu
    have hchar := hyphen_or_hexDigit h (List.mem_zipIdx_iff_getElem?.mpr (by simpa using hi) :
      (u, i) ∈ instanceId.zipIdx)
    split_ifs at hchar
    · exact absurd hchar (by simpa using hne)
    · exact digitValue_lt hchar
  have hlt := ofDigits_lt hhex
  rw [hcount] at hlt
  exact hlt

end Blocks

/-! ### The ids of an event -/

/-- `Number(namespace * 30n + 1n)`, then `+` and `Math.floor(rng() * users)`. -/
def doubleUserId (M : JsMath) (instanceId : JsString) (users r : ℚ) : ℚ :=
  M.round (M.round (uuidInteger instanceId % 30023997515803 * 30 + 1 : ℕ) + ⌊M.round (r * users)⌋)

/-- `userId * 10 + 1` -/
def doubleCharacterId (M : JsMath) (userId : ℚ) : ℚ := M.round (M.round (userId * 10) + 1)

section Ids

variable {instanceId : JsString} {r : ℚ} {n userId : ℕ}

/-- The first random number of an event chooses its user. -/
theorem makeEvent_userId (M : JsMath) (g : EventGenerator) (s : Source) (i : ℕ) :
    ∃ eventId now type payload, (makeEvent M g s i).1 = eventJson g.config.instanceId g.bootId
      eventId (g.userIdBase + ⌊M.round (s.random i * g.config.users)⌋₊) now type payload := by
  set k := ⌊M.round (s.random i * g.config.users)⌋₊ with hk
  let p : Json → Prop := fun event => ∃ eventId now type payload, event = eventJson
    g.config.instanceId g.bootId eventId (g.userIdBase + k) now type payload
  have hmake : ∀ {eventId now type} {payload : Gen (List (JsString × Json))}, Always p (do
      let payload ← payload
      pure (eventJson g.config.instanceId g.bootId eventId (g.userIdBase + k) now type payload)) :=
    always_bind always_true fun payload _ => always_pure ⟨_, _, _, payload, rfl⟩
  show p (makeEvent M g s i).1
  rw [makeEvent]
  refine at_bind ((?_ : Always p _) _ _)
  refine always_bind always_true fun eventId _ => always_bind always_true fun now _ =>
    always_bind always_true fun r _ => ?_
  split_ifs
  · exact hmake
  · exact hmake
  · exact hmake
  · exact always_bind always_true fun activity _ => hmake

theorem MAX_USER_ID_of_mem (h : userId ∈ userBlock instanceId) : userId < MAX_USER_ID := by
  have hbase := instanceUserIdBase_le instanceId
  have hmem := (Finset.mem_Ico.mp h).2
  omega

/-- A user id in the block of its instance is computed exactly. -/
theorem doubleUserId_eq (instanceId : JsString) (M : NearestMath) (hr : IsDouble r)
    (hunit : 0 ≤ r ∧ r < 1) (hn : n ≤ 30) :
    instanceUserIdBase instanceId + ⌊M.round (r * n)⌋₊ ∈ userBlock instanceId ∧
      doubleUserId M.toJsMath instanceId n r
        = (instanceUserIdBase instanceId + ⌊M.round (r * n)⌋₊ : ℕ) := by
  have hfloor : ⌊M.round (r * n)⌋₊ < 30 := by
    -- without users the offset is 0
    rcases Nat.eq_zero_or_pos n with rfl | hpos
    · have hzero := M.round_nat (Nat.zero_le _)
      simp only [Nat.cast_zero, mul_zero] at hzero ⊢
      rw [hzero, Nat.floor_zero]
      decide
    · have hlt := round_mul_lt M hr hunit hpos (hn.trans (by decide))
      exact ((Nat.floor_lt' hpos.ne').mpr hlt).trans_le hn
  have hnonneg : 0 ≤ M.round (r * n) := by
    have hzero := M.round_nat (Nat.zero_le _)
    have hmono := M.round_mono (mul_nonneg hunit.1 n.cast_nonneg)
    rwa [← Nat.cast_zero (R := ℚ), hzero] at hmono
  have hmem : instanceUserIdBase instanceId + ⌊M.round (r * n)⌋₊ ∈ userBlock instanceId :=
    Finset.mem_Ico.mpr ⟨by omega, by omega⟩
  have hmax := MAX_USER_ID_of_mem hmem
  refine ⟨hmem, ?_⟩
  have hbase := M.round_nat (n := instanceUserIdBase instanceId)
    (by rw [MAX_USER_ID] at hmax; omega)
  have hsum := M.round_nat (n := instanceUserIdBase instanceId + ⌊M.round (r * n)⌋₊)
    (by rw [MAX_USER_ID] at hmax; omega)
  rw [doubleUserId, ← instanceUserIdBase_eq, hbase, ← Int.natCast_floor_eq_floor hnonneg]
  exact_mod_cast hsum

theorem doubleCharacterId_eq (M : NearestMath) (h : userId ∈ userBlock instanceId) :
    doubleCharacterId M.toJsMath userId = (userId * 10 + 1 : ℕ) := by
  have hmax := MAX_USER_ID_of_mem h
  have hten := M.round_nat (n := userId * 10) (by rw [MAX_USER_ID] at hmax; omega)
  have hone := M.round_nat (n := userId * 10 + 1) (by rw [MAX_USER_ID] at hmax; omega)
  rw [doubleCharacterId, show (userId : ℚ) * 10 = (userId * 10 : ℕ) by push_cast; rfl, hten]
  exact_mod_cast hone

end Ids

/-- The user and the character of an event of an instance, in the model and in doubles. -/
structure ExactIds (M : JsMath) (config : SenderConfig) (r : ℚ) (event : Json) (userId : ℕ) :
    Prop where
  mem : userId ∈ userBlock config.instanceId
  user_id : event.get? (js "user_id") = some (.nat userId)
  character_id : event.get? (js "character_id") = some (.nat (userId * 10 + 1))
  safe : 0 < userId ∧ userId * 10 + 1 ≤ 2 ^ 53 - 1
  double_user_id : doubleUserId M config.instanceId config.users r = userId
  double_character_id : doubleCharacterId M userId = (userId * 10 + 1 : ℕ)

/-- **Blocks of users are safe and never overlap in part.** Whatever the configuration and the
random number, the ids of an event are positive safe integers of the block of its instance,
which the doubles of the code reach without rounding; two users of a block have different
characters; the blocks of two instances are equal exactly when their UUIDs leave the same
remainder, and disjoint otherwise. -/
theorem user_blocks (M : NearestMath) :
    (∀ (c : LoadedConfig) (s : DoubleSource) (i j : ℕ),
      ∃ userId, ExactIds M.toJsMath c.toSenderConfig (s.random j)
        (makeEvent M.toJsMath (EventGenerator.new c.toSenderConfig s.toSource i).1 s.toSource j).1
        userId) ∧
    (∀ c : LoadedConfig, Set.InjOn (fun userId : ℕ => doubleCharacterId M.toJsMath userId)
      (userBlock c.instanceId)) ∧
    (∀ c : LoadedConfig, uuidInteger c.instanceId < 2 ^ 128) ∧
    ∀ c c' : LoadedConfig,
      (userBlock c.instanceId = userBlock c'.instanceId ∨
        Disjoint (userBlock c.instanceId) (userBlock c'.instanceId)) ∧
      (userBlock c.instanceId = userBlock c'.instanceId ↔
        uuidInteger c.instanceId ≡ uuidInteger c'.instanceId [MOD 30023997515803]) := by
  refine ⟨fun c s i j => ?_, fun c u hu v hv heq => ?_,
    fun c => uuidInteger_lt c.checked.instanceId,
    fun c c' => ⟨(em _).imp id userBlock_disjoint, userBlock_eq_iff⟩⟩
  · obtain ⟨n, husers, hn⟩ := c.checked.users
    obtain ⟨eventId, now, type, payload, hevent⟩ := makeEvent_userId M.toJsMath
      (EventGenerator.new c.toSenderConfig s.toSource i).1 s.toSource j
    obtain ⟨hmem, hdouble⟩ := doubleUserId_eq c.instanceId M (s.random_double j)
      (s.random_unit j) hn
    have hbase : (EventGenerator.new c.toSenderConfig s.toSource i).1.userIdBase
        = instanceUserIdBase c.instanceId := rfl
    have hconfig : (EventGenerator.new c.toSenderConfig s.toSource i).1.config
        = c.toSenderConfig := rfl
    rw [hevent, hbase, hconfig, husers]
    have hmax := MAX_USER_ID_of_mem hmem
    rw [MAX_USER_ID] at hmax
    refine ⟨_, hmem, rfl, rfl, ⟨?_, by omega⟩, ?_, doubleCharacterId_eq M hmem⟩
    · rw [instanceUserIdBase_eq]
      omega
    · rw [husers]
      exact hdouble
  · simp only [doubleCharacterId_eq M hu, doubleCharacterId_eq M hv] at heq
    have hnat : u * 10 + 1 = v * 10 + 1 := by exact_mod_cast heq
    omega

/-! ### One user -/

noncomputable def nearestMath : NearestMath := { nearestDoubles with exp := sampleMath.exp }

def sampleDoubles : DoubleSource where
  toSource := sampleSource
  random_double i := by
    show IsDouble (if i = 0 then 1 / 2 else 0)
    split_ifs
    · exact ⟨1, -1, by decide, by decide, by decide, by norm_num⟩
    · exact isDouble_int (z := 0) (by decide)

theorem user_blocks_sample : ∃ userId, ExactIds nearestMath.toJsMath
    sampleSenderConfig.toSenderConfig (sampleDoubles.random 0)
    (makeEvent nearestMath.toJsMath
      (EventGenerator.new sampleSenderConfig.toSenderConfig sampleDoubles.toSource 0).1
      sampleDoubles.toSource 0).1 userId :=
  (user_blocks nearestMath).1 sampleSenderConfig sampleDoubles 0 0

end Sender
