/-
Revenue per active user, to the hundredth (`formatArpuMinor`).

* `HalfUp` — a nearest multiple of a fraction's unit, the upper one of two, in integers;
* `bigInt?` — `BigInt(text)`, as the decimal strings of the revenue queries are read;
* `Amount`, `centsOf?` — the shape of a formatted amount, and its value;
* `arpu_rounds_half_up` — a formatted amount is the nearest number of hundredths;
* `formatted_getRevenue` — every amount of a response is one.
-/
import LogStack.MetricsService
import Mathlib.Algebra.Order.BigOperators.Group.List

open JsString (isDigit digitValue ofDigits splitSign radixLiteral? digit_spec mem_decimal
  decimal_ne_nil ofDigits_decimal trim_of_forall trim_decimal all_isDigit_decimal span_decimal
  radixLiteral?_of_digits splitSign_of_digits)
open Ingestion Calendar

/-! ### Rounding -/

/-- `c` is the integer nearest to `n / d`, the upper one where two are. -/
def HalfUp (n d c : ℤ) : Prop := -d < 2 * c * d - 2 * n ∧ 2 * c * d - 2 * n ≤ d

namespace HalfUp

variable {n n' d d' c c' : ℤ}

theorem pos (h : HalfUp n d c) : 0 < d := by
  obtain ⟨hlower, hupper⟩ := h
  omega

/-- A larger fraction is not rounded to less. -/
theorem mono (h : HalfUp n d c) (h' : HalfUp n' d' c') (hle : n * d' ≤ n' * d) : c ≤ c' := by
  have hd := h.pos
  have hd' := h'.pos
  by_contra hlt
  have hstep : 2 * c' + 1 ≤ 2 * c - 1 := by omega
  have hupper : (2 * c - 1) * d ≤ 2 * n := by linarith [h.2]
  have hlower : 2 * n' < (2 * c' + 1) * d' := by linarith [h'.1]
  have hcross : 2 * n' * d < 2 * n' * d := by
    calc 2 * n' * d < (2 * c' + 1) * d' * d := mul_lt_mul_of_pos_right hlower hd
      _ ≤ (2 * c - 1) * d' * d :=
        mul_le_mul_of_nonneg_right (mul_le_mul_of_nonneg_right hstep hd'.le) hd.le
      _ = (2 * c - 1) * d * d' := by ring
      _ ≤ 2 * n * d' := mul_le_mul_of_nonneg_right hupper hd'.le
      _ = 2 * (n * d') := by ring
      _ ≤ 2 * (n' * d) := by linarith
      _ = 2 * n' * d := by ring
  exact lt_irrefl _ hcross

/-- The quotient, or the next integer where half of the divisor or more remains. -/
theorem of_divMod (n : ℕ) {d : ℕ} (hd : 0 < d) :
    HalfUp n d (n / d + if d ≤ n % d * 2 then 1 else 0 : ℕ) := by
  have hdiv : d * (n / d) + n % d = n := Nat.div_add_mod n d
  have hmod : n % d < d := Nat.mod_lt n hd
  have hmul : (2 * (n / d + if d ≤ n % d * 2 then 1 else 0 : ℕ) * d : ℤ)
      = 2 * (d * (n / d) : ℕ) + if d ≤ n % d * 2 then 2 * d else 0 := by
    split_ifs
    · push_cast
      ring
    · push_cast
      ring
  rw [HalfUp, hmul]
  split_ifs with hhalf
  · constructor <;> omega
  · constructor <;> omega

end HalfUp

/-! ### Reading a decimal string -/

/-- `BigInt(s)`; `none` is a `SyntaxError`. -/
def bigInt? (s : JsString) : Option ℤ :=
  let text := s.trim
  if text = [] then some 0
  else
    match radixLiteral? text with
    | some n => some n
    | none =>
      let (negative, digits) := splitSign text
      if digits ≠ [] ∧ digits.all isDigit then
        some (if negative then -(ofDigits 10 digitValue digits : ℤ)
          else ofDigits 10 digitValue digits)
      else none

namespace Metrics

theorem bigInt?_decimal (n : ℕ) : bigInt? (decimal n) = some (n : ℤ) := by
  have hdigits := all_isDigit_decimal n
  simp only [bigInt?, trim_decimal, decimal_ne_nil, if_false, radixLiteral?_of_digits hdigits,
    splitSign_of_digits hdigits]
  rw [if_pos ⟨decimal_ne_nil n, List.all_eq_true.mpr hdigits⟩, if_neg Bool.false_ne_true,
    ofDigits_decimal]

/-- The revenue queries answer with texts that `BigInt` reads. -/
theorem bigInt?_decimalText (z : ℤ) : bigInt? (decimalText z) = some z := by
  rw [decimalText]
  split_ifs with hneg
  · have htrim : (js "-" ++ decimal z.natAbs).trim = js "-" ++ decimal z.natAbs := by
      refine trim_of_forall fun u hu => ?_
      rcases List.mem_append.mp hu with hu | hu
      · obtain rfl : u = 0x2d := List.mem_singleton.mp hu
        decide
      · obtain ⟨d, hd, rfl⟩ := mem_decimal hu
        exact (digit_spec hd).2.1
    have hminus : js "-" ++ decimal z.natAbs = 0x2d :: decimal z.natAbs := rfl
    simp only [bigInt?, htrim]
    rw [hminus, if_neg (List.cons_ne_nil _ _)]
    show (if decimal z.natAbs ≠ [] ∧ (decimal z.natAbs).all isDigit then
      some (-(ofDigits 10 digitValue (decimal z.natAbs) : ℤ)) else none) = some z
    rw [if_pos ⟨decimal_ne_nil _, List.all_eq_true.mpr (all_isDigit_decimal _)⟩, ofDigits_decimal]
    exact congrArg some (by omega)
  · rw [bigInt?_decimal]
    exact congrArg some (by omega)

/-! ### Amounts -/

/-- Digits without a redundant zero, a point, and two digits. -/
def Amount (s : JsString) : Prop :=
  ∃ whole a b, s = whole ++ [0x2e, a, b] ∧ whole ≠ [] ∧ (∀ u ∈ whole, isDigit u = true) ∧
    (whole.head? = some 0x30 → whole = [0x30]) ∧ isDigit a = true ∧ isDigit b = true

/-- The value of an amount in hundredths. -/
def centsOf? (s : JsString) : Option ℕ :=
  let whole := s.takeWhile isDigit
  match s.dropWhile isDigit with
  | [0x2e, a, b] =>
    if whole ≠ [] ∧ isDigit a ∧ isDigit b then some (ofDigits 10 digitValue (whole ++ [a, b]))
    else none
  | _ => none

def amountText (cents : ℕ) : JsString :=
  decimal (cents / 100) ++ js "." ++ padStart2 (decimal (cents % 100))

theorem head?_decimal {n : ℕ} (h : (decimal n).head? = some 0x30) : decimal n = [0x30] := by
  rw [decimal] at h ⊢
  split_ifs at h ⊢ with hn
  · rfl
  · -- the first digit is the last one that division finds, and that is not zero
    have hne : Nat.digits 10 n ≠ [] := Nat.digits_ne_nil_iff_ne_zero.mpr hn
    rw [List.head?_reverse, List.getLast?_map, List.getLast?_eq_some_getLast hne,
      Option.map_some, Option.some.injEq] at h
    have hlt := Nat.digits_lt_base (by decide : 1 < 10) (List.getLast_mem hne)
    have hzero := Nat.getLast_digit_ne_zero 10 hn
    have hall : ∀ d < 10, (0x30 + d).toUInt16 = 0x30 → d = 0 := by decide
    exact absurd (hall _ hlt h) hzero

theorem padStart2_decimal {n : ℕ} (h : n < 100) :
    padStart2 (decimal n) = [(0x30 + n / 10).toUInt16, (0x30 + n % 10).toUInt16] := by
  rcases Nat.lt_or_ge n 10 with hn | hn
  · have hall : ∀ n < 10, padStart2 (decimal n)
        = [(0x30 + n / 10).toUInt16, (0x30 + n % 10).toUInt16] := by decide +kernel
    exact hall n hn
  · have hdigits : Nat.digits 10 n = [n % 10, n / 10] := by
      rw [Nat.digits_def' (by decide) (by omega),
        Nat.digits_of_lt 10 (n / 10) (by omega) (by omega)]
    rw [decimal, if_neg (by omega), hdigits]
    rfl

/-- **An amount has its shape and its value.** -/
theorem amount_amountText (cents : ℕ) :
    Amount (amountText cents) ∧ centsOf? (amountText cents) = some cents := by
  have htens := digit_spec (d := cents % 100 / 10) (by omega)
  have hones := digit_spec (d := cents % 100 % 10) (by omega)
  have htext : amountText cents = decimal (cents / 100) ++
      [0x2e, (0x30 + cents % 100 / 10).toUInt16, (0x30 + cents % 100 % 10).toUInt16] := by
    rw [amountText, padStart2_decimal (Nat.mod_lt cents (by decide)), List.append_assoc]
    rfl
  rw [htext]
  refine ⟨⟨_, _, _, rfl, decimal_ne_nil _, all_isDigit_decimal _, head?_decimal, htens.1, hones.1⟩,
    ?_⟩
  have hpoint : ∀ u ∈ (0x2e :: [(0x30 + cents % 100 / 10).toUInt16,
      (0x30 + cents % 100 % 10).toUInt16] : JsString).head?, isDigit u = false := by
    intro u hu
    obtain rfl := Option.some_inj.mp hu
    decide
  obtain ⟨htake, hdrop⟩ := span_decimal (cents / 100) hpoint
  have hvalue := ofDigits_decimal (cents / 100)
  rw [ofDigits] at hvalue
  simp only [centsOf?, htake, hdrop]
  rw [if_pos ⟨decimal_ne_nil _, htens.1, hones.1⟩, ofDigits, List.foldl_append, hvalue]
  simp only [List.foldl_cons, List.foldl_nil, htens.2.2, hones.2.2]
  exact congrArg some (by omega)

/-! ### The formatter -/

/-- Revenue per user in hundredths. -/
def arpuCents (revenue users : ℕ) : ℕ :=
  revenue * 100 / users + if users ≤ revenue * 100 % users * 2 then 1 else 0

theorem formatArpuMinor_eq (revenue : ℕ) {users : ℕ} (h : users ≠ 0) :
    formatArpuMinor revenue users = some (amountText (arpuCents revenue users)) := by
  have hnumerator : (revenue : ℤ) * 100 = (revenue * 100 : ℕ) := by
    push_cast
    rfl
  have hround : (if ((revenue * 100 % users : ℕ) : ℤ) * 2 ≥ users then 1 else 0 : ℤ)
      = (if users ≤ revenue * 100 % users * 2 then 1 else 0 : ℕ) := by
    split_ifs <;> omega
  have hcents : ((revenue * 100 / users : ℕ) : ℤ)
      + (if users ≤ revenue * 100 % users * 2 then 1 else 0 : ℕ) = (arpuCents revenue users : ℕ) :=
    (Int.natCast_add _ _).symm
  have hdecimal : ∀ n : ℕ, decimalText n = decimal n := fun n => by
    rw [decimalText, if_neg (by omega), Int.natAbs_natCast]
  have hwhole : (arpuCents revenue users : ℤ).tdiv 100 = (arpuCents revenue users / 100 : ℕ) := rfl
  have hfraction : (arpuCents revenue users : ℤ).tmod 100 = (arpuCents revenue users % 100 : ℕ) :=
    rfl
  rw [formatArpuMinor, if_neg h]
  dsimp only
  rw [hnumerator, ← Int.ofNat_tdiv, ← Int.ofNat_tmod, hround, hcents, hwhole, hfraction, hdecimal,
    hdecimal, amountText]

/-- **Revenue per active user is rounded half up, exactly.** However large the revenue, the text
that the database answers with becomes an amount whose value in hundredths is the nearest one,
the upper of two; it grows with the revenue and falls with the number of users. -/
theorem arpu_rounds_half_up : ∃ cents : ℕ → ℕ+ → ℕ,
    (∀ (revenue : ℕ) (users : ℕ+), ∃ text,
      (bigInt? (decimalText revenue)).bind (formatArpuMinor · users) = some text ∧ Amount text ∧
        centsOf? text = some (cents revenue users) ∧
        -(users : ℤ) < 2 * cents revenue users * users - 200 * revenue ∧
        2 * (cents revenue users : ℤ) * users - 200 * revenue ≤ users) ∧
    (∀ users, Monotone fun revenue => cents revenue users) ∧
      ∀ revenue, Antitone (cents revenue) := by
  have hnearest : ∀ (revenue : ℕ) (users : ℕ+),
      HalfUp (revenue * 100 : ℕ) users (arpuCents revenue users) := fun revenue users =>
    .of_divMod _ users.pos
  refine ⟨fun revenue users => arpuCents revenue users, fun revenue users => ?_,
    fun users revenue revenue' hle => ?_, fun revenue users users' hle => ?_⟩
  · obtain ⟨hshape, hvalue⟩ := amount_amountText (arpuCents revenue users)
    obtain ⟨hlower, hupper⟩ := hnearest revenue users
    refine ⟨amountText (arpuCents revenue users), ?_, hshape, hvalue, ?_, ?_⟩
    · rw [bigInt?_decimalText, Option.bind_some]
      exact formatArpuMinor_eq revenue users.ne_zero
    · push_cast at hlower
      linarith
    · push_cast at hupper
      linarith
  · have hmono := (hnearest revenue users).mono (hnearest revenue' users)
      (mul_le_mul_of_nonneg_right (by omega) (by omega))
    exact_mod_cast hmono
  · have hmono := (hnearest revenue users').mono (hnearest revenue users)
      (mul_le_mul_of_nonneg_left (by exact_mod_cast hle) (by omega))
    exact_mod_cast hmono

/-! ### The endpoint -/

/-- A row or summary of a response: a revenue that is not negative, and what comes of it. -/
def Formatted (revenueMinor : JsString) (activeUsers : ℕ) (arpuMinor : Option JsString) : Prop :=
  ∃ revenue : ℕ, revenueMinor = decimalText revenue ∧
    arpuMinor = if activeUsers = 0 then none else some (amountText (arpuCents revenue activeUsers))

theorem formatted_of_nonneg {revenue : ℤ} (h : 0 ≤ revenue) (users : ℕ) :
    Formatted (decimalText revenue) users (formatArpuMinor revenue users) := by
  obtain ⟨n, rfl⟩ := Int.eq_ofNat_of_zero_le h
  refine ⟨n, rfl, ?_⟩
  split_ifs with hzero
  · rw [formatArpuMinor, if_pos hzero]
  · exact formatArpuMinor_eq n hzero

/-- The amounts of purchases are checked by the schema. -/
theorem sum_amountMinor_nonneg (db : Database) (p : PurchaseRow → Bool) :
    0 ≤ ((db.purchases.filter p).map PurchaseRow.amountMinor).sum := by
  refine List.sum_nonneg fun amount hamount => ?_
  obtain ⟨row, hrow, rfl⟩ := List.mem_map.mp hamount
  exact (db.schema.checks row (List.mem_of_mem_filter hrow)).2

theorem formatted_getRevenue (db : Database) {currency : Option JsString} {query : MetricsQuery}
    {response : Response RevenueSummary RevenueRow}
    (h : getRevenue db.toTables currency query = .ok response) :
    Formatted response.summary.revenueMinor response.summary.activeUsers
        response.summary.arpuMinor ∧
      ∀ row ∈ response.data, Formatted row.revenueMinor row.activeUsers row.arpuMinor := by
  obtain ⟨code, -, h⟩ := Except.bind_eq_ok.mp h
  obtain ⟨range, -, h⟩ := Except.bind_eq_ok.mp h
  obtain rfl := Except.ok.inj h
  refine ⟨formatted_of_nonneg ?_ _, fun row hrow => ?_⟩
  · rw [revenueTotal, purchasesInRange, List.filter_filter]
    exact sum_amountMinor_nonneg db _
  · have hmem : row ∈ (revenueByDay db.toTables (toEpochDay range.start) (toEpochDay range.stop)
        code).map (RevenueDay.toRow code) := List.mem_of_mem_drop (List.mem_of_mem_take hrow)
    rw [revenueByDay_eq, List.map_map] at hmem
    obtain ⟨d, -, rfl⟩ := List.mem_map.mp hmem
    exact formatted_of_nonneg (sum_amountMinor_nonneg db _) _

end Metrics
