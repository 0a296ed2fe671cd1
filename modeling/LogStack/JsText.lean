/-
What JavaScript makes of text that comes from outside: headers and environment variables.

* `trim` — `String.prototype.trim`;
* `LetterCase` — `String.prototype.toLowerCase` on every string;
* `decimal`, `toNumber` — the text of an integer, and `Number(text)`;
* `toNumber_decimal` — a number reads back from its text.
-/
import LogStack.JsValue
import Mathlib.Algebra.Order.Field.Rat
import Mathlib.Algebra.Order.Ring.Abs
import Mathlib.Data.List.TakeWhile
import Mathlib.Data.Nat.Digits.Lemmas
import Mathlib.Tactic.Linarith

namespace JsString

/-- `WhiteSpace` and `LineTerminator`. -/
def isWhiteSpace (u : UInt16) : Bool :=
  (0x09 ≤ u && u ≤ 0x0D) || u = 0x20 || u = 0xA0 || u = 0x1680 || (0x2000 ≤ u && u ≤ 0x200A) ||
    u = 0x2028 || u = 0x2029 || u = 0x202F || u = 0x205F || u = 0x3000 || u = 0xFEFF

def trim (s : JsString) : JsString :=
  ((s.dropWhile isWhiteSpace).reverse.dropWhile isWhiteSpace).reverse

def isDigit (u : UInt16) : Bool := 0x30 ≤ u && u ≤ 0x39

def isHexDigit (u : UInt16) : Bool :=
  isDigit u || (0x41 ≤ u && u ≤ 0x46) || (0x61 ≤ u && u ≤ 0x66)

end JsString

/-- `toLowerCase` with all letters that have a case. On ASCII it is `JsString.toLowerCase`. -/
structure LetterCase where
  lower : JsString → JsString
  lower_ascii : ∀ s : JsString, (∀ u ∈ s, u < 0x80) → lower s = s.toLowerCase
  lower_ne_nil : ∀ s : JsString, s ≠ [] → lower s ≠ []

/-! ### Numbers -/

/-- The decimal digits of a number. -/
def decimal (n : ℕ) : JsString :=
  if n = 0 then js "0" else ((Nat.digits 10 n).map fun d => (0x30 + d).toUInt16).reverse

/-- The doubles: the one nearest to a number. Integers up to `2 ^ 53` are doubles. -/
structure Doubles where
  round : ℚ → ℚ
  round_mono : Monotone round
  round_int : ∀ z : ℤ, |z| ≤ 2 ^ 53 → round z = z

/-- Numbers that are not rounded at all. -/
def Doubles.exact : Doubles := ⟨id, monotone_id, fun _ _ => rfl⟩

theorem Doubles.exact_round (q : ℚ) : Doubles.exact.round q = q := rfl

/-- Doubles keep to the unit interval. -/
theorem Doubles.round_unit (D : Doubles) {q : ℚ} (h : 0 ≤ q ∧ q ≤ 1) :
    0 ≤ D.round q ∧ D.round q ≤ 1 := by
  have hzero := D.round_int 0 (by norm_num)
  have hone := D.round_int 1 (by norm_num)
  push_cast at hzero hone
  exact ⟨hzero ▸ D.round_mono h.1, hone ▸ D.round_mono h.2⟩

/-- Numbers beyond the doubles become infinite. -/
def Doubles.number (D : Doubles) (q : ℚ) : JsNumber :=
  if |q| < 2 ^ 1024 - 2 ^ 970 then .fin (D.round q) else .inf (decide (q < 0))

theorem two_pow_lt_overflow : (2 : ℚ) ^ 53 < 2 ^ 1024 - 2 ^ 970 := by
  have hlow : (2 : ℚ) ^ 53 < 2 ^ 970 := pow_lt_pow_right₀ one_lt_two (by decide)
  have hhigh : (2 : ℚ) ^ 970 * 2 ≤ 2 ^ 1024 := by
    rw [← pow_succ]
    exact pow_le_pow_right₀ one_le_two (by decide)
  generalize (2 : ℚ) ^ 1024 = top at hhigh ⊢
  generalize (2 : ℚ) ^ 970 = ulp at hlow hhigh ⊢
  linarith only [hlow, hhigh]

namespace JsString

/-- The value of digits. -/
def ofDigits (radix : ℕ) (value : UInt16 → ℕ) (s : JsString) : ℕ :=
  s.foldl (fun n u => radix * n + value u) 0

def digitValue (u : UInt16) : ℕ :=
  if isDigit u then u.toNat - 0x30 else if u < 0x61 then u.toNat - 0x37 else u.toNat - 0x57

/-- A sign, if there is one, and what follows it. -/
def splitSign : JsString → Bool × JsString
  | 0x2d :: rest => (true, rest)
  | 0x2b :: rest => (false, rest)
  | s => (false, s)

/-- `ExponentPart`, or nothing. -/
def exponent? : JsString → Option ℤ
  | [] => some 0
  | e :: rest =>
    let (negative, digits) := splitSign rest
    if (e = 0x65 ∨ e = 0x45) ∧ digits ≠ [] ∧ digits.all isDigit then
      some (if negative then -(ofDigits 10 digitValue digits : ℤ)
        else ofDigits 10 digitValue digits)
    else none

/-- The digits after a decimal point, and what follows them. -/
def splitFraction : JsString → JsString × JsString
  | 0x2e :: rest => (rest.takeWhile isDigit, rest.dropWhile isDigit)
  | s => ([], s)

/-- `StrUnsignedDecimalLiteral` without `Infinity`. -/
def decimalLiteral? (s : JsString) : Option ℚ :=
  let whole := s.takeWhile isDigit
  let (fraction, rest) := splitFraction (s.dropWhile isDigit)
  if whole = [] ∧ fraction = [] then none
  else (exponent? rest).map fun e =>
    ofDigits 10 digitValue (whole ++ fraction) * (10 : ℚ) ^ (e - (fraction.length : ℤ))

/-- `NonDecimalIntegerLiteral`. -/
def radixLiteral? : JsString → Option ℕ
  | 0x30 :: r :: digits =>
    let literal (radix : ℕ) : Option ℕ :=
      if digits ≠ [] ∧ digits.all (fun u => isHexDigit u && digitValue u < radix) then
        some (ofDigits radix digitValue digits)
      else none
    if r = 0x78 ∨ r = 0x58 then literal 16
    else if r = 0x6f ∨ r = 0x4f then literal 8
    else if r = 0x62 ∨ r = 0x42 then literal 2
    else none
  | _ => none

/-- `Number(s)`; `none` is `NaN`. -/
def toNumber (D : Doubles) (s : JsString) : Option JsNumber :=
  let text := s.trim
  if text = [] then some (.fin 0)
  else
    match radixLiteral? text with
    | some n => some (D.number n)
    | none =>
      let (negative, unsigned) := splitSign text
      if unsigned = js "Infinity" then some (.inf negative)
      else (decimalLiteral? unsigned).map fun q => D.number (if negative then -q else q)

/-! ### Reading back -/

theorem digit_spec {d : ℕ} (h : d < 10) : isDigit (0x30 + d).toUInt16 = true ∧
    isWhiteSpace (0x30 + d).toUInt16 = false ∧ digitValue (0x30 + d).toUInt16 = d := by
  have hall : ∀ d < 10, isDigit (0x30 + d).toUInt16 = true ∧
      isWhiteSpace (0x30 + d).toUInt16 = false ∧ digitValue (0x30 + d).toUInt16 = d := by decide
  exact hall d h

theorem mem_decimal {n : ℕ} {u : UInt16} (h : u ∈ decimal n) :
    ∃ d < 10, u = (0x30 + d).toUInt16 := by
  rw [decimal] at h
  split_ifs at h with hn
  · exact ⟨0, by decide, List.mem_singleton.mp h⟩
  · obtain ⟨d, hd, rfl⟩ := List.mem_map.mp (List.mem_reverse.mp h)
    exact ⟨d, Nat.digits_lt_base (by decide) hd, rfl⟩

theorem decimal_ne_nil (n : ℕ) : decimal n ≠ [] := by
  rw [decimal]
  split_ifs with hn
  · decide
  · simp only [ne_eq, List.reverse_eq_nil_iff, List.map_eq_nil_iff]
    exact Nat.digits_ne_nil_iff_ne_zero.mpr hn

theorem ofDigits_decimal (n : ℕ) : ofDigits 10 digitValue (decimal n) = n := by
  rw [decimal]
  split_ifs with hn
  · subst hn
    decide
  · have hfold : ∀ ds : List ℕ, (∀ d ∈ ds, d < 10) →
        ofDigits 10 digitValue (ds.map fun d => (0x30 + d).toUInt16).reverse
          = Nat.ofDigits 10 ds := by
      intro ds hds
      induction ds with
      | nil => rfl
      | cons d ds ih =>
        have hrest := ih fun x hx => hds x (List.mem_cons_of_mem _ hx)
        rw [ofDigits] at hrest
        rw [List.map_cons, List.reverse_cons, ofDigits, List.foldl_append, hrest, List.foldl_cons,
          List.foldl_nil, (digit_spec (hds d List.mem_cons_self)).2.2, Nat.ofDigits_cons]
        omega
    rw [hfold _ fun d hd => Nat.digits_lt_base (by decide) hd, Nat.ofDigits_digits]

theorem trim_of_forall {s : JsString} (h : ∀ u ∈ s, isWhiteSpace u = false) : s.trim = s := by
  have hdrop : ∀ t : JsString, (∀ u ∈ t, isWhiteSpace u = false) →
      t.dropWhile isWhiteSpace = t := by
    intro t ht
    cases t with
    | nil => rfl
    | cons u t => rw [List.dropWhile_cons_of_neg (by rw [ht u List.mem_cons_self]; decide)]
  rw [trim, hdrop s h, hdrop _ (fun u hu => h u (List.mem_reverse.mp hu)), List.reverse_reverse]

theorem all_isDigit_decimal (n : ℕ) : ∀ u ∈ decimal n, isDigit u = true := by
  intro u hu
  obtain ⟨d, hd, rfl⟩ := mem_decimal hu
  exact (digit_spec hd).1

theorem span_decimal (n : ℕ) {rest : JsString} (h : ∀ u ∈ rest.head?, isDigit u = false) :
    (decimal n ++ rest).takeWhile isDigit = decimal n ∧
      (decimal n ++ rest).dropWhile isDigit = rest := by
  have hrest : rest.takeWhile isDigit = [] ∧ rest.dropWhile isDigit = rest := by
    cases rest with
    | nil => exact ⟨rfl, rfl⟩
    | cons u rest =>
      have hu : isDigit u = false := h u rfl
      simp [hu]
  rw [List.takeWhile_append_of_pos (all_isDigit_decimal n), hrest.1, List.append_nil,
    List.dropWhile_append_of_pos (all_isDigit_decimal n), hrest.2]
  exact ⟨rfl, rfl⟩

theorem trim_decimal (n : ℕ) : (decimal n).trim = decimal n := by
  refine trim_of_forall fun u hu => ?_
  obtain ⟨d, hd, rfl⟩ := mem_decimal hu
  exact (digit_spec hd).2.1

/-- Digits alone begin no other kind of literal. -/
theorem radixLiteral?_of_digits {s : JsString} (h : ∀ u ∈ s, isDigit u = true) :
    radixLiteral? s = none := by
  unfold radixLiteral?
  split
  · rename_i r digits
    have hr := h r (by simp)
    simp only [isDigit, Bool.and_eq_true, decide_eq_true_eq] at hr
    rw [if_neg (by grind), if_neg (by grind), if_neg (by grind)]
  · rfl

theorem splitSign_of_digits {s : JsString} (h : ∀ u ∈ s, isDigit u = true) :
    splitSign s = (false, s) := by
  unfold splitSign
  split
  · exact absurd (h _ List.mem_cons_self) (by decide)
  · exact absurd (h _ List.mem_cons_self) (by decide)
  · rfl

/-- **A number reads back from its text.** -/
theorem toNumber_decimal (D : Doubles) {n : ℕ} (h : n ≤ 2 ^ 53) :
    toNumber D (decimal n) = some (.fin n) := by
  have htrim := trim_decimal n
  have hvalue := ofDigits_decimal n
  have hne := decimal_ne_nil n
  have hall := all_isDigit_decimal n
  generalize decimal n = text at htrim hvalue hne hall
  have htake : text.takeWhile isDigit = text := List.takeWhile_eq_self_iff.mpr hall
  have hdrop : text.dropWhile isDigit = [] := List.dropWhile_eq_nil_iff.mpr hall
  have hradix := radixLiteral?_of_digits hall
  have hsign := splitSign_of_digits hall
  have hinfinity : text ≠ js "Infinity" := by
    rintro rfl
    exact absurd (hall 0x49 (by decide)) (by decide)
  have hliteral : decimalLiteral? text = some (n : ℚ) := by
    rw [decimalLiteral?, htake, hdrop]
    simp [splitFraction, exponent?, hne, hvalue]
  have hsmall : |(n : ℚ)| < 2 ^ 1024 - 2 ^ 970 := by
    have hcast : (n : ℚ) ≤ 2 ^ 53 := by exact_mod_cast h
    rw [abs_of_nonneg (Nat.cast_nonneg n)]
    exact hcast.trans_lt two_pow_lt_overflow
  have hround : D.round (n : ℚ) = n := by
    have hint := D.round_int (n : ℤ) (by rw [Nat.abs_cast]; exact_mod_cast h)
    exact_mod_cast hint
  simp only [toNumber, htrim, hne, if_false, hradix, hsign, hinfinity, hliteral, Option.map_some,
    Bool.false_eq_true, Doubles.number, hsmall, if_true, hround]

end JsString
