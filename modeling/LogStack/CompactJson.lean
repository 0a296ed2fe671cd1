/-
JSON texts that can be computed.

`JsonText` says what the language promises about the text of a value.  Here is one instance
of it, with which the programs that read and write JSON can be run: the compact texts of
`JSON.stringify`, every character outside of ASCII escaped.

* `Json.text`, `Json.read` — writing and reading;
* `Json.read_text` — what is written without loss reads back;
* `compactJson` — the instance.
-/
import LogStack.JsText
import Mathlib.Data.Bool.AllAny

open JsString (isDigit digitValue ofDigits all_isDigit_decimal span_decimal)

namespace Json

/-! ### Writing -/

def hexDigit (n : ℕ) : UInt16 := if n < 10 then (0x30 + n).toUInt16 else (0x57 + n).toUInt16

/-- The escapes of one letter, as `\n` for `U+000A`. -/
def shortEscapes : List (UInt16 × UInt16) :=
  [(0x08, 0x62), (0x09, 0x74), (0x0a, 0x6e), (0x0c, 0x66), (0x0d, 0x72), (0x22, 0x22),
    (0x5c, 0x5c)]

def escapeLetter? (u : UInt16) : Option UInt16 :=
  (shortEscapes.find? fun e => e.1 = u).map Prod.snd

def unescaped? (letter : UInt16) : Option UInt16 :=
  (shortEscapes.find? fun e => e.2 = letter).map Prod.fst

/-- ASCII from the space on, but neither a quotation mark nor a backslash. -/
def Unescaped (u : UInt16) : Prop := 0x20 ≤ u ∧ u < 0x80 ∧ u ≠ 0x22 ∧ u ≠ 0x5c

instance (u : UInt16) : Decidable (Unescaped u) := inferInstanceAs (Decidable (_ ∧ _))

/-- A character of a string literal. -/
def character (u : UInt16) : JsString :=
  if Unescaped u then [u]
  else
    match escapeLetter? u with
    | some letter => [0x5c, letter]
    | none => [0x5c, 0x75, hexDigit (u.toNat / 0x1000), hexDigit (u.toNat / 0x100 % 16),
        hexDigit (u.toNat / 0x10 % 16), hexDigit (u.toNat % 16)]

def quote (s : JsString) : JsString := 0x22 :: (s.flatMap character ++ [0x22])

/-- The text of a number. A fraction, which no record has, keeps its denominator. -/
def numeral (q : ℚ) : JsString :=
  (if q.num < 0 then [0x2d] else []) ++ (decimal q.num.natAbs ++
    if q.den = 1 then [] else 0x2f :: decimal q.den)

mutual

/-- The compact text of a value. -/
def text : Json → JsString
  | .null => js "null"
  | .bool b => if b then js "true" else js "false"
  | .num (.fin q) => numeral q
  | .num (.inf _) => js "null"
  | .str s => quote s
  | .arr items => 0x5b :: (List.intercalate [0x2c] (itemTexts items) ++ [0x5d])
  | .obj fields => 0x7b :: (List.intercalate [0x2c] (fieldTexts fields) ++ [0x7d])

def itemTexts : List Json → List JsString
  | [] => []
  | j :: rest => j.text :: itemTexts rest

def fieldTexts : List (JsString × Json) → List JsString
  | [] => []
  | f :: rest => (quote f.1 ++ 0x3a :: f.2.text) :: fieldTexts rest

end

theorem itemTexts_eq_map (items : List Json) : itemTexts items = items.map text := by
  induction items with
  | nil => rfl
  | cons j rest ih => rw [itemTexts, ih, List.map_cons]

def fieldText (f : JsString × Json) : JsString := quote f.1 ++ 0x3a :: f.2.text

theorem fieldTexts_eq_map (fields : List (JsString × Json)) :
    fieldTexts fields = fields.map fieldText := by
  induction fields with
  | nil => rfl
  | cons f rest ih => rw [fieldTexts, ih, List.map_cons, fieldText]

/-! ### Reading -/

variable {α : Type}

/-- The characters of a string literal up to its end, and what follows it. -/
def readString : JsString → Option (JsString × JsString)
  | [] => none
  | u :: rest =>
    if u = 0x22 then some ([], rest)
    else if u = 0x5c then
      match rest with
      | [] => none
      | v :: rest =>
        match unescaped? v with
        | some c => (readString rest).map fun p => (c :: p.1, p.2)
        | none =>
          match rest with
          | a :: b :: c :: d :: rest =>
            if v = 0x75 then
              (readString rest).map fun p =>
                ((ofDigits 16 digitValue [a, b, c, d]).toUInt16 :: p.1, p.2)
            else none
          | _ => none
    else (readString rest).map fun p => (u :: p.1, p.2)

/-- Values with commas between them, and what follows the last one. -/
def readMany (value : JsString → Option (α × JsString)) : ℕ → JsString → Option (List α × JsString)
  | 0, _ => none
  | n + 1, s =>
    match value s with
    | none => none
    | some (x, rest) =>
      if rest.head? = some 0x2c then
        (readMany value n rest.tail).map fun p => (x :: p.1, p.2)
      else some ([x], rest)

/-- Values up to a closing bracket. -/
def readUntil (close : UInt16) (value : JsString → Option (α × JsString)) (n : ℕ) (s : JsString) :
    Option (List α × JsString) :=
  if s.head? = some close then some ([], s.tail)
  else
    match readMany value n s with
    | none => none
    | some (xs, rest) => if rest.head? = some close then some (xs, rest.tail) else none

/-- A name, a colon and a value. -/
def readField (value : JsString → Option (Json × JsString)) (s : JsString) :
    Option ((JsString × Json) × JsString) :=
  if s.head? = some 0x22 then
    match readString s.tail with
    | none => none
    | some (name, rest) =>
      if rest.head? = some 0x3a then (value rest.tail).map fun p => ((name, p.1), p.2) else none
  else none

def readWord (word : JsString) (j : Json) (s : JsString) : Option (Json × JsString) :=
  if word.isPrefixOf s then some (j, s.drop word.length) else none

def readNumeral (s : JsString) : Option (Json × JsString) :=
  let negative : Bool := s.head? = some 0x2d
  let s := if negative then s.tail else s
  let n := ofDigits 10 digitValue (s.takeWhile isDigit)
  let rest := s.dropWhile isDigit
  let numerator : ℚ := if negative then -n else n
  if s.takeWhile isDigit = [] then none
  else if rest.head? = some 0x2f then
    some (.num (.fin (numerator / ofDigits 10 digitValue (rest.tail.takeWhile isDigit))),
      rest.tail.dropWhile isDigit)
  else some (.num (.fin numerator), rest)

/-- A value and what follows it; its depth is at most the given bound. -/
def read : ℕ → JsString → Option (Json × JsString)
  | 0, _ => none
  | n + 1, s =>
    if s.head? = some 0x22 then (readString s.tail).map fun p => (.str p.1, p.2)
    else if s.head? = some 0x5b then
      (readUntil 0x5d (read n) n s.tail).map fun p => (.arr p.1, p.2)
    else if s.head? = some 0x7b then
      (readUntil 0x7d (readField (read n)) n s.tail).map fun p => (.obj p.1, p.2)
    else if s.head? = some 0x6e then readWord (js "null") .null s
    else if s.head? = some 0x74 then readWord (js "true") (.bool true) s
    else if s.head? = some 0x66 then readWord (js "false") (.bool false) s
    else readNumeral s

/-! ### Reading back -/

/-- What may follow a value: nothing that would go on with a number. -/
def Follows (rest : JsString) : Prop := ∀ u ∈ rest.head?, isDigit u = false ∧ u ≠ 0x2f

theorem follows_nil : Follows [] := fun _ h => absurd h (Option.not_mem_none _)

theorem follows_cons {u : UInt16} {rest : JsString} (h : isDigit u = false ∧ u ≠ 0x2f) :
    Follows (u :: rest) := by
  intro v hv
  obtain rfl := Option.some_inj.mp hv
  exact h

theorem hexDigit_spec {n : ℕ} (h : n < 16) : digitValue (hexDigit n) = n ∧ hexDigit n < 0x80 := by
  have hall : ∀ n < 16, digitValue (hexDigit n) = n ∧ hexDigit n < 0x80 := by decide
  exact hall n h

theorem escapeLetter?_spec {u letter : UInt16} (h : escapeLetter? u = some letter) :
    unescaped? letter = some u ∧ 0x20 ≤ letter ∧ letter < 0x80 := by
  have hall : ∀ e ∈ shortEscapes, unescaped? e.2 = some e.1 ∧ 0x20 ≤ e.2 ∧ e.2 < 0x80 :=
    List.all_iff_forall_prop.mp (by decide +kernel)
  obtain ⟨e, he, rfl⟩ := Option.map_eq_some_iff.mp h
  have hu := List.find?_some he
  obtain rfl : e.1 = u := of_decide_eq_true hu
  exact hall e (List.mem_of_find?_eq_some he)

/-- The four digits of an escape determine its character. -/
theorem ofDigits_hexDigits (u : UInt16) :
    (ofDigits 16 digitValue [hexDigit (u.toNat / 0x1000), hexDigit (u.toNat / 0x100 % 16),
      hexDigit (u.toNat / 0x10 % 16), hexDigit (u.toNat % 16)]).toUInt16 = u := by
  have hlt := u.toNat_lt
  have hsum : ofDigits 16 digitValue [hexDigit (u.toNat / 0x1000),
      hexDigit (u.toNat / 0x100 % 16), hexDigit (u.toNat / 0x10 % 16),
      hexDigit (u.toNat % 16)] = u.toNat := by
    simp only [ofDigits, List.foldl_cons, List.foldl_nil]
    rw [(hexDigit_spec (by omega)).1, (hexDigit_spec (by omega)).1,
      (hexDigit_spec (by omega)).1, (hexDigit_spec (by omega)).1]
    omega
  rw [hsum]
  exact UInt16.ofNat_toNat

theorem readString_quote (s rest : JsString) :
    readString (s.flatMap character ++ 0x22 :: rest) = some (s, rest) := by
  induction s with
  | nil =>
    rw [List.flatMap_nil, List.nil_append, readString.eq_def]
    exact if_pos rfl
  | cons u s ih =>
    rw [List.flatMap_cons, List.append_assoc, character]
    split_ifs with hplain
    · rw [List.singleton_append, readString.eq_def]
      simp only [hplain.2.2.1, hplain.2.2.2, if_false, ih, Option.map_some]
    cases hletter : escapeLetter? u with
    | some letter =>
      simp only [List.cons_append, List.nil_append]
      rw [readString.eq_def]
      simp only [if_true, (escapeLetter?_spec hletter).1, ih, Option.map_some]
      rfl
    | none =>
      have hnone : unescaped? 0x75 = none := by decide +kernel
      simp only [List.cons_append, List.nil_append]
      rw [readString.eq_def]
      simp only [if_true, hnone, ih, Option.map_some, ofDigits_hexDigits]
      rfl

/-- A number without its sign. -/
theorem readNumeral_unsigned (n d : ℕ) (negative : Bool) {rest : JsString} (h : Follows rest) :
    readNumeral ((if negative then [0x2d] else []) ++ (decimal n ++
        ((if d = 1 then [] else 0x2f :: decimal d) ++ rest)))
      = some (.num (.fin ((if negative then -(n : ℚ) else n) / d)), rest) := by
  set after : JsString := (if d = 1 then [] else 0x2f :: decimal d) ++ rest with hafter
  have hfollows : ∀ u ∈ after.head?, isDigit u = false := by
    intro u hu
    rw [hafter] at hu
    split_ifs at hu with hd
    · exact (h u hu).1
    · obtain rfl := Option.some_inj.mp hu
      rfl
  obtain ⟨u, ds, hdigits⟩ := List.exists_cons_of_ne_nil (JsString.decimal_ne_nil n)
  have hu : isDigit u = true := all_isDigit_decimal n u (by rw [hdigits]; exact List.mem_cons_self)
  have hunsigned : u ≠ 0x2d := by
    rintro rfl
    exact absurd hu (by decide)
  obtain ⟨htake, hdrop⟩ := span_decimal n hfollows
  have hhead : ((if negative then [0x2d] else []) ++ (decimal n ++ after)).head? = some 0x2d
      ↔ negative = true := by
    cases negative with
    | true => simp
    | false => simp [hdigits, hunsigned]
  have htail : (if negative then ((if negative then [0x2d] else []) ++ (decimal n ++ after)).tail
      else (if negative then [0x2d] else []) ++ (decimal n ++ after)) = decimal n ++ after := by
    cases negative <;> rfl
  simp only [readNumeral, hhead, Bool.decide_eq_true, htail, htake, hdrop,
    JsString.ofDigits_decimal, JsString.decimal_ne_nil, if_false]
  -- an integer is written without its denominator
  by_cases hd : d = 1
  · have hnone : after.head? ≠ some 0x2f := by
      intro hsome
      rw [hafter, if_pos hd, List.nil_append] at hsome
      exact (h _ hsome).2 rfl
    rw [if_neg hnone, hafter, if_pos hd, hd, List.nil_append, Nat.cast_one, div_one]
  · obtain ⟨htake', hdrop'⟩ := span_decimal d fun u hu => (h u hu).1
    rw [hafter, if_neg hd, List.cons_append, List.head?_cons, if_pos rfl, List.tail_cons, htake',
      hdrop', JsString.ofDigits_decimal]

theorem readNumeral_numeral (q : ℚ) {rest : JsString} (h : Follows rest) :
    readNumeral (numeral q ++ rest) = some (.num (.fin q), rest) := by
  have hnum : (if decide (q.num < 0) = true then -(q.num.natAbs : ℚ) else q.num.natAbs) / q.den
      = q := by
    have hcast : (if decide (q.num < 0) = true then -(q.num.natAbs : ℚ) else q.num.natAbs)
        = (q.num : ℚ) := by
      split_ifs with hneg
      · have := Int.ofNat_natAbs_of_nonpos (of_decide_eq_true hneg).le
        rw [← Int.cast_natCast, this, Int.cast_neg, neg_neg]
      · have := Int.natAbs_of_nonneg (not_lt.mp fun h => hneg (decide_eq_true h))
        rw [← Int.cast_natCast, this]
    rw [hcast, Rat.num_div_den]
  have hread := readNumeral_unsigned q.num.natAbs q.den (decide (q.num < 0)) h
  rw [hnum] at hread
  simpa only [numeral, decide_eq_true_eq, List.append_assoc] using hread

/-- Values that are read back one by one are read back between commas. -/
theorem readMany_intercalate {value : JsString → Option (α × JsString)} {write : α → JsString}
    {n : ℕ} {xs : List α} {rest : JsString} (hne : xs ≠ []) (hn : xs.length ≤ n)
    (hvalue : ∀ x ∈ xs, ∀ rest, Follows rest → value (write x ++ rest) = some (x, rest))
    (hrest : Follows rest) (hcomma : rest.head? ≠ some 0x2c) :
    readMany value n (List.intercalate [0x2c] (xs.map write) ++ rest) = some (xs, rest) := by
  induction xs generalizing n with
  | nil => exact absurd rfl hne
  | cons x xs ih =>
    obtain ⟨n, rfl⟩ : ∃ m, n = m + 1 := ⟨n - 1, by rw [List.length_cons] at hn; omega⟩
    have hx := hvalue x List.mem_cons_self
    cases xs with
    | nil =>
      rw [List.map_singleton, List.intercalate_singleton, readMany, hx rest hrest]
      exact if_neg hcomma
    | cons x' xs =>
      have hmore := ih (n := n) (List.cons_ne_nil _ _) (Nat.le_of_succ_le_succ hn)
        fun y hy => hvalue y (List.mem_cons_of_mem _ hy)
      rw [List.map_cons] at hmore
      rw [List.map_cons, List.map_cons, List.intercalate_cons_cons, List.append_assoc,
        List.append_assoc, List.singleton_append, readMany, hx _ (follows_cons (by decide))]
      simp only [List.head?_cons, if_true, List.tail_cons, hmore, Option.map_some]

/-- What begins with the text of a value does not begin with a closing bracket. -/
theorem readUntil_intercalate {value : JsString → Option (α × JsString)} {write : α → JsString}
    {n : ℕ} {xs : List α} {rest : JsString} {close : UInt16} (hn : xs.length ≤ n)
    (hvalue : ∀ x ∈ xs, ∀ rest, Follows rest → value (write x ++ rest) = some (x, rest))
    (hhead : ∀ x ∈ xs, ∀ rest, (write x ++ rest).head? ≠ some close)
    (hclose : isDigit close = false ∧ close ≠ 0x2f ∧ close ≠ 0x2c) :
    readUntil close value n (List.intercalate [0x2c] (xs.map write) ++ close :: rest)
      = some (xs, rest) := by
  cases xs with
  | nil => exact if_pos rfl
  | cons x xs =>
    have hfirst : (List.intercalate [0x2c] ((x :: xs).map write) ++ close :: rest).head?
        ≠ some close := by
      cases xs with
      | nil => simpa using hhead x List.mem_cons_self (close :: rest)
      | cons x' xs =>
        rw [List.map_cons, List.map_cons, List.intercalate_cons_cons, List.append_assoc,
          List.append_assoc]
        exact hhead x List.mem_cons_self _
    rw [readUntil, if_neg hfirst, readMany_intercalate (List.cons_ne_nil _ _) hn hvalue
      (follows_cons ⟨hclose.1, hclose.2.1⟩) (by simpa using hclose.2.2)]
    exact if_pos rfl

theorem text_null : text .null = [0x6e, 0x75, 0x6c, 0x6c] := by decide +kernel

theorem text_true : text (.bool true) = [0x74, 0x72, 0x75, 0x65] := by decide +kernel

theorem text_false : text (.bool false) = [0x66, 0x61, 0x6c, 0x73, 0x65] := by decide +kernel

/-- A number begins with a digit or a sign. -/
theorem numeral_eq_cons (q : ℚ) :
    ∃ u rest, numeral q = u :: rest ∧ (isDigit u = true ∨ u = 0x2d) := by
  by_cases hneg : q.num < 0
  · exact ⟨0x2d, _, by rw [numeral, if_pos hneg]; rfl, .inr rfl⟩
  · obtain ⟨u, ds, hdigits⟩ := List.exists_cons_of_ne_nil (JsString.decimal_ne_nil q.num.natAbs)
    refine ⟨u, ds ++ if q.den = 1 then [] else 0x2f :: decimal q.den, ?_, .inl ?_⟩
    · rw [numeral, if_neg hneg, hdigits]
      rfl
    · exact all_isDigit_decimal _ u (by rw [hdigits]; exact List.mem_cons_self)

/-- No value begins with a closing bracket. -/
theorem text_eq_cons (j : Json) : ∃ u rest, text j = u :: rest ∧ u ≠ 0x5d ∧ u ≠ 0x7d := by
  match j with
  | .null => exact ⟨_, _, text_null, by decide⟩
  | .bool true => exact ⟨_, _, text_true, by decide⟩
  | .bool false => exact ⟨_, _, text_false, by decide⟩
  | .num (.fin q) =>
    obtain ⟨u, rest, htext, hu⟩ := numeral_eq_cons q
    refine ⟨u, rest, by rw [text, htext], ?_⟩
    constructor <;> rintro rfl <;> exact absurd hu (by decide)
  | .num (.inf _) => exact ⟨_, _, (by rw [text, ← text_null, text]), by decide⟩
  | .str s => exact ⟨0x22, _, by rw [text, quote], by decide⟩
  | .arr items => exact ⟨0x5b, _, by rw [text], by decide⟩
  | .obj fields => exact ⟨0x7b, _, by rw [text], by decide⟩

theorem head?_text_ne (j : Json) (rest : JsString) {close : UInt16}
    (hclose : close = 0x5d ∨ close = 0x7d) : (text j ++ rest).head? ≠ some close := by
  obtain ⟨u, r, htext, hu⟩ := text_eq_cons j
  rw [htext, List.cons_append, List.head?_cons, ne_eq, Option.some_inj]
  rcases hclose with rfl | rfl
  · exact hu.1
  · exact hu.2

/-- Texts between commas are no longer than the whole, and none of them is empty. -/
theorem length_le_intercalate {texts : List JsString} (hne : ∀ t ∈ texts, t ≠ []) :
    texts.length ≤ (List.intercalate [0x2c] texts).length ∧
      ∀ t ∈ texts, t.length ≤ (List.intercalate [0x2c] texts).length := by
  induction texts with
  | nil => exact ⟨Nat.zero_le _, fun t ht => absurd ht List.not_mem_nil⟩
  | cons t texts ih =>
    obtain ⟨hlength, hall⟩ := ih fun t' ht' => hne t' (List.mem_cons_of_mem _ ht')
    have hpos : 0 < t.length := List.length_pos_iff.mpr (hne t List.mem_cons_self)
    cases texts with
    | nil =>
      rw [List.intercalate_singleton]
      exact ⟨hpos, fun t' ht' => by rw [List.mem_singleton.mp ht']⟩
    | cons t' texts =>
      have hwhole : (List.intercalate [0x2c] (t :: t' :: texts)).length
          = t.length + 1 + (List.intercalate [0x2c] (t' :: texts)).length := by
        rw [List.intercalate_cons_cons, List.length_append, List.length_append,
          List.length_singleton]
      rw [hwhole, List.length_cons]
      refine ⟨by omega, fun t'' ht'' => ?_⟩
      rcases List.mem_cons.mp ht'' with rfl | ht''
      · omega
      · have := hall t'' ht''
        omega

/-- **What is written without loss reads back**, whatever follows it. -/
theorem read_text (j : Json) (hplain : j.Plain) {n : ℕ} {rest : JsString}
    (hn : (text j).length ≤ n) (hrest : Follows rest) :
    read n (text j ++ rest) = some (j, rest) := by
  obtain ⟨n, rfl⟩ : ∃ m, n = m + 1 := by
    obtain ⟨u, r, htext, -⟩ := text_eq_cons j
    rw [htext, List.length_cons] at hn
    exact ⟨n - 1, by omega⟩
  -- by recursion on the value: the fuel `n` covers the text of every part of it
  match hj : j, hplain with
  | .null, _ => rw [text_null]; rfl
  | .bool true, _ => rw [text_true]; rfl
  | .bool false, _ => rw [text_false]; rfl
  | .num (.fin q), _ =>
    have hread := readNumeral_numeral q hrest
    obtain ⟨u, r, htext, hu⟩ := numeral_eq_cons q
    have hother : ∀ c : UInt16, isDigit c = false → c ≠ 0x2d →
        ¬(u :: (r ++ rest)).head? = some c := by
      rintro c hc hminus hhead
      obtain rfl := Option.some_inj.mp hhead
      rcases hu with hu | hu
      · rw [hc] at hu
        exact Bool.false_ne_true hu
      · exact hminus hu
    rw [htext, List.cons_append] at hread
    rw [text, htext, List.cons_append, read,
      if_neg (hother _ rfl (by decide)), if_neg (hother _ rfl (by decide)),
      if_neg (hother _ rfl (by decide)), if_neg (hother _ rfl (by decide)),
      if_neg (hother _ rfl (by decide)), if_neg (hother _ rfl (by decide)), hread]
  | .str s, _ =>
    rw [text, quote, List.cons_append, List.append_assoc, List.singleton_append, read,
      List.head?_cons, if_pos rfl, List.tail_cons, readString_quote]
    rfl
  | .arr items, hplain =>
    have hitems := plain_arr.mp hplain
    rw [text, itemTexts_eq_map] at hn ⊢
    have hne : ∀ t ∈ items.map text, t ≠ [] := fun t ht => by
      obtain ⟨x, -, rfl⟩ := List.mem_map.mp ht
      obtain ⟨u, r, htext, -⟩ := text_eq_cons x
      rw [htext]
      exact List.cons_ne_nil _ _
    obtain ⟨hlength, hall⟩ := length_le_intercalate hne
    rw [List.length_cons, List.length_append] at hn
    rw [List.length_map] at hlength
    rw [List.cons_append, List.append_assoc, List.singleton_append, read, List.head?_cons,
      if_neg (by decide), if_pos rfl, List.tail_cons,
      readUntil_intercalate (by omega) (fun x hx r hr => ?_)
        (fun x _ r => head?_text_ne x r (.inl rfl)) (by decide)]
    · rfl
    · have := hall _ (List.mem_map_of_mem hx)
      exact read_text x (hitems x hx) (by omega) hr
  | .obj fields, hplain =>
    have hfields := (plain_obj.mp hplain).2
    rw [text, fieldTexts_eq_map] at hn ⊢
    have hne : ∀ t ∈ fields.map fieldText, t ≠ [] := fun t ht => by
      obtain ⟨f, -, rfl⟩ := List.mem_map.mp ht
      exact List.cons_ne_nil _ _
    obtain ⟨hlength, hall⟩ := length_le_intercalate hne
    rw [List.length_cons, List.length_append] at hn
    rw [List.length_map] at hlength
    rw [List.cons_append, List.append_assoc, List.singleton_append, read, List.head?_cons,
      if_neg (by decide), if_neg (by decide), if_pos rfl, List.tail_cons,
      readUntil_intercalate (by omega) (fun f hf r hr => ?_)
        (fun f _ r => by
          show (some 0x22 : Option UInt16) ≠ some 0x7d
          decide) (by decide)]
    · rfl
    · have hlt := hall _ (List.mem_map_of_mem hf)
      rw [fieldText, List.length_append, List.length_cons] at hlt
      have hvalue := read_text f.2 (hfields f hf) (n := n) (by omega) hr
      rw [fieldText, quote, List.append_assoc, List.cons_append, List.append_assoc,
        List.singleton_append, readField, List.head?_cons, if_pos rfl, List.tail_cons,
        readString_quote]
      simp only [List.head?_cons, if_true, List.cons_append, List.tail_cons, hvalue,
        Option.map_some]
termination_by sizeOf j
decreasing_by
  · have := List.sizeOf_lt_of_mem hx
    rw [hj, Json.arr.sizeOf_spec]
    omega
  · have := List.sizeOf_lt_of_mem hf
    have hsnd : sizeOf f.2 < sizeOf f := by
      obtain ⟨name, value⟩ := f
      show sizeOf value < _
      rw [Prod.mk.sizeOf_spec]
      omega
    rw [hj, Json.obj.sizeOf_spec]
    omega

/-! ### Bytes -/

/-- A text of printable ASCII characters. -/
def Printable (s : JsString) : Prop := ∀ u ∈ s, 0x20 ≤ u ∧ u < 0x80

theorem Printable.append {s t : JsString} (hs : Printable s) (ht : Printable t) :
    Printable (s ++ t) := fun u hu => (List.mem_append.mp hu).elim (hs u) (ht u)

theorem Printable.cons {u : UInt16} {s : JsString} (hu : 0x20 ≤ u ∧ u < 0x80)
    (hs : Printable s) : Printable (u :: s) := List.forall_mem_cons.mpr ⟨hu, hs⟩

theorem printable_nil : Printable [] := fun _ h => absurd h List.not_mem_nil

theorem printable_of_all {s : JsString}
    (h : s.all (fun u => decide (0x20 ≤ u ∧ u < 0x80)) = true) : Printable s :=
  fun u hu => of_decide_eq_true (List.all_eq_true.mp h u hu)

theorem printable_intercalate {texts : List JsString} (h : ∀ t ∈ texts, Printable t) :
    Printable (List.intercalate [0x2c] texts) := by
  induction texts with
  | nil => exact printable_nil
  | cons t texts ih =>
    have ht := h t List.mem_cons_self
    cases texts with
    | nil =>
      rw [List.intercalate_singleton]
      exact ht
    | cons t' texts =>
      rw [List.intercalate_cons_cons]
      exact (ht.append (printable_nil.cons (by decide))).append
        (ih fun t'' h'' => h t'' (List.mem_cons_of_mem _ h''))

theorem printable_quote (s : JsString) : Printable (quote s) := by
  refine .cons (by decide) (.append (fun u hu => ?_) (printable_nil.cons (by decide)))
  obtain ⟨c, -, hc⟩ := List.mem_flatMap.mp hu
  have hdigit : ∀ n < 16, 0x20 ≤ hexDigit n ∧ hexDigit n < 0x80 := by decide
  have hlt := c.toNat_lt
  rw [character] at hc
  split_ifs at hc with hplain
  · rw [List.mem_singleton.mp hc]
    exact ⟨hplain.1, hplain.2.1⟩
  -- escaped, by a letter or by four hexadecimal digits
  cases hletter : escapeLetter? c with
  | some letter =>
    rw [hletter] at hc
    simp only [List.mem_cons, List.not_mem_nil, or_false] at hc
    rcases hc with rfl | rfl
    · decide
    · exact (escapeLetter?_spec hletter).2
  | none =>
    rw [hletter] at hc
    simp only [List.mem_cons, List.not_mem_nil, or_false] at hc
    rcases hc with rfl | rfl | rfl | rfl | rfl | rfl
    · decide
    · decide
    · exact hdigit _ (by omega)
    · exact hdigit _ (by omega)
    · exact hdigit _ (by omega)
    · exact hdigit _ (by omega)

theorem printable_decimal (n : ℕ) : Printable (decimal n) := by
  intro u hu
  obtain ⟨d, hd, rfl⟩ := JsString.mem_decimal hu
  have hall : ∀ d < 10, 0x20 ≤ (0x30 + d).toUInt16 ∧ (0x30 + d).toUInt16 < 0x80 := by decide
  exact hall d hd

theorem printable_numeral (q : ℚ) : Printable (numeral q) := by
  refine .append ?_ ((printable_decimal _).append ?_)
  · split_ifs
    · exact printable_nil.cons (by decide)
    · exact printable_nil
  · split_ifs
    · exact printable_nil
    · exact (printable_decimal _).cons (by decide)

mutual

theorem printable_text : (j : Json) → Printable j.text
  | .null => by rw [text_null]; exact printable_of_all rfl
  | .bool true => by rw [text_true]; exact printable_of_all rfl
  | .bool false => by rw [text_false]; exact printable_of_all rfl
  | .num (.fin q) => printable_numeral q
  | .num (.inf _) => by rw [text, ← text, text_null]; exact printable_of_all rfl
  | .str s => printable_quote s
  | .arr items => by
    rw [text]
    exact .cons (by decide) ((printable_intercalate (printable_itemTexts items)).append
      (printable_nil.cons (by decide)))
  | .obj fields => by
    rw [text]
    exact .cons (by decide) ((printable_intercalate (printable_fieldTexts fields)).append
      (printable_nil.cons (by decide)))

theorem printable_itemTexts : (items : List Json) → ∀ t ∈ itemTexts items, Printable t
  | [], _, h => absurd h List.not_mem_nil
  | j :: rest, t, h => by
    rcases List.mem_cons.mp h with rfl | h
    · exact printable_text j
    · exact printable_itemTexts rest t h

theorem printable_fieldTexts :
    (fields : List (JsString × Json)) → ∀ t ∈ fieldTexts fields, Printable t
  | [], _, h => absurd h List.not_mem_nil
  | (name, value) :: rest, t, h => by
    rcases List.mem_cons.mp h with rfl | h
    · exact (printable_quote name).append ((printable_text value).cons (by decide))
    · exact printable_fieldTexts rest t h

end

def encode (s : JsString) : Bytes := s.map UInt16.toUInt8

def decode (b : Bytes) : JsString := b.map UInt8.toUInt16

theorem decode_encode {s : JsString} (h : Printable s) : decode (encode s) = s := by
  rw [decode, encode, List.map_map]
  refine (List.map_congr_left fun u hu => ?_).trans (List.map_id s)
  have hu := (h u hu).2
  show u.toUInt8.toUInt16 = u
  apply UInt16.toNat_inj.mp
  have hlt : u.toNat < 0x80 := hu
  rw [UInt8.toNat_toUInt16, UInt16.toNat_toUInt8]
  omega

theorem encode_intercalate (texts : List JsString) :
    encode (List.intercalate [0x2c] texts) = List.intercalate [0x2c] (texts.map encode) := by
  induction texts with
  | nil => rfl
  | cons t texts ih =>
    cases texts with
    | nil => rw [List.intercalate_singleton, List.map_singleton, List.intercalate_singleton]
    | cons t' texts =>
      rw [List.map_cons] at ih
      rw [List.intercalate_cons_cons, List.map_cons, List.map_cons, List.intercalate_cons_cons,
        ← ih]
      simp [encode]

/-- The bytes of a list are those of its items, between brackets. -/
theorem encode_text_arr (items : List Json) : encode (text (.arr items))
    = 0x5b :: (List.intercalate [0x2c] (items.map fun j => encode j.text) ++ [0x5d]) := by
  show (0x5b :: (_ ++ [0x5d]) : JsString).map UInt16.toUInt8 = _
  rw [List.map_cons, List.map_append, itemTexts_eq_map]
  refine congrArg₂ _ rfl (congrArg₂ _ ?_ rfl)
  rw [← encode, encode_intercalate, List.map_map]
  rfl

/-- The bytes of an object are those of its fields, between braces. -/
theorem encode_text_obj (fields : List (JsString × Json)) : encode (text (.obj fields))
    = 0x7b :: (List.intercalate [0x2c]
        (fields.map fun f => encode (text (.str f.1)) ++ 0x3a :: encode f.2.text) ++ [0x7d]) := by
  show (0x7b :: (_ ++ [0x7d]) : JsString).map UInt16.toUInt8 = _
  rw [List.map_cons, List.map_append, fieldTexts_eq_map]
  refine congrArg₂ _ rfl (congrArg₂ _ ?_ rfl)
  rw [← encode, encode_intercalate, List.map_map]
  refine congrArg _ (List.map_congr_left fun f _ => ?_)
  show (fieldText f).map UInt16.toUInt8 = _
  rw [fieldText, List.map_append, List.map_cons]
  rfl

/-- The bytes are on one line. -/
theorem newline_not_mem_encode (j : Json) : (0x0a : UInt8) ∉ encode j.text := by
  intro h
  obtain ⟨u, hu, hnewline⟩ := List.mem_map.mp h
  have hprintable := printable_text j u hu
  have hbyte : u.toUInt8.toNat = 0x0a := by rw [hnewline]; rfl
  have hlow : 0x20 ≤ u.toNat := hprintable.1
  have hhigh : u.toNat < 0x80 := hprintable.2
  rw [UInt16.toNat_toUInt8] at hbyte
  omega

/-- What is read back from the bytes of a value. -/
def parseBytes (b : Bytes) : Option Json :=
  match read (b.length + 1) (decode b) with
  | some (j, []) => some j
  | _ => none

theorem parseBytes_encode (j : Json) (hplain : j.Plain) : parseBytes (encode j.text) = some j := by
  have hlength : j.text.length ≤ (encode j.text).length + 1 := by
    rw [encode, List.length_map]
    omega
  have hread := read_text j hplain hlength follows_nil
  rw [List.append_nil] at hread
  simp only [parseBytes, decode_encode (printable_text j), hread]

/-! ### Lengths -/

/-- No escape has more than six characters. -/
theorem length_character_le (u : UInt16) : (character u).length ≤ 6 := by
  unfold character
  split_ifs
  · exact Nat.le_add_left 1 5
  · split
    · exact Nat.le_add_left 2 4
    · exact Nat.le_refl 6

theorem length_quote_le (s : JsString) : (quote s).length ≤ 6 * s.length + 2 := by
  have hcharacters : (s.flatMap character).length ≤ 6 * s.length := by
    induction s with
    | nil => exact Nat.zero_le _
    | cons u s ih =>
      have hfirst := length_character_le u
      rw [List.flatMap_cons, List.length_append, List.length_cons]
      omega
  rw [quote, List.length_cons, List.length_append, List.length_singleton]
  omega

theorem length_intercalate_le {texts : List JsString} {k : ℕ} (h : ∀ t ∈ texts, t.length ≤ k) :
    (List.intercalate [0x2c] texts).length ≤ texts.length * (k + 1) := by
  induction texts with
  | nil => exact Nat.zero_le _
  | cons t texts ih =>
    obtain ⟨ht, htexts⟩ := List.forall_mem_cons.mp h
    have hrest := ih htexts
    rw [List.length_cons, Nat.succ_mul]
    cases texts with
    | nil =>
      rw [List.intercalate_singleton]
      omega
    | cons t' texts =>
      rw [List.intercalate_cons_cons, List.length_append, List.length_append,
        List.length_singleton]
      omega

/-- The text of an object whose names and values are short. -/
theorem length_obj_le {fields : List (JsString × Json)} {m k : ℕ}
    (h : ∀ f ∈ fields, f.1.length ≤ m ∧ f.2.text.length ≤ k) :
    (text (.obj fields)).length ≤ fields.length * (6 * m + k + 4) + 2 := by
  have hfields : ∀ t ∈ fields.map fieldText, t.length ≤ 6 * m + k + 3 := by
    intro t ht
    obtain ⟨f, hf, rfl⟩ := List.mem_map.mp ht
    obtain ⟨hname, hvalue⟩ := h f hf
    have hquote := length_quote_le f.1
    rw [fieldText, List.length_append, List.length_cons]
    omega
  have hall := length_intercalate_le hfields
  rw [List.length_map] at hall
  rw [text, fieldTexts_eq_map, List.length_cons, List.length_append, List.length_singleton]
  exact Nat.add_le_add_right hall 2

theorem text_nat (n : ℕ) : text (.nat n) = decimal n := by
  show numeral ((n : ℤ) : ℚ) = decimal n
  rw [numeral, Rat.num_intCast, Rat.den_intCast, if_neg (by omega), if_pos rfl, List.append_nil,
    Int.natAbs_natCast, List.nil_append]

end Json

/-- The texts of `JSON.stringify`, as ASCII. -/
def compactJson : JsonText where
  stringify j := Json.encode j.text
  parse := Json.parseBytes
  parse_stringify := Json.parseBytes_encode
  newline_not_mem := Json.newline_not_mem_encode
  stringify_arr := Json.encode_text_arr
  stringify_obj := Json.encode_text_obj
