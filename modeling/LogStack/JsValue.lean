/-
JavaScript values as they pass through `JSON.parse` and `JSON.stringify`.

Both halves of the pipeline handle values of type `unknown`: the sender reads
them back from its journal, the receiver takes them from a request body.

* `JsString` — a string is its list of UTF-16 code units, so that an unpaired
  surrogate and `U+0000` are ordinary characters;
* `JsNumber` — a finite number or one of the infinities (`1e999` parses to one);
* `Json` — a value, with the own properties of an object in property order;
* `Json.Plain` — the values that `JSON.stringify` writes without loss;
* `JsonText` — the text of a value, with what the language promises about it.
-/
import Mathlib.Data.Rat.Defs
import Mathlib.Data.List.Basic

abbrev Bytes := List UInt8

abbrev JsString := List UInt16

instance : LawfulBEq JsString := inferInstance

/-- The UTF-16 code units of one character. -/
def utf16 (c : Char) : JsString :=
  if c.toNat < 0x10000 then [c.toNat.toUInt16]
  else [(0xD800 + (c.toNat - 0x10000) / 0x400).toUInt16,
    (0xDC00 + (c.toNat - 0x10000) % 0x400).toUInt16]

/-- A string literal of the source. -/
def js (s : String) : JsString := s.toList.flatMap utf16

namespace JsString

def isHighSurrogate (u : UInt16) : Bool := 0xD800 ≤ u && u ≤ 0xDBFF

def isLowSurrogate (u : UInt16) : Bool := 0xDC00 ≤ u && u ≤ 0xDFFF

def isSurrogate (u : UInt16) : Bool := isHighSurrogate u || isLowSurrogate u

/-- The characters: a surrogate pair is one of them, and so is an unpaired surrogate. -/
def characters : JsString → List JsString
  | [] => []
  | [u] => [[u]]
  | u :: v :: rest =>
    if isHighSurrogate u && isLowSurrogate v then [u, v] :: characters rest
    else [u] :: characters (v :: rest)

/-- Without high surrogates every code unit is a character. -/
theorem characters_eq_map {s : JsString} (h : ∀ u ∈ s, isHighSurrogate u = false) :
    s.characters = s.map fun u => [u] := by
  induction s with
  | nil => rfl
  | cons u s ih =>
    cases s with
    | nil => rfl
    | cons v rest =>
      have hrest := ih fun x hx => h x (List.mem_cons_of_mem _ hx)
      rw [characters, h u List.mem_cons_self, Bool.false_and, if_neg Bool.false_ne_true, hrest]
      rfl

/-- `toLowerCase` on the letters `A` to `Z`, the only ones a hexadecimal UUID has. -/
def toLowerCase (s : JsString) : JsString :=
  s.map fun u => if 0x41 ≤ u && u ≤ 0x5A then u + 0x20 else u

theorem toLowerCase_idem (s : JsString) : s.toLowerCase.toLowerCase = s.toLowerCase := by
  rw [toLowerCase, toLowerCase, List.map_map]
  refine List.map_congr_left fun u _ => ?_
  simp only [Function.comp_apply]
  split_ifs with hupper htwice
  · grind
  · rfl
  · rfl

/-- An array index (`"0"`, `"17"`): such property names come first, in order. -/
def arrayIndex? (s : JsString) : Option ℕ :=
  if s ≠ [] ∧ s.all (fun u => 0x30 ≤ u ∧ u ≤ 0x39) ∧ (s.head? = some 0x30 → s = [0x30]) then
    some (s.foldl (fun n u => 10 * n + (u.toNat - 0x30)) 0)
  else none

/-- Property order: array indices ascending, then the other names as they were added. -/
def keyBefore (k l : JsString) : Bool :=
  k ≠ l && match arrayIndex? k, arrayIndex? l with
    | some i, some j => i < j
    | none, some _ => false
    | _, none => true

theorem keyBefore_of_name {k l : JsString} (hne : k ≠ l) (hl : arrayIndex? l = none) :
    keyBefore k l = true := by
  simp [keyBefore, hne, hl]

end JsString

inductive JsNumber where
  | fin (q : ℚ)
  | inf (negative : Bool)
  deriving DecidableEq

namespace JsNumber

/-- `Number.isInteger`, with the integer. -/
def toInt? : JsNumber → Option ℤ
  | .fin q => if q.den = 1 then some q.num else none
  | .inf _ => none

@[simp] theorem toInt?_ofInt (z : ℤ) : toInt? (.fin z) = some z := by
  simp [toInt?]

end JsNumber

/-- A value that came out of `JSON.parse`. -/
inductive Json where
  | null
  | bool (b : Bool)
  | num (n : JsNumber)
  | str (s : JsString)
  | arr (items : List Json)
  | obj (fields : List (JsString × Json))

namespace Json

def nat (n : ℕ) : Json := .num (.fin (n : ℚ))

/-- Reading a property: `none` is `undefined`. A number or a string has none of the
properties that the source asks for. -/
def get? : Json → JsString → Option Json
  | .obj fields, key => (fields.find? fun f => f.1 = key).map Prod.snd
  | _, _ => none

/-- The value of a property, when it is a string. -/
def string? : Option Json → Option JsString
  | some (.str s) => some s
  | _ => none

/-- The value of a property, when `Number.isInteger` holds. -/
def integer? : Option Json → Option ℤ
  | some (.num n) => n.toInt?
  | _ => none

theorem string?_eq_some {value : Option Json} {s : JsString} :
    string? value = some s ↔ value = some (.str s) := by
  match value with
  | none => simp [string?]
  | some (.str s') => simp [string?]
  | some .null | some (.bool _) | some (.num _) | some (.arr _) | some (.obj _) => simp [string?]

/-- The items of a property, when it is an array. -/
def array? : Option Json → Option (List Json)
  | some (.arr items) => some items
  | _ => none

theorem array?_eq_some {value : Option Json} {items : List Json} :
    array? value = some items ↔ value = some (.arr items) := by
  match value with
  | none => simp [array?]
  | some (.arr items') => simp [array?]
  | some .null | some (.bool _) | some (.num _) | some (.str _) | some (.obj _) => simp [array?]

/-- Assigning a property keeps its place when it exists and appends it otherwise. -/
def setField (key : JsString) (value : Json) : List (JsString × Json) → List (JsString × Json)
  | [] => [(key, value)]
  | f :: rest => if f.1 = key then (key, value) :: rest else f :: setField key value rest

/-- Object spread: `{ ...target, ...fields }`. -/
def assign (target fields : List (JsString × Json)) : List (JsString × Json) :=
  fields.foldl (fun acc f => setField f.1 f.2 acc) target

/-- The value of `Number.isInteger(v) && v >= 0 ? v : undefined`. -/
def nonNegativeInteger : Option Json → Option ℕ
  | some (.num n) =>
    match n.toInt? with
    | some z => if 0 ≤ z then some z.toNat else none
    | none => none
  | _ => none

@[simp] theorem nonNegativeInteger_nat (n : ℕ) : nonNegativeInteger (some (nat n)) = some n := by
  have h : (JsNumber.fin (n : ℚ)).toInt? = some (n : ℤ) := JsNumber.toInt?_ofInt n
  simp [nonNegativeInteger, nat, h]

mutual

/-- Every number finite and every object in property order: the values that
`JSON.stringify` writes without loss. -/
def Plain : Json → Prop
  | .null | .bool _ | .str _ => True
  | .num (.fin _) => True
  | .num (.inf _) => False
  | .arr items => PlainItems items
  | .obj fields => (fields.map Prod.fst).Pairwise (fun k l => JsString.keyBefore k l = true) ∧
      PlainFields fields

def PlainItems : List Json → Prop
  | [] => True
  | j :: rest => j.Plain ∧ PlainItems rest

def PlainFields : List (JsString × Json) → Prop
  | [] => True
  | f :: rest => f.2.Plain ∧ PlainFields rest

end

theorem plainItems_iff {items : List Json} : PlainItems items ↔ ∀ j ∈ items, j.Plain := by
  induction items with
  | nil => simp [PlainItems]
  | cons j rest ih => simp [PlainItems, ih]

theorem plainFields_iff {fields : List (JsString × Json)} :
    PlainFields fields ↔ ∀ f ∈ fields, f.2.Plain := by
  induction fields with
  | nil => simp [PlainFields]
  | cons f rest ih => simp [PlainFields, ih]

@[simp] theorem plain_nat (n : ℕ) : (nat n).Plain := trivial

@[simp] theorem plain_str (s : JsString) : (Json.str s).Plain := trivial

theorem plain_arr {items : List Json} : (Json.arr items).Plain ↔ ∀ j ∈ items, j.Plain := by
  rw [Plain, plainItems_iff]

theorem plain_obj {fields : List (JsString × Json)} : (Json.obj fields).Plain ↔
    (fields.map Prod.fst).Pairwise (fun k l => JsString.keyBefore k l = true) ∧
      ∀ f ∈ fields, f.2.Plain := by
  rw [Plain, plainFields_iff]

theorem mem_setField {key : JsString} {value : Json} {fields : List (JsString × Json)}
    {f : JsString × Json} (h : f ∈ setField key value fields) : f = (key, value) ∨ f ∈ fields := by
  induction fields with
  | nil => exact Or.inl (by simpa [setField] using h)
  | cons g rest ih =>
    rw [setField] at h
    split_ifs at h with hg
    · rcases List.mem_cons.mp h with h | h
      · exact Or.inl h
      · exact Or.inr (List.mem_cons_of_mem _ h)
    · rcases List.mem_cons.mp h with h | h
      · exact Or.inr (h ▸ List.mem_cons_self)
      · exact (ih h).imp id (List.mem_cons_of_mem _)

theorem map_fst_setField {key : JsString} {value : Json} (fields : List (JsString × Json)) :
    (setField key value fields).map Prod.fst
      = if key ∈ fields.map Prod.fst then fields.map Prod.fst
        else fields.map Prod.fst ++ [key] := by
  induction fields with
  | nil => simp [setField]
  | cons g rest ih =>
    rw [setField]
    split_ifs with hg hmem hmem
    · simp [hg]
    · exact absurd (by simp [hg]) hmem
    · have hrest : key ∈ rest.map Prod.fst := by
        simpa [Ne.symm hg] using hmem
      rw [List.map_cons, ih, if_pos hrest, List.map_cons]
    · have hrest : key ∉ rest.map Prod.fst := fun h => hmem (by simp at h ⊢; tauto)
      rw [List.map_cons, ih, if_neg hrest, List.map_cons, List.cons_append]

/-- Assigning a property whose name is not an array index keeps an object plain. -/
theorem plain_setField {key : JsString} {value : Json} {fields : List (JsString × Json)}
    (hkey : JsString.arrayIndex? key = none) (hvalue : value.Plain) (h : (Json.obj fields).Plain) :
    (Json.obj (setField key value fields)).Plain := by
  obtain ⟨horder, hfields⟩ := plain_obj.mp h
  refine plain_obj.mpr ⟨?_, fun f hf => ?_⟩
  · rw [map_fst_setField]
    split_ifs with hmem
    · exact horder
    · refine List.pairwise_append.mpr ⟨horder, List.pairwise_singleton _ _, fun k hk l hl => ?_⟩
      obtain rfl := List.mem_singleton.mp hl
      exact JsString.keyBefore_of_name (fun hkl => hmem (hkl ▸ hk)) hkey
  · rcases mem_setField hf with rfl | hf
    · exact hvalue
    · exact hfields f hf

theorem plain_assign {target fields : List (JsString × Json)}
    (hfields : ∀ f ∈ fields, JsString.arrayIndex? f.1 = none ∧ f.2.Plain)
    (h : (Json.obj target).Plain) : (Json.obj (assign target fields)).Plain := by
  induction fields generalizing target with
  | nil => exact h
  | cons f rest ih =>
    obtain ⟨hkey, hvalue⟩ := hfields f List.mem_cons_self
    exact ih (fun g hg => hfields g (List.mem_cons_of_mem _ hg)) (plain_setField hkey hvalue h)

theorem get?_setField_self {key : JsString} {value : Json} (fields : List (JsString × Json)) :
    (Json.obj (setField key value fields)).get? key = some value := by
  induction fields with
  | nil => simp [get?, setField]
  | cons g rest ih =>
    rw [setField]
    split_ifs with hg
    · simp [get?]
    · simp only [get?, List.find?_cons, hg, decide_false] at ih ⊢
      exact ih

end Json

/-- The text of a JSON value as UTF-8 bytes. `parse` answers `none` where `JSON.parse`
throws. The laws are those of the language: a value without infinities survives the trip,
and the compact form has no line break and is built from the texts of its parts. -/
structure JsonText where
  stringify : Json → Bytes
  parse : Bytes → Option Json
  parse_stringify : ∀ j, j.Plain → parse (stringify j) = some j
  newline_not_mem : ∀ j, (0x0a : UInt8) ∉ stringify j
  stringify_arr : ∀ items, stringify (.arr items)
    = 0x5b :: (List.intercalate [0x2c] (items.map stringify) ++ [0x5d])
  stringify_obj : ∀ fields, stringify (.obj fields)
    = 0x7b :: (List.intercalate [0x2c]
        (fields.map fun f => stringify (.str f.1) ++ 0x3a :: stringify f.2) ++ [0x7d])

/-- A function that calls another one returns just when neither throws. -/
theorem Except.bind_eq_ok {ε α β : Type} {x : Except ε α} {f : α → Except ε β} {b : β} :
    (x >>= f) = .ok b ↔ ∃ a, x = .ok a ∧ f a = .ok b := by
  constructor
  · intro h
    cases x with
    | error e => cases h
    | ok a => exact ⟨a, rfl, h⟩
  · rintro ⟨a, rfl, h⟩
    exact h
