/-
What the packages and the database do with ordinary values.

`class-transformer` and `class-validator` are known by what they refuse; here is what they are
known to take.

* `ordinary` — values of little depth, whose properties have names of their own;
* `StandardLibraries` — such values are copied as they are; UUIDs of the versions 1 to 5 and the
  texts of `toISOString` are what they look like; a plain text is as long as its list of units;
* `StandardPostgres` — such a time is stored as it is;
* `exists_instance` — the instance of an ordinary object has its properties;
* `copyable_ordinary` — the validation of an ordinary event does not throw.
-/
import LogStack.Attribution
import LogStack.Generator

open Calendar (MAX_DAY toISOString)
open Json (string? integer?)
open JsString (isDigit isHexDigit)
open Sender (Text isInstanceUuid)

namespace Ingestion

/-- No deeper than `depth`, and no property with the name of one that every object inherits. -/
def ordinary : ℕ → Json → Bool
  | _, .null | _, .bool _ | _, .num _ | _, .str _ => true
  | 0, .arr _ | 0, .obj _ => false
  | depth + 1, .arr items => items.all (ordinary depth)
  | depth + 1, .obj fields => fields.all fun f => f.1 ∉ inheritedNames && ordinary depth f.2

/-- The depth of a batch, its events and their payloads. -/
def BATCH_DEPTH : ℕ := 4

structure StandardLibraries extends Libraries where
  isSome_plainToInstance : ∀ j, ordinary BATCH_DEPTH j = true → (plainToInstance j).isSome = true
  copyOf_ordinary : ∀ j, ordinary BATCH_DEPTH j = true → j.Plain → copyOf j = j
  isUUID_of : ∀ s, isInstanceUuid s = true → isUUID s = true
  isISO8601_toISOString : ∀ strict ms, ms / 86400000 ≤ MAX_DAY →
    isISO8601 strict (toISOString ms) = true
  measure_text : ∀ s, Text s → measure s = s.length

/-- A server that takes the text of a whole millisecond for that millisecond. -/
structure StandardPostgres extends Postgres where
  timestamptz_toISOString : ∀ ms, ms / 86400000 ≤ MAX_DAY →
    timestamptz (toISOString ms) = some (ms : ℤ)

/-! ### Ordinary values -/

theorem ordinary_succ {depth : ℕ} {j : Json} (h : ordinary depth j = true) :
    ordinary (depth + 1) j = true := by
  induction depth generalizing j with
  | zero => cases j <;> simp_all [ordinary]
  | succ depth ih =>
    cases j with
    | arr items =>
      rw [ordinary, List.all_eq_true] at h ⊢
      exact fun item hitem => ih (h item hitem)
    | obj fields =>
      rw [ordinary, List.all_eq_true] at h ⊢
      intro f hf
      have hfield := h f hf
      rw [Bool.and_eq_true] at hfield ⊢
      exact ⟨hfield.1, ih hfield.2⟩
    | _ => rfl

theorem mem_of_get? {fields : List (JsString × Json)} {key : JsString} {value : Json}
    (h : (Json.obj fields).get? key = some value) : (key, value) ∈ fields := by
  obtain ⟨f, hfind, rfl⟩ := Option.map_eq_some_iff.mp h
  obtain rfl : f.1 = key := by simpa using List.find?_some hfind
  exact List.mem_of_find?_eq_some hfind

/-- An ordinary object has an instance with the same properties. -/
theorem exists_instance (L : StandardLibraries) {fields : List (JsString × Json)}
    (h : ordinary BATCH_DEPTH (.obj fields) = true) (hplain : (Json.obj fields).Plain) :
    ∃ instance', L.plainToInstance (.obj fields) = some instance' ∧
      ∀ key ∉ inheritedNames, instance'.get? key = (Json.obj fields).get? key := by
  obtain ⟨instance', hinstance⟩ := Option.isSome_iff_exists.mp (L.isSome_plainToInstance _ h)
  refine ⟨instance', hinstance, fun key hkey => ?_⟩
  rw [L.get?_plainToInstance _ _ key hinstance hkey]
  cases hget : (Json.obj fields).get? key with
  | none => rfl
  | some value =>
    have hmem := mem_of_get? hget
    rw [BATCH_DEPTH, ordinary, List.all_eq_true] at h
    have hvalue := h _ hmem
    rw [Bool.and_eq_true] at hvalue
    rw [Option.map_some, L.copyOf_ordinary value (ordinary_succ hvalue.2)
      ((Json.plain_obj.mp hplain).2 _ hmem)]

/-! ### Validation -/

/-- The validation of an ordinary event never throws. -/
theorem copyable_ordinary (L : StandardLibraries) {raw : Json} (h : ordinary 3 raw = true)
    (hplain : raw.Plain) : Copyable L.toLibraries raw := by
  intro hobject
  cases raw with
  | obj fields =>
    obtain ⟨envelope, hcopy, hget⟩ := exists_instance L (ordinary_succ h) hplain
    refine ⟨envelope, hcopy, fun _ _ payload hpayload => ?_⟩
    -- the payload of a purchase is ordinary as well
    rw [hget _ (by decide +kernel)] at hpayload
    have hmem := mem_of_get? hpayload
    rw [ordinary, List.all_eq_true] at h
    have hordinary := (Bool.and_eq_true_iff.mp (h _ hmem)).2
    exact L.isSome_plainToInstance payload (ordinary_succ (ordinary_succ hordinary))
  | _ => cases hobject

/-! ### Texts -/

variable {s : JsString}

theorem Text.not_surrogate (h : Text s) : ∀ u ∈ s, JsString.isHighSurrogate u = false ∧
    JsString.isSurrogate u = false := by
  intro u hu
  have hbound := (h u hu).2
  simp only [JsString.isSurrogate, JsString.isHighSurrogate, JsString.isLowSurrogate]
  grind

theorem characters_text (h : Text s) : s.characters = s.map fun u => [u] :=
  JsString.characters_eq_map fun u hu => (Text.not_surrogate h u hu).1

theorem zero_notMem_text (h : Text s) : 0 ∉ s := fun hzero =>
  absurd (h 0 hzero).1 (by decide)

theorem fits_text {n : ℕ} (h : Text s) (hn : s.length ≤ n) : Fits n s := by
  refine ⟨zero_notMem_text h, fun c hc => ?_⟩
  rw [characters_text h, List.drop_eq_nil_of_le (by simpa using hn)] at hc
  exact absurd hc List.not_mem_nil

theorem jsonbString_text (h : Text s) : jsonbString s = true := by
  rw [jsonbString, characters_text h, Bool.and_eq_true, decide_eq_true_iff, List.all_eq_true]
  refine ⟨zero_notMem_text h, fun c hc => ?_⟩
  obtain ⟨u, hu, rfl⟩ := List.mem_map.mp hc
  simp [(Text.not_surrogate h u hu).2]

theorem hasZoneDesignator_toISOString (ms : ℕ) : hasZoneDesignator (toISOString ms) = true := by
  have hlast : (toISOString ms).getLast? = some 0x5a := by
    rw [toISOString, List.getLast?_append, List.getLast?_append]
    rfl
  rw [hasZoneDesignator, hlast]
  rfl

/-! ### Packages and a server that do so -/

theorem presentationSequences_text (h : Text s) : presentationSequences s = 0 := by
  fun_induction presentationSequences s with
  | case1 u v rest hselector ih =>
    have hv := (h v (by simp)).2
    simp only [isVariationSelector, Bool.and_eq_true, Bool.or_eq_true, decide_eq_true_iff]
      at hselector
    grind
  | case2 u v rest hselector ih => exact ih fun x hx => h x (List.mem_cons_of_mem _ hx)
  | case3 => rfl

theorem isUuidText_of_isInstanceUuid (h : isInstanceUuid s = true) : isUuidText s = true := by
  simp only [isInstanceUuid, isUuidText, Bool.and_eq_true, decide_eq_true_iff, List.all_eq_true]
    at h ⊢
  refine ⟨h.1, fun p hp => ?_⟩
  have hchar := h.2 p hp
  by_cases hhyphen : p.2 ∈ [8, 13, 18, 23]
  · rwa [if_pos hhyphen] at hchar ⊢
  rw [if_neg hhyphen] at hchar ⊢
  split_ifs at hchar with hversion hvariant
  · simp only [Bool.and_eq_true, decide_eq_true_iff] at hchar
    have hdigit : isDigit p.1 = true := by
      rw [isDigit, Bool.and_eq_true, decide_eq_true_iff, decide_eq_true_iff]
      exact ⟨UInt16.le_trans (show (0x30 : UInt16) ≤ 0x31 by decide) hchar.1,
        UInt16.le_trans hchar.2 (show (0x35 : UInt16) ≤ 0x39 by decide)⟩
    rw [isHexDigit, hdigit, Bool.true_or, Bool.true_or]
  · have hall : (js "89abAB").all isHexDigit = true := by decide +kernel
    exact List.all_eq_true.mp hall p.1 (by simpa using hchar)
  · exact hchar

def standardLibraries : StandardLibraries where
  toLibraries := Metrics.isoLibraries
  isSome_plainToInstance := fun _ _ => rfl
  copyOf_ordinary := fun _ _ _ => rfl
  isUUID_of := fun _ => isUuidText_of_isInstanceUuid
  isISO8601_toISOString := by
    intro strict ms h
    show (Calendar.isoInstant (toISOString ms)).isSome = true
    rw [Calendar.isoInstant_toISOString h]
    rfl
  measure_text := by
    intro s h
    show s.characters.length - presentationSequences s = s.length
    rw [presentationSequences_text h, characters_text h, List.length_map]
    rfl

theorem isoPostgres_toISOString (ms : ℕ) (h : ms / 86400000 ≤ MAX_DAY) :
    Metrics.isoPostgres.timestamptz (toISOString ms) = some (ms : ℤ) := by
  have hmicro : Metrics.nearestMicro (ms : ℚ) = 1000 * ms := by
    rw [Metrics.nearestMicro, Int.floor_eq_iff]
    push_cast
    constructor <;> linarith
  rw [Metrics.isoPostgres.timestamptz_eq,
    Metrics.isoPostgres_micros (Calendar.isoInstant_toISOString h), hmicro, Option.map_some]
  show some ((1000 * (ms : ℤ) + 500) / 1000) = some (ms : ℤ)
  congr 1
  omega

def standardPostgres : StandardPostgres where
  toPostgres := Metrics.isoPostgres.toPostgres
  timestamptz_toISOString := isoPostgres_toISOString

end Ingestion
