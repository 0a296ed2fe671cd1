/-
Inserting rows into a keyed table, the first row of each key winning.

`INSERT … ON CONFLICT (key) DO NOTHING RETURNING …` skips the rows whose key is there
already or came earlier in the statement; a duplicate check against a set of seen keys keeps
the same rows.

* `firstNew` — the rows that are kept, for some keys known beforehand;
* `foldl_insertNew` — inserting rows one by one appends exactly these;
* `firstNew_append` — a statement after a statement keeps what one statement would;
* `firstNew_firstNew` — dropping duplicates beforehand makes no difference.
-/
import Mathlib.Data.Finset.Card

namespace KeyedInsert

variable {α κ : Type} [DecidableEq κ] (key : α → κ)

/-- The first rows of each key that is not in `known`. -/
def firstNew : List κ → List α → List α
  | _, [] => []
  | known, x :: xs =>
    if key x ∈ known then firstNew known xs else x :: firstNew (key x :: known) xs

/-- `INSERT … ON CONFLICT (key) DO NOTHING` of one row. -/
def insertNew (table : List α) (x : α) : List α :=
  if key x ∈ table.map key then table else table ++ [x]

variable {key} {known known' : List κ} {xs ys : List α} {x : α}

@[simp] theorem firstNew_nil : firstNew key known [] = [] := rfl

theorem firstNew_cons_of_mem (h : key x ∈ known) :
    firstNew key known (x :: xs) = firstNew key known xs := by
  rw [firstNew, if_pos h]

theorem firstNew_cons_of_notMem (h : key x ∉ known) :
    firstNew key known (x :: xs) = x :: firstNew key (key x :: known) xs := by
  rw [firstNew, if_neg h]

theorem firstNew_sublist : (firstNew key known xs).Sublist xs := by
  induction xs generalizing known with
  | nil => exact List.Sublist.slnil
  | cons x xs ih =>
    rw [firstNew]
    split_ifs
    · exact ih.cons x
    · exact ih.cons_cons x

theorem key_notMem_known (h : x ∈ firstNew key known xs) : key x ∉ known := by
  induction xs generalizing known with
  | nil => exact absurd h List.not_mem_nil
  | cons y ys ih =>
    rw [firstNew] at h
    split_ifs at h with hy
    · exact ih h
    · rcases List.mem_cons.mp h with rfl | h
      · exact hy
      · exact fun hmem => ih h (List.mem_cons_of_mem _ hmem)

theorem nodup_firstNew : ((firstNew key known xs).map key).Nodup := by
  induction xs generalizing known with
  | nil => exact List.nodup_nil
  | cons x xs ih =>
    rw [firstNew]
    split_ifs
    · exact ih
    · refine List.nodup_cons.mpr ⟨fun hmem => ?_, ih⟩
      obtain ⟨y, hy, hkey⟩ := List.mem_map.mp hmem
      exact key_notMem_known hy (hkey ▸ List.mem_cons_self)

/-- No key is lost: it was known, or it is the key of a kept row. -/
theorem mem_known_or (h : x ∈ xs) :
    key x ∈ known ∨ key x ∈ (firstNew key known xs).map key := by
  induction xs generalizing known with
  | nil => exact absurd h List.not_mem_nil
  | cons y ys ih =>
    by_cases hy : key y ∈ known
    · rw [firstNew_cons_of_mem hy]
      rcases List.mem_cons.mp h with rfl | h
      · exact .inl hy
      · exact ih h
    · rw [firstNew_cons_of_notMem hy, List.map_cons]
      rcases List.mem_cons.mp h with rfl | h
      · exact .inr List.mem_cons_self
      · rcases (ih h : key x ∈ key y :: known ∨ _) with hmem | hmem
        · rcases List.mem_cons.mp hmem with heq | hmem
          · exact .inr (heq ▸ List.mem_cons_self)
          · exact .inl hmem
        · exact .inr (List.mem_cons_of_mem _ hmem)

theorem mem_map_firstNew {k : κ} :
    k ∈ (firstNew key known xs).map key ↔ k ∈ xs.map key ∧ k ∉ known := by
  constructor
  · intro h
    obtain ⟨x, hx, rfl⟩ := List.mem_map.mp h
    exact ⟨List.mem_map_of_mem (firstNew_sublist.mem hx), key_notMem_known hx⟩
  · rintro ⟨h, hknown⟩
    obtain ⟨x, hx, rfl⟩ := List.mem_map.mp h
    exact (mem_known_or hx).resolve_left hknown

theorem toFinset_firstNew :
    ((firstNew key known xs).map key).toFinset = (xs.map key).toFinset \ known.toFinset := by
  ext k
  simp only [Finset.mem_sdiff, List.mem_toFinset, mem_map_firstNew]

/-- There is one kept row for each new key. -/
theorem length_firstNew :
    (firstNew key known xs).length = ((xs.map key).toFinset \ known.toFinset).card := by
  rw [← toFinset_firstNew, List.toFinset_card_of_nodup nodup_firstNew, List.length_map]

theorem firstNew_congr (h : ∀ k, k ∈ known ↔ k ∈ known') :
    firstNew key known xs = firstNew key known' xs := by
  induction xs generalizing known known' with
  | nil => rfl
  | cons x xs ih =>
    by_cases hx : key x ∈ known
    · rw [firstNew_cons_of_mem hx, firstNew_cons_of_mem ((h _).mp hx), ih h]
    · rw [firstNew_cons_of_notMem hx, firstNew_cons_of_notMem (fun hx' => hx ((h _).mpr hx'))]
      congr 1
      refine ih fun k => ?_
      rw [List.mem_cons, List.mem_cons, h]

/-- Only the keys of the rows matter. -/
theorem firstNew_congr_of_mem (h : ∀ x ∈ xs, (key x ∈ known ↔ key x ∈ known')) :
    firstNew key known xs = firstNew key known' xs := by
  induction xs generalizing known known' with
  | nil => rfl
  | cons x xs ih =>
    have hx := h x List.mem_cons_self
    have hxs : ∀ y ∈ xs, (key y ∈ known ↔ key y ∈ known') := fun y hy =>
      h y (List.mem_cons_of_mem _ hy)
    by_cases hmem : key x ∈ known
    · rw [firstNew_cons_of_mem hmem, firstNew_cons_of_mem (hx.mp hmem), ih hxs]
    · rw [firstNew_cons_of_notMem hmem, firstNew_cons_of_notMem (fun h' => hmem (hx.mpr h'))]
      congr 1
      refine ih fun y hy => ?_
      rw [List.mem_cons, List.mem_cons, hxs y hy]

/-- One statement after another. -/
theorem firstNew_append : firstNew key known (xs ++ ys)
    = firstNew key known xs ++ firstNew key ((firstNew key known xs).map key ++ known) ys := by
  induction xs generalizing known with
  | nil => rfl
  | cons x xs ih =>
    rw [List.cons_append]
    by_cases hx : key x ∈ known
    · rw [firstNew_cons_of_mem hx, firstNew_cons_of_mem hx, ih]
    · rw [firstNew_cons_of_notMem hx, firstNew_cons_of_notMem hx, ih, List.map_cons,
        List.cons_append]
      congr 2
      refine firstNew_congr fun k => ?_
      simp only [List.mem_append, List.mem_cons]
      tauto

/-- The first row of a new key is kept. -/
theorem mem_firstNew_of_first (hknown : key x ∉ known) (hfirst : ∀ y ∈ xs, key y ≠ key x) :
    x ∈ firstNew key known (xs ++ x :: ys) := by
  rw [firstNew_append]
  refine List.mem_append_right _ ?_
  rw [firstNew_cons_of_notMem]
  · exact List.mem_cons_self
  · intro hmem
    rcases List.mem_append.mp hmem with hmem | hmem
    · obtain ⟨y, hy, hkey⟩ := List.mem_map.mp hmem
      exact hfirst y (firstNew_sublist.mem hy) hkey
    · exact hknown hmem

/-- Dropping duplicates beforehand makes no difference. -/
theorem firstNew_firstNew (h : known' ⊆ known) :
    firstNew key known (firstNew key known' xs) = firstNew key known xs := by
  induction xs generalizing known known' with
  | nil => rfl
  | cons x xs ih =>
    by_cases hx' : key x ∈ known'
    · rw [firstNew_cons_of_mem hx', firstNew_cons_of_mem (h hx'), ih h]
    · rw [firstNew_cons_of_notMem hx']
      by_cases hx : key x ∈ known
      · rw [firstNew_cons_of_mem hx, firstNew_cons_of_mem hx]
        exact ih (List.cons_subset.mpr ⟨hx, h⟩)
      · rw [firstNew_cons_of_notMem hx, firstNew_cons_of_notMem hx]
        congr 1
        exact ih (List.cons_subset_cons _ h)

/-- Among rows with distinct keys only the known ones go. -/
theorem firstNew_eq_filter (hnodup : (xs.map key).Nodup) :
    firstNew key known xs = xs.filter fun x => key x ∉ known := by
  induction xs generalizing known with
  | nil => rfl
  | cons x xs ih =>
    obtain ⟨hhead, htail⟩ := List.nodup_cons.mp hnodup
    by_cases hx : key x ∈ known
    · rw [firstNew_cons_of_mem hx, List.filter_cons_of_neg (by simpa using hx), ih htail]
    · rw [firstNew_cons_of_notMem hx, List.filter_cons_of_pos (by simpa using hx), ih htail]
      refine congrArg (x :: ·) (List.filter_congr fun y hy => ?_)
      have hne : key y ≠ key x := fun heq => hhead (heq ▸ List.mem_map_of_mem hy)
      simp [hne]

/-! ### Tables -/

variable {table : List α}

/-- Inserting rows one by one. -/
theorem foldl_insertNew :
    xs.foldl (insertNew key) table = table ++ firstNew key (table.map key) xs := by
  induction xs generalizing table with
  | nil => simp
  | cons x xs ih =>
    rw [List.foldl_cons, ih]
    by_cases hx : key x ∈ table.map key
    · rw [insertNew, if_pos hx, firstNew_cons_of_mem hx]
    · rw [insertNew, if_neg hx, firstNew_cons_of_notMem hx, List.append_assoc]
      refine congrArg (table ++ ·) (congrArg (x :: ·) (firstNew_congr fun k => ?_))
      simp only [List.map_append, List.mem_append, List.map_cons, List.map_nil,
        List.mem_cons, List.not_mem_nil, or_false]
      tauto

theorem nodup_append_firstNew (h : (table.map key).Nodup) :
    ((table ++ firstNew key (table.map key) xs).map key).Nodup := by
  rw [List.map_append]
  refine List.nodup_append.mpr ⟨h, nodup_firstNew, ?_⟩
  rintro k hk _ hnew rfl
  exact (mem_map_firstNew.mp hnew).2 hk

end KeyedInsert
