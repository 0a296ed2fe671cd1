/-
Queries over lists of rows.

A table and the result of a query are lists of rows, each as often as it occurs.  The clauses
of `SELECT` are functions on them: `distinct`, `leftJoin`, `innerJoin`, `groupBy`, `orderBy`,
and the aggregates `countSome` and `countDistinct`.

* `leftJoin_eq_map` — a join that meets at most one row for each row on the left;
* `coalesce_groupBy` — a column looked up in a grouped table is the aggregate of the rows of
  its key, which are none for a missing group;
* `groupBy_flatMap` — grouping by the row that a join has started from;
* `sum_groups` — the sums of groups add up to the sum of their rows;
* `flatMap_pages` — the pages of a list, one after another.
-/
import Mathlib.Algebra.BigOperators.Group.List.Basic
import Mathlib.Data.List.Dedup
import Mathlib.Data.Finset.Card

namespace Relational

variable {α β γ κ : Type}

/-- `SELECT DISTINCT`. -/
def distinct [DecidableEq α] (rows : List α) : List α := rows.dedup

/-- `xs LEFT JOIN ys ON on`: a row without a match stays, with NULLs for the other. -/
def leftJoin (on : α → β → Bool) (xs : List α) (ys : List β) : List (α × Option β) :=
  xs.flatMap fun x => match ys.filter (on x) with
    | [] => [(x, none)]
    | matching => matching.map fun y => (x, some y)

/-- `xs JOIN ys ON on`. -/
def innerJoin (on : α → β → Bool) (xs : List α) (ys : List β) : List (α × β) :=
  xs.flatMap fun x => (ys.filter (on x)).map fun y => (x, y)

/-- `GROUP BY key`, with an aggregate of each group. -/
def groupBy [DecidableEq κ] (key : α → κ) (agg : List α → γ) (rows : List α) : List (κ × γ) :=
  (rows.map key).dedup.map fun k => (k, agg (rows.filter fun r => key r = k))

/-- `COUNT(column)`: a NULL is not counted. -/
def countSome (column : α → Option β) (rows : List α) : ℕ :=
  rows.countP fun r => (column r).isSome

/-- `COUNT(DISTINCT column)`. -/
def countDistinct [DecidableEq β] (column : α → β) (rows : List α) : ℕ :=
  (rows.map column).dedup.length

/-- `ORDER BY`. -/
def orderBy (le : α → α → Bool) (rows : List α) : List α := rows.mergeSort le

/-! ### Distinct values -/

theorem countDistinct_eq_card [DecidableEq β] {column : α → β} {rows : List α} :
    countDistinct column rows = (rows.map column).toFinset.card :=
  (List.card_toFinset _).symm

theorem mem_distinct [DecidableEq α] {rows : List α} {r : α} :
    r ∈ distinct rows ↔ r ∈ rows := List.mem_dedup

theorem nodup_distinct [DecidableEq α] {rows : List α} : (distinct rows).Nodup :=
  List.nodup_dedup rows

/-- Rows that no two share a key meet a key at most once. -/
theorem length_filter_le_one {f : α → κ} {p : α → Bool} {k : κ} {ys : List α}
    (hnodup : (ys.map f).Nodup) (hp : ∀ y, p y = true → f y = k) :
    (ys.filter p).length ≤ 1 := by
  have hkeys : (ys.filter p).map f = List.replicate (ys.filter p).length k := by
    rw [← List.length_map f]
    refine List.eq_replicate_of_mem fun b hb => ?_
    obtain ⟨y, hy, rfl⟩ := List.mem_map.mp hb
    exact hp y (List.mem_filter.mp hy).2
  have hnodup' : ((ys.filter p).map f).Nodup := hnodup.sublist (List.filter_sublist.map f)
  rw [hkeys] at hnodup'
  exact List.nodup_replicate.mp hnodup'

/-- Counting rows by the values of a column that tells them apart. -/
theorem length_filter_eq_card [DecidableEq β] {rows : List α} {p : α → Bool} (column : α → β)
    {values : Finset β} (hnodup : rows.Nodup)
    (hinj : ∀ r, p r = true → ∀ r', p r' = true → column r = column r' → r = r')
    (hvalues : ∀ b, b ∈ values ↔ ∃ r ∈ rows, p r = true ∧ column r = b) :
    (rows.filter p).length = values.card := by
  have hcolumn : ((rows.filter p).map column).Nodup :=
    (hnodup.filter p).map_on fun r hr r' hr' =>
      hinj r (List.mem_filter.mp hr).2 r' (List.mem_filter.mp hr').2
  have hset : ((rows.filter p).map column).toFinset = values := by
    ext b
    rw [List.mem_toFinset, List.mem_map, hvalues]
    simp only [List.mem_filter, and_assoc]
  rw [← hset, List.toFinset_card_of_nodup hcolumn, List.length_map]

/-! ### Joins -/

/-- A left join with at most one match for each row looks the match up. -/
theorem leftJoin_eq_map {on : α → β → Bool} {xs : List α} {ys : List β}
    (h : ∀ x ∈ xs, (ys.filter (on x)).length ≤ 1) :
    leftJoin on xs ys = xs.map fun x => (x, ys.find? (on x)) := by
  rw [← List.flatMap_pure_eq_map]
  refine List.flatMap_congr fun x hx => ?_
  have hlength := h x hx
  simp only [← List.head?_filter, Function.comp_apply, List.pure_def]
  match ys.filter (on x), hlength with
  | [], _ => rfl
  | [y], _ => rfl

/-- A row on the left stays, and nothing else comes from it. -/
theorem leftJoin_singleton {on : α → β → Bool} {x : α} {ys : List β} :
    leftJoin on [x] ys ≠ [] ∧ ∀ r ∈ leftJoin on [x] ys, r.1 = x := by
  rw [leftJoin, List.flatMap_singleton]
  cases ys.filter (on x) with
  | nil => exact ⟨List.cons_ne_nil _ _, by simp⟩
  | cons y matching => exact ⟨by simp, by simp⟩

/-- The matches of one row. -/
theorem countSome_leftJoin_singleton {on : α → β → Bool} {x : α} {ys : List β}
    {column : β → γ} :
    countSome (fun r => r.2.map column) (leftJoin on [x] ys) = (ys.filter (on x)).length := by
  rw [countSome, leftJoin, List.flatMap_singleton]
  cases ys.filter (on x) with
  | nil => rfl
  | cons y matching =>
    rw [List.countP_eq_length.mpr, List.length_map]
    intro r hr
    obtain ⟨y', -, rfl⟩ := List.mem_map.mp hr
    rfl

/-- Counting the rows of a join by the row on the left, with at most one match for each. -/
theorem length_filter_innerJoin {on : α → β → Bool} {p : α → Bool} {xs : List α} {ys : List β}
    (h : ∀ x ∈ xs, (ys.filter (on x)).length ≤ 1) :
    ((innerJoin on xs ys).filter fun r => p r.1).length
      = (xs.filter fun x => (ys.find? (on x)).isSome && p x).length := by
  induction xs with
  | nil => rfl
  | cons x xs ih =>
    have htail := ih fun x' hx' => h x' (List.mem_cons_of_mem _ hx')
    have hhead : (((ys.filter (on x)).map fun y => (x, y)).filter fun r => p r.1).length
        = if (ys.find? (on x)).isSome && p x then 1 else 0 := by
      have hlength := h x List.mem_cons_self
      rw [← List.head?_filter]
      match ys.filter (on x), hlength with
      | [], _ => rfl
      | [y], _ => cases hp : p x <;> simp [hp]
    rw [innerJoin, List.flatMap_cons, List.filter_append, List.length_append, hhead]
    rw [innerJoin] at htail
    rw [htail, List.filter_cons]
    split_ifs
    · rw [List.length_cons, Nat.add_comm]
    · rw [Nat.zero_add]

theorem countSome_map {column : β → Option γ} {f : α → β} {rows : List α} :
    countSome column (rows.map f) = countSome (fun r => column (f r)) rows := by
  rw [countSome, List.countP_map]
  rfl

theorem countSome_filter {column : α → Option β} {p : α → Bool} {rows : List α} :
    countSome column (rows.filter p)
      = (rows.filter fun r => (column r).isSome && p r).length := by
  rw [countSome, List.countP_eq_length_filter, List.filter_filter]

/-! ### Groups -/

section Groups

variable [DecidableEq κ] {key : α → κ} {agg : List α → γ} {rows : List α} {k : κ}

theorem map_fst_groupBy : (groupBy key agg rows).map Prod.fst = (rows.map key).dedup := by
  rw [groupBy, List.map_map]
  exact List.map_id _

theorem length_filter_groupBy_le_one :
    ((groupBy key agg rows).filter fun r => r.1 = k).length ≤ 1 := by
  have hnodup : ((groupBy key agg rows).map Prod.fst).Nodup := by
    rw [map_fst_groupBy]
    exact List.nodup_dedup _
  exact length_filter_le_one hnodup fun y hy => of_decide_eq_true hy

theorem find?_key (keys : List κ) (k : κ) :
    keys.find? (fun k' => k' = k) = if k ∈ keys then some k else none := by
  induction keys with
  | nil => rfl
  | cons k' keys ih =>
    rw [List.find?_cons]
    by_cases h : k' = k
    · simp [h]
    · simp [h, Ne.symm h, ih]

theorem find?_groupBy : (groupBy key agg rows).find? (fun r => r.1 = k)
    = if k ∈ rows.map key then some (k, agg (rows.filter fun r => key r = k)) else none := by
  rw [groupBy, List.find?_map]
  have hfind := find?_key (rows.map key).dedup k
  simp only [Function.comp_def, hfind, List.mem_dedup]
  split_ifs <;> rfl

theorem filter_key_eq_nil (h : k ∉ rows.map key) : (rows.filter fun r => key r = k) = [] := by
  rw [List.filter_eq_nil_iff]
  intro r hr hkey
  exact h (of_decide_eq_true hkey ▸ List.mem_map_of_mem hr)

/-- `COALESCE` of an aggregate after a left join with the grouped table: a missing group
counts as no rows. -/
theorem coalesce_groupBy (g : γ → β) {default : β} (h : default = g (agg [])) :
    (((groupBy key agg rows).find? fun r => r.1 = k).map fun r => g r.2).getD default
      = g (agg (rows.filter fun r => key r = k)) := by
  rw [find?_groupBy]
  split_ifs with hmem
  · rfl
  · rw [filter_key_eq_nil hmem, h]
    rfl

/-- A left join with a grouped table looks the group up. -/
theorem leftJoin_groupBy {k : β → κ} {xs : List β} :
    leftJoin (fun x r => r.1 = k x) xs (groupBy key agg rows)
      = xs.map fun x => (x, (groupBy key agg rows).find? fun r => r.1 = k x) :=
  leftJoin_eq_map fun _ _ => length_filter_groupBy_le_one

theorem dedup_replicate_append {n : ℕ} {keys : List κ} (h : k ∉ keys) :
    (List.replicate (n + 1) k ++ keys).dedup = k :: keys.dedup := by
  induction n with
  | zero => exact List.dedup_cons_of_notMem h
  | succ n ih =>
    rw [List.replicate_succ, List.cons_append, List.dedup_cons_of_mem, ih]
    exact List.mem_append_left _ List.mem_cons_self

/-- Grouping by the row of `xs` that each row comes from gives one group for each. -/
theorem groupBy_flatMap {xs : List κ} {block : κ → List α} (hnodup : xs.Nodup)
    (hblock : ∀ x, block x ≠ [] ∧ ∀ r ∈ block x, key r = x) :
    groupBy key agg (xs.flatMap block) = xs.map fun x => (x, agg (block x)) := by
  have hkeys : ∀ x, (block x).map key = List.replicate (block x).length x := by
    intro x
    rw [← List.length_map key]
    refine List.eq_replicate_of_mem fun k hk => ?_
    obtain ⟨r, hr, rfl⟩ := List.mem_map.mp hk
    exact (hblock x).2 r hr
  have hdedup : ∀ ys : List κ, ys.Nodup → ((ys.flatMap block).map key).dedup = ys := by
    intro ys hys
    induction ys with
    | nil => rfl
    | cons y ys ih =>
      obtain ⟨hy, hys⟩ := List.nodup_cons.mp hys
      obtain ⟨n, hn⟩ := Nat.exists_eq_succ_of_ne_zero
        (mt List.length_eq_zero_iff.mp (hblock y).1)
      rw [List.flatMap_cons, List.map_append, hkeys y, hn, dedup_replicate_append, ih hys]
      intro hmem
      rw [← List.mem_dedup, ih hys] at hmem
      exact hy hmem
  rw [groupBy, hdedup xs hnodup]
  refine List.map_congr_left fun x hx => congrArg (fun rows => (x, agg rows)) ?_
  have hfilter : ∀ y, (block y).filter (fun r => key r = x) = if y = x then block y else [] := by
    intro y
    split_ifs with h
    · exact List.filter_eq_self.mpr fun r hr => decide_eq_true (((hblock y).2 r hr).trans h)
    · refine List.filter_eq_nil_iff.mpr fun r hr hkey => h ?_
      exact ((hblock y).2 r hr).symm.trans (of_decide_eq_true hkey)
  rw [List.filter_flatMap]
  simp only [hfilter]
  -- only the block of `x` is left, and `x` occurs once
  obtain ⟨before, after, rfl⟩ := List.append_of_mem hx
  have hne : ∀ y, y ∈ before ∨ y ∈ after → y ≠ x := by
    intro y hy hyx
    subst hyx
    rw [List.nodup_append] at hnodup
    rcases hy with hy | hy
    · exact hnodup.2.2 y hy y List.mem_cons_self rfl
    · exact (List.nodup_cons.mp hnodup.2.1).1 hy
  have hnil : ∀ ys : List κ, (∀ y ∈ ys, y ≠ x) →
      (ys.flatMap fun y => if y = x then block y else []) = [] := by
    intro ys hys
    rw [List.flatMap_eq_nil_iff]
    intro y hy
    exact if_neg (hys y hy)
  rw [List.flatMap_append, List.flatMap_cons, if_pos rfl,
    hnil before fun y hy => hne y (.inl hy), hnil after fun y hy => hne y (.inr hy),
    List.nil_append, List.append_nil]

/-- Grouping a left join by the row on the left. -/
theorem groupBy_leftJoin {on : κ → β → Bool} {agg : List (κ × Option β) → γ} {xs : List κ}
    {ys : List β} (hnodup : xs.Nodup) :
    groupBy Prod.fst agg (leftJoin on xs ys)
      = xs.map fun x => (x, agg (leftJoin on [x] ys)) := by
  have hflat : leftJoin on xs ys = xs.flatMap fun x => leftJoin on [x] ys :=
    List.flatMap_congr fun x _ => by rw [leftJoin, List.flatMap_singleton]
  rw [hflat]
  exact groupBy_flatMap hnodup fun x => leftJoin_singleton

/-- The sums of groups add up to the sum of their rows. -/
theorem sum_groups {M : Type} [AddCommMonoid M] {keys : List κ} (hnodup : keys.Nodup)
    (f : α → M) (rows : List α) :
    (keys.map fun k => ((rows.filter fun r => key r = k).map f).sum).sum
      = ((rows.filter fun r => key r ∈ keys).map f).sum := by
  induction keys with
  | nil => simp
  | cons k keys ih =>
    obtain ⟨hk, hnodup'⟩ := List.nodup_cons.mp hnodup
    rw [List.map_cons, List.sum_cons, ih hnodup']
    clear ih hnodup hnodup'
    -- a row is of the first group or of one of the others
    induction rows with
    | nil => simp
    | cons r rows ihrows =>
      simp only [List.mem_cons] at ihrows ⊢
      by_cases hfirst : key r = k
      · simp only [List.filter_cons, hfirst, decide_true, true_or, if_true, List.map_cons,
          List.sum_cons, add_assoc]
        rw [if_neg (by simpa using hk), ihrows]
      · by_cases hmem : key r ∈ keys
        · simp only [List.filter_cons, hfirst, hmem, decide_true, decide_false, or_true, if_true,
            Bool.false_eq_true, if_false, List.map_cons, List.sum_cons]
          rw [← ihrows, add_left_comm]
        · simp only [List.filter_cons, hfirst, hmem, decide_false, or_self, Bool.false_eq_true,
            if_false]
          exact ihrows

end Groups

/-! ### Order -/

/-- The order of the rows is determined. -/
theorem orderBy_eq {le : α → α → Bool} {rows rows' : List α}
    (htrans : ∀ a b c, le a b → le b c → le a c) (htotal : ∀ a b, le a b || le b a)
    (hantisymm : ∀ a b, le a b → le b a → a = b) (hperm : rows.Perm rows')
    (hsorted : rows'.Pairwise fun a b => le a b = true) : orderBy le rows = rows' :=
  List.Perm.eq_of_pairwise (fun a b _ _ => hantisymm a b)
    (List.pairwise_mergeSort htrans htotal rows) hsorted ((List.mergeSort_perm rows le).trans hperm)

/-! ### Pages -/

/-- Pages of `size` rows, one after another. -/
theorem flatMap_pages {rows : List α} {size : ℕ} (pages : ℕ) :
    ((List.range pages).flatMap fun k => (rows.drop (k * size)).take size)
      = rows.take (pages * size) := by
  induction pages with
  | zero => simp
  | succ n ih =>
    rw [List.range_succ, List.flatMap_append, ih, List.flatMap_singleton, Nat.succ_mul,
      List.take_add]

end Relational
