/-
A table with a unique key that concurrent transactions insert into.

A row is committed, or it is pending and belongs to the transaction that inserted it.  Under
READ COMMITTED `INSERT … ON CONFLICT DO NOTHING` skips a row whose key the transaction sees,
and waits while the key belongs to a pending row of another one; what it does then depends on
whether that one commits or aborts.

* `SharedTable.insert?` — one row of the statement; `none` while it waits;
* `SharedTable.Unique` — no key twice among all rows, pending ones included; the operations
  keep it;
* `SharedTable.Inserted` — a statement has inserted what it would have inserted into the
  committed rows alone; the other transactions do not change that.
-/
import LogStack.KeyedInsert
import Mathlib.Data.List.Nodup
import Mathlib.Data.List.Perm.Basic

structure SharedTable (ι α : Type) where
  committed : List α
  pending : List (ι × α)

open KeyedInsert

namespace SharedTable

variable {ι α κ : Type} [DecidableEq ι]

def empty : SharedTable ι α := ⟨[], []⟩

variable (t : SharedTable ι α) (i : ι) (key : α → κ)

/-- The pending rows of transaction `i`. -/
def own : List α := (t.pending.filter fun p => p.1 = i).map Prod.snd

/-- The rows that transaction `i` sees. -/
def visible : List α := t.committed ++ t.own i

/-- All rows, whoever sees them. -/
def rows : List α := t.committed ++ t.pending.map Prod.snd

def insert (row : α) : SharedTable ι α := { t with pending := t.pending ++ [(i, row)] }

def commit : SharedTable ι α where
  committed := t.visible i
  pending := t.pending.filter fun p => p.1 ≠ i

def abort : SharedTable ι α := { t with pending := t.pending.filter fun p => p.1 ≠ i }

/-- `ON CONFLICT DO NOTHING` of one row: skipped, waiting, or inserted. -/
def insert? [DecidableEq κ] (row : α) : Option (SharedTable ι α) :=
  if key row ∈ (t.visible i).map key then some t
  else if key row ∈ t.rows.map key then none
  else some (t.insert i row)

/-- No key twice. -/
def Unique : Prop := (t.rows.map key).Nodup

/-! ### The pending rows after each operation -/

variable {t i key} {row : α} {j : ι}

omit [DecidableEq ι] in
@[simp] theorem committed_insert : (t.insert i row).committed = t.committed := rfl

@[simp] theorem committed_commit : (t.commit i).committed = t.visible i := rfl

@[simp] theorem own_insert_self : (t.insert i row).own i = t.own i ++ [row] := by
  simp [own, insert]

theorem own_insert_of_ne (h : j ≠ i) : (t.insert i row).own j = t.own j := by
  simp [own, insert, h.symm]

theorem own_filter_ne_self :
    (((t.pending.filter fun p => p.1 ≠ i).filter fun p => p.1 = i).map Prod.snd) = [] := by
  rw [List.filter_filter, List.map_eq_nil_iff, List.filter_eq_nil_iff]
  intro p _
  simp

theorem own_filter_ne_of_ne (h : j ≠ i) :
    ((t.pending.filter fun p => p.1 ≠ i).filter fun p => p.1 = j).map Prod.snd = t.own j := by
  rw [own, List.filter_filter]
  refine congrArg (List.map Prod.snd) (List.filter_congr fun p _ => ?_)
  by_cases hp : p.1 = j
  · simp [hp, h]
  · simp [hp]

@[simp] theorem own_commit_self : (t.commit i).own i = [] := own_filter_ne_self

theorem own_commit_of_ne (h : j ≠ i) : (t.commit i).own j = t.own j := own_filter_ne_of_ne h

@[simp] theorem own_abort_self : (t.abort i).own i = [] := own_filter_ne_self

theorem own_abort_of_ne (h : j ≠ i) : (t.abort i).own j = t.own j := own_filter_ne_of_ne h

/-! ### Uniqueness -/

omit [DecidableEq ι] in
theorem unique_empty : Unique (empty : SharedTable ι α) key := List.nodup_nil

omit [DecidableEq ι] in
theorem Unique.insert (hu : t.Unique key) (h : key row ∉ t.rows.map key) :
    (t.insert i row).Unique key := by
  have hrows : (t.insert i row).rows = t.rows ++ [row] := by
    simp [rows, SharedTable.insert]
  rw [Unique, hrows, List.map_append]
  refine List.nodup_append.mpr ⟨hu, List.nodup_singleton _, ?_⟩
  rintro k hk _ hrow rfl
  rw [List.map_singleton, List.mem_singleton] at hrow
  exact h (hrow ▸ hk)

theorem rows_commit_perm : (t.commit i).rows.Perm t.rows := by
  have hpending : ((t.pending.filter fun p => p.1 = i) ++
      t.pending.filter fun p => p.1 ≠ i).Perm t.pending := by
    simpa only [decide_not] using List.filter_append_perm (fun p => decide (p.1 = i)) t.pending
  rw [rows, committed_commit, visible, List.append_assoc, rows, own, commit, ← List.map_append]
  exact (hpending.map _).append_left _

theorem Unique.commit (hu : t.Unique key) : (t.commit i).Unique key :=
  ((rows_commit_perm.map key).nodup_iff).mpr hu

theorem Unique.abort (hu : t.Unique key) : (t.abort i).Unique key := by
  have hsublist : (t.abort i).rows.Sublist t.rows :=
    (List.filter_sublist.map _).append_left _
  exact hu.sublist (hsublist.map key)

theorem visible_sublist_rows : (t.visible i).Sublist t.rows :=
  (List.filter_sublist.map _).append_left _

theorem Unique.visible (hu : t.Unique key) : ((t.visible i).map key).Nodup :=
  hu.sublist (visible_sublist_rows.map key)

theorem Unique.own (hu : t.Unique key) : ((t.own i).map key).Nodup :=
  hu.visible.sublist ((List.sublist_append_right _ _).map key)

omit [DecidableEq ι] in
theorem Unique.committed (hu : t.Unique key) : (t.committed.map key).Nodup :=
  hu.sublist ((List.sublist_append_left _ _).map key)

/-! ### One row of a statement -/

/-- What one row of the statement does: its key is visible afterwards, or the row is. -/
theorem insert?_eq_some [DecidableEq κ] {t' : SharedTable ι α} (h : t.insert? i key row = some t') :
    t' = t ∧ key row ∈ (t.visible i).map key ∨
      t' = t.insert i row ∧ key row ∉ t.rows.map key := by
  rw [insert?] at h
  split_ifs at h with hvisible hrows
  · exact .inl ⟨(Option.some.inj h).symm, hvisible⟩
  · exact .inr ⟨(Option.some.inj h).symm, hrows⟩

/-- It changes no row of the others and commits nothing. -/
theorem frame_insert? [DecidableEq κ] {t' : SharedTable ι α}
    (h : t.insert? i key row = some t') :
    t'.committed = t.committed ∧ ∀ j, j ≠ i → t'.own j = t.own j := by
  obtain ⟨rfl, -⟩ | ⟨rfl, -⟩ := insert?_eq_some h
  · exact ⟨rfl, fun _ _ => rfl⟩
  · exact ⟨rfl, fun _ hj => own_insert_of_ne hj⟩

theorem Unique.insert? [DecidableEq κ] {t' : SharedTable ι α} (hu : t.Unique key)
    (h : t.insert? i key row = some t') : t'.Unique key := by
  obtain ⟨rfl, -⟩ | ⟨rfl, hfree⟩ := insert?_eq_some h
  · exact hu
  · exact hu.insert hfree

/-! ### A statement among the others -/

section Inserted

variable [DecidableEq κ] {done : List α}

/-- The rows of transaction `i` are those that a statement on the rows `done` keeps when it
finds the committed rows and nothing else. -/
def Inserted (t : SharedTable ι α) (i : ι) (key : α → κ) (done : List α) : Prop :=
  t.own i = firstNew key (t.committed.map key) done

/-- One more row of the statement. -/
theorem Inserted.concat {t' : SharedTable ι α} (h : t.Inserted i key done)
    (hinsert : t.insert? i key row = some t') : t'.Inserted i key (done ++ [row]) := by
  have hown : ∀ k, k ∈ (firstNew key (t.committed.map key) done).map key ++ t.committed.map key
      ↔ k ∈ (t.visible i).map key := by
    intro k
    rw [visible, h, List.map_append, List.mem_append, List.mem_append]
    exact or_comm
  rw [Inserted, (frame_insert? hinsert).1, firstNew_append]
  obtain ⟨rfl, hvisible⟩ | ⟨rfl, hfree⟩ := insert?_eq_some hinsert
  · rw [firstNew_cons_of_mem ((hown _).mpr hvisible), firstNew_nil, List.append_nil]
    exact h
  · -- a key that no row has is not visible
    have hnew : key row ∉ (t.visible i).map key := fun hmem =>
      hfree ((visible_sublist_rows.map key).mem hmem)
    rw [firstNew_cons_of_notMem (fun hmem => hnew ((hown _).mp hmem)), firstNew_nil,
      own_insert_self]
    exact congrArg (· ++ [row]) h

/-- A row of another transaction. -/
theorem Inserted.insert? {t' : SharedTable ι α} (h : t.Inserted j key done)
    (hinsert : t.insert? i key row = some t') (hj : j ≠ i) : t'.Inserted j key done := by
  obtain ⟨hcommitted, hown⟩ := frame_insert? hinsert
  rw [Inserted, hcommitted, hown j hj]
  exact h

/-- **Another transaction commits.** Its keys are not those of the statement's rows: they would
be visible to both, or one would still wait for the other. -/
theorem Inserted.commit (h : t.Inserted j key done) (hu : t.Unique key) (hj : j ≠ i) :
    (t.commit i).Inserted j key done := by
  have hfresh : ∀ x ∈ done, key x ∈ (t.own i).map key → key x ∈ t.committed.map key := by
    intro x hx hmem
    rcases (mem_known_or hx : key x ∈ t.committed.map key ∨ _) with hknown | hnew
    · exact hknown
    · -- the row is pending for `j`, and a row with its key is pending for `i`
      rw [← h] at hnew
      obtain ⟨y, hy, hyx⟩ := List.mem_map.mp hmem
      obtain ⟨z, hz, hzx⟩ := List.mem_map.mp hnew
      obtain ⟨⟨i', y'⟩, hy', rfl⟩ := List.mem_map.mp hy
      obtain ⟨⟨j', z'⟩, hz', rfl⟩ := List.mem_map.mp hz
      obtain ⟨hpi, hi'⟩ := List.mem_filter.mp hy'
      obtain ⟨hpj, hj'⟩ := List.mem_filter.mp hz'
      have hpending : ((t.pending.map Prod.snd).map key).Nodup :=
        hu.sublist ((List.sublist_append_right _ _).map key)
      rw [List.map_map] at hpending
      have hsame := List.inj_on_of_nodup_map hpending hpi hpj (hyx.trans hzx.symm)
      have hij : i = j := by
        rw [← of_decide_eq_true hi', ← of_decide_eq_true hj']
        exact congrArg Prod.fst hsame
      exact absurd hij.symm hj
  rw [Inserted, own_commit_of_ne hj, committed_commit, visible, List.map_append, h]
  refine firstNew_congr_of_mem fun x hx => ?_
  rw [List.mem_append]
  exact ⟨.inl, fun hmem => hmem.elim id (hfresh x hx)⟩

theorem Inserted.abort (h : t.Inserted j key done) (hj : j ≠ i) :
    (t.abort i).Inserted j key done := by
  rw [Inserted, own_abort_of_ne hj]
  exact h

end Inserted

end SharedTable
