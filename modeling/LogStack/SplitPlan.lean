/-
The plan that a 413 leaves for the head of the queue (`sender/src/daemon.ts`).

* `SplitPlan` — no segment is empty, and together they lie at the head of the queue;
* `Capped` — no segment is longer than a batch may be;
* `InHead` — a batch within the first segment;
* `SplitPlan.split`, `SplitPlan.advance` — splitting such a batch, and dealing with it, keep
  the plan;
* `length_lt_split`, `length_le_advance` — a split adds a segment, and a batch that is dealt
  with takes away at most one.
-/
import LogStack.Daemon
import Mathlib.Algebra.BigOperators.Group.List.Basic

namespace Sender

structure SplitPlan (segments : List ℕ) (pendingCount : ℕ) : Prop where
  pos : ∀ size ∈ segments, 0 < size
  sum_le : segments.sum ≤ pendingCount

/-- A batch of `count` events that lies within the first segment, or without a plan within
the queue. -/
structure InHead (segments : List ℕ) (pendingCount count : ℕ) : Prop where
  pos : 0 < count
  le : count ≤ segments.headD pendingCount

variable {segments : List ℕ} {pendingCount count size : ℕ}

theorem SplitPlan.nil : SplitPlan [] pendingCount where
  pos := fun _ h => absurd h List.not_mem_nil
  sum_le := Nat.zero_le _

/-- Appending to the queue leaves the plan at its head. -/
theorem SplitPlan.mono {pendingCount' : ℕ} (h : SplitPlan segments pendingCount)
    (hle : pendingCount ≤ pendingCount') : SplitPlan segments pendingCount' where
  pos := h.pos
  sum_le := h.sum_le.trans hle

theorem InHead.mono {pendingCount' : ℕ} (h : InHead segments pendingCount count)
    (hle : pendingCount ≤ pendingCount') : InHead segments pendingCount' count where
  pos := h.pos
  le := by
    cases segments with
    | nil => exact h.le.trans hle
    | cons size rest => exact h.le

theorem InHead.le_pending (hplan : SplitPlan segments pendingCount)
    (h : InHead segments pendingCount count) : count ≤ pendingCount := by
  cases segments with
  | nil => exact h.le
  | cons size rest =>
    have hsum := hplan.sum_le
    have hle : count ≤ size := h.le
    rw [List.sum_cons] at hsum
    omega

/-- Each segment holds an event of the queue. -/
theorem SplitPlan.length_le (h : SplitPlan segments pendingCount) :
    segments.length ≤ pendingCount :=
  (List.length_le_sum_of_one_le segments h.pos).trans h.sum_le

theorem sum_filter_pos (sizes : List ℕ) :
    (sizes.filter (fun size => 0 < size)).sum = sizes.sum := by
  induction sizes with
  | nil => rfl
  | cons size sizes ih =>
    rw [List.filter_cons, List.sum_cons]
    split_ifs with h
    · rw [List.sum_cons, ih]
    · have hzero : size = 0 := by simpa using h
      rw [ih, hzero, Nat.zero_add]

/-- No segment is longer than a batch may be. -/
def Capped (segments : List ℕ) : Prop := ∀ size ∈ segments, size ≤ MAX_EVENTS_PER_BATCH

theorem Capped.nil : Capped [] := fun _ h => absurd h List.not_mem_nil

theorem Capped.currentBatchCap (h : Capped segments) :
    currentBatchCap segments ≤ MAX_EVENTS_PER_BATCH := by
  cases segments with
  | nil => exact le_rfl
  | cons size rest => exact h size List.mem_cons_self

/-! ### Splitting -/

theorem sum_splitCurrentBatch (h : count ≤ segments.headD count) :
    (splitCurrentBatch segments count).sum = segments.headD count + segments.tail.sum := by
  rw [splitCurrentBatch, List.sum_append, sum_filter_pos]
  simp only [List.sum_cons, List.sum_nil]
  omega

/-- Two events or more leave two halves, neither of them empty. -/
theorem length_splitCurrentBatch (segments : List ℕ) (h : 2 ≤ count) :
    segments.tail.length + 2 ≤ (splitCurrentBatch segments count).length := by
  have hleft : 0 < (count + 1) / 2 := by omega
  have hright : 0 < count - (count + 1) / 2 := by omega
  rw [splitCurrentBatch, List.length_append, List.filter_cons_of_pos (by simpa using hleft),
    List.filter_cons_of_pos (by simpa using hright), List.length_cons, List.length_cons]
  omega

theorem headD_count (h : InHead segments pendingCount count) :
    count ≤ segments.headD count := by
  cases segments with
  | nil => exact le_rfl
  | cons size rest => exact h.le

theorem SplitPlan.split (hplan : SplitPlan segments pendingCount)
    (h : InHead segments pendingCount count) :
    SplitPlan (splitCurrentBatch segments count) pendingCount where
  pos := by
    intro size hsize
    rcases List.mem_append.mp hsize with hsize | hsize
    · simpa using (List.mem_filter.mp hsize).2
    · exact hplan.pos size (List.mem_of_mem_tail hsize)
  sum_le := by
    rw [sum_splitCurrentBatch (headD_count h)]
    cases segments with
    | nil => exact h.le
    | cons size rest =>
      have hsum := hplan.sum_le
      rwa [List.sum_cons] at hsum

theorem Capped.split (h : Capped segments) (hcount : count ≤ MAX_EVENTS_PER_BATCH) :
    Capped (splitCurrentBatch segments count) := by
  have hhead : segments.headD count ≤ MAX_EVENTS_PER_BATCH := by
    cases segments with
    | nil => exact hcount
    | cons size rest => exact h size List.mem_cons_self
  intro size hsize
  rcases List.mem_append.mp hsize with hsize | hsize
  · have hmem := (List.mem_filter.mp hsize).1
    simp only [List.mem_cons, List.not_mem_nil, or_false] at hmem
    rcases hmem with rfl | rfl | rfl <;> omega
  · exact h size (List.mem_of_mem_tail hsize)

theorem length_lt_split (segments : List ℕ) (h : 2 ≤ count) :
    segments.length < (splitCurrentBatch segments count).length := by
  have hlength := length_splitCurrentBatch segments h
  rw [List.length_tail] at hlength
  omega

/-! ### Advancing -/

theorem advanceSplitSegments_zero : advanceSplitSegments 0 segments = segments := by
  cases segments with
  | nil => rfl
  | cons size rest => rw [advanceSplitSegments, if_pos rfl]

/-- A batch within the first segment leaves the rest of it, if there is one. -/
theorem advanceSplitSegments_cons (hpos : 0 < count) (hle : count ≤ size) :
    advanceSplitSegments count (size :: segments)
      = if count < size then (size - count) :: segments else segments := by
  rw [advanceSplitSegments, if_neg (by omega)]
  split_ifs with hlt
  · rfl
  · rw [show count - size = 0 by omega, advanceSplitSegments_zero]

theorem SplitPlan.advance (hplan : SplitPlan segments pendingCount)
    (h : InHead segments pendingCount count) :
    SplitPlan (advanceSplitSegments count segments) (pendingCount - count) := by
  cases segments with
  | nil => exact .nil
  | cons size rest =>
    have hle : count ≤ size := h.le
    have hsum := hplan.sum_le
    rw [List.sum_cons] at hsum
    rw [advanceSplitSegments_cons h.pos hle]
    split_ifs with hlt
    · refine ⟨fun size' hsize' => ?_, ?_⟩
      · rcases List.mem_cons.mp hsize' with rfl | hsize'
        · omega
        · exact hplan.pos size' (List.mem_cons_of_mem _ hsize')
      · rw [List.sum_cons]
        omega
    · exact ⟨fun size' hsize' => hplan.pos size' (List.mem_cons_of_mem _ hsize'), by omega⟩

theorem Capped.advance (h : Capped segments) (remaining : ℕ) :
    Capped (advanceSplitSegments remaining segments) := by
  induction segments generalizing remaining with
  | nil => exact .nil
  | cons current rest ih =>
    have hcurrent : current ≤ MAX_EVENTS_PER_BATCH := h current List.mem_cons_self
    have hrest : Capped rest := fun size hsize => h size (List.mem_cons_of_mem _ hsize)
    rw [advanceSplitSegments]
    split_ifs with hzero hlt
    · exact h
    · refine List.forall_mem_cons.mpr ⟨?_, hrest⟩
      omega
    · exact ih hrest _

theorem length_le_advance (h : InHead segments pendingCount count) :
    segments.length ≤ (advanceSplitSegments count segments).length + 1 := by
  cases segments with
  | nil => exact Nat.zero_le _
  | cons size rest =>
    have hle : count ≤ size := h.le
    rw [advanceSplitSegments_cons h.pos hle]
    split_ifs with hlt
    · rw [List.length_cons, List.length_cons]
      omega
    · rw [List.length_cons]

end Sender
