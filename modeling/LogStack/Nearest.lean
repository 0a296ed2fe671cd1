/-
The nearest member of a finite set.

Of two members that are equally near, the smaller one is taken.

* `nearest_mem`, `nearest_le` — it is a member, and no other is nearer;
* `nearest_of_mem` — a member is its own nearest;
* `nearest_mono` — the order is kept.
-/
import Mathlib.Algebra.Order.Group.Unbundled.Abs
import Mathlib.Algebra.Order.Ring.Defs
import Mathlib.Data.Finset.Max
import Mathlib.Tactic.Linarith

namespace Nearest

variable {α : Type} [CommRing α] [LinearOrder α]

/-- The members at the least distance. -/
def closest (s : Finset α) (q : α) : Finset α := s.filter fun d => ∀ e ∈ s, |d - q| ≤ |e - q|

variable {s : Finset α} {d q : α}

theorem mem_closest : d ∈ closest s q ↔ d ∈ s ∧ ∀ e ∈ s, |d - q| ≤ |e - q| := Finset.mem_filter

theorem closest_nonempty (hs : s.Nonempty) (q : α) : (closest s q).Nonempty := by
  obtain ⟨d, hd, hmin⟩ := s.exists_min_image (fun e => |e - q|) hs
  exact ⟨d, mem_closest.mpr ⟨hd, hmin⟩⟩

def nearest (s : Finset α) (hs : s.Nonempty) (q : α) : α :=
  (closest s q).min' (closest_nonempty hs q)

variable (hs : s.Nonempty)

theorem nearest_mem_closest (q : α) : nearest s hs q ∈ closest s q := Finset.min'_mem _ _

theorem nearest_mem (q : α) : nearest s hs q ∈ s := (mem_closest.mp (nearest_mem_closest hs q)).1

theorem nearest_le (hd : d ∈ s) : |nearest s hs q - q| ≤ |d - q| :=
  (mem_closest.mp (nearest_mem_closest hs q)).2 d hd

/-- A member below the nearest one is farther away. -/
theorem lt_of_lt_nearest (hd : d ∈ s) (h : d < nearest s hs q) :
    |nearest s hs q - q| < |d - q| := by
  refine lt_of_le_of_ne (nearest_le hs hd) fun heq => ?_
  have hclosest : d ∈ closest s q :=
    mem_closest.mpr ⟨hd, fun e he => heq ▸ nearest_le hs he⟩
  exact absurd ((closest s q).min'_le d hclosest) (not_le.mpr h)

variable [IsStrictOrderedRing α]

theorem nearest_of_mem (h : q ∈ s) : nearest s hs q = q := by
  have hzero := nearest_le hs h (q := q)
  rw [sub_self, abs_zero, abs_nonpos_iff, sub_eq_zero] at hzero
  exact hzero

theorem nearest_mono : Monotone (nearest s hs) := by
  intro q q' hle
  by_contra hlt
  rw [not_le] at hlt
  have hfar := lt_of_lt_nearest hs (nearest_mem hs q') hlt
  have hnear := nearest_le hs (nearest_mem hs q) (q := q')
  set d := nearest s hs q
  set d' := nearest s hs q'
  -- the first number is above the smaller member, so the second one is, too
  have habove : d' < q := by
    by_contra hbelow
    rw [not_lt] at hbelow
    rw [abs_of_nonneg (sub_nonneg.mpr hbelow),
      abs_of_nonneg (sub_nonneg.mpr (hbelow.trans hlt.le))] at hfar
    linarith
  rw [abs_of_neg (sub_neg.mpr habove)] at hfar
  rw [abs_of_neg (sub_neg.mpr (habove.trans_le hle))] at hnear
  rcases le_total q' d with hbelow | hbeyond
  · rw [abs_of_nonneg (sub_nonneg.mpr (hle.trans hbelow))] at hfar
    rw [abs_of_nonneg (sub_nonneg.mpr hbelow)] at hnear
    linarith
  · rw [abs_of_nonpos (sub_nonpos.mpr hbeyond)] at hnear
    linarith

end Nearest
